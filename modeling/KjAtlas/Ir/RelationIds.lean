import KjAtlas.Foundation.PrefixCode
import KjAtlas.Ir.Projected

/-! # Ids of projected relations

A projected relation is identified by its type and its endpoints, joined with
colons. Ids of cards are arbitrary texts, so relations between different cards may
have one id.
-/

namespace KjAtlas

/-! ## Which relations are kept -/

structure SourceRelation.Projected (relation : SourceRelation) (cardIds : List String) :
    Prop where
  fromCard : relation.fromKind ≠ some .island
  toCard : relation.toKind ≠ some .island
  known : relation.type ∈ relationTypes
  within : relation.fromId ∈ cardIds ∧ relation.toId ∈ cardIds

def IrRelation.key (relation : IrRelation) : String × String × String :=
  (relation.fromId, relation.toId, relation.type)

variable {cardIds : List String} {sourceRelations : List SourceRelation}
  {seen : List (String × String × String)}

theorem kept_of_skip {head : SourceRelation} {relation : IrRelation}
    (hskip : head.Projected cardIds → head.key ∈ seen) :
    (∃ source ∈ head :: sourceRelations, source.Projected cardIds ∧ source.key ∉ seen ∧
      source.toIr = relation) ↔
    ∃ source ∈ sourceRelations, source.Projected cardIds ∧ source.key ∉ seen ∧
      source.toIr = relation := by
  rw [List.exists_mem_cons_iff, or_iff_right]
  rintro ⟨hprojected, hnew, -⟩
  exact hnew (hskip hprojected)

theorem toIr_of_key {left right : SourceRelation} (hkey : left.key = right.key) :
    left.toIr = right.toIr := by
  simp only [SourceRelation.key, Prod.mk.injEq] at hkey
  obtain ⟨hfrom, hto, htype⟩ := hkey
  rw [SourceRelation.toIr, SourceRelation.toIr, hfrom, hto, htype]

variable {relations : List IrRelation}

/-- The kept relations are those of a new key, each once. -/
theorem normalizeRelationsFrom_spec
    (hok : normalizeRelationsFrom cardIds seen sourceRelations = .ok relations) :
    (∀ relation, relation ∈ relations ↔ ∃ source ∈ sourceRelations, source.Projected cardIds ∧
      source.key ∉ seen ∧ source.toIr = relation) ∧
    (relations.map IrRelation.key).Nodup := by
  induction sourceRelations generalizing seen relations with
  | nil =>
      cases hok
      simp
  | cons head rest ih =>
      unfold normalizeRelationsFrom at hok
      dsimp only at hok
      split at hok
      next hisland =>
        simp only [kept_of_skip fun h : head.Projected cardIds =>
          absurd hisland (not_or.mpr ⟨h.fromCard, h.toCard⟩)]
        exact ih hok
      next hcards =>
      split at hok
      next htype =>
        simp only [kept_of_skip fun h : head.Projected cardIds => absurd h.known htype]
        exact ih hok
      next htype =>
      split at hok
      next houtside =>
        simp only [kept_of_skip fun h : head.Projected cardIds =>
          absurd h.within (by rwa [not_and_or])]
        exact ih hok
      next hwithin =>
      split at hok
      next => cases hok
      next =>
      split at hok
      next hseen =>
        simp only [kept_of_skip fun _ : head.Projected cardIds => hseen]
        exact ih hok
      next hnew =>
      split at hok
      next => cases hok
      next kept hkept =>
        cases hok
        obtain ⟨hmem, hnodup⟩ := ih hkept
        have hhead : head.Projected cardIds := by
          rw [not_or] at hcards hwithin
          exact ⟨hcards.1, hcards.2, not_not.mp htype, not_not.mp hwithin.1, not_not.mp hwithin.2⟩
        constructor
        · intro relation
          rw [List.mem_cons, hmem, List.exists_mem_cons_iff]
          constructor
          · rintro (rfl | ⟨source, hsource, hprojected, hkey, hrelation⟩)
            · exact Or.inl ⟨hhead, hnew, rfl⟩
            · exact Or.inr ⟨source, hsource, hprojected,
                fun hseen => hkey (List.mem_cons_of_mem _ hseen), hrelation⟩
          · rintro (⟨-, -, rfl⟩ | ⟨source, hsource, hprojected, hkey, rfl⟩)
            · exact Or.inl rfl
            · by_cases hsame : source.key = head.key
              · exact Or.inl (toIr_of_key hsame)
              · refine Or.inr ⟨source, hsource, hprojected, ?_, rfl⟩
                intro hseen
                exact (List.mem_cons.mp hseen).elim hsame hkey
        · rw [List.map_cons, List.nodup_cons]
          refine ⟨?_, hnodup⟩
          intro hagain
          obtain ⟨relation, hrelation, hkey⟩ := List.mem_map.mp hagain
          obtain ⟨source, -, -, hsource, rfl⟩ := (hmem relation).mp hrelation
          exact hsource (List.mem_cons.mpr (Or.inl hkey))

theorem normalizeRelations_spec (hok : normalizeRelations sourceRelations cardIds = .ok relations) :
    (∀ relation, relation ∈ relations ↔
      ∃ source ∈ sourceRelations, source.Projected cardIds ∧ source.toIr = relation) ∧
    (relations.map IrRelation.key).Nodup := by
  unfold normalizeRelations at hok
  split at hok
  next => cases hok
  next kept hkept =>
    cases hok
    obtain ⟨hmem, hnodup⟩ := normalizeRelationsFrom_spec hkept
    constructor
    · intro relation
      rw [sortOn.mem, hmem]
      simp only [List.not_mem_nil, not_false_eq_true, true_and]
    · exact ((sortOn.perm _ _ kept).map IrRelation.key).nodup_iff.mpr hnodup

/-! ## Ids -/

/-- The second relation is the first one with another colon between the endpoints. -/
def SourceRelation.Confused (left right : SourceRelation) : Prop :=
  left.type = right.type ∧ Shifted ':' (left.fromId, left.toId) (right.fromId, right.toId)

def NoEndpointsConfused (sourceRelations : List SourceRelation) (cardIds : List String) : Prop :=
  ∀ left ∈ sourceRelations, ∀ right ∈ sourceRelations, left.Projected cardIds →
    right.Projected cardIds → ¬ left.Confused right

/-- Every id denotes one relation, and looking it up gives the relation. -/
structure IdsDenote (relations : List IrRelation) : Prop where
  nodup : (relations.map IrRelation.id).Nodup
  lookup : ∀ relation ∈ relations, (InsertionMap.ofList (relations.map fun relation =>
    (relation.id, relation))).get? relation.id = some relation

theorem idsDenote_of_nodup
    (hnodup : (relations.map IrRelation.id).Nodup) : IdsDenote relations where
  nodup := hnodup
  lookup := by
    intro relation hrelation
    have hget := InsertionMap.get?_ofList_map IrRelation.id id hnodup relation.id
    simp only [id_eq] at hget
    rw [hget, findBy_of_mem _ hnodup hrelation]
    rfl

theorem colon_not_mem_relationTypes {type : String} (htype : type ∈ relationTypes) :
    ':' ∉ type.toList := by
  simp only [relationTypes, List.mem_cons, List.not_mem_nil, or_false] at htype
  rcases htype with rfl | rfl | rfl | rfl | rfl <;> decide

theorem relationId_eq_iff {left right : SourceRelation} (hleft : left.type ∈ relationTypes)
    (hright : right.type ∈ relationTypes) :
    left.toIr.id = right.toIr.id ↔
      left.key = right.key ∨ left.Confused right ∨ right.Confused left := by
  have hjoin := @join_eq_iff ':' (left.fromId, left.toId) (right.fromId, right.toId)
  have hid : ∀ relation : SourceRelation,
      relation.toIr.id = relation.type ++ ":" ++ (relation.fromId ++ ":" ++ relation.toId) := by
    intro relation
    simp only [SourceRelation.toIr, relationId, String.append_assoc]
  rw [hid, hid]
  constructor
  · intro heq
    obtain ⟨htype, hends⟩ := labelled_inj (colon_not_mem_relationTypes hleft)
      (colon_not_mem_relationTypes hright) heq
    rcases hjoin.mp hends with hsame | hshifted | hshifted
    · obtain ⟨hfrom, hto⟩ := Prod.mk.inj hsame
      left
      rw [SourceRelation.key, SourceRelation.key, hfrom, hto, htype]
    · exact Or.inr (Or.inl ⟨htype, hshifted⟩)
    · exact Or.inr (Or.inr ⟨htype.symm, hshifted⟩)
  · rintro (hkey | ⟨htype, hshifted⟩ | ⟨htype, hshifted⟩)
    · rw [← hid, ← hid, toIr_of_key hkey]
    · rw [htype]
      exact congrArg _ (join_eq_of_shifted hshifted)
    · rw [← htype]
      exact congrArg _ (join_eq_of_shifted hshifted).symm

/-- The ids of the projected relations are distinct exactly when no two relations that are kept are
confused. -/
theorem relation_ids_denote_iff {relations : List IrRelation}
    (hok : normalizeRelations sourceRelations cardIds = .ok relations) :
    IdsDenote relations ↔ NoEndpointsConfused sourceRelations cardIds := by
  obtain ⟨hmem, hkeys⟩ := normalizeRelations_spec hok
  constructor
  · intro hdenote left hleft right hright hleftKept hrightKept hconfused
    have hid := (relationId_eq_iff hleftKept.known hrightKept.known).mpr (Or.inr (Or.inl hconfused))
    have hsame := List.inj_on_of_nodup_map hdenote.nodup ((hmem _).mpr ⟨left, hleft, hleftKept, rfl⟩)
      ((hmem _).mpr ⟨right, hright, hrightKept, rfl⟩) hid
    apply hconfused.2.ne
    exact Prod.ext (congrArg IrRelation.fromId hsame) (congrArg IrRelation.toId hsame)
  · intro hnone
    apply idsDenote_of_nodup
    apply List.Nodup.map_on _ (List.Nodup.of_map _ hkeys)
    intro first hfirst second hsecond hid
    obtain ⟨left, hleft, hleftKept, rfl⟩ := (hmem first).mp hfirst
    obtain ⟨right, hright, hrightKept, rfl⟩ := (hmem second).mp hsecond
    rcases (relationId_eq_iff hleftKept.known hrightKept.known).mp hid with
      hkey | hconfused | hconfused
    · exact toIr_of_key hkey
    · exact absurd hconfused (hnone _ hleft _ hright hleftKept hrightKept)
    · exact absurd hconfused (hnone _ hright _ hleft hrightKept hleftKept)

namespace ColonIds

def relation (fromId toId : String) : SourceRelation := ⟨fromId, toId, "related", none, none⟩

/-- One relation between two cards. -/
theorem relation_ids_denote_iff_one :
    IdsDenote [(relation "a" "b").toIr] := by
  apply (@relation_ids_denote_iff ["a", "b"] [relation "a" "b"] _ (by decide +kernel)).mpr
  intro left hleft right hright _ _ hconfused
  rw [List.mem_singleton.mp hleft, List.mem_singleton.mp hright] at hconfused
  exact hconfused.2.ne rfl

def endpoints : List String := ["a", "a:b", "c", "b:c"]

/-- Relations from `a` to `b:c` and from `a:b` to `c` have one id. -/
theorem two_relations_one_id : ∃ relations,
    normalizeRelations [relation "a" "b:c", relation "a:b" "c"] endpoints = .ok relations ∧
      ¬ IdsDenote relations := by
  refine ⟨[(relation "a" "b:c").toIr, (relation "a:b" "c").toIr], by decide +kernel, ?_⟩
  intro hdenote
  have hnodup := hdenote.nodup
  revert hnodup
  decide

end ColonIds

end KjAtlas
