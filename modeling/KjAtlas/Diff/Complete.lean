import KjAtlas.Diff.Transaction

/-! # Merging every item

When every item of a difference is merged into the base document, cards,
islands and relation summaries become those of the other document. Edges and
evidence links are added and removed, but an edge or a link that both documents
have keeps the content of the base document: there is no item for it.
-/

namespace KjAtlas

open Js

/-- Whether every item about an entity has the id of a later item. Item ids join
kinds, ids and fields with colons, and such an entity is passed over. -/
def Shadowed (items : List MergeItem) (key : EntityKey) : Prop :=
  (∃ item ∈ items, item.entityRef.entityKey? = some key) ∧
    ∀ item ∈ lastItems items, item.entityRef.entityKey? ≠ some key

/-- The outcome of merging all items into the base document. -/
structure MergedInto (lc : Collation) (baseDoc incomingDoc next : DocumentV1) : Prop where
  unique : next.UniqueIds
  contents : ∀ key, key.kind ∈ [EntityKind.card, .island, .relSummary] →
    ¬Shadowed (buildMergeItems lc baseDoc incomingDoc) key →
      Option.Rel (SameFields lc) (next.lookup key) (incomingDoc.lookup key)
  links : ∀ key, key.kind ∈ [EntityKind.edge, .evidenceLink] →
    ¬Shadowed (buildMergeItems lc baseDoc incomingDoc) key →
      next.lookup key =
        if (incomingDoc.lookup key).isSome then (baseDoc.lookup key).or (incomingDoc.lookup key)
        else none
  readingOrder : next.readingOrder.getD [] = incomingDoc.readingOrder.getD []

theorem EntityKind.fieldKind_ne_none {kind : EntityKind}
    (hkind : kind ∈ [EntityKind.card, .island, .relSummary]) : kind.fieldKind ≠ none := by
  cases kind <;> revert hkind <;> decide

theorem EntityKind.fieldKind_eq_none {kind : EntityKind}
    (hkind : kind ∈ [EntityKind.edge, .evidenceLink]) : kind.fieldKind = none := by
  cases kind <;> revert hkind <;> decide

theorem entityKey?_eq_none {ref : MergeItemRef} : ref.entityKey? = none ↔ ref.kind = .view := by
  obtain ⟨kind, id⟩ := ref
  cases kind <;> simp [MergeItemRef.entityKey?]

section Items

variable (lc : Collation) {baseDoc incomingDoc : DocumentV1}

theorem exists_view_lastItem
    (hview : ∃ item ∈ buildMergeItems lc baseDoc incomingDoc, item.kind = .viewField) :
    ∃ item ∈ lastItems (buildMergeItems lc baseDoc incomingDoc), takesReadingOrder item = true := by
  obtain ⟨item, hitem, hkind⟩ := hview
  have hviewDiff : ∃ last, computeViewDiff lc baseDoc incomingDoc = [last] ∧
      takesReadingOrder last = true := by
    obtain ⟨source, hsource, rfl⟩ := List.mem_map.mp hitem
    rcases List.mem_append.mp hsource with hentity | hview
    · obtain ⟨kind, hentity⟩ := (mem_flattenDocumentDiff lc).mp hentity
      have href := entityRef_of_mem_entityItems lc hentity
      have hkey := (describes_of_mem_entityItems lc hentity).entityKey?
      rw [hkind, MergeItemKind.entityKind?, Option.map_none, entityKey?_eq_none, href] at hkey
      exact absurd hkey.symm kind.view_ne_mergeKind
    · unfold computeViewDiff at hview ⊢
      dsimp only at hview ⊢
      split at hview
      next => contradiction
      next hdiffers =>
        rw [if_neg hdiffers]
        exact ⟨_, rfl, rfl⟩
  obtain ⟨last, hlast, htakes⟩ := hviewDiff
  refine ⟨{ last with prerequisites := computePrerequisites baseDoc last },
    InsertionMap.mem_values.mpr ⟨last.id, ?_⟩, htakes⟩
  rw [buildMergeItems, finalizeMergeItems, hlast, attachPrerequisites, List.map_append,
    List.map_singleton, get?_mapBy_append]

/-- An item about an edge or an evidence link adds or removes it. -/
theorem Describes.one_sided {item : MergeItem} (hitem : Describes baseDoc incomingDoc item)
    {key : EntityKey} (hkey : item.entityRef.entityKey? = some key)
    (hkind : key.kind.fieldKind = none) :
    baseDoc.lookup key = none ∨ incomingDoc.lookup key = none := by
  rw [entityKey?_eq_some] at hkey
  cases hitem with
  | added kind id _ href hbase hincoming =>
      obtain rfl : key = ⟨kind, id⟩ := mergeRef_inj (hkey.symm.trans href)
      exact .inl hbase
  | removed kind id _ href hbase hincoming =>
      obtain rfl : key = ⟨kind, id⟩ := mergeRef_inj (hkey.symm.trans href)
      exact .inr hincoming
  | changed kind id field hfieldKind href _ hbase hincoming =>
      obtain rfl : key = ⟨kind, id⟩ := mergeRef_inj (hkey.symm.trans href)
      rw [hkind] at hfieldKind
      contradiction
  | view _ href _ =>
      rw [href, MergeItemRef.mk.injEq] at hkey
      exact absurd hkey.1 key.kind.view_ne_mergeKind

theorem sameFields_refl (entity : Entity) : SameFields lc entity entity := fun _ => rfl

/-- Merging every item yields the other document, except for the content of
edges and evidence links that both documents have. -/
theorem mergedInto_of_ok (hbase : baseDoc.UniqueIds) (hincoming : incomingDoc.UniqueIds)
    {result : MergeTransaction}
    (hok : applyMergeTransaction lc baseDoc baseDoc baseDoc incomingDoc
      (buildMergeItems lc baseDoc incomingDoc) true = .ok result) :
    MergedInto lc baseDoc incomingDoc result.document := by
  have hmerges := merges_of_ok lc hok
  clear hok
  have hdescribes : ∀ item ∈ buildMergeItems lc baseDoc incomingDoc,
      Describes baseDoc incomingDoc item := fun _ => describes_of_mem_buildMergeItems lc
  have hlookup : ∀ key, result.document.lookup key =
      if Planned baseDoc incomingDoc (buildMergeItems lc baseDoc incomingDoc) key then
        incomingDoc.lookup key
      else baseDoc.lookup key := fun key => lookup_merged lc hmerges hdescribes fun _ => hbase
  have hagree : ∀ key : EntityKey, ¬Shadowed (buildMergeItems lc baseDoc incomingDoc) key →
      ¬Planned baseDoc incomingDoc (buildMergeItems lc baseDoc incomingDoc) key →
        Option.Rel (fun before after => key.kind.fieldKind ≠ none → SameFields lc before after)
          (baseDoc.lookup key) (incomingDoc.lookup key) := by
    intro key hshadowed hplanned
    apply agree_of_no_item lc hbase hincoming
    intro item hitem href
    refine hshadowed ⟨⟨item, hitem, entityKey?_eq_some.mpr href⟩, fun last hlast hkey => ?_⟩
    exact hplanned ⟨last, mem_plannedItems_of_mem_lastItems hlast, hkey⟩
  refine ⟨?_, fun key hkind hshadowed => ?_, fun key hkind hshadowed => ?_, ?_⟩
  · intro kind
    rw [hmerges.ids_result]
    exact nodup_ids_applyPatchOps (hbase kind) _
  · rw [hlookup]
    by_cases hplanned : Planned baseDoc incomingDoc (buildMergeItems lc baseDoc incomingDoc) key
    · rw [if_pos hplanned]
      cases incomingDoc.lookup key with
      | none => exact .none
      | some entity => exact .some (sameFields_refl lc entity)
    · rw [if_neg hplanned]
      have hrel := hagree key hshadowed hplanned
      generalize baseDoc.lookup key = before at hrel ⊢
      generalize incomingDoc.lookup key = after at hrel ⊢
      cases hrel with
      | some hsame => exact .some (hsame (EntityKind.fieldKind_ne_none hkind))
      | none => exact .none
  · rw [hlookup]
    by_cases hplanned : Planned baseDoc incomingDoc (buildMergeItems lc baseDoc incomingDoc) key
    · rw [if_pos hplanned]
      obtain ⟨item, hitem, hkey⟩ := hplanned
      rcases (describes_of_mem_plannedItems hdescribes hitem).one_sided hkey
        (EntityKind.fieldKind_eq_none hkind) with hnone | hnone
      · rw [hnone, Option.none_or]
        cases incomingDoc.lookup key <;> rfl
      · rw [hnone]
        rfl
    · rw [if_neg hplanned]
      have hrel := hagree key hshadowed hplanned
      generalize baseDoc.lookup key = before at hrel ⊢
      generalize incomingDoc.lookup key = after at hrel ⊢
      cases hrel with
      | some hsame => rfl
      | none => rfl
  · rw [hmerges.document]
    dsimp only
    by_cases hview : ∃ item ∈ buildMergeItems lc baseDoc incomingDoc, item.kind = .viewField
    · obtain ⟨item, hitem, htakes⟩ := exists_view_lastItem lc hview
      rw [if_pos (List.any_eq_true.mpr ⟨item, mem_plannedItems_of_mem_lastItems hitem, htakes⟩)]
      rfl
    · rw [if_neg fun htakes => hview (exists_view_of_takesReadingOrder htakes)]
      exact readingOrder_of_no_view_item lc fun item hitem hkind => hview ⟨item, hitem, hkind⟩

end Items

/-! ## Two merges -/

namespace CompleteInputs

def cards : List Card := [.smallest "a" "text", .smallest "b" "text"]

/-- The link `l` from `a` to `b` as a contradiction. -/
def contradiction : EvidenceLink where
  props := [("id", some (.string "l")), ("type", some (.string "contradicts")),
    ("fromCardId", some (.string "a")), ("toCardId", some (.string "b"))]
  id := "l"
  fromCardId := "a"
  toCardId := "b"
  id_eq := by decide
  fromCardId_eq := by decide
  toCardId_eq := by decide

def baseDoc : DocumentV1 := .smallest cards [.smallest "l" "a" "b"]

/-- Another type for the link. -/
def retypedDoc : DocumentV1 := .smallest cards [contradiction]

/-- Another text, another card and another link. -/
def extendedDoc : DocumentV1 :=
  .smallest [.smallest "a" "new text", .smallest "c" "text"] [.smallest "m" "a" "c"]

theorem uniqueIds : baseDoc.UniqueIds ∧ retypedDoc.UniqueIds ∧ extendedDoc.UniqueIds :=
  ⟨fun kind => by cases kind <;> decide, fun kind => by cases kind <;> decide,
    fun kind => by cases kind <;> decide⟩

/-- The base document becomes the extended one. -/
theorem extended_merged : ∃ result,
    applyMergeTransaction .codeUnit baseDoc baseDoc baseDoc extendedDoc
      (buildMergeItems .codeUnit baseDoc extendedDoc) true = .ok result ∧
        MergedInto .codeUnit baseDoc extendedDoc result.document := by
  have hisOk : (applyMergeTransaction .codeUnit baseDoc baseDoc baseDoc extendedDoc
      (buildMergeItems .codeUnit baseDoc extendedDoc) true).isOk = true := by
    decide +kernel
  obtain ⟨result, hok⟩ := exists_of_isOk hisOk
  exact ⟨result, hok, mergedInto_of_ok .codeUnit uniqueIds.1 uniqueIds.2.2 hok⟩

/-- A link with another type is not merged, although every item is selected. -/
theorem retyped_link_lost :
    validateDocument baseDoc.toJs .error = [] ∧ validateDocument retypedDoc.toJs .error = [] ∧
      baseDoc.UniqueIds ∧ retypedDoc.UniqueIds ∧ ∃ result,
        applyMergeTransaction .codeUnit baseDoc baseDoc baseDoc retypedDoc
          (buildMergeItems .codeUnit baseDoc retypedDoc) true = .ok result ∧
            ¬Option.Rel (SameFields .codeUnit) (result.document.lookup ⟨.evidenceLink, "l"⟩)
              (retypedDoc.lookup ⟨.evidenceLink, "l"⟩) := by
  refine ⟨by decide +kernel, by decide +kernel, uniqueIds.1, uniqueIds.2.1, ?_⟩
  have hlink : (applyMergeTransaction .codeUnit baseDoc baseDoc baseDoc retypedDoc
      (buildMergeItems .codeUnit baseDoc retypedDoc) true).toOption.map
        (fun result => result.document.lookup ⟨.evidenceLink, "l"⟩) =
          some (some (.evidenceLink (.smallest "l" "a" "b"))) := by
    decide +kernel
  have hretyped : retypedDoc.lookup ⟨.evidenceLink, "l"⟩ = some (.evidenceLink contradiction) := by
    decide
  obtain ⟨result, hresult, hlink⟩ := Option.map_eq_some_iff.mp hlink
  refine ⟨result, eq_ok_of_toOption hresult, fun hrel => ?_⟩
  rw [hlink, hretyped] at hrel
  cases hrel with
  | some hsame => exact absurd (hsame "type") (by decide)

end CompleteInputs

end KjAtlas
