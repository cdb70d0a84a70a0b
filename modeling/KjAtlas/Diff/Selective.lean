import KjAtlas.Diff.Transaction

/-! # Merging selected items only

A merge is selective when it changes nothing without an item for it. Two things
stand against it: an item for one field makes the patch write the whole entity,
and removing a card takes along the evidence links at the card that were added
to the current document.
-/

namespace KjAtlas

open Js

/-! ## Which removals are added -/

namespace AutoSelection

/-- Nothing that was selected or found wrong is given up. -/
structure Grows (first later : AutoSelection) : Prop where
  refKeys : ∀ refKey ∈ first.selectedRefKeys, refKey ∈ later.selectedRefKeys
  selectedMap : ∀ id, first.selectedMap.has id = true → later.selectedMap.has id = true
  errors : first.errors ≠ [] → later.errors ≠ []

namespace Grows

theorem refl (selection : AutoSelection) : selection.Grows selection :=
  ⟨fun _ hkey => hkey, fun _ hhas => hhas, fun herrors => herrors⟩

theorem trans {first second third : AutoSelection} (hleft : first.Grows second)
    (hright : second.Grows third) : first.Grows third :=
  ⟨fun refKey hkey => hright.refKeys refKey (hleft.refKeys refKey hkey),
    fun id hhas => hright.selectedMap id (hleft.selectedMap id hhas),
    fun herrors => hright.errors (hleft.errors herrors)⟩

theorem fail (selection : AutoSelection) (error : MergeDiagnostic) :
    selection.Grows (selection.fail error) :=
  ⟨fun _ hkey => hkey, fun _ hhas => hhas, fun _ => by simp [AutoSelection.fail]⟩

theorem autoInclude (selection : AutoSelection) (synthetic : MergeItem)
    (warning : MergeDiagnostic) : selection.Grows (selection.autoInclude synthetic warning) := by
  unfold AutoSelection.autoInclude
  split
  next => exact refl selection
  next =>
    refine ⟨fun refKey hkey => List.mem_append_left _ hkey, fun id hhas => ?_, fun herrors => herrors⟩
    rw [InsertionMap.has] at hhas ⊢
    rw [InsertionMap.get?_set]
    split
    · rfl
    · exact hhas

theorem requireCard (baseDoc incomingDoc : DocumentV1) (item : MergeItem)
    (selection : AutoSelection) (cardId : String) :
    selection.Grows (selection.requireCard baseDoc incomingDoc item cardId) := by
  unfold AutoSelection.requireCard
  split
  next => exact refl selection
  next =>
    split
    next => exact fail selection _
    next => exact autoInclude selection _ _

theorem requireRemoval (incomingDoc : DocumentV1) (item : MergeItem) (selection : AutoSelection)
    (link : EvidenceLink) : selection.Grows (selection.requireRemoval incomingDoc item link) := by
  unfold AutoSelection.requireRemoval
  split
  next => exact refl selection
  next =>
    split
    next => exact fail selection _
    next => exact autoInclude selection _ _

theorem visit (baseDoc incomingDoc : DocumentV1) (selection : AutoSelection) (item : MergeItem) :
    selection.Grows (selection.visit baseDoc incomingDoc item) := by
  unfold AutoSelection.visit
  split
  next =>
    split
    next => exact fail selection _
    next => exact List.foldlRecOn _ _ (refl selection) fun state hstate cardId _ =>
      hstate.trans (requireCard baseDoc incomingDoc item state cardId)
  next => exact List.foldlRecOn _ _ (refl selection) fun state hstate link _ =>
    hstate.trans (requireRemoval incomingDoc item state link)
  next => exact refl selection

end Grows

/-- Whether the removal of a link is selected, unless something is wrong. -/
def Covers (selection : AutoSelection) (link : EvidenceLink) : Prop :=
  selection.errors ≠ [] ∨ toRefKey ⟨.evidence, link.id⟩ ∈ selection.selectedRefKeys ∨
    selection.selectedMap.has (makeSyntheticItem .evidenceRemove link.id).id = true

theorem Grows.covers {first later : AutoSelection} (hgrows : first.Grows later)
    {link : EvidenceLink} (hcovers : first.Covers link) : later.Covers link := by
  rcases hcovers with herrors | hkey | hhas
  · exact .inl (hgrows.errors herrors)
  · exact .inr (.inl (hgrows.refKeys _ hkey))
  · exact .inr (.inr (hgrows.selectedMap _ hhas))

theorem covers_requireRemoval (incomingDoc : DocumentV1) (item : MergeItem)
    (selection : AutoSelection) (link : EvidenceLink) :
    (selection.requireRemoval incomingDoc item link).Covers link := by
  unfold AutoSelection.requireRemoval
  split
  next hselected => exact .inr (.inl (List.contains_iff_mem.mp hselected))
  next =>
    split
    next => exact .inl (by simp [AutoSelection.fail])
    next =>
      refine .inr (.inr ?_)
      unfold AutoSelection.autoInclude
      split
      next htaken => exact htaken
      next => rw [InsertionMap.has, InsertionMap.get?_set, if_pos rfl]; rfl

theorem covers_visit (baseDoc incomingDoc : DocumentV1) (selection : AutoSelection)
    {item : MergeItem} (hkind : item.kind = .cardRemove) :
    ∀ link ∈ baseDoc.links, link.touches item.entityRef.id = true →
      (selection.visit baseDoc incomingDoc item).Covers link := by
  intro link hlink htouches
  rw [AutoSelection.visit, hkind]
  exact @forall_foldl _ _ _ Covers (fun state link => covers_requireRemoval incomingDoc item state link)
    (fun state link other hother => (Grows.requireRemoval incomingDoc item state link).covers hother)
    _ selection link (List.mem_filter.mpr ⟨hlink, htouches⟩)

end AutoSelection

section Removals

variable (lc : Collation) {baseDoc incomingDoc : DocumentV1} {selectedItems : List MergeItem}

/-- Ids of the items of a difference begin with the name of a kind. -/
theorem head_id_of_mem_buildMergeItems {item : MergeItem}
    (hitem : item ∈ buildMergeItems lc baseDoc incomingDoc) : item.id.toList.head? ≠ some 'a' := by
  obtain ⟨source, hsource, rfl⟩ := List.mem_map.mp hitem
  rcases List.mem_append.mp hsource with hentity | hview
  · obtain ⟨kind, hentity⟩ := (mem_flattenDocumentDiff lc).mp hentity
    obtain ⟨id, -, hentity⟩ := List.mem_flatMap.mp hentity
    split at hentity
    next =>
      rw [List.mem_singleton.mp hentity]
      cases kind <;> simp [EntityKind.addKind, MergeItemKind.text]
    next =>
      rw [List.mem_singleton.mp hentity]
      cases kind <;> simp [EntityKind.removeKind, MergeItemKind.text]
    next =>
      split at hentity
      next =>
        obtain ⟨field, -, rfl⟩ := List.mem_map.mp hentity
        cases kind <;> simp [EntityKind.mergeKind, MergeEntityKind.text]
      next => exact absurd hentity List.not_mem_nil
    next => exact absurd hentity List.not_mem_nil
  · unfold computeViewDiff at hview
    dsimp only at hview
    split at hview
    next => exact absurd hview List.not_mem_nil
    next =>
      rw [List.mem_singleton.mp hview]
      simp

theorem makeSyntheticItem_id_inj {kind other : MergeItemKind} {id otherId : String}
    (heq : (makeSyntheticItem kind id).id = (makeSyntheticItem other otherId).id) :
    kind = other ∧ id = otherId := by
  have hcolon : ∀ kind : MergeItemKind, ':' ∉ kind.text.toList := by
    intro kind
    cases kind <;> decide
  have hlist := congrArg String.toList heq
  simp only [makeSyntheticItem, String.toList_append, List.append_assoc] at hlist
  obtain ⟨htext, hid⟩ := append_cons_inj (hcolon kind) (hcolon other)
    (List.append_cancel_left hlist)
  refine ⟨?_, String.toList_inj.mp hid⟩
  cases kind <;> cases other <;> first | rfl | exact absurd htext (by decide)

theorem planned_of_touched (hselected : ∀ item ∈ selectedItems,
      item ∈ buildMergeItems lc baseDoc incomingDoc)
    (hnoErrors : (selectWithAutoPrerequisites baseDoc incomingDoc selectedItems).errors = [])
    {removed : MergeItem} (hremoved : removed ∈ selectedItems) (hkind : removed.kind = .cardRemove)
    {link : EvidenceLink} (hlink : link ∈ baseDoc.links)
    (htouches : link.touches removed.entityRef.id = true) :
    (∃ item ∈ selectedItems, item.entityRef = ⟨.evidence, link.id⟩) ∨
      ∃ item ∈ plannedItems baseDoc incomingDoc selectedItems,
        item.entityRef = ⟨.evidence, link.id⟩ := by
  have hcovers : (selectWithAutoPrerequisites baseDoc incomingDoc selectedItems).Covers link := by
    have hall := @forall_foldl _ _ (AutoSelection.visit baseDoc incomingDoc)
      (fun selection item => item.kind = .cardRemove → ∀ link ∈ baseDoc.links,
        link.touches item.entityRef.id = true → selection.Covers link)
      (fun selection item => AutoSelection.covers_visit baseDoc incomingDoc selection)
      (fun selection item other hother hkind link hlink htouches =>
        (AutoSelection.Grows.visit baseDoc incomingDoc selection item).covers
          (hother hkind link hlink htouches))
    exact hall selectedItems _ removed hremoved hkind link hlink htouches
  have hsound := @sound_selectWithAutoPrerequisites baseDoc incomingDoc selectedItems
  rcases hcovers with herrors | hkey | hhas
  · exact absurd hnoErrors herrors
  · rcases hsound.refKeysOnly _ hkey with ⟨item, hitem, href⟩ | ⟨item, hitem, href⟩
    · exact .inl ⟨item, hitem, toRefKey_inj href⟩
    · exact .inr ⟨item, hitem, toRefKey_inj href⟩
  · obtain ⟨item, hget⟩ := Option.isSome_iff_exists.mp hhas
    rcases hsound.planned _ item hget with hlast | ⟨hsynthetic, hid⟩
    · obtain ⟨hitem, hid⟩ := mem_of_get?_mapBy hlast
      refine absurd ?_ (head_id_of_mem_buildMergeItems lc (hselected item hitem))
      rw [hid]
      simp [makeSyntheticItem]
    · refine .inr ⟨item, InsertionMap.mem_values.mpr ⟨_, hget⟩, ?_⟩
      cases hsynthetic with
      | card cardId hitem =>
          rw [hitem] at hid
          exact absurd (makeSyntheticItem_id_inj hid).1 (by decide)
      | link removed other hitem =>
          rw [hitem] at hid ⊢
          rw [(makeSyntheticItem_id_inj hid).2]
          rfl

end Removals

/-! ## What is left alone -/

def ChangesField (kind : EntityKind) (id field : String) (item : MergeItem) : Prop :=
  some item.kind = kind.fieldKind ∧ item.entityRef = ⟨kind.mergeKind, id⟩ ∧
    item.field = some field

instance (kind : EntityKind) (id field : String) (item : MergeItem) :
    Decidable (ChangesField kind id field item) :=
  inferInstanceAs (Decidable (_ ∧ _ ∧ _))

/-- The merge changes nothing without an item: entities that have none and get
none, fields of cards and islands that stay and have no item, and the reading
order. -/
structure Selective (lc : Collation) (currentDoc baseDoc incomingDoc : DocumentV1)
    (selectedItems : List MergeItem) (next : DocumentV1) : Prop where
  entities : ∀ key, (∀ item ∈ selectedItems, item.entityRef.entityKey? ≠ some key) →
    (∀ item ∈ plannedItems baseDoc incomingDoc selectedItems,
      item.entityRef.entityKey? ≠ some key) →
        next.lookup key = currentDoc.lookup key
  fields : ∀ kind ∈ [EntityKind.card, .island], ∀ id, ∀ before ∈ currentDoc.lookup ⟨kind, id⟩,
    (∀ item ∈ selectedItems, item.kind = kind.removeKind → item.entityRef.id ≠ id) →
      ∀ field, (∀ item ∈ selectedItems, ¬ChangesField kind id field item) →
        ∃ after ∈ next.lookup ⟨kind, id⟩,
          fieldText lc after.props field = fieldText lc before.props field
  readingOrder : (∀ item ∈ selectedItems, item.kind ≠ .viewField) →
    next.readingOrder = currentDoc.readingOrder

/-- When a merge is selective: no selected removal of a card reaches a current
link that has no item, unless the base document has a link of that id at a
removed card; and an entity with a selected field has, in every field that is
not selected, the same value in the current and the other document. -/
structure SelectiveWhen (lc : Collation) (currentDoc baseDoc incomingDoc : DocumentV1)
    (selectedItems : List MergeItem) : Prop where
  links : ∀ id,
    (∀ item ∈ selectedItems, item.entityRef.entityKey? ≠ some ⟨.evidenceLink, id⟩) →
      (∀ removed ∈ selectedItems, removed.kind = .cardRemove → ∀ link ∈ baseDoc.links,
        link.id = id → link.touches removed.entityRef.id = false) →
          ∀ link ∈ findBy EvidenceLink.id id currentDoc.links,
            ∀ removed ∈ lastItems selectedItems, removed.kind = .cardRemove →
              link.touches removed.entityRef.id = false
  fields : ∀ kind ∈ [EntityKind.card, .island], ∀ item ∈ lastItems selectedItems,
    some item.kind = kind.fieldKind →
      ∀ before ∈ currentDoc.lookup ⟨kind, item.entityRef.id⟩,
        ∀ after ∈ incomingDoc.lookup ⟨kind, item.entityRef.id⟩, ∀ field,
          (∀ other ∈ selectedItems, ¬ChangesField kind item.entityRef.id field other) →
            fieldText lc after.props field = fieldText lc before.props field

section Selection

variable (lc : Collation) {currentDoc baseDoc incomingDoc : DocumentV1}
  {selectedItems : List MergeItem} {next : DocumentV1}

theorem exists_deletion_iff
    (hdescribes : ∀ item ∈ selectedItems, Describes baseDoc incomingDoc item) (cardId : String) :
    (∃ op ∈ mergeOps lc baseDoc incomingDoc selectedItems, op.deletedCard? = some cardId) ↔
      ∃ removed ∈ lastItems selectedItems, removed.kind = .cardRemove ∧
        removed.entityRef.id = cardId := by
  constructor
  · rintro ⟨op, hop, hdeletes⟩
    obtain ⟨⟨item, hitem, hkey⟩, htheir, -⟩ := of_mem_mergeOps lc hdescribes hop
    have hdelete : op.entityKey = ⟨.card, cardId⟩ ∧ op.theirValue = none := by
      obtain ⟨opId, change⟩ := op
      cases change with
      | deleteCard other => exact ⟨congrArg _ (Option.some.inj hdeletes), rfl⟩
      | _ => exact absurd hdeletes (Option.some_ne_none cardId).symm
    rw [hdelete.1] at hkey htheir
    have hkinds := (describes_of_mem_plannedItems hdescribes hitem).mem_itemKinds hkey
    rw [← htheir, hdelete.2, if_neg (by simp)] at hkinds
    have hkind : item.kind = .cardRemove := List.mem_singleton.mp hkinds
    refine ⟨item, ?_, hkind, by rw [entityKey?_eq_some.mp hkey]⟩
    exact mem_lastItems_of_kind hitem (by rw [hkind]; exact nofun) (by rw [hkind]; exact nofun)
  · rintro ⟨removed, hremoved, hkind, rfl⟩
    have hitem := hdescribes removed (mem_of_mem_lastItems hremoved)
    have hdeleteKind : removed.kind ∈ EntityKind.card.deleteItemKinds := by rw [hkind]; decide
    have hkey := hitem.entityKey?_of_delete hdeleteKind
    obtain ⟨op, hop, hopKey⟩ := (exists_mergeOp_iff lc hdescribes _).mpr
      ⟨removed, mem_plannedItems_of_mem_lastItems hremoved, hkey⟩
    have htheir := (of_mem_mergeOps lc hdescribes hop).2.1
    rw [hopKey, hitem.eq_none_of_delete hdeleteKind (by decide)] at htheir
    refine ⟨op, hop, ?_⟩
    obtain ⟨opId, change⟩ := op
    cases change with
    | deleteCard cardId => exact congrArg (fun key => some key.id) hopKey
    | upsertCard card => exact absurd htheir (Option.some_ne_none _)
    | _ => exact absurd (congrArg EntityKey.kind hopKey) (by simp [PatchOp.entityKey])

theorem EntityKind.ne_of_mem_card_island {kind : EntityKind}
    (hkind : kind ∈ [EntityKind.card, .island]) : kind ≠ .relSummary ∧ kind ≠ .evidenceLink := by
  revert hkind
  cases kind <;> decide

theorem link_kept_iff (hdescribes : ∀ item ∈ selectedItems, Describes baseDoc incomingDoc item)
    (hmerges : Merges lc currentDoc baseDoc baseDoc incomingDoc selectedItems next) {id : String}
    (hplanned : ¬Planned baseDoc incomingDoc selectedItems ⟨.evidenceLink, id⟩) :
    next.lookup ⟨.evidenceLink, id⟩ = currentDoc.lookup ⟨.evidenceLink, id⟩ ↔
      ∀ link ∈ findBy EvidenceLink.id id currentDoc.links,
        ∀ removed ∈ lastItems selectedItems, removed.kind = .cardRemove →
          link.touches removed.entityRef.id = false := by
  have hother : ∀ op ∈ mergeOps lc baseDoc incomingDoc selectedItems,
      op.entityKey ≠ ⟨.evidenceLink, id⟩ :=
    fun op hop hkey => hplanned ((exists_mergeOp_iff lc hdescribes _).mp ⟨op, hop, hkey⟩)
  have hinjective : Function.Injective (Option.map Entity.evidenceLink) :=
    Option.map_injective fun _ _ heq => Entity.evidenceLink.inj heq
  rw [hmerges.lookup_result, DocumentV1.lookup, DocumentV1.lookup, hinjective.eq_iff,
    findBy_links_applyPatchOps hother, findBy_filter_eq_self_iff]
  refine forall₂_congr fun link _ => ?_
  rw [Bool.not_eq_true', List.any_eq_false]
  constructor
  · intro hsafe removed hremoved hkind
    obtain ⟨op, hop, hdeletes⟩ := (exists_deletion_iff lc hdescribes removed.entityRef.id).mpr
      ⟨removed, hremoved, hkind, rfl⟩
    have hcascades := hsafe op hop
    rw [PatchOp.cascades, hdeletes] at hcascades
    exact Bool.not_eq_true _ ▸ hcascades
  · intro hsafe op hop hcascades
    cases hdeletes : op.deletedCard? with
    | none => simp [PatchOp.cascades, hdeletes] at hcascades
    | some cardId =>
        obtain ⟨removed, hremoved, hkind, rfl⟩ :=
          (exists_deletion_iff lc hdescribes cardId).mp ⟨op, hop, hdeletes⟩
        rw [PatchOp.cascades, hdeletes] at hcascades
        exact Bool.false_ne_true ((hsafe removed hremoved hkind).symm.trans hcascades)

theorem field_kept_of_planned (hdescribes : ∀ item ∈ selectedItems, Describes baseDoc incomingDoc item)
    (hmerges : Merges lc currentDoc baseDoc baseDoc incomingDoc selectedItems next)
    (hwhen : SelectiveWhen lc currentDoc baseDoc incomingDoc selectedItems)
    {kind : EntityKind} (hkind : kind ∈ [EntityKind.card, .island]) {id : String}
    (hplanned : Planned baseDoc incomingDoc selectedItems ⟨kind, id⟩) {before : Entity}
    (hbefore : before ∈ currentDoc.lookup ⟨kind, id⟩)
    (hkept : ∀ item ∈ selectedItems, item.kind = kind.removeKind → item.entityRef.id ≠ id)
    {field : String} (hfield : ∀ item ∈ selectedItems, ¬ChangesField kind id field item) :
    ∃ after ∈ incomingDoc.lookup ⟨kind, id⟩,
      fieldText lc after.props field = fieldText lc before.props field := by
  obtain ⟨op, hop, hopKey⟩ := (exists_mergeOp_iff lc hdescribes _).mpr hplanned
  obtain ⟨item, hitem, hkey⟩ := hplanned
  have href := entityKey?_eq_some.mp hkey
  have hnotAdded : ∀ itemKind, itemKind = kind.removeKind ∨ some itemKind = kind.fieldKind →
      itemKind ≠ .cardAdd ∧ itemKind ≠ .evidenceRemove := by
    intro itemKind hitemKind
    cases kind <;> cases itemKind <;> revert hkind hitemKind <;> decide
  cases describes_of_mem_plannedItems hdescribes hitem with
  | added other otherId hitemKind hother hbase hincoming =>
      obtain ⟨rfl, rfl⟩ := EntityKey.mk.inj (mergeRef_inj (href.symm.trans hother))
      obtain ⟨after, hafter⟩ := Option.isSome_iff_exists.mp hincoming
      refine ⟨after, hafter, ?_⟩
      -- no conflict was found, so the current entity is the one that is added
      have htheir := (of_mem_mergeOps lc hdescribes hop).2.1
      have hconflict := hmerges.noConflicts op hop
      rw [Conflicting, htheir, hopKey, hbase, hafter, Option.mem_def.mp hbefore,
        sameEntity_comm lc none, sameEntity_comm lc none, not_sameEntity_none,
        not_sameEntity_none] at hconflict
      simp only [true_and, Bool.not_eq_false, sameEntity_iff] at hconflict
      exact (fieldText_of_stableSerialize lc hconflict field).symm
  | removed other otherId hitemKind hother hbase hincoming =>
      obtain ⟨rfl, rfl⟩ := EntityKey.mk.inj (mergeRef_inj (href.symm.trans hother))
      obtain ⟨hcard, hlink⟩ := hnotAdded item.kind (.inl hitemKind)
      exact absurd (by rw [href]) (hkept item
        (mem_of_mem_lastItems (mem_lastItems_of_kind hitem hcard hlink)) hitemKind)
  | changed other otherId itemField hitemKind hother hitemField hbase hincoming =>
      obtain ⟨rfl, rfl⟩ := EntityKey.mk.inj (mergeRef_inj (href.symm.trans hother))
      obtain ⟨hcard, hlink⟩ := hnotAdded item.kind (.inr hitemKind)
      obtain ⟨after, hafter⟩ := Option.isSome_iff_exists.mp hincoming
      have hid : item.entityRef.id = id := by rw [href]
      refine ⟨after, hafter, hwhen.fields kind hkind item
        (mem_lastItems_of_kind hitem hcard hlink) hitemKind before ?_ after ?_ field ?_⟩
      · rwa [hid]
      · rwa [hid]
      · rwa [hid]
  | view hitemKind hother =>
      rw [href, MergeItemRef.mk.injEq] at hother
      exact absurd hother.1.symm kind.view_ne_mergeKind

/-- A merge that succeeds is selective exactly under the condition. -/
theorem selective_iff (hselected : ∀ item ∈ selectedItems,
      item ∈ buildMergeItems lc baseDoc incomingDoc)
    {allowWarnings : Bool} {result : MergeTransaction}
    (hok : applyMergeTransaction lc currentDoc baseDoc baseDoc incomingDoc selectedItems
      allowWarnings = .ok result) :
    Selective lc currentDoc baseDoc incomingDoc selectedItems result.document ↔
      SelectiveWhen lc currentDoc baseDoc incomingDoc selectedItems := by
  have hmerges := merges_of_ok lc hok
  clear hok
  have hdescribes : ∀ item ∈ selectedItems, Describes baseDoc incomingDoc item :=
    fun item hitem => describes_of_mem_buildMergeItems lc (hselected item hitem)
  constructor
  · intro hselective
    constructor
    · intro id hunselected huntouched
      have hplanned : ¬Planned baseDoc incomingDoc selectedItems ⟨.evidenceLink, id⟩ := by
        rintro ⟨item, hitem, hkey⟩
        rcases mem_plannedItems hitem with hlast | hsynthetic
        · exact hunselected item (mem_of_mem_lastItems hlast) hkey
        · cases hsynthetic with
          | card cardId hadded =>
              rw [hadded] at hkey
              exact nomatch congrArg EntityKey.kind (Option.some.inj hkey)
          | link removed link hadded _ hremoved hkind hlink htouches =>
              rw [hadded] at hkey
              have hid := congrArg EntityKey.id (Option.some.inj hkey)
              rw [huntouched removed hremoved hkind link hlink hid] at htouches
              exact Bool.false_ne_true htouches
      rw [← link_kept_iff lc hdescribes hmerges hplanned]
      exact hselective.entities _ hunselected fun item hitem hkey => hplanned ⟨item, hitem, hkey⟩
    · intro kind hkind item hitem hfieldKind before hbefore after hafter field hfield
      have hnotSummary := EntityKind.ne_of_mem_card_island hkind
      have hkey := (hdescribes item (mem_of_mem_lastItems hitem)).entityKey?_of_upsert
        (EntityKind.fieldKind_mem hfieldKind)
      have hnotRemoved : ∀ other ∈ selectedItems, other.kind = kind.removeKind →
          other.entityRef.id ≠ item.entityRef.id := by
        intro other hother hotherKind hid
        have hgone := (hdescribes other hother).eq_none_of_delete
          (hotherKind ▸ kind.removeKind_mem) hnotSummary.1
        rw [hid, hafter] at hgone
        exact Option.some_ne_none _ hgone
      obtain ⟨merged, hmerged, htext⟩ := hselective.fields kind hkind item.entityRef.id before
        hbefore hnotRemoved field hfield
      rw [lookup_merged lc hmerges hdescribes fun hlink => absurd hlink hnotSummary.2,
        if_pos ⟨item, mem_plannedItems_of_mem_lastItems hitem, hkey⟩, hafter] at hmerged
      rwa [← Option.some.inj hmerged] at htext
  · intro hwhen
    constructor
    · intro key hunselected hunplanned
      have hplanned : ¬Planned baseDoc incomingDoc selectedItems key :=
        fun ⟨item, hitem, hkey⟩ => hunplanned item hitem hkey
      by_cases hlink : key.kind = .evidenceLink
      · obtain ⟨kind, id⟩ := key
        obtain rfl : kind = .evidenceLink := hlink
        refine (link_kept_iff lc hdescribes hmerges hplanned).mpr (hwhen.links id hunselected ?_)
        rintro removed hremoved hkind link hlink rfl
        rw [← Bool.not_eq_true]
        intro htouches
        rcases planned_of_touched lc hselected hmerges.noErrors hremoved hkind hlink htouches with
          ⟨item, hitem, href⟩ | ⟨item, hitem, href⟩
        · exact hunselected item hitem (entityKey?_eq_some.mpr href)
        · exact hunplanned item hitem (entityKey?_eq_some.mpr href)
      · rw [lookup_merged lc hmerges hdescribes fun hkind => absurd hkind hlink, if_neg hplanned]
    · intro kind hkind id before hbefore hkept field hfield
      rw [lookup_merged lc hmerges hdescribes fun hlink =>
        absurd hlink (EntityKind.ne_of_mem_card_island hkind).2]
      split
      next hplanned =>
        exact field_kept_of_planned lc hdescribes hmerges hwhen hkind hplanned hbefore hkept hfield
      next => exact ⟨before, hbefore, rfl⟩
    · intro hview
      rw [hmerges.document]
      refine if_neg fun htakes => ?_
      obtain ⟨item, hitem, hkind⟩ := exists_view_of_takesReadingOrder htakes
      exact hview item hitem hkind

end Selection

/-! ## One selected field -/

namespace SelectiveInputs

def baseDoc : DocumentV1 := .smallest [.smallest "a" "text"] []

/-- The card with another text and another position. -/
def movedCard : Card where
  props := [("id", some (.string "a")), ("text", some (.string "new text")),
    ("x", some (.number .one)), ("y", some (.number .zero))]
  id := "a"
  id_eq := by decide

def movedDoc : DocumentV1 := .smallest [movedCard] []

def textItems : List MergeItem :=
  (buildMergeItems .codeUnit baseDoc movedDoc).filter fun item => item.field = some "text"

theorem textItems_selected :
    ∀ item ∈ textItems, item ∈ buildMergeItems .codeUnit baseDoc movedDoc :=
  fun _ hitem => (List.mem_filter.mp hitem).1

theorem textItems_isOk : (applyMergeTransaction .codeUnit baseDoc baseDoc baseDoc movedDoc
    textItems true).isOk = true := by
  decide +kernel

/-- The equivalence for the text of a card that was moved as well. -/
theorem textItems_selective_iff : ∃ result,
    applyMergeTransaction .codeUnit baseDoc baseDoc baseDoc movedDoc textItems true = .ok result ∧
      (Selective .codeUnit baseDoc baseDoc movedDoc textItems result.document ↔
        SelectiveWhen .codeUnit baseDoc baseDoc movedDoc textItems) := by
  obtain ⟨result, hok⟩ := exists_of_isOk textItems_isOk
  exact ⟨result, hok, selective_iff .codeUnit textItems_selected hok⟩

/-- Only the text is selected, and the card moves too. -/
theorem unselected_field_changed :
    (∀ item ∈ textItems, item ∈ buildMergeItems .codeUnit baseDoc movedDoc) ∧ ∃ result,
      applyMergeTransaction .codeUnit baseDoc baseDoc baseDoc movedDoc textItems true =
          .ok result ∧
        ¬Selective .codeUnit baseDoc baseDoc movedDoc textItems result.document := by
  have hcard : (applyMergeTransaction .codeUnit baseDoc baseDoc baseDoc movedDoc textItems
      true).toOption.map (fun result => result.document.lookup ⟨.card, "a"⟩) =
        some (some (.card movedCard)) := by
    decide +kernel
  have hremovals : ∀ item ∈ textItems, item.kind = EntityKind.card.removeKind →
      item.entityRef.id ≠ "a" := by
    decide +kernel
  have hunselected : ∀ item ∈ textItems, ¬ChangesField .card "a" "x" item := by decide +kernel
  obtain ⟨result, hresult, hcard⟩ := Option.map_eq_some_iff.mp hcard
  refine ⟨textItems_selected, result, eq_ok_of_toOption hresult, fun hselective => ?_⟩
  obtain ⟨after, hafter, htext⟩ := hselective.fields .card (by decide) "a"
    (.card (.smallest "a" "text")) (by decide) hremovals "x" hunselected
  rw [hcard] at hafter
  obtain rfl := Option.some.inj hafter
  exact absurd htext (by decide)

end SelectiveInputs

end KjAtlas
