import KjAtlas.Diff.MergeApply
import KjAtlas.Patch.LintSound

/-! # What a merge transaction does

The items of a plan are the selected ones and those added for them. They write
the entities that the other document has and delete those that it has not, so
that the merged document takes every entity with an item from the other
document and keeps the rest.
-/

namespace KjAtlas

open Js

theorem toRefKey_inj {left right : MergeItemRef} (heq : toRefKey left = toRefKey right) :
    left = right := by
  have hcolon : ∀ kind : MergeEntityKind, ':' ∉ kind.text.toList := by
    intro kind
    cases kind <;> decide
  obtain ⟨hkind, hid⟩ := labelled_inj (hcolon left.kind) (hcolon right.kind) heq
  obtain ⟨leftKind, leftId⟩ := left
  obtain ⟨rightKind, rightId⟩ := right
  dsimp only at hkind hid
  subst hid
  cases leftKind <;> cases rightKind <;> first | rfl | simp [MergeEntityKind.text] at hkind

theorem PatchOpKind.colon_not_mem_text (kind : PatchOpKind) : ':' ∉ kind.text.toList := by
  cases kind <;> decide

/-! ## The plan -/

def lastItems (selectedItems : List MergeItem) : List MergeItem :=
  (mapBy MergeItem.id selectedItems).values

def plannedItems (baseDoc incomingDoc : DocumentV1) (selectedItems : List MergeItem) :
    List MergeItem :=
  (selectWithAutoPrerequisites baseDoc incomingDoc selectedItems).selectedMap.values

variable {id : String} {item : MergeItem} {kind : EntityKind} {itemKind : MergeItemKind}
  {key : EntityKey} {op : PatchOp}

theorem mem_of_get?_mapBy {α : Type} {key : α → String} {items : List α} {item : α}
    (hget : (mapBy key items).get? id = some item) : item ∈ items ∧ key item = id := by
  rw [mapBy, InsertionMap.get?_ofList, Option.map_eq_some_iff] at hget
  obtain ⟨entry, hfind, rfl⟩ := hget
  obtain ⟨hmem, hid⟩ := findBy_eq_some _ hfind
  obtain ⟨item, hitem, rfl⟩ := List.mem_map.mp (List.mem_reverse.mp hmem)
  exact ⟨hitem, hid⟩

/-- The last item under an id is the one that is kept. -/
theorem get?_mapBy_append {α : Type} (key : α → String) (items : List α) (item : α) :
    (mapBy key (items ++ [item])).get? (key item) = some item := by
  rw [mapBy, InsertionMap.get?_ofList, List.map_append, List.reverse_append, List.map_singleton,
    List.reverse_singleton, List.singleton_append, findBy_cons, if_pos rfl]
  rfl

theorem mem_of_mem_lastItems {selectedItems : List MergeItem}
    (hitem : item ∈ lastItems selectedItems) : item ∈ selectedItems := by
  obtain ⟨id, hget⟩ := InsertionMap.mem_values.mp hitem
  exact (mem_of_get?_mapBy hget).1

/-- An item that the selected items need and that is not among them. -/
inductive Synthetic (baseDoc incomingDoc : DocumentV1) (selectedItems : List MergeItem)
    (item : MergeItem) : Prop where
  | card (cardId : String) (hitem : item = makeSyntheticItem .cardAdd cardId)
      (hother : ∀ selected ∈ selectedItems, selected.entityRef ≠ item.entityRef)
      (hbase : baseDoc.lookup ⟨.card, cardId⟩ = none)
      (hincoming : (incomingDoc.lookup ⟨.card, cardId⟩).isSome)
  | link (removed : MergeItem) (link : EvidenceLink)
      (hitem : item = makeSyntheticItem .evidenceRemove link.id)
      (hother : ∀ selected ∈ selectedItems, selected.entityRef ≠ item.entityRef)
      (hremoved : removed ∈ selectedItems) (hkind : removed.kind = .cardRemove)
      (hlink : link ∈ baseDoc.links) (htouches : link.touches removed.entityRef.id = true)
      (hincoming : incomingDoc.lookup ⟨.evidenceLink, link.id⟩ = none)

/-- What holds of the selection at every step of the loop. -/
structure AutoSelection.Sound (baseDoc incomingDoc : DocumentV1) (selectedItems : List MergeItem)
    (selection : AutoSelection) : Prop where
  kept : ∀ id item, (mapBy MergeItem.id selectedItems).get? id = some item →
    selection.selectedMap.get? id = some item
  planned : ∀ id item, selection.selectedMap.get? id = some item →
    (mapBy MergeItem.id selectedItems).get? id = some item ∨
      (Synthetic baseDoc incomingDoc selectedItems item ∧ item.id = id)
  refKeys : ∀ item ∈ selectedItems, toRefKey item.entityRef ∈ selection.selectedRefKeys
  refKeysOnly : ∀ refKey ∈ selection.selectedRefKeys,
    (∃ item ∈ selectedItems, toRefKey item.entityRef = refKey) ∨
      ∃ item ∈ selection.selectedMap.values, toRefKey item.entityRef = refKey

namespace AutoSelection.Sound

variable {baseDoc incomingDoc : DocumentV1} {selectedItems : List MergeItem}
  {selection : AutoSelection}

section

variable (hsound : selection.Sound baseDoc incomingDoc selectedItems)
include hsound

theorem fail (error : MergeDiagnostic) :
    (selection.fail error).Sound baseDoc incomingDoc selectedItems :=
  ⟨hsound.kept, hsound.planned, hsound.refKeys, hsound.refKeysOnly⟩

theorem autoInclude
    {synthetic : MergeItem} (hsynthetic : Synthetic baseDoc incomingDoc selectedItems synthetic)
    (warning : MergeDiagnostic) :
    (selection.autoInclude synthetic warning).Sound baseDoc incomingDoc selectedItems := by
  unfold AutoSelection.autoInclude
  split
  next => exact hsound
  next hfree =>
    have hnew : ∀ id item, selection.selectedMap.get? id = some item → synthetic.id ≠ id := by
      rintro id item hget rfl
      exact hfree (by rw [InsertionMap.has, hget]; rfl)
    refine ⟨fun id item hget => ?_, fun id item hget => ?_, fun item hitem => ?_,
      fun refKey hrefKey => ?_⟩
    · have hkept := hsound.kept id item hget
      rw [InsertionMap.get?_set, if_neg (hnew id item hkept), hkept]
    · rw [InsertionMap.get?_set] at hget
      split at hget
      next hid => exact .inr ⟨Option.some.inj hget ▸ hsynthetic, Option.some.inj hget ▸ hid⟩
      next hid => exact hsound.planned id item hget
    · exact List.mem_append_left _ (hsound.refKeys item hitem)
    · rcases mem_snoc.mp hrefKey with hold | hadded
      · rcases hsound.refKeysOnly refKey hold with hselected | ⟨item, hitem, hkey⟩
        · exact .inl hselected
        · refine .inr ⟨item, ?_, hkey⟩
          obtain ⟨id, hget⟩ := InsertionMap.mem_values.mp hitem
          refine InsertionMap.mem_values.mpr ⟨id, ?_⟩
          rw [InsertionMap.get?_set, if_neg (hnew id item hget), hget]
      · refine .inr ⟨synthetic, InsertionMap.mem_values.mpr ⟨synthetic.id, ?_⟩,
          hadded.symm⟩
        rw [InsertionMap.get?_set, if_pos rfl]

theorem other_of_not_mem {ref : MergeItemRef} (hnot : toRefKey ref ∉ selection.selectedRefKeys) :
    ∀ selected ∈ selectedItems, selected.entityRef ≠ ref := by
  rintro selected hselected rfl
  exact hnot (hsound.refKeys selected hselected)

theorem requireCard (item : MergeItem) (cardId : String) :
    (selection.requireCard baseDoc incomingDoc item cardId).Sound baseDoc incomingDoc
      selectedItems := by
  unfold AutoSelection.requireCard
  split
  next => exact hsound
  next hmissing =>
    simp only [Bool.or_eq_true, List.contains_iff_mem, List.any_eq_true, decide_eq_true_eq,
      not_or, not_exists, not_and] at hmissing
    split
    next => exact hsound.fail _
    next card hfind =>
      apply hsound.autoInclude
      refine .card cardId rfl (hsound.other_of_not_mem hmissing.1) ?_ ?_
      · rw [DocumentV1.lookup, (findBy_eq_none Card.id).mpr hmissing.2]
        rfl
      · rw [DocumentV1.lookup, hfind]
        rfl

theorem requireRemoval
    {removed : MergeItem} (hremoved : removed ∈ selectedItems) (hkind : removed.kind = .cardRemove)
    {link : EvidenceLink} (hlink : link ∈ baseDoc.links)
    (htouches : link.touches removed.entityRef.id = true) :
    (selection.requireRemoval incomingDoc removed link).Sound baseDoc incomingDoc
      selectedItems := by
  unfold AutoSelection.requireRemoval
  split
  next => exact hsound
  next hunselected =>
    split
    next => exact hsound.fail _
    next hgone =>
      simp only [List.contains_iff_mem, List.any_eq_true, decide_eq_true_eq, not_exists,
        not_and] at hunselected hgone
      apply hsound.autoInclude
      refine .link removed link rfl (hsound.other_of_not_mem hunselected) hremoved hkind hlink
        htouches ?_
      rw [DocumentV1.lookup, (findBy_eq_none EvidenceLink.id).mpr hgone]
      rfl

theorem visit (hitem : item ∈ selectedItems) :
    (selection.visit baseDoc incomingDoc item).Sound baseDoc incomingDoc selectedItems := by
  unfold AutoSelection.visit
  split
  next =>
    split
    next => exact hsound.fail _
    next link _ =>
      exact List.foldlRecOn _ _ hsound fun _ hstate cardId _ => hstate.requireCard item cardId
  next hkind =>
    refine List.foldlRecOn _ _ hsound fun _ hstate link hlink => ?_
    obtain ⟨hmem, htouches⟩ := List.mem_filter.mp hlink
    exact hstate.requireRemoval hitem hkind hmem htouches
  next => exact hsound

end

end AutoSelection.Sound

section Plan

variable {baseDoc incomingDoc : DocumentV1} {selectedItems : List MergeItem}

theorem sound_selectWithAutoPrerequisites :
    (selectWithAutoPrerequisites baseDoc incomingDoc selectedItems).Sound baseDoc incomingDoc
      selectedItems := by
  refine List.foldlRecOn _ _ ⟨fun _ _ hget => hget, fun _ _ hget => .inl hget,
    fun item hitem => List.mem_map_of_mem hitem, fun refKey hrefKey => ?_⟩
    fun _ hstate item hitem => hstate.visit hitem
  obtain ⟨item, hitem, rfl⟩ := List.mem_map.mp hrefKey
  exact .inl ⟨item, hitem, rfl⟩

theorem mem_plannedItems_of_mem_lastItems (hitem : item ∈ lastItems selectedItems) :
    item ∈ plannedItems baseDoc incomingDoc selectedItems := by
  obtain ⟨id, hget⟩ := InsertionMap.mem_values.mp hitem
  exact InsertionMap.mem_values.mpr ⟨id, sound_selectWithAutoPrerequisites.kept id item hget⟩

theorem mem_plannedItems (hitem : item ∈ plannedItems baseDoc incomingDoc selectedItems) :
    item ∈ lastItems selectedItems ∨ Synthetic baseDoc incomingDoc selectedItems item := by
  obtain ⟨id, hget⟩ := InsertionMap.mem_values.mp hitem
  rcases sound_selectWithAutoPrerequisites.planned id item hget with hselected | ⟨hsynthetic, -⟩
  · exact .inl (InsertionMap.mem_values.mpr ⟨id, hselected⟩)
  · exact .inr hsynthetic

theorem mem_lastItems_of_kind (hitem : item ∈ plannedItems baseDoc incomingDoc selectedItems)
    (hcard : item.kind ≠ .cardAdd) (hlink : item.kind ≠ .evidenceRemove) :
    item ∈ lastItems selectedItems := by
  rcases mem_plannedItems hitem with hlast | hsynthetic
  · exact hlast
  · cases hsynthetic with
    | card cardId hadded => exact absurd (hadded ▸ rfl) hcard
    | link removed link hadded => exact absurd (hadded ▸ rfl) hlink

/-- Items that are added stand for differences of the documents too. -/
theorem Synthetic.describes (hitem : Synthetic baseDoc incomingDoc selectedItems item) :
    Describes baseDoc incomingDoc item := by
  cases hitem with
  | card cardId hitem _ hbase hincoming =>
      subst hitem
      exact .added .card cardId rfl rfl hbase hincoming
  | link removed link hitem _ _ _ hlink _ hincoming =>
      subst hitem
      refine .removed .evidenceLink link.id rfl rfl ?_ hincoming
      rw [DocumentV1.lookup, Option.isSome_map, findBy_isSome]
      exact ⟨link, hlink, rfl⟩

theorem describes_of_mem_plannedItems
    (hselected : ∀ item ∈ selectedItems, Describes baseDoc incomingDoc item)
    (hitem : item ∈ plannedItems baseDoc incomingDoc selectedItems) :
    Describes baseDoc incomingDoc item := by
  rcases mem_plannedItems hitem with hlast | hsynthetic
  · exact hselected item (mem_of_mem_lastItems hlast)
  · exact hsynthetic.describes

end Plan

/-! ## The operations -/

theorem mem_selectedIds {selectedItems : List MergeItem} {kinds : List MergeItemKind} :
    id ∈ selectedIds selectedItems kinds ↔
      ∃ item ∈ selectedItems, item.kind ∈ kinds ∧ item.entityRef.id = id := by
  simp only [selectedIds, mem_distinct, List.mem_map, List.mem_filter, List.contains_iff_mem,
    and_assoc]

theorem upsertChange_eq_some {incomingDoc : DocumentV1} {change : PatchChange}
    (hchange : upsertChange incomingDoc kind id = some change) (opId : String) :
    (⟨opId, change⟩ : PatchOp).entityKey = ⟨kind, id⟩ ∧
      (⟨opId, change⟩ : PatchOp).kind = kind.upsertOpKind ∧
        (⟨opId, change⟩ : PatchOp).theirValue = incomingDoc.lookup ⟨kind, id⟩ := by
  cases kind <;>
  · simp only [upsertChange, Option.map_eq_some_iff] at hchange
    obtain ⟨item, hfind, rfl⟩ := hchange
    have hid := (findBy_eq_some _ hfind).2
    simp [PatchOp.entityKey, PatchOp.kind, EntityKind.upsertOpKind, PatchOp.theirValue,
      DocumentV1.lookup, hfind, hid]

theorem upsertChange_isSome (incomingDoc : DocumentV1) (kind : EntityKind) (id : String) :
    (upsertChange incomingDoc kind id).isSome = (incomingDoc.lookup ⟨kind, id⟩).isSome := by
  cases kind <;> simp only [upsertChange, DocumentV1.lookup, Option.isSome_map]

theorem deleteChange_spec (kind : EntityKind) (id opId : String) :
    (⟨opId, deleteChange kind id⟩ : PatchOp).entityKey = ⟨kind, id⟩ ∧
      (⟨opId, deleteChange kind id⟩ : PatchOp).kind = kind.deleteOpKind ∧
        (⟨opId, deleteChange kind id⟩ : PatchOp).theirValue = none := by
  cases kind <;> exact ⟨rfl, rfl, rfl⟩

theorem existsIncoming_eq (incomingDoc : DocumentV1) (id : String) :
    existsIncoming incomingDoc id = (incomingDoc.lookup ⟨.relSummary, id⟩).isSome := by
  rw [Bool.eq_iff_iff, DocumentV1.lookup, Option.isSome_map, findBy_isSome, existsIncoming,
    List.any_eq_true]
  simp only [decide_eq_true_eq]

def MergeItemKind.entityKind? : MergeItemKind → Option EntityKind
  | .cardAdd | .cardRemove | .cardField => some .card
  | .islandAdd | .islandRemove | .islandField => some .island
  | .edgeAdd | .edgeRemove => some .edge
  | .evidenceAdd | .evidenceRemove => some .evidenceLink
  | .relationSummaryField => some .relSummary
  | .viewField => none

@[simp] theorem EntityKind.entityKind?_addKind (kind : EntityKind) :
    kind.addKind.entityKind? = some kind := by
  cases kind <;> rfl

@[simp] theorem EntityKind.entityKind?_removeKind (kind : EntityKind) :
    kind.removeKind.entityKind? = some kind := by
  cases kind <;> rfl

theorem EntityKind.entityKind?_fieldKind (hkind : some itemKind = kind.fieldKind) :
    itemKind.entityKind? = some kind := by
  cases kind <;> first | contradiction | (rw [Option.some.inj hkind]; rfl)

theorem entityKind?_of_mem_upsertItemKinds (hkind : itemKind ∈ kind.upsertItemKinds) :
    itemKind.entityKind? = some kind := by
  cases kind <;> cases itemKind <;> first | rfl | exact absurd hkind (by decide)

theorem entityKind?_of_mem_deleteItemKinds (hkind : itemKind ∈ kind.deleteItemKinds) :
    itemKind.entityKind? = some kind := by
  cases kind <;> cases itemKind <;> first | rfl | exact absurd hkind (by decide)

theorem EntityKind.addKind_mem (kind : EntityKind) : kind.addKind ∈ kind.upsertItemKinds := by
  cases kind <;> decide

theorem EntityKind.removeKind_mem (kind : EntityKind) : kind.removeKind ∈ kind.deleteItemKinds := by
  cases kind <;> decide

theorem EntityKind.fieldKind_mem (hkind : some itemKind = kind.fieldKind) :
    itemKind ∈ kind.upsertItemKinds := by
  cases kind <;> cases itemKind <;> first | contradiction | decide

theorem EntityKind.view_ne_mergeKind (kind : EntityKind) : MergeEntityKind.view ≠ kind.mergeKind := by
  cases kind <;> decide

theorem mergeRef_inj {other : EntityKey}
    (heq : (⟨key.kind.mergeKind, key.id⟩ : MergeItemRef) = ⟨other.kind.mergeKind, other.id⟩) :
    key = other := by
  have hkey : (⟨key.kind.mergeKind, key.id⟩ : MergeItemRef).entityKey? = some other :=
    entityKey?_eq_some.mpr heq
  exact Option.some.inj ((entityKey?_eq_some.mpr rfl).symm.trans hkey)

def PatchOpKind.entityKind : PatchOpKind → EntityKind
  | .upsertCard | .deleteCard => .card
  | .upsertIsland | .deleteIsland => .island
  | .upsertEdge | .deleteEdge => .edge
  | .upsertRelationSummary | .deleteRelationSummary => .relSummary
  | .upsertEvidenceLink | .deleteEvidenceLink => .evidenceLink

theorem PatchOp.entityKey_kind (op : PatchOp) : op.entityKey.kind = op.kind.entityKind := by
  obtain ⟨id, change⟩ := op
  cases change <;> rfl

theorem mergeOpId_inj {kind other : PatchOpKind} {otherId : String}
    (heq : mergeOpId kind id = mergeOpId other otherId) : kind = other ∧ id = otherId := by
  have hlist := congrArg String.toList heq
  simp only [mergeOpId, String.toList_append, List.append_assoc] at hlist
  obtain ⟨htext, hid⟩ := append_cons_inj kind.colon_not_mem_text other.colon_not_mem_text
    (List.append_cancel_left hlist)
  exact ⟨PatchOpKind.text_injective (String.toList_inj.mp htext), String.toList_inj.mp hid⟩

section Operations

variable {baseDoc incomingDoc : DocumentV1}

section

variable (hitem : Describes baseDoc incomingDoc item)
include hitem

theorem Describes.entityKey? :
    item.entityRef.entityKey? =
      item.kind.entityKind?.map fun kind => ⟨kind, item.entityRef.id⟩ := by
  cases hitem with
  | added kind id hkind href => rw [hkind, href]; cases kind <;> rfl
  | removed kind id hkind href => rw [hkind, href]; cases kind <;> rfl
  | changed kind id field hkind href =>
      rw [href]
      cases kind <;> first | contradiction | (rw [Option.some.inj hkind]; rfl)
  | view hkind href => rw [hkind, href]; rfl

/-- An item that makes the patch delete an entity is about one that the other
document does not have. -/
theorem Describes.eq_none_of_delete
    (hkind : item.kind ∈ kind.deleteItemKinds) (hne : kind ≠ .relSummary) :
    incomingDoc.lookup ⟨kind, item.entityRef.id⟩ = none := by
  have hown := entityKind?_of_mem_deleteItemKinds hkind
  cases hitem with
  | added other id hother href hbase hincoming =>
      rw [hother] at hown hkind
      rw [EntityKind.entityKind?_addKind, Option.some.injEq] at hown
      subst hown
      cases other <;> first | exact absurd rfl hne | exact absurd hkind (by decide)
  | removed other id hother href hbase hincoming =>
      rw [hother, EntityKind.entityKind?_removeKind, Option.some.injEq] at hown
      rw [href, ← hown]
      exact hincoming
  | changed other id field hother href hfield hbase hincoming =>
      have hfieldKind := EntityKind.entityKind?_fieldKind hother
      rw [hfieldKind, Option.some.injEq] at hown
      subst hown
      cases other <;>
        first
        | exact absurd rfl hne
        | contradiction
        | (rw [Option.some.inj hother] at hkind; exact absurd hkind (by decide))
  | view hview href hfield =>
      rw [hview] at hown
      contradiction

/-- An item about an entity makes the patch write it if the other document has
it, and delete it otherwise. -/
theorem Describes.mem_itemKinds (hkey : item.entityRef.entityKey? = some key) :
    if (incomingDoc.lookup key).isSome then item.kind ∈ key.kind.upsertItemKinds
    else item.kind ∈ key.kind.deleteItemKinds := by
  rw [entityKey?_eq_some] at hkey
  cases hitem with
  | added kind id hkind href hbase hincoming =>
      obtain rfl : key = ⟨kind, id⟩ := mergeRef_inj (hkey.symm.trans href)
      rw [if_pos hincoming, hkind]
      exact kind.addKind_mem
  | removed kind id hkind href hbase hincoming =>
      obtain rfl : key = ⟨kind, id⟩ := mergeRef_inj (hkey.symm.trans href)
      rw [hincoming, hkind]
      exact kind.removeKind_mem
  | changed kind id field hkind href hfield hbase hincoming =>
      obtain rfl : key = ⟨kind, id⟩ := mergeRef_inj (hkey.symm.trans href)
      rw [if_pos hincoming]
      exact kind.fieldKind_mem hkind
  | view hkind href hfield =>
      rw [href, MergeItemRef.mk.injEq] at hkey
      exact absurd hkey.1 key.kind.view_ne_mergeKind

theorem Describes.entityKey?_of_upsert (hkind : item.kind ∈ kind.upsertItemKinds) :
    item.entityRef.entityKey? = some ⟨kind, item.entityRef.id⟩ := by
  rw [hitem.entityKey?, entityKind?_of_mem_upsertItemKinds hkind]
  rfl

theorem Describes.entityKey?_of_delete (hkind : item.kind ∈ kind.deleteItemKinds) :
    item.entityRef.entityKey? = some ⟨kind, item.entityRef.id⟩ := by
  rw [hitem.entityKey?, entityKind?_of_mem_deleteItemKinds hkind]
  rfl

end

variable (lc : Collation) {items : List MergeItem}

theorem mem_buildOpList :
    op ∈ buildOpList lc incomingDoc items ↔ ∃ kind, op ∈ entityOps lc incomingDoc items kind := by
  rw [buildOpList, sortOn.mem, List.mem_flatMap]
  constructor
  · rintro ⟨kind, -, hop⟩
    exact ⟨kind, hop⟩
  · rintro ⟨kind, hop⟩
    exact ⟨kind, by cases kind <;> decide, hop⟩

theorem mem_entityOps :
    op ∈ entityOps lc incomingDoc items kind ↔
      (∃ id ∈ selectedUpserts incomingDoc items kind, ∃ change,
        upsertChange incomingDoc kind id = some change ∧
          ⟨mergeOpId kind.upsertOpKind id, change⟩ = op) ∨
      ∃ id ∈ selectedDeletes incomingDoc items kind,
        ⟨mergeOpId kind.deleteOpKind id, deleteChange kind id⟩ = op := by
  simp only [entityOps, List.mem_append, List.mem_filterMap, List.mem_map, sortOn.mem,
    Option.map_eq_some_iff]

theorem mem_selectedUpserts :
    id ∈ selectedUpserts incomingDoc items kind ↔
      id ∈ selectedIds items kind.upsertItemKinds ∧
        (kind = .relSummary → (incomingDoc.lookup ⟨kind, id⟩).isSome) := by
  rw [selectedUpserts]
  split
  next hkind =>
    subst hkind
    rw [List.mem_filter, existsIncoming_eq]
    simp only [forall_const]
  next hkind => simp only [hkind, false_implies, and_true]

theorem mem_selectedDeletes :
    id ∈ selectedDeletes incomingDoc items kind ↔
      id ∈ selectedIds items kind.deleteItemKinds ∧
        (kind = .relSummary → incomingDoc.lookup ⟨kind, id⟩ = none) := by
  rw [selectedDeletes]
  split
  next hkind =>
    subst hkind
    rw [List.mem_filter, existsIncoming_eq, Bool.not_eq_true', Option.isSome_eq_false_iff,
      Option.isNone_iff_eq_none]
    simp only [forall_const]
  next hkind => simp only [hkind, false_implies, and_true]

/-- Every operation is about the entity of an item and gives it the value of the
other document. -/
theorem of_mem_buildOpList (hitems : ∀ item ∈ items, Describes baseDoc incomingDoc item)
    (hop : op ∈ buildOpList lc incomingDoc items) :
    (∃ item ∈ items, item.entityRef.entityKey? = some op.entityKey) ∧
      op.theirValue = incomingDoc.lookup op.entityKey ∧
        op.id = mergeOpId op.kind op.entityKey.id := by
  obtain ⟨kind, hop⟩ := (mem_buildOpList lc).mp hop
  rcases (mem_entityOps lc).mp hop with ⟨id, hid, change, hchange, rfl⟩ | ⟨id, hid, rfl⟩
  · obtain ⟨hkey, hkind, htheir⟩ :=
      upsertChange_eq_some hchange (mergeOpId kind.upsertOpKind id)
    obtain ⟨item, hitem, hitemKind, rfl⟩ := mem_selectedIds.mp (mem_selectedUpserts.mp hid).1
    rw [hkey, hkind, htheir]
    exact ⟨⟨item, hitem, (hitems item hitem).entityKey?_of_upsert hitemKind⟩, rfl, rfl⟩
  · obtain ⟨hkey, hkind, htheir⟩ := deleteChange_spec kind id (mergeOpId kind.deleteOpKind id)
    obtain ⟨hselected, hsummary⟩ := mem_selectedDeletes.mp hid
    obtain ⟨item, hitem, hitemKind, rfl⟩ := mem_selectedIds.mp hselected
    rw [hkey, hkind, htheir]
    refine ⟨⟨item, hitem, (hitems item hitem).entityKey?_of_delete hitemKind⟩, ?_, rfl⟩
    by_cases hne : kind = .relSummary
    · exact (hsummary hne).symm
    · exact ((hitems item hitem).eq_none_of_delete hitemKind hne).symm

theorem exists_op_of_item (hitems : ∀ item ∈ items, Describes baseDoc incomingDoc item)
    (hitem : item ∈ items) (hkey : item.entityRef.entityKey? = some key) :
    ∃ op ∈ buildOpList lc incomingDoc items, op.entityKey = key := by
  have hkinds := (hitems item hitem).mem_itemKinds hkey
  have hid : item.entityRef.id = key.id := by rw [entityKey?_eq_some.mp hkey]
  split at hkinds
  next hsome =>
    have hchange : (upsertChange incomingDoc key.kind key.id).isSome := by
      rw [upsertChange_isSome]
      exact hsome
    obtain ⟨change, hchange⟩ := Option.isSome_iff_exists.mp hchange
    refine ⟨⟨mergeOpId key.kind.upsertOpKind key.id, change⟩, (mem_buildOpList lc).mpr ⟨key.kind,
      (mem_entityOps lc).mpr (.inl ⟨key.id, ?_, change, hchange, rfl⟩)⟩,
      (upsertChange_eq_some hchange _).1⟩
    exact mem_selectedUpserts.mpr ⟨mem_selectedIds.mpr ⟨item, hitem, hkinds, hid⟩, fun _ => hsome⟩
  next hnone =>
    rw [Bool.not_eq_true, Option.isSome_eq_false_iff, Option.isNone_iff_eq_none] at hnone
    refine ⟨⟨mergeOpId key.kind.deleteOpKind key.id, deleteChange key.kind key.id⟩,
      (mem_buildOpList lc).mpr ⟨key.kind, (mem_entityOps lc).mpr (.inr ⟨key.id, ?_, rfl⟩)⟩,
      (deleteChange_spec _ _ _).1⟩
    exact mem_selectedDeletes.mpr ⟨mem_selectedIds.mpr ⟨item, hitem, hkinds, hid⟩, fun _ => hnone⟩

end Operations

/-! ## The steps of a successful merge -/

theorem lintErrors_eq_nil {mark : String} {issues : List PatchLintIssue} :
    lintErrors mark issues = [] ↔ shouldBlockPatchApplyByLint issues = false := by
  rw [lintErrors, List.map_eq_nil_iff, List.filter_eq_nil_iff, shouldBlockPatchApplyByLint,
    List.any_eq_false]

section Transaction

variable (lc : Collation)

def mergeOps (baseDoc incomingDoc : DocumentV1) (selectedItems : List MergeItem) : List PatchOp :=
  buildOpList lc incomingDoc (plannedItems baseDoc incomingDoc selectedItems)

def mergePatch (baseDoc incomingDoc : DocumentV1) (selectedItems : List MergeItem) : PatchV1 :=
  buildSelectedPatchFromItems lc baseDoc incomingDoc
    (plannedItems baseDoc incomingDoc selectedItems)

def takesReadingOrder (item : MergeItem) : Bool :=
  decide (item.kind = .viewField) && decide (item.field = some "readingOrder")

/-- What is known when a merge transaction succeeds. -/
structure Merges (currentDoc snapshotDoc baseDoc incomingDoc : DocumentV1)
    (selectedItems : List MergeItem) (result : DocumentV1) : Prop where
  baseValid : validateDocument baseDoc.toJs .error = []
  incomingValid : validateDocument incomingDoc.toJs .error = []
  noErrors : (selectWithAutoPrerequisites baseDoc incomingDoc selectedItems).errors = []
  noConflicts : ∀ op ∈ mergeOps lc baseDoc incomingDoc selectedItems,
    ¬Conflicting lc snapshotDoc currentDoc op
  lint : shouldBlockPatchApplyByLint (lintPatchAgainstCurrentDoc currentDoc
    (mergePatch lc baseDoc incomingDoc selectedItems)) = false
  document : result = { applyPatchOps (mergeOps lc baseDoc incomingDoc selectedItems) currentDoc with
    readingOrder :=
      if (plannedItems baseDoc incomingDoc selectedItems).any takesReadingOrder then
        some (incomingDoc.readingOrder.getD [])
      else currentDoc.readingOrder }
  resultValid : validateDocument result.toJs .error = []

theorem exists_view_of_takesReadingOrder {baseDoc incomingDoc : DocumentV1}
    {selectedItems : List MergeItem}
    (htakes : (plannedItems baseDoc incomingDoc selectedItems).any takesReadingOrder = true) :
    ∃ item ∈ selectedItems, item.kind = .viewField := by
  obtain ⟨item, hitem, htakes⟩ := List.any_eq_true.mp htakes
  rw [takesReadingOrder, Bool.and_eq_true, decide_eq_true_eq] at htakes
  have hlast := mem_lastItems_of_kind hitem (by rw [htakes.1]; exact nofun)
    (by rw [htakes.1]; exact nofun)
  exact ⟨item, mem_of_mem_lastItems hlast, htakes.1⟩

theorem readingOrder_applyPatchOps (ops : List PatchOp) (doc : DocumentV1) :
    (applyPatchOps ops doc).readingOrder = doc.readingOrder := by
  induction ops generalizing doc with
  | nil => rfl
  | cons op ops ih =>
      rw [applyPatchOps, List.foldl_cons, ← applyPatchOps, ih]
      obtain ⟨id, change⟩ := op
      cases change <;> rfl

variable {currentDoc snapshotDoc baseDoc incomingDoc : DocumentV1}
  {selectedItems : List MergeItem}

theorem document_of_all_selected (doc : DocumentV1) (patch : PatchV1)
    (resolutions : String → Option PatchResolution) :
    (applyPatchWithResolutionsDetailed lc doc patch resolutions none
      (some (patch.ops.map PatchOp.id))).document = applyPatchOps patch.ops doc := by
  simp only [applyPatchWithResolutionsDetailed, Option.map_none, Option.getD_none]
  rw [(foldl_applyStep _ resolutions _ patch.ops _).1, List.filter_eq_self.mpr]
  intro op hop
  simp [isApplied, List.mem_map_of_mem hop]

theorem mergedDocument_eq (preflight : MergePreflight) :
    mergedDocument lc currentDoc incomingDoc preflight =
      { applyPatchOps preflight.patchOrPlan.ops currentDoc with
        readingOrder :=
          if preflight.selectedItems.any takesReadingOrder then
            some (incomingDoc.readingOrder.getD [])
          else currentDoc.readingOrder } := by
  unfold mergedDocument
  dsimp only
  rw [document_of_all_selected, readingOrder_applyPatchOps]
  rfl

/-- What is known when the checks before a merge succeed. -/
theorem preflightMerge_eq_ok {preflight : MergePreflight}
    (hok : preflightMerge lc baseDoc selectedItems incomingDoc = .ok preflight) :
    validateDocument baseDoc.toJs .error = [] ∧ validateDocument incomingDoc.toJs .error = [] ∧
      (selectWithAutoPrerequisites baseDoc incomingDoc selectedItems).errors = [] ∧
        preflight.patchOrPlan = mergePatch lc baseDoc incomingDoc selectedItems ∧
          preflight.selectedItems = plannedItems baseDoc incomingDoc selectedItems := by
  unfold preflightMerge at hok
  obtain ⟨herrors, hok⟩ := ok_of_ite_error hok
  obtain ⟨hplan, hok⟩ := ok_of_ite_error hok
  obtain ⟨-, hok⟩ := ok_of_ite_error hok
  obtain rfl := Except.ok.inj hok
  rw [not_not, List.append_eq_nil_iff, List.append_eq_nil_iff] at herrors
  refine ⟨?_, ?_, not_not.mp hplan, rfl, rfl⟩
  · exact List.map_eq_nil_iff.mp herrors.1.1
  · exact List.map_eq_nil_iff.mp herrors.1.2

theorem merges_of_ok {allowWarnings : Bool} {result : MergeTransaction}
    (hok : applyMergeTransaction lc currentDoc snapshotDoc baseDoc incomingDoc selectedItems
      allowWarnings = .ok result) :
    Merges lc currentDoc snapshotDoc baseDoc incomingDoc selectedItems result.document := by
  unfold applyMergeTransaction at hok
  cases hpreflight : preflightMerge lc baseDoc selectedItems incomingDoc with
  | error errors =>
      rw [hpreflight] at hok
      contradiction
  | ok preflight =>
      obtain ⟨hbase, hincoming, hnoErrors, hpatch, hitems⟩ := preflightMerge_eq_ok lc hpreflight
      rw [hpreflight] at hok
      obtain ⟨-, hok⟩ := ok_of_ite_error hok
      obtain ⟨hconflicts, hok⟩ := ok_of_ite_error hok
      obtain ⟨hlint, hok⟩ := ok_of_ite_error hok
      obtain ⟨hpost, hok⟩ := ok_of_ite_error hok
      obtain rfl := Except.ok.inj hok
      rw [not_not] at hconflicts hlint hpost
      rw [hpatch] at hconflicts hlint
      refine ⟨hbase, hincoming, hnoErrors, (conflicts_eq_nil lc).mp hconflicts,
        lintErrors_eq_nil.mp hlint, ?_, hpost⟩
      rw [mergedDocument_eq, hpatch, hitems]
      rfl

/-! ## What becomes of each entity -/

def Planned (baseDoc incomingDoc : DocumentV1) (selectedItems : List MergeItem)
    (key : EntityKey) : Prop :=
  ∃ item ∈ plannedItems baseDoc incomingDoc selectedItems, item.entityRef.entityKey? = some key

instance (key : EntityKey) : Decidable (Planned baseDoc incomingDoc selectedItems key) :=
  inferInstanceAs (Decidable (∃ item ∈ _, _))

section Entities

variable (hselected : ∀ item ∈ selectedItems, Describes baseDoc incomingDoc item)

include hselected

theorem of_mem_mergeOps (hop : op ∈ mergeOps lc baseDoc incomingDoc selectedItems) :
    Planned baseDoc incomingDoc selectedItems op.entityKey ∧
      op.theirValue = incomingDoc.lookup op.entityKey ∧
        op.id = mergeOpId op.kind op.entityKey.id :=
  of_mem_buildOpList lc (fun _ => describes_of_mem_plannedItems hselected) hop

theorem exists_mergeOp_iff (key : EntityKey) :
    (∃ op ∈ mergeOps lc baseDoc incomingDoc selectedItems, op.entityKey = key) ↔
      Planned baseDoc incomingDoc selectedItems key := by
  constructor
  · rintro ⟨op, hop, rfl⟩
    exact (of_mem_mergeOps lc hselected hop).1
  · rintro ⟨item, hitem, hkey⟩
    exact exists_op_of_item lc (fun _ => describes_of_mem_plannedItems hselected) hitem hkey

/-- The operations take every planned entity from the other document. -/
theorem lastValue_mergeOps (key : EntityKey) (entity : Option Entity) :
    lastValue key (mergeOps lc baseDoc incomingDoc selectedItems) entity =
      if Planned baseDoc incomingDoc selectedItems key then incomingDoc.lookup key else entity := by
  have hagree : ∀ op ∈ mergeOps lc baseDoc incomingDoc selectedItems, op.entityKey = key →
      op.theirValue = incomingDoc.lookup key := by
    rintro op hop rfl
    exact (of_mem_mergeOps lc hselected hop).2.1
  rw [lastValue_of_agree hagree]
  exact if_congr (exists_mergeOp_iff lc hselected key) rfl rfl

/-- No link of the merged document loses a card: the linter would report it. -/
theorem not_cascades_merged (hunique : currentDoc.UniqueIds)
    (hlint : shouldBlockPatchApplyByLint (lintPatchAgainstCurrentDoc currentDoc
      (mergePatch lc baseDoc incomingDoc selectedItems)) = false) {value : Entity}
    (hvalue : value ∈ lastValue ⟨.evidenceLink, id⟩
      (mergeOps lc baseDoc incomingDoc selectedItems) (currentDoc.lookup ⟨.evidenceLink, id⟩))
    (hop : op ∈ mergeOps lc baseDoc incomingDoc selectedItems) : op.cascades value = false := by
  let patch := mergePatch lc baseDoc incomingDoc selectedItems
  have hsim := simulates_applyPatchToMaps (fun kind _ => hunique kind) patch
  have hissues := no_issue_of_not_blocked
    (applyPatchToMaps currentDoc patch).maps.evidenceLinks.values hlint
    (fun issue hissue => by simp [lintPatchAgainstCurrentDoc, patch, hissue])
    (severity_of_issue (applyPatchToMaps currentDoc patch)).2.2
  have hget := @evidenceLinks_get?_applyPatchToMaps currentDoc patch (hunique .evidenceLink) id
  obtain ⟨link, hlink, rfl⟩ := Option.map_eq_some_iff.mp (hget.trans hvalue)
  obtain ⟨hfrom, hto⟩ := cards_of_evidenceLinkIssue_eq_none hsim
    (hissues link (InsertionMap.mem_values.mpr ⟨id, hlink⟩))
  rw [PatchOp.cascades, Option.any_eq_false_iff_get]
  intro hdeletes
  obtain ⟨opId, change⟩ := op
  cases change with
  | deleteCard cardId =>
      have hgone := lastValue_mergeOps lc hselected ⟨.card, cardId⟩
        (currentDoc.lookup ⟨.card, cardId⟩)
      have hplanned : Planned baseDoc incomingDoc selectedItems ⟨.card, cardId⟩ :=
        (of_mem_mergeOps lc hselected hop).1
      have htheir := (of_mem_mergeOps lc hselected hop).2.1
      rw [← lookup_applyPatchOps_of_not_link (by simp), if_pos hplanned] at hgone
      have hnone := hgone.trans htheir.symm
      rw [PatchOp.theirValue, DocumentV1.lookup, Option.map_eq_none_iff, findBy_eq_none] at hnone
      have hmissing : ¬∃ card ∈ (applyPatchOps patch.ops currentDoc).cards, card.id = cardId :=
        not_exists.mpr fun card => not_and.mpr (hnone card)
      change link.touches cardId = false
      rw [EvidenceLink.touches, Bool.or_eq_false_iff, decide_eq_false_iff_not,
        decide_eq_false_iff_not]
      exact ⟨fun heq => hmissing (heq ▸ hfrom), fun heq => hmissing (heq ▸ hto)⟩
  | _ => exact absurd hdeletes Bool.false_ne_true

end Entities

variable {result : DocumentV1}

section

variable (hmerges : Merges lc currentDoc snapshotDoc baseDoc incomingDoc selectedItems result)
include hmerges

theorem Merges.lookup_result (key : EntityKey) :
    result.lookup key =
      (applyPatchOps (mergeOps lc baseDoc incomingDoc selectedItems) currentDoc).lookup key := by
  rw [hmerges.document]
  obtain ⟨kind, id⟩ := key
  cases kind <;> rfl

theorem Merges.ids_result (kind : EntityKind) :
    result.ids kind =
      (applyPatchOps (mergeOps lc baseDoc incomingDoc selectedItems) currentDoc).ids kind := by
  rw [hmerges.document]
  cases kind <;> rfl

/-- A merge takes the planned entities from the other document and keeps the
others. For evidence links this takes distinct ids. -/
theorem lookup_merged (hselected : ∀ item ∈ selectedItems, Describes baseDoc incomingDoc item)
    (hunique : key.kind = .evidenceLink → currentDoc.UniqueIds) :
    result.lookup key =
      if Planned baseDoc incomingDoc selectedItems key then incomingDoc.lookup key
      else currentDoc.lookup key := by
  rw [hmerges.lookup_result, ← lastValue_mergeOps lc hselected]
  by_cases hkind : key.kind = .evidenceLink
  · obtain ⟨kind, id⟩ := key
    obtain rfl : kind = .evidenceLink := hkind
    rw [lookup_applyPatchOps fun _ => hunique rfl .evidenceLink, entityRun_eq_lastValue]
    exact fun value hvalue op hop =>
      not_cascades_merged lc hselected (hunique rfl) hmerges.lint hvalue hop
  · exact lookup_applyPatchOps_of_not_link hkind _

end

end Transaction

end KjAtlas
