import KjAtlas.Diff.Transaction

/-! # Previewing a selection

The preview of a selection looks up the operation of each item through texts of
entity keys and marks the items whose operation conflicts. The text of an
evidence link has another prefix in the items than in the operations, so that
no item of a link is ever marked.
-/

namespace KjAtlas

open Js

inductive MergeItemStatus where
  | ok
  | missingPrerequisites
  | conflict
deriving DecidableEq

structure MergeItemEvaluation where
  item : MergeItem
  status : MergeItemStatus
  missingPrerequisites : List MergeItemRef
  conflict : Bool

structure MergeSelectionPreview where
  evaluations : List MergeItemEvaluation
  selectedIdsWithPrerequisites : List String

def prerequisiteItem (items : List MergeItem) (prerequisite : MergeItemRef) : Option MergeItem :=
  items.find? fun candidate =>
    decide (candidate.entityRef.kind = prerequisite.kind) &&
      decide (candidate.entityRef.id = prerequisite.id) &&
        (decide (candidate.kind = .cardAdd) || decide (candidate.kind = .evidenceRemove))

def selectWithPrerequisites (items : List MergeItem) (selectedIds : List String)
    (autoIncludePrerequisites : Bool) : List String :=
  if autoIncludePrerequisites then
    selectedIds ++ (items.filter fun item => selectedIds.contains item.id).flatMap fun item =>
      item.prerequisites.filterMap fun prerequisite =>
        (prerequisiteItem items prerequisite).map MergeItem.id
  else selectedIds

def collectMissingPrerequisites (item : MergeItem) (selectedRefKeySet : List String) :
    List MergeItemRef :=
  item.prerequisites.filter fun prerequisite => !selectedRefKeySet.contains (toRefKey prerequisite)

/-- The prefix under which the preview looks for the operation of an item. -/
def patchEntityKeyPrefix (kind : MergeEntityKind) : String :=
  if kind = .relationSummary then "relSummary" else kind.text

section Preview

variable (lc : Collation)

def evaluateMergeSelection (baseDoc currentDoc incomingDoc snapshotDoc : DocumentV1)
    (items : List MergeItem) (selectedIds : List String) (autoIncludePrerequisites : Bool) :
    MergeSelectionPreview :=
  let selectedIdsWithPrerequisites :=
    selectWithPrerequisites items selectedIds autoIncludePrerequisites
  let selectedItemsWithPrerequisites :=
    items.filter fun item => selectedIdsWithPrerequisites.contains item.id
  let selectedRefKeySet := selectedItemsWithPrerequisites.map fun item => toRefKey item.entityRef
  let candidatePatch :=
    buildSelectedPatchFromItems lc baseDoc incomingDoc selectedItemsWithPrerequisites
  let conflictOpIds := (detectPatchConflicts lc snapshotDoc currentDoc candidatePatch).conflicts.map
    ConflictItem.opId
  { evaluations := items.map fun item =>
      let missingPrerequisites :=
        if selectedIdsWithPrerequisites.contains item.id then
          collectMissingPrerequisites item selectedRefKeySet
        else []
      let opId := (candidatePatch.ops.find? fun op => decide (getPatchOpEntityKey op =
        patchEntityKeyPrefix item.entityRef.kind ++ ":" ++ item.entityRef.id)).map PatchOp.id
      let conflict := opId.any fun opId => decide (opId ≠ "") && conflictOpIds.contains opId
      { item
        status :=
          if conflict then .conflict
          else if missingPrerequisites ≠ [] then .missingPrerequisites
          else .ok
        missingPrerequisites
        conflict }
    selectedIdsWithPrerequisites }

/-! ## Marked items and conflicting operations -/

def selectedForPreview (items : List MergeItem) (selectedIds : List String)
    (autoIncludePrerequisites : Bool) : List MergeItem :=
  items.filter fun item =>
    (selectWithPrerequisites items selectedIds autoIncludePrerequisites).contains item.id

/-- Whether conflict detection reports the operation of an item's entity. -/
def Detected (baseDoc currentDoc incomingDoc snapshotDoc : DocumentV1) (selected : List MergeItem)
    (item : MergeItem) : Prop :=
  ∃ op ∈ buildOpList lc incomingDoc selected, item.entityRef.entityKey? = some op.entityKey ∧
    op.id ∈ (detectPatchConflicts lc snapshotDoc currentDoc
      (buildSelectedPatchFromItems lc baseDoc incomingDoc selected)).conflicts.map ConflictItem.opId

/-- The marks of the selected items agree with the reported conflicts. -/
def PreviewAgrees (baseDoc currentDoc incomingDoc snapshotDoc : DocumentV1)
    (items : List MergeItem) (selectedIds : List String) (autoIncludePrerequisites : Bool) : Prop :=
  ∀ evaluation ∈ (evaluateMergeSelection lc baseDoc currentDoc incomingDoc snapshotDoc items
      selectedIds autoIncludePrerequisites).evaluations,
    evaluation.item ∈ selectedForPreview items selectedIds autoIncludePrerequisites →
      (evaluation.status = .conflict ↔ Detected lc baseDoc currentDoc incomingDoc snapshotDoc
        (selectedForPreview items selectedIds autoIncludePrerequisites) evaluation.item)

/-- Whether the values of an entity in three documents are pairwise different. -/
def ThreeWayDifferent (snapshotDoc currentDoc incomingDoc : DocumentV1) (key : EntityKey) : Prop :=
  sameEntity lc (snapshotDoc.lookup key) (currentDoc.lookup key) = false ∧
    sameEntity lc (snapshotDoc.lookup key) (incomingDoc.lookup key) = false ∧
      sameEntity lc (currentDoc.lookup key) (incomingDoc.lookup key) = false

/-- The preview finds the operations of items about other entities than
evidence links. -/
theorem getPatchOpEntityKey_eq_iff {op : PatchOp} {ref : MergeItemRef} :
    getPatchOpEntityKey op = patchEntityKeyPrefix ref.kind ++ ":" ++ ref.id ↔
      ref.kind ≠ .evidence ∧ ref.entityKey? = some op.entityKey := by
  have hcolon : ':' ∉ (patchEntityKeyPrefix ref.kind).toList := by
    cases ref.kind <;> decide
  rw [entityKey?_eq_some]
  constructor
  · intro heq
    obtain ⟨hkind, hid⟩ := labelled_inj op.entityKey.kind.colon_not_mem_text hcolon heq
    obtain ⟨refKind, refId⟩ := ref
    dsimp only at hid hkind
    rw [← hid]
    cases hopKind : op.entityKey.kind <;> cases refKind <;>
      first
      | exact absurd (hopKind ▸ hkind) (by decide)
      | exact ⟨by simp, rfl⟩
  · rintro ⟨hne, rfl⟩
    rw [getPatchOpEntityKey, EntityKey.text]
    cases hopKind : op.entityKey.kind with
    | evidenceLink => exact absurd (by rw [hopKind]; rfl) hne
    | _ => rfl

section Agreement

variable {baseDoc currentDoc incomingDoc snapshotDoc : DocumentV1} {selected : List MergeItem}
  (hselected : ∀ item ∈ selected, Describes baseDoc incomingDoc item)

include hselected

/-- The ids of the operations name their entities. -/
theorem entityKey_of_id {op other : PatchOp} (hop : op ∈ buildOpList lc incomingDoc selected)
    (hother : other ∈ buildOpList lc incomingDoc selected) (hid : op.id = other.id) :
    op.entityKey = other.entityKey := by
  rw [(of_mem_buildOpList lc hselected hop).2.2, (of_mem_buildOpList lc hselected hother).2.2] at hid
  obtain ⟨hkind, hentityId⟩ := mergeOpId_inj hid
  have hentityKind := op.entityKey_kind
  rw [hkind, ← other.entityKey_kind] at hentityKind
  exact congrArg₂ EntityKey.mk hentityKind hentityId

/-- An operation is reported when the values of its entity are pairwise different. -/
theorem mem_conflictOpIds_iff {op : PatchOp} (hop : op ∈ buildOpList lc incomingDoc selected) :
    op.id ∈ (detectPatchConflicts lc snapshotDoc currentDoc
        (buildSelectedPatchFromItems lc baseDoc incomingDoc selected)).conflicts.map
          ConflictItem.opId ↔
      ThreeWayDifferent lc snapshotDoc currentDoc incomingDoc op.entityKey := by
  have hconflicting : ∀ other ∈ buildOpList lc incomingDoc selected,
      (Conflicting lc snapshotDoc currentDoc other ↔
        ThreeWayDifferent lc snapshotDoc currentDoc incomingDoc other.entityKey) := by
    intro other hother
    rw [Conflicting, (of_mem_buildOpList lc hselected hother).2.1]
    rfl
  rw [mem_conflicts_opId]
  constructor
  · rintro ⟨other, hother, hid, hconflict⟩
    rw [← entityKey_of_id lc hselected hother hop hid]
    exact (hconflicting other hother).mp hconflict
  · exact fun hdifferent => ⟨op, hop, rfl, (hconflicting op hop).mpr hdifferent⟩

theorem detected_iff {item : MergeItem} (hitem : item ∈ selected) :
    Detected lc baseDoc currentDoc incomingDoc snapshotDoc selected item ↔
      ∃ key, item.entityRef.entityKey? = some key ∧
        ThreeWayDifferent lc snapshotDoc currentDoc incomingDoc key := by
  constructor
  · rintro ⟨op, hop, hkey, hreported⟩
    exact ⟨op.entityKey, hkey, (mem_conflictOpIds_iff lc hselected hop).mp hreported⟩
  · rintro ⟨key, hkey, hdifferent⟩
    obtain ⟨op, hop, rfl⟩ := exists_op_of_item lc hselected hitem hkey
    exact ⟨op, hop, hkey, (mem_conflictOpIds_iff lc hselected hop).mpr hdifferent⟩

theorem marked_iff {item : MergeItem} (hitem : item ∈ selected) :
    (((buildOpList lc incomingDoc selected).find? fun op => decide (getPatchOpEntityKey op =
        patchEntityKeyPrefix item.entityRef.kind ++ ":" ++ item.entityRef.id)).map PatchOp.id).any
          (fun opId => decide (opId ≠ "") &&
            ((detectPatchConflicts lc snapshotDoc currentDoc
              (buildSelectedPatchFromItems lc baseDoc incomingDoc selected)).conflicts.map
                ConflictItem.opId).contains opId) = true ↔
      item.entityRef.kind ≠ .evidence ∧ ∃ key, item.entityRef.entityKey? = some key ∧
        ThreeWayDifferent lc snapshotDoc currentDoc incomingDoc key := by
  rw [Option.any_map, Option.any_eq_true]
  constructor
  · rintro ⟨op, hfind, hreported⟩
    have hop := List.mem_of_find?_eq_some hfind
    have htext := List.find?_some hfind
    rw [decide_eq_true_eq, getPatchOpEntityKey_eq_iff] at htext
    rw [Bool.and_eq_true, List.contains_iff_mem, mem_conflictOpIds_iff lc hselected hop]
      at hreported
    exact ⟨htext.1, op.entityKey, htext.2, hreported.2⟩
  · rintro ⟨hne, key, hkey, hdifferent⟩
    obtain ⟨op, hop, rfl⟩ := exists_op_of_item lc hselected hitem hkey
    have hfound : ((buildOpList lc incomingDoc selected).find? fun op =>
        decide (getPatchOpEntityKey op =
          patchEntityKeyPrefix item.entityRef.kind ++ ":" ++ item.entityRef.id)).isSome :=
      List.find?_isSome.mpr ⟨op, hop, decide_eq_true (getPatchOpEntityKey_eq_iff.mpr ⟨hne, hkey⟩)⟩
    obtain ⟨found, hfind⟩ := Option.isSome_iff_exists.mp hfound
    have hmem := List.mem_of_find?_eq_some hfind
    have htext := List.find?_some hfind
    rw [decide_eq_true_eq, getPatchOpEntityKey_eq_iff, hkey, Option.some.injEq] at htext
    refine ⟨found, hfind, ?_⟩
    rw [Bool.and_eq_true, List.contains_iff_mem, decide_eq_true_eq,
      mem_conflictOpIds_iff lc hselected hmem, ← htext.2]
    refine ⟨fun hempty => ?_, hdifferent⟩
    rw [(of_mem_buildOpList lc hselected hmem).2.2, mergeOpId] at hempty
    simp at hempty

end Agreement

section Evaluation

variable {baseDoc currentDoc incomingDoc snapshotDoc : DocumentV1} {items : List MergeItem}
  {selectedIds : List String} {autoIncludePrerequisites : Bool}

theorem exists_evaluation {item : MergeItem} (hitem : item ∈ items) :
    ∃ evaluation ∈ (evaluateMergeSelection lc baseDoc currentDoc incomingDoc snapshotDoc items
      selectedIds autoIncludePrerequisites).evaluations, evaluation.item = item :=
  ⟨_, List.mem_map.mpr ⟨item, hitem, rfl⟩, rfl⟩

/-- A selected item is marked exactly when its operation is reported, unless it
is about an evidence link whose values are pairwise different. -/
theorem marked_iff_detected_iff
    (hitems : ∀ item ∈ items, item ∈ buildMergeItems lc baseDoc incomingDoc)
    {evaluation : MergeItemEvaluation}
    (hevaluation : evaluation ∈ (evaluateMergeSelection lc baseDoc currentDoc incomingDoc snapshotDoc
      items selectedIds autoIncludePrerequisites).evaluations)
    (hselected : evaluation.item ∈ selectedForPreview items selectedIds autoIncludePrerequisites) :
    (evaluation.status = .conflict ↔ Detected lc baseDoc currentDoc incomingDoc snapshotDoc
        (selectedForPreview items selectedIds autoIncludePrerequisites) evaluation.item) ↔
      (evaluation.item.entityRef.kind = .evidence →
        ¬ThreeWayDifferent lc snapshotDoc currentDoc incomingDoc
          ⟨.evidenceLink, evaluation.item.entityRef.id⟩) := by
  obtain ⟨item, hitem, rfl⟩ := List.mem_map.mp hevaluation
  dsimp only at hselected ⊢
  have hdescribes : ∀ item ∈ selectedForPreview items selectedIds autoIncludePrerequisites,
      Describes baseDoc incomingDoc item :=
    fun item hitem => describes_of_mem_buildMergeItems lc (hitems item (List.mem_filter.mp hitem).1)
  have hstatus : ∀ (conflict : Bool) (missing : List MergeItemRef),
      ((if conflict = true then MergeItemStatus.conflict
        else if missing ≠ [] then .missingPrerequisites else .ok) = .conflict) ↔
          conflict = true := by
    intro conflict missing
    cases conflict <;> cases missing <;> simp
  rw [detected_iff lc hdescribes hselected, hstatus]
  refine (iff_congr (marked_iff lc hdescribes hselected) Iff.rfl).trans ?_
  constructor
  · intro hagree hevidence hdifferent
    have href : item.entityRef = ⟨.evidence, item.entityRef.id⟩ := by rw [← hevidence]
    have hkey : item.entityRef.entityKey? = some ⟨.evidenceLink, item.entityRef.id⟩ :=
      entityKey?_eq_some.mpr href
    exact (hagree.mpr ⟨_, hkey, hdifferent⟩).1 hevidence
  · intro hlink
    refine ⟨And.right, fun ⟨key, hkey, hdifferent⟩ => ⟨fun hevidence => ?_, key, hkey, hdifferent⟩⟩
    obtain ⟨kind, id⟩ := key
    have href := entityKey?_eq_some.mp hkey
    have hkind : kind.mergeKind = .evidence := (congrArg MergeItemRef.kind href).symm.trans hevidence
    obtain rfl : kind = .evidenceLink := by
      revert hkind
      cases kind <;> decide
    exact hlink hevidence (by rwa [show item.entityRef.id = id by rw [href]])

/-- The preview agrees with conflict detection exactly when no selected item is
about an evidence link whose values are pairwise different. -/
theorem previewAgrees_iff (hitems : ∀ item ∈ items, item ∈ buildMergeItems lc baseDoc incomingDoc) :
    PreviewAgrees lc baseDoc currentDoc incomingDoc snapshotDoc items selectedIds
        autoIncludePrerequisites ↔
      ∀ item ∈ selectedForPreview items selectedIds autoIncludePrerequisites,
        item.entityRef.kind = .evidence →
          ¬ThreeWayDifferent lc snapshotDoc currentDoc incomingDoc
            ⟨.evidenceLink, item.entityRef.id⟩ := by
  constructor
  · intro hagrees item hitem
    obtain ⟨evaluation, hevaluation, rfl⟩ := @exists_evaluation lc baseDoc currentDoc incomingDoc
      snapshotDoc items selectedIds autoIncludePrerequisites item (List.mem_filter.mp hitem).1
    exact (marked_iff_detected_iff lc hitems hevaluation hitem).mp (hagrees _ hevaluation hitem)
  · intro hlinks evaluation hevaluation hselected
    exact (marked_iff_detected_iff lc hitems hevaluation hselected).mpr (hlinks _ hselected)

end Evaluation

end Preview

/-! ## A link added on both sides -/

namespace PreviewInputs

def emptyDoc : DocumentV1 := .smallest [.smallest "a" "text", .smallest "b" "text"] []

/-- The link as it was added locally. -/
def currentDoc : DocumentV1 :=
  .smallest [.smallest "a" "text", .smallest "b" "text"] [.smallest "l" "b" "a"]

/-- The link as the other document adds it. -/
def incomingDoc : DocumentV1 :=
  .smallest [.smallest "a" "text", .smallest "b" "text"] [.smallest "l" "a" "b"]

def items : List MergeItem := buildMergeItems .codeUnit emptyDoc incomingDoc

/-- The equivalence for the item of the link. -/
theorem link_previewAgrees_iff :
    PreviewAgrees .codeUnit emptyDoc currentDoc incomingDoc emptyDoc items ["evidence.add:l"] true ↔
      ∀ item ∈ selectedForPreview items ["evidence.add:l"] true, item.entityRef.kind = .evidence →
        ¬ThreeWayDifferent .codeUnit emptyDoc currentDoc incomingDoc
          ⟨.evidenceLink, item.entityRef.id⟩ :=
  previewAgrees_iff .codeUnit fun _ hitem => hitem

/-- The operation of the link conflicts, and its item is not marked. -/
theorem link_not_marked :
    (∀ item ∈ items, item ∈ buildMergeItems .codeUnit emptyDoc incomingDoc) ∧
      ¬PreviewAgrees .codeUnit emptyDoc currentDoc incomingDoc emptyDoc items ["evidence.add:l"]
        true := by
  refine ⟨fun _ hitem => hitem, fun hagrees => ?_⟩
  obtain ⟨evaluation, hevaluation, hselected, hstatus, hdetected⟩ :
      ∃ evaluation ∈ (evaluateMergeSelection .codeUnit emptyDoc currentDoc incomingDoc emptyDoc
          items ["evidence.add:l"] true).evaluations,
        evaluation.item ∈ selectedForPreview items ["evidence.add:l"] true ∧
          evaluation.status ≠ .conflict ∧
          ∃ op ∈ buildOpList .codeUnit incomingDoc
              (selectedForPreview items ["evidence.add:l"] true),
            evaluation.item.entityRef.entityKey? = some op.entityKey ∧
              op.id ∈ (detectPatchConflicts .codeUnit emptyDoc currentDoc
                (buildSelectedPatchFromItems .codeUnit emptyDoc incomingDoc
                  (selectedForPreview items ["evidence.add:l"] true))).conflicts.map
                    ConflictItem.opId := by
    decide +kernel
  exact hstatus ((hagrees evaluation hevaluation hselected).mpr hdetected)

end PreviewInputs

end KjAtlas
