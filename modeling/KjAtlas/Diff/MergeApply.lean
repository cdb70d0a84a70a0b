import KjAtlas.Diff.Items
import KjAtlas.Import.Validation

/-! # Merging selected items

Selected items become a patch, after the items that they depend on are added.
A merge transaction checks the patch against the base document and the current
one, applies it, and checks the document that results.
-/

namespace KjAtlas

open Js

def MERGE_SELECTED_ITEMS_SOFT_LIMIT : Nat := 200

def MERGE_SELECTED_ITEMS_HARD_LIMIT : Nat := 1000

structure MergeDiagnostic where
  code : String
  message : Message

def comparisonKey (name : String) : String := "app.status.comparison." ++ name

/-! ## Automatic prerequisites -/

def makeSyntheticItem (kind : MergeItemKind) (id : String) : MergeItem where
  id := "auto:" ++ kind.text ++ ":" ++ id
  kind
  entityRef := ⟨if kind = .cardAdd then .card else .evidence, id⟩
  prerequisites := []

/-- What the loop over the selected items carries along. -/
structure AutoSelection where
  selectedMap : InsertionMap String MergeItem
  selectedRefKeys : List String
  warnings : List MergeDiagnostic
  errors : List MergeDiagnostic

namespace AutoSelection

def fail (selection : AutoSelection) (error : MergeDiagnostic) : AutoSelection :=
  { selection with errors := selection.errors ++ [error] }

def autoInclude (selection : AutoSelection) (synthetic : MergeItem) (warning : MergeDiagnostic) :
    AutoSelection :=
  if selection.selectedMap.has synthetic.id then selection
  else { selection with
    selectedMap := selection.selectedMap.set synthetic.id synthetic
    selectedRefKeys := selection.selectedRefKeys ++ [toRefKey synthetic.entityRef]
    warnings := selection.warnings ++ [warning] }

/-- The card of an evidence link that is added. -/
def requireCard (baseDoc incomingDoc : DocumentV1) (item : MergeItem) (selection : AutoSelection)
    (cardId : String) : AutoSelection :=
  if selection.selectedRefKeys.contains ("card:" ++ cardId) ||
      baseDoc.cards.any (fun card => decide (card.id = cardId)) then selection
  else
    match findBy Card.id cardId incomingDoc.cards with
    | none => selection.fail {
        code := "M002"
        message := .translated (comparisonKey "merge_error.evidence_add_missing_card")
          [("id", .text item.entityRef.id), ("cardId", .text cardId)] }
    | some _ => selection.autoInclude (makeSyntheticItem .cardAdd cardId) {
        code := "M101"
        message := .translated
          (comparisonKey "merge_warning.auto_included_card_for_evidence_add")
          [("cardId", .text cardId), ("id", .text item.entityRef.id)] }

def requireRemoval (incomingDoc : DocumentV1) (item : MergeItem) (selection : AutoSelection)
    (link : EvidenceLink) : AutoSelection :=
  if selection.selectedRefKeys.contains ("evidence:" ++ link.id) then selection
  else if incomingDoc.links.any (fun incomingLink => decide (incomingLink.id = link.id)) then
    selection.fail {
      code := "M003"
      message := .translated (comparisonKey "merge_error.card_remove_missing_evidence_remove")
        [("id", .text item.entityRef.id), ("linkId", .text link.id)] }
  else selection.autoInclude (makeSyntheticItem .evidenceRemove link.id) {
    code := "M102"
    message := .translated
      (comparisonKey "merge_warning.auto_included_evidence_remove_for_card_remove")
      [("linkId", .text link.id), ("id", .text item.entityRef.id)] }

def visit (baseDoc incomingDoc : DocumentV1) (selection : AutoSelection) (item : MergeItem) :
    AutoSelection :=
  match item.kind with
  | .evidenceAdd =>
      match findBy EvidenceLink.id item.entityRef.id incomingDoc.links with
      | none => selection.fail {
          code := "M001"
          message := .translated (comparisonKey "merge_error.evidence_add_missing_incoming")
            [("id", .text item.entityRef.id)] }
      | some link =>
          [link.fromCardId, link.toCardId].foldl (requireCard baseDoc incomingDoc item) selection
  | .cardRemove =>
      (baseDoc.links.filter fun link => link.touches item.entityRef.id).foldl
        (requireRemoval incomingDoc item) selection
  | _ => selection

end AutoSelection

def selectWithAutoPrerequisites (baseDoc incomingDoc : DocumentV1)
    (selectedItems : List MergeItem) : AutoSelection :=
  selectedItems.foldl (AutoSelection.visit baseDoc incomingDoc) {
    selectedMap := mapBy MergeItem.id selectedItems
    selectedRefKeys := selectedItems.map fun item => toRefKey item.entityRef
    warnings := []
    errors := [] }

/-! ## The patch of the selected items -/

def EntityKind.upsertItemKinds : EntityKind → List MergeItemKind
  | .card => [.cardAdd, .cardField]
  | .island => [.islandAdd, .islandField]
  | .edge => [.edgeAdd]
  | .evidenceLink => [.evidenceAdd]
  | .relSummary => [.relationSummaryField]

def EntityKind.deleteItemKinds : EntityKind → List MergeItemKind
  | .card => [.cardRemove]
  | .island => [.islandRemove]
  | .edge => [.edgeRemove]
  | .evidenceLink => [.evidenceRemove]
  | .relSummary => [.relationSummaryField]

def selectedIds (selectedItems : List MergeItem) (kinds : List MergeItemKind) : List String :=
  distinct ((selectedItems.filter fun item => kinds.contains item.kind).map fun item =>
    item.entityRef.id)

/-- Whether the items of a relation summary write it. The items for its
fields, its addition and its removal are all of one kind. -/
def existsIncoming (incomingDoc : DocumentV1) (sourceSignature : String) : Bool :=
  incomingDoc.summaries.any fun summary => decide (summary.sourceSignature = sourceSignature)

def selectedUpserts (incomingDoc : DocumentV1) (selectedItems : List MergeItem)
    (kind : EntityKind) : List String :=
  let ids := selectedIds selectedItems kind.upsertItemKinds
  if kind = .relSummary then ids.filter (existsIncoming incomingDoc) else ids

def selectedDeletes (incomingDoc : DocumentV1) (selectedItems : List MergeItem)
    (kind : EntityKind) : List String :=
  let ids := selectedIds selectedItems kind.deleteItemKinds
  if kind = .relSummary then ids.filter fun id => !existsIncoming incomingDoc id else ids

def upsertChange (incomingDoc : DocumentV1) (kind : EntityKind) (id : String) :
    Option PatchChange :=
  match kind with
  | .card => (findBy Card.id id incomingDoc.cards).map .upsertCard
  | .island => (findBy Island.id id incomingDoc.islands).map .upsertIsland
  | .edge => (findBy Edge.id id incomingDoc.edges).map .upsertEdge
  | .evidenceLink => (findBy EvidenceLink.id id incomingDoc.links).map .upsertEvidenceLink
  | .relSummary =>
      (findBy RelationSummary.sourceSignature id incomingDoc.summaries).map .upsertRelationSummary

def deleteChange (kind : EntityKind) (id : String) : PatchChange :=
  match kind with
  | .card => .deleteCard id
  | .island => .deleteIsland id
  | .edge => .deleteEdge id
  | .evidenceLink => .deleteEvidenceLink id
  | .relSummary => .deleteRelationSummary id

def EntityKind.upsertOpKind : EntityKind → PatchOpKind
  | .card => .upsertCard
  | .island => .upsertIsland
  | .edge => .upsertEdge
  | .evidenceLink => .upsertEvidenceLink
  | .relSummary => .upsertRelationSummary

def EntityKind.deleteOpKind : EntityKind → PatchOpKind
  | .card => .deleteCard
  | .island => .deleteIsland
  | .edge => .deleteEdge
  | .evidenceLink => .deleteEvidenceLink
  | .relSummary => .deleteRelationSummary

def mergeOpId (kind : PatchOpKind) (id : String) : String := "merge:" ++ kind.text ++ ":" ++ id

section Merge

variable (lc : Collation)

/-- The two loops of `buildOpList` over the selected entities of a kind. -/
def entityOps (incomingDoc : DocumentV1) (selectedItems : List MergeItem) (kind : EntityKind) :
    List PatchOp :=
  ((sortOn lc.le id (selectedUpserts incomingDoc selectedItems kind)).filterMap fun id =>
    (upsertChange incomingDoc kind id).map fun change =>
      ⟨mergeOpId kind.upsertOpKind id, change⟩) ++
  (sortOn lc.le id (selectedDeletes incomingDoc selectedItems kind)).map fun id =>
    ⟨mergeOpId kind.deleteOpKind id, deleteChange kind id⟩

def buildOpList (incomingDoc : DocumentV1) (selectedItems : List MergeItem) : List PatchOp :=
  sortOn lc.le PatchOp.id
    ([EntityKind.card, .island, .edge, .evidenceLink, .relSummary].flatMap
      (entityOps lc incomingDoc selectedItems))

def buildSelectedPatchFromItems (baseDoc incomingDoc : DocumentV1)
    (selectedItems : List MergeItem) : PatchV1 :=
  { PatchV1.ofOps (buildOpList lc incomingDoc selectedItems) with
    baseDocSignature := some (some (baseDoc.id ++ ":" ++ baseDoc.updatedAt)) }

structure MergePreflight where
  patchOrPlan : PatchV1
  warnings : List MergeDiagnostic
  selectedItems : List MergeItem

def schemaErrors (label : String) (doc : DocumentV1) : List MergeDiagnostic :=
  (validateDocument doc.toJs .error).map fun error => {
    code := "SCHEMA:" ++ label
    message := .labelled ("[" ++ error.code ++ "] " ++ error.path ++ ": ") error.message }

def lintErrors (mark : String) (issues : List PatchLintIssue) : List MergeDiagnostic :=
  (issues.filter fun issue => decide (issue.severity = .error)).map fun issue =>
    ⟨mark ++ issue.code, .raw issue.message⟩

def preflightMerge (baseDoc : DocumentV1) (selectedItems : List MergeItem)
    (incomingDoc : DocumentV1) : Except (List MergeDiagnostic) MergePreflight :=
  let count := selectedItems.length
  let errors := schemaErrors "base" baseDoc ++ schemaErrors "incoming" incomingDoc ++
    if MERGE_SELECTED_ITEMS_HARD_LIMIT < count then [{
      code := "M004"
      message := .translated (comparisonKey "merge_error.selection_exceeds_hard_limit")
        [("count", .number count), ("limit", .number MERGE_SELECTED_ITEMS_HARD_LIMIT)] }]
    else []
  if errors ≠ [] then .error errors
  else
    let prereqPlan := selectWithAutoPrerequisites baseDoc incomingDoc selectedItems
    if prereqPlan.errors ≠ [] then .error prereqPlan.errors
    else
      let planned := prereqPlan.selectedMap.values
      let patch := buildSelectedPatchFromItems lc baseDoc incomingDoc planned
      let lint := lintPatchAgainstCurrentDoc baseDoc patch
      if lintErrors "" lint ≠ [] then .error (lintErrors "" lint)
      else .ok {
        patchOrPlan := patch
        warnings := prereqPlan.warnings ++
          ((lint.filter fun issue => !decide (issue.severity = .error)).map fun issue =>
            ⟨issue.code, .raw issue.message⟩) ++
          if MERGE_SELECTED_ITEMS_SOFT_LIMIT < count then [{
            code := "M103"
            message := .translated (comparisonKey "merge_warning.large_selection")
              [("count", .number count)] }]
          else []
        selectedItems := planned }

/-- `translateConflictReason(reason)`. -/
def translateConflictReason (reason : String) : MessageArg :=
  let conflictReasonKeys := [
    ("both modified", comparisonKey "conflict_reason.both_modified"),
    ("delete vs update", comparisonKey "conflict_reason.delete_vs_update"),
    ("update vs delete", comparisonKey "conflict_reason.update_vs_delete")]
  match conflictReasonKeys.lookup reason with
  | some key => .translated key
  | none => .text reason

structure MergeTransaction where
  document : DocumentV1
  warnings : List MergeDiagnostic

/-- The merged document: the patch applied, and the reading order taken from
the other side when its item is selected. -/
def mergedDocument (currentDoc incomingDoc : DocumentV1) (preflight : MergePreflight) :
    DocumentV1 :=
  let applied := applyPatchWithResolutionsDetailed lc currentDoc preflight.patchOrPlan
    (fun _ => none) none (some (preflight.patchOrPlan.ops.map PatchOp.id))
  { applied.document with
    readingOrder :=
      if preflight.selectedItems.any fun item =>
          decide (item.kind = .viewField) && decide (item.field = some "readingOrder") then
        some (incomingDoc.readingOrder.getD [])
      else applied.document.readingOrder }

def applyMergeTransaction (currentDoc snapshotDoc baseDoc incomingDoc : DocumentV1)
    (selectedItems : List MergeItem) (allowWarnings : Bool) :
    Except (List MergeDiagnostic) MergeTransaction :=
  match preflightMerge lc baseDoc selectedItems incomingDoc with
  | .error errors => .error errors
  | .ok preflight =>
      if preflight.warnings ≠ [] ∧ allowWarnings = false then
        .error (⟨"M105", .translated (comparisonKey "merge_error.warnings_require_confirmation")
          []⟩ :: preflight.warnings)
      else
        let conflicts := detectPatchConflicts lc snapshotDoc currentDoc preflight.patchOrPlan
        if conflicts.conflicts ≠ [] then
          .error (conflicts.conflicts.map fun conflict => {
            code := "M006"
            message := .translated (comparisonKey "merge_error.conflict")
              [("entityKey", .text conflict.entityKey),
                ("reason", translateConflictReason conflict.reason)] })
        else
          let currentLint := lintPatchAgainstCurrentDoc currentDoc preflight.patchOrPlan
          if lintErrors "CUR:" currentLint ≠ [] then .error (lintErrors "CUR:" currentLint)
          else
            let nextDoc := mergedDocument lc currentDoc incomingDoc preflight
            let postErrors := validateDocument nextDoc.toJs .error
            if postErrors ≠ [] then
              .error (postErrors.map fun error =>
                ⟨"POST:" ++ error.code, .labelled (error.path ++ ": ") error.message⟩)
            else .ok ⟨nextDoc, preflight.warnings⟩

end Merge

end KjAtlas
