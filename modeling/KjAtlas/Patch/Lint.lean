import KjAtlas.Patch.Apply

/-! # Checking a patch against a document

The linter follows the operations on maps from ids to entities and inspects the
maps that result. Unlike the application of a patch, it does not remove the
evidence links of a deleted card.
-/

namespace KjAtlas

open Js

inductive PatchLintSeverity where
  | error
  | warn
  | info
deriving DecidableEq

structure PatchLintIssue where
  severity : PatchLintSeverity
  code : String
  message : String
  opId : Option String := none
  entityKey : Option String := none
  relatedIds : Option (List String) := none

structure EntityMaps where
  cards : InsertionMap String Unit
  islands : InsertionMap String Island
  edges : InsertionMap String Edge
  relationSummaries : InsertionMap String RelationSummary
  evidenceLinks : InsertionMap String EvidenceLink

/-- The maps together with the operations last seen for each entity. -/
structure LintState where
  maps : EntityMaps
  lastOpByEntityKey : InsertionMap String String
  deleteCardOpById : InsertionMap String String
  deleteIslandOpById : InsertionMap String String
  deleteEdgeOpById : InsertionMap String String

def buildCurrentSignature (doc : DocumentV1) : String := doc.id ++ ":" ++ doc.updatedAt

/-! ## Following the operations -/

/-- `new Map(items.map((item) => [key(item), item]))`. -/
def mapBy {α : Type} (key : α → String) (items : List α) : InsertionMap String α :=
  .ofList (items.map fun item => (key item, item))

theorem get?_mapBy {α : Type} (key : α → String) {items : List α}
    (hnodup : (items.map key).Nodup) (id : String) :
    (mapBy key items).get? id = findBy key id items := by
  rw [mapBy, InsertionMap.get?_ofList_map key (fun item => item) hnodup, Option.map_id']

def EntityMaps.ofDocument (doc : DocumentV1) : EntityMaps where
  cards := .ofList (doc.cards.map fun card => (card.id, ()))
  islands := mapBy Island.id doc.islands
  edges := mapBy Edge.id doc.edges
  relationSummaries := mapBy RelationSummary.sourceSignature doc.summaries
  evidenceLinks := mapBy EvidenceLink.id doc.links

/-- The effect of an operation on the maps. -/
def EntityMaps.apply (maps : EntityMaps) (op : PatchOp) : EntityMaps :=
  match op.change with
  | .upsertCard card => { maps with cards := maps.cards.set card.id () }
  | .deleteCard cardId => { maps with cards := maps.cards.delete cardId }
  | .upsertIsland island => { maps with islands := maps.islands.set island.id island }
  | .deleteIsland islandId => { maps with islands := maps.islands.delete islandId }
  | .upsertEdge edge => { maps with edges := maps.edges.set edge.id edge }
  | .deleteEdge edgeId => { maps with edges := maps.edges.delete edgeId }
  | .upsertRelationSummary summary =>
      { maps with relationSummaries := maps.relationSummaries.set summary.sourceSignature summary }
  | .deleteRelationSummary sourceSignature =>
      { maps with relationSummaries := maps.relationSummaries.delete sourceSignature }
  | .upsertEvidenceLink link => { maps with evidenceLinks := maps.evidenceLinks.set link.id link }
  | .deleteEvidenceLink linkId => { maps with evidenceLinks := maps.evidenceLinks.delete linkId }

/-- The body of the loop of `applyPatchToMaps`. -/
def LintState.apply (state : LintState) (op : PatchOp) : LintState :=
  { maps := state.maps.apply op
    lastOpByEntityKey := state.lastOpByEntityKey.set op.entityKey.text op.id
    deleteCardOpById := match op.change with
      | .deleteCard cardId => state.deleteCardOpById.set cardId op.id
      | _ => state.deleteCardOpById
    deleteIslandOpById := match op.change with
      | .deleteIsland islandId => state.deleteIslandOpById.set islandId op.id
      | _ => state.deleteIslandOpById
    deleteEdgeOpById := match op.change with
      | .deleteEdge edgeId => state.deleteEdgeOpById.set edgeId op.id
      | _ => state.deleteEdgeOpById }

def applyPatchToMaps (currentDoc : DocumentV1) (patch : PatchV1) : LintState :=
  patch.ops.foldl LintState.apply ⟨.ofDocument currentDoc, .empty, .empty, .empty, .empty⟩

/-! ## The checks -/

def duplicateOpIdIssues (patch : PatchV1) : List PatchLintIssue :=
  let opIdCounts : InsertionMap String Nat := patch.ops.foldl
    (fun counts op => counts.set op.id ((counts.get? op.id).getD 0 + 1)) .empty
  opIdCounts.entries.filterMap fun (opId, count) =>
    if 1 < count then
      some {
        severity := .error
        code := "P007"
        message := "Duplicate opId detected: " ++ opId
        opId := some opId }
    else none

def findUpsertEntityKey (op : PatchOp) : Option String :=
  match op.change with
  | .upsertCard card => some ("card:" ++ card.id)
  | .upsertIsland island => some ("island:" ++ island.id)
  | .upsertEdge edge => some ("edge:" ++ edge.id)
  | .upsertRelationSummary summary => some ("relSummary:" ++ summary.sourceSignature)
  | .upsertEvidenceLink link => some ("evidenceLink:" ++ link.id)
  | _ => none

/-- P008: an entity that is written more than once. -/
def duplicateUpsertIssues (patch : PatchV1) : List PatchLintIssue :=
  let upsertOpIdsByEntityKey : InsertionMap String (List String) := patch.ops.foldl
    (fun opIds op =>
      match findUpsertEntityKey op with
      | none => opIds
      | some entityKey =>
          opIds.set entityKey ((opIds.get? entityKey).getD [] ++ [op.id])) .empty
  upsertOpIdsByEntityKey.entries.filterMap fun (entityKey, opIds) =>
    if 1 < opIds.length then
      some {
        severity := .warn
        code := "P008"
        message := "Duplicate upserts detected for " ++ entityKey ++ "; later op wins."
        opId := opIds.getLast?
        entityKey := some entityKey
        relatedIds := some opIds }
    else none

/-- P006: the patch was made for another version of the document. -/
def baseSignatureIssues (currentDoc : DocumentV1) (patch : PatchV1) : List PatchLintIssue :=
  match patch.baseDocSignature.join with
  | none => []
  | some signature =>
      if signature ≠ "" ∧ signature ≠ buildCurrentSignature currentDoc then
        [{ severity := .warn
           code := "P006"
           message := "Patch base signature mismatch (patch=" ++ signature ++ ", current=" ++
             buildCurrentSignature currentDoc ++ ")." }]
      else []

section Checks

variable (state : LintState)

/-- P001: an island lists a card that is missing. -/
def islandIssue (island : Island) : Option PatchLintIssue :=
  let missingCardIds := island.cardIds.filter fun cardId => !state.maps.cards.has cardId
  if missingCardIds.isEmpty then none
  else some {
    severity := .error
    code := "P001"
    message := "Island " ++ island.id ++ " references missing card(s): " ++
      ", ".intercalate missingCardIds
    opId := state.lastOpByEntityKey.get? ("island:" ++ island.id)
    entityKey := some ("island:" ++ island.id)
    relatedIds := some missingCardIds }

def endpointMissing (kind : EdgeEndpointKind) (id : String) : Bool :=
  match kind with
  | .card => !state.maps.cards.has id
  | .island => !state.maps.islands.has id

def endpointDeleteOpId (kind : EdgeEndpointKind) (id : String) : Option String :=
  match kind with
  | .card => state.deleteCardOpById.get? id
  | .island => state.deleteIslandOpById.get? id

def edgeIssue (edge : Edge) : Option PatchLintIssue :=
  let fromKind := edge.fromKind.getD .card
  let toKind := edge.toKind.getD .card
  let fromMissing := endpointMissing state fromKind edge.fromId
  let toMissing := endpointMissing state toKind edge.toId
  let missing := (if fromMissing then [edge.fromId] else []) ++
    if toMissing then [edge.toId] else []
  let fromDeleteOpId :=
    if fromMissing then endpointDeleteOpId state fromKind edge.fromId else none
  let missingDeleteOpId :=
    if toMissing ∧ (fromDeleteOpId = none ∨ fromDeleteOpId = some "") then
      endpointDeleteOpId state toKind edge.toId
    else fromDeleteOpId
  if missing.isEmpty then none
  else some {
    severity := .error
    code := "P002"
    message := "Edge " ++ edge.id ++ " references missing endpoint(s): " ++
      ", ".intercalate missing
    opId := missingDeleteOpId.or (state.lastOpByEntityKey.get? ("edge:" ++ edge.id))
    entityKey := some ("edge:" ++ edge.id)
    relatedIds := some missing }

/-- P003: a deleted card is still listed by an island or a relation summary. -/
def deletedCardIssue (op : PatchOp) : Option PatchLintIssue :=
  match op.change with
  | .deleteCard cardId =>
      let referencingIslandIds := (state.maps.islands.values.filter fun island =>
        island.cardIds.contains cardId).map Island.id
      let referencingRelationIds := (state.maps.relationSummaries.values.filter fun summary =>
        summary.groundingCardIds.contains cardId ||
          (summary.historyIds "groundingCardIdsSnapshot").contains cardId).map
            RelationSummary.sourceSignature
      let relatedIds := (referencingIslandIds.map fun id => "island:" ++ id) ++
        referencingRelationIds.map fun id => "relSummary:" ++ id
      if relatedIds.isEmpty then none
      else some {
        severity := .warn
        code := "P003"
        message := "Deleting card " ++ cardId ++ " leaves dangling references."
        opId := some op.id
        entityKey := some ("card:" ++ cardId)
        relatedIds := some relatedIds }
  | _ => none

def evidenceLinkIssue (link : EvidenceLink) : Option PatchLintIssue :=
  let missing := [link.fromCardId, link.toCardId].filter fun cardId =>
    !state.maps.cards.has cardId
  if missing.isEmpty then none
  else some {
    severity := .error
    code := "P009"
    message := "EvidenceLink " ++ link.id ++ " references missing cardId(s): " ++
      ", ".intercalate missing
    opId := (state.lastOpByEntityKey.get? ("evidenceLink:" ++ link.id)).or
      (state.deleteCardOpById.get? (missing.head?.getD ""))
    entityKey := some ("evidenceLink:" ++ link.id)
    relatedIds := some missing }

def deletedIslandIssue (op : PatchOp) : Option PatchLintIssue :=
  match op.change with
  | .deleteIsland islandId =>
      let referencingEdges := state.maps.edges.values.filter fun edge =>
        (decide (edge.fromKind.getD .card = .island) && decide (edge.fromId = islandId)) ||
          (decide (edge.toKind.getD .card = .island) && decide (edge.toId = islandId))
      if referencingEdges.isEmpty then none
      else some {
        severity := .warn
        code := "P004"
        message := "Deleting island " ++ islandId ++ " is referenced by edge endpoint(s)."
        opId := some op.id
        entityKey := some ("island:" ++ islandId)
        relatedIds := some (referencingEdges.map Edge.id) }
  | _ => none

/-- P005: a relation summary, or its history, is grounded on something missing. -/
def relationSummaryIssue (summary : RelationSummary) : Option PatchLintIssue :=
  let missingCardIds := summary.groundingCardIds.filter fun cardId => !state.maps.cards.has cardId
  let missingEdgeIds := summary.groundingEdgeIds.filter fun edgeId => !state.maps.edges.has edgeId
  let missingHistoryCardIds := (summary.historyIds "groundingCardIdsSnapshot").filter fun cardId =>
    !state.maps.cards.has cardId
  let missingHistoryEdgeIds := (summary.historyIds "groundingEdgeIdsSnapshot").filter fun edgeId =>
    !state.maps.edges.has edgeId
  let relatedIds := missingCardIds ++ missingEdgeIds ++ missingHistoryCardIds ++
    missingHistoryEdgeIds
  if relatedIds.isEmpty then none
  else some {
    severity := .warn
    code := "P005"
    message := "RelationSummary " ++ summary.sourceSignature ++
      " references missing grounding card/edge ids."
    opId := ((state.lastOpByEntityKey.get? ("relSummary:" ++ summary.sourceSignature)).or
      (state.deleteCardOpById.get?
        ((missingCardIds.head?.or missingHistoryCardIds.head?).getD ""))).or
      (state.deleteEdgeOpById.get?
        ((missingEdgeIds.head?.or missingHistoryEdgeIds.head?).getD ""))
    entityKey := some ("relSummary:" ++ summary.sourceSignature)
    relatedIds := some relatedIds }

end Checks

/-- The issues of `lintPatchAgainstCurrentDoc`, in the order they are reported. -/
def lintPatchAgainstCurrentDoc (currentDoc : DocumentV1) (patch : PatchV1) : List PatchLintIssue :=
  let state := applyPatchToMaps currentDoc patch
  duplicateOpIdIssues patch ++
    duplicateUpsertIssues patch ++
    baseSignatureIssues currentDoc patch ++
    state.maps.islands.values.filterMap (islandIssue state) ++
    state.maps.edges.values.filterMap (edgeIssue state) ++
    patch.ops.filterMap (deletedCardIssue state) ++
    state.maps.evidenceLinks.values.filterMap (evidenceLinkIssue state) ++
    patch.ops.filterMap (deletedIslandIssue state) ++
    state.maps.relationSummaries.values.filterMap (relationSummaryIssue state)

/-- `shouldBlockPatchApplyByLint`: whether an issue is an error. -/
def shouldBlockPatchApplyByLint (issues : List PatchLintIssue) : Bool :=
  issues.any fun issue => decide (issue.severity = .error)

end KjAtlas
