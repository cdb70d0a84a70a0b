import KjAtlas.Domain.Types

/-! # Patches

A patch is a sequence of operations, each of which writes or deletes one
entity, inside an envelope of optional texts.
-/

namespace KjAtlas

open Js

inductive PatchOpKind where
  | upsertCard
  | deleteCard
  | upsertIsland
  | deleteIsland
  | upsertEdge
  | deleteEdge
  | upsertRelationSummary
  | deleteRelationSummary
  | upsertEvidenceLink
  | deleteEvidenceLink
deriving DecidableEq

def PatchOpKind.text : PatchOpKind → String
  | .upsertCard => "upsert_card"
  | .deleteCard => "delete_card"
  | .upsertIsland => "upsert_island"
  | .deleteIsland => "delete_island"
  | .upsertEdge => "upsert_edge"
  | .deleteEdge => "delete_edge"
  | .upsertRelationSummary => "upsert_relation_summary"
  | .deleteRelationSummary => "delete_relation_summary"
  | .upsertEvidenceLink => "upsert_evidence_link"
  | .deleteEvidenceLink => "delete_evidence_link"

theorem PatchOpKind.text_injective {kind kind' : PatchOpKind} (htext : kind.text = kind'.text) :
    kind = kind' := by
  revert htext
  cases kind <;> cases kind' <;> decide

/-- What an operation does. -/
inductive PatchChange where
  | upsertCard (card : Card)
  | deleteCard (cardId : String)
  | upsertIsland (island : Island)
  | deleteIsland (islandId : String)
  | upsertEdge (edge : Edge)
  | deleteEdge (edgeId : String)
  | upsertRelationSummary (relationSummary : RelationSummary)
  | deleteRelationSummary (sourceSignature : String)
  | upsertEvidenceLink (evidenceLink : EvidenceLink)
  | deleteEvidenceLink (evidenceLinkId : String)

structure PatchOp where
  id : String
  change : PatchChange

namespace PatchOp

def kind (op : PatchOp) : PatchOpKind :=
  match op.change with
  | .upsertCard _ => .upsertCard
  | .deleteCard _ => .deleteCard
  | .upsertIsland _ => .upsertIsland
  | .deleteIsland _ => .deleteIsland
  | .upsertEdge _ => .upsertEdge
  | .deleteEdge _ => .deleteEdge
  | .upsertRelationSummary _ => .upsertRelationSummary
  | .deleteRelationSummary _ => .deleteRelationSummary
  | .upsertEvidenceLink _ => .upsertEvidenceLink
  | .deleteEvidenceLink _ => .deleteEvidenceLink

/-- The entity an operation is about. -/
def entityKey (op : PatchOp) : EntityKey :=
  match op.change with
  | .upsertCard card => ⟨.card, card.id⟩
  | .deleteCard cardId => ⟨.card, cardId⟩
  | .upsertIsland island => ⟨.island, island.id⟩
  | .deleteIsland islandId => ⟨.island, islandId⟩
  | .upsertEdge edge => ⟨.edge, edge.id⟩
  | .deleteEdge edgeId => ⟨.edge, edgeId⟩
  | .upsertRelationSummary summary => ⟨.relSummary, summary.sourceSignature⟩
  | .deleteRelationSummary sourceSignature => ⟨.relSummary, sourceSignature⟩
  | .upsertEvidenceLink link => ⟨.evidenceLink, link.id⟩
  | .deleteEvidenceLink linkId => ⟨.evidenceLink, linkId⟩

/-- `getTheirValue(op)`: what the operation makes of its entity. -/
def theirValue (op : PatchOp) : Option Entity :=
  match op.change with
  | .upsertCard card => some (.card card)
  | .deleteCard _ => none
  | .upsertIsland island => some (.island island)
  | .deleteIsland _ => none
  | .upsertEdge edge => some (.edge edge)
  | .deleteEdge _ => none
  | .upsertRelationSummary summary => some (.relationSummary summary)
  | .deleteRelationSummary _ => none
  | .upsertEvidenceLink link => some (.evidenceLink link)
  | .deleteEvidenceLink _ => none

def deletedCard? (op : PatchOp) : Option String :=
  match op.change with
  | .deleteCard cardId => some cardId
  | _ => none

/-- Whether the operation deletes a card that an entity is a link of. -/
def cascades (op : PatchOp) (entity : Entity) : Bool := op.deletedCard?.any entity.touches

/-- The property that holds the payload of an operation, and the payload. -/
def payload (op : PatchOp) : String × JsValue :=
  match op.change with
  | .upsertCard card => ("card", .object card.props)
  | .deleteCard cardId => ("cardId", .string cardId)
  | .upsertIsland island => ("island", .object island.props)
  | .deleteIsland islandId => ("islandId", .string islandId)
  | .upsertEdge edge => ("edge", .object edge.props)
  | .deleteEdge edgeId => ("edgeId", .string edgeId)
  | .upsertRelationSummary summary => ("relationSummary", .object summary.props)
  | .deleteRelationSummary sourceSignature => ("sourceSignature", .string sourceSignature)
  | .upsertEvidenceLink link => ("evidenceLink", .object link.props)
  | .deleteEvidenceLink linkId => ("evidenceLinkId", .string linkId)

/-- The operation as a value of the program. -/
def toJs (op : PatchOp) : JsValue :=
  .object [("id", some (.string op.id)), ("kind", some (.string op.kind.text)),
    (op.payload.1, some op.payload.2)]

/-- The operation after a JSON round trip of its patch. -/
def json (op : PatchOp) : PatchOp where
  id := op.id
  change := match op.change with
    | .upsertCard card => .upsertCard card.json
    | .upsertIsland island => .upsertIsland island.json
    | .upsertEdge edge => .upsertEdge edge.json
    | .upsertRelationSummary summary => .upsertRelationSummary summary.json
    | .upsertEvidenceLink link => .upsertEvidenceLink link.json
    | change => change

@[simp] theorem entityKey_json (op : PatchOp) : op.json.entityKey = op.entityKey := by
  obtain ⟨id, change⟩ := op
  cases change <;> rfl

@[simp] theorem theirValue_json (op : PatchOp) :
    op.json.theirValue = op.theirValue.map Entity.json := by
  obtain ⟨id, change⟩ := op
  cases change <;> rfl

theorem key_of_theirValue {op : PatchOp} {entity : Entity}
    (htheir : op.theirValue = some entity) : entity.key = op.entityKey := by
  obtain ⟨id, change⟩ := op
  cases change <;> simp only [theirValue, Option.some.injEq, reduceCtorEq] at htheir <;>
    (subst htheir; rfl)

theorem nodup_toJs (op : PatchOp) : (Props.names [("id", some (.string op.id)),
    ("kind", some (.string op.kind.text)), (op.payload.1, some op.payload.2)]).Nodup := by
  obtain ⟨id, change⟩ := op
  cases change <;> simp [Props.names, payload]

end PatchOp

/-- An optional text of the envelope: absent, present and equal to
`undefined`, or present with a text. -/
abbrev OptionalText := Option (Option String)

/-- A patch document. -/
structure PatchV1 where
  baseDocSignature : OptionalText
  author : OptionalText
  authorNote : OptionalText
  sourceApp : OptionalText
  patchFingerprint : OptionalText
  patchId : OptionalText
  ops : List PatchOp

/-- A patch after `JSON.parse(JSON.stringify(patch))`. -/
def PatchV1.json (patch : PatchV1) : PatchV1 where
  baseDocSignature := patch.baseDocSignature.filter Option.isSome
  author := patch.author.filter Option.isSome
  authorNote := patch.authorNote.filter Option.isSome
  sourceApp := patch.sourceApp.filter Option.isSome
  patchFingerprint := patch.patchFingerprint.filter Option.isSome
  patchId := patch.patchId.filter Option.isSome
  ops := patch.ops.map PatchOp.json

/-- A patch with no texts in its envelope. -/
def PatchV1.ofOps (ops : List PatchOp) : PatchV1 := ⟨none, none, none, none, none, none, ops⟩

end KjAtlas
