import KjAtlas.Ai.Layout

/-! # Narratives

A model writes a narrative along the reading order, or checks one against the
document. The texts of cards stand in both prompts as they are in the document.
-/

namespace KjAtlas.Ai

variable {F : Type} (server : Server F)

def readingOrderLine (doc : DocumentV1 F) (withTexts : Bool) (index : Nat) (id : String) : Line :=
  let place := "- " ++ toString index ++ ". "
  match doc.island? id, doc.card? id with
  | some island, _ =>
      .plain (place ++ "island id=\"" ++ island.id ++ "\", title=" ++ dumpsOrEmpty island.title ++
        ", cardIds=" ++ dumpsTexts island.cardIds) ::
      (if withTexts then
        .plain ", cardTexts=" :: cardTextsJson ((doc.members island).map fun card => card.text)
      else [])
  | none, some card =>
      [.plain (place ++ "card id=\"" ++ card.id ++ "\", text="), .cardJson card.text]
  | none, none => [.plain (place ++ "unknown id=\"" ++ id ++ "\"")]

def readingOrderLines (doc : DocumentV1 F) (withTexts : Bool) (order : List String) : Prompt :=
  order.mapIdx fun index id => readingOrderLine doc withTexts (index + 1) id

/-! ## Generation -/

structure GenerateNarrativeRequest (F : Type) where
  doc : DocumentV1 F
  narrativeTitle : Option String
  allowUnreviewedText : Option Bool
  model : Option String

structure GenerateNarrativeResponse where
  text : String
  basedOnReadingOrder : List String
  warnings : Option (List String)

def spineTypes : List String := ["causal", "negate"]

def spineRelations (source : Ir.IRSource F) : List SourceRelation :=
  let cardIds := source.cards.map Ir.SourceCard.id
  source.relations.filter fun relation =>
    spineTypes.contains relation.type && decide (relation.fromKind ≠ some .island) &&
      decide (relation.toKind ≠ some .island) && cardIds.contains relation.fromId &&
        cardIds.contains relation.toId

/-- `_narrative_required_card_ids`. -/
def narrativeRequiredCardIds (source : Ir.IRSource F) : List String :=
  sortedIds ((spineRelations source).flatMap fun relation => [relation.fromId, relation.toId])

/-- `_narrative_required_relation_ids`. -/
def narrativeRequiredRelationIds (source : Ir.IRSource F) : List String :=
  sortedIds ((spineRelations source).map fun relation =>
    relationId relation.type relation.fromId relation.toId)

/-- `_generate_narrative_ir`. -/
def generateNarrativeIr (payload : GenerateNarrativeRequest F) : Except Raised (Ir.LlmInputIr F) :=
  let source := payload.doc.source
  (Ir.buildLlmInputIr server.runtime
    { irOptions server payload.allowUnreviewedText with
      requiredCardIds := narrativeRequiredCardIds source
      requiredRelationIds := narrativeRequiredRelationIds source } source).mapError irError

/-- `_reading_order_slots`: the first place of every card. -/
def readingOrderSlots (doc : DocumentV1 F) : List (String × Nat) :=
  ((doc.readingOrder.getD []).mapIdx fun index id =>
    (((doc.island? id).map fun island => island.cardIds).getD [id]).map (·, index + 1)).flatten

/-- Where a relation stands in the reading order. -/
def spinePlace (fromSlot toSlot : Option Nat) : String :=
  match fromSlot, toSlot with
  | some first, some second =>
      if first = second then "within reading-order " ++ toString first
      else "reading-order " ++ toString first ++ " -> reading-order " ++ toString second
  | none, none => "outside the reading order"
  | some known, none => "reading-order " ++ toString known ++ " <-> outside the reading order"
  | none, some known => "reading-order " ++ toString known ++ " <-> outside the reading order"

/-- `_narrative_spine_lines`. -/
def narrativeSpineLines (doc : DocumentV1 F) (ir : Ir.LlmInputIr F) : List String :=
  let slots := readingOrderSlots doc
  (ir.relations.filter fun relation => spineTypes.contains relation.type).map fun relation =>
    "- " ++ spinePlace (slots.lookup relation.fromId) (slots.lookup relation.toId) ++ ": " ++
      typedRelationLine relation

/-- `_narrative_relation_lines`. -/
def narrativeRelationLines (doc : DocumentV1 F) (ir : Ir.LlmInputIr F) : List String :=
  (islandEdges doc).map islandEdgeLine ++ ir.relations.map typedRelationLine ++
    ir.evidenceLinks.map typedEvidenceLine

def narrativeHeader : List String :=
  ["You generate a narrative draft from diagram reading order.",
    "This is advisory only. Do not claim facts, truth, or certainty.",
    "Every statement must be phrased as interpretation or possibility based on the diagram.",
    "Use reading order as the narrative spine. Follow the order exactly.",
    "For each reading-order item, describe what it appears to contain and what it might mean.",
    "Explicitly label the output as draft and unreviewed.",
    "Use the typed relations below as the logical skeleton (causal, negation, evidence).",
    "Logical relations:"]

def narrativeRules : List String :=
  ["Self-perform the A/B cross-check (sensemaking_technique.md §5) and report each mismatch as " ++
      "a warning:",
    "  - 'b_missing_in_a': a statement in the narrative with no counterpart in the diagram.",
    "  - 'a_missing_in_b': a diagram island that the narrative never mentions.",
    "Return strict JSON only. No markdown. No extra keys.",
    "Use this exact schema:",
    "\x7b\"text\":string,\"basedOnReadingOrder\":[string,...],\"warnings\":[string,...]?\x7d",
    "basedOnReadingOrder must include only IDs from the provided reading order and preserve that " ++
      "order."]

/-- `_build_generate_narrative_prompt`. -/
def buildGenerateNarrativePrompt (payload : GenerateNarrativeRequest F) (ir : Ir.LlmInputIr F) :
    Prompt :=
  let title := instructionText payload.narrativeTitle "Untitled draft narrative"
  let order := readingOrderLines payload.doc true (payload.doc.readingOrder.getD [])
  plainLines (narrativeHeader ++
    orNone "- (none)" (narrativeRelationLines payload.doc ir) ++
    headed ("Causal and oppositional structure placed on the reading order " ++
        "(use these as the narrative's joints; do not invent relations that are not listed):")
      (narrativeSpineLines payload.doc ir) ++
    (if ir.truncation.truncated then
      ["Note: the projection hit its size limit (" ++ reasonsText ir.truncation ++
        "); some cards and relations of the document are not listed above."]
    else []) ++ narrativeRules ++
    ["Narrative title hint: " ++ dumpsText title, "Reading order:"]) ++
  if order = [] then [plainLine "- (empty)"] else order

/-- `GenerateNarrativeResponse.model_validate`. -/
def generateNarrativeResponseOf (members : List (Py.Str × Py.Value F)) :
    Option GenerateNarrativeResponse := do
  knownFields ["text", "basedOnReadingOrder", "warnings"] members
  let text ← required textOf members "text"
  let basedOnReadingOrder ← required (listOf textOf) members "basedOnReadingOrder"
  let warnings ← optional (listOf textOf) members "warnings"
  return ⟨text, basedOnReadingOrder, warnings⟩

/-- `_parse_generate_narrative_response`. -/
def parseGenerateNarrativeResponse (rawText : Py.Str) (doc : DocumentV1 F) :
    Except Raised GenerateNarrativeResponse := do
  let members ← loadsObject server rawText
  let response ← found (invalid "Invalid generate narrative response payload")
    (generateNarrativeResponseOf members)
  ensure (stripText response.text ≠ "") (invalid "Generated narrative text must not be empty")
  let readingOrder := doc.readingOrder.getD []
  ensure (∀ id ∈ response.basedOnReadingOrder, id ∈ readingOrder)
    (invalid "LLM response included unknown reading-order id")
  ensure (response.basedOnReadingOrder = readingOrder)
    (invalid "LLM response basedOnReadingOrder must match source reading order exactly")
  return response

/-- The prompt, after the checks of the document. -/
def prepareGenerateNarrative (payload : GenerateNarrativeRequest F) : Except Raised Prompt := do
  rejectUnreviewedDocument server payload.doc payload.allowUnreviewedText
  let ir ← generateNarrativeIr server payload
  return buildGenerateNarrativePrompt payload ir

/-- `generate_narrative`. -/
def generateNarrative (payload : GenerateNarrativeRequest F) : Route GenerateNarrativeResponse := do
  let prompt ← prepareGenerateNarrative server payload
  let response ← generateChecked server (requestedModel server payload.model "generate_narrative")
    { task := "generate_narrative", prompt }
  let _ ← server.tenant
  parseGenerateNarrativeResponse server response.rawText payload.doc

/-! ## Checks -/

structure CheckNarrativeRequest (F : Type) where
  doc : DocumentV1 F
  narrativeText : String
  basedOnReadingOrder : Option (List String)
  externalProposalRef : Option ExternalProposalReference
  allowUnreviewedText : Option Bool

inductive IssueSeverity where
  | info
  | warn
  | error

inductive ReferenceKind where
  | card
  | island
deriving DecidableEq

inductive IssueDirection where
  | bMissingInA
  | aMissingInB

structure NarrativeIssueReference where
  id : String
  kind : ReferenceKind

structure NarrativeIssue where
  severity : IssueSeverity
  message : String
  references : Option (List NarrativeIssueReference)
  direction : Option IssueDirection

structure NarrativeCheckCounts where
  bMissingInA : Nat
  aMissingInB : Nat

structure CheckNarrativeResponse where
  issues : List NarrativeIssue
  counts : Option NarrativeCheckCounts

/-- `_resolve_reading_order`. -/
def resolveReadingOrder (payload : CheckNarrativeRequest F) : List String :=
  (payload.basedOnReadingOrder.or payload.doc.readingOrder).getD []

/-- `_validate_check_narrative_input`. -/
def validateCheckNarrativeInput (payload : CheckNarrativeRequest F) : Except Raised Unit := do
  ensure (stripText payload.narrativeText ≠ "") (invalid "narrativeText must not be empty")
  ensure (∀ order ∈ payload.basedOnReadingOrder, ∀ id ∈ order,
      id ∈ payload.doc.cardIds ∨ id ∈ payload.doc.islandIds)
    (invalid "basedOnReadingOrder included unknown id")

def narrativeCheckRules : List String :=
  ["You are performing a best-effort narrative consistency check against a diagram.",
    "Output is advisory only. Never claim certainty or correctness.",
    "Return strict JSON only. No markdown. No text outside JSON.",
    "Identify missing key islands/cards based on reading order.",
    "Identify contradictions such as reading-order mismatch or narrative claims not supported by " ++
      "any card text.",
    "Identify ambiguous transitions, e.g. pronouns like it/they/this/that without a clear " ++
      "referent.",
    "Perform the A/B cross-check in both directions (sensemaking_technique.md §5):",
    "  - direction \"b_missing_in_a\": narrative claims that have no counterpart in the diagram " ++
      "(either remove the claim or add it to the diagram).",
    "  - direction \"a_missing_in_b\": diagram islands that the narrative never mentions (ask why " ++
      "they cannot be told).",
    "Use the Relations section as the diagram's relation graph: flag any explicit logical " ++
      "connection (causal, negate, mutual, equivalence, etc.) the narrative asserts between two " ++
      "elements but the relation graph never draws, as a b_missing_in_a issue.",
    "Every A/B mismatch issue must set its \"direction\" to one of the two values.",
    "Report \"counts\" with the number of issues per direction (0 is a valid value; a 0/0 means " ++
      "the cross-check did not actually run).",
    "If there are no issues at all, return \x7b\"issues\":[],\"counts\":\x7b\"bMissingInA\":0," ++
      "\"aMissingInB\":0\x7d\x7d.",
    "Use this exact schema:",
    "\x7b\"issues\":[\x7b\"severity\":\"info|warn|error\",\"message\":string,\"references\":[\x7b" ++
      "\"id\":string,\"kind\":\"card|island\"\x7d]?,\"direction\":\"b_missing_in_a|" ++
      "a_missing_in_b\"?\x7d],\"counts\":\x7b\"bMissingInA\":number,\"aMissingInB\":number\x7d?\x7d",
    "Only include references that exist in the input diagram.",
    "Narrative text:"]

def checkedIslandLine (doc : DocumentV1 F) (island : Island) : Line :=
  .plain ("- id=\"" ++ island.id ++ "\", title=" ++ dumpsOrEmpty island.title ++ ", cardIds=" ++
    dumpsTexts island.cardIds ++ ", cardTexts=") ::
  cardTextsJson ((doc.members island).map fun card => card.text)

def endpointKindText (kind : Option EdgeEndpointKind) : String :=
  if kind = some .island then "island" else "card"

def checkedRelationLine (edge : Edge) : String :=
  "- id=\"" ++ edge.edgeId ++ "\", type=\"" ++ edge.type ++ "\", fromKind=\"" ++
    endpointKindText edge.fromKind ++ "\", fromId=\"" ++ edge.fromId ++ "\", toKind=\"" ++
    endpointKindText edge.toKind ++ "\", toId=\"" ++ edge.toId ++ "\""

/-- `_build_narrative_check_prompt`. -/
def buildNarrativeCheckPrompt (payload : CheckNarrativeRequest F) : Prompt :=
  let doc := payload.doc
  plainLines (narrativeCheckRules ++ [payload.narrativeText, "Reading order:"]) ++
  readingOrderLines doc false (resolveReadingOrder payload) ++
  [plainLine "Islands:"] ++ doc.islands.map (checkedIslandLine doc) ++
  [plainLine "Cards:"] ++ doc.cards.map (fun card => cardJsonLine card.id card.text) ++
  plainLines ("Relations:" :: doc.edges.map checkedRelationLine)

def narrativeIssueReferenceOf (value : Py.Value F) : Option NarrativeIssueReference := do
  let members ← objectOf value
  knownFields ["id", "kind"] members
  let id ← required textOf members "id"
  let kind ← required (choiceOf [("card", ReferenceKind.card), ("island", .island)]) members "kind"
  return ⟨id, kind⟩

def narrativeIssueOf (value : Py.Value F) : Option NarrativeIssue := do
  let members ← objectOf value
  knownFields ["severity", "message", "references", "direction"] members
  let severity ← required
    (choiceOf [("info", IssueSeverity.info), ("warn", .warn), ("error", .error)]) members "severity"
  let message ← (required textOf members "message").filter (· ≠ "")
  let references ← optional (listOf narrativeIssueReferenceOf) members "references"
  let direction ← optional (choiceOf [("b_missing_in_a", IssueDirection.bMissingInA),
    ("a_missing_in_b", .aMissingInB)]) members "direction"
  return ⟨severity, message, references, direction⟩

/-- A field of type `int` that must not be negative. -/
def countOf (value : Py.Value F) : Option Nat :=
  (server.intField value).bind fun n => if 0 ≤ n then some n.toNat else none

def narrativeCheckCountsOf (value : Py.Value F) : Option NarrativeCheckCounts := do
  let members ← objectOf value
  let bMissingInA ← required (countOf server) members "bMissingInA"
  let aMissingInB ← required (countOf server) members "aMissingInB"
  return ⟨bMissingInA, aMissingInB⟩

/-- `CheckNarrativeResponse.model_validate`. -/
def checkNarrativeResponseOf (members : List (Py.Str × Py.Value F)) :
    Option CheckNarrativeResponse := do
  knownFields ["issues", "counts"] members
  let issues ← required (listOf narrativeIssueOf) members "issues"
  let counts ← optional (narrativeCheckCountsOf server) members "counts"
  return ⟨issues, counts⟩

def checkReference (doc : DocumentV1 F) (reference : NarrativeIssueReference) :
    Except Raised Unit := do
  ensure (reference.kind = .card → reference.id ∈ doc.cardIds)
    (invalid "LLM response included unknown card reference")
  ensure (reference.kind = .island → reference.id ∈ doc.islandIds)
    (invalid "LLM response included unknown island reference")

/-- `_parse_narrative_check_response`. -/
def parseNarrativeCheckResponse (rawText : Py.Str) (doc : DocumentV1 F) :
    Except Raised CheckNarrativeResponse := do
  let members ← loadsObject server rawText
  let response ← found (invalid "Invalid narrative check response payload")
    (checkNarrativeResponseOf server members)
  response.issues.forM fun issue => (issue.references.getD []).forM (checkReference doc)
  return response

def prepareCheckNarrative (payload : CheckNarrativeRequest F) : Except Raised Prompt := do
  validateCheckNarrativeInput payload
  rejectUnreviewedDocument server payload.doc payload.allowUnreviewedText
  match payload.externalProposalRef with
  | none => return buildNarrativeCheckPrompt payload
  | some ref =>
      server.validateProposal ref payload.doc.id
      return buildNarrativeCheckPrompt payload

/-- `check_narrative`. -/
def checkNarrative (payload : CheckNarrativeRequest F) : Route CheckNarrativeResponse := do
  let prompt ← prepareCheckNarrative server payload
  let response ← finalJudgement server payload.externalProposalRef payload.doc.id
    "check_narrative" prompt
  let _ ← server.tenant
  parseNarrativeCheckResponse server response.rawText payload.doc

end KjAtlas.Ai
