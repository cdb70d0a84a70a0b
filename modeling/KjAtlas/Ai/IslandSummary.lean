import KjAtlas.Ai.Layout
import KjAtlas.Ai.RequiredContext

/-! # Summaries of islands

A model is asked for placards of an island. It sees the cards of the island, and
those next to them by a relation or evidence, which are context only.
-/

namespace KjAtlas.Ai

variable {F : Type} (server : Server F)

structure SuggestIslandSummaryRequest (F : Type) where
  doc : DocumentV1 F
  islandId : String
  allowUnreviewedText : Option Bool
  model : Option String
  critiqueText : Option String

structure IslandSummaryCandidate where
  summaryText : String
  groundingIds : List String

structure SuggestIslandSummaryResponse where
  candidates : List IslandSummaryCandidate
  warnings : Option (List String)

def SuggestIslandSummaryRequest.island (payload : SuggestIslandSummaryRequest F) : Option Island :=
  payload.doc.islands.find? fun island => decide (island.id = payload.islandId)

/-- `_relevant_islands`: the island, and its parent without cards. -/
def relevantIslands (islands : List SourceIsland) (targetIslandId : String) : List SourceIsland :=
  match byId targetIslandId with
  | none => []
  | some target =>
      target :: ((target.parentIslandId.bind byId).map fun parent =>
        { parent with cardIds := [], placardCardId := none }).toList
where
  byId (id : String) : Option SourceIsland := islands.findRev? fun island => decide (island.id = id)

def islandSummaryMessages : ContextMessages where
  text := "Task-required card text exceeded the lossless IR text budget"
  cards := "Task-required card context did not fit in the IR projection"
  relations := "Task-required logical relations did not fit in the IR projection"
  evidence := "Task-required evidence did not fit in the IR projection"

def islandSummarySource (payload : SuggestIslandSummaryRequest F) (context : RequiredContext) :
    Ir.IRSource F :=
  let source := payload.doc.source
  { source with
    cards := source.cards.filter fun card => context.cardIds.contains card.id
    relations := context.relations
    islands := relevantIslands source.islands payload.islandId
    evidenceLinks := context.evidence }

/-- `build_island_summary_ir_context`, for the cards of the island. -/
def buildIslandSummaryIrContext (payload : SuggestIslandSummaryRequest F)
    (memberIds : List String) : Except IRGenerationError (Ir.LlmInputIr F) :=
  let context := contextAround payload.doc.source memberIds
  buildWithContext server payload.allowUnreviewedText islandSummaryMessages context true
    (islandSummarySource payload context)

/-! ## The prompt -/

def objectionTags : List String := ["not_the_same", "feels_off"]

def objectingCards (members : List (Card F)) : List (Card F) :=
  members.filter fun card => objectionTags.any ((card.critiqueTags.getD []).contains ·)

def placardRules : List String :=
  ["You write the placard (表札) for this island as a draft island summary.",
    "Use only the direct member cards provided below. Ignore nested islands for this MVP.",
    "Do not add facts beyond the card texts.",
    "summaryText must be a predicate-bearing advocacy sentence (述語を伴う代弁文), never a " ++
      "classification name (分類名) or noun-phrase stop (名詞止め).",
    "Perform the placard checks before answering:",
    "  1. Transposition: if you placed this placard on a DIFFERENT island, would it still hold? " ++
      "If yes, it is a classification name — fail and rewrite.",
    "  2. Return check: read the placard back to each member card — 'is this what you meant to " ++
      "say?'. If even one card says 'no', rewrite."]

def objectionLines (members : List (Card F)) : Prompt :=
  let objecting := objectingCards members
  if objecting.isEmpty then []
  else
    [plainLine "The following member cards OBJECTED to the previous placard (戻し検査):"] ++
    objecting.map (fun card => .plain "    " :: cardJsonLine card.id card.text) ++
    [plainLine ("The new placard must address why each objecting card disagrees, or the summary " ++
      "is not a true advocacy for the island.")]

def critiqueLines (critiqueText : Option String) : List String :=
  match nonEmpty critiqueText with
  | none => []
  | some critique =>
      ["The user raised this objection (違和感) to the current placard:", "    " ++ critique,
        "Regenerate the candidates so each one ADDRESSES this objection. Do not repeat the " ++
          "placard the user objected to."]

def islandRelationLines (doc : DocumentV1 F) (id : String) : List String :=
  (islandEdges doc).filterMap fun edge =>
    if edge.fromId = id then
      some ("this island --" ++ edge.type ++ "--> island \"" ++ edge.toId ++ "\"")
    else if edge.toId = id then
      some ("island \"" ++ edge.fromId ++ "\" --" ++ edge.type ++ "--> this island")
    else none

def placardAnswerRules : List String :=
  ["If evidence is weak, sparse, or contradictory, include warnings.",
    "Return strict JSON only. No markdown. No extra text.",
    "Use this exact schema:",
    "\x7b\"candidates\":[\x7b\"summaryText\":string,\"groundingIds\":[string,...]\x7d,...]," ++
      "\"warnings\":[string,...]?\x7d",
    "Produce 1-3 distinct placard candidates. Each candidate is a DIFFERENT advocacy (志) for " ++
      "the island, not a paraphrase of the others.",
    "Each candidate's groundingIds must contain 1-10 unique card ids chosen from the input cards.",
    "Prefer the strongest supporting card ids for each candidate.",
    "The first candidate is the primary advocacy and must reflect the island's strongest shared " ++
      "appeal."]

def islandMembers (payload : SuggestIslandSummaryRequest F) :
    Except Raised (Island × List (Card F)) := do
  let island ← found (invalid "islandId does not exist") payload.island
  let members := payload.doc.members island
  ensure (members.isEmpty = false) (invalid "island has no member cards")
  return (island, members)

def projectedText (ir : Ir.LlmInputIr F) (id : String) : Option String :=
  (findBy Ir.IrCard.id id ir.cards).map Ir.IrCard.text

def memberLines (ir : Ir.LlmInputIr F) (members : List (Card F)) : Except Raised Prompt :=
  members.mapM fun card => do
    let text ← found (.http 422 (.coded "required_card_context_mismatch"
      "Task-required card context did not fit in the IR projection")) (projectedText ir card.id)
    return cardJsonLine card.id text

/-- `_build_island_summary_prompt`, with a projection. -/
def buildIslandSummaryPrompt (payload : SuggestIslandSummaryRequest F) (ir : Ir.LlmInputIr F) :
    Except Raised Prompt := do
  let (island, members) ← islandMembers payload
  let cardLines ← memberLines ir members
  return plainLines placardRules ++ objectionLines members ++
    plainLines (critiqueLines payload.critiqueText ++ placardAnswerRules ++
      ["Island id=\"" ++ island.id ++ "\", title=" ++ dumpsOrEmpty island.title,
        "Relations to other islands (the placard may reflect them):"] ++
      orNone "- (none)" (islandRelationLines payload.doc island.id) ++ ["Member cards:"]) ++
    cardLines

/-- What the projection knows of the island itself. -/
def islandStructureLines (ir : Ir.LlmInputIr F) (islandId : String) : List String :=
  match findBy IrIsland.id islandId ir.islands with
  | none => []
  | some island =>
      ["Confirmed structure of the target island:",
        "- \x7b\"parentIslandId\": " ++ unicodeJson island.parentIslandId ++
          ", \"placardCardId\": " ++ unicodeJson island.placardCardId ++ ", \"reviewState\": " ++
          unicodeJson (some island.reviewState) ++ "\x7d"]

def adjacentCardLines (ir : Ir.LlmInputIr F) (contextIds : List String) : Prompt :=
  if contextIds = [] then []
  else
    plainLine ("Adjacent cards used only as relation/evidence context; never use these IDs in " ++
      "groundingIds:") ::
    (sortedIds contextIds).filterMap fun id =>
      (projectedText ir id).map fun text => cardUnicodeJsonLine id text

/-- `island_summary_ir_prompt_lines`. -/
def islandSummaryIrPromptLines (ir : Ir.LlmInputIr F) (islandId : String)
    (memberIds contextIds : List String) : Prompt :=
  plainLines (["The direct-member-only rule above still governs the placard itself and " ++
      "groundingIds.",
    "Use any adjacent cards below only to interpret recorded relations/evidence; do not " ++
      "introduce new facts from them into the placard."] ++ islandStructureLines ir islandId) ++
  adjacentCardLines ir contextIds ++
  plainLines (["Logical relations involving direct member cards:"] ++
    orNone "- (none)" ((ir.relations.filter fun relation =>
      memberIds.contains relation.fromId || memberIds.contains relation.toId).map
        fun relation => "- " ++ typedRelationLine relation) ++
    ["Evidence involving direct member cards:"] ++
    orNone "- (none)" ((ir.evidenceLinks.filter fun link =>
      memberIds.contains link.fromCardId || memberIds.contains link.toCardId).map
        fun link => "- " ++ typedEvidenceLine link))

def islandSummaryCandidateOf (value : Py.Value F) : Option IslandSummaryCandidate := do
  let members ← objectOf value
  knownFields ["summaryText", "groundingIds"] members
  let summaryText ← (required textOf members "summaryText").filter (· ≠ "")
  let groundingIds ← (required (listOf textOf) members "groundingIds").filter fun ids =>
    1 ≤ ids.length ∧ ids.length ≤ 10
  return ⟨summaryText, groundingIds⟩

/-- `SuggestIslandSummaryResponse.model_validate`. -/
def islandSummaryResponseOf (members : List (Py.Str × Py.Value F)) :
    Option SuggestIslandSummaryResponse := do
  knownFields ["candidates", "warnings"] members
  let candidates ← (required (listOf islandSummaryCandidateOf) members "candidates").filter
    fun candidates => 1 ≤ candidates.length ∧ candidates.length ≤ 3
  let warnings ← optional (listOf textOf) members "warnings"
  return ⟨candidates, warnings⟩

def checkGrounding (memberIds : List String) (candidate : IslandSummaryCandidate) :
    Except Raised Unit := do
  ensure (candidate.groundingIds.length ≤ 10)
    (invalid "LLM response groundingIds must contain at most 10 ids")
  ensure candidate.groundingIds.Nodup
    (invalid "LLM response groundingIds must not contain duplicates")
  ensure (∀ id ∈ candidate.groundingIds, id ∈ memberIds)
    (invalid "LLM response groundingIds included non-member card id")

/-- `_parse_island_summary_response`. -/
def parseIslandSummaryResponse (rawText : Py.Str) (payload : SuggestIslandSummaryRequest F) :
    Except Raised SuggestIslandSummaryResponse := do
  let members ← loadsObject server rawText
  let response ← found (invalid "Invalid island summary response payload")
    (islandSummaryResponseOf members)
  let island ← found (invalid "islandId does not exist") payload.island
  response.candidates.forM (checkGrounding island.cardIds)
  return response

/-! ## The routes -/

/-- The prompt, after the checks of the document. -/
def prepareIslandSummary (payload : SuggestIslandSummaryRequest F) : Except Raised Prompt := do
  rejectUnreviewedDocument server payload.doc payload.allowUnreviewedText
  let (island, _) ← islandMembers payload
  let ir ← (buildIslandSummaryIrContext server payload island.cardIds).mapError irError
  let base ← buildIslandSummaryPrompt payload ir
  let contextIds := (contextAround payload.doc.source island.cardIds).cardIds.filter fun id =>
    !island.cardIds.contains id
  return base ++ [plainLine ""] ++
    islandSummaryIrPromptLines ir payload.islandId island.cardIds contextIds

/-- `suggest_island_summary`. -/
def suggestIslandSummary (payload : SuggestIslandSummaryRequest F) :
    Route SuggestIslandSummaryResponse := do
  let prompt ← prepareIslandSummary server payload
  let response ← generateChecked server
    (requestedModel server payload.model "suggest_island_summary")
    { task := "suggest_island_summary", prompt }
  let _ ← server.tenant
  parseIslandSummaryResponse server response.rawText payload

structure ProposeIslandSummaryRequest (F : Type) extends SuggestIslandSummaryRequest F where
  sourceBundleHash : String

/-- `ProposalEnvelope`, without the fields that are the same for every proposal. -/
structure ProposalEnvelope where
  proposalId : String
  sourceBundleHash : String
  targetId : String
  before : Option String
  after : String
  groundingIds : List String
  warnings : Option (List String)
  candidates : List IslandSummaryCandidate

/-- The document of a proposal is there, and the request may write it. -/
def authorizeProposal (docId : String) : Except Raised Unit := do
  let tenantId ← server.authorizeWrite docId
  ensure (server.hasDocument tenantId docId = true) (.http 404 (.text "Document not found"))

/-- `propose_island_summary`. -/
def proposeIslandSummary (payload : ProposeIslandSummaryRequest F) : Route ProposalEnvelope := do
  authorizeProposal server payload.doc.id
  let summary ← suggestIslandSummary server payload.toSuggestIslandSummaryRequest
  let island ← (found (invalid "islandId does not exist") payload.island : Except Raised Island)
  let primary ← (found (.uncaught "IndexError") summary.candidates.head? :
    Except Raised IslandSummaryCandidate)
  let proposalId := "proposal-" ++ server.newId
  server.registerProposal payload.doc.id proposalId
  return {
    proposalId
    sourceBundleHash := payload.sourceBundleHash
    targetId := payload.islandId
    before := island.summaryText
    after := primary.summaryText
    groundingIds := primary.groundingIds
    warnings := summary.warnings
    candidates := summary.candidates }

end KjAtlas.Ai

/-! ## Opposing viewpoints

A model is asked for a view that opposes a card, or for what its evidence lacks.
It sees what is joined with the card in full, and other cards as far as they fit.
-/

namespace KjAtlas.Ai

variable {F : Type} (server : Server F)

structure ProposeOpposingViewpointRequest (F : Type) where
  doc : DocumentV1 F
  targetCardId : String
  allowUnreviewedText : Option Bool
  model : Option String

structure OpposingViewpointProposal where
  proposalId : String
  targetCardId : String
  opposingText : String
  evidenceGap : Bool
  rationale : String
  warnings : List String

def opposingViewpointMessages : ContextMessages where
  text := "Task-required card text exceeded the lossless IR text budget."
  cards := "Task-required card context did not fit in the IR projection."
  relations := "Task-required logical relations did not fit in the IR projection."
  evidence := "Task-required evidence did not fit in the IR projection."

/-- The cards around the target, and what joins them with it. -/
def ProposeOpposingViewpointRequest.context (payload : ProposeOpposingViewpointRequest F) :
    RequiredContext := contextAround payload.doc.source [payload.targetCardId]

/-- `build_opposing_viewpoint_ir_context`. -/
def buildOpposingViewpointIrContext (payload : ProposeOpposingViewpointRequest F) :
    Except IRGenerationError (Ir.LlmInputIr F) := do
  ensure (payload.targetCardId ∈ payload.doc.cardIds)
    ⟨"target_card_missing", "The target card is not present in the document."⟩
  buildWithContext server payload.allowUnreviewedText opposingViewpointMessages payload.context
    false payload.doc.source

/-! ## The prompt -/

def opposingViewpointHeader : List String :=
  ["You propose an OPPOSING viewpoint or an evidence-gap note for the target card.",
    "Use only the provided cards, relations, and evidence. Do not add outside facts.",
    "The proposal is a candidate for human review -- it is never applied automatically.",
    "Ground every claim in the target and the recorded context. Distinguish an existing human " ++
      "judgement from a new AI proposal.",
    "If the target's evidence is missing or weak, set evidenceGap=true; recorded contradictory " ++
      "evidence does not by itself decide the target's truth.",
    "Return strict JSON only: \x7b\"opposingText\": string, \"evidenceGap\": boolean, " ++
      "\"rationale\": string, \"warnings\": [string,...]\x7d"]

def projectedCardLines (ir : Ir.LlmInputIr F) (ids : List String) : Prompt :=
  (sortedIds ids).filterMap fun id =>
    (projectedText ir id).map fun text => cardUnicodeJsonLine id text

def projectedCardLinesOrNone (ir : Ir.LlmInputIr F) (ids : List String) : Prompt :=
  if ids = [] then [plainLine "- (none)"] else projectedCardLines ir ids

/-- `opposing_viewpoint_ir_prompt_lines`. -/
def opposingViewpointIrPromptLines (ir : Ir.LlmInputIr F) (targetId : String)
    (directIds : List String) : Prompt :=
  let exploratoryIds := (ir.cards.map Ir.IrCard.id).filter fun id =>
    decide (id ≠ targetId) && !directIds.contains id
  [plainLine ("Cards directly connected to the target by a recorded relation or evidence link " ++
    "(treat these as context, not as automatically true counterarguments):")] ++
  projectedCardLinesOrNone ir directIds ++
  plainLines (["Logical relations involving the target card:"] ++
    orNone "- (none)" ((ir.relations.filter fun relation =>
      relation.fromId = targetId ∨ relation.toId = targetId).map
        fun relation => "- " ++ typedRelationLine relation) ++
    ["Evidence involving the target card. A confirmed or held contradiction is an " ++
      "existing HUMAN judgement; use it as recorded context, never present it as a new AI " ++
      "discovery:"] ++
    orNone "- (none)" ((ir.evidenceLinks.filter fun link =>
      link.fromCardId = targetId ∨ link.toCardId = targetId).map
        fun link => "- " ++ typedEvidenceLine link) ++
    ["Other cards retained by the IR for exploratory counterexample search. Their mere " ++
      "presence is not evidence against the target:"]) ++
  projectedCardLinesOrNone ir exploratoryIds ++
  plainLines (if ir.truncation.truncated then
    ["The broader exploratory context was truncated by the shared IR budget " ++
      "(" ++ reasonsText ir.truncation ++ "). The target and its directly connected required " ++
      "context were protected; do not treat omitted unrelated cards as evidence that no " ++
      "alternative exists."]
  else [])

/-- `_build_opposing_viewpoint_prompt`, with a projection. -/
def buildOpposingViewpointPrompt (payload : ProposeOpposingViewpointRequest F)
    (ir : Ir.LlmInputIr F) : Except Raised Prompt := do
  let text ← found (.http 422 (.coded "required_card_context_mismatch"
    "Task-required card context did not fit in the IR projection"))
    (projectedText ir payload.targetCardId)
  let directIds := payload.context.cardIds.filter fun id => decide (id ≠ payload.targetCardId)
  return plainLines opposingViewpointHeader ++
    [[.plain ("Target card: \x7b\"id\": " ++ dumpsText payload.targetCardId ++ ", \"text\": "),
      .cardJson text, .plain "\x7d"]] ++
    opposingViewpointIrPromptLines ir payload.targetCardId directIds

def answerText (value : Option (Py.Value F)) : Except Raised String :=
  fieldText ((value.map (pyStr server)).getD (.ofString ""))

def nonEmptyField (text : String) : Except Raised Unit :=
  ensure (text ≠ "") (.uncaught "ValidationError")

/-- `[str(w) for w in (value or [])]`. -/
def answerWarnings (value : Option (Py.Value F)) : Except Raised (List String) := do
  match value.filter (pyBool server) with
  | none => return []
  | some value =>
      let items ← pyIter value
      items.mapM fun item => fieldText (pyStr server item)

def parseOpposingViewpoint (rawText : Py.Str) (targetCardId : String) :
    Except Raised OpposingViewpointProposal := do
  let data ← (server.loads rawText).mapError fun exception =>
    if exception = "JSONDecodeError" then invalid "LLM response is not valid JSON"
    else .uncaught exception
  let opposingText ← answerText server (← dictGetOr data "opposingText" "opposing_text")
  let evidenceGap ← dictGetOr data "evidenceGap" "evidence_gap"
  let rationale ← answerText server (← dictGet data "rationale")
  let warnings ← answerWarnings server (← dictGet data "warnings")
  nonEmptyField targetCardId
  nonEmptyField opposingText
  nonEmptyField rationale
  return {
    proposalId := "proposal-" ++ server.newId
    targetCardId
    opposingText
    evidenceGap := (evidenceGap.map (pyBool server)).getD false
    rationale
    warnings }

/-- The prompt, after the checks of the document. -/
def prepareOpposingViewpoint (payload : ProposeOpposingViewpointRequest F) :
    Except Raised Prompt := do
  authorizeProposal server payload.doc.id
  ensure (payload.targetCardId ∈ payload.doc.cardIds) (invalid "targetCardId does not exist")
  rejectUnreviewedDocument server payload.doc payload.allowUnreviewedText
  let ir ← (buildOpposingViewpointIrContext server payload).mapError irError
  buildOpposingViewpointPrompt payload ir

/-- `propose_opposing_viewpoint`. -/
def proposeOpposingViewpoint (payload : ProposeOpposingViewpointRequest F) :
    Route OpposingViewpointProposal := do
  let prompt ← prepareOpposingViewpoint server payload
  let response ← generateChecked server
    (requestedModel server payload.model "propose_opposing_viewpoint")
    { task := "propose_opposing_viewpoint", prompt }
  parseOpposingViewpoint server response.rawText payload.targetCardId

end KjAtlas.Ai
