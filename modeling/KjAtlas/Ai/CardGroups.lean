import KjAtlas.Ai.Answers
import KjAtlas.Ir.Kept

/-! # Groups of cards

A model is asked to group cards. Cards that a person has set aside are no
candidates: they are named in the response, and no group has them, whatever the
model answers.
-/

namespace KjAtlas.Ai

open Ir (IrCard ClusterCandidate)

variable {F : Type} (server : Server F)

/-! ## The projection -/

/-- The states of the cards of the document are those of the schema. -/
structure SuggestCardGroupsRequest (F : Type) where
  cards : List CardRef
  doc : Option (Ir.DocumentV1 F)
  allowUnreviewedText : Option Bool
  model : Option String
  known_holdStates : ∀ document ∈ doc, ∀ card ∈ document.cards, ∀ state ∈ card.holdState,
    state ∈ holdStates

structure SuggestedGroup where
  label : String
  cardIds : List String
  rationale : Option String

structure SuggestCardGroupsResponse where
  groups : List SuggestedGroup
  excludedCardIds : List String
  truncated : Bool

namespace SuggestCardGroupsRequest

def cardIds (payload : SuggestCardGroupsRequest F) : List String := payload.cards.map CardRef.id

def source (payload : SuggestCardGroupsRequest F) : Ir.IRSource F :=
  requestSource payload.doc payload.cards

def requiredHoldIds (payload : SuggestCardGroupsRequest F) : List String :=
  (payload.source.cards.filter fun card =>
    decide (card.id ∈ payload.cardIds) && card.holdState.isSome).map Ir.SourceCard.id

end SuggestCardGroupsRequest

/-- `_suggest_card_groups_ir`. -/
def suggestCardGroupsIr (payload : SuggestCardGroupsRequest F) : Except Raised (Ir.LlmInputIr F) :=
  (Ir.buildLlmInputIr server.runtime
    { includeCoordinates := false
      safeMode := true
      allowUnreviewedText := decide (IsRelaxed server payload.allowUnreviewedText)
      requiredCardIds := payload.requiredHoldIds
      requiredRelationIds := [] }
    payload.source).mapError irError

/-- `held_card_ids`. -/
def heldCardIds (ir : Ir.LlmInputIr F) : List String :=
  sortOn codePointLe (fun id => id)
    ((ir.cards.filter fun card => (nonEmpty card.holdState).isSome).map IrCard.id)

/-- `_card_group_candidates`: the cards that can be grouped, and those that are withheld. -/
def cardGroupCandidates (payload : SuggestCardGroupsRequest F) (ir : Ir.LlmInputIr F) :
    List String × List String :=
  let projected := ir.cards.map IrCard.id
  let held := heldCardIds ir
  (payload.cardIds.filter fun id => decide (id ∈ projected) && decide (id ∉ held),
    payload.cardIds.filter fun id => decide (id ∈ held))

/-! ## The prompt -/

def suggestCardGroupsHeader : String :=
  "Group these KJ-method cards into islands. " ++
    "Bundle cards by the similarity of what they are appealing for, not by classification labels. " ++
    "Each first-level bundle is 2-3 cards (rarely 4). Do not force a card into a bundle it does " ++
    "not belong to. " ++
    "Return JSON: \x7b\"groups\": [\x7b\"label\": \"...\", \"cardIds\": [\"...\"], " ++
    "\"rationale\": \"...\"\x7d]\x7d"

def groupCardLine (card : IrCard) : Line :=
  [.plain ("  - id=\"" ++ card.id ++ "\", text=\""), .card card.text, .plain "\""]

def heldCardLine (card : IrCard) : String :=
  "- " ++ card.id ++ " (holdState=" ++ card.holdState.getD "" ++ ")"

def confirmedIslandLine (island : IrIsland) : String :=
  "- " ++ island.id ++ " \"" ++ (nonEmpty island.title).getD "(untitled)" ++ "\" (reviewState=" ++
    island.reviewState ++
    ((nonEmpty island.parentIslandId).map (", parentIslandId=" ++ ·)).getD "" ++ ", members=" ++
    (if island.cardIds = [] then "none" else joinText "," island.cardIds) ++ ")"

def clusterLine (cluster : ClusterCandidate F) : String :=
  "- " ++ cluster.clusterId ++ ": " ++ joinText "," cluster.cardIds ++ " (basis=" ++
    cluster.basis ++ ")"

/-- What the projection knows beside the texts of the candidates. -/
def groupContext (ir : Ir.LlmInputIr F) (allowed : List String) : List String :=
  headed ("Cards the human has set aside (holdState). They are NOT listed above " ++
      "and must not appear in any group:")
    (((heldCardIds ir).filter fun id => decide (id ∉ allowed)).filterMap fun id =>
      (findBy IrCard.id id ir.cards).map heldCardLine) ++
  headed ("Islands the human has already confirmed. Do not re-propose an " ++
      "existing island, and do not move its members without reason:")
    (ir.islands.map confirmedIslandLine) ++
  headed "Relations recorded on the canvas (ADR-0048 vocabulary):" (ir.relations.map relationLine) ++
  headed "Structural observation, not a decision (no ranking of card content):"
    ((ir.clusterCandidates.filter fun cluster => cluster.cardIds.all (allowed.contains ·)).map
      clusterLine)

/-- `_build_suggest_card_groups_prompt`. -/
def buildSuggestCardGroupsPrompt (ir : Ir.LlmInputIr F) (candidateIds : List String) : Prompt :=
  let listed := candidateIds.filterMap fun id => findBy IrCard.id id ir.cards
  let context := groupContext ir candidateIds
  [plainLine suggestCardGroupsHeader, plainLine "Cards:"] ++
    (if listed = [] then [[]] else listed.map groupCardLine) ++
    plainLines (if context = [] then [] else "" :: context)

/-- One group of the answer, of which the cards that are no candidates are left out. -/
def parseSuggestedGroup (candidateIds : List String) (group : Py.Value F) :
    Except Raised (Option SuggestedGroup) := do
  let cardIds ← pyIter ((← dictGetOr group "cardIds" "card_ids").getD (.list []))
  let allowed := cardIds.filterMap fun id =>
    (pyStr server id).text?.filter (candidateIds.contains ·)
  if allowed = [] then return none
  else
    let label ← dictGet group "label"
    let rationale ← dictGet group "rationale"
    let label ← fieldText ((label.map (pyStr server)).getD (.ofString ""))
    let rationale ← optionalText rationale
    return some ⟨label, allowed, rationale⟩

/-- `_parse_suggest_card_groups_response`. -/
def parseSuggestCardGroupsResponse (rawText : Py.Str) (candidateIds excludedCardIds : List String)
    (truncated : Bool) : Except Raised SuggestCardGroupsResponse := do
  let data ← loadsUncaught server rawText
  let groups ← pyIter ((← dictGet data "groups").getD (.list []))
  let suggested ← groups.mapM (parseSuggestedGroup server candidateIds)
  return ⟨suggested.reduceOption, excludedCardIds, truncated⟩

/-- `suggest_card_groups`. -/
def suggestCardGroups (payload : SuggestCardGroupsRequest F) : Route SuggestCardGroupsResponse := do
  rejectUnreviewedCards server (payload.cards.map CardRef.textReviewed) payload.allowUnreviewedText
  let ir ← suggestCardGroupsIr server payload
  let (candidateIds, excludedCardIds) := cardGroupCandidates payload ir
  let truncated := ir.truncation.truncated
  let modelId := requestedModel server payload.model "suggest_card_groups"
  let config ← assertModelAllowed server modelId
  if candidateIds.length < 2 then return ⟨[], excludedCardIds, truncated⟩
  else do
    let response ← generateOrRaise server
      { task := "suggest_card_groups"
        prompt := buildSuggestCardGroupsPrompt ir candidateIds
        model := some modelId
        registeredProvider := some config }
    let _ ← server.tenant
    parseSuggestCardGroupsResponse server response.rawText candidateIds excludedCardIds truncated

end KjAtlas.Ai
