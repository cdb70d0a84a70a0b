import KjAtlas.Ai.RequiredContext

/-! # Merges

A model is asked which cards could be integrated. Cards that are held, merged or
canonicalized are no candidates. What the model suggests is refused where it
would erase a distinction that people have made.
-/

namespace KjAtlas.Ai

variable {F : Type} (server : Server F)

structure SuggestMergesRequest (F : Type) where
  doc : DocumentV1 F
  instruction : Option String
  allowUnreviewedText : Option Bool

inductive MergeMethod where
  | nearDuplicate
  | kernelFusion

structure MergeSuggestion where
  groupId : String
  cardIds : List String
  mergedTextDraft : String
  mergeMethod : MergeMethod
  rationale : Option String

/-! ## Candidates -/

/-- `_eligible_merge_cards`. -/
def eligibleMergeCards (doc : DocumentV1 F) : List (Card F) :=
  doc.cards.filter fun card =>
    card.holdState.isNone && (nonEmpty card.mergedIntoCardId).isNone

/-- `eligible_merge_card_ids`, which leaves out cards with a canonical card as well. -/
def eligibleMergeCardIds (doc : DocumentV1 F) : List String :=
  distinct ((doc.cards.filter fun card =>
    card.holdState.isNone && (nonEmpty card.mergedIntoCardId).isNone &&
      (nonEmpty card.canonicalId).isNone).map fun card => card.id)

/-- `_reduced_islands`: of an island its members among the candidates. -/
def reducedIslands (candidateIds : List String) (islands : List SourceIsland) : List SourceIsland :=
  islands.filterMap fun island =>
    let members := island.cardIds.filter candidateIds.contains
    if members = [] then none
    else some {
      id := island.id
      cardIds := members
      title := none
      placardCardId := none
      parentIslandId := none
      titleReviewed := none }

def mergeMessages : ContextMessages where
  text := "Merge-candidate card text exceeded the lossless IR text budget."
  cards := "The complete merge-candidate set did not fit in the IR projection."
  relations := "A relation between merge candidates did not fit in the IR projection."
  evidence := "Evidence between merge candidates did not fit in the IR projection."

/-- The part of the source that concerns the candidates. -/
def mergeSource (doc : DocumentV1 F) : Ir.IRSource F :=
  let candidateIds := eligibleMergeCardIds doc
  let context := contextWithin doc.source candidateIds
  { doc.source with
    cards := doc.source.cards.filter fun card => candidateIds.contains card.id
    relations := context.relations
    islands := reducedIslands candidateIds doc.source.islands
    evidenceLinks := context.evidence }

/-- `build_merge_suggestion_ir_context`. -/
def buildMergeSuggestionIrContext (payload : SuggestMergesRequest F) :
    Except IRGenerationError (Ir.LlmInputIr F) := do
  let candidateIds := eligibleMergeCardIds payload.doc
  ensure (2 ≤ candidateIds.length) ⟨"insufficient_merge_candidates",
    "At least two eligible cards are required for merge suggestion generation."⟩
  buildWithContext server payload.allowUnreviewedText mergeMessages
    (contextWithin payload.doc.source candidateIds) true (mergeSource payload.doc)

/-! ## The prompt -/

/-- `json.dumps` of sorted ids, with `ensure_ascii=False`. -/
def unicodeJsonIds (ids : List String) : String :=
  "[" ++ joinText ", " ((sortedIds ids).map fun id => unicodeJson (some id)) ++ "]"

/-- A candidate of `_merge_context`, with sorted keys. -/
def mergeContextLine (doc : DocumentV1 F) (card : Card F) : String :=
  let islandIds := (doc.islands.filter fun island => island.cardIds.contains card.id).map
    fun island => island.id
  "- \x7b\"claimType\": " ++ unicodeJson card.claimType ++ ", \"holdState\": " ++
    unicodeJson card.holdState ++ ", \"id\": " ++ unicodeJson (some card.id) ++
    ", \"islandIds\": " ++ unicodeJsonIds islandIds ++ ", \"lineage\": \x7b\"canonicalId\": " ++
    unicodeJson card.canonicalId ++ ", \"mergedIntoCardId\": " ++
    unicodeJson card.mergedIntoCardId ++ ", \"repOf\": " ++ unicodeJsonIds (card.repOf.getD []) ++
    ", \"sourceCardIds\": " ++ unicodeJsonIds (card.sources.getD []) ++ "\x7d\x7d"

def mergeContextLines (doc : DocumentV1 F) : List String :=
  let candidateIds := eligibleMergeCardIds doc
  (sortOn codePointLe (fun card => card.id)
    (doc.cards.filter fun card => candidateIds.contains card.id)).map (mergeContextLine doc)

def mergeContext (doc : DocumentV1 F) (ir : Ir.LlmInputIr F) : List String :=
  ["Merge-specific candidate context (recorded structure, not permission to merge):"] ++
  mergeContextLines doc ++
  ["sourceRefs are opaque document-local equality markers only. Same ref means the recorded " ++
      "source string was the same; infer no person, URL, authority, truth, or content from the " ++
      "token itself.",
    "islandIds are context only. Different islands do not automatically forbid a merge, and the " ++
      "same island does not automatically permit one.",
    "lineage is recorded context. Never invent canonicalId, repOf, or merge ancestry.",
    "Logical relations between eligible candidates:"] ++
  orNone "- (none)" (ir.relations.map fun relation => "- " ++ typedRelationLine relation) ++
  ["Evidence between eligible candidates:"] ++
  orNone "- (none)" (ir.evidenceLinks.map fun link => "- " ++ typedEvidenceLine link)

def mergeHeader : List String :=
  ["You propose KJ-compatible card integrations. This is advisory only.",
    "Use one of two approaches when appropriate and report the selected method for every " ++
      "suggestion:",
    "- 04-step-like consolidation for near-duplicate cards whose material distinctions can all " ++
      "be retained: set mergeMethod=\"near_duplicate\".",
    "- kernel-fusion-style integration when several non-identical cards share a meaning kernel " ++
      "that can be stated without erasing their residual differences: set " ++
      "mergeMethod=\"kernel_fusion\".",
    "Similarity alone is not enough. Sharing a topic or vocabulary is not enough.",
    "Before proposing, perform a Return check against every source card: would each source " ++
      "still recognise the draft as preserving what it says?",
    "Leave minority, lone, contradictory, held, or materially different cards separate.",
    "Do not invent provenance, conditions, certainty, or residual meaning that is not in the " ++
      "source cards.",
    "You must only propose suggestions. Do not apply merges, delete cards, or overwrite source " ++
      "cards.",
    "Return strict JSON only. No markdown. No explanation text outside JSON.",
    "Return at most 10 suggestions.",
    "Use this exact schema:",
    "\x7b\"suggestions\":[\x7b\"groupId\":string,\"cardIds\":[string,...],\"mergedTextDraft\":" ++
      "string,\"mergeMethod\":\"near_duplicate|kernel_fusion\",\"rationale\":string?\x7d]\x7d",
    "Each suggestion must include at least 2 cardIds.",
    "Only use card IDs from the input."]

def cardLinesOrNone (lines : List Line) : Prompt :=
  if lines = [] then [plainLine "- (none)"] else lines

/-- `_build_merge_prompt`. -/
def buildMergePrompt (payload : SuggestMergesRequest F) (ir : Ir.LlmInputIr F) : Prompt :=
  let candidates := ir.cards.filter fun card =>
    (eligibleMergeCardIds payload.doc).contains card.id
  plainLines (mergeHeader ++
    ["Instruction: " ++ instructionText payload.instruction "No extra instruction",
      "Cards eligible for integration consideration:"]) ++
  cardLinesOrNone (candidates.map fun card => cardUnicodeJsonLine card.id card.text) ++
  plainLines (mergeContext payload.doc ir)

/-! ## Vetoes -/

/-- Two cards are the ends of a pair. -/
def joinedBy (pairs : List (String × String)) (left right : String) : Prop :=
  ∃ pair ∈ pairs, IsBetween pair.1 pair.2 left right

instance (pairs : List (String × String)) (left right : String) :
    Decidable (joinedBy pairs left right) :=
  inferInstanceAs (Decidable (∃ _ ∈ _, _))

/-- `negate_pairs`: the kinds of both ends are given. -/
def negatePairs (doc : DocumentV1 F) : List (String × String) :=
  (doc.edges.filter fun edge =>
    decide (edge.fromKind = some .card) && decide (edge.toKind = some .card) &&
      decide (edge.type = "negate")).map fun edge => (edge.fromId, edge.toId)

def contradictionPairs (doc : DocumentV1 F) : List (String × String) :=
  ((doc.evidenceLinks.getD []).filter fun link => decide (link.type = "contradicts")).map
    fun link => (link.fromCardId, link.toCardId)

def veto (code message : String) : Raised := .http 422 (.coded code message)

/-- No card is joined with a later one. -/
def rejectJoinedPairs (doc : DocumentV1 F) : List String → Except Raised Unit
  | [] => .ok ()
  | left :: rest => do
      rejectJoinedTo left rest
      rejectJoinedPairs doc rest
where
  rejectJoinedTo (left : String) : List String → Except Raised Unit
    | [] => .ok ()
    | right :: rest => do
        ensure (¬ joinedBy (negatePairs doc) left right)
          (veto "merge_candidate_negated" "A merge suggestion crossed an explicit negate relation")
        ensure (¬ joinedBy (contradictionPairs doc) left right)
          (veto "merge_candidate_contradicted" "A merge suggestion crossed contradictory evidence")
        rejectJoinedTo left rest

/-- The vetoes against one suggestion. -/
def rejectGroup (doc : DocumentV1 F) (cardIds : List String) : Except Raised Unit := do
  let cards ← cardIds.mapM fun id => found (.uncaught "KeyError") (doc.card? id)
  ensure (∀ card ∈ cards, card.holdState = none)
    (veto "merge_candidate_held" "A merge suggestion included a held card")
  ensure (∀ card ∈ cards, nonEmpty card.mergedIntoCardId = none)
    (veto "merge_candidate_already_merged"
      "A merge suggestion included a card already merged into another card")
  ensure ((distinct (cards.filterMap fun card => card.claimType)).length ≤ 1)
    (veto "merge_candidate_claim_type_conflict" "A merge suggestion crossed distinct claim types")
  rejectJoinedPairs doc cardIds

/-- `_validate_merge_suggestion_semantics`; `seen` are the cards of the groups before. -/
def validateMergeSuggestionSemantics (doc : DocumentV1 F) :
    List String → List (List String) → Except Raised Unit
  | _, [] => .ok ()
  | seen, cardIds :: groups => do
      ensure (∀ id ∈ cardIds, id ∉ seen)
        (veto "merge_candidate_overlap" "A card appeared in more than one merge suggestion")
      rejectGroup doc cardIds
      validateMergeSuggestionSemantics doc (seen ++ cardIds) groups

/-! ## The answer -/

def mergeMethods : List (String × MergeMethod) :=
  [("near_duplicate", .nearDuplicate), ("kernel_fusion", .kernelFusion)]

def mergeDraftMaxLength : Nat := 4000

/-- `MergeSuggestion.model_validate`. -/
def mergeSuggestionOf (members : List (Py.Str × Py.Value F)) : Option MergeSuggestion := do
  let groupId ← required textOf members "groupId"
  let cardIds ← required (listOf textOf) members "cardIds"
  let mergedTextDraft ← (required textOf members "mergedTextDraft").filter fun draft =>
    draft.length ≤ mergeDraftMaxLength
  let mergeMethod ← required (choiceOf mergeMethods) members "mergeMethod"
  let rationale ← optional textOf members "rationale"
  return ⟨groupId, cardIds, mergedTextDraft, mergeMethod, rationale⟩

/-- One suggestion of the answer; `seen` are the ids of the groups before. -/
def parseMergeSuggestion (allowedCardIds seen : List String) (item : Py.Value F) :
    Except Raised MergeSuggestion := do
  let members ← found (invalid "Each merge suggestion must be an object") (objectOf item)
  let suggestion ← found (invalid "Invalid merge suggestion payload") (mergeSuggestionOf members)
  ensure (suggestion.groupId ∉ seen) (invalid "Duplicate merge suggestion groupId")
  ensure (2 ≤ suggestion.cardIds.length)
    (invalid "Each merge suggestion must include at least 2 cardIds")
  ensure suggestion.cardIds.Nodup
    (invalid "Each merge suggestion cardIds must not contain duplicates")
  ensure (∀ id ∈ suggestion.cardIds, id ∈ allowedCardIds)
    (invalid "LLM response included unknown card id")
  return suggestion

def parseMergeSuggestionList (allowedCardIds : List String) :
    List MergeSuggestion → List (Py.Value F) → Except Raised (List MergeSuggestion)
  | parsed, [] => .ok parsed
  | parsed, item :: items => do
      let suggestion ← parseMergeSuggestion allowedCardIds (parsed.map MergeSuggestion.groupId) item
      parseMergeSuggestionList allowedCardIds (parsed ++ [suggestion]) items

/-- `_parse_merge_suggestions`. -/
def parseMergeSuggestions (rawText : Py.Str) (doc : DocumentV1 F) (allowedCardIds : List String) :
    Except Raised (List MergeSuggestion) := do
  let members ← loadsObject server rawText
  let items ← found (invalid "LLM response missing suggestions array")
    ((Py.member members "suggestions").bind (listOf some))
  ensure (items.length ≤ 10) (invalid "LLM response included more than 10 suggestions")
  let suggestions ← parseMergeSuggestionList allowedCardIds [] items
  validateMergeSuggestionSemantics doc [] (suggestions.map MergeSuggestion.cardIds)
  return suggestions

def mergeRequest (payload : SuggestMergesRequest F) : Except Raised LLMRequest := do
  let ir ← (buildMergeSuggestionIrContext server payload).mapError irError
  return { task := "suggest_merges", prompt := buildMergePrompt payload ir }

/-- `suggest_merges`. -/
def suggestMerges (payload : SuggestMergesRequest F) : Route (List MergeSuggestion) := do
  rejectUnreviewedDocument server payload.doc payload.allowUnreviewedText
  if (eligibleMergeCards payload.doc).length < 2 then return []
  else do
    let request ← mergeRequest server payload
    let response ← generateOrRaise server request
    let _ ← server.tenant
    parseMergeSuggestions server response.rawText payload.doc (eligibleMergeCardIds payload.doc)

end KjAtlas.Ai
