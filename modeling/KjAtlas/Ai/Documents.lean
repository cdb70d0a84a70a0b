import KjAtlas.Ai.Answers

/-! # Documents of requests

A request brings its document along. The projection reads a part of it, and what
it leaves out is read by prompts and parsers: critiques, ids of edges, the
transform and the reading order.
-/

namespace KjAtlas.Ai

variable {F : Type}

/-! ## The document -/

structure Transform (F : Type) where
  panX : F
  panY : F
  zoom : F

structure CardMeta (F : Type) where
  seq : Option F
  source : Option String

structure CardKa where
  voice : Option String
  value : Option String

structure Card (F : Type) extends Ir.Card F where
  critique : Option String
  critiqueTags : Option (List String)
  meta_ : Option (CardMeta F)
  ka : Option CardKa

structure Edge extends Ir.Edge where
  edgeId : String

structure Island extends Ir.Island where
  summaryText : Option String
  imageUrl : Option String
  critique : Option String

/-- A document. The members of `rest` are those of the fields that no route reads. -/
structure DocumentV1 (F : Type) where
  version : Int
  id : String
  createdAt : String
  updatedAt : String
  transform : Transform F
  cards : List (Card F)
  edges : List Edge
  islands : List Island
  readingOrder : Option (List String)
  evidenceLinks : Option (List Ir.EvidenceLink)
  rest : Js.Props

namespace DocumentV1

/-- What the projection reads of a document. -/
def toIr (doc : DocumentV1 F) : Ir.DocumentV1 F where
  version := doc.version
  id := doc.id
  createdAt := doc.createdAt
  updatedAt := doc.updatedAt
  cards := doc.cards.map Card.toCard
  edges := doc.edges.map Edge.toEdge
  islands := doc.islands.map Island.toIsland
  evidenceLinks := doc.evidenceLinks

def source (doc : DocumentV1 F) : Ir.IRSource F := Ir.sourceFromDocument doc.toIr

def cardIds (doc : DocumentV1 F) : List String := doc.cards.map fun card => card.id

def islandIds (doc : DocumentV1 F) : List String := doc.islands.map fun island => island.id

/-- `cards_by_id.get(id)`: the last card with an id. -/
def card? (doc : DocumentV1 F) (id : String) : Option (Card F) :=
  doc.cards.findRev? fun card => decide (card.id = id)

/-- `islands_by_id.get(id)`: the last island with an id. -/
def island? (doc : DocumentV1 F) (id : String) : Option Island :=
  doc.islands.findRev? fun island => decide (island.id = id)

def members (doc : DocumentV1 F) (island : Island) : List (Card F) :=
  island.cardIds.filterMap doc.card?

end DocumentV1

variable (server : Server F)

/-- `_reject_unreviewed_text`, for a document of a request. -/
def rejectUnreviewedDocument (doc : DocumentV1 F) (allowUnreviewedText : Option Bool) :
    Except Raised Unit :=
  rejectUnreviewedText server (doc.cards.map Card.toCard) allowUnreviewedText

/-- The arguments of the projection that the routes share. -/
def irOptions (allowUnreviewedText : Option Bool) : Ir.Options where
  includeCoordinates := false
  safeMode := true
  allowUnreviewedText := decide (IsRelaxed server allowUnreviewedText)
  requiredCardIds := []
  requiredRelationIds := []

/-- `sorted(ids)`, of a set of ids. -/
def sortedIds (ids : List String) : List String := sortOn codePointLe (fun id => id) (distinct ids)

/-! ## Lines of prompts -/

def orNone (none : String) (lines : List String) : List String :=
  if lines = [] then [none] else lines

/-- `json.dumps(value or "")`. -/
def dumpsOrEmpty (value : Option String) : String := dumpsText (value.getD "")

/-- `json.dumps` of a text or `None`, with `ensure_ascii=False`. -/
def unicodeJson (value : Option String) : String :=
  (value.map fun text => String.ofList (Js.quote text)).getD "null"

def typedRelationLine (relation : IrRelation) : String :=
  "card \"" ++ relation.fromId ++ "\" --" ++ relation.type ++ "--> card \"" ++ relation.toId ++ "\""

def typedEvidenceLine (link : Ir.IrEvidenceLink) : String :=
  "card \"" ++ link.fromCardId ++ "\" --evidence:" ++ link.type ++ "--> card \"" ++ link.toCardId ++
    "\"" ++ ((nonEmpty link.contradictionState).map fun state =>
      " (contradictionState=" ++ state ++ ")").getD ""

def cardJsonLine (id text : String) : Line :=
  [.plain ("- id=\"" ++ id ++ "\", text="), .cardJson text]

def cardUnicodeJsonLine (id text : String) : Line :=
  [.plain ("- id=\"" ++ id ++ "\", text="), .cardUnicodeJson text]

/-- `json.dumps(texts)`, for texts of cards. -/
def cardTextsJson (texts : List String) : Line :=
  [.plain "["] ++ (texts.map Piece.cardJson).intersperse (.plain ", ") ++ [.plain "]"]

/-- `(instruction or "").strip()`, with a text for none. -/
def instructionText (instruction : Option String) (none : String) : String :=
  ((nonEmpty instruction).map stripText).getD none

def reasonsText (truncation : Ir.Truncation) : String :=
  let reasons := joinText "," truncation.reasonCodes
  if reasons = "" then "unspecified" else reasons

end KjAtlas.Ai

/-! ## Requests without a document

The wording of a card is refined, and titles are suggested. The request brings
the texts along and says whether they are reviewed.
-/

namespace KjAtlas.Ai

variable {F : Type} (server : Server F)

/-! ## Wording -/

structure RefineCardTextRequest where
  cardText : String
  context : Option String
  textReviewed : Bool
  allowUnreviewedText : Option Bool
  model : Option String

structure RefineCardTextResponse where
  refinedText : String
  reasoning : Option String

/-- `_build_refine_card_text_prompt`. -/
def buildRefineCardTextPrompt (payload : RefineCardTextRequest) : Prompt :=
  [plainLine ("Refine the wording of this KJ-method card. " ++
      "Make it clearer and more concise while preserving the original meaning. " ++
      "Output must be a predicate-bearing sentence (動詞で終わる文), never a noun-phrase stop " ++
      "(名詞止め). " ++
      "Return JSON: \x7b\"refinedText\": \"...\", \"reasoning\": \"...\"\x7d"),
    [.plain "Card text: ", .card payload.cardText]] ++
  ((nonEmpty payload.context).map fun context => plainLine ("Context: " ++ context)).toList

/-- `_parse_refine_card_text_response`. -/
def parseRefineCardTextResponse (rawText : Py.Str) : Except Raised RefineCardTextResponse := do
  let data ← loadsUncaught server rawText
  let refinedText ← dictGetOr data "refinedText" "refined_text"
  let reasoning ← dictGet data "reasoning"
  let refinedText ← fieldText ((refinedText.map (pyStr server)).getD (.ofString ""))
  let reasoning ← optionalText reasoning
  return ⟨refinedText, reasoning⟩

/-- `refine_card_text`. -/
def refineCardText (payload : RefineCardTextRequest) : Route RefineCardTextResponse := do
  rejectUnreviewedCards server [payload.textReviewed] payload.allowUnreviewedText
  let response ← generateChecked server (requestedModel server payload.model "refine_card_text")
    { task := "refine_card_text", prompt := buildRefineCardTextPrompt payload }
  let _ ← server.tenant
  parseRefineCardTextResponse server response.rawText

/-! ## Titles -/

structure SuggestDocumentTitleRequest where
  islandTitles : List String
  cardTexts : List String
  currentTitle : Option String
  textReviewed : Bool
  allowUnreviewedText : Option Bool
  model : Option String

/-- The candidates of a response are titles. -/
structure SuggestDocumentTitleResponse where
  candidates : List String

/-- Items under a heading, or a line that says that there are none. -/
def listedOrNone (lines : List Line) : Prompt :=
  if lines = [] then [plainLine "(none)"] else lines

/-- `_build_suggest_document_title_prompt`. -/
def buildSuggestDocumentTitlePrompt (payload : SuggestDocumentTitleRequest) : Prompt :=
  [plainLine ("Suggest 1-3 short document titles (each max 80 chars, in Japanese) that " ++
    "capture the overall theme of this KJ-method canvas. " ++
    "The document contains these island labels and card texts. " ++
    "Do NOT rank or score the candidates — present them as equal alternatives.")] ++
  ((nonEmpty payload.currentTitle).map fun title =>
    plainLine ("Current title: \"" ++ title ++ "\"")).toList ++
  [plainLine "Island labels:"] ++
  listedOrNone ((payload.islandTitles.take 20).map fun title => plainLine ("  - " ++ title)) ++
  [plainLine "Sample card texts:"] ++
  listedOrNone ((payload.cardTexts.take 30).map fun text => [.plain "  - ", .card text]) ++
  [plainLine "Return JSON: \x7b\"candidates\": [\x7b\"title\": \"...\"\x7d]\x7d"]

/-- A title of at most 500 characters, which must not be empty. -/
def parseTitle (item : Py.Value F) : Except Raised String := do
  let title ← dictGet item "title"
  let title ← fieldText (((title.map (pyStr server)).getD (.ofString "")).take 500)
  ensure (title ≠ "") (.uncaught "ValidationError")
  return title

/-- `_parse_suggest_document_title_response`. -/
def parseSuggestDocumentTitleResponse (rawText : Py.Str) :
    Except Raised SuggestDocumentTitleResponse := do
  let data ← loadsUncaught server rawText
  let candidates ← dictGet data "candidates"
  let items ← found (.uncaught "ValueError")
    ((candidates.bind (listOf some)).filter fun items => !items.isEmpty)
  let titles ← (items.take 3).mapM (parseTitle server)
  return ⟨titles⟩

/-- `suggest_document_title`. -/
def suggestDocumentTitle (payload : SuggestDocumentTitleRequest) :
    Route SuggestDocumentTitleResponse := do
  rejectUnreviewedCards server [payload.textReviewed] payload.allowUnreviewedText
  let response ← generateChecked server
    (requestedModel server payload.model "suggest_document_title")
    { task := "suggest_document_title"
      prompt := buildSuggestDocumentTitlePrompt payload
      temperature := 2 / 5
      maxTokens := 300 }
  let _ ← server.tenant
  parseSuggestDocumentTitleResponse server response.rawText

end KjAtlas.Ai

/-! ## Summaries of relations between islands

A model summarizes a relation between two islands. The texts that it sees are
those of the request: the document is there for its ids and its review state.
-/

namespace KjAtlas.Ai

variable {F : Type} (server : Server F)

structure RelationEdgeText where
  edgeId : String
  type : String
  from_ : String
  to_ : String

structure RelationCardText where
  id : String
  text : String

structure SummarizeIslandRelationRequest (F : Type) where
  doc : DocumentV1 F
  islandAId : String
  islandBId : String
  relationType : String
  derived : Bool
  groundingCardIds : List String
  groundingEdgeIds : List String
  edgeTexts : Option (List RelationEdgeText)
  cardTexts : List RelationCardText
  allowUnreviewedText : Option Bool

structure SummarizeIslandRelationResponse where
  text : String
  groundingCardIds : List String
  groundingEdgeIds : List String
  warnings : List String

/-- `_validate_relation_summary_input`. -/
def validateRelationSummaryInput (payload : SummarizeIslandRelationRequest F) :
    Except Raised Unit := do
  let doc := payload.doc
  ensure (payload.islandAId ∈ doc.islandIds ∧ payload.islandBId ∈ doc.islandIds)
    (invalid "islandAId/islandBId must exist in document islands")
  ensure (∀ id ∈ payload.groundingCardIds, id ∈ doc.cardIds)
    (invalid "groundingCardIds must exist in document cards")
  ensure (∀ id ∈ payload.groundingEdgeIds, id ∈ doc.edges.map Edge.edgeId)
    (invalid "groundingEdgeIds must exist in document edges")
  ensure (∀ id ∈ payload.groundingCardIds, id ∈ payload.cardTexts.map RelationCardText.id)
    (invalid "cardTexts must include all groundingCardIds")

def relationSummaryRules : List String :=
  ["You generate an island relation summary draft.",
    "Never present the output as authoritative or certain.",
    "Use neutral wording and explicitly state uncertainty when evidence is weak or contradictory.",
    "Use ONLY the provided cardTexts and edgeTexts.",
    "Avoid factual claims not present in provided texts.",
    "If context is missing, add a warning that context may be incomplete.",
    "If you detect contradictions, add warning messages.",
    "If the summary appears to include unsupported claims, add warning messages.",
    "Return strict JSON only. No markdown. No extra keys.",
    "Use this exact schema:",
    "\x7b\"text\":string,\"groundingCardIds\":[string,...],\"groundingEdgeIds\":[string,...]," ++
      "\"warnings\":[string,...]\x7d",
    "groundingCardIds must be a subset of allowed groundingCardIds.",
    "groundingEdgeIds must be a subset of allowed groundingEdgeIds."]

def relationEdgeLine (edge : RelationEdgeText) : String :=
  "- edgeId=\"" ++ edge.edgeId ++ "\", type=\"" ++ edge.type ++ "\", from=\"" ++ edge.from_ ++
    "\", to=\"" ++ edge.to_ ++ "\""

/-- `_build_relation_summary_prompt`. -/
def buildRelationSummaryPrompt (payload : SummarizeIslandRelationRequest F) : Prompt :=
  let cardLines := payload.cardTexts.map fun item => cardJsonLine item.id item.text
  plainLines (relationSummaryRules ++
    ["islandAId=\"" ++ payload.islandAId ++ "\", islandBId=\"" ++ payload.islandBId ++
        "\", relationType=\"" ++ payload.relationType ++ "\", derived=" ++
        if payload.derived then "true" else "false",
      "allowed groundingCardIds=" ++ dumpsTexts payload.groundingCardIds,
      "allowed groundingEdgeIds=" ++ dumpsTexts payload.groundingEdgeIds,
      "cardTexts:"]) ++
  (if cardLines = [] then [plainLine "- (none)"] else cardLines) ++
  plainLines ("edgeTexts:" ::
    orNone "- (none)" ((payload.edgeTexts.getD []).map relationEdgeLine))

/-- `SummarizeIslandRelationResponse.model_validate`. -/
def relationSummaryResponseOf (members : List (Py.Str × Py.Value F)) :
    Option SummarizeIslandRelationResponse := do
  knownFields ["text", "groundingCardIds", "groundingEdgeIds", "warnings"] members
  let text ← (required textOf members "text").filter (· ≠ "")
  let groundingCardIds ← required (listOf textOf) members "groundingCardIds"
  let groundingEdgeIds ← required (listOf textOf) members "groundingEdgeIds"
  let warnings ← required (listOf textOf) members "warnings"
  return ⟨text, groundingCardIds, groundingEdgeIds, warnings⟩

/-- `_parse_relation_summary_response`. -/
def parseRelationSummaryResponse (rawText : Py.Str) (payload : SummarizeIslandRelationRequest F) :
    Except Raised SummarizeIslandRelationResponse := do
  let members ← loadsObject server rawText
  let response ← found (invalid "Invalid relation summary response payload")
    (relationSummaryResponseOf members)
  ensure (stripText response.text ≠ "") (invalid "Summary text must not be empty")
  ensure (∀ id ∈ response.groundingCardIds, id ∈ payload.groundingCardIds)
    (invalid "LLM response groundingCardIds must be a subset of input groundingCardIds")
  ensure (∀ id ∈ response.groundingEdgeIds, id ∈ payload.groundingEdgeIds)
    (invalid "LLM response groundingEdgeIds must be a subset of input groundingEdgeIds")
  return response

/-- The request to the provider, after the checks. -/
def prepareSummarizeIslandRelation (payload : SummarizeIslandRelationRequest F) :
    Except Raised LLMRequest := do
  validateRelationSummaryInput payload
  rejectUnreviewedDocument server payload.doc payload.allowUnreviewedText
  return { task := "summarize_island_relation", prompt := buildRelationSummaryPrompt payload }

/-- `summarize_island_relation`. -/
def summarizeIslandRelation (payload : SummarizeIslandRelationRequest F) :
    Route SummarizeIslandRelationResponse := do
  let request ← prepareSummarizeIslandRelation server payload
  let response ← generateOrRaise server request
  parseRelationSummaryResponse server response.rawText payload

end KjAtlas.Ai
