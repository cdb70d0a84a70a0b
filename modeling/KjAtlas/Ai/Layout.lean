import KjAtlas.Ai.Documents
import KjAtlas.Ir.Projected

/-! # Layouts

A model is asked to place the cards of a document. The prompt lists every card of
the document, as the answer must place each of them once; the projection adds
what belongs near what.
-/

namespace KjAtlas.Ai

variable {F : Type} (server : Server F)

structure SuggestLayoutRequest (F : Type) where
  doc : DocumentV1 F
  instruction : Option String
  allowUnreviewedText : Option Bool

structure SuggestLayoutResponse (F : Type) where
  suggestionId : String
  suggestedDoc : DocumentV1 F
  notes : Option String

/-- `_suggest_layout_ir`: the only projection with coordinates. -/
def suggestLayoutIr (payload : SuggestLayoutRequest F) : Except Raised (Ir.LlmInputIr F) :=
  (Ir.buildLlmInputIr server.runtime
    { irOptions server payload.allowUnreviewedText with includeCoordinates := true }
    payload.doc.source).mapError irError

/-! ## The prompt -/

/-- `f"{value}"`. -/
def floatText (value : F) : String := server.str (.float value)

def layoutCardLine (card : Card F) : Line :=
  cardJsonLine card.id card.text ++
    [.plain (", x=" ++ floatText server card.x ++ ", y=" ++ floatText server card.y ++
      ((nonEmpty card.critique).map fun critique => ", critique=" ++ dumpsText critique).getD "")]

/-- `min(values)`. -/
def least (first : F) (rest : List F) : F :=
  rest.foldl (fun least value => if server.runtime.lt value least then value else least) first

/-- `max(values)`. -/
def greatest (first : F) (rest : List F) : F :=
  rest.foldl (fun greatest value => if server.runtime.lt greatest value then value else greatest)
    first

def pointText (x y : F) : String := "(" ++ server.twoDecimals x ++ "," ++ server.twoDecimals y ++ ")"

def boundsText (cards : List (Card F)) : String :=
  match cards with
  | [] => "bounds=unknown, anchor=unknown"
  | card :: rest =>
      let xs := rest.map fun card => card.x
      let ys := rest.map fun card => card.y
      "bounds=" ++ pointText server (least server card.x xs) (least server card.y ys) ++ "-" ++
        pointText server (greatest server card.x xs) (greatest server card.y ys) ++ ", anchor=" ++
        pointText server (Ir.mean server.runtime (card.x :: xs))
          (Ir.mean server.runtime (card.y :: ys))

/-- `json.dumps` of a text or of `None`. -/
def dumpsOptional (value : Option String) : String := (value.map dumpsText).getD "null"

/-- The structure of an island that the projection knows. -/
def structureText (ir : Ir.LlmInputIr F) (id : String) : String :=
  match ir.islands.findRev? fun island => decide (island.id = id) with
  | none => ""
  | some island =>
      ", parentIslandId=" ++ dumpsOptional island.parentIslandId ++ ", placardCardId=" ++
        dumpsOptional island.placardCardId ++ ", reviewState=\"" ++ island.reviewState ++ "\""

def layoutIslandLine (doc : DocumentV1 F) (ir : Ir.LlmInputIr F) (island : Island) : String :=
  "- id=\"" ++ island.id ++ "\", title=" ++ dumpsOrEmpty island.title ++ ", cardIds=" ++
    dumpsTexts island.cardIds ++ ", " ++ boundsText server (doc.members island) ++
    structureText ir island.id ++
    ((nonEmpty island.critique).map fun critique => ", critique=" ++ dumpsText critique).getD ""

/-- `_layout_placement_lines`. -/
def layoutPlacementLines (ir : Ir.LlmInputIr F) : List String :=
  ir.coordinates.map fun item =>
    "- card \"" ++ item.cardId ++ "\" at (x=" ++ floatText server item.x ++ ", y=" ++
      floatText server item.y ++ "), radius=" ++ floatText server item.radius ++ ", angle_deg=" ++
      floatText server item.angleDeg

def islandEdges (doc : DocumentV1 F) : List Edge :=
  doc.edges.filter fun edge =>
    decide (edge.fromKind = some .island) && decide (edge.toKind = some .island)

def islandEdgeLine (edge : Edge) : String :=
  "island \"" ++ edge.fromId ++ "\" --" ++ edge.type ++ "--> island \"" ++ edge.toId ++ "\""

/-- `_layout_relation_lines`. -/
def layoutRelationLines (doc : DocumentV1 F) (ir : Ir.LlmInputIr F) : List String :=
  (ir.relations.map fun relation => "- " ++ typedRelationLine relation) ++
    (islandEdges doc).map fun edge => "- " ++ islandEdgeLine edge ++ " (stated)"

/-- `_layout_island_relation_lines`. -/
def layoutIslandRelationLines (ir : Ir.LlmInputIr F) : List String :=
  (derivedIslandRelations ir).map fun row =>
    "- island \"" ++ row.fromId ++ "\" --" ++ row.type ++ "--> " ++
      (if row.toKind = .island then "island \"" else "lone card \"") ++ row.toId ++
      "\" (aggregated from " ++ toString row.aggregateCount ++ " card relation(s): " ++
      joinText ", " row.contributingCardIds ++ ")"

def layoutContext (doc : DocumentV1 F) (ir : Ir.LlmInputIr F) : List String :=
  headed ("Relative placement (centroid moved to the origin; structure only, " ++
      "do NOT return these values -- return coordinates in the same " ++
      "absolute space as the Cards section above):") (layoutPlacementLines server ir) ++
  ["Logical relations (these, not the current positions, say what belongs near what):"] ++
  orNone "- (none)" (layoutRelationLines doc ir) ++
  ["Island relations (aggregated from the card relations above):"] ++
  orNone "- (none)" (layoutIslandRelationLines ir) ++
  if ir.truncation.truncated then
    ["Note: the projection hit its size limit (" ++ reasonsText ir.truncation ++
      "); the relation and placement sections above do not cover every card listed under " ++
      "Cards. Still return a position for every card."]
  else []

def layoutHeader : List String :=
  ["You are generating a draft layout suggestion.",
    "Return JSON only, no markdown.",
    "Do not force a single correct answer. Suggest one plausible alternative layout.",
    "If a critique says 'too close', increase distance.",
    "If a critique says 'belongs together', place nearer.",
    "Place cards and islands that stand in a logical relation nearer, and keep " ++
      "the two sides of a 'negate' relation visibly apart.",
    "Preserve all ids and texts. Only propose positions and transform.",
    "Use this exact schema:",
    "\x7b\"transform\":\x7b\"panX\":number,\"panY\":number,\"zoom\":number\x7d,\"cards\":[\x7b" ++
      "\"id\":string,\"x\":number,\"y\":number\x7d],\"notes\":string?\x7d"]

/-- `_build_prompt`. -/
def buildLayoutPrompt (payload : SuggestLayoutRequest F) (ir : Ir.LlmInputIr F) : Prompt :=
  let transform := payload.doc.transform
  plainLines (layoutHeader ++
    ["Instruction: " ++ instructionText payload.instruction "No extra instruction",
      "Current transform: panX=" ++ floatText server transform.panX ++ ", panY=" ++
        floatText server transform.panY ++ ", zoom=" ++ floatText server transform.zoom,
      "Cards:"]) ++
  payload.doc.cards.map (layoutCardLine server) ++
  plainLines ("Islands:" :: payload.doc.islands.map (layoutIslandLine server payload.doc ir) ++
    layoutContext server payload.doc ir)

/-! ## The answer -/

/-- `float(value)` of a number. -/
def pyFloat : Py.Value F → Except Raised F
  | .int n => found (.uncaught "OverflowError") (server.floatOfInt n)
  | .float x => .ok x
  | _ => .error (.uncaught "TypeError")

def isNumber : Option (Py.Value F) → Bool
  | some (.int _) => true
  | some (.float _) => true
  | _ => false

def finiteCoordinate (value : Option (Py.Value F)) : Except Raised F := do
  let value ← pyFloat server (value.getD .null)
  ensure (server.runtime.isFinite value = true) (invalid "Card x/y must be finite numbers")
  return value

/-- One card of the answer; `seen` are the ids of those before it. -/
def parseSuggestedCard (doc : DocumentV1 F) (seen : List String) (item : Py.Value F) :
    Except Raised (Card F) := do
  let members ← found (invalid "Each card suggestion must be an object") (objectOf item)
  let cardId ← match Py.member members "id" with
    | some (.str id) => Except.ok id
    | _ => .error (invalid "Each card suggestion must include id")
  let source ← found (invalid "LLM response included unknown card id")
    (cardId.text?.bind doc.card?)
  ensure (source.id ∉ seen) (invalid "LLM response included duplicate card id")
  let x := Py.member members "x"
  let y := Py.member members "y"
  ensure (isNumber x = true ∧ isNumber y = true) (invalid "Card x/y must be numbers")
  let x ← finiteCoordinate server x
  let y ← finiteCoordinate server y
  return {
    id := source.id
    text := source.text
    x
    y
    claimType := none
    mergedIntoCardId := none
    repOf := none
    canonicalId := none
    sources := none
    textReviewed := none
    holdState := none
    critique := none
    critiqueTags := none
    meta_ := none
    ka := none }

def parseSuggestedCards (doc : DocumentV1 F) :
    List (Card F) → List (Py.Value F) → Except Raised (List (Card F))
  | suggested, [] => .ok suggested
  | suggested, item :: items => do
      let card ← parseSuggestedCard server doc (suggested.map fun card => card.id) item
      parseSuggestedCards doc (suggested ++ [card]) items

/-- `Transform.model_validate`. -/
def transformOf (value : Py.Value F) : Option (Transform F) := do
  let members ← objectOf value
  let panX ← required server.floatField members "panX"
  let panY ← required server.floatField members "panY"
  let zoom ← required server.floatField members "zoom"
  return ⟨panX, panY, zoom⟩

def Transform.isFinite (transform : Transform F) : Bool :=
  [transform.panX, transform.panY, transform.zoom].all server.runtime.isFinite

/-- The notes of the answer, which are checked again as a field of the response. -/
def parseNotes : Option (Py.Value F) → Except Raised (Option Py.Str)
  | none => .ok none
  | some .null => .ok none
  | some (.str notes) => .ok (some notes)
  | some _ => .error (invalid "LLM response notes must be a string")

/-- `_parse_suggestion`. -/
def parseSuggestion (rawText : Py.Str) (doc : DocumentV1 F) :
    Except Raised (Transform F × List (Card F) × Option Py.Str) := do
  let members ← loadsObject server rawText
  let transformData ← found (invalid "LLM response missing transform")
    ((Py.member members "transform").filter fun value => (objectOf value).isSome)
  let cardsData ← found (invalid "LLM response missing cards")
    ((Py.member members "cards").bind (listOf some))
  let notes ← parseNotes (Py.member members "notes")
  let transform ← found (invalid "Invalid transform in LLM response")
    (transformOf server transformData)
  ensure (transform.isFinite server = true) (invalid "Transform values must be finite numbers")
  ensure (cardsData.length = (distinct doc.cardIds).length)
    (invalid "LLM response must include all cards exactly once")
  let suggested ← parseSuggestedCards server doc [] cardsData
  let cards ← doc.cardIds.mapM fun id =>
    found (.uncaught "KeyError") (suggested.find? fun card => decide (card.id = id))
  return (transform, cards, notes)

/-- What is done before a provider is asked. -/
def prepareSuggestLayout (payload : SuggestLayoutRequest F) : Except Raised LLMRequest := do
  rejectUnreviewedDocument server payload.doc payload.allowUnreviewedText
  let ir ← suggestLayoutIr server payload
  return { task := "re_layout", prompt := buildLayoutPrompt server payload ir }

/-- `suggest_layout`. -/
def suggestLayout (payload : SuggestLayoutRequest F) : Route (SuggestLayoutResponse F) := do
  let request ← prepareSuggestLayout server payload
  let response ← generateOrRaise server request
  let _ ← server.tenant
  let (transform, cards, notes) ← parseSuggestion server response.rawText payload.doc
  let notes ← (notes.mapM fieldText : Except Raised (Option String))
  return ⟨server.newId, { payload.doc with transform, cards }, notes⟩

end KjAtlas.Ai
