import KjAtlas.Patch.Parse

/-! # Checking documents on import

A document is checked in stages: the shape of its cards and islands, the
envelope, and the endpoints of the evidence links that the importer keeps. The
check also guards a merge, before and after.
-/

namespace KjAtlas

open Js

/-- An argument of a translated text. -/
inductive MessageArg where
  | text (text : String)
  | number (n : Nat)
  | translated (key : String)

/-- A text shown to the user: `t(key, args)`, a fixed text, or either of them
behind a label. -/
inductive Message where
  | translated (key : String) (args : List (String × MessageArg))
  | raw (text : String)
  | labelled (label : String) (message : Message)

inductive Severity where
  | error
  | warn
deriving DecidableEq

structure ValidationError where
  code : String
  path : String
  message : Message
  severity : Severity

/-! ## The shape of cards and islands -/

/-- `typeof value === "number" && Number.isFinite(value) ? value : 0`. -/
def finiteOrZero (value : Option JsValue) : JsValue :=
  .number ((value.bind JsValue.finite?).getD .zero)

def toCard (key : String) (value : JsValue) : JsValue :=
  if value.isRecord then
    let card := value.props
    .object (((card.assign "id" (.string ((card.string? "id").getD key))).assign "x"
      (finiteOrZero (card.get "x"))).assign "y" (finiteOrZero (card.get "y")))
  else value

/-- The elements of `toCardArray(rawCards)`, when it is an array. -/
def toCardArray : Option JsValue → Option (List (Option JsValue))
  | some (.array items) => some (items.map some)
  | some (.object props) => some (props.map fun prop => prop.2.map (toCard prop.1))
  | _ => none

def isBlank (text : Option String) : Bool :=
  match text with
  | some text => decide (trim text = "")
  | none => true

def isRecord (value : Option JsValue) : Bool := value.any JsValue.isRecord

def importKey (name : String) : String := "app.status.import.validation." ++ name

def invalid (code path key : String) : ValidationError where
  code
  path
  message := .translated (importKey key) []
  severity := .error

def cardErrors (index : Nat) (card : Option JsValue) : List ValidationError :=
  let path := "cards[" ++ toString index ++ "]"
  if isRecord card then
    let props := (card.map JsValue.props).getD []
    (if isBlank (props.string? "id") then [invalid "V002" (path ++ ".id") "card_id_invalid"]
      else []) ++
    if (props.string? "text").isSome then []
      else [invalid "V002" (path ++ ".text") "card_text_invalid"]
  else [invalid "V002" path "card_not_object"]

def isNumber (value : Option JsValue) : Bool :=
  match value with
  | some (.number _) => true
  | _ => false

def islandErrors (index : Nat) (island : JsValue) : List ValidationError :=
  let path := "islands[" ++ toString index ++ "]"
  if island.isRecord then
    let props := island.props
    let bbox := ((props.get "bbox").map JsValue.props).getD []
    let hasBbox := isRecord (props.get "bbox") && isNumber (bbox.get "x") &&
      isNumber (bbox.get "y") && isNumber (bbox.get "w") && isNumber (bbox.get "h")
    (if isBlank (props.string? "id") then [invalid "V003" (path ++ ".id") "island_id_invalid"]
      else []) ++
    if isRecord (props.get "shape") || isRecord (props.get "geometry") || hasBbox then []
    else [{
      code := "V003"
      path
      message := .translated (importKey "island_missing_geometry")
        [("islandId", .text ((props.string? "id").getD ("#" ++ toString index)))]
      severity := .warn }]
  else [invalid "V003" path "island_not_object"]

def collectDocumentPreflightErrors (input : Props) : List ValidationError :=
  (if !input.hasOwn "cards" then [invalid "V001" "cards" "cards_field_missing"]
    else if !isRecord (input.get "cards") then [invalid "V001" "cards" "cards_field_wrong_type"]
    else []) ++
  (match toCardArray (input.get "cards") with
    | some cards => (cards.mapIdx cardErrors).flatten
    | none => []) ++
  match input.get "islands" with
  | none => []
  | some (.array islands) => (islands.mapIdx islandErrors).flatten
  | some _ => [invalid "V003" "islands" "islands_not_array"]

/-! ## The importer -/

/-- The parts of an imported card that the check looks at: nothing unless
`parseCards` accepts the card. -/
def importedCardId (card : Option JsValue) : Option String :=
  if isRecord card then
    let props := (card.map JsValue.props).getD []
    if (props.string? "text").isSome && ((props.get "x").bind JsValue.finite?).isSome &&
        ((props.get "y").bind JsValue.finite?).isSome then
      props.string? "id"
    else none
  else none

/-- The ids of the cards that `parseCards` returns. -/
def importedCardIds (cards : Option (List (Option JsValue))) : Option (List String) :=
  cards.bind fun cards => cards.mapM importedCardId

def hasTransform (value : Option JsValue) : Bool :=
  isRecord value && ["panX", "panY", "zoom"].all fun key =>
    ((((value.map JsValue.props).getD []).get key).bind JsValue.finite?).isSome

/-- The error of `validateImportedDocument`, or the ids of the cards. -/
def importedDocument (value : Props) (cards : Option (List (Option JsValue))) :
    Except String (List String) :=
  if !value.hasOwn "version" then .error "Document version is required."
  else if value.get "version" ≠ some (.number .one) then
    .error "Unsupported document version. Only numeric version 1 is supported."
  else if !(["id", "transform", "edges", "islands"].all value.hasOwn) then
    .error "Document must include id, transform, cards, edges, and islands."
  else if (value.string? "id").isNone then .error "Document id must be a string."
  else if !hasTransform (value.get "transform") then
    .error "Document transform must include numeric panX, panY, and zoom."
  else
    match importedCardIds cards with
    | none => .error "Document cards must be an array of \x7bid, text, x, y\x7d."
    | some cardIds =>
        match value.get "edges", value.get "islands" with
        | some (.array _), some (.array _) => .ok cardIds
        | some (.array _), _ => .error "Document islands must be an array."
        | _, _ => .error "Document edges must be an array."

/-- An imported evidence link, as far as the check looks at it. -/
structure ImportedLink where
  id : String
  fromCardId : String
  toCardId : String
  type : String

def importedLink? (item : JsValue) : Option ImportedLink :=
  let link := item.props
  match link.string? "id", link.string? "fromCardId", link.string? "toCardId",
    link.string? "type" with
  | some id, some fromCardId, some toCardId, some type =>
      if type ≠ "supports" ∧ type ≠ "contradicts" then none
      else if fromCardId = toCardId then none
      else some ⟨id, fromCardId, toCardId, type⟩
  | _, _, _, _ => none

def ImportedLink.duplicateKey (link : ImportedLink) : String :=
  link.fromCardId ++ ":" ++ link.toCardId ++ ":" ++ link.type

/-- The links that `parseEvidenceLinks` returns: the first of each id and of
each pair of endpoints and type. -/
def parseEvidenceLinks : Option JsValue → List ImportedLink
  | some (.array items) => items.foldl (fun links item =>
      match importedLink? item with
      | some link =>
          if links.any (fun seen => decide (seen.id = link.id)) ||
              links.any (fun seen => decide (seen.duplicateKey = link.duplicateKey)) then links
          else links ++ [link]
      | none => links) []
  | _ => []

/-- The path, the code and the text of each error of the importer. -/
def upgradeErrorTranslations : List (String × String × String × String) := [
  ("Imported data must be a JSON object.", "document", "V001", "imported_data_not_object"),
  ("Document version is required.", "version", "V001", "version_required"),
  ("Unsupported document version. Only numeric version 1 is supported.", "version", "V001",
    "version_unsupported"),
  ("Document must include id, transform, cards, edges, and islands.", "document", "V001",
    "required_fields_missing"),
  ("Document id must be a string.", "document", "V001", "id_not_string"),
  ("Document transform must include numeric panX, panY, and zoom.", "transform", "V001",
    "transform_invalid"),
  ("Document cards must be an array of \x7bid, text, x, y\x7d.", "cards", "V002",
    "cards_shape_invalid"),
  ("Document edges must be an array.", "document", "V001", "edges_not_array"),
  ("Document islands must be an array.", "document", "V001", "islands_field_not_array")]

def mapUpgradeErrorToValidationError (error : String) : ValidationError :=
  match upgradeErrorTranslations.lookup error with
  | some (path, code, key) => invalid code path key
  | none => ⟨"V001", "document", .raw error, .error⟩

def endpointErrors (severity : Severity) (cardIds : List String) (index : Nat)
    (link : ImportedLink) : List ValidationError :=
  let error (code field key cardId : String) : List ValidationError :=
    if cardIds.contains cardId then []
    else [{
      code
      path := "evidenceLinks[" ++ toString index ++ "]." ++ field
      message := .translated (importKey key)
        [("linkId", .text link.id), ("cardId", .text cardId)]
      severity }]
  error "V004" "fromCardId" "evidence_link_unknown_from_card" link.fromCardId ++
    error "V005" "toCardId" "evidence_link_unknown_to_card" link.toCardId

def isError (error : ValidationError) : Bool := decide (error.severity = .error)

/-- The errors of `validateDocument`; none when the document is accepted. -/
def validateDocument (input : JsValue) (evidenceEndpointSeverity : Severity) :
    List ValidationError :=
  if input.isRecord then
    let preflightErrors := (collectDocumentPreflightErrors input.props).filter isError
    if preflightErrors.isEmpty then
      match importedDocument input.props (toCardArray (input.props.get "cards")) with
      | .error error => [mapUpgradeErrorToValidationError error]
      | .ok cardIds =>
          ((parseEvidenceLinks (input.props.get "evidenceLinks")).mapIdx
            (endpointErrors evidenceEndpointSeverity cardIds)).flatten.filter isError
    else preflightErrors
  else [invalid "V001" "document" "document_must_be_object"]

def DocumentV1.toProps (doc : DocumentV1) : Props :=
  [("version", some (.number .one)), ("id", some (.string doc.id)),
    ("updatedAt", some (.string doc.updatedAt)),
    ("cards", some (.array (doc.cards.map fun card => .object card.props))),
    ("edges", some (.array (doc.edges.map fun edge => .object edge.props))),
    ("islands", some (.array (doc.islands.map fun island => .object island.props)))] ++
  (doc.readingOrder.toList.map fun order => ("readingOrder", some (textArray order))) ++
  (doc.relationSummaries.toList.map fun summaries =>
    ("relationSummaries", some (.array (summaries.map fun summary => .object summary.props)))) ++
  (doc.evidenceLinks.toList.map fun links =>
    ("evidenceLinks", some (.array (links.map fun link => .object link.props)))) ++ doc.rest

def DocumentV1.toJs (doc : DocumentV1) : JsValue := .object doc.toProps

theorem ok_of_ite_error {ε α : Type} {p : Prop} [Decidable p] {error : ε} {result : Except ε α}
    {value : α} (hok : (if p then .error error else result) = .ok value) :
    ¬p ∧ result = .ok value := by
  by_cases hp : p
  · rw [if_pos hp] at hok
    contradiction
  · exact ⟨hp, by rwa [if_neg hp] at hok⟩

end KjAtlas
