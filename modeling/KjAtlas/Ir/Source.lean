import KjAtlas.Ir.Input

/-! # The source of the projection

The source holds what the projection reads of a document: cards with their
places, relations, islands and evidence. Cards and evidence are normalized here,
as relations and islands are elsewhere.
-/

/-! ## Checks of texts

Texts that look like personal data are refused, and so are long texts that look
like embedded binary data. The patterns are those of the regular expressions: a
search finds a match if the pattern can match at the start of some suffix.
-/

namespace KjAtlas.Ir

open Js

/-! ## Patterns -/

/-- A pattern, by what can be left of a text after a match at its start. -/
abbrev Pattern := List Char → List (List Char)

namespace Pattern

def one (chars : Char → Bool) : Pattern
  | [] => []
  | c :: rest => if chars c then [rest] else []

def atLeast (chars : Char → Bool) : Nat → Pattern
  | 0, [] => [[]]
  | _ + 1, [] => []
  | 0, c :: rest => (c :: rest) :: if chars c then atLeast chars 0 rest else []
  | count + 1, c :: rest => if chars c then atLeast chars count rest else []

/-- The first pattern, if it matches, or nothing. -/
def optional (pattern : Pattern) : Pattern := fun text => pattern text ++ [text]

def andThen (first second : Pattern) : Pattern := fun text => (first text).flatMap second

/-- Characters one after another, each as it is compared. -/
def word (same : Char → Char → Bool) (chars : List Char) : Pattern :=
  chars.foldr (fun c rest => (one (same c)).andThen rest) fun text => [text]

def anyOf (patterns : List Pattern) : Pattern := fun text =>
  patterns.flatMap fun pattern => pattern text

/-- `pattern.search(text)` finds something. -/
def search (pattern : Pattern) (text : String) : Bool :=
  text.toList.tails.any fun suffix => !(pattern suffix).isEmpty

end Pattern

/-! ## Personal data -/

/-- Equal without regard to case, for a lower-case letter: two letters beyond ASCII count too. -/
def sameLetter (letter c : Char) : Bool :=
  c.toLower = letter || (letter = 's' && c.toNat = 0x17F) || (letter = 'k' && c.toNat = 0x212A)

/-- `[A-Za-z0-9._%+-]+@[A-Za-z0-9.-]+\.[A-Za-z]{2,}`. -/
def email : Pattern :=
  (Pattern.atLeast (fun c => c.isAlphanum || ['.', '_', '%', '+', '-'].contains c) 1).andThen <|
    (Pattern.one (· = '@')).andThen <|
      (Pattern.atLeast (fun c => c.isAlphanum || ['.', '-'].contains c) 1).andThen <|
        (Pattern.one (· = '.')).andThen <| Pattern.atLeast Char.isAlpha 2

/-- `\+?[0-9][0-9\- ]{8,}[0-9]`. -/
def phone : Pattern :=
  (Pattern.one (· = '+')).optional.andThen <|
    (Pattern.one Char.isDigit).andThen <|
      (Pattern.atLeast (fun c => c.isDigit || ['-', ' '].contains c) 8).andThen <|
        Pattern.one Char.isDigit

/-- `[?&](token|key|secret|password)=`, without regard to case. -/
def urlToken : Pattern :=
  (Pattern.one (['?', '&'].contains ·)).andThen <|
    (Pattern.anyOf (["token", "key", "secret", "password"].map fun name =>
      Pattern.word sameLetter name.toList)).andThen <| Pattern.one (· = '=')

def piiPatterns : List (String × Pattern) :=
  [("email", email), ("phone", phone), ("url_token", urlToken)]

def piiLabel (patterns : List (String × Pattern)) (text : String) : Option String :=
  (patterns.find? fun entry => entry.2.search text).map Prod.fst

def base64MaxLen : Nat := 1024

/-- A long text of characters of the encoding only. -/
def looksLikeBase64 (text : String) : Bool :=
  decide (base64MaxLen < text.toList.length) &&
    text.toList.all fun c => c.isAlphanum || ['+', '/', '='].contains c

/-- The ranges of kana and of ideographs. -/
def isJapanese (c : Char) : Bool :=
  [(0x3040, 0x30FF), (0x3400, 0x4DBF), (0x4E00, 0x9FFF), (0xF900, 0xFAFF)].any fun range =>
    decide (range.1 ≤ c.toNat) && decide (c.toNat ≤ range.2)

def detectLanguage (texts : List String) : String :=
  match texts.any (fun text => text.toList.any isJapanese),
      texts.any (fun text => text.toList.any Char.isAlpha) with
  | true, true => "mixed"
  | true, false => "ja"
  | false, true => "en"
  | false, false => "unknown"

example : email.search "write to a.b@example.org" = true := by decide +kernel

example : email.search "a@b" = false := by decide +kernel

end KjAtlas.Ir

namespace KjAtlas.Ir

open Js

/-- What the projection takes from the runtime: the numbers with floating point, their operations
with rounding, and the compatibility form of a text. -/
structure Runtime (F : Type) where
  ofNat : Nat → F
  add : F → F → F
  sub : F → F → F
  mul : F → F → F
  div : F → F → F
  lt : F → F → Bool
  isFinite : F → Bool
  round : F → Nat → F
  sqrt : F → F
  /-- `math.degrees(math.atan2(y, x))`. -/
  angleDeg : F → F → F
  /-- `math.dist`. -/
  dist : F × F → F × F → F
  /-- `unicodedata.normalize("NFKC", text)`. -/
  nfkc : String → String

variable {F : Type}

/-! ## Documents -/

structure Card (F : Type) where
  id : String
  text : String
  x : F
  y : F
  claimType : Option String
  mergedIntoCardId : Option String
  repOf : Option (List String)
  canonicalId : Option String
  sources : Option (List String)
  textReviewed : Option Bool
  holdState : Option String

structure Edge where
  fromId : String
  toId : String
  fromKind : Option EdgeEndpointKind
  toKind : Option EdgeEndpointKind
  type : String

structure Island where
  id : String
  cardIds : List String
  parentIslandId : Option String
  placardCardId : Option String
  title : Option String
  titleReviewed : Option Bool

structure EvidenceLink where
  id : String
  type : String
  fromCardId : String
  toCardId : String
  contradictionState : Option String

/-- A document, with its times as the texts of `isoformat()`. -/
structure DocumentV1 (F : Type) where
  version : Int
  id : String
  createdAt : String
  updatedAt : String
  cards : List (Card F)
  edges : List Edge
  islands : List Island
  evidenceLinks : Option (List EvidenceLink)

/-! ## Source shapes -/

structure SourceCard (F : Type) where
  id : String
  text : String
  textReviewed : Option Bool
  x : Option F
  y : Option F
  holdState : Option String

structure SourceEvidenceLink where
  id : String
  type : String
  fromCardId : String
  toCardId : String
  contradictionState : Option String

structure IRSource (F : Type) where
  docId : String
  docVersion : Int
  cards : List (SourceCard F)
  relations : List SourceRelation
  islands : List SourceIsland
  evidenceLinks : List SourceEvidenceLink
  createdAt : Option String
  updatedAt : Option String

def Card.toSource (card : Card F) : SourceCard F where
  id := card.id
  text := card.text
  textReviewed := card.textReviewed
  x := some card.x
  y := some card.y
  holdState := card.holdState

def Edge.toSource (edge : Edge) : SourceRelation where
  fromId := edge.fromId
  toId := edge.toId
  type := edge.type
  fromKind := edge.fromKind
  toKind := edge.toKind

def Island.toSource (island : Island) : SourceIsland where
  id := island.id
  cardIds := island.cardIds
  title := island.title
  placardCardId := island.placardCardId
  parentIslandId := island.parentIslandId
  titleReviewed := island.titleReviewed

def EvidenceLink.toSource (link : EvidenceLink) : SourceEvidenceLink where
  id := link.id
  type := link.type
  fromCardId := link.fromCardId
  toCardId := link.toCardId
  contradictionState := link.contradictionState

def sourceFromDocument (document : DocumentV1 F) : IRSource F where
  docId := document.id
  docVersion := if document.version = 0 then 1 else document.version
  cards := document.cards.map Card.toSource
  relations := document.edges.map Edge.toSource
  islands := document.islands.map Island.toSource
  evidenceLinks := (document.evidenceLinks.getD []).map EvidenceLink.toSource
  createdAt := some document.createdAt
  updatedAt := some document.updatedAt

/-! ## Cards -/

structure NormalizedCard (F : Type) where
  id : String
  text : String
  textNorm : String
  charLen : Nat
  textReviewed : Option Bool
  x : Option F
  y : Option F
  holdState : Option String
deriving DecidableEq

def withoutControls (text : String) : String :=
  .ofList (text.toList.filter fun c => !isControlChar c)

/-- `_WHITESPACE_RUN.sub(" ", unicodedata.normalize("NFKC", text)).strip()`. -/
def textForm (nfkc : String → String) (text : String) : String :=
  .ofList (strip (collapseSpaces false (nfkc text).toList))

def normalizeCard (nfkc : String → String) (card : SourceCard F) : NormalizedCard F :=
  let text := withoutControls card.text
  let textNorm := textForm nfkc text
  { id := card.id
    text
    textNorm
    charLen := textNorm.toList.length
    textReviewed := card.textReviewed
    x := card.x
    y := card.y
    holdState := card.holdState.filter holdStates.contains }

def normalizeCardsFrom (nfkc : String → String) :
    List String → List (SourceCard F) → Except IRGenerationError (List (NormalizedCard F))
  | _, [] => .ok []
  | seen, card :: rest =>
      let normalized := normalizeCard nfkc card
      if card.id = "" then
        .error ⟨"invalid_card_id", "Card id must be a non-empty string."⟩
      else if seen.contains card.id then
        .error ⟨"duplicate_card_id", "The same card id appeared more than once."⟩
      else if normalized.text = "" ∨ normalized.textNorm = "" then
        .error ⟨"empty_card_text",
          "Card text normalized to an empty string, which the IR schema forbids."⟩
      else do
        let cards ← normalizeCardsFrom nfkc (card.id :: seen) rest
        return normalized :: cards

def normalizeCards (nfkc : String → String) (sourceCards : List (SourceCard F)) :
    Except IRGenerationError (List (NormalizedCard F)) :=
  if sourceCards.isEmpty then
    .error ⟨"empty_cards", "IR generation requires at least one card."⟩
  else do
    let cards ← normalizeCardsFrom nfkc [] sourceCards
    return sortOn codePointLe NormalizedCard.id cards

/-! ## Evidence -/

def evidenceTypes : List String := ["supports", "contradicts"]

def contradictionStates : List String := ["unconfirmed", "confirmed", "held", "resolved"]

structure IrEvidenceLink where
  id : String
  type : String
  fromCardId : String
  toCardId : String
  contradictionState : Option String

def SourceEvidenceLink.toIr (link : SourceEvidenceLink) : IrEvidenceLink where
  id := link.id
  type := link.type
  fromCardId := link.fromCardId
  toCardId := link.toCardId
  contradictionState := link.contradictionState.filter fun state =>
    decide (link.type = "contradicts") && contradictionStates.contains state

def SourceEvidenceLink.key (link : SourceEvidenceLink) : String × String × String :=
  (link.type, link.fromCardId, link.toCardId)

def IrEvidenceLink.key (link : IrEvidenceLink) : String × String × String :=
  (link.type, link.fromCardId, link.toCardId)

/-- The links of known types between cards, each triple at its first occurrence. -/
def normalizeEvidenceLinksFrom (cardIds : List String) :
    List (String × String × String) → List SourceEvidenceLink → List IrEvidenceLink
  | _, [] => []
  | seen, link :: rest =>
      if link.type ∉ evidenceTypes then normalizeEvidenceLinksFrom cardIds seen rest
      else if link.fromCardId ∉ cardIds ∨ link.toCardId ∉ cardIds then
        normalizeEvidenceLinksFrom cardIds seen rest
      else if link.key ∈ seen then normalizeEvidenceLinksFrom cardIds seen rest
      else link.toIr :: normalizeEvidenceLinksFrom cardIds (link.key :: seen) rest

def normalizeEvidenceLinks (sourceLinks : List SourceEvidenceLink) (cardIds : List String) :
    List IrEvidenceLink :=
  sortOn relationKeyLe IrEvidenceLink.key (normalizeEvidenceLinksFrom cardIds [] sourceLinks)

structure Meta where
  docId : String
  docVersion : Int
  safeMode : Bool
  language : String
  createdAt : Option String
  updatedAt : Option String

def buildMeta (source : IRSource F) (cards : List (NormalizedCard F)) : Meta where
  docId := if source.docId = "" then "(no-document)" else source.docId
  docVersion := max source.docVersion 1
  safeMode := true
  language := detectLanguage (cards.map NormalizedCard.textNorm)
  createdAt := source.createdAt.filter (· ≠ "")
  updatedAt := source.updatedAt.filter (· ≠ "")

def enforceSafeMode (cards : List (NormalizedCard F)) (allowUnreviewedText : Bool) :
    Except IRGenerationError Unit :=
  if !allowUnreviewedText && cards.any fun card => decide (card.textReviewed ≠ some true) then
    .error ⟨"unreviewed_text_not_allowed",
      "The IR cannot carry unreviewed card text under SafeMode."⟩
  else .ok ()

/-- Texts are searched with all patterns, and the metadata other than times without that of
telephone numbers. -/
def enforcePiiMinimization (cards : List (NormalizedCard F)) (info : Meta) :
    Except IRGenerationError Unit :=
  match (cards.flatMap fun card => [card.text, card.textNorm]).findSome? (piiLabel piiPatterns) with
  | some label =>
      .error ⟨"pii_detected",
        "Card text matched the " ++ label ++ " pattern; the IR refuses to carry it."⟩
  | none =>
      match [info.docId, info.language].findSome?
          (piiLabel (piiPatterns.filter fun entry => entry.1 ≠ "phone")) with
      | some label =>
          .error ⟨"pii_detected",
            "Metadata matched the " ++ label ++ " pattern; the IR refuses to carry it."⟩
      | none => .ok ()

end KjAtlas.Ir
