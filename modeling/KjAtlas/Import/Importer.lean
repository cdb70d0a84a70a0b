import KjAtlas.Domain.Schema
import KjAtlas.Foundation.Chain
import KjAtlas.Import.HilRs
import KjAtlas.Js.Reader

/-! # The importer

A document of unknown shape is rebuilt from what the importer understands of
it. Cards must all be readable; what is not understood of the other parts is
left out. Islands are given both a geometry and a shape, and lose a parent from
which no top island is reached. The cards on the shelf are marked as shelved.
-/

namespace KjAtlas

open Js

/-! ## Points and polygons -/

/-- A point with finite coordinates. -/
structure Point where
  x : Decimal
  y : Decimal

def Point.toJs (point : Point) : JsValue :=
  .object [("x", some (.number (.finite point.x))), ("y", some (.number (.finite point.y)))]

/-- The value of `toNumber(value)`, unless it is `null`. -/
def toNumber : JsValue → Option Decimal
  | .number (.finite value) => some value
  | _ => none

/-- A point, unless a coordinate is missing. -/
def readPoint (value : JsValue) : Option Point :=
  match (value.props.get "x").bind toNumber, (value.props.get "y").bind toNumber with
  | some x, some y => some ⟨x, y⟩
  | _, _ => none

/-- What the program leaves to the platform: the reading of dates, and the
floating-point test whether two segments meet. -/
structure Platform where
  dates : DateFormat
  segmentsIntersect : Point → Point → Point → Point → Bool

section Polygons

variable (platform : Platform)

/-- Whether two sides of a polygon that share no vertex meet. -/
def isSelfIntersectingPolygon (points : List Point) : Bool :=
  let count := points.length
  decide (4 ≤ count) &&
    (List.range count).any fun i => (List.range count).any fun j =>
      let sharesVertex := decide (i = j) || decide ((i + 1) % count = j) ||
        decide (i = (j + 1) % count)
      decide (i < j) && !sharesVertex &&
        match points[i]?, points[(i + 1) % count]?, points[j]?, points[(j + 1) % count]? with
        | some a₁, some a₂, some b₁, some b₂ => platform.segmentsIntersect a₁ a₂ b₁ b₂
        | _, _, _, _ => false

def canUsePolygonPoints (points : List Point) : Bool :=
  decide (3 ≤ points.length) && !isSelfIntersectingPolygon platform points

end Polygons

namespace Importer

open Reader Property

/-- `new Date(value).toISOString()`, unless the date cannot be read. -/
def isoDate (dates : DateFormat) : Reader := fun value =>
  value.string?.bind fun text => (dates.parse text).map fun time => .string (dates.toISOString time)

/-- A value, or `null`. -/
def orNull (shape : Shape) : Reader := ofShape (Shape.either shape Shape.null)

/-- An array of strings, as it is. -/
def allTexts : Reader := ofShape (Shape.array Shape.string)

/-! ## Cards -/

def transformProperties : List Property := [
  must "panX" finite,
  must "panY" finite,
  must "zoom" finite]

def parseTransform : Reader := record transformProperties

def parseClaimType : Reader := literal ["fact", "claim", "hypothesis", "unknown"]

def parseCritiqueTags : Reader := someItems text

def cardMetaProperties : List Property := [
  spreading "seq" finite,
  spreading "source" nonEmptyText]

def parseCardMeta : Reader := someRecord cardMetaProperties

def cardKaProperties : List Property := [
  spreading "voice" nonEmptyText,
  spreading "value" nonEmptyText]

def parseCardKa : Reader := someRecord cardKaProperties

def cardProperties : List Property := [
  must "id" text,
  must "text" text,
  must "x" finite,
  must "y" finite,
  may "mergedIntoCardId" text,
  may "claimType" parseClaimType,
  may "repOf" allTexts,
  may "canonicalId" text,
  may "sources" allTexts,
  may "critique" text,
  may "critiqueTags" parseCritiqueTags,
  may "textReviewed" boolean,
  may "holdState" (literal ["held", "pending", "shelved"]),
  may "meta" parseCardMeta,
  may "ka" parseCardKa]

def parseCard : Reader := record cardProperties

/-- The cards, unless one of them cannot be read. -/
def parseCards : JsValue → Option (List JsValue)
  | .array values => values.mapM parseCard
  | _ => none

def edgeProperties : List Property := [
  must "id" text,
  must "fromId" text,
  must "toId" text,
  orElse "fromKind" (literal ["island"]) (.string "card"),
  orElse "toKind" (literal ["island"]) (.string "card"),
  must "type" nonEmptyText]

def parseEdge : Reader := record edgeProperties

def parseEdges : Reader := items parseEdge

/-! ## Islands -/

/-- The bounds of a rectangle, each of which may be `undefined`. -/
structure RectBounds where
  x : Option Decimal
  y : Option Decimal
  w : Option Decimal
  h : Option Decimal

/-- A geometry. The bounds are missing in the literal `{ type: "rect" }`. -/
inductive IslandGeometry where
  | rect (bounds : Option RectBounds)
  | polygon (points : List Point)

structure GeneratedFrom where
  cardIds : List String
  versionToken : String

/-- The outline of an island. -/
inductive Outline where
  | rect
  | polygon (points : List Point)

/-- A shape. In a shape that is made from a geometry, `generatedFrom` is not a
property at all. -/
structure IslandShape where
  outline : Outline
  generatedFrom : Option (Option GeneratedFrom)

def pointsToJs (points : List Point) : JsValue := .array (points.map Point.toJs)

def numberToJs (value : Decimal) : JsValue := .number (.finite value)

def RectBounds.toProps (bounds : RectBounds) : Props :=
  [("x", bounds.x.map numberToJs), ("y", bounds.y.map numberToJs),
    ("w", bounds.w.map numberToJs), ("h", bounds.h.map numberToJs)]

def IslandGeometry.toJs : IslandGeometry → JsValue
  | .rect bounds =>
      .object (("type", some (.string "rect")) :: (bounds.map RectBounds.toProps).getD [])
  | .polygon points =>
      .object [("type", some (.string "polygon")), ("points", some (pointsToJs points))]

def GeneratedFrom.toJs (generatedFrom : GeneratedFrom) : JsValue :=
  .object [("cardIds", some (textArray generatedFrom.cardIds)),
    ("versionToken", some (.string generatedFrom.versionToken))]

def Outline.toProps : Outline → Props
  | .rect => [("kind", some (.string "rect"))]
  | .polygon points =>
      [("kind", some (.string "polygon")), ("points", some (pointsToJs points))]

def IslandShape.toJs (shape : IslandShape) : JsValue :=
  .object (shape.outline.toProps ++
    shape.generatedFrom.toList.map fun generatedFrom =>
      ("generatedFrom", generatedFrom.map GeneratedFrom.toJs))

/-- The elements of the first of two values that is an array. -/
def rawPoints (value : Props) : List JsValue :=
  match value.get "points", ((value.get "polygon").map JsValue.props).bind (Props.get · "points") with
  | some (.array points), _ => points
  | _, some (.array points) => points
  | _, _ => []

section Islands

variable (platform : Platform)

def parseIslandGeometry (value : JsValue) : Option IslandGeometry :=
  let geometry := value.props
  if geometry.get "type" = some (.string "rect") then
    let bound (key : String) := (geometry.get key).bind toNumber
    some (.rect (some ⟨bound "x", bound "y", bound "w", bound "h"⟩))
  else if geometry.get "type" = some (.string "polygon") then
    let points := (rawPoints geometry).filterMap readPoint
    if canUsePolygonPoints platform points then some (.polygon points) else none
  else none

/-- `generatedFrom`, unless it is incomplete. -/
def parseGeneratedFrom (value : JsValue) : Option GeneratedFrom :=
  match value.props.get "cardIds", value.props.string? "versionToken" with
  | some (.array cardIds), some versionToken =>
      some ⟨cardIds.filterMap JsValue.string?, versionToken⟩
  | _, _ => none

def parseIslandShape (value : JsValue) : Option IslandShape :=
  let shape := value.props
  let generatedFrom := (shape.get "generatedFrom").bind parseGeneratedFrom
  if shape.get "kind" = some (.string "rect") then some ⟨.rect, some generatedFrom⟩
  else if shape.get "kind" = some (.string "polygon") then
    match shape.get "points" with
    | some (.array points) =>
        let points := points.filterMap readPoint
        if canUsePolygonPoints platform points then some ⟨.polygon points, some generatedFrom⟩
        else none
    | _ => none
  else none

def shapeOfGeometry : Option IslandGeometry → IslandShape
  | some (.polygon points) => ⟨.polygon points, none⟩
  | some (.rect _) | none => ⟨.rect, none⟩

def geometryOfShape (shape : IslandShape) : IslandGeometry :=
  match shape.outline with
  | .polygon points => .polygon points
  | .rect => .rect none

def normalizeOutline (geometry : Option IslandGeometry) (shape : Option IslandShape) :
    IslandGeometry × IslandShape :=
  let shape := shape.getD (shapeOfGeometry geometry)
  (geometry.getD (geometryOfShape shape), shape)

def summaryHistoryEntryProperties : List Property := [
  must "id" text,
  must "createdAt" text,
  must "fromText" (orNull Shape.string),
  must "toText" (orNull Shape.string),
  must "fromReviewed" (orNull Shape.boolean),
  must "toReviewed" (orNull Shape.boolean),
  must "changeKind" (literal ["manual", "ai", "import", "unknown"]),
  spreading "note" text,
  spreading "groundingIds" texts]

def parseSummaryHistoryEntry : Reader := record summaryHistoryEntryProperties

def parseSummaryHistory : Reader := someItems parseSummaryHistoryEntry

def representativeCueProperties (canHaveImageRef : Bool) : List Property := [
  must "kind" (literal ["hand_drawn", "user_image", "preset_svg", "emoji"]),
  must "cueId" text,
  must "altText" text,
  spreading "imageRef" (ofShape fun value => canHaveImageRef && Shape.string value)]

/-- Only drawings and images of the user have a reference to an image. -/
def canHaveImageRef (cue : JsValue) : Bool :=
  isOneOf ["hand_drawn", "user_image"] (cue.props.get "kind")

def parseRepresentativeCue : Reader := fun value =>
  record (representativeCueProperties (canHaveImageRef value)) value

/-- The properties of an island that stand before its geometry. -/
def islandHeadProperties : List Property := [
  must "id" text,
  must "cardIds" texts,
  may "parentIslandId" text,
  may "placardCardId" text,
  orElse "collapsed" boolean (.bool false),
  may "title" text,
  may "titleReviewed" boolean,
  may "summaryText" text,
  may "summaryReviewed" boolean,
  may "summaryGrounding" texts,
  may "summaryHistory" parseSummaryHistory,
  may "imageUrl" text,
  may "imageReviewed" boolean,
  may "critique" text,
  may "critiqueTags" parseCritiqueTags]

def islandTailProperties : List Property := [
  may "shapeStale" boolean,
  may "representativeCue" parseRepresentativeCue]

def islandProperties (outline : IslandGeometry × IslandShape) : List Property :=
  islandHeadProperties ++
    [always "geometry" (some outline.1.toJs), always "shape" (some outline.2.toJs)] ++
    islandTailProperties

def outlineOf (island : Props) : IslandGeometry × IslandShape :=
  normalizeOutline ((island.get "geometry").bind (parseIslandGeometry platform))
    ((island.get "shape").bind (parseIslandShape platform))

/-- An island, before its parent is looked up. -/
def parseIsland : Reader := fun value =>
  record (islandProperties (outlineOf platform value.props)) value

end Islands

/-- A text that is neither missing nor empty. -/
def truthy (text : Option String) : Option String := text.filter fun text => decide (text ≠ "")

def parentIslandId (island : JsValue) : Option String := island.props.string? "parentIslandId"

/-- `islandsById`: the last island of each id. -/
def islandsById (islands : List JsValue) : InsertionMap String JsValue :=
  .ofList (islands.filterMap fun island => (island.props.string? "id").map fun id => (id, island))

def parentOf (islands : List JsValue) (id : String) : Option (Option String) :=
  ((islandsById islands).get? id).map fun island => truthy (parentIslandId island)

/-- The parent of an island, unless following the parents from it leads to a
missing island or back. -/
def resolveParentIslandId (islands : List JsValue) (islandId : String)
    (parentIslandId : Option String) : Option String :=
  if follow (parentOf islands) islands.length [islandId] (truthy parentIslandId) then
    truthy parentIslandId
  else none

def resolveParent (islands : List JsValue) (island : JsValue) : JsValue :=
  let islandId := (island.props.string? "id").getD ""
  let resolved := resolveParentIslandId islands islandId (parentIslandId island)
  if resolved = parentIslandId island then island
  else .object (island.props.put "parentIslandId" (resolved.map .string))

def parseIslands (platform : Platform) : Reader
  | .array values =>
      let islands := values.filterMap (parseIsland platform)
      some (.array (islands.map (resolveParent islands)))
  | _ => none

/-! ## Evidence links -/

def sameText (name : String) (left right : JsValue) : Bool :=
  decide (left.props.string? name = right.props.string? name)

def evidenceLinkProperties (fromCardId : Option JsValue) : List Property := [
  must "id" text,
  must "type" (literal ["supports", "contradicts"]),
  must "fromCardId" text,
  must "toCardId" (ofShape fun value => Shape.string value && !decide (some value = fromCardId)),
  may "note" text,
  may "createdAt" text,
  spreading "contradictionState" (literal ["unconfirmed", "confirmed", "held", "resolved"])]

def parseEvidenceLink : Reader := fun value =>
  record (evidenceLinkProperties (value.props.get "fromCardId")) value

def duplicateKey (link : JsValue) : String :=
  let text (name : String) := (link.props.string? name).getD ""
  text "fromCardId" ++ ":" ++ text "toCardId" ++ ":" ++ text "type"

/-- Whether a link has the id or the key of another one. -/
def sameLink (left right : JsValue) : Bool :=
  sameText "id" left right || decide (duplicateKey left = duplicateKey right)

def parseEvidenceLinks : Reader := distinctItems sameLink parseEvidenceLink

/-! ## The shelf and the voids -/

def shelfEntryProperties (dates : DateFormat) (cardIds : List String) : List Property := [
  must "cardId" (literal cardIds),
  must "shelvedAt" (isoDate dates),
  whenProvided "reason" text]

def parseShelfEntry (dates : DateFormat) (cardIds : List String) : Reader :=
  record (shelfEntryProperties dates cardIds)

def parseShelf (dates : DateFormat) (cardIds : List String) : Reader :=
  someDistinctItems (sameText "cardId") (parseShelfEntry dates cardIds)

def voidKinds : List String :=
  ["unintegrated_card", "orphaned_island", "unspoken_island", "unexplained_relation",
    "unreviewed_content"]

def voidProperties (dates : DateFormat) : List Property := [
  must "id" text,
  must "kind" (literal voidKinds),
  must "title" text,
  must "detail" text,
  spreading "cardIds" texts,
  spreading "islandIds" texts,
  spreading "resolved" boolean,
  must "createdAt" (isoDate dates)]

def parseVoid (dates : DateFormat) : Reader := record (voidProperties dates)

def parseVoids (dates : DateFormat) : Reader :=
  someDistinctItems (sameText "id") (parseVoid dates)

/-! ## Records of reviews -/

def parseCritiqueInputs (dates : DateFormat) : Reader :=
  items (ofShape (validateHilRsCritiqueInput dates))

def parseReproposalDiffs : Reader := items (ofShape validateHilRsRediffPayload)

def parseReviewAttribution (dates : DateFormat) : Reader :=
  ofShape (validateHilRsReviewAttribution dates)

def expectedOrder : List String :=
  ["padding_compliance", "self_intersection_avoidance", "minimum_area_delta",
    "minimum_vertex_count"]

def parseOrder : Reader
  | .array order =>
      if expectedOrder.zipIdx.all fun entry => decide (order[entry.2]? = some (.string entry.1)) then
        some (textArray expectedOrder)
      else none
  | _ => none

def deterministicTieBreakProperties : List Property := [
  must "schemaVersion" (literal ["1.0.0"]),
  must "order" parseOrder]

def parseDeterministicTieBreak : Reader := record deterministicTieBreakProperties

/-! ## Narratives -/

def parseReadingOrder : Reader := someItems text

def count : Reader := ofShape fun
  | .number n => n.isInteger && !n.isNegative
  | _ => false

def narrativeCheckReferenceProperties : List Property := [
  must "id" text,
  must "kind" (literal ["card", "island"])]

def parseNarrativeCheckReference : Reader := record narrativeCheckReferenceProperties

def parseNarrativeCheckDirection : Reader := literal ["b_missing_in_a", "a_missing_in_b"]

def narrativeCheckCountsProperties : List Property := [
  must "bMissingInA" count,
  must "aMissingInB" count]

def parseNarrativeCheckCounts : Reader := record narrativeCheckCountsProperties

def narrativeCheckIssueProperties : List Property := [
  must "severity" (literal ["info", "warn", "error"]),
  must "message" text,
  spreading "references" (items parseNarrativeCheckReference),
  spreading "direction" parseNarrativeCheckDirection]

def parseNarrativeCheckIssue : Reader := record narrativeCheckIssueProperties

def narrativeCheckProperties : List Property := [
  must "id" text,
  must "createdAt" text,
  must "kind" (literal ["consistency"]),
  must "issues" (items parseNarrativeCheckIssue),
  spreading "counts" parseNarrativeCheckCounts]

def parseNarrativeCheck : Reader := record narrativeCheckProperties

def narrativeProperties : List Property := [
  must "id" text,
  must "title" text,
  must "text" text,
  must "reviewed" boolean,
  spreading "createdAt" text,
  spreading "basedOnReadingOrder" texts,
  spreading "checks" (items parseNarrativeCheck)]

def parseNarrative : Reader := record narrativeProperties

def parseNarratives : Reader := someItems parseNarrative

/-! ## Relation summaries -/

def relationSummaryHistoryEntryProperties : List Property := [
  must "id" text,
  must "createdAt" text,
  must "changeKind" (literal ["ai", "manual", "rollback", "import", "unknown"]),
  must "fromText" (orNull Shape.string),
  must "toText" (orNull Shape.string),
  must "fromReviewed" (orNull Shape.boolean),
  must "toReviewed" (orNull Shape.boolean),
  spreading "warningsSnapshot" texts,
  spreading "groundingCardIdsSnapshot" texts,
  spreading "groundingEdgeIdsSnapshot" texts]

def parseRelationSummaryHistoryEntry : Reader := record relationSummaryHistoryEntryProperties

/-- A known relation type, or `"unknown"` for any other text. -/
def relationType : Reader := fun value => value.string?.map fun type =>
  .string (if Schema.knownEdgeTypes.contains type || decide (type = "unknown") then type
    else "unknown")

def relationSummaryProperties : List Property := [
  must "id" text,
  must "createdAt" text,
  must "islandAId" text,
  must "islandBId" text,
  must "relationType" relationType,
  must "derived" boolean,
  must "text" text,
  must "reviewed" boolean,
  must "groundingCardIds" texts,
  must "groundingEdgeIds" texts,
  must "sourceSignature" text,
  spreading "warnings" texts,
  spreading "history" (items parseRelationSummaryHistoryEntry)]

def parseRelationSummary : Reader := record relationSummaryProperties

def parseRelationSummaries : Reader := someItems parseRelationSummary

/-! ## Logs and decisions -/

def patchApplyStatsKeys : List String :=
  ["upsertCards", "deleteCards", "upsertIslands", "deleteIslands", "upsertEdges", "deleteEdges",
    "upsertRelationSummaries", "deleteRelationSummaries", "upsertEvidenceLinks",
    "deleteEvidenceLinks"]

def patchConflictMetaKeys : List String :=
  ["totalConflicts", "chosenYours", "chosenTheirs", "chosenSkip"]

/-- A record of finite numbers. -/
def finiteProperties (keys : List String) : List Property := keys.map fun key => must key finite

def parsePatchApplyStats : Reader := record (finiteProperties patchApplyStatsKeys)

def parsePatchConflictMeta : Reader := record (finiteProperties patchConflictMetaKeys)

def patchApplyLogEntryProperties : List Property := [
  must "id" text,
  must "createdAt" text,
  must "patchVersion" (literal ["1"]),
  must "appliedOpIds" texts,
  must "stats" parsePatchApplyStats,
  spreading "patchTitle" text,
  spreading "baseDocSignature" text,
  spreading "patchSourceSignature" text,
  spreading "conflictMeta" parsePatchConflictMeta,
  spreading "note" text]

def parsePatchApplyLogEntry : Reader := record patchApplyLogEntryProperties

def parsePatchApplyLog : Reader := someItems parsePatchApplyLogEntry

def mergeSuggestionDecision : Reader := literal ["accept", "partial", "reject", "defer"]

def mergeSuggestionDecisionProperties : List Property := [
  must "id" text,
  must "groupId" text,
  must "decision" mergeSuggestionDecision,
  must "decidedAt" text,
  must "cardIds" texts,
  must "mergedTextDraft" text,
  must "editedText" text,
  spreading "decisionId" text,
  spreading "action" mergeSuggestionDecision,
  spreading "decidedBy" text,
  spreading "selectedCardIds" texts,
  spreading "note" text,
  spreading "snapshotVersion" text,
  spreading "rationale" text,
  spreading "mergeMethod" (literal ["near_duplicate", "kernel_fusion"]),
  spreading "representativeCardId" text,
  spreading "representativeResolvedBy"
    (literal ["repOf", "mergedIntoCardId", "fallback", "unresolved"]),
  spreading "sourceCardIds" texts,
  spreading "missingSourceCardIds" texts]

def parseMergeSuggestionDecision : Reader := record mergeSuggestionDecisionProperties

def parseMergeSuggestionDecisions : Reader := someItems parseMergeSuggestionDecision

def contradictionSignalDecisionProperties : List Property := [
  must "signatureKey" nonEmptyText,
  must "status" (literal ["accepted", "held", "rejected"]),
  must "decidedAt" text]

def parseContradictionSignalDecision : Reader := record contradictionSignalDecisionProperties

def parseContradictionSignalDecisions : Reader := someItems parseContradictionSignalDecision

/-! ## Documents -/

section Documents

variable (platform : Platform) (now : String)

def cardIds (cards : List JsValue) : List String := cards.filterMap fun card => card.props.string? "id"

def shelvedCardIds : Option JsValue → List String
  | some (.array entries) => entries.filterMap fun entry => entry.props.string? "cardId"
  | _ => []

def shelveCard (shelved : List String) (card : JsValue) : JsValue :=
  if (card.props.string? "id").any shelved.contains then
    .object (card.props.put "holdState" (some (.string "shelved")))
  else card

/-- The shelf, whose entries name cards that have been read. -/
def shelfOf (value : Props) (cards : List JsValue) : Option JsValue :=
  (value.get "shelf").bind (parseShelf platform.dates (cardIds cards))

def parseIsoDate (value : Option JsValue) (fallback : String) : JsValue :=
  (value.bind (isoDate platform.dates)).getD (.string fallback)

/-- The parts that are read on their own, after the evidence links. -/
def optionalReaders : List (String × Reader) := [
  ("critiqueInputs", parseCritiqueInputs platform.dates),
  ("reproposalDiffs", parseReproposalDiffs),
  ("reviewAttribution", parseReviewAttribution platform.dates),
  ("deterministicTieBreak", parseDeterministicTieBreak),
  ("readingOrder", parseReadingOrder),
  ("narratives", parseNarratives),
  ("relationSummaries", parseRelationSummaries),
  ("patchApplyLog", parsePatchApplyLog),
  ("mergeSuggestionDecisions", parseMergeSuggestionDecisions),
  ("contradictionSignalDecisions", parseContradictionSignalDecisions)]

def documentSlots (value : Props) (transform : JsValue) (cards : List JsValue) : List Slot :=
  let shelf := shelfOf platform value cards
  [⟨"version", false, some (.number .one)⟩,
    ⟨"id", false, value.get "id"⟩,
    ⟨"title", false, (value.get "title").bind text⟩,
    ⟨"createdAt", false, some (parseIsoDate platform (value.get "createdAt") now)⟩,
    ⟨"updatedAt", false, some (parseIsoDate platform (value.get "updatedAt") now)⟩,
    ⟨"transform", false, some transform⟩,
    ⟨"cards", false, some (.array (cards.map (shelveCard (shelvedCardIds shelf))))⟩,
    ⟨"edges", false, (value.get "edges").bind parseEdges⟩,
    ⟨"islands", false, (value.get "islands").bind (parseIslands platform)⟩,
    ⟨"evidenceLinks", false,
      some (((value.get "evidenceLinks").bind parseEvidenceLinks).getD (.array []))⟩] ++
  ((optionalReaders platform).map fun entry =>
    ⟨entry.1, true, (value.get entry.1).bind entry.2⟩) ++
  [⟨"shelf", true, shelf⟩,
    ⟨"voids", true, (value.get "voids").bind (parseVoids platform.dates)⟩]

def isArray : Option JsValue → Bool
  | some (.array _) => true
  | _ => false

def validateImportedDocument (value : JsValue) : Except String JsValue :=
  let document := value.props
  if !value.isRecord then .error "Imported data must be a JSON object."
  else if !document.hasOwn "version" then .error "Document version is required."
  else if document.get "version" ≠ some (.number .one) then
    .error "Unsupported document version. Only numeric version 1 is supported."
  else if !(["id", "transform", "cards", "edges", "islands"].all document.hasOwn) then
    .error "Document must include id, transform, cards, edges, and islands."
  else if (document.string? "id").isNone then .error "Document id must be a string."
  else
    match (document.get "transform").bind parseTransform with
    | none => .error "Document transform must include numeric panX, panY, and zoom."
    | some transform =>
        match (document.get "cards").bind parseCards with
        | none => .error "Document cards must be an array of \x7bid, text, x, y\x7d."
        | some cards =>
            if !isArray (document.get "edges") then .error "Document edges must be an array."
            else if !isArray (document.get "islands") then .error "Document islands must be an array."
            else .ok (.object (literalProps (documentSlots platform now document transform cards)))

end Documents

/-! ## What is accepted -/

section Accepted

variable {platform : Platform} {now : String}

/-- What the importer asks of a document, and the parts that must be read. -/
structure Accepted (value transform : JsValue) (cards : List JsValue) : Prop where
  isRecord : value.isRecord = true
  version : value.props.get "version" = some (.number .one)
  id : ∃ id, value.props.get "id" = some (.string id)
  transform : (value.props.get "transform").bind parseTransform = some transform
  cards : (value.props.get "cards").bind parseCards = some cards
  edges : ∃ edges, value.props.get "edges" = some (.array edges)
  islands : ∃ islands, value.props.get "islands" = some (.array islands)

theorem isArray_iff {value : Option JsValue} :
    isArray value = true ↔ ∃ items, value = some (.array items) := by
  unfold isArray
  split <;> simp_all

theorem hasOwn_of_get {props : Props} {key : String} {value : JsValue}
    (hget : props.get key = some value) : props.hasOwn key = true := by
  by_contra hown
  rw [Bool.not_eq_true] at hown
  rw [Props.get_eq_none_of_hasOwn hown] at hget
  contradiction

theorem get_of_string? {props : Props} {key text : String} (htext : props.string? key = some text) :
    props.get key = some (.string text) := by
  obtain ⟨value, hget, htext⟩ := Option.bind_eq_some_iff.mp htext
  cases value with
  | string s =>
      rw [hget, ← Option.some.inj htext]
  | _ => contradiction

theorem validateImportedDocument_eq_ok {value document : JsValue} :
    validateImportedDocument platform now value = .ok document ↔
      ∃ transform cards, Accepted value transform cards ∧
        document = .object (literalProps (documentSlots platform now value.props transform cards)) := by
  unfold validateImportedDocument
  constructor
  · intro hok
    dsimp only at hok
    iterate 5
      split at hok
      · contradiction
    next hrecord _ hversion _ hid =>
      split at hok
      · contradiction
      next transform htransform =>
        split at hok
        · contradiction
        next cards hcards =>
          split at hok
          · contradiction
          next hedges =>
            split at hok
            · contradiction
            next hislands =>
              simp only [Bool.not_eq_true', Bool.not_eq_false] at hrecord hedges hislands
              rw [Bool.not_eq_true, Option.isNone_eq_false_iff, Option.isSome_iff_exists] at hid
              obtain ⟨id, hid⟩ := hid
              exact ⟨transform, cards, ⟨hrecord, not_not.mp hversion, ⟨id, get_of_string? hid⟩,
                htransform, hcards, isArray_iff.mp hedges, isArray_iff.mp hislands⟩,
                (Except.ok.inj hok).symm⟩
  · rintro ⟨transform, cards, haccepted, rfl⟩
    obtain ⟨id, hid⟩ := haccepted.id
    obtain ⟨edges, hedges⟩ := haccepted.edges
    obtain ⟨islands, hislands⟩ := haccepted.islands
    obtain ⟨_, htransform, -⟩ := Option.bind_eq_some_iff.mp haccepted.transform
    obtain ⟨_, hcards, -⟩ := Option.bind_eq_some_iff.mp haccepted.cards
    have htext : value.props.string? "id" = some id := by
      rw [Props.string?, hid]
      rfl
    simp [haccepted.isRecord, hasOwn_of_get haccepted.version, haccepted.version,
      hasOwn_of_get hid, hasOwn_of_get htransform, hasOwn_of_get hcards, hasOwn_of_get hedges,
      hasOwn_of_get hislands, htext, haccepted.transform, haccepted.cards, hedges, hislands,
      isArray]

theorem names_documentSlots (value : Props) (transform : JsValue) (cards : List JsValue) :
    (documentSlots platform now value transform cards).map Slot.name =
      ["version", "id", "title", "createdAt", "updatedAt", "transform", "cards", "edges",
        "islands", "evidenceLinks", "critiqueInputs", "reproposalDiffs", "reviewAttribution",
        "deterministicTieBreak", "readingOrder", "narratives", "relationSummaries",
        "patchApplyLog", "mergeSuggestionDecisions", "contradictionSignalDecisions", "shelf",
        "voids"] := rfl

theorem nodup_documentSlots (value : Props) (transform : JsValue) (cards : List JsValue) :
    ((documentSlots platform now value transform cards).map Slot.name).Nodup := by
  rw [names_documentSlots]
  decide

/-- What stands in an imported document. -/
theorem get_document {value : Props} {transform : JsValue} {cards : List JsValue} (slot : Slot)
    (hslot : slot ∈ documentSlots platform now value transform cards) :
    (literalProps (documentSlots platform now value transform cards)).get slot.name = slot.value :=
  get_literalProps (nodup_documentSlots value transform cards) hslot

/-- What stands in an imported document. -/
structure DocumentParts (platform : Platform) (now : String) (value : Props) (view : JsValue)
    (parsed : List JsValue) (document : Props) : Prop where
  version : document.get "version" = some (.number .one)
  id : document.get "id" = value.get "id"
  title : document.get "title" = (value.get "title").bind text
  createdAt : document.get "createdAt" =
    some (parseIsoDate platform (value.get "createdAt") now)
  updatedAt : document.get "updatedAt" =
    some (parseIsoDate platform (value.get "updatedAt") now)
  transform : document.get "transform" = some view
  cards : document.get "cards" =
    some (.array (parsed.map (shelveCard (shelvedCardIds (shelfOf platform value parsed)))))
  edges : document.get "edges" = (value.get "edges").bind parseEdges
  islands : document.get "islands" = (value.get "islands").bind (parseIslands platform)
  evidenceLinks : document.get "evidenceLinks" =
    some (((value.get "evidenceLinks").bind parseEvidenceLinks).getD (.array []))
  shelf : document.get "shelf" = shelfOf platform value parsed
  voids : document.get "voids" = (value.get "voids").bind (parseVoids platform.dates)
  optional : ∀ entry ∈ optionalReaders platform,
    document.get entry.1 = (value.get entry.1).bind entry.2

theorem documentParts (value : Props) (transform : JsValue) (cards : List JsValue) :
    DocumentParts platform now value transform cards
      (literalProps (documentSlots platform now value transform cards)) where
  version := get_document ⟨"version", false, some (.number .one)⟩ (by simp [documentSlots])
  id := get_document ⟨"id", false, value.get "id"⟩ (by simp [documentSlots])
  title := get_document ⟨"title", false, (value.get "title").bind text⟩ (by simp [documentSlots])
  createdAt := get_document ⟨"createdAt", false, some _⟩ (by simp [documentSlots])
  updatedAt := get_document ⟨"updatedAt", false, some _⟩ (by simp [documentSlots])
  transform := get_document ⟨"transform", false, some transform⟩ (by simp [documentSlots])
  cards := get_document ⟨"cards", false, some _⟩ (by simp [documentSlots])
  edges := get_document ⟨"edges", false, (value.get "edges").bind parseEdges⟩
    (by simp [documentSlots])
  islands := get_document ⟨"islands", false, (value.get "islands").bind (parseIslands platform)⟩
    (by simp [documentSlots])
  evidenceLinks := get_document ⟨"evidenceLinks", false, some _⟩ (by simp [documentSlots])
  shelf := @get_document platform now value transform cards
    ⟨"shelf", true, shelfOf platform value cards⟩ (by simp [documentSlots])
  voids := get_document ⟨"voids", true, (value.get "voids").bind (parseVoids platform.dates)⟩
    (by simp [documentSlots])
  optional entry hentry := by
    apply get_document ⟨entry.1, true, (value.get entry.1).bind entry.2⟩
    simp only [documentSlots, List.mem_append]
    exact Or.inl (Or.inr (List.mem_map_of_mem hentry))

end Accepted

end Importer

end KjAtlas
