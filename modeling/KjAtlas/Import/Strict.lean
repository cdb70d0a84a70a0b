import KjAtlas.Import.Importer

/-! # The strict check of documents

The gate for snapshots in inquiry bundles. A record may only have the
properties that are listed for it, and each of them is checked; nothing is
repaired. The errors are reported in the order of the checks.
-/

namespace KjAtlas

open Js

namespace Strict

/-! ## Checks -/

/-- What a check reports about a record that stands under a path. -/
abbrev Check := String → Props → List String

def report (ok : Bool) (error : String) : List String := if ok then [] else [error]

def finite : Shape := fun value => value.finite?.isSome

def must (key : String) (shape : Shape) (message : String) : Check := fun path props =>
  report ((props.get key).any shape) (path ++ "." ++ key ++ ": " ++ message)

def may (key : String) (shape : Shape) (message : String) : Check := fun path props =>
  report ((props.get key).all shape) (path ++ "." ++ key ++ ": " ++ message)

abbrev mustBeString (key : String) : Check := must key Shape.string "must be a string"

abbrev mayBeString (key : String) : Check := may key Shape.string "must be a string when provided"

abbrev mustBeBoolean (key : String) : Check := must key Shape.boolean "must be a boolean"

abbrev mayBeBoolean (key : String) : Check := may key Shape.boolean "must be a boolean when provided"

abbrev mustBeFinite (key : String) : Check := must key finite "must be a finite number"

abbrev mayBeFinite (key : String) : Check := may key finite "must be a finite number when provided"

/-- `value.length`, in code units. -/
def textLength (text : String) : Nat := (codeUnits text).length

/-- Whether a value is no text beyond a bound. -/
def isWithin (bound : Nat) (value : JsValue) : Bool :=
  value.string?.all fun text => decide (textLength text ≤ bound)

/-- The bound on the length of a text. -/
abbrev within (key : String) (bound : Nat) : Check :=
  may key (isWithin bound) ("must be ≤ " ++ toString bound ++ " chars")

/-- The reports about the elements of an array. -/
def forEach (items : List JsValue) (validate : JsValue → Nat → List String) : List String :=
  (items.mapIdx fun index item => validate item index).flatten

def validateStringArray (value : Option JsValue) (path : String) : List String :=
  match value with
  | some (.array items) => forEach items fun item index =>
      report (Shape.string item) (path ++ "[" ++ toString index ++ "]: must be a string")
  | _ => [path ++ ": must be an array of strings"]

def mustBeStrings (key : String) : Check := fun path props =>
  validateStringArray (props.get key) (path ++ "." ++ key)

def whenProvided (key : String) (validate : JsValue → String → List String) : Check :=
  fun path props => ((props.get key).map fun value => validate value (path ++ "." ++ key)).getD []

def mayBeStrings (key : String) : Check :=
  whenProvided key fun value path => validateStringArray (some value) path

def validateRecord (keys : List String) (checks : List Check) (message : String) (item : JsValue)
    (path : String) : List String :=
  if item.isRecord then
    hasOnlyKeys item keys path ++ checks.flatMap fun check => check path item.props
  else [path ++ ": " ++ message]

def validateEntity (keys : List String) (checks : List Check) (item : JsValue) (path : String) :
    List String := validateRecord keys checks "must be an object" item path

abbrev mayBeRecord (key : String) (keys : List String) (checks : List Check) : Check :=
  whenProvided key (validateRecord keys checks "must be an object when provided")

def elementPath (name : String) (index : Nat) : String := name ++ "[" ++ toString index ++ "]"

/-! ## Cards and edges -/

def cardTextMaxLength : Nat := 2000
def critiqueMaxLength : Nat := 2000

def cardKeys : List String :=
  ["id", "text", "x", "y", "claimType", "mergedIntoCardId", "repOf", "canonicalId", "sources",
    "critique", "critiqueTags", "textReviewed", "holdState", "meta", "ka"]

def cardChecks : List Check := [
  mustBeString "id",
  mustBeString "text",
  within "text" cardTextMaxLength,
  within "critique" critiqueMaxLength,
  mustBeFinite "x",
  mustBeFinite "y",
  mayBeString "canonicalId",
  mayBeString "mergedIntoCardId",
  may "claimType" (Shape.literals ["fact", "claim", "hypothesis", "unknown"])
    "must be 'fact' | 'claim' | 'hypothesis' | 'unknown' when provided",
  mayBeStrings "repOf",
  mayBeStrings "sources",
  mayBeString "critique",
  mayBeStrings "critiqueTags",
  mayBeBoolean "textReviewed",
  may "holdState" (Shape.literals ["held", "pending", "shelved"])
    "must be 'held' | 'pending' | 'shelved' when provided",
  mayBeRecord "meta" ["seq", "source"] [mayBeFinite "seq", mayBeString "source"],
  mayBeRecord "ka" ["voice", "value"] [mayBeString "voice", mayBeString "value"]]

def validateCard (item : JsValue) (index : Nat) : List String :=
  validateEntity cardKeys cardChecks item (elementPath "cards" index)

/-- `typeof value === "string" && value.length > 0`. -/
def nonEmptyText : Shape := fun value => value.string?.any fun text => decide (text ≠ "")

def edgeKeys : List String := ["id", "fromId", "toId", "fromKind", "toKind", "type"]

def edgeChecks : List Check := [
  mustBeString "id",
  mustBeString "fromId",
  mustBeString "toId",
  may "fromKind" (Shape.literals ["card", "island"]) "must be 'card' or 'island' when provided",
  may "toKind" (Shape.literals ["card", "island"]) "must be 'card' or 'island' when provided",
  must "type" nonEmptyText "must be a non-empty string"]

def validateEdge (item : JsValue) (index : Nat) : List String :=
  validateEntity edgeKeys edgeChecks item (elementPath "edges" index)

/-! ## Islands -/

def pointErrors (point : JsValue) (path : String) : List String × List String :=
  if point.isRecord then
    (hasOnlyKeys point ["x", "y"] path,
      mustBeFinite "x" path point.props ++ mustBeFinite "y" path point.props)
  else ([], [path ++ ": must be an object"])

section Islands

variable (platform : Platform)

/-- The errors of the points of a polygon. Whether the polygon meets itself is
only asked of valid points. -/
def validatePoints (points : List JsValue) (path : String) : List String :=
  let errors := forEach points fun point index =>
    let (unknown, invalid) := pointErrors point (path ++ "[" ++ toString index ++ "]")
    unknown ++ invalid
  let valid := points.all fun point => (pointErrors point "").2.isEmpty
  errors ++ report (!valid || canUsePolygonPoints platform (points.filterMap readPoint))
    (path ++ ": polygon must not self-intersect")

/-- `Array.isArray(value.points) ? value.points : value.polygon?.points`, if
there are at least three. -/
def polygonPoints (value : Props) : Option (List JsValue) :=
  let points := Importer.rawPoints value
  if 3 ≤ points.length then some points else none

def validateIslandGeometry (value : JsValue) (path : String) : List String :=
  if value.isRecord then
    let geometry := value.props
    hasOnlyKeys value ["type", "x", "y", "w", "h", "points", "polygon"] path ++
      if isOneOf ["polygon"] (geometry.get "type") then
        match polygonPoints geometry with
        | some points => validatePoints platform points (path ++ ".points")
        | none => [path ++ ".points: must contain at least 3 points for polygon"]
      else if isOneOf ["rect"] (geometry.get "type") then
        report ((geometry.get "points").isNone && (geometry.get "polygon").isNone)
          (path ++ ".points: rect geometry must not include polygon points") ++
        ["x", "y", "w", "h"].flatMap fun key => mayBeFinite key path geometry
      else [path ++ ".type: must be 'rect' or 'polygon'"]
  else [path ++ ": must be an object"]

def generatedFromChecks : List Check := [
  mustBeStrings "cardIds",
  mustBeString "versionToken"]

def validateIslandShape (value : JsValue) (path : String) : List String :=
  if value.isRecord then
    let shape := value.props
    hasOnlyKeys value ["kind", "points", "generatedFrom"] path ++
      if isOneOf ["rect", "polygon"] (shape.get "kind") then
        (if isOneOf ["polygon"] (shape.get "kind") then
          match shape.get "points" with
          | some (.array points) =>
              if 3 ≤ points.length then validatePoints platform points (path ++ ".points")
              else [path ++ ".points: must contain at least 3 points for polygon"]
          | _ => [path ++ ".points: must contain at least 3 points for polygon"]
        else report (shape.get "points").isNone
          (path ++ ".points: rect shape must not include points")) ++
        whenProvided "generatedFrom"
          (validateEntity ["cardIds", "versionToken"] generatedFromChecks) path shape
      else [path ++ ".kind: must be 'rect' or 'polygon'"]
  else [path ++ ": must be an object"]

def islandTitleMaxLength : Nat := 500
def islandSummaryMaxLength : Nat := 2000

def islandKeys : List String :=
  ["id", "cardIds", "parentIslandId", "placardCardId", "collapsed", "title", "titleReviewed",
    "summaryText", "summaryReviewed", "summaryGrounding", "summaryHistory", "imageUrl",
    "imageReviewed", "critique", "critiqueTags", "geometry", "shape", "shapeStale",
    "representativeCue"]

def islandChecks : List Check := [
  mustBeString "id",
  mustBeStrings "cardIds",
  mayBeString "parentIslandId",
  mayBeString "placardCardId",
  within "title" islandTitleMaxLength,
  within "summaryText" islandSummaryMaxLength,
  mayBeBoolean "collapsed",
  mayBeString "title",
  mayBeBoolean "titleReviewed",
  mayBeString "summaryText",
  mayBeBoolean "summaryReviewed",
  mayBeStrings "summaryGrounding",
  mayBeString "imageUrl",
  mayBeBoolean "imageReviewed",
  mayBeString "critique",
  mayBeStrings "critiqueTags",
  whenProvided "geometry" (validateIslandGeometry platform),
  whenProvided "shape" (validateIslandShape platform),
  mayBeBoolean "shapeStale",
  mayBeRecord "representativeCue" ["kind", "cueId", "altText", "imageRef"] [
    must "kind" (Shape.literals ["hand_drawn", "user_image", "preset_svg", "emoji"])
      "must be 'hand_drawn' | 'user_image' | 'preset_svg' | 'emoji'",
    mustBeString "cueId",
    mustBeString "altText",
    mayBeString "imageRef"]]

def validateIsland (item : JsValue) (index : Nat) : List String :=
  validateEntity islandKeys (islandChecks platform) item (elementPath "islands" index)

end Islands

/-! ## Relation summaries and logs -/

def relationSummaryKeys : List String :=
  ["id", "createdAt", "islandAId", "islandBId", "relationType", "derived", "text", "reviewed",
    "groundingCardIds", "groundingEdgeIds", "warnings", "sourceSignature", "history"]

def relationSummaryChecks : List Check := [
  mustBeString "id",
  mustBeString "createdAt",
  mustBeString "islandAId",
  mustBeString "islandBId",
  must "relationType" (Shape.literals (Schema.knownEdgeTypes ++ ["unknown"]))
    ("must be one of " ++ ", ".intercalate Schema.knownEdgeTypes ++ ", or 'unknown'"),
  mustBeBoolean "derived",
  mustBeString "text",
  mustBeBoolean "reviewed",
  mustBeStrings "groundingCardIds",
  mustBeStrings "groundingEdgeIds",
  mayBeStrings "warnings",
  mustBeString "sourceSignature"]

def validateRelationSummary (item : JsValue) (index : Nat) : List String :=
  validateEntity relationSummaryKeys relationSummaryChecks item
    (elementPath "relationSummaries" index)

def mustBeRecord (key : String) (keys : List String) (checks : List Check) : Check :=
  fun path props => match props.get key with
    | some value => validateEntity keys checks value (path ++ "." ++ key)
    | none => [path ++ "." ++ key ++ ": must be an object"]

def patchApplyLogEntryKeys : List String :=
  ["id", "createdAt", "patchVersion", "patchTitle", "baseDocSignature", "patchSourceSignature",
    "appliedOpIds", "stats", "conflictMeta", "note"]

def patchApplyLogEntryChecks : List Check := [
  mustBeString "id",
  mustBeString "createdAt",
  must "patchVersion" (Shape.literals ["1"]) "must be '1'",
  mayBeString "patchTitle",
  mayBeString "baseDocSignature",
  mayBeString "patchSourceSignature",
  mustBeStrings "appliedOpIds",
  mustBeRecord "stats" Importer.patchApplyStatsKeys (Importer.patchApplyStatsKeys.map mustBeFinite),
  mayBeRecord "conflictMeta" Importer.patchConflictMetaKeys
    (Importer.patchConflictMetaKeys.map mustBeFinite),
  mayBeString "note"]

def validatePatchApplyLogEntry (item : JsValue) (index : Nat) : List String :=
  validateEntity patchApplyLogEntryKeys patchApplyLogEntryChecks item
    (elementPath "patchApplyLog" index)

/-! ## Evidence links -/

def evidenceNoteMaxLength : Nat := 2000

/-- `left === right`: two objects are never the same. -/
def strictEquals : Option JsValue → Option JsValue → Bool
  | some (.array _), _ | some (.object _), _ | some (.number .nan), _ => false
  | left, right => decide (left = right)

def evidenceLinkKeys : List String :=
  ["id", "type", "fromCardId", "toCardId", "note", "createdAt"]

def evidenceLinkChecks : List Check := [
  mustBeString "id",
  must "type" (Shape.literals ["supports", "contradicts"]) "must be 'supports' or 'contradicts'",
  mustBeString "fromCardId",
  mustBeString "toCardId",
  fun path props => report (!strictEquals (props.get "fromCardId") (props.get "toCardId"))
    (path ++ ": self-link is not allowed"),
  mayBeString "note",
  within "note" evidenceNoteMaxLength,
  mayBeString "createdAt"]

/-- The errors of a link, and whether it is checked any further. -/
def validateEvidenceLink (item : JsValue) (index : Nat) : List String × Bool :=
  let path := elementPath "evidenceLinks" index
  if item.isRecord then
    let errors := evidenceLinkChecks.flatMap fun check => check path item.props
    (hasOnlyKeys item evidenceLinkKeys path ++ errors, errors.isEmpty)
  else ([path ++ ": must be an object"], false)

def evidenceLinksErrors : Nat → List String → List String → List JsValue → List String
  | _, _, _, [] => []
  | index, seenIds, seenTuples, item :: items =>
      let path := elementPath "evidenceLinks" index
      let (errors, valid) := validateEvidenceLink item index
      if valid then
        let id := (item.props.string? "id").getD ""
        let tupleKey := Importer.duplicateKey item
        errors ++ report (!seenIds.contains id) (path ++ ".id: duplicate id '" ++ id ++ "'") ++
          report (!seenTuples.contains tupleKey)
            (path ++ ": duplicate link tuple '" ++ tupleKey ++ "'") ++
          evidenceLinksErrors (index + 1) (id :: seenIds) (tupleKey :: seenTuples) items
      else errors ++ evidenceLinksErrors (index + 1) seenIds seenTuples items

/-! ## Records of reviews -/

section Reviews

variable (dates : DateFormat)

def nonBlank : Shape := fun value => isNonEmptyString (some value)

def isoTimestamp : Shape := fun value => isIsoTimestamp dates (some value)

def iteration : Shape := fun value => isIteration (some value)

def a1TargetRef : Shape := fun value => isA1TargetRef (some value)

def targetRefMessage : String :=
  "must start with 'card:', 'island:', 'cluster:', 'edge:', or 'proposal:'"

def critiqueInputKeys : List String :=
  ["schemaVersion", "critiqueId", "targetRef", "critiqueType", "createdAt", "iteration", "comment",
    "constraintHints"]

def critiqueInputChecks : List Check := [
  must "schemaVersion" (Shape.literals ["1.0.0"]) "must be '1.0.0'",
  must "critiqueId" nonBlank "must be a non-empty string",
  must "targetRef" a1TargetRef targetRefMessage,
  must "critiqueType" (Shape.literals hilRsCritiqueTypes) "must be a known A1 critique type",
  must "createdAt" (isoTimestamp dates) "must be an ISO timestamp",
  must "iteration" iteration "must be an integer greater than or equal to 1",
  mayBeString "comment",
  mayBeStrings "constraintHints"]

def validateCritiqueInput (item : JsValue) (index : Nat) : List String :=
  validateEntity critiqueInputKeys (critiqueInputChecks dates) item
    (elementPath "critiqueInputs" index)

/-- An object, or `null`. -/
def payload : Shape
  | .null | .object _ => true
  | _ => false

def reproposalDiffOpChecks : List Check := [
  must "opId" nonBlank "must be a non-empty string",
  must "opType" (Shape.literals hilRsDiffOpTypes)
    "must be 'add' | 'remove' | 'move' | 'regroup' | 'relabel'",
  must "targetRef" a1TargetRef targetRefMessage,
  fun path props => report (props.hasOwn "before") (path ++ ".before: field is required"),
  fun path props => report (props.hasOwn "after") (path ++ ".after: field is required"),
  fun path props => report (!props.hasOwn "before" || (props.get "before").any payload)
    (path ++ ".before: must be an object or null"),
  fun path props => report (!props.hasOwn "after" || (props.get "after").any payload)
    (path ++ ".after: must be an object or null"),
  fun path props => report
    (!(decide (props.get "before" = some .null) && decide (props.get "after" = some .null)))
    (path ++ ": before and after must not both be null"),
  mayBeString "rationale"]

def validateReproposalDiffOp : JsValue → String → List String :=
  validateEntity hilRsDiffOpAllowedKeys reproposalDiffOpChecks

/-- The operations, of which there must be some. -/
def validateDiffOps (ops : Option JsValue) (path : String) : List String :=
  match ops with
  | some (.array (op :: ops)) => forEach (op :: ops) fun op index =>
      validateReproposalDiffOp op (elementPath path index)
  | _ => [path ++ ": must be a non-empty array"]

def reproposalDiffChecks : List Check := [
  must "schemaVersion" (Shape.literals ["1.0.0"]) "must be '1.0.0'",
  must "proposalId" nonBlank "must be a non-empty string",
  must "basedOnIteration" iteration "must be an integer greater than or equal to 1",
  must "traceKey" nonBlank "must be a non-empty string",
  mayBeString "rationale",
  fun path props => validateDiffOps (props.get "diffOps") (path ++ ".diffOps")]

def validateReproposalDiff (item : JsValue) (index : Nat) : List String :=
  validateEntity hilRsRediffAllowedKeys reproposalDiffChecks item
    (elementPath "reproposalDiffs" index)

def nonOpaqueRefPrefixes : List String := ["sso:", "oidc:", "saml:", "provider:"]

def isOpaqueRef (value : String) : Bool :=
  !value.toList.contains '@' &&
    !nonOpaqueRefPrefixes.any fun start => start.toList.isPrefixOf value.toList

/-- No text that shows who is meant. -/
def opaqueRef : Shape := fun value => value.string?.all isOpaqueRef

def opaqueMessage : String := "must not contain email-like/provider identifiers"

def reviewAttributionChecks : List Check := [
  must "schemaVersion" (Shape.literals ["1.0.0"]) "must be '1.0.0'",
  must "reviewState" (Shape.literals hilRsReviewStates) "must be 'unreviewed' or 'human_reviewed'",
  must "reviewerRef" nonBlank "must be a non-empty opaque string",
  fun path props => if isNonEmptyString (props.get "reviewerRef") then
    may "reviewerRef" opaqueRef opaqueMessage path props else [],
  must "auditRecordedAt" (isoTimestamp dates) "must be an ISO timestamp",
  must "overridePolicy" (Shape.literals ["human_dual_control_only"])
    "must be 'human_dual_control_only'",
  mayBeString "reviewContext",
  mayBeString "ownerRef",
  may "ownerRef" opaqueRef opaqueMessage,
  fun path props => if isOneOf ["human_reviewed"] (props.get "reviewState") then
    must "reviewedAt" (isoTimestamp dates)
      "must be an ISO timestamp when reviewState is 'human_reviewed'" path props else [],
  fun path props => if isOneOf ["unreviewed"] (props.get "reviewState") then
    must "reviewedAt" Shape.null "must be null when reviewState is 'unreviewed'" path props else []]

def validateReviewAttribution (item : JsValue) : List String :=
  validateEntity hilRsAttributionAllowedKeys (reviewAttributionChecks dates) item
    "reviewAttribution"

end Reviews

def validateOrder (order : Option JsValue) (path : String) : List String :=
  match order with
  | some (.array order) =>
      if order.length = Importer.expectedOrder.length then
        (Importer.expectedOrder.zipIdx.map fun entry =>
          report (decide (order[entry.2]? = some (.string entry.1)))
            (elementPath path entry.2 ++ ": must be '" ++ entry.1 ++ "'")).flatten
      else [path ++ ": must contain the fixed deterministic order"]
  | _ => [path ++ ": must contain the fixed deterministic order"]

def validateDeterministicTieBreak (item : JsValue) : List String :=
  validateEntity ["schemaVersion", "order"]
    [must "schemaVersion" (Shape.literals ["1.0.0"]) "must be '1.0.0'",
      fun path props => validateOrder (props.get "order") (path ++ ".order")]
    item "deterministicTieBreak"

/-! ## Decisions and narratives -/

def decisionLiterals : Shape := Shape.literals ["accept", "partial", "reject", "defer"]

def mergeSuggestionDecisionEntryKeys : List String :=
  ["id", "decisionId", "groupId", "decision", "action", "decidedAt", "decidedBy", "cardIds",
    "selectedCardIds", "mergedTextDraft", "editedText", "note", "snapshotVersion", "rationale",
    "mergeMethod", "representativeCardId", "representativeResolvedBy", "sourceCardIds",
    "missingSourceCardIds"]

def mergeSuggestionDecisionEntryChecks : List Check := [
  mustBeString "id",
  mustBeString "groupId",
  mayBeString "decisionId",
  must "decision" decisionLiterals "must be 'accept' | 'partial' | 'reject' | 'defer'",
  may "action" decisionLiterals "must be 'accept' | 'partial' | 'reject' | 'defer' when provided",
  mustBeString "decidedAt",
  mayBeString "decidedBy",
  mustBeStrings "cardIds",
  mayBeStrings "selectedCardIds",
  mustBeString "mergedTextDraft",
  mustBeString "editedText",
  mayBeString "note",
  mayBeString "snapshotVersion",
  mayBeString "rationale",
  may "mergeMethod" (Shape.literals ["near_duplicate", "kernel_fusion"])
    "must be 'near_duplicate' | 'kernel_fusion' when provided",
  mayBeString "representativeCardId",
  may "representativeResolvedBy"
    (Shape.literals ["repOf", "mergedIntoCardId", "fallback", "unresolved"])
    "must be 'repOf' | 'mergedIntoCardId' | 'fallback' | 'unresolved' when provided",
  mayBeStrings "sourceCardIds",
  mayBeStrings "missingSourceCardIds"]

def validateMergeSuggestionDecisionEntry (item : JsValue) (index : Nat) : List String :=
  validateEntity mergeSuggestionDecisionEntryKeys mergeSuggestionDecisionEntryChecks item
    (elementPath "mergeSuggestionDecisions" index)

def contradictionSignalDecisionEntryChecks : List Check := [
  must "signatureKey" nonEmptyText "must be a non-empty string",
  must "status" (Shape.literals ["accepted", "held", "rejected"])
    "must be 'accepted' | 'held' | 'rejected'",
  mustBeString "decidedAt"]

def validateContradictionSignalDecisionEntry (item : JsValue) (index : Nat) : List String :=
  validateEntity ["signatureKey", "status", "decidedAt"] contradictionSignalDecisionEntryChecks
    item (elementPath "contradictionSignalDecisions" index)

def narrativeTitleMaxLength : Nat := 500
def narrativeTextMaxLength : Nat := 20000

def narrativeKeys : List String :=
  ["id", "title", "text", "createdAt", "basedOnReadingOrder", "reviewed", "checks"]

def narrativeChecks : List Check := [
  mustBeString "id",
  mustBeString "title",
  within "title" narrativeTitleMaxLength,
  mustBeString "text",
  within "text" narrativeTextMaxLength,
  mayBeString "createdAt",
  mayBeStrings "basedOnReadingOrder",
  mustBeBoolean "reviewed"]

def validateNarrative (item : JsValue) (index : Nat) : List String :=
  validateEntity narrativeKeys narrativeChecks item (elementPath "narratives" index)

/-! ## Documents -/

section Documents

variable (platform : Platform)

def documentTitleMaxLength : Nat := 500

def documentKeys : List String :=
  ["version", "id", "title", "createdAt", "updatedAt", "transform", "cards", "edges", "islands",
    "readingOrder", "narratives", "relationSummaries", "evidenceLinks", "patchApplyLog",
    "mergeSuggestionDecisions", "contradictionSignalDecisions", "critiqueInputs",
    "reproposalDiffs", "reviewAttribution", "deterministicTieBreak", "shelf"]

def mustBeArray (key : String) (validate : JsValue → Nat → List String) : Check :=
  fun path props => match props.get key with
    | some (.array items) => forEach items validate
    | _ => [path ++ "." ++ key ++ ": must be an array"]

def mayBeArray (key : String) (validate : List JsValue → List String) : Check :=
  whenProvided key fun value path => match value with
    | .array items => validate items
    | _ => [path ++ ": must be an array when provided"]

def documentChecks : List Check := [
  must "version" (fun value => decide (value = .number .one))
    "must be the number 1 (DocumentV1 only)",
  mustBeString "id",
  mayBeString "title",
  within "title" documentTitleMaxLength,
  mustBeString "createdAt",
  mustBeString "updatedAt",
  mustBeRecord "transform" ["panX", "panY", "zoom"]
    [mustBeFinite "panX", mustBeFinite "panY", mustBeFinite "zoom"],
  mustBeArray "cards" validateCard,
  mustBeArray "edges" validateEdge,
  mustBeArray "islands" (validateIsland platform),
  mayBeStrings "readingOrder",
  mayBeArray "narratives" (forEach · validateNarrative),
  fun _ props => shelfErrors platform.dates props,
  mayBeArray "relationSummaries" (forEach · validateRelationSummary),
  mayBeArray "evidenceLinks" (evidenceLinksErrors 0 [] []),
  mayBeArray "patchApplyLog" (forEach · validatePatchApplyLogEntry),
  mayBeArray "mergeSuggestionDecisions" (forEach · validateMergeSuggestionDecisionEntry),
  mayBeArray "contradictionSignalDecisions" (forEach · validateContradictionSignalDecisionEntry),
  mayBeArray "critiqueInputs" (forEach · (validateCritiqueInput platform.dates)),
  mayBeArray "reproposalDiffs" (forEach · validateReproposalDiff),
  whenProvided "reviewAttribution" fun value _ => validateReviewAttribution platform.dates value,
  whenProvided "deterministicTieBreak" fun value _ => validateDeterministicTieBreak value]

/-- The errors of `validateDocumentV1Strict`; none when the document is accepted. -/
def validateDocumentV1Strict (value : JsValue) : List String :=
  validateRecord documentKeys (documentChecks platform) "must be a JSON object" value "document"

end Documents

/-! ## Checks without errors -/

section NoErrors

variable {key path message : String} {shape : Shape} {props : Props}

@[simp] theorem report_eq_nil {ok : Bool} {error : String} : report ok error = [] ↔ ok = true := by
  cases ok <;> simp [report]

@[simp] theorem must_eq_nil :
    must key shape message path props = [] ↔ (props.get key).any shape = true := report_eq_nil

@[simp] theorem may_eq_nil :
    may key shape message path props = [] ↔ (props.get key).all shape = true := report_eq_nil

variable {items : List JsValue} {validate : JsValue → Nat → List String}

theorem forEach_eq_nil :
    forEach items validate = [] ↔
      ∀ index (hindex : index < items.length), validate items[index] index = [] := by
  rw [forEach, List.flatten_eq_nil_iff]
  constructor
  · intro hnil index hindex
    exact hnil _ (List.mem_mapIdx.mpr ⟨index, hindex, rfl⟩)
  · intro hnil errors herrors
    obtain ⟨index, hindex, rfl⟩ := List.mem_mapIdx.mp herrors
    exact hnil index hindex

theorem forEach_of_forall (hitems : ∀ item ∈ items, ∀ index, validate item index = []) :
    forEach items validate = [] :=
  forEach_eq_nil.mpr fun index hindex => hitems _ (List.getElem_mem hindex) index

theorem validateStringArray_eq_nil {value : Option JsValue} :
    validateStringArray value path = [] ↔ value.any (Shape.array Shape.string) = true := by
  unfold validateStringArray
  split
  next items =>
    simp only [forEach_eq_nil, report_eq_nil, Option.any_some, Shape.array, List.all_eq_true]
    constructor
    · intro hitems item hitem
      obtain ⟨index, hindex, rfl⟩ := List.getElem_of_mem hitem
      exact hitems index hindex
    · exact fun hitems index hindex => hitems _ (List.getElem_mem hindex)
  next hother =>
    refine ⟨fun hnil => (List.cons_ne_nil _ _ hnil).elim, fun hany => ?_⟩
    rw [Option.any_eq_true] at hany
    obtain ⟨value, rfl, hvalue⟩ := hany
    cases value with
    | array items => exact absurd rfl (hother items)
    | _ => exact absurd hvalue (by simp [Shape.array])

@[simp] theorem mustBeStrings_eq_nil :
    mustBeStrings key path props = [] ↔
      (props.get key).any (Shape.array Shape.string) = true := validateStringArray_eq_nil

theorem whenProvided_eq_nil {validate : JsValue → String → List String} :
    whenProvided key validate path props = [] ↔
      ∀ value, props.get key = some value → validate value (path ++ "." ++ key) = [] := by
  rw [whenProvided]
  cases props.get key <;> simp

@[simp] theorem mayBeStrings_eq_nil :
    mayBeStrings key path props = [] ↔
      (props.get key).all (Shape.array Shape.string) = true := by
  rw [mayBeStrings, whenProvided_eq_nil]
  cases props.get key with
  | none => simp
  | some value => simp [validateStringArray_eq_nil]

theorem validateRecord_eq_nil {keys : List String} {checks : List Check} {item : JsValue} :
    validateRecord keys checks message item path = [] ↔
      item.isRecord = true ∧ (∀ key ∈ objectKeys item, key ∈ keys) ∧
        ∀ check ∈ checks, check path item.props = [] := by
  rw [validateRecord]
  split
  next hrecord =>
    rw [List.append_eq_nil_iff, hasOnlyKeys_eq_nil, List.flatMap_eq_nil_iff]
    exact ⟨fun hnil => ⟨hrecord, hnil⟩, fun hnil => hnil.2⟩
  next hrecord => exact ⟨nofun, fun hnil => absurd hnil.1 hrecord⟩

end NoErrors

end Strict

end KjAtlas
