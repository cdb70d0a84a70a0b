import KjAtlas.Export.ContextProjection
import KjAtlas.Islands.DerivedEdges

/-! # SafeMode projections of inquiry bundles

Tables say for every field of every record whether it is kept, redacted, left out
or built anew. The projections are written out beside them, field by field.
-/

namespace KjAtlas.InquirySafeMode

open Js

/-! ## Policies -/

inductive FieldPolicy where
  | preserve
  | redact
  | «omit»
  | rebuild
deriving DecidableEq

def fields (runs : List (FieldPolicy × List String)) : List (String × FieldPolicy) :=
  runs.flatMap fun run => run.2.map fun key => (key, run.1)

def bundleFields := fields [(.preserve, ["schemaVersion"]),
  (.rebuild, ["journey", "snapshots", "cardLineage"]), (.preserve, ["exportInfo"])]

def journeyFields := fields [(.preserve, ["schemaVersion", "journeyId"]), (.redact, ["title"]),
  (.preserve, ["originSnapshotIds"]), (.rebuild, ["roundRecords"]),
  (.preserve, ["headRoundIds", "defaultHeadRoundId", "createdAt", "updatedAt"])]

def roundFields := fields [
  (.preserve, ["roundId", "createdAt", "updatedAt", "stage", "iteration", "parentRoundIds",
    "status"]),
  (.redact, ["theme"]), (.preserve, ["inputSnapshotIds", "outputSnapshotId"]),
  (.rebuild, ["handoff"])]

def handoffFields := fields [(.rebuild, ["carryoverRefs", "heldRefs"]),
  (.redact, ["unresolvedQuestions"]), (.rebuild, ["fieldworkRequests"]),
  (.redact, ["understandingDelta"])]

def fieldworkRequestFields := fields [(.preserve, ["requestId"]), (.redact, ["question"]),
  (.rebuild, ["outcome"])]

def fieldworkOutcomeFields := fields [(.preserve, ["kind"]), (.rebuild, ["responseCardRefs"]),
  (.redact, ["note"])]

def snapshotFields := fields [(.preserve, ["schemaVersion", "snapshotId", "createdAt"]),
  (.rebuild, ["canonicalDigest", "document"])]

def cardAddressFields := fields [(.preserve, ["snapshotId", "cardId"])]

def artifactRefFields := fields [(.preserve, ["snapshotId", "kind", "entityId"])]

def oneToOneLineageFields := fields [(.preserve, ["lineageId", "kind"]), (.rebuild, ["from", "to"])]

def derivedLineageFields := fields [(.preserve, ["lineageId", "kind"]), (.rebuild, ["from", "to"])]

def splitLineageFields := fields [(.preserve, ["lineageId", "kind"]), (.rebuild, ["from", "to"])]

def mergedLineageFields := fields [(.preserve, ["lineageId", "kind"]), (.rebuild, ["from", "to"])]

def newLineageFields := fields [(.preserve, ["lineageId", "kind"]), (.rebuild, ["to"])]

def retiredLineageFields := fields [(.preserve, ["lineageId", "kind"]), (.rebuild, ["from"])]

def documentFields := fields [(.preserve, ["version", "id"]), (.redact, ["title"]),
  (.preserve, ["createdAt", "updatedAt"]),
  (.rebuild, ["transform", "cards", "edges", "islands"]), (.preserve, ["readingOrder"]),
  (.rebuild, ["narratives", "relationSummaries", "evidenceLinks", "patchApplyLog",
    "mergeSuggestionDecisions", "critiqueInputs"]),
  (.omit, ["reproposalDiffs"]),
  (.rebuild, ["reviewAttribution", "deterministicTieBreak", "shelf"]),
  (.omit, ["contradictionSignalDecisions"]), (.rebuild, ["voids"])]

def cardFields := fields [(.preserve, ["id"]), (.redact, ["text"]),
  (.preserve, ["x", "y", "claimType", "mergedIntoCardId", "repOf", "canonicalId", "sources"]),
  (.redact, ["critique", "critiqueTags"]), (.preserve, ["textReviewed", "holdState"]),
  (.rebuild, ["meta", "ka"])]

def cardMetaFields := fields [(.preserve, ["seq"]), (.rebuild, ["source"])]

def cardKaFields := fields [(.redact, ["voice", "value"])]

def transformFields := fields [(.preserve, ["panX", "panY", "zoom"])]

def edgeFields := fields [(.preserve, ["id", "fromId", "toId", "fromKind", "toKind"]),
  (.rebuild, ["type"])]

def islandFields := fields [
  (.preserve, ["id", "cardIds", "parentIslandId", "placardCardId", "collapsed"]),
  (.redact, ["title"]), (.preserve, ["titleReviewed"]), (.redact, ["summaryText"]),
  (.preserve, ["summaryReviewed", "summaryGrounding"]), (.rebuild, ["summaryHistory"]),
  (.omit, ["imageUrl", "imageReviewed"]), (.redact, ["critique", "critiqueTags"]),
  (.rebuild, ["geometry", "shape"]), (.preserve, ["shapeStale"]),
  (.rebuild, ["representativeCue"])]

def rectGeometryFields := fields [(.preserve, ["type", "x", "y", "w", "h"])]

def polygonGeometryFields := fields [(.preserve, ["type"]), (.rebuild, ["points"])]

def rectShapeFields := fields [(.preserve, ["kind"]), (.rebuild, ["generatedFrom"])]

def polygonShapeFields := fields [(.preserve, ["kind"]), (.rebuild, ["points", "generatedFrom"])]

def shapeGeneratedFromFields := fields [(.preserve, ["cardIds"]), (.redact, ["versionToken"])]

def summaryHistoryFields := fields [(.preserve, ["id", "createdAt"]),
  (.redact, ["fromText", "toText"]), (.preserve, ["fromReviewed", "toReviewed", "changeKind"]),
  (.redact, ["note"]), (.preserve, ["groundingIds"])]

def evidenceFields := fields [(.preserve, ["id", "type", "fromCardId", "toCardId"]),
  (.redact, ["note"]), (.preserve, ["createdAt", "contradictionState"])]

def critiqueInputFields := fields [
  (.preserve, ["schemaVersion", "critiqueId", "targetRef", "critiqueType", "createdAt",
    "iteration"]),
  (.redact, ["comment", "constraintHints"])]

def reviewAttributionFields := fields [
  (.preserve, ["schemaVersion", "reviewState", "reviewedAt"]), (.redact, ["reviewerRef"]),
  (.preserve, ["auditRecordedAt", "overridePolicy"]), (.redact, ["reviewContext"]),
  (.omit, ["ownerRef"])]

def narrativeFields := fields [(.preserve, ["id"]), (.redact, ["title", "text"]),
  (.preserve, ["createdAt", "basedOnReadingOrder", "reviewed"]), (.rebuild, ["checks"])]

def narrativeCheckFields := fields [(.preserve, ["id", "createdAt", "kind"]),
  (.rebuild, ["issues"]), (.preserve, ["counts"])]

def narrativeIssueFields := fields [(.preserve, ["severity"]), (.redact, ["message"]),
  (.rebuild, ["references"]), (.preserve, ["direction"])]

def narrativeReferenceFields := fields [(.preserve, ["id", "kind"])]

def relationSummaryFields := fields [
  (.preserve, ["id", "createdAt", "islandAId", "islandBId", "relationType", "derived"]),
  (.redact, ["text"]), (.preserve, ["reviewed", "groundingCardIds", "groundingEdgeIds"]),
  (.redact, ["warnings", "sourceSignature"]), (.rebuild, ["history"])]

def relationHistoryFields := fields [(.preserve, ["id", "createdAt", "changeKind"]),
  (.redact, ["fromText", "toText"]), (.preserve, ["fromReviewed", "toReviewed"]),
  (.redact, ["warningsSnapshot"]),
  (.preserve, ["groundingCardIdsSnapshot", "groundingEdgeIdsSnapshot"]), (.redact, ["note"])]

def mergeDecisionFields := fields [
  (.preserve, ["id", "decisionId", "groupId", "decision", "action", "decidedAt"]),
  (.omit, ["decidedBy"]), (.preserve, ["cardIds", "selectedCardIds"]),
  (.redact, ["mergedTextDraft", "editedText", "note", "snapshotVersion", "rationale"]),
  (.preserve, ["mergeMethod", "representativeCardId", "representativeResolvedBy",
    "sourceCardIds", "missingSourceCardIds"])]

def patchLogFields := fields [(.preserve, ["id", "createdAt", "patchVersion"]),
  (.redact, ["patchTitle"]), (.omit, ["baseDocSignature", "patchSourceSignature"]),
  (.preserve, ["appliedOpIds"]), (.rebuild, ["stats", "conflictMeta"]), (.redact, ["note"])]

def patchStatsFields := fields [(.preserve, ["upsertCards", "deleteCards", "upsertIslands",
  "deleteIslands", "upsertEdges", "deleteEdges", "upsertRelationSummaries",
  "deleteRelationSummaries", "upsertEvidenceLinks", "deleteEvidenceLinks"])]

def patchConflictFields := fields [
  (.preserve, ["totalConflicts", "chosenYours", "chosenTheirs", "chosenSkip"])]

def tieBreakFields := fields [(.preserve, ["schemaVersion", "order"])]

def shelfFields := fields [(.preserve, ["cardId", "shelvedAt"]), (.redact, ["reason"])]

def voidFields := fields [(.preserve, ["id", "kind"]), (.redact, ["title", "detail"]),
  (.preserve, ["cardIds", "islandIds", "resolved", "createdAt"])]

/-- `/^\[REDACTED\](?: \(len:\d+\))?$/`. -/
def isRedacted (text : String) : Bool :=
  match text.toList.dropPrefix? "[REDACTED]".toList with
  | none => false
  | some rest =>
      rest.isEmpty || match rest.dropPrefix? " (len:".toList with
        | none => false
        | some rest =>
            !(rest.takeWhile Char.isDigit).isEmpty && rest.dropWhile Char.isDigit = [')']

def redact (text : String) : String :=
  if isRedacted text then text else SafeModePolicy.redactText text true

/-- The redaction of a field: of a text, of every text of a list; `null` is kept. -/
def redactValue : JsValue → JsValue
  | .string text => .string (redact text)
  | .array items => .array (items.map fun item =>
      match item with
      | .string text => .string (redact text)
      | item => item)
  | value => value

/-! ## Projections -/

/-- What a projection does with the value of a field, when there is one. -/
inductive Action where
  | keep
  | redacted
  | build (f : JsValue → Option JsValue)

def Action.apply : Action → JsValue → Option JsValue
  | .keep, value => some value
  | .redacted, value => some (redactValue value)
  | .build f, value => f value

/-- An object of some fields of a record. -/
def record (actions : List (String × Action)) (source : JsValue) : JsValue :=
  .object (actions.filterMap fun entry =>
    ((source.props.get entry.1).bind entry.2.apply).map fun value => (entry.1, some value))

def keep (keys : List String) : List (String × Action) := keys.map fun key => (key, .keep)

def redacted (keys : List String) : List (String × Action) := keys.map fun key => (key, .redacted)

/-- A field that holds a record. -/
def one (key : String) (f : JsValue → JsValue) : List (String × Action) :=
  [(key, .build fun value => some (f value))]

def mapItems (f : JsValue → JsValue) : JsValue → JsValue
  | .array items => .array (items.map f)
  | value => value

/-- A field that holds a list of records. -/
def each (key : String) (f : JsValue → JsValue) : List (String × Action) := one key (mapItems f)

def constant (key text : String) : List (String × Action) := one key fun _ => .string text

/-- The text of a field that tells the members of a union apart. -/
def hasText (key text : String) (value : JsValue) : Bool :=
  decide (value.props.get key = some (.string text))

def cloneAddress : JsValue → JsValue := record (keep ["snapshotId", "cardId"])

def sanitizeLineage (edge : JsValue) : JsValue :=
  let own := keep ["lineageId", "kind"]
  if hasText "kind" "new" edge then record (own ++ one "to" cloneAddress) edge
  else if hasText "kind" "retired" edge then record (own ++ one "from" cloneAddress) edge
  else if hasText "kind" "derived" edge then
    record (own ++ each "from" cloneAddress ++ one "to" cloneAddress) edge
  else if hasText "kind" "merged" edge then
    record (own ++ each "from" cloneAddress ++ one "to" cloneAddress) edge
  else if hasText "kind" "split" edge then
    record (own ++ one "from" cloneAddress ++ each "to" cloneAddress) edge
  else record (own ++ one "from" cloneAddress ++ one "to" cloneAddress) edge

def cloneArtifactRef : JsValue → JsValue := record (keep ["snapshotId", "kind", "entityId"])

def sanitizeFieldworkOutcome : JsValue → JsValue :=
  record (keep ["kind"] ++ each "responseCardRefs" cloneAddress ++ redacted ["note"])

def sanitizeFieldworkRequest : JsValue → JsValue :=
  record (keep ["requestId"] ++ redacted ["question"] ++ one "outcome" sanitizeFieldworkOutcome)

def sanitizeHandoff : JsValue → JsValue :=
  record (each "carryoverRefs" cloneArtifactRef ++ each "heldRefs" cloneArtifactRef ++
    redacted ["unresolvedQuestions"] ++ each "fieldworkRequests" sanitizeFieldworkRequest ++
    redacted ["understandingDelta"])

def sanitizeRound : JsValue → JsValue :=
  record (keep ["roundId", "createdAt", "updatedAt", "stage", "iteration", "parentRoundIds",
    "status"] ++ redacted ["theme"] ++ keep ["inputSnapshotIds", "outputSnapshotId"] ++
    one "handoff" sanitizeHandoff)

def sanitizeJourney : JsValue → JsValue :=
  record (keep ["schemaVersion", "journeyId"] ++ redacted ["title"] ++
    keep ["originSnapshotIds"] ++ each "roundRecords" sanitizeRound ++
    keep ["headRoundIds", "defaultHeadRoundId", "createdAt", "updatedAt"])

def cloneTransform : JsValue → JsValue := record (keep ["panX", "panY", "zoom"])

/-- Nothing if no field is left. -/
def sanitizeCardMeta (includeSourceReferences : Bool) (card : JsValue) : Option JsValue :=
  let sanitized := record (keep ["seq"] ++ keep (if includeSourceReferences then ["source"] else []))
    card
  if sanitized.props.isEmpty then none else some sanitized

def sanitizeCardKa : JsValue → JsValue := record (redacted ["voice", "value"])

def sanitizeCard (includeSourceReferences : Bool) : JsValue → JsValue :=
  record (keep ["id"] ++ redacted ["text"] ++
    keep ["x", "y", "claimType", "mergedIntoCardId", "repOf", "canonicalId", "sources"] ++
    redacted ["critique", "critiqueTags"] ++ keep ["textReviewed", "holdState"] ++
    [("meta", .build (sanitizeCardMeta includeSourceReferences))] ++ one "ka" sanitizeCardKa)

/-- `KNOWN_EDGE_TYPES`, and `related` for any other type. -/
def knownType : JsValue → JsValue
  | .string type => .string (resolveKnownEdgeType type)
  | _ => .string "related"

def sanitizeEdge : JsValue → JsValue :=
  record (keep ["id", "fromId", "toId", "fromKind", "toKind"] ++ one "type" knownType)

def clonePoint : JsValue → JsValue := record (keep ["x", "y"])

def cloneGeometry (geometry : JsValue) : JsValue :=
  if hasText "type" "polygon" geometry then
    record (constant "type" "polygon" ++ each "points" clonePoint) geometry
  else record (constant "type" "rect" ++ keep ["x", "y", "w", "h"]) geometry

def sanitizeShapeGeneratedFrom : JsValue → JsValue :=
  record (keep ["cardIds"] ++ redacted ["versionToken"])

def sanitizeShape (shape : JsValue) : JsValue :=
  if hasText "kind" "polygon" shape then
    record (constant "kind" "polygon" ++ each "points" clonePoint ++
      one "generatedFrom" sanitizeShapeGeneratedFrom) shape
  else record (constant "kind" "rect" ++ one "generatedFrom" sanitizeShapeGeneratedFrom) shape

def sanitizeSummaryHistory : JsValue → JsValue :=
  record (keep ["id", "createdAt"] ++ redacted ["fromText", "toText"] ++
    keep ["fromReviewed", "toReviewed", "changeKind"] ++ redacted ["note"] ++
    keep ["groundingIds"])

def sanitizeRepresentativeCue : JsValue → JsValue :=
  record (keep ["kind", "cueId"] ++ redacted ["altText"] ++ keep ["imageRef"])

def sanitizeIsland : JsValue → JsValue :=
  record (keep ["id", "cardIds", "parentIslandId", "placardCardId", "collapsed"] ++
    redacted ["title"] ++ keep ["titleReviewed"] ++ redacted ["summaryText"] ++
    keep ["summaryReviewed", "summaryGrounding"] ++
    each "summaryHistory" sanitizeSummaryHistory ++ redacted ["critique", "critiqueTags"] ++
    one "geometry" cloneGeometry ++ one "shape" sanitizeShape ++ keep ["shapeStale"] ++
    one "representativeCue" sanitizeRepresentativeCue)

def sanitizeEvidenceLink : JsValue → JsValue :=
  record (keep ["id", "type", "fromCardId", "toCardId"] ++ redacted ["note"] ++
    keep ["createdAt", "contradictionState"])

def sanitizeCritiqueInput : JsValue → JsValue :=
  record (keep ["schemaVersion", "critiqueId", "targetRef", "critiqueType", "createdAt",
    "iteration"] ++ redacted ["comment", "constraintHints"])

def sanitizeReviewAttribution : JsValue → JsValue :=
  record (keep ["schemaVersion", "reviewState", "reviewedAt"] ++ redacted ["reviewerRef"] ++
    keep ["auditRecordedAt", "overridePolicy"] ++ redacted ["reviewContext"])

def cloneNarrativeReference : JsValue → JsValue := record (keep ["id", "kind"])

def sanitizeNarrativeIssue : JsValue → JsValue :=
  record (keep ["severity"] ++ redacted ["message"] ++ each "references" cloneNarrativeReference)

def sanitizeNarrativeCheck : JsValue → JsValue :=
  record (keep ["id", "createdAt", "kind"] ++ each "issues" sanitizeNarrativeIssue)

def sanitizeNarrative : JsValue → JsValue :=
  record (keep ["id"] ++ redacted ["title", "text"] ++
    keep ["createdAt", "basedOnReadingOrder", "reviewed"] ++ each "checks" sanitizeNarrativeCheck)

def sanitizeRelationHistory : JsValue → JsValue :=
  record (keep ["id", "createdAt", "changeKind"] ++ redacted ["fromText", "toText"] ++
    keep ["fromReviewed", "toReviewed"] ++ redacted ["warningsSnapshot"] ++
    keep ["groundingCardIdsSnapshot", "groundingEdgeIdsSnapshot"] ++ redacted ["note"])

def sanitizeRelationSummary : JsValue → JsValue :=
  record (keep ["id", "createdAt", "islandAId", "islandBId", "relationType", "derived"] ++
    redacted ["text"] ++ keep ["reviewed", "groundingCardIds", "groundingEdgeIds"] ++
    redacted ["warnings", "sourceSignature"] ++ each "history" sanitizeRelationHistory)

def clonePatchStats : JsValue → JsValue :=
  record (keep ["upsertCards", "deleteCards", "upsertIslands", "deleteIslands", "upsertEdges",
    "deleteEdges", "upsertRelationSummaries", "deleteRelationSummaries", "upsertEvidenceLinks",
    "deleteEvidenceLinks"])

def clonePatchConflictMeta : JsValue → JsValue :=
  record (keep ["totalConflicts", "chosenYours", "chosenTheirs", "chosenSkip"])

def sanitizePatchLog : JsValue → JsValue :=
  record (keep ["id", "createdAt", "patchVersion"] ++ redacted ["patchTitle"] ++
    keep ["appliedOpIds"] ++ one "stats" clonePatchStats ++
    one "conflictMeta" clonePatchConflictMeta ++ redacted ["note"])

def sanitizeMergeDecision : JsValue → JsValue :=
  record (keep ["id", "decisionId", "groupId", "decision", "action", "decidedAt", "cardIds",
    "selectedCardIds"] ++
    redacted ["mergedTextDraft", "editedText", "note", "snapshotVersion", "rationale"] ++
    keep ["representativeCardId", "representativeResolvedBy", "sourceCardIds",
      "missingSourceCardIds"])

def cloneTieBreak : JsValue → JsValue := record (keep ["schemaVersion", "order"])

def sanitizeShelfEntry : JsValue → JsValue :=
  record (keep ["cardId", "shelvedAt"] ++ redacted ["reason"])

/-- `resolved` is kept if it is a truth value. -/
def sanitizeVoidEntry : JsValue → JsValue :=
  record (keep ["id", "kind"] ++ redacted ["title", "detail"] ++ keep ["cardIds", "islandIds"] ++
    [("resolved", .build fun value => value.bool?.map .bool)] ++ keep ["createdAt"])

def deriveDocumentSafeModeProjection (includeSourceReferences : Bool) : JsValue → JsValue :=
  record (keep ["version", "id"] ++ redacted ["title"] ++ keep ["createdAt", "updatedAt"] ++
    one "transform" cloneTransform ++ each "cards" (sanitizeCard includeSourceReferences) ++
    each "edges" sanitizeEdge ++ each "islands" sanitizeIsland ++ keep ["readingOrder"] ++
    each "narratives" sanitizeNarrative ++ each "relationSummaries" sanitizeRelationSummary ++
    each "evidenceLinks" sanitizeEvidenceLink ++ each "patchApplyLog" sanitizePatchLog ++
    each "mergeSuggestionDecisions" sanitizeMergeDecision ++
    each "critiqueInputs" sanitizeCritiqueInput ++
    one "reviewAttribution" sanitizeReviewAttribution ++
    one "deterministicTieBreak" cloneTieBreak ++ each "shelf" sanitizeShelfEntry ++
    each "voids" sanitizeVoidEntry)

def sanitizeSnapshot : JsValue → JsValue :=
  record (keep ["schemaVersion", "snapshotId", "createdAt", "canonicalDigest"] ++
    one "document" (deriveDocumentSafeModeProjection false))

def truthy : JsValue → Bool
  | .null => false
  | .bool b => b
  | .number n => decide (n ≠ .zero ∧ n ≠ .nan)
  | .string s => decide (s ≠ "")
  | .array _ | .object _ => true

/-- `exportInfo` is cloned if it is given. -/
def sanitizeBundleContents : JsValue → JsValue :=
  record (keep ["schemaVersion"] ++ one "journey" sanitizeJourney ++
    each "snapshots" sanitizeSnapshot ++ each "cardLineage" sanitizeLineage ++
    [("exportInfo", .build fun value => if truthy value then some value else none)])

end KjAtlas.InquirySafeMode
