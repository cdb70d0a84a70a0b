import KjAtlas.Foundation.DepthFirst
import KjAtlas.Inquiry.Bundle
import KjAtlas.Js.Date

/-! # Validation of inquiry bundles

The validation lists every issue of a bundle, in the order in which the parts of
the bundle are looked at. A bundle without issues is valid.
-/

namespace KjAtlas.Inquiry

open Js (DateFormat)

/-- The values that occur again after their first occurrence. -/
def repeated : List String → List String → List String
  | _, [] => []
  | seen, value :: values =>
      if value ∈ seen then value :: repeated seen values else repeated (value :: seen) values

def findDuplicates (values : List String) : List String := distinct (repeated [] values)

/-- The addresses are separated by a character that ids are not expected to contain. -/
def addressKey (address : CardAddressV1) : String :=
  address.snapshotId ++ "\x00" ++ address.cardId

def isCanonicalTimestamp (dates : DateFormat) (value : String) : Bool :=
  (dates.parse value).any fun timestamp => dates.toISOString timestamp = value

/-- `Date.parse(left) < Date.parse(right)`. -/
def isEarlier (dates : DateFormat) (left right : String) : Bool :=
  match dates.parse left, dates.parse right with
  | some left, some right => left < right
  | _, _ => false

def hasValidTimestamps (dates : DateFormat) (createdAt updatedAt : String) : Bool :=
  isCanonicalTimestamp dates createdAt && isCanonicalTimestamp dates updatedAt &&
    !isEarlier dates updatedAt createdAt

/-! ## Maps of a bundle -/

abbrev RoundsById := InsertionMap String RoundRecordV1

def roundsById (rounds : List RoundRecordV1) : RoundsById :=
  .ofList (rounds.map fun round => (round.roundId, round))

def snapshotsById (snapshots : List RoundSnapshotV1) : InsertionMap String RoundSnapshotV1 :=
  .ofList (snapshots.map fun snapshot => (snapshot.snapshotId, snapshot))

/-- `roundsById.get(roundId)?.parentRoundIds ?? []`. -/
def RoundsById.parents (rounds : RoundsById) (roundId : String) : List String :=
  ((rounds.get? roundId).map RoundRecordV1.parentRoundIds).getD []

def collectAncestorIds (roundId : String) (rounds : RoundsById) : List String :=
  reachableFrom rounds.parents rounds.keys roundId

/-- The greatest iteration of a stage among rounds, or zero. -/
def previousMaximum (rounds : RoundsById) (stage : String) (ids : List String) : Int :=
  ids.foldl (fun previousMaximum ancestorId =>
    match rounds.get? ancestorId with
    | some ancestor =>
        if ancestor.stage = stage then max previousMaximum ancestor.iteration
        else previousMaximum
    | none => previousMaximum) 0

def expectedIteration (round : RoundRecordV1) (rounds : RoundsById) : Int :=
  previousMaximum rounds round.stage (collectAncestorIds round.roundId rounds) + 1

/-- `Number.isSafeInteger`. -/
def isSafeInteger (n : Int) : Bool := n.natAbs ≤ 2 ^ 53 - 1

def getArtifactIds (snapshot : RoundSnapshotV1) : RoundArtifactKind → List String
  | .card => snapshot.document.cardIds
  | .island => snapshot.document.islands.map Island.id
  | .narrative => (snapshot.document.narratives.getD []).map Narrative.id
  | .relationSummary => (snapshot.document.relationSummaries.getD []).map RelationSummary.id

/-- A round owns what it puts out, unless a round with an id has put it out before. -/
def claimOutput (owners : InsertionMap String String) (round : RoundRecordV1) :
    InsertionMap String String :=
  match round.output with
  | none => owners
  | some snapshotId =>
      if ((owners.get? snapshotId).filter (· ≠ "")).isSome then owners
      else owners.set snapshotId round.roundId

def outputOwners (rounds : List RoundRecordV1) : InsertionMap String String :=
  rounds.foldl claimOutput .empty

/-- The owner of a snapshot, unless it has none or one without an id. -/
def ownerOf (rounds : List RoundRecordV1) (snapshotId : String) : Option String :=
  ((outputOwners rounds).get? snapshotId).filter (· ≠ "")

def hasCard (snapshots : InsertionMap String RoundSnapshotV1) (address : CardAddressV1) : Bool :=
  (snapshots.get? address.snapshotId).any fun snapshot =>
    snapshot.document.cards.any fun card => card.id = address.cardId

/-! ## Issues -/

def issueIf (condition : Prop) [Decidable condition] (code : InquiryValidationIssueCode)
    (path : String) : List InquiryValidationIssue :=
  if condition then [⟨code, path⟩] else []

def duplicateIssues (values : List String) (code : InquiryValidationIssueCode) (path : String) :
    List InquiryValidationIssue :=
  (findDuplicates values).map fun value => ⟨code, path ++ value⟩

def versionIssues (bundle : InquiryBundleV1) : List InquiryValidationIssue :=
  issueIf (bundle.schemaVersion ≠ inquirySchemaVersion) .schemaVersion "schemaVersion" ++
    issueIf (bundle.journey.schemaVersion ≠ inquirySchemaVersion) .schemaVersion
      "journey.schemaVersion"

def roundPath (round : RoundRecordV1) (part : String) : String :=
  "journey.roundRecords." ++ round.roundId ++ "." ++ part

def roundIssues (dates : DateFormat) (rounds : RoundsById) (round : RoundRecordV1) :
    List InquiryValidationIssue :=
  issueIf (¬ hasValidTimestamps dates round.createdAt round.updatedAt) .invalidTimestamp
      (roundPath round "updatedAt") ++
    issueIf (round.stage ∉ roundStages) .invalidRoundStage (roundPath round "stage") ++
    issueIf (round.status ∉ roundStatuses) .invalidRoundStatusValue (roundPath round "status") ++
    duplicateIssues round.parentRoundIds .duplicateParentRound
      (roundPath round "parentRoundIds.") ++
    (round.parentRoundIds.flatMap fun parentId =>
      issueIf (¬ rounds.has parentId) .missingParentRound
        (roundPath round "parentRoundIds." ++ parentId)) ++
    issueIf (¬ isSafeInteger round.iteration ∨ round.iteration < 1 ∨
        round.iteration ≠ expectedIteration round rounds) .invalidIteration
      (roundPath round "iteration") ++
    issueIf (round.status ≠ "working" ∧ round.output = none) .invalidRoundStatus
      (roundPath round "outputSnapshotId")

/-- `visit`, from every round: parents that do not exist are not visited. -/
def cycleIssues (rounds : List RoundRecordV1) : List InquiryValidationIssue :=
  let byId := roundsById rounds
  let knownParents := fun roundId => (byId.parents roundId).filter fun parentId => byId.has parentId
  (DepthFirst.visitAll knownParents (rounds.map RoundRecordV1.roundId)).cycles.map fun roundId =>
    ⟨.roundCycle, "journey.roundRecords." ++ roundId ++ ".parentRoundIds"⟩

def leafIds (rounds : List RoundRecordV1) : List String :=
  distinct ((rounds.map RoundRecordV1.roundId).filter fun roundId =>
    roundId ∉ rounds.flatMap RoundRecordV1.parentRoundIds)

def headIssues (journey : InquiryJourneyV1) : List InquiryValidationIssue :=
  let rounds := journey.roundRecords
  duplicateIssues journey.headRoundIds .duplicateHeadRound "journey.headRoundIds." ++
    ((distinct journey.headRoundIds).flatMap fun headId =>
      issueIf (¬ (roundsById rounds).has headId ∨ headId ∉ leafIds rounds) .invalidHeadRound
        ("journey.headRoundIds." ++ headId)) ++
    ((leafIds rounds).flatMap fun leafId =>
      issueIf (leafId ∉ journey.headRoundIds) .missingLeafHead ("journey.headRoundIds." ++ leafId)) ++
    issueIf (∃ headId ∈ journey.defaultHeadRoundId, headId ∉ journey.headRoundIds)
      .invalidDefaultHead "journey.defaultHeadRoundId"

def exportIssues (bundle : InquiryBundleV1) : List InquiryValidationIssue :=
  match bundle.exportInfo with
  | some (.round selectedRoundId) =>
      issueIf (bundle.journey.headRoundIds ≠ [selectedRoundId] ∨
          bundle.journey.defaultHeadRoundId ≠ some selectedRoundId)
        .invalidExportInfo "exportInfo.selectedRoundId"
  | _ => []

/-- `/^sha256:[0-9a-f]{64}$/`. -/
def isDigest (text : String) : Bool :=
  "sha256:".toList.isPrefixOf text.toList &&
    (text.toList.drop 7).length = 64 &&
    (text.toList.drop 7).all fun c => c.isDigit || ('a' ≤ c && c ≤ 'f')

def snapshotIssues (dates : DateFormat) (snapshot : RoundSnapshotV1) :
    List InquiryValidationIssue :=
  let path := "snapshots." ++ snapshot.snapshotId
  issueIf (snapshot.schemaVersion ≠ inquirySchemaVersion) .schemaVersion
      (path ++ ".schemaVersion") ++
    issueIf (¬ isDigest snapshot.canonicalDigest) .invalidSnapshotDigest
      (path ++ ".canonicalDigest") ++
    issueIf (¬ isCanonicalTimestamp dates snapshot.createdAt) .invalidTimestamp
      (path ++ ".createdAt") ++
    duplicateIssues snapshot.document.cardIds .duplicateSnapshotCardId (path ++ ".document.cards.")

def originIssues (bundle : InquiryBundleV1) : List InquiryValidationIssue :=
  let originIds := bundle.journey.originSnapshotIds
  issueIf (originIds = []) .missingOriginSnapshot "journey.originSnapshotIds" ++
    duplicateIssues originIds .duplicateOriginSnapshot "journey.originSnapshotIds." ++
    (distinct originIds).flatMap fun originId =>
      issueIf (¬ (snapshotsById bundle.snapshots).has originId) .missingSnapshot
        ("journey.originSnapshotIds." ++ originId)

def outputIssues (bundle : InquiryBundleV1) :
    InsertionMap String String → List RoundRecordV1 → List InquiryValidationIssue
  | _, [] => []
  | owners, round :: rounds =>
      (match round.output with
        | none => []
        | some snapshotId =>
            issueIf (¬ (snapshotsById bundle.snapshots).has snapshotId) .missingSnapshot
                (roundPath round "outputSnapshotId") ++
              issueIf (((owners.get? snapshotId).filter (· ≠ "")).isSome) .duplicateOutputSnapshot
                (roundPath round "outputSnapshotId") ++
              issueIf (snapshotId ∈ bundle.journey.originSnapshotIds) .duplicateOutputSnapshot
                (roundPath round "outputSnapshotId")) ++
        outputIssues bundle (claimOutput owners round) rounds

def unownedIssues (bundle : InquiryBundleV1) : List InquiryValidationIssue :=
  bundle.snapshots.flatMap fun snapshot =>
    issueIf (snapshot.snapshotId ∉ bundle.journey.originSnapshotIds ∧
        ¬ (outputOwners bundle.journey.roundRecords).has snapshot.snapshotId) .unownedSnapshot
      ("snapshots." ++ snapshot.snapshotId)

/-- What a round takes in exists, and is an origin or put out by an ancestor. -/
def inputIssues (bundle : InquiryBundleV1) (round : RoundRecordV1) : List InquiryValidationIssue :=
  let rounds := bundle.journey.roundRecords
  duplicateIssues round.inputSnapshotIds .duplicateInputSnapshot
      (roundPath round "inputSnapshotIds.") ++
    round.inputSnapshotIds.flatMap fun inputId =>
      if ¬ (snapshotsById bundle.snapshots).has inputId then
        [⟨.missingSnapshot, roundPath round "inputSnapshotIds." ++ inputId⟩]
      else
        issueIf (inputId ∉ bundle.journey.originSnapshotIds ∧
            ¬ ∃ ownerId ∈ ownerOf rounds inputId,
              ownerId ∈ collectAncestorIds round.roundId (roundsById rounds))
          .invalidInputSnapshot (roundPath round "inputSnapshotIds." ++ inputId)

/-- What a handoff refers to exists. -/
def handoffIssues (bundle : InquiryBundleV1) (round : RoundRecordV1) :
    List InquiryValidationIssue :=
  let snapshots := snapshotsById bundle.snapshots
  match round.handoff with
  | none => []
  | some handoff =>
      ((handoff.carryoverRefs ++ handoff.heldRefs).flatMap fun (ref : RoundArtifactRefV1) =>
        issueIf (¬ ∃ snapshot ∈ snapshots.get? ref.snapshotId,
            ref.entityId ∈ getArtifactIds snapshot ref.kind)
          .missingHandoffArtifact (roundPath round "handoff." ++ ref.entityId)) ++
      handoff.fieldworkRequests.flatMap fun request =>
        request.responseCardRefs.flatMap fun ref =>
          issueIf (¬ hasCard snapshots ref) .missingHandoffArtifact
            (roundPath round "handoff." ++ request.requestId)

/-- The number of addresses fits the kind of the edge, and none is listed twice. -/
def hasInvalidCardinality (edge : CardLineageEdgeV1) : Bool :=
  (match edge.lineage with
    | .split _ targets => targets.length < 2
    | .merged sources _ => sources.length < 2
    | .derived sources _ => sources.length < 1
    | _ => false) ||
    !(findDuplicates (edge.sources.map addressKey)).isEmpty ||
    !(findDuplicates (edge.targets.map addressKey)).isEmpty

/-- The sources of an edge lie in origins, or in what ancestors of the target's owner put out. -/
def directionIssues (bundle : InquiryBundleV1) (edge : CardLineageEdgeV1) (target : CardAddressV1) :
    List InquiryValidationIssue :=
  let rounds := bundle.journey.roundRecords
  match ownerOf rounds target.snapshotId with
  | none => [⟨.invalidLineageDirection, "cardLineage." ++ edge.lineageId ++ ".to"⟩]
  | some targetOwner =>
      edge.sources.flatMap fun (source : CardAddressV1) =>
        issueIf (source.snapshotId ∉ bundle.journey.originSnapshotIds ∧
            ¬ ∃ sourceOwner ∈ ownerOf rounds source.snapshotId,
              sourceOwner ∈ collectAncestorIds targetOwner (roundsById rounds))
          .invalidLineageDirection ("cardLineage." ++ edge.lineageId ++ ".from")

def lineageIssues (bundle : InquiryBundleV1) (edge : CardLineageEdgeV1) :
    List InquiryValidationIssue :=
  issueIf (hasInvalidCardinality edge) .invalidLineageCardinality
      ("cardLineage." ++ edge.lineageId) ++
    ((edge.sources ++ edge.targets).flatMap fun address =>
      issueIf (¬ hasCard (snapshotsById bundle.snapshots) address) .missingLineageCard
        ("cardLineage." ++ edge.lineageId ++ "." ++ address.snapshotId ++ "." ++
          address.cardId)) ++
    edge.targets.flatMap (directionIssues bundle edge)

def validateInquiryBundle (dates : DateFormat) (bundle : InquiryBundleV1) :
    List InquiryValidationIssue :=
  let rounds := bundle.journey.roundRecords
  versionIssues bundle ++
    issueIf (¬ hasValidTimestamps dates bundle.journey.createdAt bundle.journey.updatedAt)
      .invalidTimestamp "journey.updatedAt" ++
    duplicateIssues (rounds.map RoundRecordV1.roundId) .duplicateRoundId
      "journey.roundRecords." ++
    rounds.flatMap (roundIssues dates (roundsById rounds)) ++
    cycleIssues rounds ++
    headIssues bundle.journey ++
    exportIssues bundle ++
    duplicateIssues (bundle.snapshots.map RoundSnapshotV1.snapshotId) .duplicateSnapshotId
      "snapshots." ++
    bundle.snapshots.flatMap (snapshotIssues dates) ++
    originIssues bundle ++
    outputIssues bundle .empty rounds ++
    unownedIssues bundle ++
    (rounds.flatMap fun round => inputIssues bundle round ++ handoffIssues bundle round) ++
    duplicateIssues (bundle.cardLineage.map CardLineageEdgeV1.lineageId) .duplicateLineageId
      "cardLineage." ++
    bundle.cardLineage.flatMap (lineageIssues bundle)

/-! ## Bundles of one day -/

namespace OneDay

def day : String := "2026-01-01T00:00:00.000Z"

def dates : DateFormat := .instant day

def snapshot (snapshotId : String) (cardIds : List String) : RoundSnapshotV1 where
  schemaVersion := "1.0.0"
  snapshotId
  createdAt := day
  canonicalDigest := "sha256:0000000000000000000000000000000000000000000000000000000000000000"
  document := ⟨"doc", none, cardIds.map fun id => ⟨id, "text", none⟩, [], none, none⟩

def round (roundId stage : String) (parentRoundIds inputSnapshotIds : List String)
    (output : String) (handoff : Option RoundHandoffV1) : RoundRecordV1 where
  roundId
  createdAt := day
  updatedAt := day
  stage
  iteration := 1
  parentRoundIds
  status := "paused"
  theme := "doc"
  inputSnapshotIds
  outputSnapshotId := some output
  handoff

/-- A journey with one head. -/
def bundle (originSnapshotIds : List String) (roundRecords : List RoundRecordV1) (head : String)
    (snapshots : List RoundSnapshotV1) (cardLineage : List CardLineageEdgeV1)
    (exportInfo : Option InquiryExportInfoV1) : InquiryBundleV1 where
  schemaVersion := "1.0.0"
  journey := {
    schemaVersion := "1.0.0"
    journeyId := "journey"
    title := "doc"
    originSnapshotIds
    roundRecords
    headRoundIds := [head]
    defaultHeadRoundId := some head
    createdAt := day
    updatedAt := day
  }
  snapshots
  cardLineage
  exportInfo

end OneDay

end KjAtlas.Inquiry
