import KjAtlas.Foundation.Transactions
import KjAtlas.Inquiry.Validate
import KjAtlas.Js.Text

/-! # Inquiry sessions

A session starts a journey from a document and records rounds. Each round takes
in what its parent put out, puts out a snapshot of the present document, and says
what became of the cards. The ids that the factory yields, the reading of dates
and the hash function are parameters.
-/

namespace KjAtlas.Inquiry

open Js (DateFormat)

/-- What a session takes from its surroundings: the reading of dates, the SHA-256 of the canonical
text of a document, and the values of the id factory, in order. -/
structure SessionOptions where
  dates : DateFormat
  sha256 : DocumentV1 → {bytes : List UInt8 // bytes.length = 32}
  ids : Nat → String

/-- `entry.toString(16).padStart(2, "0")`. -/
def hexByte (entry : UInt8) : List Char :=
  [Js.hexDigit (entry.toNat / 16), Js.hexDigit (entry.toNat % 16)]

def computeRoundSnapshotDigest (options : SessionOptions) (document : DocumentV1) : String :=
  "sha256:" ++ String.ofList ((options.sha256 document).val.flatMap hexByte)

inductive AppendFailure where
  | duplicateRoundId
  | duplicateParentRound
  | missingParentRound
  | parentWithoutSnapshot
  | invalidTimestamp
  | arrayTooLong

def nextRoundIteration (journey : InquiryJourneyV1) (stage : String)
    (parentRoundIds : List String) : Int :=
  let rounds := roundsById journey.roundRecords
  previousMaximum rounds stage
    (distinct (parentRoundIds.flatMap fun parentId =>
      parentId :: collectAncestorIds parentId rounds)) + 1

/-- The parents of a new round exist and have put out a snapshot. -/
def checkParents (rounds : RoundsById) : List String → Except AppendFailure Unit
  | [] => .ok ()
  | parentId :: parentIds => do
      let parent ← found .missingParentRound (rounds.get? parentId)
      ensure (parent.output ≠ none) .parentWithoutSnapshot
      checkParents rounds parentIds

/-- The iteration of the record is computed: the one that it carries is not read. -/
def appendRoundRecord (dates : DateFormat) (journey : InquiryJourneyV1) (record : RoundRecordV1) :
    Except AppendFailure InquiryJourneyV1 := do
  let rounds := roundsById journey.roundRecords
  ensure (¬ rounds.has record.roundId) .duplicateRoundId
  ensure (findDuplicates record.parentRoundIds = []) .duplicateParentRound
  ensure (hasValidTimestamps dates record.createdAt record.updatedAt ∧
    ¬ isEarlier dates record.updatedAt journey.updatedAt) .invalidTimestamp
  checkParents rounds record.parentRoundIds
  -- An array has at most `2 ^ 32 - 1` items.
  ensure (journey.roundRecords.length < 2 ^ 32 - 1) .arrayTooLong
  return {
    journey with
    roundRecords := journey.roundRecords ++ [{
      record with
      iteration := nextRoundIteration journey record.stage record.parentRoundIds
    }]
    headRoundIds := (journey.headRoundIds.filter fun headId => headId ∉ record.parentRoundIds) ++
      [record.roundId]
    defaultHeadRoundId := some record.roundId
    updatedAt := record.updatedAt
  }

def createSnapshot (options : SessionOptions) (snapshotId createdAt : String)
    (document : DocumentV1) : RoundSnapshotV1 where
  schemaVersion := inquirySchemaVersion
  snapshotId
  createdAt
  canonicalDigest := computeRoundSnapshotDigest options document
  document

/-- `new Map(cards.map((card) => [card.id, card]))`. -/
def cardsById (cards : List Card) : InsertionMap String Card :=
  .ofList (cards.map fun card => (card.id, card))

def cardLineages (fromSnapshot toSnapshot : RoundSnapshotV1) : List Lineage :=
  let fromCards := cardsById fromSnapshot.document.cards
  let toCards := cardsById toSnapshot.document.cards
  (toCards.entries.map fun entry =>
    match fromCards.get? entry.1 with
    | none => .new ⟨toSnapshot.snapshotId, entry.1⟩
    | some previous =>
        .oneToOne (if previous.text = entry.2.text then .carried else .edited)
          ⟨fromSnapshot.snapshotId, entry.1⟩ ⟨toSnapshot.snapshotId, entry.1⟩) ++
  (fromCards.keys.filter fun cardId => !toCards.has cardId).map fun cardId =>
    .retired ⟨fromSnapshot.snapshotId, cardId⟩

/-- Every edge takes the next id of the factory. -/
def buildCardLineage (options : SessionOptions) (fromSnapshot toSnapshot : RoundSnapshotV1)
    (drawn : Nat) : List CardLineageEdgeV1 :=
  ((cardLineages fromSnapshot toSnapshot).zipIdx drawn).map fun entry =>
    ⟨"lineage-" ++ options.ids entry.2, entry.1⟩

/-! ## Sessions -/

/-- `document.title?.trim() || document.id`. -/
def displayTitle (document : DocumentV1) : String :=
  ((document.title.map Js.trim).filter (· ≠ "")).getD document.id

/-- A bundle, and how many ids have been drawn from the factory. -/
structure Session where
  bundle : InquiryBundleV1
  drawn : Nat

def startInquiryJourney (options : SessionOptions) (document : DocumentV1) (createdAt : String) :
    Session :=
  let snapshotId := "snapshot-" ++ options.ids 0
  {
    bundle := {
      schemaVersion := inquirySchemaVersion
      journey := {
        schemaVersion := inquirySchemaVersion
        journeyId := "journey-" ++ options.ids 1
        title := displayTitle document
        originSnapshotIds := [snapshotId]
        roundRecords := []
        headRoundIds := []
        defaultHeadRoundId := none
        createdAt
        updatedAt := createdAt
      }
      snapshots := [createSnapshot options snapshotId createdAt document]
      cardLineage := []
      exportInfo := none
    }
    drawn := 2
  }

inductive RecordFailure where
  | missingInputSnapshot
  | invalidRound
  | thrown

structure RecordCall where
  document : DocumentV1
  stage : RoundStage
  recordedAt : String
  parentRoundId : Option String

/-- The parent of a round: the one that is asked for, or the present head. An empty id stands for
none. -/
def RecordCall.parent (call : RecordCall) (journey : InquiryJourneyV1) : Option String :=
  (call.parentRoundId.or journey.defaultHeadRoundId).filter (· ≠ "")

/-- `parentRound?.outputSnapshotId`; a parent that is asked for has to exist. -/
def parentOutput (rounds : List RoundRecordV1) :
    Option String → Except RecordFailure (Option String)
  | none => .ok none
  | some roundId => do
      let parentRound ← found .invalidRound (findBy RoundRecordV1.roundId roundId rounds)
      return parentRound.outputSnapshotId

def inputSnapshot (bundle : InquiryBundleV1) (parentRoundId : Option String) :
    Except RecordFailure RoundSnapshotV1 := do
  let parentOutputId ← parentOutput bundle.journey.roundRecords parentRoundId
  let inputSnapshotId ← found .missingInputSnapshot
    (parentOutputId.or bundle.journey.originSnapshotIds.head?)
  found .missingInputSnapshot (findBy RoundSnapshotV1.snapshotId inputSnapshotId bundle.snapshots)

/-- The record of a round, under the next ids of the factory. -/
def newRound (options : SessionOptions) (call : RecordCall) (parentRoundId : Option String)
    (input : RoundSnapshotV1) (drawn : Nat) : RoundRecordV1 where
  roundId := "round-" ++ options.ids (drawn + 1)
  createdAt := call.recordedAt
  updatedAt := call.recordedAt
  stage := call.stage.text
  iteration := 0
  parentRoundIds := parentRoundId.toList
  status := "paused"
  theme := displayTitle call.document
  inputSnapshotIds := [input.snapshotId]
  outputSnapshotId := some ("snapshot-" ++ options.ids drawn)
  handoff := none

/-- The result of recording a round, and the number of ids that have been drawn. -/
def recordInquiryRound (options : SessionOptions) (session : Session) (call : RecordCall) :
    Except RecordFailure InquiryBundleV1 × Nat :=
  let bundle := session.bundle
  let parentRoundId := call.parent bundle.journey
  match inputSnapshot bundle parentRoundId with
  | .error failure => (.error failure, session.drawn)
  | .ok input =>
      let output := createSnapshot options ("snapshot-" ++ options.ids session.drawn)
        call.recordedAt call.document
      match appendRoundRecord options.dates bundle.journey
          (newRound options call parentRoundId input session.drawn) with
      | .error .arrayTooLong => (.error .thrown, session.drawn + 2)
      | .error _ => (.error .invalidRound, session.drawn + 2)
      | .ok journey =>
          let lineage := buildCardLineage options input output (session.drawn + 2)
          (.ok {
            bundle with
            journey
            snapshots := bundle.snapshots ++ [output]
            cardLineage := bundle.cardLineage ++ lineage
          }, session.drawn + 2 + lineage.length)

/-- The session after a call: its bundle is replaced by the one that is returned. -/
def Session.record (options : SessionOptions) (session : Session) (call : RecordCall) : Session :=
  match recordInquiryRound options session call with
  | (.ok bundle, drawn) => ⟨bundle, drawn⟩
  | (.error _, drawn) => ⟨session.bundle, drawn⟩

end KjAtlas.Inquiry
