import KjAtlas.Inquiry.Growth
import KjAtlas.Js.Reader

/-! # The review of a handoff

The handoff of a round is shown as a list of candidates: the artifacts of the
snapshot that the round put out, those that the handoff refers to, and its texts.
Each candidate is decided on, and a handoff is built from the decisions again.
-/

namespace KjAtlas.Inquiry

open Js (DateFormat trim keepFirst)

inductive InquiryHandoffReviewDecision where
  | pending
  | adopted
  | held
  | skipped
deriving DecidableEq

/-- The decisions on texts, which cannot be held. -/
inductive InquiryHandoffTextDecision where
  | pending
  | adopted
  | skipped
deriving DecidableEq

structure InquiryHandoffArtifactCandidate where
  candidateId : String
  artifactKind : RoundArtifactKind
  label : String
  ref : RoundArtifactRefV1
  decision : InquiryHandoffReviewDecision

inductive InquiryHandoffTextKind where
  | understanding
  | unresolvedQuestion
  | fieldworkRequest
deriving DecidableEq

structure InquiryHandoffTextCandidate where
  candidateId : String
  kind : InquiryHandoffTextKind
  value : String
  originalValue : String
  decision : InquiryHandoffTextDecision
  fieldworkRequest : Option FieldworkRequestV1

inductive InquiryHandoffReviewCandidate where
  | artifact (candidate : InquiryHandoffArtifactCandidate)
  | text (candidate : InquiryHandoffTextCandidate)

def InquiryHandoffReviewCandidate.candidateId : InquiryHandoffReviewCandidate → String
  | .artifact candidate => candidate.candidateId
  | .text candidate => candidate.candidateId

inductive BuildReviewFailure where
  | roundNotFound
  | snapshotNotFound

inductive SaveHandoffFailure where
  | roundNotFound
  | invalidHandoff

def RoundArtifactKind.text : RoundArtifactKind → String
  | .card => "card"
  | .island => "island"
  | .narrative => "narrative"
  | .relationSummary => "relation_summary"

def artifactKey (ref : RoundArtifactRefV1) : String :=
  ref.snapshotId ++ "\x00" ++ ref.kind.text ++ "\x00" ++ ref.entityId

def artifactCandidateId (ref : RoundArtifactRefV1) : String :=
  "artifact:" ++ ref.snapshotId ++ ":" ++ ref.kind.text ++ ":" ++ ref.entityId

/-! ## Candidates -/

/-- `text?.trim()`, unless it is empty. -/
def trimmedText (text : Option String) : Option String := (text.map trim).filter (· ≠ "")

/-- `island.title?.trim() || island.summaryText?.trim() || island.id`. -/
def islandLabel (island : Island) : String :=
  ((trimmedText island.title).or (trimmedText island.summaryText)).getD island.id

/-- The label of what a reference names, if it is found. -/
def documentLabel (document : DocumentV1) (ref : RoundArtifactRefV1) : Option String :=
  match ref.kind with
  | .card => (findBy Card.id ref.entityId document.cards).map Card.text
  | .island => (findBy Island.id ref.entityId document.islands).map fun island =>
      ((trimmedText island.title).or (trimmedText island.summaryText)).getD ref.entityId
  | .narrative => (findBy Narrative.id ref.entityId (document.narratives.getD [])).map
      Narrative.title
  | .relationSummary => (findBy RelationSummary.id ref.entityId
      (document.relationSummaries.getD [])).map RelationSummary.text

def artifactLabel (bundle : InquiryBundleV1) (ref : RoundArtifactRefV1) : String :=
  ((findBy RoundSnapshotV1.snapshotId ref.snapshotId bundle.snapshots).bind fun snapshot =>
    documentLabel snapshot.document ref).getD ref.entityId

def snapshotArtifacts (snapshot : RoundSnapshotV1) : List (RoundArtifactRefV1 × String) :=
  (snapshot.document.cards.map fun card =>
      (⟨snapshot.snapshotId, .card, card.id⟩, card.text)) ++
    (snapshot.document.islands.map fun island =>
      (⟨snapshot.snapshotId, .island, island.id⟩, islandLabel island)) ++
    ((snapshot.document.narratives.getD []).map fun narrative =>
      (⟨snapshot.snapshotId, .narrative, narrative.id⟩, narrative.title)) ++
    (snapshot.document.relationSummaries.getD []).map fun summary =>
      (⟨snapshot.snapshotId, .relationSummary, summary.id⟩, summary.text)

def sameKey (left right : RoundArtifactRefV1) : Bool := artifactKey left = artifactKey right

/-- A candidate for a reference: a reference that is held is not adopted. -/
def artifactCandidate (carryover held : List String) (entry : RoundArtifactRefV1 × String) :
    InquiryHandoffArtifactCandidate where
  candidateId := artifactCandidateId entry.1
  artifactKind := entry.1.kind
  label := entry.2
  ref := entry.1
  decision :=
    if artifactKey entry.1 ∈ held then .held
    else if artifactKey entry.1 ∈ carryover then .adopted
    else .pending

def carryoverRefs (round : RoundRecordV1) : List RoundArtifactRefV1 :=
  (round.handoff.map RoundHandoffV1.carryoverRefs).getD []

def heldRefs (round : RoundRecordV1) : List RoundArtifactRefV1 :=
  (round.handoff.map RoundHandoffV1.heldRefs).getD []

/-- The references that are reviewed, each key at its first occurrence. -/
def reviewedRefs (bundle : InquiryBundleV1) (round : RoundRecordV1) (snapshot : RoundSnapshotV1) :
    List (RoundArtifactRefV1 × String) :=
  keepFirst (fun left right => sameKey left.1 right.1)
    (snapshotArtifacts snapshot ++
      (carryoverRefs round ++ heldRefs round).map fun ref => (ref, artifactLabel bundle ref))

def understandingCandidate (understanding : String) : InquiryHandoffTextCandidate where
  candidateId := "understanding"
  kind := .understanding
  value := understanding
  originalValue := understanding
  decision := if trim understanding = "" then .pending else .adopted
  fieldworkRequest := none

def newCandidate (candidateId : String) (kind : InquiryHandoffTextKind) :
    InquiryHandoffTextCandidate where
  candidateId
  kind
  value := ""
  originalValue := ""
  decision := .pending
  fieldworkRequest := none

def unresolvedCandidates (unresolved : List String) : List InquiryHandoffTextCandidate :=
  if unresolved = [] then [newCandidate "unresolved:new" .unresolvedQuestion]
  else unresolved.mapIdx fun index value =>
    ⟨"unresolved:" ++ toString index, .unresolvedQuestion, value, value, .adopted, none⟩

def fieldworkCandidates (fieldwork : List FieldworkRequestV1) : List InquiryHandoffTextCandidate :=
  if fieldwork = [] then [newCandidate "fieldwork:new" .fieldworkRequest]
  else fieldwork.map fun request =>
    ⟨"fieldwork:" ++ request.requestId, .fieldworkRequest, request.question, request.question,
      .adopted, some request⟩

def textCandidates (round : RoundRecordV1) : List InquiryHandoffTextCandidate :=
  understandingCandidate ((round.handoff.bind RoundHandoffV1.understandingDelta).getD "") ::
    (unresolvedCandidates ((round.handoff.map RoundHandoffV1.unresolvedQuestions).getD []) ++
      fieldworkCandidates ((round.handoff.map RoundHandoffV1.fieldworkRequests).getD []))

def buildInquiryHandoffReview (bundle : InquiryBundleV1) (roundId : Option String) :
    Except BuildReviewFailure (String × List InquiryHandoffReviewCandidate) :=
  let roundId := roundId.or bundle.journey.defaultHeadRoundId
  match roundId.bind fun roundId =>
    findBy RoundRecordV1.roundId roundId bundle.journey.roundRecords with
  | none => .error .roundNotFound
  | some round =>
      match round.outputSnapshotId.bind fun snapshotId =>
        findBy RoundSnapshotV1.snapshotId snapshotId bundle.snapshots with
      | none => .error .snapshotNotFound
      | some snapshot =>
          let carryover := (carryoverRefs round).map artifactKey
          let held := (heldRefs round).map artifactKey
          .ok (round.roundId,
            ((reviewedRefs bundle round snapshot).map fun entry =>
              .artifact (artifactCandidate carryover held entry)) ++
            (textCandidates round).map .text)

/-! ## The handoff of the decisions -/

/-- The candidates for artifacts, and those for texts of a kind that are adopted and not blank. -/
def artifactCandidates (candidates : List InquiryHandoffReviewCandidate) :
    List InquiryHandoffArtifactCandidate :=
  candidates.filterMap fun candidate => match candidate with
    | .artifact candidate => some candidate
    | .text _ => none

def adoptedTexts (kind : InquiryHandoffTextKind)
    (candidates : List InquiryHandoffReviewCandidate) : List InquiryHandoffTextCandidate :=
  candidates.filterMap fun candidate => match candidate with
    | .artifact _ => none
    | .text candidate =>
        if candidate.kind = kind ∧ candidate.decision = .adopted ∧ trim candidate.value ≠ "" then
          some candidate
        else none

def uniqueArtifactRefs (candidates : List InquiryHandoffReviewCandidate)
    (decision : InquiryHandoffReviewDecision) : List RoundArtifactRefV1 :=
  keepFirst sameKey (((artifactCandidates candidates).filter fun candidate =>
    candidate.decision = decision).map InquiryHandoffArtifactCandidate.ref)

/-- The requests, with how many ids have been drawn before: a new request takes the next one. -/
def buildRequests (ids : Nat → String) : Nat → List InquiryHandoffTextCandidate →
    List FieldworkRequestV1
  | _, [] => []
  | drawn, candidate :: candidates =>
      let question := trim candidate.value
      match candidate.fieldworkRequest with
      | none => ⟨"fieldwork-" ++ ids drawn, question, none⟩ ::
          buildRequests ids (drawn + 1) candidates
      | some existing =>
          ⟨existing.requestId, question,
            existing.outcome.filter fun _ => trim candidate.originalValue = question⟩ ::
          buildRequests ids drawn candidates

def buildHandoff (ids : Nat → String) (candidates : List InquiryHandoffReviewCandidate) :
    RoundHandoffV1 where
  carryoverRefs := uniqueArtifactRefs candidates .adopted
  heldRefs := uniqueArtifactRefs candidates .held
  unresolvedQuestions := (adoptedTexts .unresolvedQuestion candidates).map fun candidate =>
    trim candidate.value
  fieldworkRequests := buildRequests ids 0 (adoptedTexts .fieldworkRequest candidates)
  understandingDelta := (adoptedTexts .understanding candidates).head?.map fun candidate =>
    trim candidate.value

def isUnanswered : InquiryHandoffReviewCandidate → Bool
  | .artifact candidate => candidate.decision = .pending
  | .text candidate => candidate.decision = .pending ||
      (decide (candidate.decision = .adopted) && decide (trim candidate.value = ""))

def RoundRecordV1.handOff (round : RoundRecordV1) (updatedAt : String) (unansweredCount : Nat)
    (handoff : RoundHandoffV1) : RoundRecordV1 :=
  { round with
    updatedAt
    status := if unansweredCount > 0 then "paused" else "handed_off"
    handoff := some handoff }

/-- The bundle with the handoff that is built from decisions, and the number of candidates that
are not decided on. -/
def saveInquiryRoundHandoff (dates : DateFormat) (ids : Nat → String) (now : String)
    (bundle : InquiryBundleV1) (roundId : String)
    (candidates : List InquiryHandoffReviewCandidate) :
    Except SaveHandoffFailure (InquiryBundleV1 × Nat) :=
  match bundle.journey.roundRecords.findIdx? fun round => round.roundId = roundId with
  | none => .error .roundNotFound
  | some roundIndex =>
      let unansweredCount := candidates.countP isUnanswered
      let handoff := buildHandoff ids candidates
      let nextBundle : InquiryBundleV1 := { bundle with
        journey := { bundle.journey with
          roundRecords := bundle.journey.roundRecords.modify roundIndex fun round =>
            round.handOff now unansweredCount handoff
          updatedAt := now } }
      if validateInquiryBundle dates nextBundle ≠ [] then .error .invalidHandoff
      else .ok (nextBundle, unansweredCount)

end KjAtlas.Inquiry
