import KjAtlas.Foundation.KeyedStore
import KjAtlas.Foundation.Transactions

/-! # Decisions on proposals

A registered proposal is adopted, rejected or held by a reviewer, under an
idempotency key of its document, or held by the system when a final judgement
fails. Without a state row a proposal is only proposed. An operation that raises
is rolled back by its caller, so a failure carries no tables.
-/

namespace KjAtlas.Proposal

/-- Why an operation raises. -/
inductive Raised where
  | keyError (key : String)
  | proposalNotRegistered (message : String)
  | proposalDecisionConflict (message : String)
  | integrityError (constraint : String)

/-! ## Tables -/

inductive Status where
  | accepted
  | rejected
  | held
deriving DecidableEq

inductive Origin where
  | internal
  | externalAgent
deriving DecidableEq

structure AIProposalRow where
  tenantId : String
  docId : String
  proposalId : String
  proposalKind : String
  sourceBundleHash : String
  origin : Origin
  provenanceLevel : Option String

structure AIProposalDecisionStateRow where
  tenantId : String
  docId : String
  proposalId : String
  sourceBundleHash : String
  status : Status
  version : Nat
  updatedAt : String

structure AIProposalDecisionEventRow where
  eventId : String
  tenantId : String
  docId : String
  proposalId : String
  sourceBundleHash : String
  idempotencyKey : String
  decision : Status
  reviewerRef : String
  proposalOrigin : Origin
  provenanceLevel : Option String
  reasonSha256 : Option String
  reasonUtf8Bytes : Nat
  recordedAt : String

/-- The tenant, the document and the id of a proposal. -/
abbrev ProposalKey := String × String × String

def AIProposalRow.key (row : AIProposalRow) : ProposalKey :=
  (row.tenantId, row.docId, row.proposalId)

def AIProposalDecisionStateRow.key (row : AIProposalDecisionStateRow) : ProposalKey :=
  (row.tenantId, row.docId, row.proposalId)

def AIProposalDecisionEventRow.key (row : AIProposalDecisionEventRow) : ProposalKey :=
  (row.tenantId, row.docId, row.proposalId)

/-- The unique columns of an event. -/
def AIProposalDecisionEventRow.scope (row : AIProposalDecisionEventRow) :
    String × String × String :=
  (row.tenantId, row.docId, row.idempotencyKey)

structure Tables where
  proposals : List AIProposalRow
  states : List AIProposalDecisionStateRow
  events : List AIProposalDecisionEventRow

namespace Tables

def proposal? (t : Tables) (key : ProposalKey) : Option AIProposalRow :=
  findBy AIProposalRow.key key t.proposals

def state? (t : Tables) (key : ProposalKey) : Option AIProposalDecisionStateRow :=
  findBy AIProposalDecisionStateRow.key key t.states

/-- The event under an idempotency key. -/
def event? (t : Tables) (scope : String × String × String) : Option AIProposalDecisionEventRow :=
  findBy AIProposalDecisionEventRow.scope scope t.events

/-- Insert a state row, or write back a changed one. -/
def putState (t : Tables) (row : AIProposalDecisionStateRow) : Tables :=
  { t with states := upsertBy AIProposalDecisionStateRow.key row t.states }

def addEvent (t : Tables) (row : AIProposalDecisionEventRow) : Tables :=
  { t with events := t.events ++ [row] }

end Tables

/-! ## Operations -/

structure ProposalDecisionReceipt where
  eventId : String
  proposalId : String
  status : Status
  recordedAt : String
deriving DecidableEq

structure ProposalSystemHoldReceipt where
  proposalId : String
  status : Status
  transitioned : Bool
  recordedAt : String
deriving DecidableEq

/-- The arguments of a system hold. -/
structure SystemHold where
  tenantId : String
  docId : String
  proposalId : String
  sourceBundleHash : String
deriving DecidableEq

def SystemHold.key (hold : SystemHold) : ProposalKey :=
  (hold.tenantId, hold.docId, hold.proposalId)

def validateExternalProposalReference (hold : SystemHold) (t : Tables) :
    Except Raised AIProposalRow := do
  let proposal ← found
    (.proposalNotRegistered "external proposal is not registered for this document")
    (t.proposal? hold.key)
  ensure (proposal.origin = .externalAgent)
    (.proposalDecisionConflict "proposal is not an external-agent proposal")
  ensure (proposal.sourceBundleHash = hold.sourceBundleHash)
    (.proposalDecisionConflict "external proposal source bundle does not match")
  return proposal

/-- `now` is the reading of the clock. -/
def holdExternalProposalForFinalJudgementFailure (hold : SystemHold) (now : String) (t : Tables) :
    Except Raised (ProposalSystemHoldReceipt × Tables) := do
  let proposal ← validateExternalProposalReference hold t
  match t.state? hold.key with
  | some state => do
      ensure (state.sourceBundleHash = hold.sourceBundleHash)
        (.proposalDecisionConflict "proposal source bundle does not match")
      return ({
        proposalId := proposal.proposalId
        status := state.status
        transitioned := false
        recordedAt := state.updatedAt }, t)
  | none =>
      return ({
        proposalId := hold.proposalId
        status := .held
        transitioned := true
        recordedAt := now }, t.putState {
          tenantId := hold.tenantId
          docId := hold.docId
          proposalId := hold.proposalId
          sourceBundleHash := hold.sourceBundleHash
          status := .held
          version := 1
          updatedAt := now })

/-- The arguments of a decision. -/
structure Decision where
  tenantId : String
  docId : String
  proposalId : String
  sourceBundleHash : String
  idempotencyKey : String
  decision : String
  reviewerRef : String
  reason : Option String
  expectedOrigin : Origin
deriving DecidableEq

def Decision.key (decision : Decision) : ProposalKey :=
  (decision.tenantId, decision.docId, decision.proposalId)

def Decision.scope (decision : Decision) : String × String × String :=
  (decision.tenantId, decision.docId, decision.idempotencyKey)

/-- `_DECISION_STATUS`. -/
def decisionStatus : String → Option Status
  | "adopt" => some .accepted
  | "reject" => some .rejected
  | "hold" => some .held
  | _ => none

/-- `(reason or "").encode("utf-8")`. -/
def reasonBytes (reason : Option String) : ByteArray := (reason.getD "").toUTF8

def reasonDigest (sha256 : ByteArray → String) (reason : Option String) : Option String :=
  reason.map fun text => sha256 text.toUTF8

def AIProposalDecisionEventRow.Records (sha256 : ByteArray → String)
    (event : AIProposalDecisionEventRow) (decision : Decision) (status : Status) : Prop :=
  event.proposalId = decision.proposalId ∧ event.sourceBundleHash = decision.sourceBundleHash ∧
    event.decision = status ∧ event.reviewerRef = decision.reviewerRef ∧
    event.reasonSha256 = reasonDigest sha256 decision.reason ∧
    event.reasonUtf8Bytes = (reasonBytes decision.reason).size

instance (sha256 : ByteArray → String) (event : AIProposalDecisionEventRow) (decision : Decision)
    (status : Status) : Decidable (event.Records sha256 decision status) :=
  inferInstanceAs (Decidable (_ ∧ _))

def AIProposalDecisionEventRow.receipt (event : AIProposalDecisionEventRow) :
    ProposalDecisionReceipt where
  eventId := event.eventId
  proposalId := event.proposalId
  status := event.decision
  recordedAt := event.recordedAt

/-- The state row after a decision. A row that is there must be held and is updated at the
version that was read. -/
def decidedState (decision : Decision) (status : Status) (now : String)
    (state : Option AIProposalDecisionStateRow) : Except Raised AIProposalDecisionStateRow :=
  match state with
  | none => return {
      tenantId := decision.tenantId
      docId := decision.docId
      proposalId := decision.proposalId
      sourceBundleHash := decision.sourceBundleHash
      status
      version := 1
      updatedAt := now }
  | some state => do
      ensure (state.sourceBundleHash = decision.sourceBundleHash)
        (.proposalDecisionConflict "proposal source bundle does not match")
      ensure (state.status = .held)
        (.proposalDecisionConflict "proposal already has a terminal decision")
      ensure (status ≠ .held) (.proposalDecisionConflict "proposal is already held")
      return { state with status, version := state.version + 1, updatedAt := now }

/-- `now` is the reading of the clock and `uuid` the one that is drawn. -/
def recordProposalDecision (sha256 : ByteArray → String) (decision : Decision)
    (now uuid : String) (t : Tables) : Except Raised (ProposalDecisionReceipt × Tables) := do
  let status ← found (.keyError decision.decision) (decisionStatus decision.decision)
  let proposal ← found (.proposalNotRegistered "proposal is not registered for this document")
    (t.proposal? decision.key)
  ensure (proposal.origin = decision.expectedOrigin)
    (.proposalDecisionConflict "proposal origin does not match endpoint")
  ensure (proposal.sourceBundleHash = decision.sourceBundleHash)
    (.proposalDecisionConflict "proposal source bundle does not match")
  match t.event? decision.scope with
  | some existing => do
      ensure (existing.Records sha256 decision status)
        (.proposalDecisionConflict "idempotency key was already used for another decision")
      return (existing.receipt, t)
  | none => do
      let state ← decidedState decision status now (t.state? decision.key)
      let event : AIProposalDecisionEventRow := {
        eventId := "proposal-decision-" ++ uuid
        tenantId := decision.tenantId
        docId := decision.docId
        proposalId := decision.proposalId
        sourceBundleHash := decision.sourceBundleHash
        idempotencyKey := decision.idempotencyKey
        decision := status
        reviewerRef := decision.reviewerRef
        proposalOrigin := proposal.origin
        provenanceLevel := proposal.provenanceLevel
        reasonSha256 := reasonDigest sha256 decision.reason
        reasonUtf8Bytes := (reasonBytes decision.reason).size
        recordedAt := now }
      ensure (∀ other ∈ t.events, other.eventId ≠ event.eventId)
        (.integrityError "ai_proposal_decision_events.event_id")
      return (event.receipt, (t.putState state).addEvent event)

/-- A call, with what it reads from the clock and the generator of ids. -/
inductive Call where
  | record (decision : Decision) (now uuid : String)
  | systemHold (hold : SystemHold) (now : String)
deriving DecidableEq

inductive Receipt where
  | decision (receipt : ProposalDecisionReceipt)
  | systemHold (receipt : ProposalSystemHoldReceipt)
deriving DecidableEq

def serve (sha256 : ByteArray → String) (t : Tables) : Call → Except Raised (Receipt × Tables)
  | .record decision now uuid => do
      let (receipt, next) ← recordProposalDecision sha256 decision now uuid t
      return (.decision receipt, next)
  | .systemHold hold now => do
      let (receipt, next) ← holdExternalProposalForFinalJudgementFailure hold now t
      return (.systemHold receipt, next)

end KjAtlas.Proposal
