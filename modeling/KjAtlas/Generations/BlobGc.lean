import KjAtlas.Generations.Pruning

/-! # Collecting unreferenced blobs

A blob is a row, and for other backends than the database also an object outside
it. Blobs are named by revisions, by the differences that start from them and by
the AI runs that put them out. Collecting a blob claims its row, deletes the
object and then the row, and records the attempt. What is done to an object is
not undone when the transaction fails.
-/

namespace KjAtlas.Generation.BlobGc

/-- Why a call is refused. -/
inductive Raised where
  | blob (raised : BlobRaised)
  | gc (raised : GcRaised)
  | integrityError

structure AiGenerationRunRow where
  tenantId : String
  aiRunId : String
  task : String
  traceId : String
  inputIrDigest : String
  outputDigest : String
  policyVersion : String
  safeMode : Bool
  createdAt : String
  retentionExpiresAt : Option String
deriving DecidableEq

def AiGenerationRunRow.key (row : AiGenerationRunRow) : String × String :=
  (row.tenantId, row.aiRunId)

/-- The place of an object outside the database. -/
abbrev Location := StorageBackend × String

def location (row : ContentBlobRow) : Option Location :=
  if row.storageBackend = .database then none
  else row.locator.map fun locator => (row.storageBackend, locator)

/-- The tables that name blobs, and the objects outside the database. -/
structure Storage where
  blobs : List ContentBlobRow
  history : HistoryTables
  aiRuns : List AiGenerationRunRow
  objects : List Location
deriving DecidableEq

def Storage.empty : Storage where
  blobs := []
  history := { revisions := [], parents := [], heads := [], pins := [], audits := [] }
  aiRuns := []
  objects := []

/-! ## Constraints of the tables -/

/-- `length(trim(text)) > 0`: not only blanks. -/
def HasText (text : String) : Prop := text.toList.any (· ≠ ' ') = true

instance (text : String) : Decidable (HasText text) := inferInstanceAs (Decidable (_ = _))

/-- The check constraints of the table on a row whose object is outside the database. -/
def AllowedOutside (row : ContentBlobRow) : Prop :=
  row.representation ∈ [ContentBlobRow.fullJson, .gzipJson, .gzipDelta] ∧
    (row.representation = .gzipDelta ∧ row.baseDigest.isSome ∧ 0 < row.deltaDepth ∨
      row.representation ≠ .gzipDelta ∧ row.baseDigest = none ∧ row.deltaDepth = 0) ∧
    0 ≤ row.byteSize ∧ 0 ≤ row.storedByteSize ∧ row.contentDigest.length = 64 ∧
    row.storageBackend ≠ .database ∧ (∃ locator ∈ row.locator, HasText locator) ∧
    row.payloadBytes = none

instance (row : ContentBlobRow) : Decidable (AllowedOutside row) := by
  unfold AllowedOutside
  infer_instance

def AiGenerationRunRow.Allowed (row : AiGenerationRunRow) : Prop :=
  HasText row.task ∧ row.inputIrDigest.length = 64 ∧ row.outputDigest.length = 64 ∧
    row.safeMode = true

instance (row : AiGenerationRunRow) : Decidable row.Allowed := by
  unfold AiGenerationRunRow.Allowed
  infer_instance

/-- A proposal names its AI run, and no other revision does. -/
def RevisionAllowed (row : CanvasRevisionRow) : Prop :=
  row.aiRunRef.isSome ↔ row.generationOrigin = .aiProposal

instance (row : CanvasRevisionRow) : Decidable (RevisionAllowed row) := by
  unfold RevisionAllowed
  infer_instance

/-! ## References -/

namespace Storage

variable (s : Storage) (tenantId digest : String)

/-- The references that the queries of the collector exclude. -/
def IsReferenced : Prop :=
  (∃ row ∈ s.history.revisions, row.tenantId = tenantId ∧ row.contentDigest = digest) ∨
    ∃ row ∈ s.blobs, row.tenantId = tenantId ∧ row.baseDigest = some digest

/-- An AI run put out the digest. -/
def IsOutput : Prop := ∃ row ∈ s.aiRuns, row.tenantId = tenantId ∧ row.outputDigest = digest

instance : Decidable (s.IsReferenced tenantId digest) := by
  unfold IsReferenced
  infer_instance

instance : Decidable (s.IsOutput tenantId digest) := by
  unfold IsOutput
  infer_instance

def IsCandidate (olderThan : String) (row : ContentBlobRow) : Prop :=
  row.tenantId = tenantId ∧ row.createdAt < olderThan ∧
    row.storageState ∈ [.ready, .failed, .deleting] ∧
    ¬ s.IsReferenced row.tenantId row.contentDigest

instance (olderThan : String) (row : ContentBlobRow) :
    Decidable (s.IsCandidate tenantId olderThan row) := by
  unfold IsCandidate
  infer_instance

/-- By time, and by digest within a time. -/
def candidateLe (left right : String × String) : Bool :=
  left.1 < right.1 || (left.1 = right.1 && left.2 ≤ right.2)

def listUnreferencedBlobCandidates (olderThan : String) (limit : Int) :
    Except GcRaised (List ContentBlobRow) := do
  ensure (¬ limit < 1) (.valueError "blob candidate limit must be positive")
  return (sortOn candidateLe (fun row => (row.createdAt, row.contentDigest))
    (s.blobs.filter fun row => s.IsCandidate tenantId olderThan row)).take limit.toNat

end Storage

/-! ## Collecting -/

/-- The arguments of a deletion, of a revision or of a blob. -/
structure DeletionRequest where
  tenantId : String
  target : String
  olderThan : String
  auditEventId : String
  executorRef : String
  occurredAt : String

/-- What the adapter of the backend does when it is called. -/
inductive DeleteExternal where
  | deletes
  | reportsNotFound
  | raises
deriving DecidableEq

/-- Why the physical deletion of a blob fails. -/
inductive PhysicalRaised where
  | valueError (message : String)
  | raisedByAdapter

def deletePhysically (objects : List Location) (row : ContentBlobRow)
    (deleteExternal : Option DeleteExternal) :
    Except PhysicalRaised (DeletionOutcome × List Location) :=
  if row.storageBackend = .database then do
    ensure (row.locator = none)
      (.valueError "database blob must not have an external locator")
    return (.deleted, objects)
  else
    match row.locator.filter (· ≠ ""), deleteExternal with
    | some locator, some .deletes =>
        .ok (.deleted, objects.filter fun object => object ≠ (row.storageBackend, locator))
    | some _, some .reportsNotFound => .ok (.notFound, objects)
    | some _, some .raises => .error .raisedByAdapter
    | _, _ => .error <|
        .valueError "external blob deletion requires a locator and delete adapter"

/-- `_blob_deletion_audit`. -/
def DeletionRequest.audit (request : DeletionRequest) (row : ContentBlobRow)
    (outcome : DeletionOutcome) : GenerationDeletionAuditEventRow where
  eventId := request.auditEventId
  tenantId := request.tenantId
  targetKind := .blob
  targetRef := request.target
  storageBackend := some row.storageBackend
  action := .blobGcDelete
  outcome := outcome
  executorRef := request.executorRef
  occurredAt := request.occurredAt

inductive Answer where
  | done
  | listed (rows : List ContentBlobRow)
  | returned (deleted : Bool)
  /-- The transaction failed and its rows were rolled back. -/
  | rolledBack (raised : Raised)

def claimed (row : ContentBlobRow) : ContentBlobRow := { row with storageState := .deleting }

namespace Storage

variable (enforced : Bool) (s : Storage) (request : DeletionRequest)

/-- The row that a request selects. -/
def candidate : Option ContentBlobRow :=
  (findBlob s.blobs request.tenantId request.target).filter fun row =>
    s.IsCandidate request.tenantId request.olderThan row

def claim (row : ContentBlobRow) : Storage :=
  { s with blobs := upsertBy ContentBlobRow.key (claimed row) s.blobs }

def Deletes (row : ContentBlobRow) : Prop :=
  row.key = (request.tenantId, request.target) ∧ row.storageState = .deleting ∧
    ¬ s.IsReferenced row.tenantId row.contentDigest

instance (row : ContentBlobRow) : Decidable (s.Deletes request row) := by
  unfold Deletes
  infer_instance

/-- The guarded deletion, with the number of rows that it deletes. A database that enforces foreign
keys refuses to delete a row that is named. -/
def deleteGuarded : Except Raised (Nat × Storage) := do
  let hits := s.blobs.filter fun row => s.Deletes request row
  ensure (enforced = true → ∀ row ∈ hits, ¬ (s.IsReferenced row.tenantId row.contentDigest ∨
    s.IsOutput row.tenantId row.contentDigest)) .integrityError
  return (hits.length, { s with blobs := s.blobs.filter fun row => ¬ s.Deletes request row })

/-- Add the audit event and commit. The objects stay as they are when the commit fails. -/
def finish (start : Storage) (event : GenerationDeletionAuditEventRow) (deleted : Bool) :
    Answer × Storage :=
  match insertBy GenerationDeletionAuditEventRow.eventId event s.history.audits with
  | some audits => (.returned deleted, { s with history := { s.history with audits := audits } })
  | none => (.rolledBack .integrityError, { start with objects := s.objects })

/-- `delete_unreferenced_blob_gc_candidate`, in a transaction of its own. -/
def deleteUnreferencedBlobGcCandidate (deleteExternal : Option DeleteExternal) : Answer × Storage :=
  match s.candidate request with
  | none => (.returned false, s)
  | some row =>
      match deletePhysically s.objects row deleteExternal with
      | .error _ => (s.claim row).finish s (request.audit row .failed) false
      | .ok (outcome, objects) =>
          let deleting := { s.claim row with objects := objects }
          match deleting.deleteGuarded enforced request with
          | .error raised => (.rolledBack raised, { s with objects := objects })
          | .ok (rowcount, next) =>
              if rowcount = 1 then next.finish s (request.audit row outcome) true
              else next.finish s (request.audit row .failed) false

end Storage

/-! ## Calls -/

def DeletionRequest.prune (request : DeletionRequest) : Prune where
  tenantId := request.tenantId
  olderThan := request.olderThan
  keepPerRoot := 1
  executorRef := request.executorRef
  occurredAt := request.occurredAt
  auditEventIdFor _ := request.auditEventId

/-- A revision with the edges to its parents and the head that it is put under. -/
structure SaveRevision where
  row : CanvasRevisionRow
  parents : List CanvasRevisionParentRow
  head : Option CanvasRevisionHeadRow

inductive Call where
  | saveBlob (call : SaveBlob)
  /-- A blob that another writer has stored. -/
  | registerBlob (row : ContentBlobRow)
  | saveRevision (call : SaveRevision)
  | pinRevision (pin : CanvasRevisionPinRow)
  | recordAiRun (row : AiGenerationRunRow)
  | deleteRevision (request : DeletionRequest)
  | listBlobs (tenantId olderThan : String) (limit : Int)
  | deleteBlob (request : DeletionRequest) (deleteExternal : Option DeleteExternal)

namespace Storage

section Writes

variable (enforced : Bool) (s : Storage)

/-- A foreign key names a row that is there, if the database enforces it. -/
def checkKey (present : Prop) [Decidable present] : Except Raised Unit :=
  ensure (enforced = true → present) .integrityError

def registerBlob (row : ContentBlobRow) : Except Raised Storage := do
  ensure (row.Allowed ∨ AllowedOutside row) .integrityError
  checkKey enforced (∀ base ∈ row.baseDigest, (findBlob s.blobs row.tenantId base).isSome)
  let blobs ← found .integrityError (insertBy ContentBlobRow.key row s.blobs)
  return { s with blobs := blobs, objects := s.objects ++ (location row).toList }

def addParent (s : Storage) (edge : CanvasRevisionParentRow) : Except Raised Storage := do
  ensure (edge.revisionId ≠ edge.parentRevisionId ∧ 0 ≤ edge.parentOrder) .integrityError
  ensure (∀ other ∈ s.history.parents,
    ¬ (other.tenantId = edge.tenantId ∧ other.revisionId = edge.revisionId ∧
      other.parentOrder = edge.parentOrder)) .integrityError
  checkKey enforced ((s.history.findRevision edge.tenantId edge.revisionId).isSome ∧
    (s.history.findRevision edge.tenantId edge.parentRevisionId).isSome)
  let parents ← found .integrityError
    (insertBy CanvasRevisionParentRow.key edge s.history.parents)
  return { s with history := { s.history with parents := parents } }

def putHead (s : Storage) (head : CanvasRevisionHeadRow) : Except Raised Storage := do
  ensure (HasText head.headName ∧ 0 < head.headVersion) .integrityError
  checkKey enforced (s.history.findRevision head.tenantId head.revisionId).isSome
  return { s with history := { s.history with
    heads := upsertBy CanvasRevisionHeadRow.key head s.history.heads } }

def saveRevision (call : SaveRevision) : Except Raised Storage := do
  ensure (RevisionAllowed call.row) .integrityError
  checkKey enforced ((findBlob s.blobs call.row.tenantId call.row.contentDigest).isSome ∧
    (∀ source ∈ call.row.sourceRevisionId,
      (s.history.findRevision call.row.tenantId source).isSome) ∧
    ∀ aiRunId ∈ call.row.aiRunRef,
      (findBy AiGenerationRunRow.key (call.row.tenantId, aiRunId) s.aiRuns).isSome)
  let revisions ← found .integrityError
    (insertBy CanvasRevisionRow.key call.row s.history.revisions)
  let s ← call.parents.foldlM (addParent enforced)
    { s with history := { s.history with revisions := revisions } }
  match call.head with
  | some head => s.putHead enforced head
  | none => return s

def pinRevision (pin : CanvasRevisionPinRow) : Except Raised Storage := do
  checkKey enforced (s.history.findRevision pin.tenantId pin.revisionId).isSome
  let pins ← found .integrityError (insertBy CanvasRevisionPinRow.key pin s.history.pins)
  return { s with history := { s.history with pins := pins } }

def recordAiRun (row : AiGenerationRunRow) : Except Raised Storage := do
  ensure row.Allowed .integrityError
  checkKey enforced (findBlob s.blobs row.tenantId row.outputDigest).isSome
  let aiRuns ← found .integrityError (insertBy AiGenerationRunRow.key row s.aiRuns)
  return { s with aiRuns := aiRuns }

/-- The edges of a deleted revision go with it, if the database enforces foreign keys. -/
def deleteRevision (request : DeletionRequest) : Except Raised (Bool × Storage) := do
  let (deleted, history) ←
    (deleteEphemeralGcCandidate request.prune s.history request.target).mapError .gc
  let parents := history.parents.filter fun edge => ¬ (enforced = true ∧ deleted = true ∧
    edge.tenantId = request.tenantId ∧ edge.revisionId = request.target)
  return (deleted, { s with history := { history with parents := parents } })

end Writes

variable {F R : Type} (lib : Library F R) (maxDeltaDepth : Int) (enforced : Bool)

def serve (s : Storage) : Call → Except Raised (Answer × Storage)
  | .saveBlob call => do
      let (_, blobs) ← (saveDatabaseGenerationBlob lib maxDeltaDepth s.blobs call).mapError .blob
      return (.done, { s with blobs := blobs })
  | .registerBlob row => do
      let s ← s.registerBlob enforced row
      return (.done, s)
  | .saveRevision call => do
      let s ← s.saveRevision enforced call
      return (.done, s)
  | .pinRevision pin => do
      let s ← s.pinRevision enforced pin
      return (.done, s)
  | .recordAiRun row => do
      let s ← s.recordAiRun enforced row
      return (.done, s)
  | .deleteRevision request => do
      let (deleted, s) ← s.deleteRevision enforced request
      return (.returned deleted, s)
  | .listBlobs tenantId olderThan limit => do
      let rows ← (s.listUnreferencedBlobCandidates tenantId olderThan limit).mapError .gc
      return (.listed rows, s)
  | .deleteBlob request deleteExternal =>
      .ok (s.deleteUnreferencedBlobGcCandidate enforced request deleteExternal)

end Storage

end KjAtlas.Generation.BlobGc
