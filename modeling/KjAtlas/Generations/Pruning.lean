import KjAtlas.Foundation.LabelSearch
import KjAtlas.Generations.Revisions

/-! # Pruning ephemeral history

From the roots of the history of a tenant, the nearest ephemeral revisions are
retained. Of the others, those that are old enough are deleted, children first.
Edges to them from revisions that stay are cut.
-/

namespace KjAtlas.Generation

/-- Why pruning raises. -/
inductive GcRaised where
  | valueError (message : String)
  | generationGcConflict (message : String)
  /-- A `GenerationGcConflict` that names the revision. -/
  | becameProtected (revisionId : String)
  | integrityError
deriving DecidableEq

inductive DeletionTarget where
  | revision
  | blob
deriving DecidableEq

inductive DeletionAction where
  | revisionGcDelete
  | blobGcDelete
deriving DecidableEq

inductive DeletionOutcome where
  | deleted
  | notFound
  | failed
deriving DecidableEq

structure GenerationDeletionAuditEventRow where
  eventId : String
  tenantId : String
  targetKind : DeletionTarget
  targetRef : String
  storageBackend : Option StorageBackend
  action : DeletionAction
  outcome : DeletionOutcome
  executorRef : String
  occurredAt : String
deriving DecidableEq

/-- The tables that pruning reads and writes. -/
structure HistoryTables where
  revisions : List CanvasRevisionRow
  parents : List CanvasRevisionParentRow
  heads : List CanvasRevisionHeadRow
  pins : List CanvasRevisionPinRow
  audits : List GenerationDeletionAuditEventRow
deriving DecidableEq

structure EphemeralHistoryPruneResult where
  deletedRevisionIds : List String
  cutParentEdges : Nat
deriving DecidableEq

/-- The arguments of a pruning. -/
structure Prune where
  tenantId : String
  olderThan : String
  keepPerRoot : Int
  executorRef : String
  occurredAt : String
  auditEventIdFor : String → String

namespace HistoryTables

variable (t : HistoryTables) (tenantId : String)

/-- `revision_by_id.get(revision_id)`. -/
def findRevision (revisionId : String) : Option CanvasRevisionRow :=
  findBy CanvasRevisionRow.key (tenantId, revisionId) t.revisions

def tenantRevisions : List CanvasRevisionRow :=
  t.revisions.filter fun row => row.tenantId = tenantId

def tenantParents : List CanvasRevisionParentRow :=
  t.parents.filter fun edge => edge.tenantId = tenantId

/-! ## Retained revisions -/

def parentIds (revisionId : String) : List String :=
  ((t.tenantParents tenantId).filter fun edge => edge.revisionId = revisionId).map
    CanvasRevisionParentRow.parentRevisionId

def presentParents (revisionId : String) : Except GcRaised (List String) := do
  ensure (∀ parentId ∈ t.parentIds tenantId revisionId, (t.findRevision tenantId parentId).isSome)
    (.generationGcConflict "revision DAG references a missing parent")
  return t.parentIds tenantId revisionId

def ephemeralCount (revisionId : String) : Nat :=
  if (t.findRevision tenantId revisionId).any fun row => row.generationTier = .ephemeral then 1
  else 0

/-- The set of roots: durable revisions, sources, heads and pins. -/
def roots : List String :=
  (((t.tenantRevisions tenantId).filter fun row => row.generationTier ≠ .ephemeral).map
      CanvasRevisionRow.revisionId ++
    (t.tenantRevisions tenantId).filterMap (fun row => row.sourceRevisionId.filter (· ≠ "")) ++
    (t.heads.filter fun head => head.tenantId = tenantId).map CanvasRevisionHeadRow.revisionId ++
    (t.pins.filter fun pin => pin.tenantId = tenantId).map
      CanvasRevisionPinRow.revisionId).dedup

def knownRoots : List String :=
  (t.roots tenantId).filter fun revisionId => (t.findRevision tenantId revisionId).isSome

def retainedRevisions (keepPerRoot : Nat) : Except GcRaised (List String) :=
  LabelSearch.search (t.presentParents tenantId) (t.ephemeralCount tenantId) keepPerRoot
    (LabelSearch.searchFuel (t.parentIds tenantId) keepPerRoot
      ((t.tenantRevisions tenantId).map CanvasRevisionRow.revisionId) (t.knownRoots tenantId))
    (t.knownRoots tenantId)

/-! ## Candidates -/

/-- The set of revisions to delete. -/
def candidates (olderThan : String) (retained : List String) : List String :=
  (((t.tenantRevisions tenantId).filter fun row =>
      row.generationTier = .ephemeral ∧ row.createdAt < olderThan ∧
        row.revisionId ∉ retained).map CanvasRevisionRow.revisionId).dedup

def childrenInCandidates (candidates : List String) (revisionId : String) : List String :=
  ((t.tenantParents tenantId).filter fun edge =>
    edge.parentRevisionId = revisionId ∧ edge.parentRevisionId ∈ candidates ∧
      edge.revisionId ∈ candidates).map CanvasRevisionParentRow.revisionId

def deletionOrder (candidates : List String) : Except GcRaised (List String) :=
  peel (sortOn codePointLe id) (t.childrenInCandidates tenantId candidates)
    (.generationGcConflict "revision DAG cycle prevents retention pruning") candidates

def IsBoundary (candidates : List String) (edge : CanvasRevisionParentRow) : Prop :=
  edge.tenantId = tenantId ∧ edge.parentRevisionId ∈ candidates ∧ edge.revisionId ∉ candidates

instance (candidates : List String) (edge : CanvasRevisionParentRow) :
    Decidable (IsBoundary tenantId candidates edge) := by
  unfold IsBoundary
  infer_instance

/-! ## Deletion -/

/-- A head, a child, a source reference or a pin protects a revision. -/
def IsProtected (revisionId : String) : Prop :=
  (∃ head ∈ t.heads, head.tenantId = tenantId ∧ head.revisionId = revisionId) ∨
    (∃ edge ∈ t.parents, edge.tenantId = tenantId ∧ edge.parentRevisionId = revisionId) ∨
    (∃ row ∈ t.revisions, row.tenantId = tenantId ∧ row.sourceRevisionId = some revisionId) ∨
    ∃ pin ∈ t.pins, pin.tenantId = tenantId ∧ pin.revisionId = revisionId

instance (revisionId : String) : Decidable (t.IsProtected tenantId revisionId) := by
  unfold IsProtected
  infer_instance

end HistoryTables

def Prune.audit (call : Prune) (revisionId : String) : GenerationDeletionAuditEventRow where
  eventId := call.auditEventIdFor revisionId
  tenantId := call.tenantId
  targetKind := .revision
  targetRef := revisionId
  storageBackend := none
  action := .revisionGcDelete
  outcome := .deleted
  executorRef := call.executorRef
  occurredAt := call.occurredAt

def Prune.Hits (call : Prune) (revisionId : String) (row : CanvasRevisionRow) : Prop :=
  row.tenantId = call.tenantId ∧ row.revisionId = revisionId ∧
    row.generationTier = .ephemeral ∧ row.createdAt < call.olderThan

instance (call : Prune) (revisionId : String) (row : CanvasRevisionRow) :
    Decidable (call.Hits revisionId row) := by
  unfold Prune.Hits
  infer_instance

/-- Delete a revision if nothing protects it, with an audit event. -/
def deleteEphemeralGcCandidate (call : Prune) (t : HistoryTables) (revisionId : String) :
    Except GcRaised (Bool × HistoryTables) :=
  if ¬ t.IsProtected call.tenantId revisionId ∧
      (t.revisions.filter fun row => call.Hits revisionId row).length = 1 then do
    let audits ← found .integrityError
      (insertBy GenerationDeletionAuditEventRow.eventId (call.audit revisionId) t.audits)
    return (true, { t with
      revisions := t.revisions.filter fun row => ¬ call.Hits revisionId row
      audits := audits })
  else .ok (false, t)

def deleteRevision (call : Prune) (t : HistoryTables) (revisionId : String) :
    Except GcRaised HistoryTables := do
  let (deleted, t) ← deleteEphemeralGcCandidate call { t with
    parents := t.parents.filter fun edge =>
      ¬ (edge.tenantId = call.tenantId ∧ edge.revisionId = revisionId) } revisionId
  ensure (deleted = true) (.becameProtected revisionId)
  return t

def pruneEphemeralHistoryByReachability (t : HistoryTables) (call : Prune) :
    Except GcRaised (EphemeralHistoryPruneResult × HistoryTables) := do
  ensure (¬ call.keepPerRoot < 1)
    (.valueError "ephemeral history retention count must be positive")
  let retained ← t.retainedRevisions call.tenantId call.keepPerRoot.toNat
  let candidates := t.candidates call.tenantId call.olderThan retained
  let order ← t.deletionOrder call.tenantId candidates
  let boundary := t.parents.filter fun edge =>
    HistoryTables.IsBoundary call.tenantId candidates edge
  let cut := { t with parents := t.parents.filter fun edge =>
    ¬ HistoryTables.IsBoundary call.tenantId candidates edge }
  let t ← order.foldlM (deleteRevision call) cut
  return ({ deletedRevisionIds := order, cutParentEdges := boundary.length }, t)

end KjAtlas.Generation
