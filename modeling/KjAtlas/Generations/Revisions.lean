import KjAtlas.Generations.Blobs

/-! # Revisions

The tables of revisions, of their parents, of the heads of a document and of
pinned revisions, and the history that a revision heads: the contents along the
only parents, newest first.
-/

namespace KjAtlas.Generation

open Py (Bytes)

inductive GenerationTier where
  | ephemeral
  | checkpoint
  | governed
deriving DecidableEq

inductive GenerationReason where
  | autosave
  | manualSave
  | roundCheckpoint
  | branch
  | merge
  | «import»
  | aiProposal
  | humanAcceptance
  | humanReview
  | share
  | «export»
deriving DecidableEq

inductive GenerationOrigin where
  | human
  | aiProposal
  | system
  | «import»
deriving DecidableEq

structure CanvasRevisionRow where
  tenantId : String
  revisionId : String
  docId : String
  contentDigest : String
  generationTier : GenerationTier
  generationReason : GenerationReason
  generationOrigin : GenerationOrigin
  actorRef : Option String
  aiRunRef : Option String
  sourceRevisionId : Option String
  createdAt : String
deriving DecidableEq

structure CanvasRevisionParentRow where
  tenantId : String
  revisionId : String
  parentRevisionId : String
  parentOrder : Int
deriving DecidableEq

structure CanvasRevisionHeadRow where
  tenantId : String
  docId : String
  headName : String
  revisionId : String
  headVersion : Int
  updatedAt : String
deriving DecidableEq

structure CanvasRevisionPinRow where
  tenantId : String
  revisionId : String
  pinReason : String
  createdAt : String
deriving DecidableEq

def CanvasRevisionRow.key (row : CanvasRevisionRow) : String × String :=
  (row.tenantId, row.revisionId)

def CanvasRevisionParentRow.key (row : CanvasRevisionParentRow) : String × String × String :=
  (row.tenantId, row.revisionId, row.parentRevisionId)

def CanvasRevisionHeadRow.key (row : CanvasRevisionHeadRow) : String × String × String :=
  (row.tenantId, row.docId, row.headName)

def CanvasRevisionPinRow.key (row : CanvasRevisionPinRow) : String × String :=
  (row.tenantId, row.revisionId)

/-- The tables that the documents of a tenant share. -/
structure Revisions where
  blobs : List ContentBlobRow
  revisions : List CanvasRevisionRow
  parents : List CanvasRevisionParentRow
  heads : List CanvasRevisionHeadRow

namespace Revisions

def findRevision (t : Revisions) (tenantId revisionId : String) : Option CanvasRevisionRow :=
  findBy CanvasRevisionRow.key (tenantId, revisionId) t.revisions

def findHead (t : Revisions) (tenantId docId headName : String) : Option CanvasRevisionHeadRow :=
  findBy CanvasRevisionHeadRow.key (tenantId, docId, headName) t.heads

def parentsOf (t : Revisions) (tenantId revisionId : String) : List CanvasRevisionParentRow :=
  t.parents.filter fun edge => edge.tenantId = tenantId ∧ edge.revisionId = revisionId

end Revisions

end KjAtlas.Generation
