import KjAtlas.Generations.ContentStore

/-! # Concurrent PUTs of documents

A PUT reads its document, its main head again and again until there is one, and
writes in one commit. A row that has been read once is kept as it was read. The
row of the document is written without a check of its version; the head is moved
only if it still has the version that was read.
-/

namespace KjAtlas.Generation.Puts

open Py (Json)

/-- Why a PUT fails. -/
inductive PutRaised where
  | etagMismatch
  | content (raised : ContentRaised)
deriving DecidableEq

/-- A request, with the ETags that `If-Match` lists. -/
structure Put where
  ifMatch : Option (List String)
  save : SaveDocument

/-- Where the transaction of a PUT stands, with the rows that it keeps. -/
inductive Stage where
  /-- The first load has looked for the row. -/
  | begun (row : Option DocumentRow)
  /-- The first load is done. -/
  | loaded (row : Option DocumentRow) (head : Option CanvasRevisionHeadRow)
  /-- The load of the save has looked for the row. -/
  | reread (row : Option DocumentRow) (head : Option CanvasRevisionHeadRow)
  /-- The load of the save is done. -/
  | verified (stored : VersionedDocumentContent) (first : Option CanvasRevisionHeadRow)
  /-- The save has looked for the head. -/
  | compared (stored : VersionedDocumentContent) (first early : Option CanvasRevisionHeadRow)
  /-- The first revision to be made has looked for the head. -/
  | ready (stored : VersionedDocumentContent) (first early last : Option CanvasRevisionHeadRow)
  /-- The same, for a document that is not there. -/
  | creating (last : Option CanvasRevisionHeadRow)

structure Pending where
  put : Put
  stage : Stage

section Operations

variable {F R : Type} (lib : Library F R) (loads : String → Option (Json F))
  (computeEtag : String → String)

/-! ## Reads -/

def loadWith (t : ContentTables) (row : DocumentRow) (head : Option CanvasRevisionHeadRow) :
    Except ContentRaised VersionedDocumentContent := do
  let restored ← verifyWith lib loads t row head
  let content ← contentText row restored
  return ⟨row, content⟩

/-- The check of `If-Match` against the row that was loaded. -/
def checkIfMatch (put : Put) (row : Option DocumentRow) : Except PutRaised Unit :=
  match put.ifMatch with
  | none => .ok ()
  | some expected => do
      let row ← found .etagMismatch row
      ensure ("*" ∈ expected ∨ computeEtag row.payloadJson ∈ expected) .etagMismatch

/-- The head that the session keeps, or the one that is there now. -/
def readHead (t : ContentTables) (put : Put) (kept : Option CanvasRevisionHeadRow) :
    Option CanvasRevisionHeadRow :=
  kept.or (t.mainHead put.save.tenantId put.save.docId)

/-- The next read of a transaction. -/
def advance (t : ContentTables) (put : Put) : Stage → Except PutRaised Stage
  | .begun none => .ok (.loaded none none)
  | .begun (some row) => do
      let head := readHead t put none
      let _ ← (loadWith lib loads t row head).mapError .content
      return .loaded (some row) head
  | .loaded row head => do
      checkIfMatch computeEtag put row
      return .reread (row.or (t.findDocument put.save.tenantId put.save.docId)) head
  | .reread none kept => .ok (.creating (readHead t put kept))
  | .reread (some row) kept => do
      let head := readHead t put kept
      let stored ← (loadWith lib loads t row head).mapError .content
      return .verified stored head
  | .verified stored first => .ok (.compared stored first (readHead t put first))
  | .compared stored first early => .ok (.ready stored first early (readHead t put early))
  | .ready stored first early last => .ok (.ready stored first early last)
  | .creating last => .ok (.creating last)

/-! ## Writes -/

/-- `UPDATE documents`: of the columns, those are written that the session has changed. -/
def changed (kept new current : DocumentRow) : DocumentRow :=
  { current with
    version := if new.version = kept.version then current.version else new.version
    updatedAt := if new.updatedAt = kept.updatedAt then current.updatedAt else new.updatedAt
    payloadJson :=
      if new.payloadJson = kept.payloadJson then current.payloadJson else new.payloadJson }

/-- The changed columns are written to the row as it is now. -/
def updateDocument (t : ContentTables) (kept new : DocumentRow) : ContentTables :=
  match t.findDocument kept.tenantId kept.id with
  | some current => t.setDocument (changed kept new current)
  | none => t

/-- `_materialize_revision` with the head that the session keeps; the tables, and the head that it
keeps then. -/
def materializeWith (t : ContentTables) (kept : Option CanvasRevisionHeadRow) (row : DocumentRow)
    (content createdAt revisionId : String) :
    Except ContentRaised (ContentTables × CanvasRevisionHeadRow) := do
  let value ← found (.documentRevisionDivergence "document content is invalid JSON")
    (loads content)
  let encoded ← (encodeGeneration lib value none none 0 none).mapError .codec
  match kept with
  | none => do
      let head : CanvasRevisionHeadRow := {
        tenantId := row.tenantId
        docId := row.id
        headName := "main"
        revisionId := revisionId
        headVersion := 1
        updatedAt := createdAt }
      let t ← addContent lib t row encoded createdAt revisionId
      let t ← t.addHead head
      return (t, head)
  | some head => do
      let current ← found (.documentRevisionDivergence "document revision head is missing")
        (t.findRevision row.tenantId head.revisionId)
      if current.contentDigest = encoded.contentDigest then
        return (t, head)
      else do
        let t ← addContent lib t row encoded createdAt revisionId
        let t ← t.addParent {
          tenantId := row.tenantId
          revisionId := revisionId
          parentRevisionId := head.revisionId
          parentOrder := 0 }
        let t ← t.advanceRevisionHead row.tenantId row.id "main" head.headVersion revisionId
          createdAt
        return (t, { head with
          revisionId := revisionId
          headVersion := head.headVersion + 1
          updatedAt := createdAt })

/-- The row of a stored document with the new content. -/
def savedRow (call : SaveDocument) (row : DocumentRow) : DocumentRow :=
  { row with version := call.version, updatedAt := call.updatedAt, payloadJson := call.content }

/-- The head that the new content is put behind; a document without one gets its stored content as
first revision. -/
def preserveLegacy (t : ContentTables) (call : SaveDocument) (stored : VersionedDocumentContent)
    (last : Option CanvasRevisionHeadRow) :
    Option CanvasRevisionHeadRow → Except ContentRaised (ContentTables × CanvasRevisionHeadRow)
  | some head => .ok (t, head)
  | none => materializeWith lib loads t last stored.row stored.content stored.row.updatedAt
      call.legacyRevisionId

/-- The writes of a transaction, in one commit. Only a transaction that has read can write. -/
def write (t : ContentTables) (call : SaveDocument) : Stage → Except ContentRaised ContentTables
  | .creating last => do
      let t ← t.addDocument call.row
      let (t, _) ← materializeWith lib loads t last call.row call.content call.updatedAt
        call.revisionId
      return t
  | .ready stored _ early last =>
      let row := savedRow call stored.row
      if stored.row.payloadJson = call.content then
        let t := updateDocument t stored.row row
        match early with
        | some _ => .ok t
        | none => do
            let (t, _) ← materializeWith lib loads t last row call.content call.updatedAt
              call.revisionId
            return t
      else do
        let (t, head) ← preserveLegacy lib loads t call stored last early
        let (t, _) ← materializeWith lib loads (updateDocument t stored.row row) (some head) row
          call.content call.updatedAt call.revisionId
        return t
  | _ => .error .integrityError

end Operations

structure Server where
  tables : ContentTables
  pending : List Pending

inductive Call where
  /-- A request arrives, and looks for its row. -/
  | begin (put : Put)
  /-- The transaction at a position reads. -/
  | read (index : Nat)
  /-- The transaction at a position writes and commits. -/
  | commit (index : Nat)
  /-- The transaction at a position ends for any other reason. -/
  | rollback (index : Nat)

inductive Answer where
  | waiting
  | committed
  | failed (raised : PutRaised)
deriving DecidableEq

namespace Server

variable {F R : Type} (lib : Library F R) (loads : String → Option (Json F))
  (computeEtag : String → String)

/-- One step. A transaction that fails is rolled back. -/
def serve (server : Server) : Call → Except Unit (Answer × Server)
  | .begin put =>
      let row := server.tables.findDocument put.save.tenantId put.save.docId
      .ok (.waiting, { server with pending := server.pending ++ [⟨put, .begun row⟩] })
  | .read index => do
      let pending ← found () server.pending[index]?
      match advance lib loads computeEtag server.tables pending.put pending.stage with
      | .ok stage =>
          return (.waiting, { server with
            pending := server.pending.set index { pending with stage := stage } })
      | .error raised =>
          return (.failed raised, { server with pending := server.pending.eraseIdx index })
  | .commit index => do
      let pending ← found () server.pending[index]?
      let ended := server.pending.eraseIdx index
      match write lib loads server.tables pending.put.save pending.stage with
      | .ok tables => return (.committed, ⟨tables, ended⟩)
      | .error raised => return (.failed (.content raised), { server with pending := ended })
  | .rollback index => do
      let _ ← found () server.pending[index]?
      return (.failed (.content .integrityError),
        { server with pending := server.pending.eraseIdx index })

end Server

end KjAtlas.Generation.Puts
