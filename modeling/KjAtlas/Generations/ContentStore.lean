import KjAtlas.Generations.Revisions

/-! # The content store of documents

A document is a row with its text. Its revisions are kept beside it: a save of
a new content adds the blob, a revision and an edge to the previous revision,
and moves the head. A document that was stored without revisions gets its
content as first revision when it is saved. A load compares the row with the
head.
-/

namespace KjAtlas.Generation

open Py (Bytes Json)

/-- Why an operation of the content store raises. -/
inductive ContentRaised where
  | documentRevisionDivergence (message : String)
  | revisionHeadConflict (message : String)
  | codec (raised : Raised)
  | blob (raised : BlobRaised)
  | unicodeDecodeError
  | integrityError
deriving DecidableEq

structure DocumentRow where
  tenantId : String
  id : String
  version : Int
  updatedAt : String
  payloadJson : String
  createdBy : Option String
deriving DecidableEq

def DocumentRow.key (row : DocumentRow) : String × String := (row.tenantId, row.id)

/-- The tables that the content store reads and writes. -/
structure ContentTables extends Revisions where
  documents : List DocumentRow

structure VersionedDocumentContent where
  row : DocumentRow
  content : String
deriving DecidableEq

namespace ContentTables

def findDocument (t : ContentTables) (tenantId docId : String) : Option DocumentRow :=
  findBy DocumentRow.key (tenantId, docId) t.documents

def mainHead (t : ContentTables) (tenantId docId : String) : Option CanvasRevisionHeadRow :=
  t.findHead tenantId docId "main"

/-- Add a row under a new primary key. -/
def addDocument (t : ContentTables) (row : DocumentRow) : Except ContentRaised ContentTables := do
  let documents ← found .integrityError (insertBy DocumentRow.key row t.documents)
  return { t with documents := documents }

@[inherit_doc addDocument]
def addRevision (t : ContentTables) (row : CanvasRevisionRow) :
    Except ContentRaised ContentTables := do
  let revisions ← found .integrityError (insertBy CanvasRevisionRow.key row t.revisions)
  return { t with revisions := revisions }

/-- Add an edge. The keys of edges are new, an edge is no loop, and the order is new. -/
def addParent (t : ContentTables) (row : CanvasRevisionParentRow) :
    Except ContentRaised ContentTables := do
  ensure (row.revisionId ≠ row.parentRevisionId ∧ 0 ≤ row.parentOrder) .integrityError
  ensure (∀ edge ∈ t.parentsOf row.tenantId row.revisionId, edge.parentOrder ≠ row.parentOrder)
    .integrityError
  let parents ← found .integrityError (insertBy CanvasRevisionParentRow.key row t.parents)
  return { t with parents := parents }

@[inherit_doc addDocument]
def addHead (t : ContentTables) (row : CanvasRevisionHeadRow) :
    Except ContentRaised ContentTables := do
  let heads ← found .integrityError (insertBy CanvasRevisionHeadRow.key row t.heads)
  return { t with heads := heads }

def setDocument (t : ContentTables) (row : DocumentRow) : ContentTables :=
  { t with documents := upsertBy DocumentRow.key row t.documents }

def advanceRevisionHead (t : ContentTables) (tenantId docId headName : String)
    (expectedVersion : Int) (newRevisionId updatedAt : String) :
    Except ContentRaised ContentTables := do
  let head ← found (.revisionHeadConflict "revision head changed concurrently")
    ((t.findHead tenantId docId headName).filter fun head => head.headVersion = expectedVersion)
  let moved := { head with
    revisionId := newRevisionId
    headVersion := expectedVersion + 1
    updatedAt := updatedAt }
  return { t with heads := upsertBy CanvasRevisionHeadRow.key moved t.heads }

end ContentTables

section Operations

variable {F R : Type} (lib : Library F R) (loads : String → Option (Json F))

/-- `canonical_json_bytes(json.loads(text))`. -/
def canonicalText (text : String) : Option Bytes := do
  let value ← loads text
  (canonicalJsonBytes lib value).toOption

/-- `_verify_revision_projection` with the head that the session has. -/
def verifyWith (t : ContentTables) (row : DocumentRow) :
    Option CanvasRevisionHeadRow → Except ContentRaised (Option Bytes)
  | none => .ok none
  | some head => do
      let revision ← found (.documentRevisionDivergence "document revision head is missing")
        (t.findRevision row.tenantId head.revisionId)
      let restored ← (loadDatabaseGenerationBlob lib t.blobs row.tenantId 32
        revision.contentDigest).mapError .blob
      let projected ← found (.documentRevisionDivergence "document projection is invalid JSON")
        (canonicalText lib loads row.payloadJson)
      ensure (restored = projected)
        (.documentRevisionDivergence "document projection differs from revision head")
      return some restored

def verifyRevisionProjection (t : ContentTables) (row : DocumentRow) :
    Except ContentRaised (Option Bytes) :=
  verifyWith lib loads t row (t.mainHead row.tenantId row.id)

def contentText (row : DocumentRow) : Option Bytes → Except ContentRaised String
  | none => .ok row.payloadJson
  | some restored => found .unicodeDecodeError ((Py.utf8Decode restored).map String.ofList)

def load (t : ContentTables) (tenantId docId : String) :
    Except ContentRaised (Option VersionedDocumentContent) :=
  match t.findDocument tenantId docId with
  | none => .ok none
  | some row => do
      let restored ← verifyRevisionProjection lib loads t row
      let content ← contentText row restored
      return some ⟨row, content⟩

/-! ## Saving -/

def manualRevision (row : DocumentRow) (revisionId contentDigest createdAt : String) :
    CanvasRevisionRow where
  tenantId := row.tenantId
  revisionId := revisionId
  docId := row.id
  contentDigest := contentDigest
  generationTier := .checkpoint
  generationReason := .manualSave
  generationOrigin := .human
  actorRef := none
  aiRunRef := none
  sourceRevisionId := none
  createdAt := createdAt

def documentSchema (row : DocumentRow) : String := "document-v" ++ toString row.version

def addContent (t : ContentTables) (row : DocumentRow) (encoded : EncodedGenerationBlob)
    (createdAt revisionId : String) : Except ContentRaised ContentTables := do
  let (_, blobs) ← (saveDatabaseGenerationBlob lib 32 t.blobs {
    tenantId := row.tenantId
    blob := encoded
    schemaVersion := documentSchema row
    createdAt := createdAt }).mapError .blob
  ContentTables.addRevision { t with blobs := blobs }
    (manualRevision row revisionId encoded.contentDigest createdAt)

/-- Make a content the newest revision of its document, unless it is that already;
`revisionId` is what `uuid4().hex` yields. -/
def materializeRevision (t : ContentTables) (row : DocumentRow)
    (content createdAt revisionId : String) : Except ContentRaised ContentTables := do
  let value ← found (.documentRevisionDivergence "document content is invalid JSON")
    (loads content)
  let encoded ← (encodeGeneration lib value none none 0 none).mapError .codec
  match t.mainHead row.tenantId row.id with
  | none => do
      let t ← addContent lib t row encoded createdAt revisionId
      t.addHead {
        tenantId := row.tenantId
        docId := row.id
        headName := "main"
        revisionId := revisionId
        headVersion := 1
        updatedAt := createdAt }
  | some head => do
      let current ← found (.documentRevisionDivergence "document revision head is missing")
        (t.findRevision row.tenantId head.revisionId)
      if current.contentDigest = encoded.contentDigest then
        return t
      else do
        let t ← addContent lib t row encoded createdAt revisionId
        let t ← t.addParent {
          tenantId := row.tenantId
          revisionId := revisionId
          parentRevisionId := head.revisionId
          parentOrder := 0 }
        t.advanceRevisionHead row.tenantId row.id "main" head.headVersion revisionId createdAt

/-- The arguments of a save, and the revision ids that are drawn while it runs. -/
structure SaveDocument where
  tenantId : String
  docId : String
  version : Int
  updatedAt : String
  content : String
  createdBy : Option String
  legacyRevisionId : String
  revisionId : String

def SaveDocument.row (call : SaveDocument) : DocumentRow where
  tenantId := call.tenantId
  id := call.docId
  version := call.version
  updatedAt := call.updatedAt
  payloadJson := call.content
  createdBy := call.createdBy

def save (t : ContentTables) (call : SaveDocument) :
    Except ContentRaised (VersionedDocumentContent × ContentTables) := do
  let stored ← load lib loads t call.tenantId call.docId
  match stored with
  | none => do
      let t ← t.addDocument call.row
      let t ← materializeRevision lib loads t call.row call.content call.updatedAt call.revisionId
      return (⟨call.row, call.content⟩, t)
  | some stored =>
      let head := t.mainHead call.tenantId call.docId
      if stored.row.payloadJson = call.content then do
        let row := { stored.row with version := call.version, updatedAt := call.updatedAt }
        let t := t.setDocument row
        let t ← if head.isNone then
            materializeRevision lib loads t row call.content call.updatedAt call.revisionId
          else pure t
        return (⟨row, call.content⟩, t)
      else do
        -- The previous content becomes the first revision, before it is replaced.
        let t ← if head.isNone then
            materializeRevision lib loads t stored.row stored.content stored.row.updatedAt
              call.legacyRevisionId
          else pure t
        let row := { stored.row with
          version := call.version
          updatedAt := call.updatedAt
          payloadJson := call.content }
        let t ← materializeRevision lib loads (t.setDocument row) row call.content
          call.updatedAt call.revisionId
        return (⟨row, call.content⟩, t)

end Operations

end KjAtlas.Generation
