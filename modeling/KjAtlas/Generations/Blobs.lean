import KjAtlas.Generations.Codec

/-! # The blob store of generations

Encoded generations are rows of one table, under their digest. A difference
names the digest of its base, which is restored first; the depth of the
recursion is bounded.
-/

namespace KjAtlas.Generation

open Py (Bytes)

/-- Why an operation of the store raises. -/
inductive BlobRaised where
  | valueError (message : String)
  | generationBlobUnavailable (message : String)
  | generationBlobConflict (message : String)
  | zlibError
  | integrityError
deriving DecidableEq

inductive StorageBackend where
  | database
  | nas
  | s3
  | git
deriving DecidableEq

inductive StorageState where
  | pending
  | ready
  | deleting
  | failed
deriving DecidableEq

/-- What two rows of one digest must agree on: all but the time. -/
structure BlobShape where
  storageBackend : StorageBackend
  locator : Option String
  representation : Representation
  baseDigest : Option String
  deltaDepth : Int
  byteSize : Int
  storedByteSize : Int
  storageState : StorageState
  schemaVersion : String
  payloadBytes : Option Bytes
deriving DecidableEq

structure ContentBlobRow where
  tenantId : String
  contentDigest : String
  storageBackend : StorageBackend
  locator : Option String
  representation : Representation
  baseDigest : Option String
  deltaDepth : Int
  byteSize : Int
  storedByteSize : Int
  storageState : StorageState
  schemaVersion : String
  createdAt : String
  payloadBytes : Option Bytes
deriving DecidableEq

namespace ContentBlobRow

def key (row : ContentBlobRow) : String × String := (row.tenantId, row.contentDigest)

/-- `full_json` is stored by other writers only. -/
def fullJson : Representation := .other "full_json"

/-- The check constraints of the table on a row that the database itself stores. -/
def Allowed (row : ContentBlobRow) : Prop :=
  row.representation ∈ [fullJson, .gzipJson, .gzipDelta] ∧
    (row.representation = .gzipDelta ∧ row.baseDigest.isSome ∧ 0 < row.deltaDepth ∨
      row.representation ≠ .gzipDelta ∧ row.baseDigest = none ∧ row.deltaDepth = 0) ∧
    0 ≤ row.byteSize ∧ 0 ≤ row.storedByteSize ∧ row.contentDigest.length = 64 ∧
    row.storageBackend = .database ∧ row.locator = none ∧
    (row.storageState ≠ .ready ∨ row.payloadBytes.isSome)

instance (row : ContentBlobRow) : Decidable row.Allowed := by
  unfold Allowed
  infer_instance

def shape (row : ContentBlobRow) : BlobShape where
  storageBackend := row.storageBackend
  locator := row.locator
  representation := row.representation
  baseDigest := row.baseDigest
  deltaDepth := row.deltaDepth
  byteSize := row.byteSize
  storedByteSize := row.storedByteSize
  storageState := row.storageState
  schemaVersion := row.schemaVersion
  payloadBytes := row.payloadBytes

def encoded (row : ContentBlobRow) (storedBytes : Bytes) : EncodedGenerationBlob where
  contentDigest := row.contentDigest
  byteSize := row.byteSize
  storedBytes := storedBytes
  representation := row.representation
  baseDigest := row.baseDigest
  deltaDepth := row.deltaDepth

end ContentBlobRow

open ContentBlobRow (fullJson)

def findBlob (rows : List ContentBlobRow) (tenantId digest : String) : Option ContentBlobRow :=
  findBy ContentBlobRow.key (tenantId, digest) rows

def materialized (rows : List ContentBlobRow) (tenantId digest : String) :
    Option (ContentBlobRow × Bytes) := do
  let row ← findBlob rows tenantId digest
  if row.storageBackend = .database ∧ row.storageState = .ready then
    let storedBytes ← row.payloadBytes
    return (row, storedBytes)
  else none

variable {F R : Type} (lib : Library F R)

/-- Restore a blob; a `ValueError` is raised again under another name. -/
def verified (raised : BlobRaised) (blob : EncodedGenerationBlob) (baseBytes : Option Bytes) :
    Except BlobRaised Bytes :=
  match restoreGeneration lib blob baseBytes with
  | .ok restored => .ok restored
  | .error (.generationCodecError _) => .error raised
  | .error (.invalidGenerationMetadata _) => .error raised
  | .error .zlibError => .error .zlibError

section Load

variable (rows : List ContentBlobRow) (tenantId : String) (maxDeltaDepth : Int)

/-- The bytes of a row's base; there is no way to restore it when the depth is used up. -/
def restoreBase (restoreDigest : Option (String → Except BlobRaised Bytes))
    (row : ContentBlobRow) : Except BlobRaised (Option Bytes) :=
  if row.representation = .gzipDelta then
    match row.baseDigest, restoreDigest with
    | some base, some restore => (restore base).map some
    | _, _ => .error (.generationBlobUnavailable "generation blob delta base is unavailable")
  else .ok none

/-- One level of the recursion. The remaining depth is never negative here. -/
def restoreRow (restoreDigest : Option (String → Except BlobRaised Bytes))
    (ancestors : List String) (digest : String) : Except BlobRaised Bytes := do
  ensure (digest ∉ ancestors)
    (.generationBlobUnavailable "generation blob delta cycle detected")
  let (row, storedBytes) ← found
    (.generationBlobUnavailable "generation blob is not materialized in database")
    (materialized rows tenantId digest)
  ensure (storedBytes.length = row.storedByteSize)
    (.generationBlobUnavailable "generation blob stored size does not match")
  if row.representation = fullJson then do
    ensure (storedBytes.length = row.byteSize ∧ lib.sha256 storedBytes = digest)
      (.generationBlobUnavailable "generation blob integrity verification failed")
    return storedBytes
  else do
    ensure (¬ row.deltaDepth > maxDeltaDepth)
      (.generationBlobUnavailable "generation blob delta depth exceeds policy")
    let baseBytes ← restoreBase restoreDigest row
    verified lib (.generationBlobUnavailable "generation blob integrity verification failed")
      (row.encoded storedBytes) baseBytes

def restoreDigest : Nat → List String → String → Except BlobRaised Bytes
  | 0, ancestors, digest => restoreRow lib rows tenantId maxDeltaDepth none ancestors digest
  | remainingDepth + 1, ancestors, digest =>
      restoreRow lib rows tenantId maxDeltaDepth
        (some (restoreDigest remainingDepth (digest :: ancestors))) ancestors digest

def loadDatabaseGenerationBlob (contentDigest : String) : Except BlobRaised Bytes := do
  ensure (¬ maxDeltaDepth < 0) (.valueError "max delta depth must not be negative")
  restoreDigest lib rows tenantId maxDeltaDepth maxDeltaDepth.toNat [] contentDigest

end Load

/-! ## Saving -/

/-- The arguments of a save. -/
structure SaveBlob where
  tenantId : String
  blob : EncodedGenerationBlob
  schemaVersion : String
  createdAt : String
deriving DecidableEq

/-- The row that a save adds; an existing row must have its shape. -/
def SaveBlob.row (call : SaveBlob) : ContentBlobRow where
  tenantId := call.tenantId
  contentDigest := call.blob.contentDigest
  storageBackend := .database
  locator := none
  representation := call.blob.representation
  baseDigest := call.blob.baseDigest
  deltaDepth := call.blob.deltaDepth
  byteSize := call.blob.byteSize
  storedByteSize := call.blob.storedBytes.length
  storageState := .ready
  schemaVersion := call.schemaVersion
  createdAt := call.createdAt
  payloadBytes := some call.blob.storedBytes

section Save

variable (maxDeltaDepth : Int) (rows : List ContentBlobRow)

def savedBase (call : SaveBlob) : Except BlobRaised (Option Bytes) :=
  if call.blob.representation = .gzipDelta then do
    let base ← found (.generationBlobConflict "generation blob delta base is missing")
      call.blob.baseDigest
    let baseBytes ← loadDatabaseGenerationBlob lib rows call.tenantId maxDeltaDepth base
    return some baseBytes
  else .ok none

def addBlob (row : ContentBlobRow) : Except BlobRaised (ContentBlobRow × List ContentBlobRow) := do
  ensure row.Allowed .integrityError
  return (row, rows ++ [row])

def saveDatabaseGenerationBlob (call : SaveBlob) :
    Except BlobRaised (ContentBlobRow × List ContentBlobRow) := do
  ensure (¬ (call.blob.storedBytes.length = 0 ∨ call.blob.storedBytes.length > 2 ^ 31 - 1))
    (.generationBlobConflict "generation blob stored size is invalid")
  ensure (¬ call.blob.deltaDepth > maxDeltaDepth)
    (.generationBlobConflict "generation blob delta depth exceeds policy")
  let baseBytes ← savedBase lib maxDeltaDepth rows call
  let _ ← verified lib (.generationBlobConflict "generation blob failed integrity verification")
    call.blob baseBytes
  match findBlob rows call.tenantId call.blob.contentDigest with
  | some existing => do
      ensure (existing.shape = call.row.shape)
        (.generationBlobConflict "generation blob digest already has different content")
      return (existing, rows)
  | none => addBlob rows call.row

end Save

end KjAtlas.Generation
