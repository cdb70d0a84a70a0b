import Mathlib.Data.List.Dedup
import KjAtlas.Foundation.Transactions
import KjAtlas.Py.Json

/-! # Storage of inquiry bundles

A journey's bundle is a row with a revision. It is created only when there is
none, and updated or deleted only by a request that names the revision it
expects, which it knows from an ETag. A request reads the row when it begins and
writes when it commits; other requests can come in between.
-/

namespace KjAtlas.Bundles

open Js (Text)

/-! ## Refusals -/

/-- What a route answers instead of a result. -/
structure Refusal where
  status : Nat
  code : String
  message : String

def invalidJourneyId : Refusal := ⟨422, "invalid_journey_id", "journey_id is required."⟩

def invalidInquiryBundle : Refusal := ⟨422, "invalid_inquiry_bundle", "Inquiry bundle must be JSON."⟩

def inquiryBundleTooLarge : Refusal :=
  ⟨413, "inquiry_bundle_too_large", "Inquiry bundle exceeds the storage size limit."⟩

def invalidIfMatch (message : String) : Refusal := ⟨422, "invalid_if_match", message⟩

def notOwner : Refusal :=
  ⟨403, "inquiry_bundle_not_owner", "This inquiry bundle belongs to a different user."⟩

def conflictingPreconditions : Refusal :=
  ⟨422, "conflicting_preconditions", "If-Match and If-None-Match are mutually exclusive."⟩

def invalidIfNoneMatch : Refusal :=
  ⟨422, "invalid_if_none_match", "If-None-Match must be '*' for create."⟩

def inquiryBundleConflict (message : String) : Refusal := ⟨409, "inquiry_bundle_conflict", message⟩

def preconditionRequired (message : String) : Refusal := ⟨428, "precondition_required", message⟩

def notFound : Refusal := ⟨404, "", "Inquiry bundle not found"⟩

/-! ## ETags -/

/-- `_format_etag`. -/
def formatEtag (revision : Int) : String := .ofList ('"' :: (Py.intText revision ++ ['"']))

/-- A part of the header without its quotation marks. -/
def unquotePart (part : Text) : Text :=
  if part.head? = some '"' ∧ part.getLast? = some '"' ∧ 2 ≤ part.length then
    part.tail.dropLast
  else part

def parsePart (rawPart : Text) : Text :=
  let part := strip rawPart
  unquotePart (if part.take 2 = ['W', '/'] then strip (part.drop 2) else part)

/-- `_parse_if_match`. -/
def parseIfMatch (ifMatch : String) : List Text :=
  (((ifMatch.toList.splitOn ',').map parsePart).filter (· ≠ [])).dedup

/-- Digits, with single underscores between them. -/
def readDigits : Bool → Nat → Text → Option Nat
  | afterDigit, value, [] => if afterDigit then some value else none
  | afterDigit, value, c :: rest =>
      if c.isDigit then readDigits true (10 * value + (c.toNat - 48)) rest
      else if c = '_' ∧ afterDigit = true then readDigits false value rest
      else none

/-- `int(text)`. The characters of a header are Latin-1, which has no decimal digits but `0` to
`9`. -/
def int? (text : Text) : Option Int :=
  match strip text with
  | '-' :: rest => (readDigits false 0 rest).map fun value => -(value : Int)
  | '+' :: rest => (readDigits false 0 rest).map fun value => (value : Int)
  | rest => (readDigits false 0 rest).map fun value => (value : Int)

/-- `_parse_single_cas_revision`. -/
def parseSingleCasRevision (ifMatch : String) : Except Refusal Int := do
  let raw ← found (invalidIfMatch "If-Match must carry exactly one revision.") <|
    match parseIfMatch ifMatch with
    | [raw] => some raw
    | _ => none
  let revision ← found (invalidIfMatch "If-Match must be a revision integer.") (int? raw)
  ensure (1 ≤ revision) (invalidIfMatch "If-Match revision must be positive.")
  return revision

abbrev JourneyKey := String × String

structure InquiryBundleRow where
  tenantId : String
  journeyId : String
  payloadJson : String
  updatedAt : String
  revision : Int
  createdBy : Option String

def InquiryBundleRow.key (row : InquiryBundleRow) : JourneyKey := (row.tenantId, row.journeyId)

structure InquiryBundleDeletionAuditEventRow where
  tenantId : String
  journeyId : String
  principalId : String
  action : String
  outcome : String
  occurredAt : String

/-! ## Requests -/

/-- The tenant and the principal that a request was resolved to. -/
structure InquirySession where
  tenantId : String
  principalId : Option String

/-- A request to create or update. `payload` is what `json.dumps` makes of the body. `seen` is the
content that its client got together with the ETag it sends; the server does not know it. -/
structure PostRequest where
  session : InquirySession
  journeyId : String
  payload : Option String
  ifMatch : Option String
  ifNoneMatch : Option String
  recordedAt : String
  seen : String

@[inherit_doc PostRequest]
structure DeleteRequest where
  session : InquirySession
  journeyId : String
  ifMatch : Option String
  occurredAt : String
  seen : String

def PostRequest.key (request : PostRequest) : JourneyKey :=
  (request.session.tenantId, request.journeyId)

def DeleteRequest.key (request : DeleteRequest) : JourneyKey :=
  (request.session.tenantId, request.journeyId)

/-- A write that expects a revision. -/
structure CasWrite where
  key : JourneyKey
  ifMatch : String
  seen : String
  expected : Int

/-- A request that passed its checks and has still to write. -/
inductive Pending where
  | create (row : InquiryBundleRow)
  | update (write : CasWrite) (updatedAt content : String)
  | delete (write : CasWrite) (principalId : Option String) (occurredAt : String)

def Pending.write? : Pending → Option CasWrite
  | .create _ => none
  | .update write _ _ => some write
  | .delete write _ _ => some write

structure Server where
  bundles : List InquiryBundleRow
  deletions : List InquiryBundleDeletionAuditEventRow
  pending : List Pending

def Server.empty : Server := ⟨[], [], []⟩

/-- What a step answers, with the row that it replaced and what is stored afterwards. -/
inductive Answer where
  | started
  | refused (refusal : Refusal)
  | integrityError
  | got (row : InquiryBundleRow) (etag : String)
  | created (stored : Option InquiryBundleRow) (etag : String)
  | updated (write : CasWrite) (replaced : InquiryBundleRow) (stored : Option InquiryBundleRow)
      (etag : String)
  | deleted (write : CasWrite) (replaced : InquiryBundleRow)

/-- A step: a request begins, or one that passed its checks commits. -/
inductive Call where
  | post (request : PostRequest)
  | delete (request : DeleteRequest)
  | get (session : InquirySession) (journeyId : String)
  | commit (index : Nat)

/-! ## Checks -/

section Checks

variable (isPrintable : Char → Bool)

/-- `_canonical_journey_id`. -/
def canonicalJourneyId (journeyId : String) : Except Refusal Unit :=
  ensure (journeyId ≠ "" ∧ journeyId.length ≤ 256 ∧ stripText journeyId = journeyId ∧
    journeyId.toList.all isPrintable = true) invalidJourneyId

@[irreducible] def maxInquiryBundlePayloadBytes : Nat := 20 * 1024 * 1024

/-- `_serialize_opaque_payload`. -/
def serializeOpaquePayload (payload : Option String) : Except Refusal String := do
  let encoded ← found invalidInquiryBundle payload
  ensure ((Py.utf8 encoded.toList).length ≤ maxInquiryBundlePayloadBytes) inquiryBundleTooLarge
  return encoded

/-- `_deny_if_not_owner`. -/
def denyIfNotOwner (row : InquiryBundleRow) (principalId : Option String) : Except Refusal Unit :=
  ensure (row.createdBy = none ∨ principalId = none ∨ row.createdBy = principalId) notOwner

def Server.find (server : Server) (key : JourneyKey) : Option InquiryBundleRow :=
  findBy InquiryBundleRow.key key server.bundles

/-- The check of the row that is there when a request begins. -/
def Server.denyIfNotOwner (server : Server) (key : JourneyKey) (principalId : Option String) :
    Except Refusal Unit :=
  match server.find key with
  | none => .ok ()
  | some existing => Bundles.denyIfNotOwner existing principalId

/-- `put_inquiry_bundle`, up to its write. -/
def Server.beginPost (server : Server) (request : PostRequest) : Except Refusal Pending := do
  canonicalJourneyId isPrintable request.journeyId
  let content ← serializeOpaquePayload request.payload
  match request.ifMatch, request.ifNoneMatch with
  | some _, some _ => .error conflictingPreconditions
  | none, some ifNoneMatch => do
      ensure (stripText ifNoneMatch = "*") invalidIfNoneMatch
      ensure (server.find request.key = none)
        (inquiryBundleConflict "Inquiry bundle already exists.")
      return .create {
        tenantId := request.session.tenantId
        journeyId := request.journeyId
        payloadJson := content
        updatedAt := request.recordedAt
        revision := 1
        createdBy := request.session.principalId }
  | some ifMatch, none => do
      let expected ← parseSingleCasRevision ifMatch
      server.denyIfNotOwner request.key request.session.principalId
      return .update ⟨request.key, ifMatch, request.seen, expected⟩ request.recordedAt content
  | none, none =>
      .error <| preconditionRequired "If-Match (update) or If-None-Match: * (create) is required."

/-- `delete_inquiry_bundle_route`, up to its write. -/
def Server.beginDelete (server : Server) (request : DeleteRequest) : Except Refusal Pending := do
  canonicalJourneyId isPrintable request.journeyId
  let ifMatch ← found (preconditionRequired "If-Match is required to delete.") request.ifMatch
  let expected ← parseSingleCasRevision ifMatch
  server.denyIfNotOwner request.key request.session.principalId
  return .delete ⟨request.key, ifMatch, request.seen, expected⟩ request.session.principalId
    request.occurredAt

/-- `get_inquiry_bundle`. -/
def Server.get (server : Server) (session : InquirySession) (journeyId : String) :
    Except Refusal InquiryBundleRow := do
  canonicalJourneyId isPrintable journeyId
  let row ← found notFound (server.find (session.tenantId, journeyId))
  Bundles.denyIfNotOwner row session.principalId
  return row

end Checks

/-! ## Writes -/

def Server.expectedRow (server : Server) (write : CasWrite) : Option InquiryBundleRow :=
  (server.find write.key).filter fun row => decide (row.revision = write.expected)

def changedConcurrently : Refusal :=
  inquiryBundleConflict "Inquiry bundle changed concurrently."

/-- The write and the commit of a request, with its answer. A write that fails is rolled back. -/
def Server.commit (server : Server) : Pending → Answer × Server
  | .create row =>
      match insertBy InquiryBundleRow.key row server.bundles with
      | none => (.integrityError, server)
      | some bundles =>
          let next := { server with bundles := bundles }
          (.created (next.find row.key) (formatEtag 1), next)
  | .update write updatedAt content =>
      match server.expectedRow write with
      | none => (.refused changedConcurrently, server)
      | some replaced =>
          let row := { replaced with
            payloadJson := content
            updatedAt := updatedAt
            revision := write.expected + 1 }
          let next := { server with bundles := upsertBy InquiryBundleRow.key row server.bundles }
          (.updated write replaced (next.find write.key) (formatEtag (write.expected + 1)), next)
  | .delete write principalId occurredAt =>
      match server.expectedRow write with
      | none => (.refused changedConcurrently, server)
      | some replaced =>
          (.deleted write replaced,
            { server with
              bundles := server.bundles.filter fun row => !decide (row.key = write.key)
              deletions := server.deletions ++ [{
                tenantId := write.key.1
                journeyId := write.key.2
                principalId := principalId.getD "anonymous"
                action := "inquiry_bundle.delete"
                outcome := "deleted"
                occurredAt := occurredAt }] })

/-- A request that begins waits for its commit, unless it is refused. -/
def Server.start (server : Server) : Except Refusal Pending → Answer × Server
  | .error refusal => (.refused refusal, server)
  | .ok pending => (.started, { server with pending := server.pending ++ [pending] })

/-- One step. Only the commit of a request that is not there does not happen. -/
def Server.serve (isPrintable : Char → Bool) (server : Server) :
    Call → Except Unit (Answer × Server)
  | .post request => .ok (server.start (server.beginPost isPrintable request))
  | .delete request => .ok (server.start (server.beginDelete isPrintable request))
  | .get session journeyId =>
      match server.get isPrintable session journeyId with
      | .error refusal => .ok (.refused refusal, server)
      | .ok row => .ok (.got row (formatEtag row.revision), server)
  | .commit index => do
      let pending ← found () server.pending[index]?
      .ok ({ server with pending := server.pending.eraseIdx index }.commit pending)

abbrev BundleRun := Run Server Call Answer

def runServer (isPrintable : Char → Bool) (calls : List Call) : BundleRun :=
  runCalls (Server.serve isPrintable) Server.empty calls

end KjAtlas.Bundles
