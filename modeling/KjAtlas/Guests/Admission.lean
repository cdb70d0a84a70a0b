import KjAtlas.Foundation.KeyedStore
import KjAtlas.Foundation.Transactions
import KjAtlas.Py.Text

/-! # Guest admission

Guests of a tenant are invited under a mail address, activated with a verified
identity, and granted single documents. A guest and a grant can be revoked. An
operation that raises is rolled back by its caller, so a failure carries no
tables.
-/

namespace KjAtlas.Guest

/-- Why an operation raises. -/
inductive Raised where
  | guestAdmissionError (message : String)
  | integrityError (constraint : String)
deriving DecidableEq

/-! ## Tables -/

inductive Status where
  | pending
  | active
  | revoked
deriving DecidableEq

inductive VerificationMethod where
  | homeOrgIdp
  | personalAccount

def VerificationMethod.ofText? : String → Option VerificationMethod
  | "home_org_idp" => some .homeOrgIdp
  | "personal_account" => some .personalAccount
  | _ => none

structure GuestPrincipalRow where
  tenantId : String
  guestPrincipalId : String
  invitedEmail : String
  status : Status
  verificationMethod : VerificationMethod
  verifiedIssuer : Option String
  verifiedSubject : Option String
  createdBy : String
  createdAt : String
  expiresAt : String
  redeemedAt : Option String
  revokedAt : Option String

structure GuestDocumentGrantRow where
  tenantId : String
  guestPrincipalId : String
  docId : String
  grantedBy : String
  grantedAt : String
  revokedAt : Option String

def GuestPrincipalRow.key (row : GuestPrincipalRow) : String × String :=
  (row.tenantId, row.guestPrincipalId)

def GuestDocumentGrantRow.key (row : GuestDocumentGrantRow) : String × String × String :=
  (row.tenantId, row.guestPrincipalId, row.docId)

/-- The tables. Tenants and documents are listed by their keys; the operations only look them up. -/
structure Tables where
  tenants : List String
  documents : List (String × String)
  principals : List GuestPrincipalRow
  grants : List GuestDocumentGrantRow

namespace Tables

def principal? (t : Tables) (tenantId principalId : String) : Option GuestPrincipalRow :=
  findBy GuestPrincipalRow.key (tenantId, principalId) t.principals

def grant? (t : Tables) (tenantId principalId docId : String) : Option GuestDocumentGrantRow :=
  findBy GuestDocumentGrantRow.key (tenantId, principalId, docId) t.grants

/-- Insert a principal, or write back a changed one. -/
def putPrincipal (t : Tables) (row : GuestPrincipalRow) : Tables :=
  { t with principals := upsertBy GuestPrincipalRow.key row t.principals }

/-- Insert a grant, or write back a changed one. -/
def putGrant (t : Tables) (row : GuestDocumentGrantRow) : Tables :=
  { t with grants := upsertBy GuestDocumentGrantRow.key row t.grants }

end Tables

/-! ## Inputs -/

/-- A `datetime`: the instant that it denotes, if it has an offset. -/
structure DateTime where
  utc : Option Int

/-- What the standard library reads from the tables of Unicode and of the calendar. -/
structure Python where
  casefold : String → String
  fromIsoFormat : String → Option DateTime

def required (value field : String) : Except Raised String :=
  let normalized := stripText value
  if normalized = "" then .error (.guestAdmissionError (field ++ " must be non-empty"))
  else .ok normalized

def normalizedEmail (py : Python) (value : String) : Except Raised String := do
  let email ← required value "invited_email"
  return py.casefold email

/-- `value.replace("Z", "+00:00")`. -/
def replaceZ (value : String) : String :=
  .ofList (value.toList.flatMap fun c => if c = 'Z' then "+00:00".toList else [c])

def parseAwareTimestamp (py : Python) (value : String) : Option Int :=
  (py.fromIsoFormat (replaceZ value)).bind DateTime.utc

def awareUtc (now : DateTime) : Except Raised Int :=
  found (.guestAdmissionError "now must be timezone-aware") now.utc

def futureTimestamp (py : Python) (value : String) (now : DateTime) (message : String) :
    Except Raised Unit := do
  let expiry ← found (.guestAdmissionError message) (parseAwareTimestamp py value)
  let instant ← awareUtc now
  ensure (instant < expiry) (.guestAdmissionError message)

/-! ## Operations -/

structure PendingGuest where
  guestPrincipalId : String
  invitedEmail : String
  verificationMethod : String
  createdBy : String
  createdAt : String
  expiresAt : String
  now : DateTime

def createPendingGuest (py : Python) (tenantId : String) (guest : PendingGuest) (t : Tables) :
    Except Raised (GuestPrincipalRow × Tables) := do
  let principalId ← required guest.guestPrincipalId "guest_principal_id"
  let email ← normalizedEmail py guest.invitedEmail
  let methodName ← required guest.verificationMethod "verification_method"
  let verificationMethod ← found (.guestAdmissionError "unsupported verification_method")
    (VerificationMethod.ofText? methodName)
  futureTimestamp py guest.expiresAt guest.now "expires_at must be a future aware timestamp"
  ensure (t.principal? tenantId principalId = none)
    (.guestAdmissionError "guest_principal_id already exists")
  ensure (∀ row ∈ t.principals, row.tenantId = tenantId → row.invitedEmail ≠ email)
    (.guestAdmissionError "invited_email already exists in tenant")
  let createdBy ← required guest.createdBy "created_by"
  let createdAt ← required guest.createdAt "created_at"
  let row : GuestPrincipalRow := {
    tenantId
    guestPrincipalId := principalId
    invitedEmail := email
    status := .pending
    verificationMethod
    verifiedIssuer := none
    verifiedSubject := none
    createdBy
    createdAt
    expiresAt := guest.expiresAt
    redeemedAt := none
    revokedAt := none }
  ensure (tenantId ∈ t.tenants) (.integrityError "guest_principals.tenant_id")
  return (row, t.putPrincipal row)

structure VerifiedGuest where
  guestPrincipalId : String
  verifiedIssuer : String
  verifiedSubject : String
  redeemedAt : String
  now : DateTime

def belongsToAnother (t : Tables) (tenantId principalId issuer subject : String) : Prop :=
  ∃ row ∈ t.principals, row.tenantId = tenantId ∧ row.verifiedIssuer = some issuer ∧
    row.verifiedSubject = some subject ∧ row.guestPrincipalId ≠ principalId

instance (t : Tables) (tenantId principalId issuer subject : String) :
    Decidable (belongsToAnother t tenantId principalId issuer subject) :=
  inferInstanceAs (Decidable (∃ row ∈ t.principals, _))

def activateVerifiedGuest (py : Python) (tenantId : String) (guest : VerifiedGuest) (t : Tables) :
    Except Raised (GuestPrincipalRow × Tables) := do
  let principalId ← required guest.guestPrincipalId "guest_principal_id"
  let row ← found (.guestAdmissionError "guest principal is not pending")
    ((t.principal? tenantId principalId).filter fun row => row.status = .pending)
  futureTimestamp py row.expiresAt guest.now "guest invitation is expired or malformed"
  let issuer ← required guest.verifiedIssuer "verified_issuer"
  let subject ← required guest.verifiedSubject "verified_subject"
  ensure (¬ belongsToAnother t tenantId principalId issuer subject)
    (.guestAdmissionError "verified identity already belongs to another guest")
  -- the row is written before `redeemed_at` is checked; the rollback takes that back
  let redeemedAt ← required guest.redeemedAt "redeemed_at"
  let activated := { row with
    status := .active
    verifiedIssuer := some issuer
    verifiedSubject := some subject
    redeemedAt := some redeemedAt }
  return (activated, t.putPrincipal activated)

structure DocumentGrant where
  guestPrincipalId : String
  docId : String
  grantedBy : String
  grantedAt : String

def grantDocument (tenantId : String) (grant : DocumentGrant) (t : Tables) :
    Except Raised (GuestDocumentGrantRow × Tables) := do
  let principalId ← required grant.guestPrincipalId "guest_principal_id"
  let docId ← required grant.docId "doc_id"
  let _ ← found (.guestAdmissionError "guest principal is not grantable")
    ((t.principal? tenantId principalId).filter fun row => row.status ≠ .revoked)
  ensure ((tenantId, docId) ∈ t.documents)
    (.guestAdmissionError "document does not exist in tenant")
  match t.grant? tenantId principalId docId with
  | some existing => do
      ensure (existing.revokedAt = none)
        (.guestAdmissionError "revoked grant cannot be silently resurrected")
      return (existing, t)
  | none => do
      let grantedBy ← required grant.grantedBy "granted_by"
      let grantedAt ← required grant.grantedAt "granted_at"
      let row : GuestDocumentGrantRow := {
        tenantId
        guestPrincipalId := principalId
        docId
        grantedBy
        grantedAt
        revokedAt := none }
      return (row, t.putGrant row)

/-- Whether a principal may read what it was granted. -/
def GuestPrincipalRow.reads (row : GuestPrincipalRow) : Bool :=
  row.status = .active && row.revokedAt.isNone

def canReadDocument (tenantId guestPrincipalId docId : String) (t : Tables) :
    Except Raised Bool := do
  let principalId ← required guestPrincipalId "guest_principal_id"
  let normalizedDocId ← required docId "doc_id"
  match (t.principal? tenantId principalId).filter GuestPrincipalRow.reads with
  | none => return false
  | some _ =>
      return (t.grant? tenantId principalId normalizedDocId).any fun grant =>
        grant.revokedAt.isNone

def listReadableDocumentIds (tenantId guestPrincipalId : String) (t : Tables) :
    Except Raised (List String) := do
  let principalId ← required guestPrincipalId "guest_principal_id"
  match (t.principal? tenantId principalId).filter GuestPrincipalRow.reads with
  | none => return []
  | some _ =>
      let rows := t.grants.filter fun grant =>
        grant.tenantId = tenantId && grant.guestPrincipalId = principalId &&
          grant.revokedAt.isNone
      return (rows.map GuestDocumentGrantRow.docId).mergeSort

def revokeDocumentGrant (tenantId guestPrincipalId docId revokedAt : String) (t : Tables) :
    Except Raised (Bool × Tables) := do
  let principalId ← required guestPrincipalId "guest_principal_id"
  let normalizedDocId ← required docId "doc_id"
  match (t.grant? tenantId principalId normalizedDocId).filter fun grant =>
      grant.revokedAt.isNone with
  | none => return (false, t)
  | some grant =>
      let revokedAt ← required revokedAt "revoked_at"
      return (true, t.putGrant { grant with revokedAt := some revokedAt })

def revokeGuestPrincipal (tenantId guestPrincipalId revokedAt : String) (t : Tables) :
    Except Raised (Bool × Tables) := do
  let principalId ← required guestPrincipalId "guest_principal_id"
  match (t.principal? tenantId principalId).filter fun row => row.status ≠ .revoked with
  | none => return (false, t)
  | some row =>
      -- the status is written before `revoked_at` is checked; the rollback takes that back
      let revokedAt ← required revokedAt "revoked_at"
      return (true, t.putPrincipal { row with status := .revoked, revokedAt := some revokedAt })

/-! ## Calls -/

/-- A call of one of the operations. -/
inductive Operation where
  | createPendingGuest (guest : PendingGuest)
  | activateVerifiedGuest (guest : VerifiedGuest)
  | grantDocument (grant : DocumentGrant)
  | canReadDocument (guestPrincipalId docId : String)
  | listReadableDocumentIds (guestPrincipalId : String)
  | revokeDocumentGrant (guestPrincipalId docId revokedAt : String)
  | revokeGuestPrincipal (guestPrincipalId revokedAt : String)

/-- A call at the repository of a tenant. -/
structure Call where
  tenantId : String
  operation : Operation

inductive Answer where
  | principal (row : GuestPrincipalRow)
  | grant (row : GuestDocumentGrantRow)
  | bool (value : Bool)
  | docIds (ids : List String)

def Operation.serve (py : Python) (tenantId : String) (t : Tables) :
    Operation → Except Raised (Answer × Tables)
  | .createPendingGuest guest => do
      let (row, next) ← Guest.createPendingGuest py tenantId guest t
      return (.principal row, next)
  | .activateVerifiedGuest guest => do
      let (row, next) ← Guest.activateVerifiedGuest py tenantId guest t
      return (.principal row, next)
  | .grantDocument grant => do
      let (row, next) ← Guest.grantDocument tenantId grant t
      return (.grant row, next)
  | .canReadDocument guestPrincipalId docId => do
      let value ← Guest.canReadDocument tenantId guestPrincipalId docId t
      return (.bool value, t)
  | .listReadableDocumentIds guestPrincipalId => do
      let ids ← Guest.listReadableDocumentIds tenantId guestPrincipalId t
      return (.docIds ids, t)
  | .revokeDocumentGrant guestPrincipalId docId revokedAt => do
      let (value, next) ← Guest.revokeDocumentGrant tenantId guestPrincipalId docId revokedAt t
      return (.bool value, next)
  | .revokeGuestPrincipal guestPrincipalId revokedAt => do
      let (value, next) ← Guest.revokeGuestPrincipal tenantId guestPrincipalId revokedAt t
      return (.bool value, next)

/-- `GuestAdmissionRepository(db, tenant_id=...)` and one operation on it. -/
def serve (py : Python) (t : Tables) (call : Call) : Except Raised (Answer × Tables) := do
  let tenantId ← required call.tenantId "tenant_id"
  call.operation.serve py tenantId t

/-! ## What the operations do -/

@[simp] theorem required_eq_ok {value field normalized : String} :
    required value field = .ok normalized ↔ stripText value = normalized ∧ normalized ≠ "" := by
  by_cases hempty : stripText value = ""
  · simp only [required, hempty, if_true, reduceCtorEq, false_iff, not_and]
    rintro rfl
    exact absurd rfl
  · simp only [required, hempty, if_false, Except.ok.injEq]
    constructor
    · rintro rfl
      exact ⟨rfl, hempty⟩
    · exact And.left

theorem futureTimestamp_eq_ok {py : Python} {value : String} {now : DateTime} {message : String}
    {u : Unit} : futureTimestamp py value now message = .ok u ↔
      ∃ expiry instant, parseAwareTimestamp py value = some expiry ∧ now.utc = some instant ∧
        instant < expiry := by
  simp only [futureTimestamp, awareUtc, bind_eq_ok, found_eq_ok, ensure_eq_ok]
  constructor
  · rintro ⟨expiry, hexpiry, instant, hinstant, hlt⟩
    exact ⟨expiry, instant, hexpiry, hinstant, hlt⟩
  · rintro ⟨expiry, instant, hexpiry, hinstant, hlt⟩
    exact ⟨expiry, hexpiry, instant, hinstant, hlt⟩

structure GuestPrincipalRow.Invited (py : Python) (tenantId : String) (guest : PendingGuest)
    (row : GuestPrincipalRow) : Prop where
  key : row.key = (tenantId, stripText guest.guestPrincipalId)
  email : row.invitedEmail = py.casefold (stripText guest.invitedEmail)
  expiresAt : row.expiresAt = guest.expiresAt
  status : row.status = .pending
  verifiedIssuer : row.verifiedIssuer = none
  verifiedSubject : row.verifiedSubject = none
  redeemedAt : row.redeemedAt = none
  revokedAt : row.revokedAt = none

variable {tenantId : String}

theorem createPendingGuest_eq_ok {py : Python} {guest : PendingGuest} {t next : Tables}
    {row : GuestPrincipalRow} (hok : createPendingGuest py tenantId guest t = .ok (row, next)) :
    row.Invited py tenantId guest ∧ next = t.putPrincipal row ∧
      t.principal? tenantId (stripText guest.guestPrincipalId) = none ∧
      ∀ other ∈ t.principals, other.tenantId = tenantId →
        other.invitedEmail ≠ row.invitedEmail := by
  simp only [createPendingGuest, normalizedEmail, bind_eq_ok, required_eq_ok, found_eq_ok,
    ensure_eq_ok, pure_eq_ok, Prod.mk.injEq] at hok
  obtain ⟨_, ⟨rfl, -⟩, _, ⟨_, ⟨rfl, -⟩, rfl⟩, _, -, method, -, -, -, -, hfresh, -, hemail, _, -, _,
    -, -, -, rfl, rfl⟩ := hok
  exact ⟨⟨rfl, rfl, rfl, rfl, rfl, rfl, rfl, rfl⟩, rfl, hfresh, hemail⟩

theorem activateVerifiedGuest_eq_ok {py : Python} {guest : VerifiedGuest} {t next : Tables}
    {activated : GuestPrincipalRow}
    (hok : activateVerifiedGuest py tenantId guest t = .ok (activated, next)) :
    ∃ row expiry instant redeemedAt,
      t.principal? tenantId (stripText guest.guestPrincipalId) = some row ∧
      row.status = .pending ∧
      parseAwareTimestamp py row.expiresAt = some expiry ∧ guest.now.utc = some instant ∧
      instant < expiry ∧
      stripText guest.verifiedIssuer ≠ "" ∧ stripText guest.verifiedSubject ≠ "" ∧
      ¬ belongsToAnother t tenantId (stripText guest.guestPrincipalId)
        (stripText guest.verifiedIssuer) (stripText guest.verifiedSubject) ∧
      activated = { row with
        status := .active
        verifiedIssuer := some (stripText guest.verifiedIssuer)
        verifiedSubject := some (stripText guest.verifiedSubject)
        redeemedAt := some redeemedAt } ∧
      next = t.putPrincipal activated := by
  simp only [activateVerifiedGuest, bind_eq_ok, required_eq_ok, found_eq_ok, ensure_eq_ok,
    futureTimestamp_eq_ok, Option.filter_eq_some_iff, decide_eq_true_eq, pure_eq_ok, Prod.mk.injEq] at hok
  obtain ⟨_, ⟨rfl, -⟩, row, ⟨hrow, hpending⟩, _, ⟨expiry, instant, hexpiry, hinstant, hlt⟩, _,
    ⟨rfl, hissuer⟩, _, ⟨rfl, hsubject⟩, _, hother, redeemedAt, -, rfl, rfl⟩ := hok
  exact ⟨row, expiry, instant, redeemedAt, hrow, hpending, hexpiry, hinstant, hlt, hissuer,
    hsubject, hother, rfl, rfl⟩

theorem grantDocument_eq_ok {grant : DocumentGrant} {t next : Tables} {row : GuestDocumentGrantRow}
    (hok : grantDocument tenantId grant t = .ok (row, next)) :
    stripText grant.docId ≠ "" ∧
      row.key = (tenantId, stripText grant.guestPrincipalId, stripText grant.docId) ∧
      row.revokedAt = none ∧
      (next = t ∨
        next = t.putGrant row ∧ t.grant? tenantId (stripText grant.guestPrincipalId)
          (stripText grant.docId) = none) := by
  simp only [grantDocument, bind_eq_ok, required_eq_ok, found_eq_ok, ensure_eq_ok] at hok
  obtain ⟨_, ⟨rfl, -⟩, _, ⟨rfl, hdoc⟩, -, -, -, -, hok⟩ := hok
  split at hok
  next existing hexisting =>
    simp only [bind_eq_ok, ensure_eq_ok, pure_eq_ok, Prod.mk.injEq] at hok
    obtain ⟨-, hrevoked, rfl, rfl⟩ := hok
    exact ⟨hdoc, (findBy_eq_some _ hexisting).2, hrevoked, .inl rfl⟩
  next hnone =>
    simp only [bind_eq_ok, required_eq_ok, pure_eq_ok,
      Prod.mk.injEq] at hok
    obtain ⟨_, -, _, -, rfl, rfl⟩ := hok
    exact ⟨hdoc, rfl, rfl, .inr ⟨rfl, hnone⟩⟩

theorem revokeDocumentGrant_eq_ok {guestPrincipalId docId revokedAt : String} {t next : Tables}
    {value : Bool}
    (hok : revokeDocumentGrant tenantId guestPrincipalId docId revokedAt t = .ok (value, next)) :
    value = false ∧ next = t ∨
      value = true ∧ ∃ grant,
        t.grant? tenantId (stripText guestPrincipalId) (stripText docId) = some grant ∧
        next = t.putGrant { grant with revokedAt := some (stripText revokedAt) } := by
  simp only [revokeDocumentGrant, bind_eq_ok, required_eq_ok] at hok
  obtain ⟨_, ⟨rfl, -⟩, _, ⟨rfl, -⟩, hok⟩ := hok
  split at hok
  next =>
    cases hok
    exact .inl ⟨rfl, rfl⟩
  next grant hgrant =>
    simp only [bind_eq_ok, required_eq_ok, pure_eq_ok,
      Prod.mk.injEq] at hok
    obtain ⟨_, ⟨rfl, -⟩, rfl, rfl⟩ := hok
    exact .inr ⟨rfl, grant, (Option.filter_eq_some_iff.mp hgrant).1, rfl⟩

theorem revokeGuestPrincipal_eq_ok {guestPrincipalId revokedAt : String} {t next : Tables}
    {value : Bool}
    (hok : revokeGuestPrincipal tenantId guestPrincipalId revokedAt t = .ok (value, next)) :
    value = false ∧ next = t ∨
      value = true ∧ ∃ row,
        t.principal? tenantId (stripText guestPrincipalId) = some row ∧
        next = t.putPrincipal
          { row with status := .revoked, revokedAt := some (stripText revokedAt) } := by
  simp only [revokeGuestPrincipal, bind_eq_ok, required_eq_ok] at hok
  obtain ⟨_, ⟨rfl, -⟩, hok⟩ := hok
  split at hok
  next =>
    cases hok
    exact .inl ⟨rfl, rfl⟩
  next row hrow =>
    simp only [bind_eq_ok, required_eq_ok, pure_eq_ok,
      Prod.mk.injEq] at hok
    obtain ⟨_, ⟨rfl, -⟩, rfl, rfl⟩ := hok
    exact .inr ⟨rfl, row, (Option.filter_eq_some_iff.mp hrow).1, rfl⟩

end KjAtlas.Guest
