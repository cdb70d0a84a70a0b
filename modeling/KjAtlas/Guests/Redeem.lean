import KjAtlas.Guests.Access

/-! # Redeeming guest invitations

A redeem state stands for an invitation that is still open. Whoever presents it
together with a verified identity activates the invited guest, consumes the state
and gets a session. All of this is one transaction: an operation that raises is
rolled back, so a failure carries no tables.
-/

namespace KjAtlas.Guest.Redeem

/-- Why an operation raises. -/
inductive Raised where
  | guestRedeemError (message : String)
  | guestAuthSessionError (message : String)
  | admission (raised : Guest.Raised)
  | valueError (message : String)
  | integrityError (constraint : String)
  | dataError

/-! ## Tables -/

structure GuestRedeemStateRow where
  stateKeyHash : String
  tenantId : String
  guestPrincipalId : String
  createdAt : String
  expiresAt : String
  consumedAt : Option String

structure GuestAuthSessionRow where
  sessionKeyHash : String
  tenantId : String
  guestPrincipalId : String
  issuer : String
  subject : String
  createdAt : String
  lastUsedAt : String
  absoluteExpiresAt : String
  revokedAt : Option String

structure Store where
  tables : Tables
  states : List GuestRedeemStateRow
  sessions : List GuestAuthSessionRow

namespace Store

def state? (s : Store) (stateKeyHash : String) : Option GuestRedeemStateRow :=
  findBy GuestRedeemStateRow.stateKeyHash stateKeyHash s.states

def session? (s : Store) (sessionKeyHash : String) : Option GuestAuthSessionRow :=
  findBy GuestAuthSessionRow.sessionKeyHash sessionKeyHash s.sessions

/-- Write a changed session back. -/
def putSession (s : Store) (row : GuestAuthSessionRow) : Store :=
  { s with sessions := upsertBy GuestAuthSessionRow.sessionKeyHash row s.sessions }

end Store

/-- What the standard library and the database add to the operations. -/
structure Host extends Python where
  /-- `isoformat()` of an instant in UTC. -/
  isoformat : Int → String
  /-- The keyed hash of a text. -/
  deriveSessionKeyHash : String → List UInt8 → String
  /-- Whether the columns of issuers and subjects can hold a text. -/
  storable : String → Bool

/-! ## Inputs -/

def absoluteSessionLifetime : Int := 12 * 60 * 60 * 1000000

def idleTimeout : Int := 60 * 60 * 1000000

def redeemStateLifetime : Int := 15 * 60 * 1000000

def utc (now : DateTime) : Except Raised Int :=
  found (.guestRedeemError "now must be timezone-aware") now.utc

/-- The key of a redeem state, with `_REDEEM_STATE_DOMAIN` before its text. -/
def stateKey (host : Host) (rawState : String) (hashKey : List UInt8) : String :=
  host.deriveSessionKeyHash ("guest-redeem-v1\x00" ++ rawState) hashKey

def stateHash (host : Host) (rawState : String) (hashKey : List UInt8) : Except Raised String :=
  if rawState = "" ∨ 256 < rawState.length ∨ stripText rawState ≠ rawState then
    .error (.guestRedeemError "redeem state is invalid")
  else .ok (stateKey host rawState hashKey)

/-- The scope of a tenant is only set for the database; here it is only checked. -/
def applyDatabaseTenantId (tenantId : String) : Except Raised Unit :=
  ensure (stripText tenantId ≠ "") (.valueError "tenant_id must be non-empty")

/-- The state was not consumed and has not reached its end. -/
def GuestRedeemStateRow.Valid (host : Host) (now : Int) (row : GuestRedeemStateRow) : Prop :=
  row.consumedAt = none ∧ ∃ expiry ∈ parseAwareTimestamp host.toPython row.expiresAt, now < expiry

instance (host : Host) (now : Int) : DecidablePred (GuestRedeemStateRow.Valid host now) :=
  fun _ => inferInstanceAs (Decidable (_ ∧ ∃ expiry ∈ _, _))

def validState (host : Host) (row : Option GuestRedeemStateRow) (now : Int) :
    Except Raised GuestRedeemStateRow :=
  found (.guestRedeemError "redeem state is invalid") (row.filter fun row => row.Valid host now)

/-- The principal is invited and was not revoked. -/
def isOpen (row : GuestPrincipalRow) : Bool := row.status = .pending && row.revokedAt.isNone

structure IssueRedeemState where
  tenantId : String
  guestPrincipalId : String
  hashKey : List UInt8
  now : DateTime
  /-- The text that `secrets` draws. -/
  rawState : String

def issueRedeemState (host : Host) (request : IssueRedeemState) (s : Store) :
    Except Raised Store := do
  let current ← utc request.now
  let stateKeyHash ← stateHash host request.rawState request.hashKey
  applyDatabaseTenantId request.tenantId
  let principal ← found (.guestRedeemError "guest invitation is not redeemable")
    ((s.tables.principal? request.tenantId request.guestPrincipalId).filter isOpen)
  let invitationExpiry ← found (.guestRedeemError "guest invitation is not redeemable")
    (parseAwareTimestamp host.toPython principal.expiresAt)
  ensure (current < invitationExpiry) (.guestRedeemError "guest invitation is not redeemable")
  let row : GuestRedeemStateRow := {
    stateKeyHash
    tenantId := request.tenantId
    guestPrincipalId := request.guestPrincipalId
    createdAt := host.isoformat current
    expiresAt := host.isoformat (min (current + redeemStateLifetime) invitationExpiry)
    consumedAt := none }
  let states ← found (.integrityError "guest_redeem_states.state_key_hash")
    (insertBy GuestRedeemStateRow.stateKeyHash row s.states)
  return { s with states }

structure GuestRedeemChallenge where
  tenantId : String
  guestPrincipalId : String
  verificationMethod : VerificationMethod

def resolveChallenge (host : Host) (rawState : String) (hashKey : List UInt8) (now : DateTime)
    (s : Store) : Except Raised GuestRedeemChallenge := do
  let current ← utc now
  let stateKeyHash ← stateHash host rawState hashKey
  let row ← validState host (s.state? stateKeyHash) current
  applyDatabaseTenantId row.tenantId
  let principal ← found (.guestRedeemError "redeem state is invalid")
    ((s.tables.principal? row.tenantId row.guestPrincipalId).filter isOpen)
  return ⟨row.tenantId, row.guestPrincipalId, principal.verificationMethod⟩

/-! ## Sessions -/

/-- The principal is active, was not revoked and has the identity. -/
def isVerified (issuer subject : String) (row : GuestPrincipalRow) : Bool :=
  row.status = .active && row.revokedAt.isNone && row.verifiedIssuer = some issuer &&
    row.verifiedSubject = some subject

def requireVerifiedPrincipal (t : Tables) (tenantId guestPrincipalId issuer subject : String) :
    Except Raised GuestPrincipalRow := do
  applyDatabaseTenantId tenantId
  found (.guestAuthSessionError "guest principal identity is not active and verified")
    ((t.principal? tenantId guestPrincipalId).filter (isVerified issuer subject))

structure CreateGuestAuthSession where
  sessionKeyHash : String
  tenantId : String
  guestPrincipalId : String
  issuer : String
  subject : String

def CreateGuestAuthSession.row (host : Host) (request : CreateGuestAuthSession) (current : Int) :
    GuestAuthSessionRow where
  sessionKeyHash := request.sessionKeyHash
  tenantId := request.tenantId
  guestPrincipalId := request.guestPrincipalId
  issuer := request.issuer
  subject := request.subject
  createdAt := host.isoformat current
  lastUsedAt := host.isoformat current
  absoluteExpiresAt := host.isoformat (current + absoluteSessionLifetime)
  revokedAt := none

/-- `create_guest_auth_session_in_transaction`, which `create_guest_auth_session` commits. -/
def createGuestAuthSession (host : Host) (request : CreateGuestAuthSession) (now : DateTime)
    (t : Tables) (sessions : List GuestAuthSessionRow) :
    Except Raised (List GuestAuthSessionRow) := do
  let current ← found (.guestAuthSessionError "now must be timezone-aware") now.utc
  let _ ← requireVerifiedPrincipal t request.tenantId request.guestPrincipalId request.issuer
    request.subject
  found (.integrityError "guest_auth_sessions.session_key_hash")
    (insertBy GuestAuthSessionRow.sessionKeyHash (request.row host current) sessions)

structure ResolvedGuestAuthSession where
  tenantId : String
  guestPrincipalId : String
  issuer : String
  subject : String

/-- The session was not revoked, and neither its end nor the end of its idle time is reached. -/
def GuestAuthSessionRow.isLive (host : Host) (row : GuestAuthSessionRow) (now : Int) : Bool :=
  row.revokedAt.isNone &&
    (parseAwareTimestamp host.toPython row.absoluteExpiresAt).any (now < ·) &&
    (parseAwareTimestamp host.toPython row.lastUsedAt).any (now < · + idleTimeout)

def resolveGuestAuthSession (host : Host) (sessionKeyHash : String) (now : Int) (s : Store) :
    Except Raised (Option ResolvedGuestAuthSession × Store) :=
  match (s.session? sessionKeyHash).filter fun row => row.isLive host now with
  | none => .ok (none, s)
  | some row =>
      match requireVerifiedPrincipal s.tables row.tenantId row.guestPrincipalId row.issuer
          row.subject with
      | .error (.guestAuthSessionError _) => .ok (none, s)
      | .error raised => .error raised
      | .ok _ =>
          .ok (some ⟨row.tenantId, row.guestPrincipalId, row.issuer, row.subject⟩,
            s.putSession { row with lastUsedAt := host.isoformat now })

def revokeGuestAuthSession (host : Host) (sessionKeyHash : String) (now : Int) (s : Store) :
    Store :=
  match s.session? sessionKeyHash with
  | none => s
  | some row => s.putSession { row with revokedAt := some (host.isoformat now) }

/-! ## Redeeming -/

structure VerifiedGuestIdentity where
  issuer : String
  subject : String

structure RedeemVerifiedIdentity where
  rawState : String
  hashKey : List UInt8
  sessionHashKey : List UInt8
  identity : VerifiedGuestIdentity
  now : DateTime
  /-- The text that `secrets` draws. -/
  rawSessionId : String

/-- What the redeem flow asks of the guest repository. -/
def RedeemVerifiedIdentity.guest (host : Host) (request : RedeemVerifiedIdentity)
    (row : GuestRedeemStateRow) (current : Int) : VerifiedGuest where
  guestPrincipalId := row.guestPrincipalId
  verifiedIssuer := request.identity.issuer
  verifiedSubject := request.identity.subject
  redeemedAt := host.isoformat current
  now := ⟨some current⟩

/-- What the redeem flow asks of the session store. -/
def RedeemVerifiedIdentity.session (host : Host) (request : RedeemVerifiedIdentity)
    (row : GuestRedeemStateRow) : CreateGuestAuthSession where
  sessionKeyHash := host.deriveSessionKeyHash request.rawSessionId request.sessionHashKey
  tenantId := row.tenantId
  guestPrincipalId := row.guestPrincipalId
  issuer := request.identity.issuer
  subject := request.identity.subject

/-- The principal as the repository changes it can be written. -/
def Host.stores (host : Host) (row : GuestPrincipalRow) : Bool :=
  row.verifiedIssuer.all host.storable && row.verifiedSubject.all host.storable

/-- The part of the transaction that follows the check of the redeem state. -/
def redeemRow (host : Host) (request : RedeemVerifiedIdentity) (row : GuestRedeemStateRow)
    (tenantId : String) (current : Int) (s : Store) : Except Raised Store := do
  let (activated, tables) ← (activateVerifiedGuest host.toPython tenantId
    (request.guest host row current) s.tables).mapError .admission
  ensure (host.stores activated) .dataError
  let sessions ← createGuestAuthSession host (request.session host row) ⟨some current⟩ tables
    s.sessions
  return {
    tables
    states := upsertBy GuestRedeemStateRow.stateKeyHash
      { row with consumedAt := some (host.isoformat current) } s.states
    sessions }

/-- The transaction of a redemption. -/
def redeemState (host : Host) (request : RedeemVerifiedIdentity) (stateKeyHash : String)
    (current : Int) (s : Store) : Except Raised Store := do
  let row ← validState host (s.state? stateKeyHash) current
  applyDatabaseTenantId row.tenantId
  let tenantId ← (required row.tenantId "tenant_id").mapError .admission
  redeemRow host request row tenantId current s

/-- Errors of the admission and of the redeem state get one text, others go on as they are. -/
def Raised.redeemed : Raised → Raised
  | .admission (.guestAdmissionError _) | .guestRedeemError _ =>
      .guestRedeemError "redeem state is invalid"
  | raised => raised

def redeemVerifiedIdentity (host : Host) (request : RedeemVerifiedIdentity) (s : Store) :
    Except Raised (String × Store) := do
  let current ← utc request.now
  let stateKeyHash ← stateHash host request.rawState request.hashKey
  let next ← (redeemState host request stateKeyHash current s).mapError Raised.redeemed
  return (request.rawSessionId, next)

inductive Call where
  | admission (call : Guest.Call)
  | issueRedeemState (request : IssueRedeemState)
  | resolveChallenge (rawState : String) (hashKey : List UInt8) (now : DateTime)
  | redeemVerifiedIdentity (request : RedeemVerifiedIdentity)
  | createGuestAuthSession (request : CreateGuestAuthSession) (now : Int)
  | resolveGuestAuthSession (sessionKeyHash : String) (now : Int)
  | revokeGuestAuthSession (sessionKeyHash : String) (now : Int)

inductive Answer where
  | admission (answer : Guest.Answer)
  | issued (rawState : String)
  | challenge (challenge : GuestRedeemChallenge)
  | redeemed (rawSessionId : String)
  | created
  | resolved (session : Option ResolvedGuestAuthSession)
  | revoked

def serve (host : Host) (s : Store) : Call → Except Raised (Answer × Store)
  | .admission call => do
      let (answer, tables) ← (Guest.serve host.toPython s.tables call).mapError .admission
      return (.admission answer, { s with tables })
  | .issueRedeemState request => do
      let next ← Redeem.issueRedeemState host request s
      return (.issued request.rawState, next)
  | .resolveChallenge rawState hashKey now => do
      let challenge ← Redeem.resolveChallenge host rawState hashKey now s
      return (.challenge challenge, s)
  | .redeemVerifiedIdentity request => do
      let (rawSessionId, next) ← Redeem.redeemVerifiedIdentity host request s
      return (.redeemed rawSessionId, next)
  | .createGuestAuthSession request now => do
      let sessions ← Redeem.createGuestAuthSession host request ⟨some now⟩ s.tables s.sessions
      return (.created, { s with sessions })
  | .resolveGuestAuthSession sessionKeyHash now => do
      let (session, next) ← Redeem.resolveGuestAuthSession host sessionKeyHash now s
      return (.resolved session, next)
  | .revokeGuestAuthSession sessionKeyHash now =>
      .ok (.revoked, Redeem.revokeGuestAuthSession host sessionKeyHash now s)

end KjAtlas.Guest.Redeem
