import KjAtlas.Foundation.KeyedStore
import KjAtlas.Foundation.Transactions

/-! # Authentication sessions

A session is created at a login and found by the hash of its cookie. It ends when
it is revoked, twelve hours after its creation, and when it has not been used for
an hour. The active tenant of a session is exchanged together with a version, by
whoever presents the present version. Instants are counted in microseconds.
-/

namespace KjAtlas.AuthSession

inductive Raised where
  | integrityError

structure SaasAuthSessionRow where
  sessionKeyHash : String
  principalId : String
  issuer : String
  subject : String
  activeTenantId : Option String
  tenantSessionVersion : String
  createdAt : Int
  lastUsedAt : Int
  absoluteExpiresAt : Int
  revokedAt : Option Int

/-- `_ABSOLUTE_SESSION_LIFETIME`. -/
def absoluteSessionLifetime : Int := 12 * 60 * 60 * 1000000

def idleTimeout : Int := 60 * 60 * 1000000

structure ResolvedAuthSession where
  principalId : String
  issuer : String
  subject : String
  activeTenantId : Option String
  tenantSessionVersion : String

/-- The rows, and the tenants that their foreign key may name. -/
structure Table where
  tenants : List String
  rows : List SaasAuthSessionRow

namespace Table

def find (t : Table) (key : String) : Option SaasAuthSessionRow :=
  findBy SaasAuthSessionRow.sessionKeyHash key t.rows

/-- Write a row back. -/
def put (t : Table) (row : SaasAuthSessionRow) : Table :=
  { t with rows := upsertBy SaasAuthSessionRow.sessionKeyHash row t.rows }

end Table

/-! ## Operations -/

structure CreateAuthSession where
  sessionKeyHash : String
  principalId : String
  issuer : String
  subject : String
  activeTenantId : Option String
  tenantSessionVersion : String

def CreateAuthSession.row (request : CreateAuthSession) (now : Int) : SaasAuthSessionRow where
  sessionKeyHash := request.sessionKeyHash
  principalId := request.principalId
  issuer := request.issuer
  subject := request.subject
  activeTenantId := request.activeTenantId
  tenantSessionVersion := request.tenantSessionVersion
  createdAt := now
  lastUsedAt := now
  absoluteExpiresAt := now + absoluteSessionLifetime
  revokedAt := none

def createAuthSession (t : Table) (request : CreateAuthSession) (now : Int) :
    Except Raised Table := do
  let rows ← found .integrityError
    (insertBy SaasAuthSessionRow.sessionKeyHash (request.row now) t.rows)
  ensure (∀ tenantId ∈ request.activeTenantId, tenantId ∈ t.tenants) .integrityError
  return { t with rows }

/-- The session is revoked, has reached its end, or has not been used for too long. -/
def SaasAuthSessionRow.IsOver (row : SaasAuthSessionRow) (now : Int) : Prop :=
  row.revokedAt ≠ none ∨ row.absoluteExpiresAt ≤ now ∨ row.lastUsedAt + idleTimeout ≤ now

instance (row : SaasAuthSessionRow) (now : Int) : Decidable (row.IsOver now) :=
  inferInstanceAs (Decidable (_ ∨ _ ∨ _))

def SaasAuthSessionRow.resolved (row : SaasAuthSessionRow) : ResolvedAuthSession where
  principalId := row.principalId
  issuer := row.issuer
  subject := row.subject
  activeTenantId := row.activeTenantId
  tenantSessionVersion := row.tenantSessionVersion

def resolveAuthSession (t : Table) (key : String) (now : Int) :
    Option ResolvedAuthSession × Table :=
  match t.find key with
  | none => (none, t)
  | some row =>
      if row.IsOver now then (none, t)
      else (some row.resolved, t.put { row with lastUsedAt := now })

structure RotateActiveTenant where
  sessionKeyHash : String
  expectedVersion : String
  newActiveTenantId : String
  newVersion : String

/-- The rows that the update changes have the key and the version, and are not revoked. -/
def RotateActiveTenant.Hits (request : RotateActiveTenant) (row : SaasAuthSessionRow) : Prop :=
  row.tenantSessionVersion = request.expectedVersion ∧ row.revokedAt = none

instance (request : RotateActiveTenant) : DecidablePred request.Hits :=
  fun _ => inferInstanceAs (Decidable (_ ∧ _))

def rotateActiveTenant (t : Table) (request : RotateActiveTenant) : Except Raised (Bool × Table) :=
  match (t.find request.sessionKeyHash).filter fun row => request.Hits row with
  | none => .ok (false, t)
  | some row => do
      ensure (request.newActiveTenantId ∈ t.tenants) .integrityError
      return (true, t.put { row with
        activeTenantId := some request.newActiveTenantId
        tenantSessionVersion := request.newVersion })

def revokeAuthSession (t : Table) (key : String) (now : Int) : Table :=
  match t.find key with
  | none => t
  | some row => t.put { row with revokedAt := some now }

inductive Operation where
  | create (request : CreateAuthSession)
  | resolve (key : String)
  | rotate (request : RotateActiveTenant)
  | revoke (key : String)

/-- An operation and the time of its call. -/
structure Call where
  now : Int
  operation : Operation

inductive Answer where
  | created
  | resolved (session : Option ResolvedAuthSession)
  | rotated (success : Bool)
  | revoked

def Table.serve (t : Table) (call : Call) : Except Raised (Answer × Table) :=
  match call.operation with
  | .create request => (createAuthSession t request call.now).map fun next => (.created, next)
  | .resolve key =>
      let (session, next) := resolveAuthSession t key call.now
      .ok (.resolved session, next)
  | .rotate request => (rotateActiveTenant t request).map fun (success, next) =>
      (.rotated success, next)
  | .revoke key => .ok (.revoked, revokeAuthSession t key call.now)

end KjAtlas.AuthSession
