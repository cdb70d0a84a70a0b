import KjAtlas.Foundation.KeyedStore
import KjAtlas.Foundation.Transactions

/-! # Versions of tenant sessions

A persister keeps one version for each principal. A version is handed out, is
replaced by a new one when it is presented with a selection, and is forgotten
when the cookie that holds it is cleared. One persister keeps its sessions in a
dict, the other one in a table that all workers share.
-/

namespace KjAtlas.TenantSession

/-- Why an operation raises. -/
inductive Raised where
  | tenantSessionChangedError
  | valueError
  | typeError
  | integrityError

/-! ## Versions -/

def maxTenantSessionVersionLength : Nat := 128

def isVersionChar (c : Char) : Bool :=
  c.isAlphanum || c = '.' || c = '_' || c = '~' || c = '-'

/-- `_TENANT_SESSION_VERSION_PATTERN.fullmatch(value) is not None`. -/
def isCanonical (value : String) : Bool :=
  match value.toList with
  | [] => false
  | first :: rest => first.isAlphanum && decide (rest.length ≤ maxTenantSessionVersionLength - 1) &&
      rest.all isVersionChar

def canonicalTenantSessionVersion (value : String) : Except Raised String := do
  ensure (isCanonical value = true) .valueError
  return value

def isAscii (text : String) : Bool := text.toList.all fun c => decide (c.toNat < 128)

/-- `hmac.compare_digest` of two texts. -/
def compareDigest (left right : String) : Except Raised Bool := do
  ensure (isAscii left = true ∧ isAscii right = true) .typeError
  return decide (left = right)

def presented (cookie : Option String) : Option String := cookie.filter (· ≠ "")

/-! ## Sessions in memory -/

/-- A principal and the version of its session. -/
abbrev Session := String × String

def sessionVersion (sessions : List Session) (principalId : String) : Option String :=
  (findBy Prod.fst principalId sessions).map Prod.snd

def setVersion (sessions : List Session) (principalId version : String) : List Session :=
  upsertBy Prod.fst (principalId, version) sessions

namespace InMemory

/-- A version that is not canonical is replaced first. The cookie is compared with the version, and
the version is returned either way. -/
def currentVersion (sessions : List Session) (principalId : String) (cookie : Option String)
    (newVersion : String) : Except Raised String × List Session :=
  match sessionVersion sessions principalId with
  | none => (.ok newVersion, setVersion sessions principalId newVersion)
  | some stored =>
      let (version, sessions) := if isCanonical stored then (stored, sessions)
        else (newVersion, setVersion sessions principalId newVersion)
      match presented cookie with
      | some cookie => ((compareDigest cookie version).map fun _ => version, sessions)
      | none => (.ok version, sessions)

/-- The version that is presented is only compared where there is a session. -/
def persist (sessions : List Session) (principalId expected newVersion : String) :
    Except Raised String × List Session :=
  let compared : Except Raised Unit := match sessionVersion sessions principalId with
    | some current => do
        let same ← compareDigest current expected
        ensure (same = true) .tenantSessionChangedError
    | none => .ok ()
  match compared >>= fun _ => canonicalTenantSessionVersion newVersion with
  | .ok version => (.ok version, setVersion sessions principalId version)
  | .error raised => (.error raised, sessions)

def others (cookie : String) : List Session → Except Raised (List Session)
  | [] => .ok []
  | session :: sessions => do
      let same ← compareDigest cookie session.2
      let kept ← others cookie sessions
      return if same then kept else session :: kept

def clear (sessions : List Session) (cookie : Option String) : Except Raised Unit × List Session :=
  match presented cookie with
  | none => (.ok (), sessions)
  | some cookie => match others cookie sessions with
      | .ok kept => (.ok (), kept)
      | .error raised => (.error raised, sessions)

end InMemory

/-! ## Sessions in the database -/

structure SaasTenantSessionRow where
  principalId : String
  sessionVersion : String
  updatedAt : String

def SaasTenantSessionRow.session (row : SaasTenantSessionRow) : Session :=
  (row.principalId, row.sessionVersion)

/-- Another principal has the version: `uq_saas_tenant_sessions_version`. -/
def isTaken (rows : List SaasTenantSessionRow) (principalId version : String) : Bool :=
  rows.any fun row => decide (row.sessionVersion = version) && !decide (row.principalId = principalId)

namespace Database

def find (rows : List SaasTenantSessionRow) (principalId : String) :
    Option SaasTenantSessionRow := findBy SaasTenantSessionRow.principalId principalId rows

/-- An insert or an update, unless another principal has the version. -/
def put (rows : List SaasTenantSessionRow) (row : SaasTenantSessionRow) :
    Except Raised (List SaasTenantSessionRow) := do
  ensure (isTaken rows row.principalId row.sessionVersion = false) .integrityError
  return upsertBy SaasTenantSessionRow.principalId row rows

/-- `current_or_create_session_version`, when no other worker inserts a row in between. -/
def currentOrCreateSessionVersion (rows : List SaasTenantSessionRow)
    (principalId newVersion now : String) : Except Raised (String × List SaasTenantSessionRow) :=
  match find rows principalId with
  | some row => .ok (row.sessionVersion, rows)
  | none => do
      let next ← put rows ⟨principalId, newVersion, now⟩
      return (newVersion, next)

def rotateSessionVersion (rows : List SaasTenantSessionRow)
    (principalId expected newVersion now : String) :
    Except Raised (Bool × List SaasTenantSessionRow) :=
  if (find rows principalId).any fun row => decide (row.sessionVersion = expected) then do
    let next ← put rows ⟨principalId, newVersion, now⟩
    return (true, next)
  else .ok (false, rows)

def clearSessionVersion (rows : List SaasTenantSessionRow) (version : String) :
    List SaasTenantSessionRow :=
  rows.filter fun row => !decide (row.sessionVersion = version)

/-- A row that was created stays when its version turns out not to be canonical. -/
def currentVersion (rows : List SaasTenantSessionRow) (principalId newVersion now : String) :
    Except Raised String × List SaasTenantSessionRow :=
  match currentOrCreateSessionVersion rows principalId newVersion now with
  | .ok (version, next) => (canonicalTenantSessionVersion version, next)
  | .error raised => (.error raised, rows)

def persist (rows : List SaasTenantSessionRow) (principalId expected newVersion now : String) :
    Except Raised String × List SaasTenantSessionRow :=
  let rotated : Except Raised (String × List SaasTenantSessionRow) := do
    let expected ← canonicalTenantSessionVersion expected
    let newVersion ← canonicalTenantSessionVersion newVersion
    let (rotated, next) ← rotateSessionVersion rows principalId expected newVersion now
    ensure (rotated = true) .tenantSessionChangedError
    return (newVersion, next)
  match rotated with
  | .ok (version, next) => (.ok version, next)
  | .error raised => (.error raised, rows)

def clear (rows : List SaasTenantSessionRow) (cookie : Option String) : List SaasTenantSessionRow :=
  match (presented cookie).filter isCanonical with
  | some cookie => clearSessionVersion rows cookie
  | none => rows

end Database

/-! ## Both persisters side by side -/

structure Persisters where
  sessions : List Session
  rows : List SaasTenantSessionRow

def Persisters.empty : Persisters := ⟨[], []⟩

/-- What a persister is asked. A new version comes with the calls that may need one. -/
inductive Call where
  | currentVersion (principalId : String) (cookie : Option String) (newVersion now : String)
  | persist (principalId expected newVersion now : String)
  | clear (cookie : Option String)

def Call.newVersion : Call → Option String
  | .currentVersion _ _ newVersion _ | .persist _ _ newVersion _ => some newVersion
  | .clear _ => none

/-- A version, nothing after a clear, or an exception. -/
abbrev Answer := Except Raised (Option String)

/-- What the persister in memory answers, and what the other one does. -/
structure Answers where
  memory : Answer
  database : Answer

def Persisters.serve (p : Persisters) : Call → Except Unit (Answers × Persisters)
  | .currentVersion principalId cookie newVersion now =>
      let (memory, sessions) := InMemory.currentVersion p.sessions principalId cookie newVersion
      let (database, rows) := Database.currentVersion p.rows principalId newVersion now
      .ok (⟨memory.map some, database.map some⟩, ⟨sessions, rows⟩)
  | .persist principalId expected newVersion now =>
      let (memory, sessions) := InMemory.persist p.sessions principalId expected newVersion
      let (database, rows) := Database.persist p.rows principalId expected newVersion now
      .ok (⟨memory.map some, database.map some⟩, ⟨sessions, rows⟩)
  | .clear cookie =>
      let (memory, sessions) := InMemory.clear p.sessions cookie
      .ok (⟨memory.map fun _ => none, .ok none⟩, ⟨sessions, Database.clear p.rows cookie⟩)

end KjAtlas.TenantSession
