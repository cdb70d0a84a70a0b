import KjAtlas.AuthEdge.JwksStore
import KjAtlas.Py.UrlSplit
import KjAtlas.Sessions.AuthSession

/-! # Who sends a request

A request is resolved to an identity by its bearer token. Only where it carries
none, the cookie of an authentication session is looked at: the session is found
by the keyed hash of the cookie.
-/

namespace KjAtlas.AuthEdge

open Jwks (Raised)
open Py (Json Bytes Unicode)

/-- The names of headers are in lower case, as the server hands them over. -/
structure Request where
  method : String
  headers : List (String × String)
  cookies : InsertionMap String String
  urlScheme : String

/-- `request.headers.get(name)`. -/
def Request.header (request : Request) (name : String) : Option String :=
  request.headers.lookup name

/-- `AUTH_SESSION_COOKIE`, in both modules. -/
def authSessionCookie : String := "Sui-Sensemaking-Auth-Session"

/-- `_MAX_AUTH_SESSION_COOKIE_LENGTH`, in both modules. -/
def maxAuthSessionCookieLength : Nat := 256

/-- `_JWT_HEADER`. -/
def jwtHeader : String := "x-sui-sensemaking-authorization"

/-! ## What the resolver rests on -/

structure IdentityProviderRow where
  id : String
  issuer : String
  audience : String
  lifecycleState : String
  protocol : String

structure VerifiedTenantClaim where
  tenantId : String
  identityProviderId : String
  issuer : String
  audience : String
  subject : String

abbrev Claims (F : Type) : Type := List (String × Json F)

/-- The settings, the tables, and the libraries for tokens and hashes. -/
structure Deployment (F : Type) where
  unicode : Unicode
  /-- `hmac.new(key, message, sha256).hexdigest()`. -/
  hmacSha256 : Bytes → Bytes → String
  jwtAlgorithms : String
  tenantClaimName : String
  /-- `jwt.decode` without a check of the signature; `none` for a `PyJWTError`. -/
  decodeUnverified : String → List String → Option (Claims F)
  identityProviders : List IdentityProviderRow
  fetchJwksKeys : IdentityProviderRow → Except Raised (List (Json F))
  /-- `_verify_jwt`. -/
  verifyJwt : String → List (Json F) → String → String → Except Raised (Claims F)
  /-- `user_id` of the row of a provider and a subject. -/
  userIdentities : String → String → Option String
  /-- `tenant_id` of the active row of a provider and an external reference. -/
  tenantIdentityProviders : String → String → Option String

structure AuthContext where
  actorRef : Option String
  userId : Option String
  provider : Option String
  externalUid : Option String

structure ResolvedIdentity where
  userId : Option String
  reviewerRef : Option String
  ownerRef : Option String
  authContext : AuthContext
  verifiedTenantClaim : Option VerifiedTenantClaim
  authSessionKeyHash : Option String

def jwtIdentityError (statusCode : Nat) (code : String) : Raised :=
  .jwtIdentityError statusCode code

section Resolve

variable {F : Type} (d : Deployment F)

/-! ## Bearer tokens -/

def extractBearerToken (request : Request) : Option String :=
  match request.header jwtHeader with
  | none => none
  | some raw =>
      let value := stripText raw
      if value = "" then none
      else if "bearer ".toList.isPrefixOf (d.unicode.lower value).toList then
        some (stripText (.ofList (value.toList.drop 7)))
      else some value

/-- `setting.split(",")`, trimmed and without empty names. -/
def splitAlgorithms (setting : String) : List String :=
  ((setting.toList.splitOn ',').map fun name => stripText (.ofList name)).filter
    fun name => decide (name ≠ "")

/-- `_jwt_algorithms`. -/
def jwtAlgorithms : Except Raised (List String) := do
  let algorithms := splitAlgorithms d.jwtAlgorithms
  ensure (algorithms ≠ []) (jwtIdentityError 503 "configuration_error")
  return algorithms

def strings : List (Json F) → List String
  | [] => []
  | .str s :: items => s :: strings items
  | _ :: items => strings items

def normalizeAudience : Option (Json F) → List String
  | some (.str audience) => [audience]
  | some (.list items) => distinct (strings items)
  | _ => []

def IdentityProviderRow.IsActive (row : IdentityProviderRow) : Prop :=
  row.lifecycleState = "active" ∧ row.protocol = "oidc"

instance (row : IdentityProviderRow) : Decidable row.IsActive :=
  inferInstanceAs (Decidable (_ ∧ _))

def resolveIdentityProvider (issuer audience : String) : Option IdentityProviderRow :=
  d.identityProviders.find? fun row =>
    decide (row.issuer = issuer ∧ row.audience = audience ∧ row.IsActive)

/-- `_resolve_identity_provider_by_issuer`. -/
def resolveIdentityProviderByIssuer (issuer : String) : Except Raised IdentityProviderRow :=
  match d.identityProviders.filter fun row => decide (row.issuer = issuer ∧ row.IsActive) with
  | [provider] => .ok provider
  | _ => .error (jwtIdentityError 503 "configuration_error")

def stringClaim (claims : Claims F) (name : String) : Option String :=
  match claims.lookup name with
  | some (.str value) => some value
  | _ => none

def resolveTenantClaim (claims : Claims F) (provider : IdentityProviderRow) (subject : String) :
    Except Raised VerifiedTenantClaim := do
  let externalTenantRef ← found (jwtIdentityError 401 "missing_tenant_claim")
    ((stringClaim claims d.tenantClaimName).filter fun ref => decide (ref ≠ ""))
  let tenantId ← found (jwtIdentityError 401 "unknown_tenant")
    (d.tenantIdentityProviders provider.id externalTenantRef)
  return ⟨tenantId, provider.id, provider.issuer, provider.audience, subject⟩

/-- The part of `resolve` for a bearer token. -/
def resolveFromBearerToken (token : String) : Except Raised ResolvedIdentity := do
  let algorithms ← jwtAlgorithms d
  let unverified ← found (jwtIdentityError 401 "invalid_token")
    (d.decodeUnverified token algorithms)
  let issuer ← found (jwtIdentityError 401 "invalid_token") (stringClaim unverified "iss")
  let audiences := normalizeAudience (unverified.lookup "aud")
  ensure (audiences ≠ []) (jwtIdentityError 401 "invalid_token")
  let (provider, matchedAudience) ← found (jwtIdentityError 401 "unknown_provider")
    (audiences.findSome? fun audience =>
      (resolveIdentityProvider d issuer audience).map fun provider => (provider, audience))
  let keys ← d.fetchJwksKeys provider
  let verified ← d.verifyJwt token keys issuer matchedAudience
  let subject ← found (jwtIdentityError 401 "invalid_token") (stringClaim verified "sub")
  let userId ← found (jwtIdentityError 403 "identity_not_provisioned")
    (d.userIdentities provider.id subject)
  let claim ← resolveTenantClaim d verified provider subject
  return {
    userId := some userId
    reviewerRef := some userId
    ownerRef := some userId
    authContext := ⟨some userId, some userId, some provider.id, some subject⟩
    verifiedTenantClaim := some claim
    authSessionKeyHash := none }

/-! ## The cookie -/

/-- `raw_session_id.encode("utf-8")`. -/
def encode (text : String) : Bytes := Py.utf8 text.toList

def deriveSessionKeyHash (rawSessionId : String) (key : Bytes) : String :=
  d.hmacSha256 key (encode rawSessionId)

def identityOfSession (session : AuthSession.ResolvedAuthSession) (sessionKeyHash : String) :
    Except Raised ResolvedIdentity := do
  let tenantId ← found (jwtIdentityError 401 "session_invalid") session.activeTenantId
  let provider ← resolveIdentityProviderByIssuer d session.issuer
  return {
    userId := some session.principalId
    reviewerRef := some session.principalId
    ownerRef := some session.principalId
    authContext :=
      ⟨some session.principalId, some session.principalId, some provider.id, some session.subject⟩
    verifiedTenantClaim :=
      some ⟨tenantId, provider.id, provider.issuer, provider.audience, session.subject⟩
    authSessionKeyHash := some sessionKeyHash }

/-- `_resolve_from_auth_session_cookie`, with the sessions after the call. -/
def resolveFromAuthSessionCookie (sessions : Option AuthSession.Table) (key : Option Bytes)
    (now : Int) (request : Request) : Except Raised ResolvedIdentity × Option AuthSession.Table :=
  match sessions, key with
  | some table, some key =>
      let rawSessionId := (request.cookies.get? authSessionCookie).getD ""
      if rawSessionId = "" then (.error (jwtIdentityError 401 "missing_token"), some table)
      else if maxAuthSessionCookieLength < rawSessionId.toList.length then
        (.error (jwtIdentityError 401 "session_invalid"), some table)
      else
        let sessionKeyHash := deriveSessionKeyHash d rawSessionId key
        match AuthSession.resolveAuthSession table sessionKeyHash now with
        | (none, next) => (.error (jwtIdentityError 401 "session_invalid"), some next)
        | (some session, next) => (identityOfSession d session sessionKeyHash, some next)
  | _, _ => (.error (jwtIdentityError 401 "missing_token"), sessions)

/-- `JwtSaasIdentityContextResolver.resolve`, with the sessions after the call. -/
def resolve (sessions : Option AuthSession.Table) (key : Option Bytes) (now : Int)
    (request : Request) : Except Raised ResolvedIdentity × Option AuthSession.Table :=
  match extractBearerToken d request with
  | none => resolveFromAuthSessionCookie d sessions key now request
  | some token => (resolveFromBearerToken d token, sessions)

end Resolve

section Source

variable {F : Type} {d : Deployment F} {identity : ResolvedIdentity}

theorem bearer_has_no_session {token : String}
    (hok : resolveFromBearerToken d token = .ok identity) : identity.authSessionKeyHash = none := by
  unfold resolveFromBearerToken at hok
  simp only [bind_eq_ok] at hok
  obtain ⟨_, -, _, -, _, -, _, -, _, -, hok⟩ := hok
  obtain ⟨_, -, _, -, _, -, _, -, _, -, hidentity⟩ := hok
  rw [← Except.ok.inj hidentity]

variable {sessionKeyHash : String}

theorem session_of_identity {session : AuthSession.ResolvedAuthSession}
    (hok : identityOfSession d session sessionKeyHash = .ok identity) :
    identity.authSessionKeyHash = some sessionKeyHash := by
  unfold identityOfSession at hok
  simp only [bind_eq_ok] at hok
  obtain ⟨_, -, _, -, hidentity⟩ := hok
  rw [← Except.ok.inj hidentity]

theorem resolve_from_cookie {sessions : Option AuthSession.Table} {key : Option Bytes} {now : Int}
    {request : Request} (hok : (resolve d sessions key now request).1 = .ok identity)
    (hsession : identity.authSessionKeyHash = some sessionKeyHash) :
    extractBearerToken d request = none ∧ ∃ table hashKey rawSessionId session,
      sessions = some table ∧ key = some hashKey ∧
        request.cookies.get? authSessionCookie = some rawSessionId ∧ rawSessionId ≠ "" ∧
        sessionKeyHash = deriveSessionKeyHash d rawSessionId hashKey ∧
        (AuthSession.resolveAuthSession table sessionKeyHash now).1 = some session := by
  unfold resolve at hok
  cases htoken : extractBearerToken d request with
  | some token =>
      rw [htoken] at hok
      rw [bearer_has_no_session hok] at hsession
      cases hsession
  | none =>
      refine ⟨rfl, ?_⟩
      rw [htoken] at hok
      dsimp only [resolveFromAuthSessionCookie] at hok
      split at hok
      next table hashKey =>
        split at hok
        next => cases hok
        next hne =>
          split at hok
          next => cases hok
          next =>
            split at hok
            next => cases hok
            next session _ hfound =>
              obtain ⟨rawSessionId, hcookie⟩ : ∃ rawSessionId,
                  request.cookies.get? authSessionCookie = some rawSessionId := by
                cases hcookie : request.cookies.get? authSessionCookie with
                | none =>
                    rw [hcookie] at hne
                    exact absurd rfl hne
                | some rawSessionId => exact ⟨rawSessionId, rfl⟩
              rw [hcookie] at hok hne hfound
              obtain rfl : deriveSessionKeyHash d rawSessionId hashKey = sessionKeyHash :=
                Option.some.inj ((session_of_identity hok).symm.trans hsession)
              refine ⟨table, hashKey, rawSessionId, session, rfl, rfl, hcookie, hne, rfl, ?_⟩
              exact congrArg Prod.fst hfound
      next => cases hok

end Source

end KjAtlas.AuthEdge
