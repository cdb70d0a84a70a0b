import KjAtlas.Foundation.Transactions
import KjAtlas.Py.Json

/-! # The cache of signing keys

The signing keys of an identity provider are fetched from it and cached. They are
fresh for ten minutes, and usable for thirty. A verification looks for fresh keys,
fetches keys where there are none, and falls back on the cached ones after an
`OSError`. Verifications run side by side: each takes one step of the store, or
one end of a fetch, at a time. Instants are counted in nanoseconds of the
monotonic clock.
-/

namespace KjAtlas.Jwks

open Py (Json)

/-- `JWKS_NORMAL_TTL_SECONDS`. -/
def normalTtl : Int := 600 * 1000000000

/-- `JWKS_COOLDOWN_SECONDS`. -/
def cooldown : Int := 60 * 1000000000

/-- `JWKS_MAX_STALE_SECONDS`. -/
def maxStale : Int := 1800 * 1000000000

/-- The exceptions that come up in a fetch. -/
inductive Raised where
  | jwtIdentityError (statusCode : Nat) (code : String)
  | httpError
  | jsonDecodeError
  | osError
  | other (name : String)
deriving DecidableEq

def jwksUnavailable : Raised := .jwtIdentityError 503 "jwks_unavailable"

section Store

variable {F : Type}

structure CachedKeySet (F : Type) where
  keys : List (Json F)
  fetchedAt : Int
  refreshedAt : Int

namespace CachedKeySet

def age (cached : CachedKeySet F) (now : Int) : Int := now - cached.fetchedAt

def isFresh (cached : CachedKeySet F) (now : Int) : Bool := decide (cached.age now < normalTtl)

def isStaleButUsable (cached : CachedKeySet F) (now : Int) : Bool :=
  decide (cached.age now < maxStale)

variable {cached : CachedKeySet F} {now : Int}

theorem isFresh_iff : cached.isFresh now = true ↔ now - cached.fetchedAt < normalTtl :=
  decide_eq_true_iff

theorem isFresh_eq_false : cached.isFresh now = false ↔ normalTtl ≤ now - cached.fetchedAt :=
  decide_eq_false_iff_not.trans not_lt

theorem isStaleButUsable_iff :
    cached.isStaleButUsable now = true ↔ now - cached.fetchedAt < maxStale :=
  decide_eq_true_iff

theorem isStaleButUsable_eq_false :
    cached.isStaleButUsable now = false ↔ maxStale ≤ now - cached.fetchedAt :=
  decide_eq_false_iff_not.trans not_lt

theorem usable_of_fresh (hfresh : cached.isFresh now = true) :
    cached.isStaleButUsable now = true := by
  rw [isFresh_iff] at hfresh
  rw [isStaleButUsable_iff]
  unfold normalTtl at hfresh
  unfold maxStale
  omega

end CachedKeySet

/-! ## The store -/

structure JwksStore (F : Type) where
  entries : InsertionMap String (CachedKeySet F)
  lastFailure : InsertionMap String Int

namespace JwksStore

def empty : JwksStore F := ⟨.empty, .empty⟩

/-- The cached keys; a set that is no longer usable is evicted. -/
def get (store : JwksStore F) (providerId : String) (now : Int) :
    Option (List (Json F)) × JwksStore F :=
  match store.entries.get? providerId with
  | none => (none, store)
  | some entry =>
      if entry.isStaleButUsable now then (some entry.keys, store)
      else (none, { store with entries := store.entries.delete providerId })

def set (store : JwksStore F) (providerId : String) (keys : List (Json F)) (now : Int) :
    JwksStore F where
  entries := store.entries.set providerId {
    keys := keys
    fetchedAt := now
    refreshedAt := ((store.entries.get? providerId).map CachedKeySet.refreshedAt).getD now }
  lastFailure := store.lastFailure.delete providerId

def setFreshFailure (store : JwksStore F) (providerId : String) (now : Int) : JwksStore F :=
  { store with lastFailure := store.lastFailure.set providerId now }

def canForceRefresh (store : JwksStore F) (providerId : String) (now : Int) : Bool :=
  match store.lastFailure.get? providerId with
  | none => true
  | some last => decide (cooldown ≤ now - last)

def needsRefresh (store : JwksStore F) (providerId : String) (now : Int) : Bool :=
  match store.entries.get? providerId with
  | none => true
  | some entry => !entry.isFresh now

variable {store : JwksStore F} {providerId : String} {now : Int}

theorem entries_set (keys : List (Json F)) :
    (store.set providerId keys now).entries.get? providerId = some {
      keys := keys
      fetchedAt := now
      refreshedAt := ((store.entries.get? providerId).map CachedKeySet.refreshedAt).getD now } := by
  unfold set
  rw [InsertionMap.get?_set, if_pos rfl]

theorem needsRefresh_eq_false : store.needsRefresh providerId now = false ↔
    ∃ entry, store.entries.get? providerId = some entry ∧ entry.isFresh now = true := by
  unfold needsRefresh
  cases store.entries.get? providerId with
  | none => simp
  | some entry => simp

end JwksStore

end Store

/-! ## Fetching -/

/-- A response, with what `json.loads` makes of its text. -/
structure Response (F : Type) where
  isErrorStatus : Bool
  contentLength : Nat
  json : Except Raised (Json F)

/-- What a fetch meets: the configured address, its scheme and host name (`urlparse` raises a
`ValueError` for some), and how the request ends. -/
structure Endpoint (F : Type) where
  jwksUri : Option String
  urlparse : Option (String × Option String)
  httpxGet : Except Raised (Response F)

/-- `_JWKS_MAX_RESPONSE_BYTES`. -/
def jwksMaxResponseBytes : Nat := 128 * 1024

section Fetch

variable {F : Type}

/-- `raise … from None` for the exceptions that a fetch catches. -/
def Raised.converted : Raised → Raised
  | .httpError | .jsonDecodeError | .osError => jwksUnavailable
  | raised => raised

/-- The body of the `try` block. -/
def requestJson (endpoint : Endpoint F) : Except Raised (Json F) := do
  let response ← endpoint.httpxGet
  ensure (response.isErrorStatus = false) Raised.httpError
  ensure (response.contentLength ≤ jwksMaxResponseBytes) jwksUnavailable
  response.json

/-- The list under `keys`, if it has any. -/
def keysOf : Json F → Option (List (Json F))
  | .dict members =>
      match members.lookup "keys" with
      | some (.list keys) => if keys.isEmpty then none else some keys
      | _ => none
  | _ => none

def fetchJwks (endpoint : Endpoint F) : Except Raised (List (Json F)) := do
  ensure (endpoint.jwksUri.getD "" ≠ "") jwksUnavailable
  let (scheme, hostname) ← found (.other "ValueError") endpoint.urlparse
  ensure (scheme = "http" ∨ scheme = "https") jwksUnavailable
  ensure (scheme = "http" →
    hostname = some "localhost" ∨ hostname = some "127.0.0.1" ∨ hostname = some "::1")
    jwksUnavailable
  let data ← (requestJson endpoint).mapError Raised.converted
  found jwksUnavailable (keysOf data)

theorem converted_ne_osError (raised : Raised) : raised.converted ≠ .osError := by
  cases raised <;> simp [Raised.converted, jwksUnavailable]

/-- A fetch never raises the exception that its callers look for. -/
theorem fetchJwks_onlyRaises (endpoint : Endpoint F) :
    OnlyRaises (fun raised => raised ≠ .osError) (fetchJwks endpoint) := by
  have hensure (condition : Prop) [Decidable condition] :
      OnlyRaises (fun raised => raised ≠ .osError) (ensure condition jwksUnavailable) :=
    onlyRaises_ensure nofun
  refine (hensure _).bind fun _ _ => OnlyRaises.bind (onlyRaises_found nofun) fun _ _ => ?_
  refine (hensure _).bind fun _ _ => (hensure _).bind fun _ _ => ?_
  refine OnlyRaises.bind ?_ fun _ _ => onlyRaises_found nofun
  intro raised hraised
  cases hrequest : requestJson endpoint with
  | ok data =>
      rw [hrequest] at hraised
      cases hraised
  | error other =>
      rw [hrequest] at hraised
      rw [← Except.error.inj hraised]
      exact converted_ne_osError other

end Fetch

/-! ## A verification -/

/-- Where a verification stands in `_jwks_keys_for_provider`, or in the method `_fetch_jwks_keys`
with the same body: the call that it makes next. -/
inductive Stage where
  | needsRefresh
  | getFresh
  | canForceRefresh
  | getInCooldown
  | fetching
  | getAfterFailure
  | done
deriving DecidableEq

/-- What a step of a verification does to the outside: it ends with keys or with an exception, or
starts or ends a fetch. -/
inductive Effect (F : Type) where
  | silent
  | answered (keys : List (Json F))
  | rejected (raised : Raised)
  | fetchStarted
  | fetched (keys : List (Json F))
  | fetchFailed (raised : Raised)
  | failureRecorded

section Verification

variable {F : Type}

/-- Answer with the cached keys, or give up. -/
def answerStale (store : JwksStore F) (providerId : String) (now : Int) :
    Effect F × Stage × JwksStore F :=
  match store.get providerId now with
  | (some stale, next) => (.answered stale, .done, next)
  | (none, next) => (.rejected jwksUnavailable, .done, next)

/-- The end of a fetch: `set`, or the branches of `except OSError`. -/
def endFetch (store : JwksStore F) (providerId : String) (now : Int) (endpoint : Endpoint F) :
    Effect F × Stage × JwksStore F :=
  match fetchJwks endpoint with
  | .ok keys => (.fetched keys, .done, store.set providerId keys now)
  | .error .osError =>
      (.failureRecorded, .getAfterFailure, store.setFreshFailure providerId now)
  | .error raised => (.fetchFailed raised, .done, store)

/-- One step of `_jwks_keys_for_provider`. -/
def jwksKeysForProvider (store : JwksStore F) (providerId : String) (now : Int)
    (endpoint : Endpoint F) : Stage → Effect F × Stage × JwksStore F
  | .needsRefresh =>
      if store.needsRefresh providerId now then (.silent, .canForceRefresh, store)
      else (.silent, .getFresh, store)
  | .getFresh =>
      match store.get providerId now with
      | (some cached, next) => (.answered cached, .done, next)
      | (none, next) => (.silent, .canForceRefresh, next)
  | .canForceRefresh =>
      if store.canForceRefresh providerId now then (.fetchStarted, .fetching, store)
      else (.silent, .getInCooldown, store)
  | .getInCooldown => answerStale store providerId now
  | .fetching => endFetch store providerId now endpoint
  | .getAfterFailure => answerStale store providerId now
  | .done => (.silent, .done, store)

end Verification

end KjAtlas.Jwks
