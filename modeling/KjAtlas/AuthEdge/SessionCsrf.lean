import KjAtlas.AuthEdge.Resolver

/-! # Requests that rely on the session cookie

A request with an unsafe method that is resolved by its cookie must come from the
same origin, and carry a token that is derived from the cookie. The check and the
resolver decide independently whether the cookie counts, and agree on it.
-/

namespace KjAtlas.AuthEdge

open Jwks (Raised)
open Js (Text)
open Py (Json Bytes Unicode)

structure CsrfFailure where
  statusCode : Nat
  code : String
  message : String
deriving DecidableEq

/-- `CSRF_HEADER`. -/
def csrfHeader : String := "x-sui-sensemaking-csrf"

/-- `_SAFE_METHODS`. -/
def safeMethods : List String := ["GET", "HEAD", "OPTIONS", "TRACE"]

def csrfDomainSeparator : Bytes := encode "sui-sensemaking-session-csrf-v1" ++ [0]

def csrfValidationFailed : CsrfFailure :=
  ⟨403, "csrf_validation_failed", "Request validation failed."⟩

section Check

variable {F : Type} (d : Deployment F) (validNetloc : Text → Bool)

/-- A text that is not empty, not too long, has no white space at its ends, and is printable. -/
def IsCanonical (u : Unicode) (bound : Nat) (text : String) : Prop :=
  text ≠ "" ∧ text.toList.length ≤ bound ∧ stripText text = text ∧ text.toList.all u.isPrintable = true

instance (u : Unicode) (bound : Nat) (text : String) : Decidable (IsCanonical u bound text) :=
  inferInstanceAs (Decidable (_ ∧ _ ∧ _ ∧ _))

/-- `derive_session_csrf_token`; `none` for a `ValueError`. -/
def deriveSessionCsrfToken (rawSessionId : String) (key : Bytes) : Option String :=
  if IsCanonical d.unicode maxAuthSessionCookieLength rawSessionId then
    some (d.hmacSha256 key (csrfDomainSeparator ++ encode rawSessionId))
  else none

/-- An origin that was taken apart is that of a host. -/
def Matches (u : Unicode) (parsed : Py.SplitResult) (host urlScheme : String) : Prop :=
  parsed.PortReadable ∧ parsed.scheme ∈ ["http".toList, "https".toList] ∧
    parsed.hostinfo.1 ≠ [] ∧ ¬parsed.HasUsername ∧ parsed.path ∈ [[], ['/']] ∧
    parsed.query = [] ∧ parsed.fragment = [] ∧
    u.lower (.ofList parsed.netloc) = u.lower host ∧
    u.lower (.ofList parsed.scheme) = u.lower urlScheme

instance (u : Unicode) (parsed : Py.SplitResult) (host urlScheme : String) :
    Decidable (Matches u parsed host urlScheme) :=
  inferInstanceAs (Decidable (_ ∧ _ ∧ _ ∧ _ ∧ _ ∧ _ ∧ _ ∧ _ ∧ _))

/-- `_same_origin_host`; the `ValueError` of `urlsplit` is not caught. -/
def sameOriginHost (request : Request) : Except Raised Bool :=
  match request.header "origin", request.header "host" with
  | some origin, some host =>
      if IsCanonical d.unicode 2048 origin ∧ IsCanonical d.unicode 255 host then do
        let parsed ← found (.other "ValueError") (Py.urlsplit validNetloc origin.toList)
        return decide (Matches d.unicode parsed host request.urlScheme)
      else .ok false
  | _, _ => .ok false

/-- The header has the form of a token, and is the one that is expected. -/
def Presents (request : Request) (expected : String) : Prop :=
  ∃ presented ∈ request.header csrfHeader, presented.toList.length = 64 ∧
    (∀ c ∈ presented.toList, c ∈ "0123456789abcdef".toList) ∧ presented = expected

instance (request : Request) (expected : String) : Decidable (Presents request expected) :=
  have (presented : String) : Decidable (∀ c ∈ presented.toList, c ∈ "0123456789abcdef".toList) :=
    List.decidableBAll _ presented.toList
  inferInstanceAs (Decidable (∃ _ ∈ request.header csrfHeader, _ ∧ _ ∧ _))

/-- `validate_bff_csrf_request`; `none` lets the request pass. -/
def validateBffCsrfRequest (request : Request) (key : Option Bytes) :
    Except Raised (Option CsrfFailure) :=
  if d.unicode.upper request.method ∈ safeMethods then .ok none
  else if extractBearerToken d request ≠ none then .ok none
  else
    let rawSessionId := (request.cookies.get? authSessionCookie).getD ""
    if rawSessionId = "" then .ok none
    else
      match key with
      | none => .ok (some ⟨503, "csrf_protection_unavailable",
          "Session request protection is unavailable."⟩)
      | some key =>
          match deriveSessionCsrfToken d rawSessionId key with
          | none => .ok (some csrfValidationFailed)
          | some expected => do
              let sameOrigin ← sameOriginHost d validNetloc request
              return if sameOrigin ∧ Presents request expected then none
                else some csrfValidationFailed

/-- The origin names the scheme and the host of the request, without regard to case. Only
delimiters come after its authority. -/
def SameOrigin (u : Unicode) (request : Request) : Prop :=
  ∃ origin host scheme authority rest,
    request.header "origin" = some origin ∧ request.header "host" = some host ∧
      origin.toList = scheme ++ "://".toList ++ authority ++ rest ∧
      (∀ c ∈ authority, Py.isDelimiter c = false) ∧ (∀ c ∈ rest, Py.isDelimiter c = true) ∧
      u.lower (.ofList (scheme.map Char.toLower)) = u.lower request.urlScheme ∧
      u.lower (.ofList authority) = u.lower host

end Check

section Origin

variable {F : Type} {d : Deployment F} {validNetloc : Text → Bool} {request : Request}

/-- A text that is printable and has no white space at its ends has no character that `urlsplit`
leaves out. -/
theorem IsCanonical.kept {u : Unicode} {bound : Nat} {text : String}
    (hcanonical : IsCanonical u bound text) :
    (∀ c ∈ text.toList.head?, Py.isC0ControlOrSpace c = false) ∧
      ∀ c ∈ text.toList, c ∉ Py.unsafeUrlChars := by
  obtain ⟨-, -, hstrip, hprintable⟩ := hcanonical
  have hcontrol : ∀ c ∈ text.toList, 32 ≤ c.toNat := by
    intro c hc
    by_contra hlt
    have hyes := List.all_eq_true.mp hprintable c hc
    rw [u.control_not_printable c (by omega)] at hyes
    cases hyes
  constructor
  · intro c hc
    have hlist : strip text.toList = text.toList := by
      rw [← String.toList_ofList (l := strip text.toList)]
      exact congrArg String.toList hstrip
    have hspace := head_of_strip hlist c hc
    have hle := hcontrol c (List.mem_of_mem_head? hc)
    -- the only one of these characters that is printable is the space
    have hne : c.toNat ≠ 32 := by
      intro heq
      simp [isPythonSpace, heq] at hspace
    simp only [Py.isC0ControlOrSpace, decide_eq_false_iff_not]
    omega
  · intro c hc hunsafe
    have hle := hcontrol c hc
    simp only [Py.unsafeUrlChars, List.mem_cons, List.not_mem_nil, or_false] at hunsafe
    rcases hunsafe with rfl | rfl | rfl <;> exact absurd hle (by decide)

theorem sameOrigin_of_check (hok : sameOriginHost d validNetloc request = .ok true) :
    SameOrigin d.unicode request := by
  unfold sameOriginHost at hok
  split at hok
  next origin host horigin hhost =>
    split at hok
    next hcanonical =>
      simp only [bind_eq_ok, found_eq_ok] at hok
      obtain ⟨parsed, hsplit, hmatches⟩ := hok
      obtain ⟨-, hscheme, hhostname, -, hpath, hquery, hfragment, hnetloc, hschemes⟩ :=
        of_decide_eq_true (Except.ok.inj hmatches)
      obtain ⟨hstart, hsafe⟩ := hcanonical.1.kept
      have hscheme' : parsed.scheme ≠ [] := by
        rintro hnil
        rw [hnil] at hscheme
        revert hscheme
        decide
      have hnetloc' : parsed.netloc ≠ [] := by
        intro hnil
        apply hhostname
        simp [Py.SplitResult.hostinfo, hnil, Py.rpartition, Py.partition]
      obtain ⟨scheme, rest, hurl, hlower, hplain, hrest⟩ :=
        Py.exists_parts hstart hsafe hsplit hscheme' hnetloc'
      refine ⟨origin, host, scheme, parsed.netloc, rest, horigin, hhost, ?_, hplain, ?_, ?_, hnetloc⟩
      · rw [hurl]
        simp
      · intro c hc
        rw [hrest, hquery, hfragment] at hc
        rcases List.mem_append.mp hc with hc | hc
        · rcases List.mem_append.mp hc with hc | hc
          · rcases List.mem_pair.mp hpath with hempty | hslash
            · simp [hempty] at hc
            · rw [hslash, List.mem_singleton] at hc
              simp [hc, Py.isDelimiter]
          · split at hc
            · rw [List.mem_singleton] at hc
              simp [hc, Py.isDelimiter]
            · cases hc
        · split at hc
          · rw [List.mem_singleton] at hc
            simp [hc, Py.isDelimiter]
          · cases hc
      · rw [hlower]
        exact hschemes
    next => cases hok
  next => cases hok

end Origin

/-! ## The check and the resolver -/

section Agreement

variable {F : Type} {d : Deployment F} {validNetloc : Text → Bool} {request : Request}

theorem checked_of_passed {key : Bytes} {rawSessionId : String}
    (hmethod : d.unicode.upper request.method ∉ safeMethods)
    (hbearer : extractBearerToken d request = none)
    (hcookie : request.cookies.get? authSessionCookie = some rawSessionId) (hne : rawSessionId ≠ "")
    (hpassed : validateBffCsrfRequest d validNetloc request (some key) = .ok none) :
    SameOrigin d.unicode request ∧ ∃ token, deriveSessionCsrfToken d rawSessionId key = some token ∧
      request.header csrfHeader = some token := by
  unfold validateBffCsrfRequest at hpassed
  rw [if_neg hmethod, if_neg (not_not_intro hbearer), hcookie] at hpassed
  simp only [Option.getD_some, hne, if_false] at hpassed
  cases hderive : deriveSessionCsrfToken d rawSessionId key with
  | none =>
      rw [hderive] at hpassed
      cases hpassed
  | some expected =>
      rw [hderive] at hpassed
      obtain ⟨sameOrigin, horigin, hdecided⟩ := bind_eq_ok.mp hpassed
      have hnone := Except.ok.inj hdecided
      split at hnone
      next hboth =>
        obtain ⟨rfl, presented, hheader, -, -, rfl⟩ := hboth
        exact ⟨sameOrigin_of_check horigin, presented, rfl, hheader⟩
      next => cases hnone

/-- Every unsafe request that is resolved by the cookie of a session is checked: with one key for
both components, it passes only from the same origin, with the token derived from the very cookie
whose hash was resolved. A request with a bearer token is never resolved by its cookie. -/
theorem cookie_requests_checked (d : Deployment F) (validNetloc : Text → Bool)
    (sessions : Option AuthSession.Table) (key : Option Bytes) (now : Int) (request : Request) :
    (∀ identity sessionKeyHash,
      (resolve d sessions key now request).1 = .ok identity →
      identity.authSessionKeyHash = some sessionKeyHash →
      d.unicode.upper request.method ∉ safeMethods →
      validateBffCsrfRequest d validNetloc request key = .ok none →
      SameOrigin d.unicode request ∧ ∃ hashKey rawSessionId token,
        key = some hashKey ∧ request.cookies.get? authSessionCookie = some rawSessionId ∧
          sessionKeyHash = deriveSessionKeyHash d rawSessionId hashKey ∧
          deriveSessionCsrfToken d rawSessionId hashKey = some token ∧
          request.header csrfHeader = some token) ∧
    (∀ identity, extractBearerToken d request ≠ none →
      (resolve d sessions key now request).1 = .ok identity →
      identity.authSessionKeyHash = none) := by
  constructor
  · intro identity sessionKeyHash hok hsession hmethod hpassed
    obtain ⟨hbearer, table, hashKey, rawSessionId, session, rfl, rfl, hcookie, hne, hhash, -⟩ :=
      resolve_from_cookie hok hsession
    obtain ⟨horigin, token, hderive, hheader⟩ :=
      checked_of_passed hmethod hbearer hcookie hne hpassed
    exact ⟨horigin, hashKey, rawSessionId, token, rfl, hcookie, hhash, hderive, hheader⟩
  · intro identity hbearer hok
    cases hsession : identity.authSessionKeyHash with
    | none => rfl
    | some sessionKeyHash => exact absurd (resolve_from_cookie hok hsession).1 hbearer

end Agreement

namespace CaseIgnored

def sessionHash : String := "3c2bdadb32f73c69e6d87d18e0f5b0841fd545a959c24b22081ebe88e85b4964"

def csrfToken : String := "15201e283e61f6969fca1e24b5290ff4a08bb266a561c704b8ad58788980aa8a"

def hashKey : Bytes := encode "key"

/-- The hashes of the cookie `s1` under the key `key`. -/
def deployment : Deployment Unit where
  unicode := .ascii
  hmacSha256 _ message := if message = encode "s1" then sessionHash else csrfToken
  jwtAlgorithms := "RS256,ES256"
  tenantClaimName := "tenant"
  decodeUnverified _ _ := none
  identityProviders := [⟨"idp", "https://idp.example", "api", "active", "oidc"⟩]
  fetchJwksKeys _ := .error Jwks.jwksUnavailable
  verifyJwt _ _ _ _ := .error (jwtIdentityError 401 "invalid_token")
  userIdentities _ _ := none
  tenantIdentityProviders _ _ := none

def sessions : AuthSession.Table where
  tenants := ["t1"]
  rows := [(AuthSession.CreateAuthSession.mk sessionHash "u1" "https://idp.example" "sub1"
    (some "t1") "v1").row 0]

def lowerCase : Request where
  method := "get"
  headers := [("host", "app.example")]
  cookies := .ofList [(authSessionCookie, "s1")]
  urlScheme := "https"

def otherCase : Request where
  method := "POST"
  headers := [("host", "APP.example"), ("origin", "https://app.example"), (csrfHeader, csrfToken)]
  cookies := .ofList [(authSessionCookie, "s1")]
  urlScheme := "https"

/-- A request whose method is `get` is resolved by its cookie and passes without an origin; and one
passes whose origin differs from its host in case. -/
theorem passed_with_other_case :
    ((resolve deployment (some sessions) (some hashKey) 1 lowerCase).1.toOption.bind
        ResolvedIdentity.authSessionKeyHash = some sessionHash ∧
      lowerCase.method ∉ safeMethods ∧ lowerCase.header "origin" = none ∧
      validateBffCsrfRequest deployment (fun _ => true) lowerCase (some hashKey) = .ok none) ∧
    (resolve deployment (some sessions) (some hashKey) 1 otherCase).1.toOption.bind
        ResolvedIdentity.authSessionKeyHash = some sessionHash ∧
      otherCase.method ∉ safeMethods ∧
      otherCase.header "origin" ≠ (otherCase.header "host").map ("https://" ++ ·) ∧
      validateBffCsrfRequest deployment (fun _ => true) otherCase (some hashKey) = .ok none := by
  refine ⟨⟨?_, ?_, rfl, rfl⟩, ?_, ?_, ?_, ?_⟩
  · decide +kernel
  · decide
  · decide +kernel
  · decide
  · decide +kernel
  · decide +kernel

end CaseIgnored

end KjAtlas.AuthEdge
