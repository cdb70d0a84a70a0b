import KjAtlas.Foundation.Transactions
import KjAtlas.Py.Json

/-! # Access control

A request passes the tenant boundary, then local guards, then an adapter that
asks an external policy engine, and last the enforcement of the decision that
these led to. What the adapter returns or raises is arbitrary: a failure of the
adapter leads to a decision that allows reading at most.
-/

namespace KjAtlas.Access

/-! ## Requests and decisions -/

inductive AccessAction where
  | read
  | write
  | «export»
  | share
deriving DecidableEq

inductive Visibility where
  | Public
  | Unlisted
  | Org
  | Restricted
deriving DecidableEq

inductive FailSafeMode where
  | deny
  | readOnly
deriving DecidableEq

structure AccessResource where
  visibility : Option Visibility
  policyRef : Option String
  tenantId : Option String

structure TenantContext where
  tenantId : String

/-- A request, without the subject, which only adapters look at. -/
structure AccessRequest where
  action : AccessAction
  resource : Option AccessResource
  tenant : Option TenantContext
  safeMode : Bool
  readOnly : Bool

structure AccessDecision where
  allow : Bool
  readOnly : Bool
  reason : Option String
deriving DecidableEq

/-- What an adapter can raise. The last one is no `Exception`, such as an interrupt. -/
inductive AdapterError where
  | unreachable
  | invalidPolicy
  | invalidRequest
  | unexpected
  | notAnException
deriving DecidableEq

/-- An adapter returns a decision, or a value of another class, or raises. -/
abbrev AccessControlAdapter : Type := AccessRequest → Except AdapterError (Option AccessDecision)

/-- What a request to authorize can raise. -/
inductive Raised where
  | httpException (statusCode : Nat) (detail : String)
  | attributeError
  | adapter (error : AdapterError)
deriving DecidableEq

/-- A text that is not empty. -/
def isTruthy (value : Option String) : Bool := value.any fun text => decide (text ≠ "")

/-! ## Guards -/

def deny (reason : String) : AccessDecision := ⟨false, false, some reason⟩

def readOnlyFallback (reason : String) (action : AccessAction) : AccessDecision :=
  if action = .read then ⟨true, true, some reason⟩ else ⟨false, true, some reason⟩

/-- Guards that do not ask the adapter: safe mode, then read only, then the policy reference. -/
def applyLocalFailsafe (request : AccessRequest) (mode : FailSafeMode) :
    Except Raised (Option AccessDecision) :=
  if request.safeMode && decide (request.action ∈ [.«export», .share]) then
    .ok (some (deny "safe_mode"))
  else if request.readOnly && decide (request.action ∈ [.write, .«export», .share]) then
    .ok (some ⟨false, true, some "read_only"⟩)
  else
    match request.resource with
    | none => .error .attributeError
    | some resource =>
        if resource.visibility ≠ some .Org ∧ resource.visibility ≠ some .Restricted then .ok none
        else if isTruthy resource.policyRef then .ok none
        else if mode = .deny then .ok (some (deny "policy_ref_missing"))
        else .ok (some (readOnlyFallback "policy_ref_missing" request.action))

def applyTenantBoundaryGuard (request : AccessRequest) (required : Bool) : Option AccessDecision :=
  if !required then none
  else
    match request.tenant, request.resource.bind AccessResource.tenantId with
    | none, _ => some (deny "tenant_context_missing")
    | some _, none => some (deny "resource_tenant_missing")
    | some tenant, some tenantId =>
        if tenantId = "" then some (deny "resource_tenant_missing")
        else if tenant.tenantId ≠ tenantId then some (deny "tenant_mismatch")
        else none

def applyAdapterFailsafe (request : AccessRequest) (mode : FailSafeMode) (reason : String) :
    AccessDecision :=
  if mode = .deny then deny reason else readOnlyFallback reason request.action

def resolveAccessDecision (adapter : AccessControlAdapter) (request : AccessRequest)
    (failSafeMode : FailSafeMode) (requireTenantScope : Bool) : Except Raised AccessDecision :=
  match applyTenantBoundaryGuard request requireTenantScope with
  | some decision => .ok decision
  | none =>
      match applyLocalFailsafe request failSafeMode with
      | .error error => .error error
      | .ok (some decision) => .ok decision
      | .ok none =>
          match adapter request with
          | .error .unreachable =>
              .ok (applyAdapterFailsafe request failSafeMode "policy_ref_unreachable")
          | .error .invalidPolicy =>
              .ok (applyAdapterFailsafe request failSafeMode "policy_ref_invalid")
          | .error .invalidRequest =>
              .ok (applyAdapterFailsafe request failSafeMode "adapter_error")
          | .error .unexpected =>
              .ok (applyAdapterFailsafe request failSafeMode "adapter_error")
          | .error .notAnException => .error (.adapter .notAnException)
          | .ok none => .ok (applyAdapterFailsafe request failSafeMode "adapter_error")
          | .ok (some decision) => .ok decision

def enforceAccess (decision : AccessDecision) (_action : AccessAction) : Except Raised Unit :=
  if decision.allow then .ok ()
  else
    match decision.reason with
    | some reason =>
        if reason = "" then .error (.httpException 403 "Access denied")
        else .error (.httpException 403 ("Access denied: " ++ reason))
    | none => .error (.httpException 403 "Access denied")

/-- The check that a route makes of a request of one tenant. -/
def authorizeRequest (adapter : AccessControlAdapter) (request : AccessRequest)
    (failSafeMode : FailSafeMode) : Except Raised Unit := do
  let decision ← resolveAccessDecision adapter request failSafeMode true
  enforceAccess decision request.action

def noopAdapter : AccessControlAdapter := fun _ => .ok (some ⟨true, false, none⟩)

def mockAdapter (mockAllow : Bool) (mockReason : String) : AccessControlAdapter := fun request =>
  if !mockAllow then .ok (some (deny mockReason))
  else
    match request.resource with
    | none => .error .unexpected
    | some resource =>
        if resource.policyRef = some "mock:deny" then .ok (some (deny "mock_deny"))
        else if resource.policyRef = some "mock:read_only" then
          .ok (some ⟨true, true, some "mock_read_only"⟩)
        else .ok (some ⟨true, false, none⟩)

end KjAtlas.Access

/-! ## What enforcement guarantees

A request that is let through stays in its tenant and obeys safe mode and its
own read-only flag. Everything but reading needs a decision of the adapter. The
enforcement does not look at the read-only flag of that decision: an adapter
that allows reading only lets every other action through as well.
-/

namespace KjAtlas.Access

variable {adapter : AccessControlAdapter} {request : AccessRequest} {mode : FailSafeMode}

/-! ## Each guard -/

/-- The tenants of a request and of its resource are known and the same. -/
def SameTenant (request : AccessRequest) : Prop :=
  ∃ tenant, request.tenant = some tenant ∧
    request.resource.bind AccessResource.tenantId = some tenant.tenantId ∧ tenant.tenantId ≠ ""

/-- Safe mode and the read-only flag of a request permit its action. -/
def Permitted (request : AccessRequest) : Prop :=
  (request.safeMode = true → request.action ∉ [AccessAction.«export», .share]) ∧
    (request.readOnly = true → request.action ∉ [AccessAction.write, .«export», .share])

/-- A resource that is not open to everyone names a policy. -/
def HasPolicy (request : AccessRequest) : Prop :=
  ∀ resource, request.resource = some resource →
    resource.visibility = some .Org ∨ resource.visibility = some .Restricted →
      isTruthy resource.policyRef = true

theorem applyTenantBoundaryGuard_eq_none :
    applyTenantBoundaryGuard request true = none ↔ SameTenant request := by
  unfold applyTenantBoundaryGuard SameTenant
  rw [if_neg (by simp)]
  split
  next htenant => simp [htenant]
  next tenant htenant hid => simp [htenant, hid]
  next tenant id htenant hid =>
    simp only [htenant, hid, Option.some.injEq, exists_eq_left']
    split
    next hempty =>
      subst hempty
      simp only [reduceCtorEq, false_iff, not_and, not_not]
      exact fun heq => heq.symm
    next hfilled =>
      split
      next hne =>
        simp only [reduceCtorEq, false_iff, not_and]
        exact fun heq => absurd heq.symm hne
      next heq =>
        rw [not_not] at heq
        simp [heq, hfilled]

variable {decision : AccessDecision} {action : AccessAction} {resource : AccessResource}

/-- A decision before the adapter is asked denies everything but reading. -/
theorem allow_of_applyTenantBoundaryGuard
    (hguard : applyTenantBoundaryGuard request true = some decision) : decision.allow = false := by
  unfold applyTenantBoundaryGuard at hguard
  rw [if_neg (by simp)] at hguard
  split at hguard
  next => cases hguard; rfl
  next => cases hguard; rfl
  next =>
    split at hguard
    next => cases hguard; rfl
    next =>
      split at hguard
      next => cases hguard; rfl
      next => cases hguard

theorem allow_readOnlyFallback {reason : String} :
    (readOnlyFallback reason action).allow = true ↔ action = .read := by
  unfold readOnlyFallback
  split
  next hread => simp [hread]
  next hother => simp [hother]

theorem allow_applyAdapterFailsafe {reason : String}
    (hallow : (applyAdapterFailsafe request mode reason).allow = true) :
    request.action = .read := by
  unfold applyAdapterFailsafe at hallow
  split at hallow
  next => cases hallow
  next => exact allow_readOnlyFallback.mp hallow

/-- The local guards leave a permitted request to the adapter, or let it read, or deny it. -/
theorem applyLocalFailsafe_cases (hresource : request.resource = some resource)
    (mode : FailSafeMode) :
    (∃ decision, applyLocalFailsafe request mode = .ok (some decision) ∧
      (decision.allow = true → Permitted request ∧ request.action = .read)) ∨
    applyLocalFailsafe request mode = .ok none ∧ Permitted request ∧ HasPolicy request := by
  unfold applyLocalFailsafe
  split
  next => exact .inl ⟨_, rfl, fun hallow => nomatch hallow⟩
  next hsafe =>
  split
  next => exact .inl ⟨_, rfl, fun hallow => nomatch hallow⟩
  next hreadOnly =>
    have hpermitted : Permitted request := by
      simp only [Bool.and_eq_true, decide_eq_true_eq, not_and] at hsafe hreadOnly
      exact ⟨hsafe, hreadOnly⟩
    have hpolicy : isTruthy resource.policyRef = true → HasPolicy request := by
      rintro htruthy other hother -
      rw [hresource, Option.some.injEq] at hother
      exact hother ▸ htruthy
    rw [hresource]
    dsimp only
    split
    next hopen =>
      refine .inr ⟨rfl, hpermitted, fun other hother hclosed => ?_⟩
      rw [hresource, Option.some.injEq] at hother
      subst hother
      exact absurd hclosed (not_or.mpr hopen)
    next =>
      split
      next htruthy => exact .inr ⟨rfl, hpermitted, hpolicy htruthy⟩
      next =>
        split
        next => exact .inl ⟨_, rfl, fun hallow => nomatch hallow⟩
        next =>
          exact .inl ⟨_, rfl, fun hallow => ⟨hpermitted, allow_readOnlyFallback.mp hallow⟩⟩

/-! ## The whole check -/

/-- What letting a request through should mean. -/
structure FailSafe (adapter : AccessControlAdapter) (request : AccessRequest) : Prop where
  tenant : SameTenant request
  permitted : Permitted request
  policy : request.action ≠ .read → HasPolicy request
  granted : request.action ≠ .read →
    ∃ decision, adapter request = .ok (some decision) ∧ decision.allow = true ∧
      decision.readOnly = false

/-- The adapter is asked about an action other than reading, and allows reading only. -/
def GrantedReadOnly (adapter : AccessControlAdapter) (request : AccessRequest)
    (mode : FailSafeMode) : Prop :=
  SameTenant request ∧ applyLocalFailsafe request mode = .ok none ∧ request.action ≠ .read ∧
    ∃ decision, adapter request = .ok (some decision) ∧ decision.allow = true ∧
      decision.readOnly = true

theorem enforceAccess_eq_ok {value : Unit} :
    enforceAccess decision action = .ok value ↔ decision.allow = true := by
  unfold enforceAccess
  split
  next hallow => simp [hallow]
  next hallow =>
    rw [Bool.not_eq_true] at hallow
    rw [hallow]
    split
    next => split <;> simp
    next => simp

/-- What the adapter leads to, once it is asked. -/
theorem authorizeRequest_of_guards (htenant : SameTenant request)
    (hlocal : applyLocalFailsafe request mode = .ok none)
    (hok : authorizeRequest adapter request mode = .ok ()) :
    request.action = .read ∨
      ∃ decision, adapter request = .ok (some decision) ∧ decision.allow = true := by
  simp only [authorizeRequest, bind_eq_ok, enforceAccess_eq_ok, resolveAccessDecision,
    applyTenantBoundaryGuard_eq_none.mpr htenant, hlocal] at hok
  obtain ⟨decision, hdecision, hallow⟩ := hok
  split at hdecision
  case h_6 => cases hdecision; exact .inl (allow_applyAdapterFailsafe hallow)
  case h_7 granted hgranted =>
    cases hdecision
    exact .inr ⟨decision, hgranted, hallow⟩
  case h_5 => cases hdecision
  all_goals
    cases hdecision
    exact .inl (allow_applyAdapterFailsafe hallow)

theorem guards_of_authorizeRequest (hresource : request.resource = some resource)
    (hok : authorizeRequest adapter request mode = .ok ()) :
    SameTenant request ∧ Permitted request ∧
      (request.action = .read ∨
        applyLocalFailsafe request mode = .ok none ∧ HasPolicy request) := by
  have htenant : SameTenant request := by
    rw [← applyTenantBoundaryGuard_eq_none]
    cases hguard : applyTenantBoundaryGuard request true with
    | none => rfl
    | some decision =>
        simp only [authorizeRequest, bind_eq_ok, enforceAccess_eq_ok, resolveAccessDecision,
          hguard, Except.ok.injEq, exists_eq_left'] at hok
        rw [allow_of_applyTenantBoundaryGuard hguard] at hok
        cases hok
  refine ⟨htenant, ?_⟩
  rcases applyLocalFailsafe_cases hresource mode with
    ⟨decision, hlocal, hallowed⟩ | ⟨hlocal, hpermitted, hpolicy⟩
  · simp only [authorizeRequest, bind_eq_ok, enforceAccess_eq_ok, resolveAccessDecision,
      applyTenantBoundaryGuard_eq_none.mpr htenant, hlocal, Except.ok.injEq,
      exists_eq_left'] at hok
    obtain ⟨hpermitted, hread⟩ := hallowed hok
    exact ⟨hpermitted, .inl hread⟩
  · exact ⟨hpermitted, .inr ⟨hlocal, hpolicy⟩⟩

/-- An adapter that allows reading only lets every action through. -/
theorem authorizeRequest_of_grantedReadOnly (hgranted : GrantedReadOnly adapter request mode) :
    authorizeRequest adapter request mode = .ok () := by
  obtain ⟨htenant, hlocal, -, decision, hdecision, hallow, -⟩ := hgranted
  rw [authorizeRequest, bind_eq_ok]
  refine ⟨decision, ?_, enforceAccess_eq_ok.mpr hallow⟩
  simp only [resolveAccessDecision, applyTenantBoundaryGuard_eq_none.mpr htenant, hlocal,
    hdecision]

/-- Access is fail-safe exactly when no read-only decision of the adapter is about another action
than reading. -/
theorem failSafe_iff (adapter : AccessControlAdapter) (request : AccessRequest)
    (mode : FailSafeMode) {resource : AccessResource}
    (hresource : request.resource = some resource) :
    (authorizeRequest adapter request mode = .ok () → FailSafe adapter request) ↔
      ¬ GrantedReadOnly adapter request mode := by
  constructor
  · intro hsafe hgranted
    obtain ⟨decision, hdecision, -, hwritable⟩ :=
      (hsafe (authorizeRequest_of_grantedReadOnly hgranted)).granted hgranted.2.2.1
    obtain ⟨-, -, -, other, hother, -, hreadOnly⟩ := hgranted
    rw [hdecision, Except.ok.injEq, Option.some.injEq] at hother
    rw [hother, hreadOnly] at hwritable
    cases hwritable
  · intro hnot hok
    obtain ⟨htenant, hpermitted, hread | ⟨hlocal, hpolicy⟩⟩ :=
      guards_of_authorizeRequest hresource hok
    · exact ⟨htenant, hpermitted, fun hother => absurd hread hother,
        fun hother => absurd hread hother⟩
    · refine ⟨htenant, hpermitted, fun _ => hpolicy, fun hother => ?_⟩
      obtain ⟨decision, hdecision, hallow⟩ :=
        (authorizeRequest_of_guards htenant hlocal hok).resolve_left hother
      refine ⟨decision, hdecision, hallow, ?_⟩
      by_contra hreadOnly
      exact hnot ⟨htenant, hlocal, hother, decision, hdecision, hallow,
        Bool.eq_true_of_not_eq_false hreadOnly⟩

namespace ReadOnlyGrant

/-- A write to a restricted document whose policy allows reading only. -/
def writeRequest : AccessRequest where
  action := .write
  resource := some ⟨some .Restricted, some "mock:read_only", some "tenant"⟩
  tenant := some ⟨"tenant"⟩
  safeMode := true
  readOnly := false

/-- The write goes through. -/
theorem not_failSafe :
    ¬ (authorizeRequest (mockAdapter true "mock") writeRequest .readOnly = .ok () →
      FailSafe (mockAdapter true "mock") writeRequest) := by
  intro hsafe
  obtain ⟨decision, hdecision, -, hwritable⟩ := (hsafe (by decide)).granted (by decide)
  have hread : mockAdapter true "mock" writeRequest = .ok (some ⟨true, true, some "mock_read_only"⟩) :=
    by decide
  rw [hread, Except.ok.injEq, Option.some.injEq] at hdecision
  subst hdecision
  cases hwritable

/-- With a policy that allows writing, access is fail-safe. -/
theorem failSafe_of_writable :
    authorizeRequest noopAdapter writeRequest .readOnly = .ok () ∧
      FailSafe noopAdapter writeRequest := by
  have hok : authorizeRequest noopAdapter writeRequest .readOnly = .ok () := by decide
  refine ⟨hok, (failSafe_iff noopAdapter writeRequest .readOnly rfl).mpr ?_ hok⟩
  rintro ⟨-, -, -, decision, hdecision, -, hreadOnly⟩
  cases hdecision
  cases hreadOnly

end ReadOnlyGrant

end KjAtlas.Access
