import KjAtlas.Storage.TenantScope
import KjAtlas.Sessions.TenantSession
import KjAtlas.Js.Order

/-! # Session contexts of the browser

A session context names the principal, the active tenant and the tenants to
choose from. It is read from a value of any shape, and what is read is read
again as it is.
-/

namespace KjAtlas.SessionContext

open Js Storage

/-- What a step of the front end throws. -/
inductive Thrown where
  | invalidTenantSessionContext
  | aborted
  | error (message : String)
  | other (value : JsValue)

structure TenantSessionSummaryV1 where
  id : String
  displayName : String

inductive EffectiveCapability where
  | documentRead
  | documentWrite
  | documentExport
  | documentShare
  | documentPolicyManage
  | membershipProvision
  | agentRegister
  | agentRevoke
  | auditRead
  | tenantProvision
  | tenantSuspend
deriving DecidableEq

namespace EffectiveCapability

def text : EffectiveCapability → String
  | documentRead => "document.read"
  | documentWrite => "document.write"
  | documentExport => "document.export"
  | documentShare => "document.share"
  | documentPolicyManage => "document.policy.manage"
  | membershipProvision => "membership.provision"
  | agentRegister => "agent.register"
  | agentRevoke => "agent.revoke"
  | auditRead => "audit.read"
  | tenantProvision => "tenant.provision"
  | tenantSuspend => "tenant.suspend"

/-- `EFFECTIVE_CAPABILITIES`. -/
def all : List EffectiveCapability :=
  [documentRead, documentWrite, documentExport, documentShare, documentPolicyManage,
    membershipProvision, agentRegister, agentRevoke, auditRead, tenantProvision, tenantSuspend]

def ofText? (text : String) : Option EffectiveCapability :=
  all.find? fun capability => decide (capability.text = text)

end EffectiveCapability

structure TenantSessionContextV1 where
  principalId : String
  activeTenant : TenantSessionSummaryV1
  availableTenants : List TenantSessionSummaryV1
  effectiveCapabilities : List EffectiveCapability
  capabilityVersion : String
  tenantSessionVersion : String

def TenantSessionSummaryV1.toJs (summary : TenantSessionSummaryV1) : JsValue :=
  .object [("id", some (.string summary.id)), ("displayName", some (.string summary.displayName))]

def TenantSessionContextV1.toJs (session : TenantSessionContextV1) : JsValue :=
  .object [("principalId", some (.string session.principalId)),
    ("activeTenant", some session.activeTenant.toJs),
    ("availableTenants", some (.array (session.availableTenants.map TenantSessionSummaryV1.toJs))),
    ("effectiveCapabilities",
      some (.array (session.effectiveCapabilities.map fun capability => .string capability.text))),
    ("capabilityVersion", some (.string session.capabilityVersion)),
    ("tenantSessionVersion", some (.string session.tenantSessionVersion))]

/-! ## Reading a session context -/

section Parse

variable (isOther : Char → Bool)

/-- The text is not empty, not too long, trimmed, and has no character of the category C. -/
def isCanonicalText (text : String) (maxLength : Nat) : Bool :=
  decide (text ≠ "" ∧ text.length ≤ maxLength ∧ trim text = text) && !text.toList.any isOther

def canonicalString (value : Option JsValue) (maxLength : Nat) : Except Thrown String := do
  let text ← found .invalidTenantSessionContext (value.bind JsValue.string?)
  ensure (isCanonicalText isOther text maxLength = true) .invalidTenantSessionContext
  return text

def hasExactKeys (props : Props) (expectedKeys : List String) : Bool :=
  decide (props.names.length = expectedKeys.length) && props.names.all expectedKeys.contains

def exactProps (value : JsValue) (expectedKeys : List String) : Except Thrown Props :=
  match value with
  | .object props => do
      ensure (hasExactKeys props expectedKeys = true) .invalidTenantSessionContext
      return props
  | _ => .error .invalidTenantSessionContext

def arrayItems (value : Option JsValue) : Except Thrown (List JsValue) :=
  match value with
  | some (.array items) => .ok items
  | _ => .error .invalidTenantSessionContext

def effectiveCapability (value : JsValue) : Except Thrown EffectiveCapability := do
  let text ← canonicalString isOther (some value) 64
  found .invalidTenantSessionContext (EffectiveCapability.ofText? text)

def tenantSessionVersion (value : Option JsValue) : Except Thrown String := do
  let version ← canonicalString isOther value 128
  ensure (TenantSession.isCanonical version = true) .invalidTenantSessionContext
  return version

def parseTenantSummary (value : JsValue) : Except Thrown TenantSessionSummaryV1 := do
  let candidate ← exactProps value ["displayName", "id"]
  let id ← canonicalString isOther (candidate.get "id") 256
  let displayName ← canonicalString isOther (candidate.get "displayName") 256
  return { id, displayName }

def isAllowlisted (tenants : List TenantSessionSummaryV1) (active : TenantSessionSummaryV1) : Prop :=
  (findBy TenantSessionSummaryV1.id active.id tenants).map TenantSessionSummaryV1.displayName =
    some active.displayName

instance (tenants : List TenantSessionSummaryV1) (active : TenantSessionSummaryV1) :
    Decidable (isAllowlisted tenants active) :=
  inferInstanceAs (Decidable (_ = _))

def parseTenantSessionContext (value : JsValue) : Except Thrown TenantSessionContextV1 := do
  let candidate ← exactProps value ["activeTenant", "availableTenants", "capabilityVersion",
    "effectiveCapabilities", "principalId", "tenantSessionVersion"]
  let tenantValues ← arrayItems (candidate.get "availableTenants")
  ensure (tenantValues ≠ [] ∧ tenantValues.length ≤ 256) .invalidTenantSessionContext
  let capabilityValues ← arrayItems (candidate.get "effectiveCapabilities")
  ensure (capabilityValues.length ≤ EffectiveCapability.all.length) .invalidTenantSessionContext
  let activeValue ← found .invalidTenantSessionContext (candidate.get "activeTenant")
  let activeTenant ← parseTenantSummary isOther activeValue
  let availableTenants ← tenantValues.mapM (parseTenantSummary isOther)
  ensure (availableTenants.map TenantSessionSummaryV1.id).Nodup .invalidTenantSessionContext
  ensure (isAllowlisted availableTenants activeTenant) .invalidTenantSessionContext
  let capabilities ← capabilityValues.mapM (effectiveCapability isOther)
  ensure capabilities.Nodup .invalidTenantSessionContext
  let principalId ← canonicalString isOther (candidate.get "principalId") 256
  let capabilityVersion ← canonicalString isOther (candidate.get "capabilityVersion") 128
  let version ← tenantSessionVersion isOther (candidate.get "tenantSessionVersion")
  return {
    principalId, activeTenant, availableTenants
    effectiveCapabilities := sortOn codeUnitLe EffectiveCapability.text capabilities
    capabilityVersion
    tenantSessionVersion := version }

def buildBrowserStorageScopeFromSession (sessionContext : TenantSessionContextV1)
    (deployment : String) : Except Thrown TenantBrowserStorageScope := do
  let scope : TenantBrowserStorageScope :=
    { deployment, tenantId := sessionContext.activeTenant.id,
      principalId := sessionContext.principalId }
  let _ ← (buildTenantStoragePrefix isOther scope).mapError .error
  return scope

end Parse

/-! ## What is read -/

section Canonical

variable {isOther : Char → Bool} {session : TenantSessionContextV1} {value : JsValue}

structure CanonicalSummary (isOther : Char → Bool) (summary : TenantSessionSummaryV1) : Prop where
  id : isCanonicalText isOther summary.id 256 = true
  displayName : isCanonicalText isOther summary.displayName 256 = true

/-- What holds of every session context that is read. -/
structure Canonical (isOther : Char → Bool) (session : TenantSessionContextV1) : Prop where
  principalId : isCanonicalText isOther session.principalId 256 = true
  activeTenant : CanonicalSummary isOther session.activeTenant
  availableTenants : ∀ tenant ∈ session.availableTenants, CanonicalSummary isOther tenant
  count : session.availableTenants ≠ [] ∧ session.availableTenants.length ≤ 256
  distinct : (session.availableTenants.map TenantSessionSummaryV1.id).Nodup
  allowlisted : isAllowlisted session.availableTenants session.activeTenant
  capabilities : ∀ capability ∈ session.effectiveCapabilities,
    isCanonicalText isOther capability.text 64 = true
  capabilityCount : session.effectiveCapabilities.length ≤ EffectiveCapability.all.length
  distinctCapabilities : session.effectiveCapabilities.Nodup
  sorted : sortOn codeUnitLe EffectiveCapability.text session.effectiveCapabilities =
    session.effectiveCapabilities
  capabilityVersion : isCanonicalText isOther session.capabilityVersion 128 = true
  version : isCanonicalText isOther session.tenantSessionVersion 128 = true ∧
    TenantSession.isCanonical session.tenantSessionVersion = true

variable {read : Option JsValue} {capability : EffectiveCapability}
  {summary : TenantSessionSummaryV1}

theorem canonicalString_eq_ok {maxLength : Nat} {text : String} :
    canonicalString isOther read maxLength = .ok text ↔
      read.bind JsValue.string? = some text ∧ isCanonicalText isOther text maxLength = true := by
  unfold canonicalString
  simp only [bind_eq_ok, found_eq_ok, ensure_eq_ok]
  constructor
  · rintro ⟨_, hread, _, hcanonical, hok⟩
    cases hok
    exact ⟨hread, hcanonical⟩
  · rintro ⟨hread, hcanonical⟩
    exact ⟨text, hread, (), hcanonical, rfl⟩

theorem EffectiveCapability.ofText?_text (capability : EffectiveCapability) :
    ofText? capability.text = some capability := by
  cases capability <;> decide

theorem EffectiveCapability.text_of_ofText? {text : String}
    (hread : ofText? text = some capability) : capability.text = text := by
  unfold ofText? at hread
  simpa using List.find?_some hread

theorem effectiveCapability_eq_ok :
    effectiveCapability isOther value = .ok capability ↔
      value = .string capability.text ∧ isCanonicalText isOther capability.text 64 = true := by
  unfold effectiveCapability
  simp only [bind_eq_ok, canonicalString_eq_ok, found_eq_ok, Option.bind_some]
  constructor
  · rintro ⟨text, ⟨hstring, hcanonical⟩, hread⟩
    obtain rfl := EffectiveCapability.text_of_ofText? hread
    cases value with
    | string text => exact ⟨congrArg JsValue.string (Option.some.inj hstring), hcanonical⟩
    | _ => cases hstring
  · rintro ⟨rfl, hcanonical⟩
    exact ⟨_, ⟨rfl, hcanonical⟩, capability.ofText?_text⟩

theorem canonicalSummary_of_parse (hparse : parseTenantSummary isOther value = .ok summary) :
    CanonicalSummary isOther summary := by
  unfold parseTenantSummary at hparse
  simp only [bind_eq_ok, canonicalString_eq_ok] at hparse
  obtain ⟨_, -, _, ⟨-, hid⟩, _, ⟨-, hname⟩, hok⟩ := hparse
  cases hok
  exact ⟨hid, hname⟩

theorem parseTenantSummary_toJs (hsummary : CanonicalSummary isOther summary) :
    parseTenantSummary isOther summary.toJs = .ok summary := by
  have hid : canonicalString isOther (some (.string summary.id)) 256 = .ok summary.id :=
    canonicalString_eq_ok.mpr ⟨rfl, hsummary.id⟩
  have hname : canonicalString isOther (some (.string summary.displayName)) 256 =
      .ok summary.displayName :=
    canonicalString_eq_ok.mpr ⟨rfl, hsummary.displayName⟩
  unfold parseTenantSummary
  simp only [bind_eq_ok]
  exact ⟨_, rfl, _, hid, _, hname, rfl⟩

theorem tenantSessionVersion_eq_ok {version : String} :
    tenantSessionVersion isOther read = .ok version ↔
      read.bind JsValue.string? = some version ∧ isCanonicalText isOther version 128 = true ∧
        TenantSession.isCanonical version = true := by
  unfold tenantSessionVersion
  simp only [bind_eq_ok, canonicalString_eq_ok, ensure_eq_ok]
  constructor
  · rintro ⟨_, ⟨hread, hcanonical⟩, _, hpattern, hok⟩
    cases hok
    exact ⟨hread, hcanonical, hpattern⟩
  · rintro ⟨hread, hcanonical, hpattern⟩
    exact ⟨version, ⟨hread, hcanonical⟩, (), hpattern, rfl⟩

theorem canonical_of_parse (hparse : parseTenantSessionContext isOther value = .ok session) :
    Canonical isOther session := by
  unfold parseTenantSessionContext at hparse
  simp only [bind_eq_ok, ensure_eq_ok, mapM_eq_ok, canonicalString_eq_ok, effectiveCapability_eq_ok,
    tenantSessionVersion_eq_ok] at hparse
  obtain ⟨candidate, -, tenantValues, -, _, hcount, capabilityValues, -, _, hcapabilityCount, _, -,
    activeTenant, hactive, availableTenants, havailable, _, hdistinct, _, hallowlisted,
    capabilities, hcapabilities, _, hdistinctCapabilities, _, ⟨-, hprincipalId⟩, _,
    ⟨-, hcapabilityVersion⟩, _, ⟨-, hversion⟩, hok⟩ := hparse
  cases hok
  have hperm := sortOn.perm codeUnitLe EffectiveCapability.text capabilities
  refine ⟨hprincipalId, canonicalSummary_of_parse hactive, ?_, ?_, hdistinct, hallowlisted, ?_, ?_,
    hperm.nodup_iff.mpr hdistinctCapabilities, ?_, hcapabilityVersion, hversion⟩
  · intro tenant htenant
    obtain ⟨item, -, hparse⟩ := exists_of_forall₂_right havailable htenant
    exact canonicalSummary_of_parse hparse
  · rw [← havailable.length_eq, ne_eq, ← List.length_eq_zero_iff, ← havailable.length_eq,
      List.length_eq_zero_iff]
    exact hcount
  · intro capability hcapability
    obtain ⟨item, -, hitem⟩ := exists_of_forall₂_right hcapabilities (hperm.mem_iff.mp hcapability)
    exact hitem.2
  · rw [hperm.length_eq, ← hcapabilities.length_eq]
    exact hcapabilityCount
  · apply sortOn.idempotent
    · exact codeUnitLe_total
    · exact codeUnitLe_trans

theorem parseTenantSessionContext_toJs (hcanonical : Canonical isOther session) :
    parseTenantSessionContext isOther session.toJs = .ok session := by
  have htenants : (session.availableTenants.map TenantSessionSummaryV1.toJs).mapM
      (parseTenantSummary isOther) = .ok session.availableTenants := by
    rw [mapM_eq_ok, List.forall₂_map_left_iff, List.forall₂_same]
    exact fun tenant htenant => parseTenantSummary_toJs (hcanonical.availableTenants tenant htenant)
  have hcapabilities : (session.effectiveCapabilities.map fun capability =>
      JsValue.string capability.text).mapM (effectiveCapability isOther) =
        .ok session.effectiveCapabilities := by
    rw [mapM_eq_ok, List.forall₂_map_left_iff, List.forall₂_same]
    intro capability hcapability
    exact effectiveCapability_eq_ok.mpr ⟨rfl, hcanonical.capabilities capability hcapability⟩
  unfold parseTenantSessionContext
  simp only [bind_eq_ok, ensure_eq_ok, canonicalString_eq_ok, tenantSessionVersion_eq_ok]
  refine ⟨_, rfl, _, rfl, (), ?_, _, rfl, (), ?_, _, rfl, _,
    parseTenantSummary_toJs hcanonical.activeTenant, _, htenants, (), hcanonical.distinct, (),
    hcanonical.allowlisted, _, hcapabilities, (), hcanonical.distinctCapabilities, _,
    ⟨rfl, hcanonical.principalId⟩, _, ⟨rfl, hcanonical.capabilityVersion⟩, _,
    ⟨rfl, hcanonical.version⟩, ?_⟩
  · rw [ne_eq, List.map_eq_nil_iff, List.length_map]
    exact hcanonical.count
  · rw [List.length_map]
    exact hcanonical.capabilityCount
  · rw [hcanonical.sorted]
    rfl

/-- A context that is read is normalized: written and read again, it is what it was. -/
theorem session_context_is_normalized (isOther : Char → Bool) (value : JsValue) :
    (parseTenantSessionContext isOther value >>= fun session =>
      parseTenantSessionContext isOther session.toJs) = parseTenantSessionContext isOther value := by
  cases hparse : parseTenantSessionContext isOther value with
  | error thrown => rfl
  | ok session => exact parseTenantSessionContext_toJs (canonical_of_parse hparse)

theorem isCanonicalPart_of_isCanonicalText {name text : String} {maxLength : Nat}
    (hcanonical : isCanonicalText isOther text maxLength = true)
    (hlength : maxScopeLength name = maxLength) : isCanonicalPart isOther name text = true := by
  rw [isCanonicalPart, hlength]
  exact hcanonical

end Canonical

end KjAtlas.SessionContext
