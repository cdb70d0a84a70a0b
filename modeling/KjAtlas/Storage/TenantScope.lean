import KjAtlas.Foundation.Transactions
import KjAtlas.Foundation.Traverse
import KjAtlas.Js.Uri

/-! # Storage keys of a tenant scope

What a browser stores for a tenant lies under keys that begin with the deployment,
the tenant and the principal, each escaped. Clearing a scope removes the keys that
begin with its prefix. Which characters Unicode puts into its category C is a
parameter, `isOther`.
-/

/-! ## Browser storage

A storage area holds texts under distinct keys, which are enumerated by their
index.
-/

namespace KjAtlas.Js

/-- `localStorage`. -/
abbrev Storage : Type := InsertionMap Text Text

namespace Storage

def length (storage : Storage) : Nat := storage.keys.length

/-- `storage.key(index)`. -/
def key (storage : Storage) (index : Nat) : Option Text := storage.keys[index]?

def getItem (storage : Storage) (key : Text) : Option Text := storage.get? key

def removeItem (storage : Storage) (key : Text) : Storage := storage.delete key

theorem filterMap_key (storage : Storage) (test : Text → Bool) :
    (List.range storage.length).filterMap (fun index => (storage.key index).filter test) =
      storage.keys.filter test := by
  unfold length key
  -- The last index finds the last key, so the induction takes keys off the end.
  induction storage.keys using List.reverseRecOn with
  | nil => rfl
  | append_singleton keys last ih =>
      rw [List.length_append, List.length_singleton, List.range_succ, List.filterMap_append,
        List.filter_append, ← ih]
      congr 1
      · apply List.filterMap_congr
        intro index hindex
        rw [List.getElem?_append_left (List.mem_range.mp hindex)]
      · rw [List.filterMap_cons, List.getElem?_concat_length, Option.filter_some,
          List.filter_singleton]
        cases test last <;> rfl

end Storage

end KjAtlas.Js

namespace KjAtlas.Storage

open Js

@[ext] structure TenantBrowserStorageScope where
  deployment : String
  tenantId : String
  principalId : String
deriving DecidableEq

/-- `TENANT_SCOPE_PREFIX`. -/
def tenantScopePrefix : String := "sui-sensemaking/tenant-scope/v1"

/-- `MAX_SCOPE_LENGTH`, in characters. -/
def maxScopeLength (name : String) : Nat :=
  ([("deployment", 2048), ("tenantId", 256), ("principalId", 256), ("baseKey", 256)].lookup
    name).getD 256

section Keys

variable (isOther : Char → Bool)

/-- The value is not empty, not too long, trimmed, and has no character of the category C. -/
def isCanonicalPart (name value : String) : Bool :=
  decide (value ≠ "" ∧ value.length ≤ maxScopeLength name ∧ trim value = value) &&
    !value.toList.any isOther

def encodeRequiredPart (name value : String) : Except String Text :=
  if isCanonicalPart isOther name value then .ok (encodeURIComponent value)
  else .error s!"{name} must be a non-empty canonical storage scope value"

/-- `TENANT_SCOPE_PREFIX` and three parts, each followed by a slash. -/
def prefixText (deployment tenantId principalId : Text) : Text :=
  tenantScopePrefix.toList ++ '/' :: (deployment ++ '/' :: (tenantId ++ '/' ::
    (principalId ++ ['/'])))

def buildTenantStoragePrefix (scope : TenantBrowserStorageScope) : Except String Text := do
  let deployment ← encodeRequiredPart isOther "deployment" scope.deployment
  let tenantId ← encodeRequiredPart isOther "tenantId" scope.tenantId
  let principalId ← encodeRequiredPart isOther "principalId" scope.principalId
  return prefixText deployment tenantId principalId

def buildTenantStorageKey (baseKey : String) (scope : TenantBrowserStorageScope) :
    Except String Text := do
  let start ← buildTenantStoragePrefix isOther scope
  let part ← encodeRequiredPart isOther "baseKey" baseKey
  return start ++ part

/-- The keys that the loop over the storage finds under a prefix. -/
def keysToRemove (storage : Js.Storage) (start : Text) : List Text :=
  (List.range storage.length).filterMap fun index =>
    (storage.key index).filter start.isPrefixOf

/-- The number of keys that were removed, and the storage after that. -/
def clearTenantScopedStorage (storage : Js.Storage) (scope : TenantBrowserStorageScope) :
    Except String (Nat × Js.Storage) := do
  let start ← buildTenantStoragePrefix isOther scope
  let keys := keysToRemove storage start
  return (keys.length, keys.foldl Js.Storage.removeItem storage)

end Keys

/-- The keys in use without a scope: the base keys of the modules that store something. -/
def legacyKeys : List String :=
  ["sui-sensemaking/evicted-doc", "sui-sensemaking/recent-doc-ids",
    "sui-sensemaking/view-mode-by-doc", "sui-sensemaking/agent-task-ledger-v1",
    "sui-sensemaking/empty-canvas-hint-completed", "sui-sensemaking/minimap-collapsed",
    "sui-sensemaking/current-reviewer-ref", "sui-sensemaking:ce3:patch-workspace-presets:v1",
    "sui-sensemaking.advanced-ui-enabled", "sui-sensemaking/view-locale-by-doc-view",
    "sui-sensemaking/view-visibility-by-doc"]

def BuiltFor (isOther : Char → Bool) (scope : TenantBrowserStorageScope) (key : Text) : Prop :=
  ∃ baseKey, buildTenantStorageKey isOther baseKey scope = .ok key

/-! ## Prefixes -/

section Prefixes

variable {isOther : Char → Bool} {name value baseKey : String} {key start : Text}
  {scope other : TenantBrowserStorageScope}

theorem encodeRequiredPart_eq_ok {part : Text} :
    encodeRequiredPart isOther name value = .ok part ↔
      isCanonicalPart isOther name value = true ∧ part = encodeURIComponent value := by
  unfold encodeRequiredPart
  split
  next hcanonical => simp [hcanonical, eq_comm]
  next hcanonical => simp [hcanonical]

/-- The prefix of a scope, as it is written when its parts are accepted. -/
def scopePrefix (scope : TenantBrowserStorageScope) : Text :=
  prefixText (encodeURIComponent scope.deployment) (encodeURIComponent scope.tenantId)
    (encodeURIComponent scope.principalId)

theorem buildTenantStoragePrefix_eq_ok :
    buildTenantStoragePrefix isOther scope = .ok start ↔
      isCanonicalPart isOther "deployment" scope.deployment = true ∧
        isCanonicalPart isOther "tenantId" scope.tenantId = true ∧
          isCanonicalPart isOther "principalId" scope.principalId = true ∧
            start = scopePrefix scope := by
  unfold buildTenantStoragePrefix
  simp only [bind_eq_ok, encodeRequiredPart_eq_ok]
  constructor
  · rintro ⟨_, ⟨hdeployment, rfl⟩, _, ⟨htenantId, rfl⟩, _, ⟨hprincipalId, rfl⟩, hok⟩
    exact ⟨hdeployment, htenantId, hprincipalId, (Except.ok.inj hok).symm⟩
  · rintro ⟨hdeployment, htenantId, hprincipalId, rfl⟩
    exact ⟨_, ⟨hdeployment, rfl⟩, _, ⟨htenantId, rfl⟩, _, ⟨hprincipalId, rfl⟩, rfl⟩

theorem eq_of_buildTenantStoragePrefix (hstart : buildTenantStoragePrefix isOther scope = .ok start) :
    start = scopePrefix scope :=
  (buildTenantStoragePrefix_eq_ok.mp hstart).2.2.2

theorem buildTenantStorageKey_eq_ok :
    buildTenantStorageKey isOther baseKey scope = .ok key ↔
      buildTenantStoragePrefix isOther scope = .ok (scopePrefix scope) ∧
        isCanonicalPart isOther "baseKey" baseKey = true ∧
          key = scopePrefix scope ++ encodeURIComponent baseKey := by
  unfold buildTenantStorageKey
  simp only [bind_eq_ok, encodeRequiredPart_eq_ok]
  constructor
  · rintro ⟨start, hstart, _, ⟨hcanonical, rfl⟩, hok⟩
    obtain rfl := eq_of_buildTenantStoragePrefix hstart
    exact ⟨hstart, hcanonical, (Except.ok.inj hok).symm⟩
  · rintro ⟨hstart, hcanonical, rfl⟩
    exact ⟨_, hstart, _, ⟨hcanonical, rfl⟩, rfl⟩

/-- Parts without a slash are told apart by the slashes behind them. -/
theorem prefixText_append_inj {a b c a' b' c' left right : Text} (ha : '/' ∉ a) (hb : '/' ∉ b)
    (hc : '/' ∉ c) (ha' : '/' ∉ a') (hb' : '/' ∉ b') (hc' : '/' ∉ c')
    (heq : prefixText a b c ++ left = prefixText a' b' c' ++ right) :
    a = a' ∧ b = b' ∧ c = c' ∧ left = right := by
  unfold prefixText at heq
  rw [List.append_assoc, List.append_assoc] at heq
  obtain ⟨-, hrest⟩ := List.cons.inj (List.append_cancel_left heq)
  rw [List.append_eq, List.append_eq] at hrest
  simp only [List.append_assoc, List.cons_append, List.nil_append] at hrest
  obtain ⟨hfirst, hafter⟩ := append_cons_inj ha ha' hrest
  obtain ⟨hsecond, hafter⟩ := append_cons_inj hb hb' hafter
  obtain ⟨hthird, hafter⟩ := append_cons_inj hc hc' hafter
  exact ⟨hfirst, hsecond, hthird, hafter⟩

/-- Escaped parts hold no slash, so a prefix tells its scope. -/
theorem scopePrefix_append_inj {left right : Text}
    (heq : scopePrefix scope ++ left = scopePrefix other ++ right) : scope = other ∧ left = right := by
  obtain ⟨hdeployment, htenantId, hprincipalId, hrest⟩ := prefixText_append_inj
    (slash_notMem_encodeURIComponent _) (slash_notMem_encodeURIComponent _)
    (slash_notMem_encodeURIComponent _) (slash_notMem_encodeURIComponent _)
    (slash_notMem_encodeURIComponent _) (slash_notMem_encodeURIComponent _) heq
  exact ⟨TenantBrowserStorageScope.ext (encodeURIComponent_injective hdeployment)
    (encodeURIComponent_injective htenantId) (encodeURIComponent_injective hprincipalId), hrest⟩

theorem buildTenantStorageKey_inj {otherKey : String}
    (hleft : buildTenantStorageKey isOther baseKey scope = .ok key)
    (hright : buildTenantStorageKey isOther otherKey other = .ok key) :
    scope = other ∧ baseKey = otherKey := by
  obtain ⟨-, -, rfl⟩ := buildTenantStorageKey_eq_ok.mp hleft
  obtain ⟨-, -, heq⟩ := buildTenantStorageKey_eq_ok.mp hright
  obtain ⟨hscope, hkey⟩ := scopePrefix_append_inj heq
  exact ⟨hscope, encodeURIComponent_injective hkey⟩

theorem BuiltFor.isPrefixOf (hbuilt : BuiltFor isOther scope key) :
    (scopePrefix scope).isPrefixOf key = true := by
  obtain ⟨baseKey, hkey⟩ := hbuilt
  obtain ⟨-, -, rfl⟩ := buildTenantStorageKey_eq_ok.mp hkey
  exact List.isPrefixOf_iff_prefix.mpr (List.prefix_append _ _)

theorem BuiltFor.not_isPrefixOf (hbuilt : BuiltFor isOther other key) (hne : other ≠ scope) :
    (scopePrefix scope).isPrefixOf key = false := by
  obtain ⟨baseKey, hkey⟩ := hbuilt
  obtain ⟨-, -, rfl⟩ := buildTenantStorageKey_eq_ok.mp hkey
  rw [Bool.eq_false_iff, ne_eq, List.isPrefixOf_iff_prefix]
  rintro ⟨rest, hrest⟩
  exact hne (scopePrefix_append_inj hrest).1.symm

theorem not_isPrefixOf_legacyKeys (hkey : key ∈ legacyKeys.map String.toList) :
    (scopePrefix scope).isPrefixOf key = false := by
  have hstart : ∀ key ∈ legacyKeys.map String.toList,
      ¬tenantScopePrefix.toList <+: key := by decide +kernel
  rw [Bool.eq_false_iff, ne_eq, List.isPrefixOf_iff_prefix]
  intro hprefix
  apply hstart key hkey
  exact (List.prefix_append _ _).trans hprefix

end Prefixes

/-! ## Clearing a scope -/

section Clearing

variable {isOther : Char → Bool} {scope : TenantBrowserStorageScope} {start : Text}

theorem mem_keysToRemove {storage : Js.Storage} {key : Text} :
    key ∈ keysToRemove storage start ↔ key ∈ storage.keys ∧ start.isPrefixOf key = true := by
  rw [keysToRemove, Js.Storage.filterMap_key, List.mem_filter]

theorem getItem_removeKeys (storage : Js.Storage) (key : Text) :
    ((keysToRemove storage start).foldl Js.Storage.removeItem storage).getItem key =
      if start.isPrefixOf key then none else storage.getItem key := by
  have hremove := InsertionMap.get?_foldl_delete (keysToRemove storage start) storage key
  simp only [mem_keysToRemove, InsertionMap.mem_keys] at hremove
  refine hremove.trans ?_
  by_cases hstart : start.isPrefixOf key
  · cases hitem : storage.get? key with
    | none => simp [hstart]
    | some value => simp [hstart]
  · simp [hstart, Js.Storage.getItem]

structure ClearsScope (isOther : Char → Bool) (scope : TenantBrowserStorageScope) (start : Text)
    (storage cleared : Js.Storage) (count : Nat) : Prop where
  count_eq : count = (storage.keys.filter start.isPrefixOf).length
  getItem_eq : ∀ key,
    cleared.getItem key = if start.isPrefixOf key then none else storage.getItem key
  removes : ∀ key, BuiltFor isOther scope key → cleared.getItem key = none
  keeps_others : ∀ other ≠ scope, ∀ key, BuiltFor isOther other key →
    cleared.getItem key = storage.getItem key
  keeps_legacy : ∀ key ∈ legacyKeys.map String.toList, cleared.getItem key = storage.getItem key

theorem clearsScope (hstart : buildTenantStoragePrefix isOther scope = .ok start)
    (storage : Js.Storage) : ∃ count cleared,
      clearTenantScopedStorage isOther storage scope = .ok (count, cleared) ∧
        ClearsScope isOther scope start storage cleared count := by
  refine ⟨(keysToRemove storage start).length,
    (keysToRemove storage start).foldl Js.Storage.removeItem storage, ?_, ?_⟩
  · rw [clearTenantScopedStorage, hstart]
    rfl
  obtain rfl := eq_of_buildTenantStoragePrefix hstart
  refine ⟨?_, getItem_removeKeys storage, fun key hbuilt => ?_, fun other hne key hbuilt => ?_,
    fun key hkey => ?_⟩
  · rw [keysToRemove, Js.Storage.filterMap_key]
  · rw [getItem_removeKeys, if_pos hbuilt.isPrefixOf]
  · rw [getItem_removeKeys, hbuilt.not_isPrefixOf hne, if_neg Bool.false_ne_true]
  · rw [getItem_removeKeys, not_isPrefixOf_legacyKeys hkey, if_neg Bool.false_ne_true]

end Clearing

/-- Keys tell scopes and base keys apart, and clearing a scope removes what lies under its prefix:
all of its own keys, none of another scope and none in use without a scope. -/
theorem tenant_storage_isolated (isOther : Char → Bool) :
    (∀ scope other baseKey otherKey key,
      buildTenantStorageKey isOther baseKey scope = .ok key →
        buildTenantStorageKey isOther otherKey other = .ok key →
          scope = other ∧ baseKey = otherKey) ∧
      ∀ scope start, buildTenantStoragePrefix isOther scope = .ok start → ∀ storage,
        ∃ count cleared, clearTenantScopedStorage isOther storage scope = .ok (count, cleared) ∧
          ClearsScope isOther scope start storage cleared count :=
  ⟨fun _ _ _ _ _ hleft hright => buildTenantStorageKey_inj hleft hright,
    fun _ _ hstart storage => clearsScope hstart storage⟩

namespace Stray

def isControl (c : Char) : Bool := decide (c.toNat < 0x20 ∨ 0x7F ≤ c.toNat ∧ c.toNat < 0xA0)

def scope : TenantBrowserStorageScope := ⟨"d", "t", "p"⟩

/-- A storage with one key, which is the prefix of the scope alone. -/
def storage : Js.Storage :=
  InsertionMap.empty.set "sui-sensemaking/tenant-scope/v1/d/t/p/".toList ['x']

/-- A key that is built for no scope is removed with the keys of the scope. -/
theorem stray_removed : ∃ key ∈ storage.keys, ¬BuiltFor isControl scope key ∧
    ∃ cleared, clearTenantScopedStorage isControl storage scope = .ok (1, cleared) ∧
      cleared.getItem key = none := by
  refine ⟨"sui-sensemaking/tenant-scope/v1/d/t/p/".toList, by decide, ?_, InsertionMap.empty, rfl,
    rfl⟩
  rintro ⟨baseKey, hkey⟩
  obtain ⟨-, hcanonical, heq⟩ := buildTenantStorageKey_eq_ok.mp hkey
  -- Nothing follows the prefix, so the base key would be empty.
  have hempty : encodeURIComponent baseKey = encodeURIComponent "" :=
    (List.append_cancel_left (heq.symm.trans (by decide :
      _ = scopePrefix scope ++ encodeURIComponent "")))
  rw [encodeURIComponent_injective hempty] at hcanonical
  exact absurd hcanonical (by decide)

end Stray

end KjAtlas.Storage
