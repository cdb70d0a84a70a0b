import KjAtlas.Foundation.Traced
import KjAtlas.Sessions.SessionContext

/-! # Switching the tenant

A switch asks about unsaved changes, has the server change the tenant, and then
replaces the page. Every callback may throw and the signal may be aborted at any
time. Once the server has confirmed the new session, the old page is cleaned up
and replaced, whatever else happens; before that nothing is touched.
-/

namespace KjAtlas.SessionContext

open Js Storage

/-- The callbacks that a switch calls, and the storage that it clears. -/
inductive Event where
  | requestUnsavedDecision
  | saveUnsavedChanges
  | changeTenant
  | notifySessionChanged
  | cleanup (index : Nat)
  | clearPreviousScope
  | clearStorage (cleared : Option Js.Storage)
  | replaceDocument

/-- The places where the abort signal is looked at. -/
inductive Checkpoint where
  | started
  | decided
  | saved

/-- What a switch is given, with the outcome of each callback; `none` stands for a callback that is
not given. Storage that cannot be used throws what it is given with. -/
structure SwitchInput where
  currentSessionContext : JsValue
  requestedTenantId : String
  deployment : String
  previousScope : TenantBrowserStorageScope
  storage : Option (Except JsValue Js.Storage)
  clearPreviousScope : Option (Except JsValue Nat)
  cleanupSteps : List (Except JsValue Unit)
  hasUnsavedChanges : Bool
  requestUnsavedDecision : Option (Except JsValue JsValue)
  saveUnsavedChanges : Option (Except JsValue Bool)
  changeTenant : Except JsValue JsValue
  notifySessionChanged : Option (Except JsValue Unit)
  isAborted : Checkpoint → Bool
  replaceDocument : Except JsValue Unit

structure TenantSessionTransitionResult where
  nextScope : TenantBrowserStorageScope
  clearedStorageEntries : Nat
  cleanupFailureCount : Nat
  storageClearFailed : Bool

inductive TenantSwitchRequestResult where
  | unchanged
  | cancelled
  | saveFailed
  | transitioned (transition : TenantSessionTransitionResult)

abbrev Switching (α : Type) : Type := Traced Event Thrown α

def callback {α : Type} (event : Event) (outcome : Except JsValue α) : Switching α :=
  .call event (outcome.mapError .other)

def invalidContext {α : Type} : Switching α := .silent (.error .invalidTenantSessionContext)

section Transition

variable (isOther : Char → Bool) (input : SwitchInput)

def runCleanups (index failures : Nat) : List (Except JsValue Unit) → Switching Nat
  | [] => pure failures
  | outcome :: steps => do
      let result ← (callback (.cleanup index) outcome).attempt
      match result with
      | .ok () => runCleanups (index + 1) failures steps
      | .error _ => runCleanups (index + 1) (failures + 1) steps

def clearTenantStorage (storage : Except JsValue Js.Storage) : Switching Nat :=
  let outcome : Except Thrown (Nat × Js.Storage) := do
    let content ← storage.mapError .other
    (clearTenantScopedStorage isOther content input.previousScope).mapError .error
  .call (.clearStorage (outcome.toOption.map Prod.snd)) (outcome.map Prod.fst)

/-- Clear the previous scope, by the callback or else in the storage. -/
def clearScope : Switching Nat :=
  match input.clearPreviousScope, input.storage with
  | some outcome, _ => callback .clearPreviousScope outcome
  | none, some storage => clearTenantStorage isOther input storage
  | none, none => .silent (.error (.error "tenant storage cleanup unavailable"))

def executeTenantSessionTransition (nextSessionContext : JsValue) :
    Switching TenantSessionTransitionResult := do
  let next ← .silent (parseTenantSessionContext isOther nextSessionContext)
  let nextScope ← .silent (buildBrowserStorageScopeFromSession isOther next input.deployment)
  let cleanupFailureCount ← runCleanups 0 0 input.cleanupSteps
  let cleared ← (clearScope isOther input).attempt
  callback .replaceDocument input.replaceDocument
  return {
    nextScope
    clearedStorageEntries := (cleared.toOption).getD 0
    cleanupFailureCount
    storageClearFailed := !cleared.isOk }

end Transition

/-! ## The request -/

def scopesMatch (actual expected : TenantBrowserStorageScope) : Prop :=
  actual.deployment = expected.deployment ∧ actual.principalId = expected.principalId ∧
    actual.tenantId = expected.tenantId

instance (actual expected : TenantBrowserStorageScope) : Decidable (scopesMatch actual expected) :=
  inferInstanceAs (Decidable (_ ∧ _ ∧ _))

section Request

variable (isOther : Char → Bool) (input : SwitchInput)

/-- The tenant to switch to, or nothing when it is active already. -/
def selectedTenantId (current : TenantSessionContextV1) (requestedTenantId : String) :
    Except Thrown (Option String) :=
  if requestedTenantId = current.activeTenant.id then .ok none
  else do
    let tenant ← found .invalidTenantSessionContext
      (findBy TenantSessionSummaryV1.id requestedTenantId current.availableTenants)
    return some tenant.id

def throwIfAborted (checkpoint : Checkpoint) : Switching Unit :=
  .silent (if input.isAborted checkpoint then .error .aborted else .ok ())

def settleUnsavedChanges : Switching (Option TenantSwitchRequestResult) :=
  if input.hasUnsavedChanges then
    match input.requestUnsavedDecision with
    | none => invalidContext
    | some outcome => do
        let decision ← callback .requestUnsavedDecision outcome
        throwIfAborted input .decided
        match decision.string? with
        | some "cancel" => return some .cancelled
        | some "save" =>
            match input.saveUnsavedChanges with
            | none => invalidContext
            | some outcome => do
                let saved ← callback .saveUnsavedChanges outcome
                if saved then
                  throwIfAborted input .saved
                  return none
                else return some .saveFailed
        | some "discard" => return none
        | _ => invalidContext
  else return none

/-- The server has confirmed a new session of the principal, in the requested tenant. -/
def Confirms (current next : TenantSessionContextV1) (requestedTenantId : String) : Prop :=
  next.principalId = current.principalId ∧ next.activeTenant.id = requestedTenantId ∧
    next.tenantSessionVersion ≠ current.tenantSessionVersion

instance (current next : TenantSessionContextV1) (requestedTenantId : String) :
    Decidable (Confirms current next requestedTenantId) :=
  inferInstanceAs (Decidable (_ ∧ _ ∧ _))

/-- Tell other pages; that this fails changes nothing. -/
def notify : Switching Unit :=
  match input.notifySessionChanged with
  | some outcome => do
      let _ ← (callback .notifySessionChanged outcome).attempt
      return ()
  | none => return ()

/-- The checks before anything is asked: the current session and the tenant to switch to. -/
def prepareSwitch : Except Thrown (TenantSessionContextV1 × Option String) := do
  let current ← parseTenantSessionContext isOther input.currentSessionContext
  let selected ← selectedTenantId current input.requestedTenantId
  match selected with
  | none => return (current, none)
  | some tenantId => do
      let expected ← buildBrowserStorageScopeFromSession isOther current input.deployment
      ensure (scopesMatch input.previousScope expected) .invalidTenantSessionContext
      ensure (input.storage.isSome ∨ input.clearPreviousScope.isSome) .invalidTenantSessionContext
      return (current, some tenantId)

/-- Change the tenant, and replace the page when the new session is confirmed. -/
def changeAndReplace (current : TenantSessionContextV1) (requestedTenantId : String) :
    Switching TenantSwitchRequestResult := do
  let response ← callback .changeTenant input.changeTenant
  let next ← .silent (parseTenantSessionContext isOther response)
  .silent (ensure (Confirms current next requestedTenantId) .invalidTenantSessionContext)
  -- From here on neither the signal nor a callback that throws keeps the old page.
  notify input
  let transition ← executeTenantSessionTransition isOther input next.toJs
  return .transitioned transition

def requestTenantSessionTransition : Switching TenantSwitchRequestResult := do
  throwIfAborted input .started
  let (current, selected) ← .silent (prepareSwitch isOther input)
  match selected with
  | none => return .unchanged
  | some requestedTenantId =>
      match ← settleUnsavedChanges input with
      | some result => return result
      | none => changeAndReplace isOther input current requestedTenantId

end Request

end KjAtlas.SessionContext

/-! ## A confirmed switch replaces the page

A run of a switch has three parts: what happens to unsaved changes, the change of
the tenant, and the replacement of the page. The second is reached only with
consent, and the third exactly when the new session is confirmed; then it is run
to its end.
-/

namespace KjAtlas.SessionContext

open Js Storage

/-! ## Properties -/

namespace Event

def settles : Event → Bool
  | requestUnsavedDecision | saveUnsavedChanges => true
  | _ => false

def replaces : Event → Bool
  | notifySessionChanged | cleanup _ | clearPreviousScope | clearStorage _ | replaceDocument => true
  | _ => false

def isChangeTenant : Event → Bool
  | changeTenant => true
  | _ => false

def isClear : Event → Bool
  | clearPreviousScope | clearStorage _ => true
  | _ => false

def isReplaceDocument : Event → Bool
  | replaceDocument => true
  | _ => false

def cleanup? : Event → Option Nat
  | cleanup index => some index
  | _ => none

end Event

section Properties

variable (isOther : Char → Bool) (input : SwitchInput)

/-- Unsaved changes were saved, or it was said that they are discarded. -/
def Consented (events : List Event) : Prop :=
  (Event.saveUnsavedChanges ∈ events ∧ input.saveUnsavedChanges = some (.ok true)) ∨
    (Event.requestUnsavedDecision ∈ events ∧
      input.requestUnsavedDecision = some (.ok (.string "discard")))

/-- The change of the tenant resolves with a valid context of the same principal, the requested
tenant and a new version. -/
def Confirmed : Prop :=
  ∃ current response next,
    parseTenantSessionContext isOther input.currentSessionContext = .ok current ∧
      input.changeTenant = .ok response ∧ parseTenantSessionContext isOther response = .ok next ∧
        Confirms current next input.requestedTenantId

/-- The previous scope is cleared: by the callback, or in the storage. -/
def Cleared (events : List Event) : Prop :=
  match input.clearPreviousScope with
  | some outcome => Event.clearPreviousScope ∈ events ∧ ∃ count, outcome = .ok count
  | none => ∃ content start cleared count, input.storage = some (.ok content) ∧
      buildTenantStoragePrefix isOther input.previousScope = .ok start ∧
        Event.clearStorage (some cleared) ∈ events ∧
          ClearsScope isOther input.previousScope start content cleared count

variable {isOther input} in
theorem Cleared.mono {events more : List Event} (hcleared : Cleared isOther input events)
    (hsubset : events ⊆ more) : Cleared isOther input more := by
  unfold Cleared at hcleared ⊢
  split at hcleared
  · exact hcleared.imp_left fun hmem => hsubset hmem
  · obtain ⟨content, start, cleared, count, hstorage, hstart, hmem, hscope⟩ := hcleared
    exact ⟨content, start, cleared, count, hstorage, hstart, hsubset hmem, hscope⟩

/-- Every cleanup step is run once, the previous scope is cleared, and the page is replaced. -/
structure Replaces (run : Switching TenantSwitchRequestResult) : Prop where
  cleanups : run.events.filterMap Event.cleanup? = List.range input.cleanupSteps.length
  clears : (run.events.filter Event.isClear).length = 1
  replaces : (run.events.filter Event.isReplaceDocument).length = 1
  result : ∃ transition,
    run.result = (input.replaceDocument.mapError .other).map (fun _ => .transitioned transition) ∧
      (transition.storageClearFailed = true ∨ Cleared isOther input run.events)

end Properties

variable {before : List Event} {test : Event → Bool}

namespace Event

variable {event : Event}

theorem settles_apart (hsettles : event.settles = true) :
    event.replaces = false ∧ event.isChangeTenant = false ∧ event.isClear = false ∧
      event.isReplaceDocument = false ∧ event.cleanup? = none := by
  cases event <;> first | exact ⟨rfl, rfl, rfl, rfl, rfl⟩ | cases hsettles

theorem isClear_apart (hclear : event.isClear = true) :
    event.isChangeTenant = false ∧ event.isReplaceDocument = false ∧ event.cleanup? = none := by
  cases event <;> first | exact ⟨rfl, rfl, rfl⟩ | cases hclear

theorem filter_settles (hsettles : ∀ event ∈ before, event.settles = true)
    (htest : ∀ event : Event, event.settles = true → test event = false) :
    before.filter test = [] := by
  rw [List.filter_eq_nil_iff]
  intro event hevent
  rw [htest event (hsettles event hevent)]
  exact Bool.false_ne_true

theorem filter_cleanups (htest : ∀ index, test (cleanup index) = false) (indices : List Nat) :
    (indices.map cleanup).filter test = [] := by
  rw [List.filter_eq_nil_iff]
  intro event hevent
  obtain ⟨index, -, rfl⟩ := List.mem_map.mp hevent
  rw [htest index]
  exact Bool.false_ne_true

theorem changeTenant_notMem (hsettles : ∀ event ∈ before, event.settles = true) :
    changeTenant ∉ before := by
  intro hmem
  have hsettles := hsettles _ hmem
  cases hsettles

end Event

/-! ## The parts of a run -/

variable {start : Text}

section Parts

variable {isOther : Char → Bool} {input : SwitchInput}

theorem runCleanups_spec (steps : List (Except JsValue Unit)) (index failures : Nat) :
    (runCleanups index failures steps).events = (List.range' index steps.length).map .cleanup ∧
      ∃ count, (runCleanups index failures steps).result = .ok count := by
  induction steps generalizing index failures with
  | nil => exact ⟨rfl, failures, rfl⟩
  | cons outcome steps ih =>
      rw [runCleanups, Traced.bind_of_ok (Traced.result_attempt _)]
      cases outcome with
      | ok _ =>
          obtain ⟨hevents, hresult⟩ := ih (index + 1) failures
          exact ⟨congrArg (Event.cleanup index :: ·) hevents, hresult⟩
      | error _ =>
          obtain ⟨hevents, hresult⟩ := ih (index + 1) (failures + 1)
          exact ⟨congrArg (Event.cleanup index :: ·) hevents, hresult⟩

theorem result_callback {α : Type} {event : Event} {outcome : Except JsValue α} {value : α} :
    (callback event outcome).result = .ok value ↔ outcome = .ok value := by
  rw [callback, Traced.result_call, mapError_eq_ok]

theorem settles_callback {α : Type} {event : Event} (hevent : event.settles = true)
    (outcome : Except JsValue α) :
    (callback event outcome).Only fun event => event.settles = true :=
  Traced.only_call (P := fun event : Event => event.settles = true) hevent _

theorem only_settles : (settleUnsavedChanges input).Only fun event => event.settles = true := by
  unfold settleUnsavedChanges
  split
  · split
    · exact Traced.only_silent _
    · refine (settles_callback rfl _).bind fun decision => ?_
      refine Traced.Only.bind (Traced.only_silent _) fun _ => ?_
      split
      · exact Traced.only_pure _
      · split
        · exact Traced.only_silent _
        · refine (settles_callback rfl _).bind fun saved => ?_
          split
          · exact Traced.Only.bind (Traced.only_silent _) fun _ => Traced.only_pure _
          · exact Traced.only_pure _
      · exact Traced.only_pure _
      · exact Traced.only_silent _
  · exact Traced.only_pure _

theorem string_of_string? {value : JsValue} {text : String} (hvalue : value.string? = some text) :
    value = .string text := by
  cases value with
  | string other => exact congrArg JsValue.string (Option.some.inj hvalue)
  | _ => cases hvalue

/-- The request goes on only with consent. -/
theorem consented_of_settled (hsettled : (settleUnsavedChanges input).result = .ok none)
    (hunsaved : input.hasUnsavedChanges = true) :
    Consented input (settleUnsavedChanges input).events := by
  unfold settleUnsavedChanges at hsettled ⊢
  rw [if_pos hunsaved] at hsettled ⊢
  split at hsettled
  next hask => cases hsettled
  next outcome hask =>
    simp only [Traced.result_bind_eq_ok, result_callback] at hsettled
    obtain ⟨decision, rfl, _, habort, hdecision⟩ := hsettled
    simp only [Consented, hask, Traced.mem_events_bind]
    split at hdecision
    next hcancel => cases hdecision
    next hsave =>
      -- The changes were saved: this is the only way on from there.
      split at hdecision
      next hmissing => cases hdecision
      next outcome hgiven =>
        rw [Traced.result_bind_eq_ok] at hdecision
        obtain ⟨saved, hsaved, hdecision⟩ := hdecision
        obtain rfl := result_callback.mp hsaved
        split at hdecision
        next htrue =>
          subst htrue
          refine Or.inl ⟨Or.inr ⟨decision, result_callback.mpr rfl, Or.inr ⟨_, habort, ?_⟩⟩, hgiven⟩
          rw [hsave]
          exact Traced.mem_events_bind.mpr (Or.inl (List.mem_singleton.mpr rfl))
        next => cases hdecision
    next hdiscard =>
      rw [string_of_string? hdiscard]
      exact Or.inr ⟨Or.inl (List.mem_singleton.mpr rfl), rfl⟩
    next => cases hdecision

/-- The scope is cleared in one call, unless the call fails. -/
theorem clearScope_spec (hstart : buildTenantStoragePrefix isOther input.previousScope = .ok start)
    (hgiven : input.storage.isSome ∨ input.clearPreviousScope.isSome) :
    ∃ event, (clearScope isOther input).events = [event] ∧ event.isClear = true ∧
      ∀ count, (clearScope isOther input).result = .ok count → Cleared isOther input [event] := by
  unfold clearScope Cleared
  cases hcallback : input.clearPreviousScope with
  | some outcome =>
      refine ⟨.clearPreviousScope, rfl, rfl, fun count hok => ?_⟩
      exact ⟨List.mem_singleton.mpr rfl, count, result_callback.mp hok⟩
  | none =>
      cases hstorage : input.storage with
      | none => simp [hcallback, hstorage] at hgiven
      | some storage =>
          refine ⟨_, rfl, rfl, fun count hok => ?_⟩
          cases storage with
          | error thrown => cases hok
          | ok content =>
              obtain ⟨number, cleared, hcleared, hscope⟩ := clearsScope hstart content
              refine ⟨content, start, cleared, number, rfl, hstart, ?_, hscope⟩
              simp [hcleared, Except.mapError, bind, Except.bind, Except.toOption]

theorem callback_bind_pure {α β : Type} (event : Event) (outcome : Except JsValue α) (value : β) :
    (callback event outcome >>= fun _ => pure value) =
      ⟨[event], (outcome.mapError .other).map fun _ => value⟩ := by
  cases outcome <;> rfl

theorem transition_spec {next : TenantSessionContextV1} (hnext : Canonical isOther next)
    (hdeployment : isCanonicalPart isOther "deployment" input.deployment = true)
    (hstart : buildTenantStoragePrefix isOther input.previousScope = .ok start)
    (hgiven : input.storage.isSome ∨ input.clearPreviousScope.isSome) :
    ∃ clear transition, clear.isClear = true ∧
      executeTenantSessionTransition isOther input next.toJs =
        ⟨(List.range input.cleanupSteps.length).map .cleanup ++ [clear, .replaceDocument],
          (input.replaceDocument.mapError .other).map fun _ => transition⟩ ∧
      (transition.storageClearFailed = true ∨ Cleared isOther input [clear]) := by
  have hscope : buildBrowserStorageScopeFromSession isOther next input.deployment =
      .ok ⟨input.deployment, next.activeTenant.id, next.principalId⟩ := by
    unfold buildBrowserStorageScopeFromSession
    simp only [bind_eq_ok, mapError_eq_ok, buildTenantStoragePrefix_eq_ok]
    exact ⟨_, ⟨hdeployment, isCanonicalPart_of_isCanonicalText hnext.activeTenant.id (by decide),
      isCanonicalPart_of_isCanonicalText hnext.principalId (by decide), rfl⟩, rfl⟩
  obtain ⟨hcleanups, failures, hfailures⟩ := runCleanups_spec input.cleanupSteps 0 0
  obtain ⟨clear, hclear, hisClear, hcleared⟩ := clearScope_spec hstart hgiven
  unfold executeTenantSessionTransition
  rw [parseTenantSessionContext_toJs hnext, Traced.silent_ok_bind, hscope, Traced.silent_ok_bind,
    Traced.bind_of_ok hfailures, Traced.bind_of_ok (Traced.result_attempt _), callback_bind_pure,
    hcleanups, Traced.events_attempt, hclear, ← List.range_eq_range']
  refine ⟨clear, _, hisClear, rfl, ?_⟩
  cases hresult : (clearScope isOther input).result with
  | ok count => exact Or.inr (hcleared count hresult)
  | error error => exact Or.inl rfl

end Parts

/-! ## Whole runs -/

section Runs

variable (isOther : Char → Bool) (input : SwitchInput) {current : TenantSessionContextV1}

theorem prepareSwitch_eq_ok {tenantId : String}
    (hprepare : prepareSwitch isOther input = .ok (current, some tenantId)) :
    parseTenantSessionContext isOther input.currentSessionContext = .ok current ∧
      tenantId = input.requestedTenantId ∧
        isCanonicalPart isOther "deployment" input.deployment = true ∧
          (∃ start, buildTenantStoragePrefix isOther input.previousScope = .ok start) ∧
            (input.storage.isSome ∨ input.clearPreviousScope.isSome) := by
  unfold prepareSwitch at hprepare
  simp only [bind_eq_ok] at hprepare
  obtain ⟨parsed, hparsed, selected, hselected, hprepare⟩ := hprepare
  cases selected with
  | none => cases hprepare
  | some selected =>
      unfold buildBrowserStorageScopeFromSession at hprepare
      simp only [bind_eq_ok, mapError_eq_ok, ensure_eq_ok] at hprepare
      obtain ⟨expected, ⟨start, hstart, hexpected⟩, _, hscopes, _, hgiven, hok⟩ := hprepare
      cases hok
      cases hexpected
      have hprevious : input.previousScope =
          ⟨input.deployment, current.activeTenant.id, current.principalId⟩ :=
        TenantBrowserStorageScope.ext hscopes.1 hscopes.2.2 hscopes.2.1
      refine ⟨hparsed, ?_, (buildTenantStoragePrefix_eq_ok.mp hstart).1,
        ⟨start, hprevious ▸ hstart⟩, hgiven⟩
      unfold selectedTenantId at hselected
      split at hselected
      · cases hselected
      · simp only [bind_eq_ok, found_eq_ok] at hselected
        obtain ⟨tenant, htenant, hok⟩ := hselected
        cases hok
        exact (findBy_eq_some _ htenant).2

/-- How a run goes: it ends before the tenant is changed, or with a change that is not confirmed,
or with the replacement of the page. -/
inductive Course : Switching TenantSwitchRequestResult → Prop where
  | settled {run} (hsettles : ∀ event ∈ run.events, event.settles = true) : Course run
  | refused {before result} (hsettles : ∀ event ∈ before, event.settles = true)
      (hconsent : input.hasUnsavedChanges = true → Consented input before)
      (hnot : ¬Confirmed isOther input) : Course ⟨before ++ [.changeTenant], result⟩
  | replaced {before clear transition} (hsettles : ∀ event ∈ before, event.settles = true)
      (hconsent : input.hasUnsavedChanges = true → Consented input before)
      (hconfirmed : Confirmed isOther input) (hclear : clear.isClear = true)
      (hcleared : transition.storageClearFailed = true ∨ Cleared isOther input [clear]) :
      Course ⟨before ++ .changeTenant :: ((notify input).events ++
        ((List.range input.cleanupSteps.length).map .cleanup ++ [clear, .replaceDocument])),
        (input.replaceDocument.mapError .other).map fun _ => .transitioned transition⟩

theorem result_notify : (notify input).result = .ok () := by
  unfold notify
  split
  · rw [Traced.bind_of_ok (Traced.result_attempt _)]
    rfl
  · rfl

variable {isOther input} in
theorem course_changeTenant (hsettles : ∀ event ∈ before, event.settles = true)
    (hconsent : input.hasUnsavedChanges = true → Consented input before)
    (hcurrent : parseTenantSessionContext isOther input.currentSessionContext = .ok current)
    (hdeployment : isCanonicalPart isOther "deployment" input.deployment = true)
    (hstart : buildTenantStoragePrefix isOther input.previousScope = .ok start)
    (hgiven : input.storage.isSome ∨ input.clearPreviousScope.isSome) :
    Course isOther input
      ⟨before ++ (changeAndReplace isOther input current input.requestedTenantId).events,
        (changeAndReplace isOther input current input.requestedTenantId).result⟩ := by
  unfold changeAndReplace
  cases hchange : input.changeTenant with
  | error thrown =>
      rw [@Traced.bind_of_error _ _ _ _ _ (.other thrown) rfl]
      refine .refused hsettles hconsent ?_
      rintro ⟨_, response, _, -, hresponse, -⟩
      rw [hchange] at hresponse
      cases hresponse
  | ok response =>
      rw [@Traced.bind_of_ok _ _ _ _ _ response rfl]
      cases hparse : parseTenantSessionContext isOther response with
      | error error =>
          refine .refused hsettles hconsent ?_
          rintro ⟨_, response', next, -, hresponse, hnext, -⟩
          rw [hchange] at hresponse
          cases hresponse
          rw [hparse] at hnext
          cases hnext
      | ok next =>
          rw [Traced.silent_ok_bind]
          by_cases hconfirms : Confirms current next input.requestedTenantId
          · obtain ⟨clear, transition, hclear, htransition, hcleared⟩ :=
              transition_spec (canonical_of_parse hparse) hdeployment hstart hgiven
            rw [ensure, if_pos hconfirms, Traced.silent_ok_bind,
              Traced.bind_of_ok (result_notify input), htransition]
            dsimp only
            rw [Traced.bind_pure_of_map]
            exact .replaced hsettles hconsent
              ⟨current, response, next, hcurrent, hchange, hparse, hconfirms⟩ hclear hcleared
          · rw [ensure, if_neg hconfirms, Traced.silent_error_bind]
            refine .refused hsettles hconsent ?_
            rintro ⟨current', response', next', hcurrent', hresponse, hnext, hconfirms'⟩
            rw [hchange] at hresponse
            cases hresponse
            rw [hcurrent] at hcurrent'
            cases hcurrent'
            rw [hparse] at hnext
            cases hnext
            exact hconfirms hconfirms'

theorem course : Course isOther input (requestTenantSessionTransition isOther input) := by
  have hstop : ∀ error, Course isOther input (.silent (.error error)) := fun error =>
    .settled fun event hevent => absurd hevent List.not_mem_nil
  unfold requestTenantSessionTransition throwIfAborted
  split
  · exact hstop _
  rw [Traced.silent_ok_bind]
  cases hprepare : prepareSwitch isOther input with
  | error error => exact hstop error
  | ok prepared =>
      obtain ⟨current, selected⟩ := prepared
      rw [Traced.silent_ok_bind]
      cases selected with
      | none => exact .settled fun event hevent => absurd hevent List.not_mem_nil
      | some tenantId =>
          obtain ⟨hcurrent, rfl, hdeployment, ⟨start, hstart⟩, hgiven⟩ :=
            prepareSwitch_eq_ok isOther input hprepare
          have hsettles := @only_settles input
          cases hsettled : (settleUnsavedChanges input).result with
          | error error =>
              dsimp only
              rw [Traced.bind_of_error hsettled]
              exact .settled hsettles
          | ok ending =>
              dsimp only
              rw [Traced.bind_of_ok hsettled]
              cases ending with
              | some result =>
                  apply Course.settled
                  intro event hevent
                  exact hsettles event (by simpa using hevent)
              | none =>
                  exact course_changeTenant hsettles (consented_of_settled hsettled) hcurrent
                    hdeployment hstart hgiven

theorem notify_events : ∀ event ∈ (notify input).events, event = .notifySessionChanged := by
  unfold notify
  split
  · rw [Traced.bind_of_ok (Traced.result_attempt _)]
    exact fun event hevent => List.mem_singleton.mp hevent
  · simp

variable {isOther input} in
theorem filter_notify (htest : test .notifySessionChanged = false) :
    (notify input).events.filter test = [] := by
  rw [List.filter_eq_nil_iff]
  intro event hevent
  rw [notify_events input event hevent, htest]
  exact Bool.false_ne_true

variable {isOther input} in
theorem replaces_of_replaced {clear : Event} {transition : TenantSessionTransitionResult}
    (hsettles : ∀ event ∈ before, event.settles = true) (hclear : clear.isClear = true)
    (hcleared : transition.storageClearFailed = true ∨ Cleared isOther input [clear]) :
    Replaces isOther input
      ⟨before ++ .changeTenant :: ((notify input).events ++
        ((List.range input.cleanupSteps.length).map .cleanup ++ [clear, .replaceDocument])),
        (input.replaceDocument.mapError .other).map fun _ => .transitioned transition⟩ where
  cleanups := by
    have hbefore : before.filterMap Event.cleanup? = [] :=
      List.filterMap_eq_nil_iff.mpr fun event hevent =>
        (Event.settles_apart (hsettles event hevent)).2.2.2.2
    have hnotify : (notify input).events.filterMap Event.cleanup? = [] :=
      List.filterMap_eq_nil_iff.mpr fun event hevent => by rw [notify_events input event hevent]; rfl
    have hcleanups : ((List.range input.cleanupSteps.length).map Event.cleanup).filterMap
        Event.cleanup? = List.range input.cleanupSteps.length := by
      rw [List.filterMap_map]
      exact List.filterMap_some
    rw [List.filterMap_append, hbefore, List.nil_append, List.filterMap_cons_none rfl,
      List.filterMap_append, hnotify, List.nil_append, List.filterMap_append, hcleanups,
      List.filterMap_cons_none (Event.isClear_apart hclear).2.2, List.filterMap_cons_none rfl,
      List.filterMap_nil, List.append_nil]
  clears := by
    rw [List.filter_append, Event.filter_settles hsettles fun event hevent =>
        (Event.settles_apart hevent).2.2.1, List.nil_append,
      List.filter_cons_of_neg Bool.false_ne_true, List.filter_append, filter_notify rfl,
      List.filter_append, Event.filter_cleanups fun _ => rfl, List.filter_cons_of_pos hclear]
    rfl
  replaces := by
    rw [List.filter_append, Event.filter_settles hsettles fun event hevent =>
        (Event.settles_apart hevent).2.2.2.1, List.nil_append,
      List.filter_cons_of_neg Bool.false_ne_true, List.filter_append, filter_notify rfl,
      List.filter_append, Event.filter_cleanups fun _ => rfl,
      List.filter_cons_of_neg (by rw [(Event.isClear_apart hclear).2.1]; exact Bool.false_ne_true)]
    rfl
  result := by
    refine ⟨transition, rfl, hcleared.imp_right fun hcleared => hcleared.mono ?_⟩
    rintro event hevent
    rw [List.mem_singleton.mp hevent]
    simp

/-- A confirmed switch cleans up and replaces the page whatever happens; in every other case the page
is not touched. The tenant is changed at most once, and only with consent. -/
theorem requestTenantSessionTransition_switches :
    ((requestTenantSessionTransition isOther input).events.filter Event.isChangeTenant).length ≤ 1 ∧
      (∀ before after, (requestTenantSessionTransition isOther input).events =
          before ++ Event.changeTenant :: after →
        input.hasUnsavedChanges = true → Consented input before) ∧
      (Event.changeTenant ∈ (requestTenantSessionTransition isOther input).events ∧
          Confirmed isOther input →
        Replaces isOther input (requestTenantSessionTransition isOther input)) ∧
      (¬(Event.changeTenant ∈ (requestTenantSessionTransition isOther input).events ∧
          Confirmed isOther input) →
        ∀ event ∈ (requestTenantSessionTransition isOther input).events,
          event.replaces = false) := by
  have hcourse := course isOther input
  revert hcourse
  generalize requestTenantSessionTransition isOther input = run
  rintro (hsettles | ⟨hsettles, hconsent, hnot⟩ |
    ⟨hsettles, hconsent, hconfirmed, hclear, hcleared⟩)
  · have hnotMem := Event.changeTenant_notMem hsettles
    refine ⟨?_, ?_, fun hreplaced => absurd hreplaced.1 hnotMem, fun _ event hevent => ?_⟩
    · rw [Event.filter_settles hsettles fun event hevent => (Event.settles_apart hevent).2.1]
      exact Nat.zero_le 1
    · intro before after hsplit
      exact absurd (hsplit ▸ by simp) hnotMem
    · exact (Event.settles_apart (hsettles event hevent)).1
  · have hnotMem := Event.changeTenant_notMem hsettles
    refine ⟨?_, ?_, fun hreplaced => absurd hreplaced.2 hnot, fun _ event hevent => ?_⟩
    · rw [List.filter_append, Event.filter_settles hsettles fun event hevent =>
        (Event.settles_apart hevent).2.1]
      exact Nat.le_refl 1
    · intro before after hsplit
      obtain ⟨rfl, -⟩ := append_cons_inj_of_once hnotMem List.not_mem_nil hsplit
      exact hconsent
    · rcases mem_snoc.mp hevent with hevent | hevent
      · exact (Event.settles_apart (hsettles event hevent)).1
      · rw [hevent]
        rfl
  · rename_i before clear transition
    have hnotMem := Event.changeTenant_notMem hsettles
    have hafter : ∀ event ∈ (notify input).events ++ ((List.range input.cleanupSteps.length).map
        Event.cleanup ++ [clear, .replaceDocument]), event.isChangeTenant = false := by
      intro event hevent
      simp only [List.mem_append, List.mem_map, List.mem_cons, List.not_mem_nil, or_false] at hevent
      rcases hevent with hevent | ⟨index, -, rfl⟩ | rfl | rfl
      · rw [notify_events input event hevent]
        rfl
      · rfl
      · exact (Event.isClear_apart hclear).1
      · rfl
    refine ⟨?_, ?_, fun _ => replaces_of_replaced hsettles hclear hcleared, fun hnot => ?_⟩
    · rw [List.filter_append, Event.filter_settles hsettles fun event hevent =>
          (Event.settles_apart hevent).2.1, List.nil_append, List.filter_cons_of_pos rfl,
        List.filter_eq_nil_iff.mpr fun event hevent => by
          rw [hafter event hevent]; exact Bool.false_ne_true]
      exact Nat.le_refl 1
    · intro earlier later hsplit
      obtain ⟨rfl, -⟩ := append_cons_inj_of_once hnotMem (fun hmem => by cases hafter _ hmem) hsplit
      exact hconsent
    · exact absurd ⟨by simp, hconfirmed⟩ hnot

end Runs

namespace SavedSwitch

def isOther (_ : Char) : Bool := false

def session (tenantId version : String) : TenantSessionContextV1 where
  principalId := "p"
  activeTenant := ⟨tenantId, "Tenant"⟩
  availableTenants := [⟨"t1", "Tenant"⟩, ⟨"t2", "Tenant"⟩]
  effectiveCapabilities := []
  capabilityVersion := "c1"
  tenantSessionVersion := version

/-- The changes are saved and the new session is confirmed. The callbacks after that throw. -/
def input : SwitchInput where
  currentSessionContext := (session "t1" "v1").toJs
  requestedTenantId := "t2"
  deployment := "web"
  previousScope := ⟨"web", "t1", "p"⟩
  storage := none
  clearPreviousScope := some (.error .null)
  cleanupSteps := [.error .null, .ok ()]
  hasUnsavedChanges := true
  requestUnsavedDecision := some (.ok (.string "save"))
  saveUnsavedChanges := some (.ok true)
  changeTenant := .ok (session "t2" "v2").toJs
  notifySessionChanged := some (.error .null)
  isAborted _ := false
  replaceDocument := .ok ()

/-- The page is replaced all the same. -/
theorem requestTenantSessionTransition_switches_saved :
    Replaces isOther input (requestTenantSessionTransition isOther input) := by
  have hevents : (requestTenantSessionTransition isOther input).events = [.requestUnsavedDecision,
      .saveUnsavedChanges, .changeTenant, .notifySessionChanged, .cleanup 0, .cleanup 1,
      .clearPreviousScope, .replaceDocument] := by
    rfl
  exact (requestTenantSessionTransition_switches isOther input).2.2.1
    ⟨by simp [hevents], session "t1" "v1", _, session "t2" "v2", rfl, rfl, rfl, by decide⟩

end SavedSwitch

end KjAtlas.SessionContext
