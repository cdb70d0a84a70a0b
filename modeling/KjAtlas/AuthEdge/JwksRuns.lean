import Mathlib.Data.Fintype.Basic
import KjAtlas.AuthEdge.JwksStore

/-! # Verifications side by side

A failed fetch raises an identity error, which the callers do not look for: it is
not recorded, and the cached keys are not used. Keys that are too old are never
used. The rest of what the cache is for holds in runs where no fetch fails while
there are usable keys, no verification comes within a minute of a failed fetch,
and no fetch ends while another verification is about to start one.
-/

namespace KjAtlas.Jwks

open Py (Json)

variable {n : Nat} {F : Type}

/-- A step of one verification, at an instant, with what a fetch meets that ends now. -/
structure Event (n : Nat) (F : Type) where
  verification : Fin n
  time : Int
  endpoint : Endpoint F

structure World (n : Nat) (F : Type) where
  store : JwksStore F
  stages : Fin n → Stage

namespace World

def start : World n F := ⟨.empty, fun _ => .needsRefresh⟩

def cached (providerId : String) (w : World n F) : Option (CachedKeySet F) :=
  w.store.entries.get? providerId

def advance (providerId : String) (w : World n F) (event : Event n F) :
    Effect F × Stage × JwksStore F :=
  jwksKeysForProvider w.store providerId event.time event.endpoint (w.stages event.verification)

def effect (providerId : String) (w : World n F) (event : Event n F) : Effect F :=
  (w.advance providerId event).1

def apply (providerId : String) (w : World n F) (event : Event n F) : World n F where
  store := (w.advance providerId event).2.2
  stages := Function.update w.stages event.verification (w.advance providerId event).2.1

end World

def serve (providerId : String) (w : World n F) (event : Event n F) :
    Except Empty (Effect F × World n F) :=
  .ok (w.effect providerId event, w.apply providerId event)

/-- The instants at which fetches failed. -/
def failures (journal : List (Event n F × Effect F)) : List Int :=
  journal.filterMap fun entry =>
    match entry.2 with
    | .fetchFailed _ | .failureRecorded => some entry.1.time
    | _ => none

/-- The keys that were fetched, with the instants. -/
def fetches (journal : List (Event n F × Effect F)) : List (Int × List (Json F)) :=
  journal.filterMap fun entry =>
    match entry.2 with
    | .fetched keys => some (entry.1.time, keys)
    | _ => none

def ClockForward (events : List (Event n F)) : Prop :=
  events.Pairwise fun earlier later => earlier.time ≤ later.time

instance (events : List (Event n F)) : Decidable (ClockForward events) := by
  unfold ClockForward
  infer_instance

section Properties

variable (providerId : String) (run : Run (World n F) (Event n F) (Effect F)) (event : Event n F)

/-- The keys that are used were fetched last, less than thirty minutes ago. -/
def Bounded : Prop :=
  ∀ keys, run.state.effect providerId event = .answered keys →
    ∃ fetchedAt, (fetches run.journal).getLast? = some (fetchedAt, keys) ∧
      event.time - fetchedAt < maxStale

/-- The cache does what it is for in one step of a run. -/
structure Degrades : Prop where
  bounded : Bounded providerId run event
  /-- Fresh keys are used without a fetch. -/
  fresh : ∀ entry, run.state.cached providerId = some entry → entry.isFresh event.time = true →
    run.state.effect providerId event ≠ .fetchStarted ∧
      (run.state.stages event.verification = .needsRefresh →
        (run.state.apply providerId event).stages event.verification = .getFresh) ∧
      (run.state.stages event.verification = .getFresh →
        run.state.effect providerId event = .answered entry.keys)
  /-- While there are usable keys no verification is rejected. -/
  stale : ∀ entry, run.state.cached providerId = some entry →
    entry.isStaleButUsable event.time = true → ∀ raised,
      run.state.effect providerId event ≠ .fetchFailed raised ∧
        run.state.effect providerId event ≠ .rejected raised
  /-- No fetch starts within a minute of one that failed. -/
  cooldown : run.state.effect providerId event = .fetchStarted →
    ∀ failedAt ∈ failures run.journal, cooldown ≤ event.time - failedAt

/-- A verification comes at least a minute after every failed fetch, unless there are fresh keys by
then; a fetch ends while no other verification is about to start one, and where it fails there are
no usable keys. -/
def Meets : Prop :=
  match run.state.stages event.verification with
  | .needsRefresh =>
      (∃ entry ∈ run.state.cached providerId, entry.isFresh event.time = true) ∨
        ∀ failedAt ∈ failures run.journal, cooldown ≤ event.time - failedAt
  | .fetching =>
      match fetchJwks event.endpoint with
      | .ok _ => ∀ other, run.state.stages other ≠ .canForceRefresh
      | .error _ =>
          (∀ entry ∈ run.state.cached providerId, entry.isStaleButUsable event.time = false) ∧
            ∀ other, run.state.stages other ≠ .getFresh ∧
              run.state.stages other ≠ .canForceRefresh
  | _ => True

instance : Decidable (Meets providerId run event) := by
  unfold Meets
  split
  · infer_instance
  · split <;> infer_instance
  · infer_instance

end Properties

/-! ## The invariant -/

section Steps

variable {providerId : String} {run : Run (World n F) (Event n F) (Effect F)} {event : Event n F}

/-- All that happened so far happened by an instant. -/
def Reached (journal : List (Event n F × Effect F)) (now : Int) : Prop :=
  ∀ entry ∈ journal, entry.1.time ≤ now

/-- A verification that found fresh keys, fetched at some instant: fetches failed before these were
ten minutes old, and keys of that instant or later are cached, or those are too old by now. -/
def FoundFresh (cached : Option (CachedKeySet F)) (journal : List (Event n F × Effect F)) : Prop :=
  ∃ fetchedAt, (∀ failedAt ∈ failures journal, failedAt - fetchedAt < normalTtl) ∧
    ((∃ entry ∈ cached, fetchedAt ≤ entry.fetchedAt) ∨
      ∀ now, Reached journal now → maxStale ≤ now - fetchedAt)

/-- A verification that found no fresh keys: there are none, and the last failed fetch is a minute
ago. -/
def FoundNone (cached : Option (CachedKeySet F)) (journal : List (Event n F × Effect F)) : Prop :=
  ∀ now, Reached journal now →
    (∀ entry ∈ cached, entry.isFresh now = false) ∧
      ∀ failedAt ∈ failures journal, cooldown ≤ now - failedAt

structure Inv (providerId : String) (run : Run (World n F) (Event n F) (Effect F)) : Prop where
  cached : ∀ entry ∈ run.state.cached providerId,
    (fetches run.journal).getLast? = some (entry.fetchedAt, entry.keys)
  foundFresh : ∀ other, run.state.stages other = .getFresh →
    FoundFresh (run.state.cached providerId) run.journal
  foundNone : ∀ other, run.state.stages other = .canForceRefresh →
    FoundNone (run.state.cached providerId) run.journal

theorem inv_start (providerId : String) :
    Inv providerId (⟨[], World.start⟩ : Run (World n F) (Event n F) (Effect F)) where
  cached entry hentry := by
    cases hentry
  foundFresh other hstage := by
    cases hstage
  foundNone other hstage := by
    cases hstage

/-! ## What a step leaves -/

theorem mem_failures {journal : List (Event n F × Effect F)} {failedAt : Int} :
    failedAt ∈ failures journal ↔ ∃ entry ∈ journal, entry.1.time = failedAt ∧
      (entry.2 = .failureRecorded ∨ ∃ raised, entry.2 = .fetchFailed raised) := by
  unfold failures
  rw [List.mem_filterMap]
  refine exists_congr fun entry => and_congr_right fun _ => ?_
  cases entry.2 <;> simp

theorem failures_le {journal : List (Event n F × Effect F)} {now failedAt : Int}
    (hreached : Reached journal now) (hfailed : failedAt ∈ failures journal) : failedAt ≤ now := by
  obtain ⟨entry, hentry, rfl, -⟩ := mem_failures.mp hfailed
  exact hreached entry hentry

theorem Reached.of_append {journal later : List (Event n F × Effect F)} {now : Int}
    (hreached : Reached (journal ++ later) now) : Reached journal now :=
  fun entry hentry => hreached entry (List.mem_append_left _ hentry)

/-- An effect that neither brings keys nor is a failure. -/
def Effect.isQuiet : Effect F → Bool
  | .fetched _ | .fetchFailed _ | .failureRecorded => false
  | _ => true

variable {journal : List (Event n F × Effect F)} {effect : Effect F}

theorem failures_quiet (hquiet : effect.isQuiet = true) :
    failures (journal ++ [(event, effect)]) = failures journal := by
  unfold failures
  rw [List.filterMap_append]
  cases effect <;> simp [Effect.isQuiet] at hquiet ⊢

theorem fetches_quiet (hquiet : effect.isQuiet = true) :
    fetches (journal ++ [(event, effect)]) = fetches journal := by
  unfold fetches
  rw [List.filterMap_append]
  cases effect <;> simp [Effect.isQuiet] at hquiet ⊢

theorem FoundNone.later {cached : Option (CachedKeySet F)} (hfound : FoundNone cached journal)
    (hquiet : effect.isQuiet = true) : FoundNone cached (journal ++ [(event, effect)]) := by
  intro now hreached
  rw [failures_quiet hquiet]
  exact hfound now hreached.of_append

theorem FoundFresh.later {cached : Option (CachedKeySet F)} (hfound : FoundFresh cached journal)
    (hquiet : effect.isQuiet = true) : FoundFresh cached (journal ++ [(event, effect)]) := by
  obtain ⟨fetchedAt, hfailures, hkept⟩ := hfound
  refine ⟨fetchedAt, ?_, hkept.imp_right ?_⟩
  · rw [failures_quiet hquiet]
    exact hfailures
  · exact fun hold now hreached => hold now hreached.of_append

/-! ## Steps by their stage -/

/-- Asking for the cached keys brings usable ones, or leaves none. -/
theorem get_cases (store : JwksStore F) (providerId : String) (now : Int) :
    (∃ entry ∈ store.entries.get? providerId, entry.isStaleButUsable now = true ∧
      store.get providerId now = (some entry.keys, store)) ∨
    ((∀ entry ∈ store.entries.get? providerId, entry.isStaleButUsable now = false) ∧
      ∃ next : JwksStore F, next.entries.get? providerId = none ∧
        store.get providerId now = (none, next)) := by
  unfold JwksStore.get
  cases hentry : store.entries.get? providerId with
  | none =>
      right
      exact ⟨nofun, store, hentry, rfl⟩
  | some entry =>
      cases husable : entry.isStaleButUsable now with
      | true =>
          left
          exact ⟨entry, rfl, husable, by simp [husable]⟩
      | false =>
          right
          refine ⟨?_, { store with entries := store.entries.delete providerId }, ?_, ?_⟩
          · simpa using husable
          · simp
          · simp [husable]

variable {w : World n F}

theorem advance_needsRefresh (hstage : w.stages event.verification = .needsRefresh) :
    (∃ entry ∈ w.cached providerId, entry.isFresh event.time = true ∧
      w.advance providerId event = (.silent, .getFresh, w.store)) ∨
    ((∀ entry ∈ w.cached providerId, entry.isFresh event.time = false) ∧
      w.advance providerId event = (.silent, .canForceRefresh, w.store)) := by
  unfold World.advance World.cached
  rw [hstage]
  simp only [jwksKeysForProvider]
  cases hneeds : w.store.needsRefresh providerId event.time with
  | false =>
      left
      obtain ⟨entry, hentry, hfresh⟩ := JwksStore.needsRefresh_eq_false.mp hneeds
      exact ⟨entry, hentry, hfresh, rfl⟩
  | true =>
      right
      refine ⟨fun entry hentry => ?_, rfl⟩
      by_contra hfresh
      rw [JwksStore.needsRefresh_eq_false.mpr ⟨entry, hentry, by simpa using hfresh⟩] at hneeds
      cases hneeds

theorem advance_getFresh (hstage : w.stages event.verification = .getFresh) :
    (∃ entry ∈ w.cached providerId, entry.isStaleButUsable event.time = true ∧
      w.advance providerId event = (.answered entry.keys, .done, w.store)) ∨
    ((∀ entry ∈ w.cached providerId, entry.isStaleButUsable event.time = false) ∧
      ∃ next : JwksStore F, next.entries.get? providerId = none ∧
        w.advance providerId event = (.silent, .canForceRefresh, next)) := by
  unfold World.advance World.cached
  rw [hstage]
  rcases get_cases w.store providerId event.time with ⟨entry, hentry, husable, hget⟩ |
    ⟨hnone, next, hnext, hget⟩
  · left
    exact ⟨entry, hentry, husable, by simp [jwksKeysForProvider, hget]⟩
  · right
    exact ⟨hnone, next, hnext, by simp [jwksKeysForProvider, hget]⟩

theorem advance_canForceRefresh (hstage : w.stages event.verification = .canForceRefresh) :
    w.advance providerId event = (.fetchStarted, .fetching, w.store) ∨
      w.advance providerId event = (.silent, .getInCooldown, w.store) := by
  unfold World.advance
  rw [hstage]
  simp only [jwksKeysForProvider]
  cases w.store.canForceRefresh providerId event.time <;> simp

theorem advance_stale (hstage : w.stages event.verification = .getInCooldown ∨
      w.stages event.verification = .getAfterFailure) :
    (∃ entry ∈ w.cached providerId, entry.isStaleButUsable event.time = true ∧
      w.advance providerId event = (.answered entry.keys, .done, w.store)) ∨
    ((∀ entry ∈ w.cached providerId, entry.isStaleButUsable event.time = false) ∧
      ∃ next : JwksStore F, next.entries.get? providerId = none ∧
        w.advance providerId event = (.rejected jwksUnavailable, .done, next)) := by
  have hadvance : w.advance providerId event = answerStale w.store providerId event.time := by
    unfold World.advance
    rcases hstage with hstage | hstage
    · rw [hstage, jwksKeysForProvider]
    · rw [hstage, jwksKeysForProvider]
  rw [hadvance]
  rcases get_cases w.store providerId event.time with ⟨entry, hentry, husable, hget⟩ |
    ⟨hnone, next, hnext, hget⟩
  · left
    exact ⟨entry, hentry, husable, by simp [answerStale, hget]⟩
  · right
    exact ⟨hnone, next, hnext, by simp [answerStale, hget]⟩

theorem advance_fetching (hstage : w.stages event.verification = .fetching) :
    (∃ keys, fetchJwks event.endpoint = .ok keys ∧ w.advance providerId event =
      (.fetched keys, .done, w.store.set providerId keys event.time)) ∨
    ∃ raised, fetchJwks event.endpoint = .error raised ∧
      w.advance providerId event = (.fetchFailed raised, .done, w.store) := by
  unfold World.advance
  rw [hstage]
  simp only [jwksKeysForProvider, endFetch]
  cases hfetch : fetchJwks event.endpoint with
  | ok keys => exact .inl ⟨keys, rfl, rfl⟩
  | error raised =>
      have hother : raised ≠ .osError := fetchJwks_onlyRaises event.endpoint raised hfetch
      refine .inr ⟨raised, rfl, ?_⟩
      cases raised with
      | osError => exact absurd rfl hother
      | jwtIdentityError | httpError | jsonDecodeError | other => rfl

theorem advance_done (hstage : w.stages event.verification = .done) :
    w.advance providerId event = (.silent, .done, w.store) := by
  unfold World.advance
  rw [hstage]
  rfl

/-! ## One step keeps the invariant -/

theorem stages_apply (w : World n F) (event : Event n F) (other : Fin n) :
    (w.apply providerId event).stages other =
      if other = event.verification then (w.advance providerId event).2.1 else w.stages other :=
  Function.update_apply ..

theorem fetchedAt_le (hrun : Inv providerId run) (hreached : Reached run.journal event.time)
    {entry : CachedKeySet F} (hentry : entry ∈ run.state.cached providerId) :
    entry.fetchedAt ≤ event.time := by
  have hlast := List.mem_of_getLast? (hrun.cached entry hentry)
  obtain ⟨fetch, hfetch, hsome⟩ := List.mem_filterMap.mp hlast
  have htime : fetch.1.time = entry.fetchedAt := by
    split at hsome
    · exact (Prod.ext_iff.mp (Option.some.inj hsome)).1
    · cases hsome
  rw [← htime]
  exact hreached fetch hfetch

/-- After a step with a quiet effect that leaves the cached keys, or takes out those that are not
usable any more, the invariant holds if it does of the verification of the step. -/
theorem Inv.quiet (hrun : Inv providerId run)
    (hquiet : (run.state.effect providerId event).isQuiet = true)
    (hcached : (run.state.apply providerId event).cached providerId = run.state.cached providerId ∨
      (∀ entry ∈ run.state.cached providerId, entry.isStaleButUsable event.time = false) ∧
        (run.state.apply providerId event).cached providerId = none)
    (hfresh : (run.state.apply providerId event).stages event.verification = .getFresh →
      FoundFresh (run.state.cached providerId) run.journal)
    (hnone : (run.state.apply providerId event).stages event.verification = .canForceRefresh →
      FoundNone ((run.state.apply providerId event).cached providerId)
        (run.journal ++ [(event, run.state.effect providerId event)])) :
    Inv providerId ⟨run.journal ++ [(event, run.state.effect providerId event)],
      run.state.apply providerId event⟩ where
  cached entry hentry := by
    change (fetches (run.journal ++ [(event, run.state.effect providerId event)])).getLast? = _
    rw [fetches_quiet hquiet]
    rcases hcached with hsame | ⟨-, hempty⟩
    · exact hrun.cached entry (hsame ▸ hentry)
    · rw [hempty] at hentry
      cases hentry
  foundFresh other hother := by
    have hfound : FoundFresh (run.state.cached providerId) run.journal := by
      by_cases hsame : other = event.verification
      · exact hfresh (hsame ▸ hother)
      · apply hrun.foundFresh other
        rwa [stages_apply, if_neg hsame] at hother
    rcases hcached with hsame | ⟨hold, hempty⟩
    · change FoundFresh ((run.state.apply providerId event).cached providerId) _
      rw [hsame]
      exact hfound.later hquiet
    · obtain ⟨fetchedAt, hfailures, hkept⟩ := hfound
      refine ⟨fetchedAt, ?_, .inr fun now hreached => ?_⟩
      · rw [failures_quiet hquiet]
        exact hfailures
      · -- the keys of then, or later ones, were too old at this step
        rcases hkept with ⟨entry, hentry, hle⟩ | hkept
        · have hnow : event.time ≤ now :=
            hreached _ (List.mem_append_right _ (List.mem_singleton_self _))
          have haged := CachedKeySet.isStaleButUsable_eq_false.mp (hold entry hentry)
          omega
        · exact hkept now hreached.of_append
  foundNone other hother := by
    by_cases hsame : other = event.verification
    · exact hnone (hsame ▸ hother)
    · have hfound : FoundNone (run.state.cached providerId) run.journal := by
        apply hrun.foundNone other
        rwa [stages_apply, if_neg hsame] at hother
      change FoundNone ((run.state.apply providerId event).cached providerId) _
      rcases hcached with hkept | ⟨-, hempty⟩
      · rw [hkept]
        exact hfound.later hquiet
      · rw [hempty]
        intro now hreached
        exact ⟨nofun, (hfound.later hquiet now hreached).2⟩

/-- What a step does, read off the step of its verification. -/
theorem of_advance {effect : Effect F} {stage : Stage} {store : JwksStore F}
    (hadvance : w.advance providerId event = (effect, stage, store)) :
    w.effect providerId event = effect ∧
      (w.apply providerId event).cached providerId = store.entries.get? providerId ∧
      (w.apply providerId event).stages event.verification = stage := by
  refine ⟨?_, ?_, ?_⟩
  · rw [World.effect, hadvance]
  · rw [World.cached, World.apply, hadvance]
  · rw [stages_apply, if_pos rfl, hadvance]

def nextRun (providerId : String) (run : Run (World n F) (Event n F) (Effect F))
    (event : Event n F) : Run (World n F) (Event n F) (Effect F) :=
  ⟨run.journal ++ [(event, run.state.effect providerId event)], run.state.apply providerId event⟩

/-- A step that answers nothing and starts no fetch. -/
theorem Degrades.of_silent (heffect : run.state.effect providerId event = .silent)
    (hfresh : ∀ entry, run.state.cached providerId = some entry →
      entry.isFresh event.time = true →
        (run.state.stages event.verification = .needsRefresh →
          (run.state.apply providerId event).stages event.verification = .getFresh) ∧
        run.state.stages event.verification ≠ .getFresh) : Degrades providerId run event where
  bounded keys hkeys := by
    rw [heffect] at hkeys
    cases hkeys
  fresh entry hentry hisFresh := by
    obtain ⟨hnext, hstage⟩ := hfresh entry hentry hisFresh
    rw [heffect]
    exact ⟨nofun, hnext, fun heq => absurd heq hstage⟩
  stale entry _ _ raised := by
    rw [heffect]
    exact ⟨nofun, nofun⟩
  cooldown hstarted := by
    rw [heffect] at hstarted
    cases hstarted

section

variable (hrun : Inv providerId run)
include hrun

theorem Degrades.of_answered {entry : CachedKeySet F} (hentry : entry ∈ run.state.cached providerId)
    (husable : entry.isStaleButUsable event.time = true)
    (heffect : run.state.effect providerId event = .answered entry.keys)
    (hstage : run.state.stages event.verification ≠ .needsRefresh) :
    Degrades providerId run event where
  bounded keys hkeys := by
    rw [heffect] at hkeys
    cases hkeys
    exact ⟨entry.fetchedAt, hrun.cached entry hentry, CachedKeySet.isStaleButUsable_iff.mp husable⟩
  fresh other hother _ := by
    obtain rfl : other = entry := Option.some.inj (hother.symm.trans hentry)
    exact ⟨by simp [heffect], fun heq => absurd heq hstage, fun _ => heffect⟩
  stale _ _ _ raised := by
    rw [heffect]
    exact ⟨nofun, nofun⟩
  cooldown hstarted := by
    rw [heffect] at hstarted
    cases hstarted

theorem step_needsRefresh (hreached : Reached run.journal event.time)
    (hmeets : Meets providerId run event)
    (hstage : run.state.stages event.verification = .needsRefresh) :
    Inv providerId (nextRun providerId run event) ∧ Degrades providerId run event := by
  rcases advance_needsRefresh hstage with ⟨entry, hentry, hfresh, hadvance⟩ | ⟨hnone, hadvance⟩
  · obtain ⟨heffect, hcached, hnext⟩ := of_advance hadvance
    refine ⟨hrun.quiet (by rw [heffect]; rfl) (.inl hcached) (fun _ => ?_) (by simp [hnext]),
      Degrades.of_silent heffect fun _ _ _ => ⟨fun _ => hnext, by simp [hstage]⟩⟩
    refine ⟨entry.fetchedAt, fun failedAt hfailed => ?_, .inl ⟨entry, hentry, le_rfl⟩⟩
    have hle := failures_le hreached hfailed
    have hage := CachedKeySet.isFresh_iff.mp hfresh
    omega
  · obtain ⟨heffect, hcached, hnext⟩ := of_advance hadvance
    have hcooled : ∀ failedAt ∈ failures run.journal, cooldown ≤ event.time - failedAt := by
      unfold Meets at hmeets
      rw [hstage] at hmeets
      rcases hmeets with ⟨entry, hentry, hfresh⟩ | hcooled
      · rw [hnone entry hentry] at hfresh
        cases hfresh
      · exact hcooled
    refine ⟨hrun.quiet (by rw [heffect]; rfl) (.inl hcached) (by simp [hnext]) fun _ => ?_,
      Degrades.of_silent heffect fun entry hentry hfresh => ?_⟩
    · intro now hnow
      have hle : event.time ≤ now := hnow _ (List.mem_append_right _ (List.mem_singleton_self _))
      rw [hcached, heffect, failures_quiet rfl]
      refine ⟨fun entry hentry => ?_, fun failedAt hfailed => ?_⟩
      · have hage := CachedKeySet.isFresh_eq_false.mp (hnone entry hentry)
        rw [CachedKeySet.isFresh_eq_false]
        omega
      · have hago := hcooled failedAt hfailed
        omega
    · rw [hnone entry hentry] at hfresh
      cases hfresh

theorem step_getFresh (hreached : Reached run.journal event.time)
    (hstage : run.state.stages event.verification = .getFresh) :
    Inv providerId (nextRun providerId run event) ∧ Degrades providerId run event := by
  rcases advance_getFresh hstage with ⟨entry, hentry, husable, hadvance⟩ |
    ⟨hnone, next, hempty, hadvance⟩
  · obtain ⟨heffect, hcached, hnext⟩ := of_advance hadvance
    exact ⟨hrun.quiet (by rw [heffect]; rfl) (.inl hcached) (by simp [hnext]) (by simp [hnext]),
      Degrades.of_answered hrun hentry husable heffect (by simp [hstage])⟩
  · obtain ⟨heffect, hcached, hnext⟩ := of_advance hadvance
    rw [hempty] at hcached
    refine ⟨hrun.quiet (by rw [heffect]; rfl) (.inr ⟨hnone, hcached⟩) (by simp [hnext]) fun _ => ?_,
      Degrades.of_silent heffect fun entry hentry hfresh => ?_⟩
    · -- the fresh keys became too old: that takes longer than the cooldown
      rw [hcached, heffect]
      intro now hnow
      refine ⟨nofun, fun failedAt hfailed => ?_⟩
      rw [failures_quiet rfl] at hfailed
      have hle : event.time ≤ now := hnow _ (List.mem_append_right _ (List.mem_singleton_self _))
      obtain ⟨fetchedAt, hfailures, hkept⟩ := hrun.foundFresh _ hstage
      have hbefore := hfailures failedAt hfailed
      have hold : maxStale ≤ event.time - fetchedAt := by
        rcases hkept with ⟨entry, hentry, hlater⟩ | hkept
        · have haged := CachedKeySet.isStaleButUsable_eq_false.mp (hnone entry hentry)
          omega
        · exact hkept event.time hreached
      unfold maxStale at hold
      unfold normalTtl at hbefore
      unfold cooldown
      omega
    · have hstale := hnone entry hentry
      rw [CachedKeySet.usable_of_fresh hfresh] at hstale
      cases hstale

theorem step_canForceRefresh (hreached : Reached run.journal event.time)
    (hstage : run.state.stages event.verification = .canForceRefresh) :
    Inv providerId (nextRun providerId run event) ∧ Degrades providerId run event := by
  obtain ⟨hnone, hcooled⟩ := hrun.foundNone _ hstage event.time hreached
  rcases advance_canForceRefresh hstage with hadvance | hadvance
  · obtain ⟨heffect, hcached, hnext⟩ := of_advance hadvance
    refine ⟨hrun.quiet (by rw [heffect]; rfl) (.inl hcached) (by simp [hnext]) (by simp [hnext]), ?_⟩
    exact {
      bounded := by
        intro keys hkeys
        rw [heffect] at hkeys
        cases hkeys
      fresh := by
        intro entry hentry hfresh
        rw [hnone entry hentry] at hfresh
        cases hfresh
      stale := by
        intro _ _ _ raised
        rw [heffect]
        exact ⟨nofun, nofun⟩
      cooldown := fun _ => hcooled }
  · obtain ⟨heffect, hcached, hnext⟩ := of_advance hadvance
    refine ⟨hrun.quiet (by rw [heffect]; rfl) (.inl hcached) (by simp [hnext]) (by simp [hnext]),
      Degrades.of_silent heffect fun entry hentry hfresh => ?_⟩
    rw [hnone entry hentry] at hfresh
    cases hfresh

theorem step_stale (hstage : run.state.stages event.verification = .getInCooldown ∨
      run.state.stages event.verification = .getAfterFailure) :
    Inv providerId (nextRun providerId run event) ∧ Degrades providerId run event := by
  have hother : run.state.stages event.verification ≠ .needsRefresh := by
    rcases hstage with hstage | hstage
    · simp [hstage]
    · simp [hstage]
  rcases advance_stale hstage with ⟨entry, hentry, husable, hadvance⟩ |
    ⟨hnone, next, hempty, hadvance⟩
  · obtain ⟨heffect, hcached, hnext⟩ := of_advance hadvance
    exact ⟨hrun.quiet (by rw [heffect]; rfl) (.inl hcached) (by simp [hnext]) (by simp [hnext]),
      Degrades.of_answered hrun hentry husable heffect hother⟩
  · obtain ⟨heffect, hcached, hnext⟩ := of_advance hadvance
    rw [hempty] at hcached
    refine ⟨hrun.quiet (by rw [heffect]; rfl) (.inr ⟨hnone, hcached⟩) (by simp [hnext])
      (by simp [hnext]), ?_⟩
    exact {
      bounded := by
        intro keys hkeys
        rw [heffect] at hkeys
        cases hkeys
      fresh := by
        intro entry hentry hfresh
        have hstale := hnone entry hentry
        rw [CachedKeySet.usable_of_fresh hfresh] at hstale
        cases hstale
      stale := by
        intro entry hentry husable
        rw [hnone entry hentry] at husable
        cases husable
      cooldown := by
        intro hstarted
        rw [heffect] at hstarted
        cases hstarted }

end

theorem stages_of_done {other : Fin n} {stage : Stage}
    (hnext : (w.apply providerId event).stages event.verification = .done)
    (hother : (w.apply providerId event).stages other = stage) (hstage : stage ≠ .done) :
    w.stages other = stage := by
  have hne : other ≠ event.verification := by
    intro heq
    rw [heq, hnext] at hother
    exact hstage hother.symm
  rwa [stages_apply, if_neg hne] at hother

theorem step_fetching (hrun : Inv providerId run) (hreached : Reached run.journal event.time)
    (hmeets : Meets providerId run event)
    (hstage : run.state.stages event.verification = .fetching) :
    Inv providerId (nextRun providerId run event) ∧ Degrades providerId run event := by
  unfold Meets at hmeets
  rw [hstage] at hmeets
  rcases advance_fetching hstage with ⟨keys, hfetch, hadvance⟩ | ⟨raised, hfetch, hadvance⟩
  · obtain ⟨heffect, hcached, hnext⟩ := of_advance hadvance
    simp only [hfetch] at hmeets
    rw [JwksStore.entries_set] at hcached
    have hfailures : failures (run.journal ++ [(event, .fetched keys)]) = failures run.journal := by
      simp [failures]
    refine ⟨⟨?_, ?_, ?_⟩, ?_⟩
    · intro entry hentry
      change entry ∈ (run.state.apply providerId event).cached providerId at hentry
      rw [hcached] at hentry
      obtain rfl := Option.some.inj hentry
      change (fetches (run.journal ++ [(event, run.state.effect providerId event)])).getLast? = _
      simp [fetches, heffect]
    · intro other hother
      obtain ⟨fetchedAt, hfailed, hkept⟩ :=
        hrun.foundFresh other (stages_of_done hnext hother (by decide))
      change FoundFresh ((run.state.apply providerId event).cached providerId)
        (run.journal ++ [(event, run.state.effect providerId event)])
      rw [hcached, heffect]
      refine ⟨fetchedAt, by rwa [hfailures], ?_⟩
      rcases hkept with ⟨entry, hentry, hle⟩ | hkept
      · exact .inl ⟨_, rfl, hle.trans (fetchedAt_le hrun hreached hentry)⟩
      · exact .inr fun now hnow => hkept now hnow.of_append
    · intro other hother
      exact absurd (stages_of_done hnext hother (by decide)) (hmeets other)
    · exact {
        bounded := by
          intro other hother
          rw [heffect] at hother
          cases hother
        fresh := fun _ _ _ => ⟨by simp [heffect], by simp [hstage], by simp [hstage]⟩
        stale := by
          intro _ _ _ raised
          rw [heffect]
          exact ⟨nofun, nofun⟩
        cooldown := by
          intro hstarted
          rw [heffect] at hstarted
          cases hstarted }
  · obtain ⟨heffect, hcached, hnext⟩ := of_advance hadvance
    simp only [hfetch] at hmeets
    obtain ⟨hunusable, hothers⟩ := hmeets
    have hfetches : fetches (run.journal ++ [(event, .fetchFailed raised)]) =
        fetches run.journal := by
      simp [fetches]
    refine ⟨⟨?_, ?_, ?_⟩, ?_⟩
    · intro entry hentry
      change entry ∈ (run.state.apply providerId event).cached providerId at hentry
      rw [hcached] at hentry
      change (fetches (run.journal ++ [(event, run.state.effect providerId event)])).getLast? = _
      rw [heffect, hfetches]
      exact hrun.cached entry hentry
    · intro other hother
      exact absurd (stages_of_done hnext hother (by decide)) (hothers other).1
    · intro other hother
      exact absurd (stages_of_done hnext hother (by decide)) (hothers other).2
    · exact {
        bounded := by
          intro other hother
          rw [heffect] at hother
          cases hother
        fresh := fun _ _ _ => ⟨by simp [heffect], by simp [hstage], by simp [hstage]⟩
        stale := by
          intro entry hentry husable
          rw [hunusable entry hentry] at husable
          cases husable
        cooldown := by
          intro hstarted
          rw [heffect] at hstarted
          cases hstarted }

theorem step_done (hrun : Inv providerId run)
    (hstage : run.state.stages event.verification = .done) :
    Inv providerId (nextRun providerId run event) ∧ Degrades providerId run event := by
  obtain ⟨heffect, hcached, hnext⟩ := of_advance (@advance_done _ _ providerId _ _ hstage)
  exact ⟨hrun.quiet (by rw [heffect]; rfl) (.inl hcached) (by simp [hnext]) (by simp [hnext]),
    Degrades.of_silent heffect fun _ _ _ => ⟨by simp [hstage], by simp [hstage]⟩⟩

/-- A step that meets the condition keeps the invariant, and does what the cache is for. -/
theorem step_degrades (hrun : Inv providerId run) (hreached : Reached run.journal event.time)
    (hmeets : Meets providerId run event) :
    Inv providerId (nextRun providerId run event) ∧ Degrades providerId run event := by
  cases hstage : run.state.stages event.verification with
  | needsRefresh => exact step_needsRefresh hrun hreached hmeets hstage
  | getFresh => exact step_getFresh hrun hreached hstage
  | canForceRefresh => exact step_canForceRefresh hrun hreached hstage
  | getInCooldown => exact step_stale hrun (.inl hstage)
  | fetching => exact step_fetching hrun hreached hmeets hstage
  | getAfterFailure => exact step_stale hrun (.inr hstage)
  | done => exact step_done hrun hstage

end Steps

/-! ## Runs -/

/-- The cache degrades as it should in every run, however the verifications are interleaved, under
a clock that never goes back: where no verification comes within a minute of a failed fetch without
finding fresh keys, no fetch fails while there are usable keys, and no fetch ends while another
verification is about to start one. -/
theorem cache_degrades (providerId : String) (events : List (Event n F))
    (hclock : ClockForward events)
    (hmeets : CallsMeet (serve providerId) World.start (Meets providerId) events) :
    CallsMeet (serve providerId) World.start (Degrades providerId) events := by
  have hreached : CallsMeet (serve providerId) World.start
      (fun run event => Reached run.journal event.time) events :=
    callsMeet_of_pairwise hclock
  refine CallsMeet.of_invariant (P := Inv providerId) (inv_start providerId) ?_ ?_
    (callsMeet_and.mpr ⟨hreached, hmeets⟩)
  · rintro run event answer next hrun ⟨hreached, hmeets⟩ hserve
    obtain ⟨rfl, rfl⟩ := Prod.ext_iff.mp (Except.ok.inj hserve)
    exact (step_degrades hrun hreached hmeets).1
  · rintro run event hrun ⟨hreached, hmeets⟩
    exact (step_degrades hrun hreached hmeets).2

namespace KeysFetched

def keys : List (Json Unit) := [.dict [("kid", .str "first")]]

/-- The provider answers, or does not. -/
def endpoint (reachable : Bool) : Endpoint Unit where
  jwksUri := some "https://idp.example/keys"
  urlparse := some ("https", some "idp.example")
  httpxGet := if reachable then .ok ⟨false, 100, .ok (.dict [("keys", .list keys)])⟩
    else .error .httpError

def steps (verification : Fin 2) (second : Int) (reachable : Bool) (count : Nat) :
    List (Event 2 Unit) :=
  List.replicate count ⟨verification, second * 1000000000, endpoint reachable⟩

/-- A verification fetches keys, and the next one uses them. -/
def reused : List (Event 2 Unit) := steps 0 0 true 3 ++ steps 1 10 true 2

/-- The keys are twelve minutes old, and the provider does not answer. -/
def unreachable : List (Event 2 Unit) := steps 0 0 true 3 ++ steps 1 720 false 3

theorem reused_degrades :
    CallsMeet (serve "idp") World.start (Degrades "idp") reused :=
  cache_degrades "idp" reused (by decide +kernel) (by decide +kernel)

/-- The second verification is rejected, and the usable keys are not used. -/
theorem unreachable_rejected : ClockForward unreachable ∧
    ¬CallsMeet (serve "idp") World.start (Degrades "idp") unreachable := by
  constructor
  · decide +kernel
  · intro hdegrades
    have hlast := hdegrades (steps 0 0 true 3 ++ steps 1 720 false 2)
      ⟨1, 720 * 1000000000, endpoint false⟩ [] rfl
    apply (hlast.stale ⟨keys, 0, 0⟩ rfl (by decide) jwksUnavailable).1
    rfl

end KeysFetched

end KjAtlas.Jwks
