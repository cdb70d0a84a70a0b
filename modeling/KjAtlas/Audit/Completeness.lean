import Mathlib.Data.List.Induction
import Mathlib.Data.List.Perm.Subperm
import Mathlib.Tactic.Linarith
import KjAtlas.Foundation.KeyedStore

/-! # Completeness of audit events

The server remembers for each key which operations were recorded and when the key
was last touched. An operation is applied only where all the others came before.
Every 256 events the entries that nobody touched for a day are evicted: in an
event the state of its key is looked up before the eviction and updated after it.
-/

namespace KjAtlas.Audit.Ce4

inductive Operation where
  | query
  | bundle
  | proposal
  | apply
deriving DecidableEq

structure TrackerKey where
  tenantId : String
  docId : String
  equivalenceKey : String
  bundleHash : String
deriving DecidableEq

/-- An event, with the clock as it is read when an entry is made, when entries are evicted and
when the entry is touched. Proposals and applications have the hash of their source. -/
structure Event where
  key : TrackerKey
  operation : Operation
  sourceBundleHash : Option String
  created : ℚ
  swept : ℚ
  touched : ℚ
  sourced : operation = .proposal ∨ operation = .apply → sourceBundleHash.isSome = true
  created_le_swept : created ≤ swept
  swept_le_touched : swept ≤ touched

/-! ## The tracker -/

/-- `_Ce4AuditTrackerState`. -/
structure TrackerState where
  seenOperations : List Operation
  proposalSourceBundleHash : Option String
  lastTouched : ℚ

structure Tracker where
  entries : InsertionMap TrackerKey TrackerState
  evictionCounter : Nat

def trackerTtlSeconds : ℚ := 24 * 60 * 60

def trackerMaxEntries : Nat := 10000

def requiredEventSet : List Operation := [.apply, .bundle, .proposal, .query]

def oldestKey : List (TrackerKey × TrackerState) → Option TrackerKey
  | [] => none
  | entry :: entries => some (entries.foldl (fun oldest other =>
      if other.2.lastTouched < oldest.2.lastTouched then other else oldest) entry).1

/-- Entries are removed while there are too many. -/
def evictOldest : Nat → InsertionMap TrackerKey TrackerState → InsertionMap TrackerKey TrackerState
  | 0, entries => entries
  | fuel + 1, entries =>
      if trackerMaxEntries < entries.entries.length then
        match oldestKey entries.entries with
        | none => entries
        | some key => evictOldest fuel (entries.delete key)
      else entries

def staleKeys (now : ℚ) (entries : InsertionMap TrackerKey TrackerState) : List TrackerKey :=
  (entries.entries.filter fun entry =>
    decide (trackerTtlSeconds < now - entry.2.lastTouched)).map Prod.fst

/-- `_evict_stale_ce4_tracker_entries`. -/
def evictStaleTrackerEntries (now : ℚ) (entries : InsertionMap TrackerKey TrackerState) :
    InsertionMap TrackerKey TrackerState :=
  let live := (staleKeys now entries).foldl .delete entries
  evictOldest live.entries.length live

/-- The state of a key, after `setdefault`. -/
def stateOf (entry : Option TrackerState) (event : Event) : TrackerState :=
  entry.getD ⟨[], none, event.created⟩

def setDefault (entries : InsertionMap TrackerKey TrackerState) (event : Event) :
    InsertionMap TrackerKey TrackerState :=
  if entries.has event.key then entries
  else entries.set event.key (stateOf none event)

def touch (state : TrackerState) (event : Event) : TrackerState where
  seenOperations := if event.operation ∈ state.seenOperations then state.seenOperations
    else state.seenOperations ++ [event.operation]
  proposalSourceBundleHash := if event.operation = .proposal then event.sourceBundleHash
    else state.proposalSourceBundleHash
  lastTouched := event.touched

/-- The detail of a refusal, which has the status 409. -/
structure Refusal where
  code : String
  message : String
  missingEvents : Option (List Operation)

def checkCompleteness (state : TrackerState) (event : Event) : Except Refusal Unit :=
  if event.operation = .apply ∧ state.proposalSourceBundleHash ≠ none ∧
      state.proposalSourceBundleHash ≠ event.sourceBundleHash then
    .error ⟨"equivalence_mismatch",
      "sourceBundleHash must match the prior proposal event for the same equivalenceKey and " ++
        "bundleHash", none⟩
  else if event.operation ≠ .apply then .ok ()
  else
    let missing := requiredEventSet.filter fun operation =>
      decide (operation ∉ state.seenOperations)
    if missing = [] then .ok ()
    else .error ⟨"missing_event", "CE4 audit event set is incomplete for apply operation",
      some missing⟩

/-- The entries of an event, after an eviction at every 256th event. -/
def sweep (tracker : Tracker) (event : Event) : InsertionMap TrackerKey TrackerState :=
  let entries := setDefault tracker.entries event
  if tracker.evictionCounter % 256 = 0 then evictStaleTrackerEntries event.swept entries
  else entries

/-- `_record_ce4_event_and_validate_completeness`. The state is the one that was looked up, whether
its entry is still there or not. -/
def record (tracker : Tracker) (event : Event) : Except Refusal Unit × Tracker :=
  let state := stateOf (tracker.entries.get? event.key) event
  let entries := sweep tracker event
  let state := touch state event
  (checkCompleteness state event,
    { entries := if entries.has event.key then entries.set event.key state else entries
      evictionCounter := tracker.evictionCounter + 1 })

def recordAll (tracker : Tracker) (events : List Event) : Tracker :=
  events.foldl (fun tracker event => (record tracker event).2) tracker

def eventsOf (key : TrackerKey) (events : List Event) : List Event :=
  events.filter fun event => decide (event.key = key)

/-- No event of a key comes more than the time to live after the one before it. -/
def Live : Option ℚ → List Event → Prop
  | _, [] => True
  | last, event :: events =>
      event.touched - last.getD event.created ≤ trackerTtlSeconds ∧
        Live (some event.touched) events

/-- Every event is over before the next one begins. -/
def Clock (events : List Event) : Prop :=
  events.Pairwise fun earlier later => earlier.touched ≤ later.created

/-- The state of a key whose entry was never evicted. -/
def stateAfter (entry : Option TrackerState) (events : List Event) : Option TrackerState :=
  events.foldl (fun entry event => some (touch (stateOf entry event) event)) entry

/-! ## Eviction -/

section Entries

variable {entries : InsertionMap TrackerKey TrackerState} {key : TrackerKey} {event : Event}

theorem evictOldest_of_le (hroom : entries.entries.length ≤ trackerMaxEntries) (fuel : Nat) :
    evictOldest fuel entries = entries := by
  cases fuel with
  | zero => rfl
  | succ fuel => rw [evictOldest, if_neg (not_lt.mpr hroom)]

theorem length_foldl_delete_le (keys : List TrackerKey)
    (entries : InsertionMap TrackerKey TrackerState) :
    (keys.foldl .delete entries).entries.length ≤ entries.entries.length := by
  induction keys generalizing entries with
  | nil => exact le_rfl
  | cons key keys ih => exact (ih (entries.delete key)).trans (List.length_filter_le _ _)

theorem mem_staleKeys {now : ℚ} :
    key ∈ staleKeys now entries ↔
      ∃ state, entries.get? key = some state ∧ trackerTtlSeconds < now - state.lastTouched := by
  unfold staleKeys
  rw [List.mem_map]
  constructor
  · rintro ⟨⟨_, state⟩, hentry, rfl⟩
    obtain ⟨hmem, hstale⟩ := List.mem_filter.mp hentry
    exact ⟨state, InsertionMap.mem_entries.mp hmem, of_decide_eq_true hstale⟩
  · rintro ⟨state, hstate, hstale⟩
    exact ⟨(key, state), List.mem_filter.mpr
      ⟨InsertionMap.mem_entries.mpr hstate, decide_eq_true hstale⟩, rfl⟩

/-- Where there is room, what is not stale stays. -/
theorem get?_evictStaleTrackerEntries {now : ℚ}
    (hroom : entries.entries.length ≤ trackerMaxEntries) :
    (evictStaleTrackerEntries now entries).get? key =
      if key ∈ staleKeys now entries then none else entries.get? key := by
  unfold evictStaleTrackerEntries
  rw [evictOldest_of_le ((length_foldl_delete_le _ _).trans hroom),
    InsertionMap.get?_foldl_delete]

theorem get?_setDefault :
    (setDefault entries event).get? key =
      if event.key = key then some (stateOf (entries.get? key) event) else entries.get? key := by
  unfold setDefault
  cases hentry : entries.get? event.key with
  | none =>
      rw [InsertionMap.has, hentry, Option.isSome_none, if_neg Bool.false_ne_true,
        InsertionMap.get?_set]
      by_cases hkey : event.key = key
      · rw [if_pos hkey, if_pos hkey, ← hkey, hentry]
      · rw [if_neg hkey, if_neg hkey]
  | some state =>
      rw [InsertionMap.has, hentry, Option.isSome_some, if_pos rfl]
      by_cases hkey : event.key = key
      · rw [if_pos hkey, ← hkey, hentry, stateOf, Option.getD_some]
      · rw [if_neg hkey]

end Entries

section Record

variable {tracker : Tracker} {key : TrackerKey} {event : Event}

/-- A state that is not stale is kept. -/
theorem get?_sweep (hroom : (setDefault tracker.entries event).entries.length ≤ trackerMaxEntries)
    (hlive : ∀ state, (setDefault tracker.entries event).get? key = some state →
      event.swept - state.lastTouched ≤ trackerTtlSeconds) :
    (sweep tracker event).get? key = (setDefault tracker.entries event).get? key := by
  unfold sweep
  dsimp only
  split
  · rw [get?_evictStaleTrackerEntries hroom, if_neg]
    rw [mem_staleKeys]
    rintro ⟨state, hstate, hstale⟩
    exact absurd (hlive state hstate) (not_le.mpr hstale)
  · rfl

theorem get?_record
    (hkept : (sweep tracker event).get? key = (setDefault tracker.entries event).get? key) :
    (record tracker event).2.entries.get? key =
      if event.key = key then some (touch (stateOf (tracker.entries.get? key) event) event)
      else tracker.entries.get? key := by
  rw [get?_setDefault] at hkept
  unfold record
  dsimp only
  by_cases hkey : event.key = key
  · subst hkey
    rw [if_pos rfl] at hkept
    rw [if_pos rfl, InsertionMap.has, hkept, Option.isSome_some, if_pos rfl,
      InsertionMap.get?_set, if_pos rfl]
  · rw [if_neg hkey] at hkept
    rw [if_neg hkey, ← hkept]
    split
    · rw [InsertionMap.get?_set, if_neg hkey]
    · rfl

end Record

/-! ## Runs -/

variable {events : List Event} {state : TrackerState}

section Runs

variable {used : List TrackerKey} {key : TrackerKey}

def Within (used : List TrackerKey) (entries : InsertionMap TrackerKey TrackerState) : Prop :=
  ∀ key, (entries.get? key).isSome = true → key ∈ used

variable {entries : InsertionMap TrackerKey TrackerState}

theorem Within.length_le (hwithin : Within used entries) :
    entries.entries.length ≤ (distinct used).length := by
  have hsub : entries.keys ⊆ distinct used := fun key hkey =>
    mem_distinct.mpr (hwithin key (InsertionMap.mem_keys.mp hkey))
  have hlength := (List.subperm_of_subset entries.nodup hsub).length_le
  rwa [List.length_map] at hlength

theorem Within.setDefault {event : Event} (hwithin : Within used entries)
    (hevent : event.key ∈ used) : Within used (setDefault entries event) := by
  intro key hkey
  rw [get?_setDefault] at hkey
  split at hkey
  next heq => exact heq ▸ hevent
  next => exact hwithin key hkey

/-- Where all states are kept, an event adds its key only. -/
theorem Within.record {tracker : Tracker} {event : Event}
    (hmax : (distinct used).length ≤ trackerMaxEntries) (hwithin : Within used tracker.entries)
    (hevent : event.key ∈ used) : Within used (record tracker event).2.entries := by
  have hdefault := hwithin.setDefault hevent
  have hswept : Within used (sweep tracker event) := by
    unfold sweep
    dsimp only
    split
    · intro key hkey
      rw [get?_evictStaleTrackerEntries (hdefault.length_le.trans hmax)] at hkey
      split at hkey
      · cases hkey
      · exact hdefault key hkey
    · exact hdefault
  unfold Ce4.record
  dsimp only
  split
  · intro key hkey
    rw [InsertionMap.get?_set] at hkey
    split at hkey
    next heq => exact heq ▸ hevent
    next => exact hswept key hkey
  · exact hswept

theorem eventsOf_cons (event : Event) (events : List Event) :
    eventsOf key (event :: events) =
      if event.key = key then event :: eventsOf key events else eventsOf key events := by
  rw [eventsOf, List.filter_cons]
  simp only [decide_eq_true_eq]
  rfl

/-- The next event of the key comes before its state is stale. -/
theorem swept_le_of_live {event final : Event} {last : ℚ} (hclock : Clock (event :: events))
    (hfinal : final ∈ events) (hkey : final.key = key)
    (hlive : Live (some last) (eventsOf key events)) : event.swept - last ≤ trackerTtlSeconds := by
  have hmem : final ∈ eventsOf key events := List.mem_filter.mpr ⟨hfinal, decide_eq_true hkey⟩
  cases hevents : eventsOf key events with
  | nil =>
      rw [hevents] at hmem
      cases hmem
  | cons next rest =>
      rw [hevents] at hlive
      have hnext : next ∈ events := by
        apply List.mem_of_mem_filter
        · exact hevents ▸ List.mem_cons_self
      have hle := (List.pairwise_cons.mp hclock).1 next hnext
      have hgap : next.touched - last ≤ trackerTtlSeconds := hlive.1
      linarith [event.swept_le_touched, next.created_le_swept, next.swept_le_touched]

theorem get?_recordAll {final : Event} (hmax : (distinct used).length ≤ trackerMaxEntries)
    (hkey : final.key = key) {events : List Event} {tracker : Tracker}
    (hused : ∀ event ∈ events, event.key ∈ used) (hwithin : Within used tracker.entries)
    (hclock : Clock (events ++ [final]))
    (hlive : Live ((tracker.entries.get? key).map TrackerState.lastTouched)
      (eventsOf key (events ++ [final]))) :
    (recordAll tracker events).entries.get? key =
      stateAfter (tracker.entries.get? key) (eventsOf key events) := by
  induction events generalizing tracker with
  | nil => rfl
  | cons event events ih =>
      have hevent := hused event List.mem_cons_self
      have hroom := ((hwithin.setDefault hevent).length_le).trans hmax
      have hmem : final ∈ events ++ [final] := List.mem_append_right _ (List.mem_singleton_self _)
      rw [List.cons_append, eventsOf_cons] at hlive
      have hkept : ∀ state, (setDefault tracker.entries event).get? key = some state →
          event.swept - state.lastTouched ≤ trackerTtlSeconds := by
        intro state hstate
        rw [get?_setDefault] at hstate
        by_cases hown : event.key = key
        · rw [if_pos hown] at hlive hstate
          cases hstate
          have hgap := hlive.1
          have hlast : (stateOf (tracker.entries.get? key) event).lastTouched =
              ((tracker.entries.get? key).map TrackerState.lastTouched).getD event.created := by
            cases tracker.entries.get? key <;> rfl
          rw [hlast]
          linarith [event.swept_le_touched]
        · rw [if_neg hown] at hlive hstate
          rw [hstate] at hlive
          exact swept_le_of_live hclock hmem hkey hlive
      have hnext := get?_record (get?_sweep hroom hkept)
      have hrest := ih (fun other hother => hused other (List.mem_cons_of_mem _ hother))
        (hwithin.record hmax hevent) (List.pairwise_cons.mp hclock).2
      rw [hnext] at hrest
      rw [recordAll, List.foldl_cons, ← recordAll, eventsOf_cons]
      by_cases hown : event.key = key
      · rw [if_pos hown] at hlive hrest ⊢
        exact hrest hlive.2
      · rw [if_neg hown] at hlive hrest ⊢
        exact hrest hlive

end Runs

/-! ## Applications -/

def latestProposal (events : List Event) : Option Event :=
  events.reverse.find? fun event => decide (event.operation = .proposal)

/-- A state that was never evicted has all the operations, and the hash of the last proposal. -/
structure Remembers (state : TrackerState) (events : List Event) : Prop where
  operations : ∀ event ∈ events, event.operation ∈ state.seenOperations
  proposal : ∀ proposal ∈ latestProposal events,
    state.proposalSourceBundleHash = proposal.sourceBundleHash

theorem Remembers.touch (hremembers : Remembers state events) (event : Event) :
    Remembers (touch state event) (events ++ [event]) where
  operations other hother := by
    have hseen : other.operation = event.operation ∨ other.operation ∈ state.seenOperations := by
      rcases mem_snoc.mp hother with hbefore | hlast
      · exact Or.inr (hremembers.operations other hbefore)
      · exact Or.inl (congrArg Event.operation hlast)
    unfold Ce4.touch
    dsimp only
    split
    next hmem => exact hseen.elim (fun heq => heq ▸ hmem) id
    next =>
      rw [List.mem_append, List.mem_singleton]
      exact hseen.symm
  proposal proposal hproposal := by
    rw [latestProposal, List.reverse_append, List.reverse_singleton, List.singleton_append,
      List.find?_cons] at hproposal
    unfold Ce4.touch
    dsimp only
    by_cases hlast : event.operation = .proposal
    · rw [decide_eq_true hlast] at hproposal
      rw [if_pos hlast, Option.some.inj hproposal]
    · rw [decide_eq_false hlast] at hproposal
      rw [if_neg hlast]
      exact hremembers.proposal proposal hproposal

theorem stateAfter_remembers (events : List Event) (event : Event) :
    Remembers (stateOf (stateAfter none events) event) events := by
  induction events using List.reverseRecOn with
  | nil =>
      refine ⟨fun event hevent => ?_, fun proposal hproposal => ?_⟩
      · cases hevent
      · cases hproposal
  | append_singleton events last ih =>
      rw [stateAfter, List.foldl_append, ← stateAfter]
      have hbefore : Remembers (stateOf (stateAfter none events) last) events := by
        cases hentry : stateAfter none events with
        | none =>
            rw [hentry] at ih
            exact ⟨ih.operations, ih.proposal⟩
        | some state =>
            rw [hentry] at ih
            exact ih
      exact hbefore.touch last

theorem checkCompleteness_eq_ok_iff {proposal final : Event}
    (hseen : ∀ operation, operation ∈ state.seenOperations) (happly : final.operation = .apply)
    (hproposal : proposal.operation = .proposal)
    (hhash : state.proposalSourceBundleHash = proposal.sourceBundleHash) :
    checkCompleteness state final = .ok () ↔
      final.sourceBundleHash = proposal.sourceBundleHash := by
  have hsome : proposal.sourceBundleHash ≠ none := by
    intro hnone
    have hsourced := proposal.sourced (Or.inl hproposal)
    rw [hnone] at hsourced
    cases hsourced
  have hmissing : (requiredEventSet.filter fun operation =>
      decide (operation ∉ state.seenOperations)) = [] := by
    apply List.filter_eq_nil_iff.mpr
    intro operation _ hnot
    exact of_decide_eq_true hnot (hseen operation)
  unfold checkCompleteness
  rw [hhash]
  split
  next hdiffers =>
    constructor
    · intro hok
      cases hok
    · exact fun heq => absurd heq.symm hdiffers.2.2
  next hagrees =>
    rw [if_neg (not_not.mpr happly), hmissing]
    simp only [if_true, true_iff]
    by_contra hne
    exact hagrees ⟨happly, hsome, fun heq => hne heq.symm⟩

/-- Where a key's events are never more than a day apart, and the others were recorded, an
application is accepted exactly if it has the source of the last proposal. -/
theorem apply_is_accepted_iff (counter : Nat) {before : List Event} {final : Event}
    (hkeys : (distinct ((before ++ [final]).map Event.key)).length ≤ trackerMaxEntries)
    (hclock : Clock (before ++ [final]))
    (hlive : Live none (eventsOf final.key (before ++ [final])))
    (hseen : ∀ operation ∈ [Operation.query, .bundle, .proposal],
      ∃ event ∈ eventsOf final.key before, event.operation = operation)
    (happly : final.operation = .apply) :
    (record (recordAll ⟨.empty, counter⟩ before) final).1 = .ok () ↔
      ∃ proposal ∈ latestProposal (eventsOf final.key before),
        final.sourceBundleHash = proposal.sourceBundleHash := by
  have hentry : (recordAll ⟨.empty, counter⟩ before).entries.get? final.key =
      stateAfter none (eventsOf final.key before) := by
    have hrun := @get?_recordAll ((before ++ [final]).map Event.key) final.key final hkeys rfl before
      ⟨.empty, counter⟩
    apply hrun _ _ hclock hlive
    · intro event hevent
      exact List.mem_map_of_mem (List.mem_append_left _ hevent)
    · intro key hkey
      cases hkey
  have hremembers := stateAfter_remembers (eventsOf final.key before) final
  obtain ⟨proposal, hproposal⟩ : ∃ proposal, latestProposal (eventsOf final.key before) =
      some proposal := by
    apply Option.isSome_iff_exists.mp
    obtain ⟨event, hevent, hoperation⟩ := hseen .proposal (by simp)
    rw [latestProposal, List.find?_isSome]
    exact ⟨event, List.mem_reverse.mpr hevent, decide_eq_true hoperation⟩
  have hoperation : proposal.operation = .proposal := by
    have hfound := hproposal
    unfold latestProposal at hfound
    have hdecided := List.find?_some hfound
    exact of_decide_eq_true hdecided
  have htouched := hremembers.touch final
  have hall : ∀ operation, operation ∈
      (touch (stateOf (stateAfter none (eventsOf final.key before)) final) final).seenOperations := by
    intro operation
    by_cases hfinal : operation = .apply
    · rw [hfinal, ← happly]
      exact htouched.operations final (List.mem_append_right _ (List.mem_singleton_self _))
    · obtain ⟨event, hevent, rfl⟩ := hseen operation (by cases operation <;> simp_all)
      exact htouched.operations event (List.mem_append_left _ hevent)
  have hhash : (touch (stateOf (stateAfter none (eventsOf final.key before)) final)
      final).proposalSourceBundleHash = proposal.sourceBundleHash := by
    have hother : ¬ final.operation = .proposal := by
      rw [happly]
      decide
    rw [← hremembers.proposal proposal hproposal]
    exact if_neg hother
  rw [hproposal]
  simp only [Option.mem_some_iff, exists_eq_left']
  rw [record, hentry]
  exact checkCompleteness_eq_ok_iff hall happly hoperation hhash

namespace OneSession

def key : TrackerKey := ⟨"t1", "d1", "e1", "b1"⟩

/-- An event that takes no time. -/
def event (operation : Operation) (now : ℚ) : Event where
  key := key
  operation := operation
  sourceBundleHash := some "s1"
  created := now
  swept := now
  touched := now
  sourced _ := rfl
  created_le_swept := le_rfl
  swept_le_touched := le_rfl

def before : List Event := [event .query 0, event .bundle 1, event .proposal 86401]

/-- A day and a second after the first event, and a second after the last one. -/
theorem apply_is_accepted_iff_session :
    (record (recordAll ⟨.empty, 0⟩ before) (event .apply 86402)).1 = .ok () := by
  apply (apply_is_accepted_iff 0 (by decide +kernel) _ _ (by decide +kernel) rfl).mpr
  · exact ⟨event .proposal 86401, rfl, rfl⟩
  · unfold Clock
    decide +kernel
  · refine ⟨by decide +kernel, by decide +kernel, by decide +kernel, by decide +kernel, ?_⟩
    trivial

end OneSession

end KjAtlas.Audit.Ce4
