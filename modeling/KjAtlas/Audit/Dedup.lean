import Mathlib.Data.Finset.Card
import Mathlib.Data.Finset.Order
import Mathlib.Tactic.Linarith
import KjAtlas.Audit.Delivery

/-! # Deduplication

Three records have to agree: the queue, the set of keys that wait in it, and the
keys that were sent a moment ago. They do as long as a flush never stops before
a keyed event, a queue without room is never given a keyed event, and no
emission repeats a key that a flush delivered within the window: a flush does
not record the keys that it delivers.
-/

namespace KjAtlas.Audit

open BoundedLog

section Dedup

variable {Key : Type} [DecidableEq Key] {settings : Settings} {emission : Emission Key}
  {dispatcher : Dispatcher Key} {delivered : List (Delivery Key)} {now later : ℚ}

/-! ## The pending keys -/

/-- The pending keys are those that wait, each once. -/
structure Aligned (settings : Settings) (dispatcher : Dispatcher Key) : Prop where
  pending : ∀ key, key ∈ dispatcher.queuedDedupKeys ↔ key ∈ keys dispatcher.queue
  distinct : (keys dispatcher.queue).Nodup
  size : dispatcher.queue.length ≤ settings.maxlen

variable {key : Key} {recent : List (Key × ℚ)}

omit [DecidableEq Key] in
theorem mem_keys_iff {queue : List (Queued Key)} :
    key ∈ keys queue ↔ ∃ item ∈ queue, item.key = some key := List.mem_filterMap

omit [DecidableEq Key] in
theorem keys_append (first second : List (Queued Key)) :
    keys (first ++ second) = keys first ++ keys second := List.filterMap_append

/-- What a flush stops at has no keyed events behind it. -/
def StopsLast (dispatcher : Dispatcher Key) (emission : Emission Key) : Prop :=
  ∀ before item after, dispatcher.queue = before ++ item :: after →
    (∀ other ∈ before, emission.accepts other.event = true) →
      emission.accepts item.event = false → keys after = []

/-- A flush of aligned records: what is delivered leaves the queue with its key, and at most one
event is kept. -/
structure FlushOutcome (settings : Settings) (emission : Emission Key)
    (before after : Dispatcher Key) (flushed : List (Queued Key)) : Prop where
  aligned : Aligned settings after
  recent : after.recentEmitKeys = before.recentEmitKeys
  distinct : (keys flushed ++ keys after.queue).Nodup
  subset : ∀ key ∈ keys flushed ++ keys after.queue, key ∈ keys before.queue

theorem flushQueue_outcome (haligned : Aligned settings dispatcher)
    (hstops : StopsLast dispatcher emission) :
    ∃ flushed, (flushQueue settings emission dispatcher).2 = flushed.map (deliver emission) ∧
      FlushOutcome settings emission dispatcher (flushQueue settings emission dispatcher).1
        flushed := by
  unfold flushQueue
  rcases flushPending_cases settings emission { dispatcher with queue := [] } dispatcher.queue with
    ⟨-, hflush⟩ | ⟨before, item, after, hsplit, hbefore, hrefused, hflush⟩
  · refine ⟨dispatcher.queue, by rw [hflush], ?_⟩
    rw [hflush]
    refine ⟨⟨fun key => ?_, List.nodup_nil, Nat.zero_le _⟩, rfl, ?_, ?_⟩
    · simp [Dispatcher.release, keys, haligned.pending]
    · simpa [Dispatcher.release, keys] using haligned.distinct
    · simp [Dispatcher.release, keys]
  · have hafter := hstops before item after hsplit hbefore hrefused
    have hmaxlen : 0 < settings.maxlen := by
      have hsize := haligned.size
      rw [hsplit, List.length_append, List.length_cons] at hsize
      omega
    have hkeys : keys dispatcher.queue = keys before ++ keys [item] := by
      rw [hsplit, keys_append, ← List.singleton_append, keys_append, hafter, List.append_nil]
    have hqueue : (enqueue settings (Dispatcher.release { dispatcher with queue := [] } before)
        item).queue = [item] := record_of_room hmaxlen
    have hdistinct := haligned.distinct
    rw [hkeys] at hdistinct
    refine ⟨before, by rw [hflush], ?_⟩
    rw [hflush]
    refine ⟨⟨fun key => ?_, ?_, ?_⟩, rfl, ?_, ?_⟩
    · have hpending := haligned.pending key
      rw [hkeys, List.mem_append] at hpending
      have hrest : key ∈ keys [item] → key ∉ keys before := by
        intro hitem hmem
        exact (List.nodup_append.mp hdistinct).2.2 key hmem key hitem rfl
      have hpendingKeys : key ∈ (enqueue settings
          (Dispatcher.release { dispatcher with queue := [] } before) item).queuedDedupKeys ↔
            key ∈ keys [item] ∨ key ∈ dispatcher.queuedDedupKeys ∧ key ∉ keys before := by
        have hrecord : record settings.maxlen [] item = [item] := record_of_room hmaxlen
        simp only [enqueue, Dispatcher.release, hrecord]
        cases hkey : item.key <;> simp [addKey, keys, hkey]
      rw [hpendingKeys, hqueue, hpending]
      tauto
    · rw [hqueue]
      exact (List.nodup_append.mp hdistinct).2.1
    · rw [hqueue]
      exact hmaxlen
    · rw [hqueue]
      exact hdistinct
    · rw [hqueue, hkeys]
      exact fun key hkey => hkey

/-- An event with a new key, or without one, can wait if there is room for its key. -/
theorem Aligned.enqueue (haligned : Aligned settings dispatcher) {item : Queued Key}
    (hnew : ∀ key, item.key = some key → key ∉ keys dispatcher.queue)
    (hroom : settings.maxlen = 0 → item.key = none) :
    Aligned settings (enqueue settings dispatcher item) := by
  have hsublist : (keys (record settings.maxlen dispatcher.queue item)).Sublist
      (keys dispatcher.queue ++ keys [item]) := by
    rw [← keys_append, record_eq_drop]
    exact (List.drop_sublist _ _).filterMap _
  have hnodup : (keys dispatcher.queue ++ keys [item]).Nodup := by
    refine List.Nodup.append haligned.distinct ?_ ?_
    · cases hkey : item.key <;> simp [keys, hkey]
    · intro key hmem hitem
      obtain ⟨other, hother, hkey⟩ := mem_keys_iff.mp hitem
      rw [List.mem_singleton.mp hother] at hkey
      exact hnew key hkey hmem
  refine ⟨fun key => ?_, hsublist.nodup hnodup, length_record_le⟩
  -- The keys before the comparison with the queue.
  obtain ⟨pendingKeys, hpendingKeys, hpending⟩ : ∃ pendingKeys : Finset Key,
      addKey item.key dispatcher.queuedDedupKeys = pendingKeys ∧
      ∀ key, key ∈ pendingKeys ↔ key ∈ keys dispatcher.queue ++ keys [item] := by
    refine ⟨_, rfl, fun key => ?_⟩
    rw [List.mem_append, ← haligned.pending]
    cases hkey : item.key with
    | none => simp [addKey, keys, hkey]
    | some other => simp [addKey, keys, hkey, or_comm]
  rw [Audit.enqueue, hpendingKeys]
  dsimp only
  split
  next hdropped =>
    rw [Finset.mem_filter, hpending]
    exact ⟨fun hboth => hboth.2, fun hmem => ⟨hsublist.subset hmem, hmem⟩⟩
  next hkept =>
    rw [hpending]
    have hsize := haligned.size
    rcases Nat.lt_or_ge dispatcher.queue.length settings.maxlen with hfits | hfull
    · rw [record_of_room hfits, keys_append]
    · -- Nothing gives way only where nothing can wait.
      have hlength : (record settings.maxlen dispatcher.queue item).length = settings.maxlen := by
        rw [record_eq_drop, List.length_drop, List.length_append, List.length_singleton]
        omega
      have hempty : settings.maxlen = 0 := by
        by_contra hpositive
        refine hkept ?_
        rw [hlength, Bool.and_eq_true, decide_eq_true_eq, decide_eq_true_eq]
        omega
      have hqueue : dispatcher.queue = [] := List.length_eq_zero_iff.mp (by omega)
      have hrecord : record settings.maxlen dispatcher.queue item = [] :=
        List.length_eq_zero_iff.mp (by omega)
      rw [hrecord, hqueue]
      simp [keys, hroom hempty]

/-! ## Recent keys -/

/-- The keys of the entries are different. -/
def UniqueKeys (recent : List (Key × ℚ)) : Prop := (recent.map Prod.fst).Nodup

variable {time : ℚ}

theorem mem_moveToEnd {entry : Key × ℚ} :
    entry ∈ moveToEnd key time recent ↔ entry ∈ recent ∧ entry.1 ≠ key ∨ entry = (key, time) := by
  simp [moveToEnd]

theorem UniqueKeys.moveToEnd (hunique : UniqueKeys recent) (key : Key) (time : ℚ) :
    UniqueKeys (moveToEnd key time recent) := by
  unfold UniqueKeys Audit.moveToEnd
  rw [List.map_append, List.map_singleton]
  refine List.Nodup.append ((List.filter_sublist.map _).nodup hunique) (List.nodup_singleton _) ?_
  intro other hother hkey
  obtain ⟨entry, hentry, rfl⟩ := List.mem_map.mp hother
  exact absurd (List.mem_singleton.mp hkey) (of_decide_eq_true (List.mem_filter.mp hentry).2)

/-- Every recent entry tells of a direct delivery. -/
def Remembers (recent : List (Key × ℚ)) (delivered : List (Delivery Key)) : Prop :=
  ∀ entry ∈ recent, ∃ delivery ∈ delivered, delivery.byFlush = false ∧
    delivery.key = some entry.1 ∧ delivery.time = entry.2

def withinWindow (settings : Settings) (now : ℚ) (recent : List (Key × ℚ)) : List (Key × ℚ) :=
  recent.filter fun entry => decide (now - entry.2 < settings.window)

/-- The lookup of a key drops expired entries, unless there is no window. -/
theorem isRecentDuplicate_cases (settings : Settings) (now : ℚ) (key : Key)
    (dispatcher : Dispatcher Key) :
    (settings.window ≤ 0 ∧ isRecentDuplicate settings now key dispatcher = (false, dispatcher)) ∨
    0 < settings.window ∧
      ((key ∉ (withinWindow settings now dispatcher.recentEmitKeys).map Prod.fst ∧
        isRecentDuplicate settings now key dispatcher = (false,
          { dispatcher with
            recentEmitKeys := withinWindow settings now dispatcher.recentEmitKeys })) ∨
      ∃ time, (key, time) ∈ withinWindow settings now dispatcher.recentEmitKeys ∧
        isRecentDuplicate settings now key dispatcher = (true,
          { dispatcher with
            recentEmitKeys :=
              moveToEnd key time (withinWindow settings now dispatcher.recentEmitKeys) })) := by
  unfold isRecentDuplicate
  split
  next hclosed => exact .inl ⟨hclosed, rfl⟩
  next hopen =>
    refine .inr ⟨not_le.mp hopen, ?_⟩
    dsimp only
    split
    next hnone =>
      refine .inl ⟨?_, rfl⟩
      rw [List.mem_map]
      rintro ⟨entry, hentry, hkey⟩
      exact List.find?_eq_none.mp hnone entry hentry (decide_eq_true hkey)
    next entry hsome =>
      obtain ⟨found, time⟩ := entry
      have hkey : found = key := by simpa using List.find?_some hsome
      subst hkey
      exact .inr ⟨time, List.mem_of_find?_eq_some hsome, rfl⟩

/-! ## Spacing -/

/-- Deliveries of one key are a window apart, and stay so: what is remembered tells the last direct
delivery of every key within the window, and what waits has no delivery within the window. -/
structure Spaced (settings : Settings) (dispatcher : Dispatcher Key)
    (delivered : List (Delivery Key)) (now : ℚ) : Prop where
  past : ∀ delivery ∈ delivered, delivery.time ≤ now
  remembered : ∀ delivery ∈ delivered, delivery.byFlush = false → ∀ key, delivery.key = some key →
    (∃ time, (key, time) ∈ dispatcher.recentEmitKeys ∧ delivery.time ≤ time) ∨
      delivery.time + settings.window ≤ now
  waiting : ∀ key ∈ keys dispatcher.queue, ∀ delivery ∈ delivered, delivery.key = some key →
    delivery.time + settings.window ≤ now
  unique : UniqueKeys dispatcher.recentEmitKeys
  spaced : delivered.Pairwise fun first second => ∀ key, first.key = some key →
    second.key = some key → first.time + settings.window ≤ second.time

theorem Settings.window_nonneg (settings : Settings) : 0 ≤ settings.window := le_max_right _ _

section

variable (hspaced : Spaced settings dispatcher delivered now)
include hspaced

omit [DecidableEq Key] in
theorem Spaced.mono (hlater : now ≤ later) : Spaced settings dispatcher delivered later := by
  refine { hspaced with past := ?_, remembered := ?_, waiting := ?_ }
  · exact fun delivery hdelivery => (hspaced.past delivery hdelivery).trans hlater
  · intro delivery hdelivery hdirect key hkey
    exact (hspaced.remembered delivery hdelivery hdirect key hkey).imp_right (le_trans · hlater)
  · exact fun key hkey delivery hdelivery hsame =>
      (hspaced.waiting key hkey delivery hdelivery hsame).trans hlater

omit [DecidableEq Key] in
/-- Expired entries need not be remembered. -/
theorem Spaced.withinWindow :
    Spaced settings { dispatcher with
      recentEmitKeys := withinWindow settings now dispatcher.recentEmitKeys } delivered now := by
  refine { hspaced with remembered := ?_, unique := ?_ }
  · intro delivery hdelivery hdirect key hkey
    rcases hspaced.remembered delivery hdelivery hdirect key hkey with ⟨time, hmem, hle⟩ | hpast
    · by_cases hrecent : now - time < settings.window
      · exact .inl ⟨time, List.mem_filter.mpr ⟨hmem, decide_eq_true hrecent⟩, hle⟩
      · right
        linarith [not_lt.mp hrecent]
    · exact .inr hpast
  · exact (List.filter_sublist.map _).nodup hspaced.unique

/-- A key that is found keeps its entry. -/
theorem Spaced.moveToEnd (hmem : (key, time) ∈ dispatcher.recentEmitKeys) :
    Spaced settings { dispatcher with
      recentEmitKeys := moveToEnd key time dispatcher.recentEmitKeys } delivered now := by
  refine { hspaced with remembered := ?_, unique := hspaced.unique.moveToEnd key time }
  intro delivery hdelivery hdirect other hkey
  refine (hspaced.remembered delivery hdelivery hdirect other hkey).imp_left ?_
  rintro ⟨found, hfound, hle⟩
  by_cases hsame : other = key
  · subst hsame
    refine ⟨time, mem_moveToEnd.mpr (.inr rfl), ?_⟩
    have heq := List.inj_on_of_nodup_map hspaced.unique hfound hmem rfl
    rw [Prod.mk.injEq] at heq
    exact heq.2 ▸ hle
  · exact ⟨found, mem_moveToEnd.mpr (.inl ⟨hfound, hsame⟩), hle⟩

omit [DecidableEq Key] in
theorem Spaced.flush
    (htimes : ∀ event, now ≤ emission.acceptedAt event ∧ emission.acceptedAt event ≤ later)
    {after : Dispatcher Key} {flushed : List (Queued Key)}
    (houtcome : FlushOutcome settings emission dispatcher after flushed) (hlater : now ≤ later) :
    Spaced settings after (delivered ++ flushed.map (deliver emission)) later := by
  have hkeyOf : ∀ delivery ∈ flushed.map (deliver emission), ∀ key, delivery.key = some key →
      key ∈ keys flushed := by
    intro delivery hdelivery key hkey
    obtain ⟨item, hitem, rfl⟩ := List.mem_map.mp hdelivery
    exact mem_keys_iff.mpr ⟨item, hitem, hkey⟩
  obtain ⟨hflushedNodup, -, hseparate⟩ := List.nodup_append.mp houtcome.distinct
  have hmono := hspaced.mono hlater
  refine ⟨?_, ?_, ?_, ?_, ?_⟩
  · intro delivery hdelivery
    rcases List.mem_append.mp hdelivery with hold | hnew
    · exact hmono.past delivery hold
    · obtain ⟨item, -, rfl⟩ := List.mem_map.mp hnew
      exact (htimes item.event).2
  · intro delivery hdelivery hdirect key hkey
    rcases List.mem_append.mp hdelivery with hold | hnew
    · rw [houtcome.recent]
      exact hmono.remembered delivery hold hdirect key hkey
    · obtain ⟨item, -, rfl⟩ := List.mem_map.mp hnew
      cases hdirect
  · intro key hkey delivery hdelivery hsame
    rcases List.mem_append.mp hdelivery with hold | hnew
    · exact hmono.waiting key (houtcome.subset key (List.mem_append_right _ hkey)) delivery hold
        hsame
    · exact absurd rfl (hseparate key (hkeyOf delivery hnew key hsame) key hkey)
  · rw [houtcome.recent]
    exact hspaced.unique
  · rw [List.pairwise_append]
    refine ⟨hspaced.spaced, ?_, ?_⟩
    · -- No two events of one flush have the same key.
      rw [List.pairwise_map]
      refine (List.pairwise_filterMap.mp hflushedNodup).imp fun {first second} hne key hfirst
        hsecond => ?_
      exact absurd rfl (hne key hfirst key hsecond)
    · intro first hfirst second hsecond key hkey hsame
      have hwaits := hspaced.waiting key
        (houtcome.subset key (List.mem_append_left _ (hkeyOf second hsecond key hsame))) first
        hfirst hkey
      obtain ⟨item, -, rfl⟩ := List.mem_map.mp hsecond
      exact hwaits.trans (htimes item.event).1

omit [DecidableEq Key] in
/-- An event without a key needs no space. -/
theorem Spaced.direct_none (event : AuditEvent) :
    Spaced settings dispatcher (delivered ++ [⟨event, none, now, false⟩]) now := by
  refine ⟨?_, ?_, ?_, hspaced.unique, ?_⟩
  · intro delivery hdelivery
    rcases mem_snoc.mp hdelivery with hold | hnew
    · exact hspaced.past delivery hold
    · rw [hnew]
  · intro delivery hdelivery hdirect key hkey
    rcases mem_snoc.mp hdelivery with hold | hnew
    · exact hspaced.remembered delivery hold hdirect key hkey
    · rw [hnew] at hkey
      cases hkey
  · intro key hkey delivery hdelivery hsame
    rcases mem_snoc.mp hdelivery with hold | hnew
    · exact hspaced.waiting key hkey delivery hold hsame
    · rw [hnew] at hsame
      cases hsame
  · rw [List.pairwise_append]
    refine ⟨hspaced.spaced, List.pairwise_singleton _ _, ?_⟩
    intro first _ second hsecond key _ hkey
    rw [List.mem_singleton.mp hsecond] at hkey
    cases hkey

end

/-- What recording a key does: nothing else is forgotten while there is room. -/
theorem recordEmittedKey_spec (hunique : UniqueKeys dispatcher.recentEmitKeys) (key : Key)
    (now : ℚ) :
    UniqueKeys (recordEmittedKey now key dispatcher).recentEmitKeys ∧
      ((dispatcher.recentEmitKeys.filter fun entry => decide (entry.1 ≠ key)).length <
        recentEmitMax →
          (recordEmittedKey now key dispatcher).recentEmitKeys =
            moveToEnd key now dispatcher.recentEmitKeys) := by
  have hunique := hunique.moveToEnd key now
  have hlength : (moveToEnd key now dispatcher.recentEmitKeys).length =
      (dispatcher.recentEmitKeys.filter fun entry => decide (entry.1 ≠ key)).length + 1 := by
    rw [moveToEnd, List.length_append, List.length_singleton]
  unfold recordEmittedKey
  dsimp only
  generalize recentEmitMax = limit
  refine ⟨((List.drop_sublist _ _).map _).nodup hunique, fun hfew => ?_⟩
  rw [Nat.sub_eq_zero_of_le (hlength ▸ hfew), List.drop_zero]

/-- An event whose key has no delivery within the window can be sent. Its key is recorded, and
nothing within the window is forgotten for it. -/
theorem Spaced.direct_some (hspaced : Spaced settings dispatcher delivered now) (event : AuditEvent)
    (hwaits : key ∉ keys dispatcher.queue)
    (hfree : ∀ delivery ∈ delivered, delivery.key = some key →
      delivery.time + settings.window ≤ now) (hfew : 0 < settings.window →
      (dispatcher.recentEmitKeys.filter fun entry => decide (entry.1 ≠ key)).length <
        recentEmitMax) :
    Spaced settings (recordEmittedKey now key dispatcher)
      (delivered ++ [⟨event, some key, now, false⟩]) now := by
  obtain ⟨hunique, hkept⟩ := recordEmittedKey_spec hspaced.unique key now
  have hqueue := queue_recordEmittedKey now key dispatcher
  generalize recordEmittedKey now key dispatcher = next at hunique hkept hqueue
  have hpast : ∀ delivery ∈ delivered ++ [⟨event, some key, now, false⟩], delivery.time ≤ now := by
    intro delivery hdelivery
    rcases mem_snoc.mp hdelivery with hold | hnew
    · exact hspaced.past delivery hold
    · rw [hnew]
  refine ⟨hpast, ?_, ?_, hunique, ?_⟩
  · intro delivery hdelivery hdirect other hkey
    rcases settings.window_nonneg.eq_or_lt with hclosed | hopen
    · right
      rw [← hclosed, add_zero]
      exact hpast delivery hdelivery
    · rw [hkept (hfew hopen)]
      by_cases hsame : other = key
      · subst hsame
        exact .inl ⟨now, mem_moveToEnd.mpr (.inr rfl), hpast delivery hdelivery⟩
      · rcases mem_snoc.mp hdelivery with hold | hnew
        · refine (hspaced.remembered delivery hold hdirect other hkey).imp_left ?_
          rintro ⟨time, hmem, hle⟩
          exact ⟨time, mem_moveToEnd.mpr (.inl ⟨hmem, hsame⟩), hle⟩
        · rw [hnew, Option.some.injEq] at hkey
          exact absurd hkey.symm hsame
  · intro other hother delivery hdelivery hsame
    rw [hqueue] at hother
    rcases mem_snoc.mp hdelivery with hold | hnew
    · exact hspaced.waiting other hother delivery hold hsame
    · rw [hnew, Option.some.injEq] at hsame
      exact absurd (hsame ▸ hother) hwaits
  · rw [List.pairwise_append]
    refine ⟨hspaced.spaced, List.pairwise_singleton _ _, ?_⟩
    intro first hfirst second hsecond other hkey hsame
    rw [List.mem_singleton.mp hsecond] at hsame ⊢
    rw [Option.some.injEq] at hsame
    exact hfree first hfirst (hsame ▸ hkey)

/-- An event whose key has no delivery within the window can wait. -/
theorem Spaced.enqueue (hspaced : Spaced settings dispatcher delivered now) {item : Queued Key}
    (hfree : ∀ key, item.key = some key → ∀ delivery ∈ delivered, delivery.key = some key →
      delivery.time + settings.window ≤ now) :
    Spaced settings (enqueue settings dispatcher item) delivered now := by
  refine { hspaced with waiting := ?_ }
  intro key hkey
  obtain ⟨other, hother, hkey⟩ := mem_keys_iff.mp hkey
  have hmem : other ∈ dispatcher.queue ++ [item] := by
    rw [queue_enqueue, record_eq_drop] at hother
    exact List.mem_of_mem_drop hother
  rcases mem_snoc.mp hmem with hold | hnew
  · exact hspaced.waiting key (mem_keys_iff.mpr ⟨other, hold, hkey⟩)
  · rw [hnew] at hkey
    exact hfree key hkey

/-! ## Emissions -/

theorem flushQueue_of_empty (hempty : dispatcher.queue = []) :
    flushQueue settings emission dispatcher = (dispatcher, []) := by
  unfold flushQueue
  rw [hempty, flushPending, ← hempty]

theorem sendEvent_cases (settings : Settings) (emission : Emission Key)
    (dispatcher : Dispatcher Key) (event : AuditEvent) :
    (emission.accepts event = true ∧
      (sendEvent settings emission event dispatcher).1.delivered =
        (flushQueue settings emission dispatcher).2 ++
          [⟨event, emission.dedupKey, emission.recordedAt, false⟩] ∧
      ((emission.dedupKey = none ∧ (sendEvent settings emission event dispatcher).2 =
          (flushQueue settings emission dispatcher).1) ∨
        ∃ key, emission.dedupKey = some key ∧ (sendEvent settings emission event dispatcher).2 =
          recordEmittedKey emission.recordedAt key
            (flushQueue settings emission dispatcher).1)) ∨
    emission.accepts event = false ∧
      (sendEvent settings emission event dispatcher).1.delivered =
        (flushQueue settings emission dispatcher).2 ∧
      (sendEvent settings emission event dispatcher).2 =
        enqueue settings (flushQueue settings emission dispatcher).1 ⟨event, emission.dedupKey⟩ := by
  have hflush : (if dispatcher.queue = [] then (dispatcher, []) else
      flushQueue settings emission dispatcher) = flushQueue settings emission dispatcher := by
    split
    next hempty => rw [flushQueue_of_empty hempty]
    next => rfl
  unfold sendEvent
  rw [hflush]
  cases haccepts : emission.accepts event with
  | false => exact .inr ⟨rfl, rfl, rfl⟩
  | true =>
      refine .inl ⟨rfl, rfl, ?_⟩
      cases hkey : emission.dedupKey with
      | none => exact .inl ⟨rfl, rfl⟩
      | some key => exact .inr ⟨key, rfl, rfl⟩

omit [DecidableEq Key] in
theorem Remembers.append (hremembers : Remembers recent delivered) (new : List (Delivery Key)) :
    Remembers recent (delivered ++ new) := by
  intro entry hentry
  obtain ⟨delivery, hdelivery, htells⟩ := hremembers entry hentry
  exact ⟨delivery, List.mem_append_left _ hdelivery, htells⟩

theorem Remembers.recordEmittedKey (hremembers : Remembers dispatcher.recentEmitKeys delivered)
    {delivery : Delivery Key} (hdelivery : delivery ∈ delivered)
    (hdirect : delivery.byFlush = false) (hkey : delivery.key = some key)
    (htime : delivery.time = time) :
    Remembers (recordEmittedKey time key dispatcher).recentEmitKeys delivered := by
  intro entry hentry
  unfold Audit.recordEmittedKey at hentry
  rcases mem_moveToEnd.mp (List.mem_of_mem_drop hentry) with ⟨hold, -⟩ | rfl
  · exact hremembers entry hold
  · exact ⟨delivery, hdelivery, hdirect, hkey, htime⟩

theorem Aligned.recordEmittedKey (haligned : Aligned settings dispatcher) (time : ℚ) (key : Key) :
    Aligned settings (recordEmittedKey time key dispatcher) := by
  unfold Audit.recordEmittedKey
  exact ⟨haligned.pending, haligned.distinct, haligned.size⟩

theorem sendEvent_recorded (haligned : Aligned settings dispatcher)
    (hremembers : Remembers dispatcher.recentEmitKeys delivered)
    (hstops : StopsLast dispatcher emission) {event : AuditEvent}
    (hnew : ∀ key, emission.dedupKey = some key → key ∉ keys dispatcher.queue)
    (hroom : settings.maxlen = 0 → emission.dedupKey = none ∨ emission.accepts event = true) :
    Aligned settings (sendEvent settings emission event dispatcher).2 ∧
      Remembers (sendEvent settings emission event dispatcher).2.recentEmitKeys
        (delivered ++ (sendEvent settings emission event dispatcher).1.delivered) := by
  obtain ⟨flushed, -, houtcome⟩ := flushQueue_outcome haligned hstops
  have hremembers' : Remembers (flushQueue settings emission dispatcher).1.recentEmitKeys
      delivered := by
    rw [houtcome.recent]
    exact hremembers
  rcases sendEvent_cases settings emission dispatcher event with
    ⟨-, hdelivered, ⟨-, hnext⟩ | ⟨key, hkey, hnext⟩⟩ | ⟨hrefused, hdelivered, hnext⟩
  · rw [hdelivered, hnext]
    exact ⟨houtcome.aligned, hremembers'.append _⟩
  · rw [hdelivered, hnext, hkey]
    have hdirect : (⟨event, some key, emission.recordedAt, false⟩ : Delivery Key) ∈
        delivered ++ ((flushQueue settings emission dispatcher).2 ++
          [⟨event, some key, emission.recordedAt, false⟩]) := by simp
    exact ⟨houtcome.aligned.recordEmittedKey _ _,
      (hremembers'.append _).recordEmittedKey hdirect rfl rfl rfl⟩
  · rw [hdelivered, hnext]
    refine ⟨houtcome.aligned.enqueue ?_ ?_, hremembers'.append _⟩
    · intro key hkey hmem
      exact hnew key hkey (houtcome.subset key (List.mem_append_right _ hmem))
    · intro hempty
      refine (hroom hempty).resolve_right ?_
      rw [hrefused]
      exact Bool.false_ne_true

theorem sendEvent_spaced (haligned : Aligned settings dispatcher)
    (hstops : StopsLast dispatcher emission) (hspaced : Spaced settings dispatcher delivered now)
    (htimes : ∀ event, now ≤ emission.acceptedAt event ∧
      emission.acceptedAt event ≤ emission.recordedAt) {event : AuditEvent}
    (hnew : ∀ key, emission.dedupKey = some key → key ∉ keys dispatcher.queue)
    (hfree : ∀ key, emission.dedupKey = some key → ∀ delivery ∈ delivered,
      delivery.key = some key → delivery.time + settings.window ≤ now)
    (hfew : 0 < settings.window → ∀ key, emission.dedupKey = some key →
      (dispatcher.recentEmitKeys.filter fun entry => decide (entry.1 ≠ key)).length <
        recentEmitMax) :
    Spaced settings (sendEvent settings emission event dispatcher).2
      (delivered ++ (sendEvent settings emission event dispatcher).1.delivered)
      emission.recordedAt := by
  obtain ⟨flushed, hflushed, houtcome⟩ := flushQueue_outcome haligned hstops
  have hlater : now ≤ emission.recordedAt := (htimes event).1.trans (htimes event).2
  have hflush := hspaced.flush htimes houtcome hlater
  rw [← hflushed] at hflush
  have hkept : ∀ key, emission.dedupKey = some key →
      key ∉ keys (flushQueue settings emission dispatcher).1.queue := by
    intro key hkey hmem
    exact hnew key hkey (houtcome.subset key (List.mem_append_right _ hmem))
  -- The flush delivers no event with the key of the new one.
  have hfree' : ∀ key, emission.dedupKey = some key →
      ∀ delivery ∈ delivered ++ (flushQueue settings emission dispatcher).2,
        delivery.key = some key → delivery.time + settings.window ≤ emission.recordedAt := by
    intro key hkey delivery hdelivery hsame
    rcases List.mem_append.mp hdelivery with hold | hmem
    · exact (hfree key hkey delivery hold hsame).trans hlater
    · rw [hflushed] at hmem
      obtain ⟨item, hitem, rfl⟩ := List.mem_map.mp hmem
      refine absurd (houtcome.subset key (List.mem_append_left _ ?_)) (hnew key hkey)
      exact mem_keys_iff.mpr ⟨item, hitem, hsame⟩
  rcases sendEvent_cases settings emission dispatcher event with
    ⟨-, hdelivered, ⟨hkey, hnext⟩ | ⟨key, hkey, hnext⟩⟩ | ⟨-, hdelivered, hnext⟩
  · rw [hdelivered, hnext, hkey, ← List.append_assoc]
    exact hflush.direct_none event
  · rw [hdelivered, hnext, hkey, ← List.append_assoc]
    refine hflush.direct_some event (hkept key hkey) (hfree' key hkey) fun hopen => ?_
    rw [houtcome.recent]
    exact hfew hopen key hkey
  · rw [hdelivered, hnext]
    exact hflush.enqueue hfree'

/-- An emission of a dispatcher that has no trouble with keys: a flush does not stop before a keyed
event, a keyed event is not sent in vain where nothing can wait, and no flush has delivered its key
within the window. -/
structure KeysKept (settings : Settings) (run : Run (Service Key) (Emission Key) (Answer Key))
    (emission : Emission Key) : Prop where
  stops : flushes settings run.state.dispatcher emission = true →
    StopsLast run.state.dispatcher emission
  room : flushes settings run.state.dispatcher emission = true → settings.maxlen = 0 →
    emission.dedupKey = none ∨
      emission.accepts ⟨run.state.emissions, emission.safeMode⟩ = true
  fresh : flushes settings run.state.dispatcher emission = true →
    ∀ key, emission.dedupKey = some key → key ∉ run.state.dispatcher.queuedDedupKeys →
      ∀ delivery ∈ deliveries run.journal, delivery.byFlush = true → delivery.key = some key →
        delivery.time + settings.window ≤ emission.checkedAt

/-- The clock does not go back. -/
structure ClockForward (run : Run (Service Key) (Emission Key) (Answer Key))
    (emission : Emission Key) : Prop where
  starts : ∀ entry ∈ run.journal, entry.1.recordedAt ≤ emission.checkedAt
  sends : ∀ event, emission.checkedAt ≤ emission.acceptedAt event ∧
    emission.acceptedAt event ≤ emission.recordedAt

/-- The keys that were delivered directly less than the window ago. -/
def recentKeys (settings : Settings) (delivered : List (Delivery Key)) (now : ℚ) : Finset Key :=
  ((delivered.filter fun delivery =>
    !delivery.byFlush && decide (now - delivery.time < settings.window)).filterMap
      Delivery.key).toFinset

def FewRecent (settings : Settings) (run : Run (Service Key) (Emission Key) (Answer Key))
    (emission : Emission Key) : Prop :=
  ∀ key, emission.dedupKey = some key →
    ((recentKeys settings (deliveries run.journal) emission.checkedAt).erase key).card <
      recentEmitMax

/-- A suppressed emission repeats a key that was delivered within the window, or still waits. -/
def Justified (settings : Settings) (run : Run (Service Key) (Emission Key) (Answer Key))
    (emission : Emission Key) : Prop :=
  ∀ answer next, serve settings run.state emission = .ok (answer, next) →
    answer.result.reason = some "duplicate" ∨ answer.result.reason = some "queued_pending" →
      ∃ key, emission.dedupKey = some key ∧
        ((∃ delivery ∈ deliveries run.journal, delivery.key = some key ∧
          emission.checkedAt - delivery.time < settings.window) ∨
        ∃ item ∈ run.state.dispatcher.queue, item.key = some key)

/-- The lookup of a key leaves the queue alone, and entries that tell of deliveries. -/
theorem isRecentDuplicate_remembers (settings : Settings) (now : ℚ) (key : Key)
    (hremembers : Remembers dispatcher.recentEmitKeys delivered) :
    Remembers (isRecentDuplicate settings now key dispatcher).2.recentEmitKeys delivered := by
  have hwindow : Remembers (withinWindow settings now dispatcher.recentEmitKeys) delivered :=
    fun entry hentry => hremembers entry (List.mem_filter.mp hentry).1
  rcases isRecentDuplicate_cases settings now key dispatcher with
    ⟨-, hresult⟩ | ⟨-, ⟨-, hresult⟩ | ⟨time, hmem, hresult⟩⟩
  · rw [hresult]
    exact hremembers
  · rw [hresult]
    exact hwindow
  · rw [hresult]
    intro entry hentry
    rcases mem_moveToEnd.mp hentry with ⟨hold, -⟩ | rfl
    · exact hwindow entry hold
    · exact hwindow _ hmem

/-- Pending keys are those that wait, and recent keys tell of deliveries. -/
structure Recorded (settings : Settings) (run : Run (Service Key) (Emission Key) (Answer Key)) :
    Prop where
  aligned : Aligned settings run.state.dispatcher
  remembers : Remembers run.state.dispatcher.recentEmitKeys (deliveries run.journal)

section Step

variable {run : Run (Service Key) (Emission Key) (Answer Key)} {answer : Answer Key}
  {next : Service Key} {found : Dispatcher Key}

omit [DecidableEq Key] in
theorem aligned_of_lookup (haligned : Aligned settings dispatcher)
    (hqueue : found.queue = dispatcher.queue)
    (hkeys : found.queuedDedupKeys = dispatcher.queuedDedupKeys) : Aligned settings found := by
  constructor
  · rw [hqueue, hkeys]
    exact haligned.pending
  · rw [hqueue]
    exact haligned.distinct
  · rw [hqueue]
    exact haligned.size

theorem Recorded.emit (hrecorded : Recorded settings run) (hkept : KeysKept settings run emission)
    (hserve : serve settings run.state emission = .ok (answer, next)) :
    Recorded settings ⟨run.journal ++ [(emission, answer)], next⟩ := by
  obtain ⟨haligned, hremembers⟩ := hrecorded
  simp only [serve, Except.ok.injEq, Prod.mk.injEq] at hserve
  obtain ⟨rfl, rfl⟩ := hserve
  suffices hsuffices : Aligned settings (Audit.emit settings emission
        ⟨run.state.emissions, emission.safeMode⟩ run.state.dispatcher).2 ∧
      Remembers (Audit.emit settings emission ⟨run.state.emissions, emission.safeMode⟩
        run.state.dispatcher).2.recentEmitKeys (deliveries run.journal ++
          (Audit.emit settings emission ⟨run.state.emissions, emission.safeMode⟩
            run.state.dispatcher).1.delivered) by
    refine ⟨hsuffices.1, ?_⟩
    rw [deliveries_concat]
    exact hsuffices.2
  rcases emit_cases settings emission run.state.dispatcher
    ⟨run.state.emissions, emission.safeMode⟩ rfl with
    ⟨reason, -, hemit⟩ | ⟨hflushes, key, -, -, hemit⟩ | ⟨key, found, -, hrecent, hemit⟩ |
      ⟨hflushes, found, hemit, hfound⟩
  · rw [hemit]
    exact ⟨haligned, hremembers.append []⟩
  · obtain ⟨flushed, -, houtcome⟩ := flushQueue_outcome haligned (hkept.stops hflushes)
    rw [hemit]
    refine ⟨houtcome.aligned, ?_⟩
    rw [houtcome.recent]
    exact hremembers.append _
  · have hlookup := isRecentDuplicate_queue settings emission.checkedAt key run.state.dispatcher
    have htells := isRecentDuplicate_remembers settings emission.checkedAt key hremembers
    rw [hrecent] at hlookup htells
    rw [hemit]
    exact ⟨aligned_of_lookup haligned hlookup.1 hlookup.2, htells.append []⟩
  · have hlookup : found.queue = run.state.dispatcher.queue ∧
        found.queuedDedupKeys = run.state.dispatcher.queuedDedupKeys ∧
        Remembers found.recentEmitKeys (deliveries run.journal) := by
      rcases hfound with ⟨-, rfl⟩ | ⟨key, -, -, hrecent⟩
      · exact ⟨rfl, rfl, hremembers⟩
      · have hlookup :=
          isRecentDuplicate_queue settings emission.checkedAt key run.state.dispatcher
        have htells := isRecentDuplicate_remembers settings emission.checkedAt key hremembers
        rw [hrecent] at hlookup htells
        exact ⟨hlookup.1, hlookup.2, htells⟩
    obtain ⟨hqueue, hkeys, htells⟩ := hlookup
    rw [hemit]
    refine sendEvent_recorded (aligned_of_lookup haligned hqueue hkeys) htells ?_ ?_ ?_
    · rw [StopsLast, hqueue]
      exact hkept.stops hflushes
    · intro key hkey
      rcases hfound with ⟨hnone, -⟩ | ⟨other, hother, hnew, -⟩
      · rw [hnone] at hkey
        cases hkey
      · rw [hother, Option.some.injEq] at hkey
        subst hkey
        rw [hqueue, ← haligned.pending]
        exact hnew
    · exact hkept.room hflushes

theorem Recorded.justified (hrecorded : Recorded settings run) (emission : Emission Key) :
    Justified settings run emission := by
  intro answer next hserve hreason
  simp only [serve, Except.ok.injEq, Prod.mk.injEq] at hserve
  obtain ⟨rfl, -⟩ := hserve
  rcases emit_cases settings emission run.state.dispatcher
    ⟨run.state.emissions, emission.safeMode⟩ rfl with
    ⟨reason, hmem, hemit⟩ | ⟨-, key, hkey, hpending, hemit⟩ | ⟨key, found, hkey, hrecent, hemit⟩ |
      ⟨-, found, hemit, -⟩
  · rw [hemit] at hreason
    simp only [List.mem_cons, List.not_mem_nil, or_false] at hmem
    rcases hmem with rfl | rfl <;> simp at hreason
  · rw [hrecorded.aligned.pending] at hpending
    exact ⟨key, hkey, .inr (mem_keys_iff.mp hpending)⟩
  · refine ⟨key, hkey, .inl ?_⟩
    rcases isRecentDuplicate_cases settings emission.checkedAt key run.state.dispatcher with
      ⟨-, hresult⟩ | ⟨-, ⟨-, hresult⟩ | ⟨time, hmem, -⟩⟩
    · rw [hresult] at hrecent
      cases hrecent
    · rw [hresult] at hrecent
      cases hrecent
    · obtain ⟨hentry, hwithin⟩ := List.mem_filter.mp hmem
      obtain ⟨delivery, hdelivery, -, hsame, htime⟩ := hrecorded.remembers _ hentry
      exact ⟨delivery, hdelivery, hsame, htime ▸ of_decide_eq_true hwithin⟩
  · rw [hemit] at hreason
    unfold sendEvent at hreason
    dsimp only at hreason
    split at hreason <;> simp at hreason

theorem FewRecent.length_lt (hfew : FewRecent settings run emission)
    (hkey : emission.dedupKey = some key) (hunique : UniqueKeys recent)
    (hrecent : ∀ entry ∈ recent, ∃ delivery ∈ deliveries run.journal, delivery.byFlush = false ∧
      delivery.key = some entry.1 ∧ emission.checkedAt - delivery.time < settings.window) :
    (recent.filter fun entry => decide (entry.1 ≠ key)).length < recentEmitMax := by
  refine lt_of_le_of_lt ?_ (hfew key hkey)
  have hnodup : ((recent.filter fun entry => decide (entry.1 ≠ key)).map Prod.fst).Nodup :=
    (List.filter_sublist.map _).nodup hunique
  rw [← List.length_map Prod.fst, ← List.toFinset_card_of_nodup hnodup]
  apply Finset.card_le_card
  intro other hother
  obtain ⟨entry, hentry, rfl⟩ := List.mem_map.mp (List.mem_toFinset.mp hother)
  obtain ⟨hmem, hne⟩ := List.mem_filter.mp hentry
  obtain ⟨delivery, hdelivery, hdirect, hsame, hwithin⟩ := hrecent entry hmem
  rw [Finset.mem_erase, recentKeys, List.mem_toFinset, List.mem_filterMap]
  refine ⟨of_decide_eq_true hne, delivery, List.mem_filter.mpr ⟨hdelivery, ?_⟩, hsame⟩
  simp [hdirect, hwithin]

theorem Spaced.free_of_lookup (hspaced : Spaced settings dispatcher delivered now)
    (hlookup : isRecentDuplicate settings now key dispatcher =
      (false, found)) : ∀ delivery ∈ delivered, delivery.byFlush = false →
        delivery.key = some key → delivery.time + settings.window ≤ now := by
  intro delivery hdelivery hdirect hkey
  rcases isRecentDuplicate_cases settings now key dispatcher with
    ⟨hclosed, -⟩ | ⟨-, ⟨habsent, -⟩ | ⟨time, -, hresult⟩⟩
  · rw [le_antisymm hclosed settings.window_nonneg, add_zero]
    exact hspaced.past delivery hdelivery
  · rcases hspaced.remembered delivery hdelivery hdirect key hkey with ⟨time, hmem, hle⟩ | hpast
    · have hexpired : settings.window ≤ now - time := by
        by_contra hrecent
        refine habsent (List.mem_map_of_mem (f := Prod.fst) (a := (key, time)) ?_)
        exact List.mem_filter.mpr ⟨hmem, decide_eq_true (not_le.mp hrecent)⟩
      linarith
    · exact hpast
  · rw [hresult] at hlookup
    cases hlookup

theorem Spaced.lookup (hspaced : Spaced settings dispatcher delivered now) (key : Key) :
    Spaced settings (isRecentDuplicate settings now key dispatcher).2 delivered now := by
  rcases isRecentDuplicate_cases settings now key dispatcher with
    ⟨-, hresult⟩ | ⟨-, ⟨-, hresult⟩ | ⟨time, hmem, hresult⟩⟩
  · rw [hresult]
    exact hspaced
  · rw [hresult]
    exact hspaced.withinWindow
  · rw [hresult]
    exact hspaced.withinWindow.moveToEnd hmem

theorem spaced_emit (hrecorded : Recorded settings run) (hkept : KeysKept settings run emission)
    (hclock : ClockForward run emission) (hfew : FewRecent settings run emission)
    (hspaced : Spaced settings run.state.dispatcher (deliveries run.journal) emission.checkedAt)
    (hserve : serve settings run.state emission = .ok (answer, next)) :
    Spaced settings next.dispatcher (deliveries (run.journal ++ [(emission, answer)]))
      emission.recordedAt := by
  simp only [serve, Except.ok.injEq, Prod.mk.injEq] at hserve
  obtain ⟨rfl, rfl⟩ := hserve
  rw [deliveries_concat]
  have hlater : emission.checkedAt ≤ emission.recordedAt :=
    (hclock.sends ⟨0, false⟩).1.trans (hclock.sends ⟨0, false⟩).2
  rcases emit_cases settings emission run.state.dispatcher
    ⟨run.state.emissions, emission.safeMode⟩ rfl with
    ⟨reason, -, hemit⟩ | ⟨hflushes, key, -, -, hemit⟩ | ⟨key, found, -, hrecent, hemit⟩ |
      ⟨hflushes, found, hemit, hfound⟩
  · rw [hemit]
    dsimp only
    rw [List.append_nil]
    exact hspaced.mono hlater
  · obtain ⟨flushed, hflushed, houtcome⟩ :=
      flushQueue_outcome hrecorded.aligned (hkept.stops hflushes)
    rw [hemit]
    dsimp only
    rw [hflushed]
    exact hspaced.flush hclock.sends houtcome hlater
  · have hlookup := hspaced.lookup key
    rw [hrecent] at hlookup
    rw [hemit]
    dsimp only
    rw [List.append_nil]
    exact hlookup.mono hlater
  · have hstops := hkept.stops hflushes
    rw [hemit]
    rcases hfound with ⟨hnone, rfl⟩ | ⟨key, hkey, hnew, hrecent⟩
    · have hkeyless : ∀ key, emission.dedupKey ≠ some key := by simp [hnone]
      exact sendEvent_spaced hrecorded.aligned hstops hspaced hclock.sends
        (fun key hkey => absurd hkey (hkeyless key)) (fun key hkey => absurd hkey (hkeyless key))
        (fun _ key hkey => absurd hkey (hkeyless key))
    · obtain ⟨hqueue, hkeys⟩ :=
        isRecentDuplicate_queue settings emission.checkedAt key run.state.dispatcher
      have hlookup := hspaced.lookup key
      rw [hrecent] at hqueue hkeys hlookup
      have hsame : ∀ other, emission.dedupKey = some other → other = key := by
        intro other hother
        rw [hkey, Option.some.injEq] at hother
        exact hother.symm
      refine sendEvent_spaced (aligned_of_lookup hrecorded.aligned hqueue hkeys) ?_ hlookup
        hclock.sends ?_ ?_ ?_
      · rw [StopsLast, hqueue]
        exact hstops
      · intro other hother
        rw [hsame other hother, hqueue, ← hrecorded.aligned.pending]
        exact hnew
      · intro other hother delivery hdelivery hdeliveryKey
        rw [hsame other hother] at hdeliveryKey
        cases hflush : delivery.byFlush with
        | true => exact hkept.fresh hflushes key hkey hnew delivery hdelivery hflush hdeliveryKey
        | false => exact hspaced.free_of_lookup hrecent delivery hdelivery hflush hdeliveryKey
      · intro hopen other hother
        rw [hsame other hother]
        refine hfew.length_lt hkey hlookup.unique ?_
        intro entry hentry
        rcases isRecentDuplicate_cases settings emission.checkedAt key run.state.dispatcher with
          ⟨hclosed, -⟩ | ⟨-, ⟨-, hresult⟩ | ⟨time, -, hresult⟩⟩
        · exact absurd hopen (not_lt.mpr hclosed)
        · rw [hresult, Prod.mk.injEq] at hrecent
          rw [← hrecent.2] at hentry
          obtain ⟨hmem, hwithin⟩ := List.mem_filter.mp hentry
          obtain ⟨delivery, hdelivery, hdirect, hdeliveryKey, htime⟩ :=
            hrecorded.remembers entry hmem
          exact ⟨delivery, hdelivery, hdirect, hdeliveryKey, htime ▸ of_decide_eq_true hwithin⟩
        · rw [hresult] at hrecent
          cases hrecent

end Step

/-! ## Runs -/

/-- What deduplication promises of a run: the pending keys are those of the queue, suppressed
emissions are justified, and while few keys are recent, deliveries of one key are a window apart. -/
structure Deduplicates (settings : Settings) (emissions : List (Emission Key)) : Prop where
  pending : ∀ key, key ∈ (runEmissions settings emissions).state.dispatcher.queuedDedupKeys ↔
    ∃ item ∈ (runEmissions settings emissions).state.dispatcher.queue, item.key = some key
  justified : CallsMeet (serve settings) ⟨.empty, 0⟩ (Justified settings) emissions
  spaced : CallsMeet (serve settings) ⟨.empty, 0⟩ (FewRecent settings) emissions →
    (deliveries (runEmissions settings emissions).journal).Pairwise fun first second =>
      ∀ key, first.key = some key → second.key = some key →
        settings.window ≤ second.time - first.time

omit [DecidableEq Key] in
theorem recorded_empty (settings : Settings) :
    Recorded settings (⟨[], ⟨.empty, 0⟩⟩ : Run (Service Key) (Emission Key) (Answer Key)) :=
  ⟨⟨by simp [Dispatcher.empty, keys], List.nodup_nil, Nat.zero_le _⟩,
    by simp [Remembers, Dispatcher.empty]⟩

/-- Deduplication keeps its promise in every run whose emissions have no trouble with keys. -/
theorem deduplicates (settings : Settings) {emissions : List (Emission Key)}
    (hclock : CallsMeet (serve settings) ⟨.empty, 0⟩ ClockForward emissions)
    (hkept : CallsMeet (serve settings) ⟨.empty, 0⟩ (KeysKept settings) emissions) :
    Deduplicates settings emissions := by
  have hrecorded : ∀ {emissions : List (Emission Key)},
      CallsMeet (serve settings) ⟨.empty, 0⟩ (KeysKept settings) emissions →
        Recorded settings (runEmissions settings emissions) := by
    intro emissions hkept
    refine runCalls_induction_of_meet (recorded_empty settings) ?_ hkept
    intro run emission answer next hrecorded hemission hserve
    exact hrecorded.emit hemission hserve
  refine ⟨?_, ?_, ?_⟩
  · intro key
    rw [(hrecorded hkept).aligned.pending, mem_keys_iff]
  · intro before emission after hsplit
    refine (hrecorded ?_).justified emission
    intro first other rest hbefore
    exact hkept first other (rest ++ emission :: after) (by rw [hsplit, hbefore]; simp)
  · intro hfew
    have hboth : CallsMeet (serve settings) ⟨.empty, 0⟩ (fun run emission =>
        KeysKept settings run emission ∧ ClockForward run emission ∧
          FewRecent settings run emission) emissions :=
      fun before emission after hsplit => ⟨hkept before emission after hsplit,
        hclock before emission after hsplit, hfew before emission after hsplit⟩
    -- At any time after the emissions so far.
    have hspaced : Recorded settings (runEmissions settings emissions) ∧
        ∀ now, (∀ entry ∈ (runEmissions settings emissions).journal, entry.1.recordedAt ≤ now) →
          Spaced settings (runEmissions settings emissions).state.dispatcher
            (deliveries (runEmissions settings emissions).journal) now := by
      refine runCalls_induction_of_meet (P := fun run => Recorded settings run ∧
        ∀ now, (∀ entry ∈ run.journal, entry.1.recordedAt ≤ now) →
          Spaced settings run.state.dispatcher (deliveries run.journal) now) ?_ ?_ hboth
      · refine ⟨recorded_empty settings, fun now _ => ?_⟩
        exact ⟨by simp [deliveries], by simp [deliveries], by simp [deliveries], List.nodup_nil,
          List.Pairwise.nil⟩
      · rintro run emission answer next ⟨hrecorded, hspaced⟩ ⟨hkept, hclock, hfew⟩ hserve
        refine ⟨hrecorded.emit hkept hserve, fun now hnow => ?_⟩
        refine (spaced_emit hrecorded hkept hclock hfew (hspaced _ hclock.starts) hserve).mono ?_
        exact hnow (emission, answer) (by simp)
    obtain ⟨now, hnow⟩ : ∃ now, ∀ entry ∈ (runEmissions settings emissions).journal,
        entry.1.recordedAt ≤ now := by
      obtain ⟨now, hnow⟩ := ((runEmissions settings emissions).journal.map fun entry =>
        entry.1.recordedAt).toFinset.exists_le
      exact ⟨now, fun entry hentry => hnow _ (List.mem_toFinset.mpr (List.mem_map_of_mem hentry))⟩
    refine (hspaced.2 now hnow).spaced.imp fun {first second} hapart key hfirst hsecond => ?_
    linarith [hapart key hfirst hsecond]

end Dedup

namespace RepeatedKey

/-- A dispatcher with room for some events and a window of five seconds. -/
def room (queueSize : Int) : Settings := ⟨true, true, queueSize, 5⟩

def emission (dedupKey : Option String) (accepts : Bool) (time : ℚ) : Emission String :=
  ⟨true, dedupKey, fun _ => accepts, fun _ => time, time, time⟩

/-- Without room, a key stays pending although nothing waits. -/
theorem pending_of_no_room :
    CallsMeet (serve (room 0)) ⟨.empty, 0⟩ ClockForward [emission (some "key") false 0] ∧
      ¬ Deduplicates (room 0) [emission (some "key") false 0] := by
  refine ⟨?_, fun hdeduplicates => ?_⟩
  · intro before other after hsplit
    match before with
    | [] =>
        obtain ⟨rfl, -⟩ := by simpa using hsplit
        exact ⟨by simp [runCalls], fun _ => ⟨le_rfl, le_rfl⟩⟩
    | _ :: _ => simp at hsplit
  · obtain ⟨item, hitem, -⟩ := (hdeduplicates.pending "key").mp (by decide +kernel)
    exact absurd hitem (by
      have hqueue : (runEmissions (room 0)
        [emission (some "key") false 0]).state.dispatcher.queue = [] := by decide +kernel
      simp [hqueue])

/-- A repetition is left out. -/
theorem deduplicates_repetition :
    Deduplicates (room 1) [emission (some "key") true 0, emission (some "key") true 1] := by
  have hfirst : runCalls (serve (room 1)) ⟨.empty, 0⟩ [emission (some "key") true 0] =
      runEmissions (room 1) [emission (some "key") true 0] := rfl
  have hdeliveries : deliveries (runEmissions (room 1)
      [emission (some "key") true 0]).journal = [⟨⟨0, true⟩, some "key", 0, false⟩] := by
    decide +kernel
  have hqueue : (runEmissions (room 1)
      [emission (some "key") true 0]).state.dispatcher.queue = [] := by decide +kernel
  have hrecorded : ((runEmissions (room 1)
      [emission (some "key") true 0]).journal.map fun entry => entry.1.recordedAt) = [0] := by
    decide +kernel
  refine deduplicates (room 1) ?_ ?_
  · intro before other after hsplit
    match before with
    | [] =>
        obtain ⟨rfl, -⟩ := by simpa using hsplit
        exact ⟨by simp, fun _ => ⟨le_rfl, le_rfl⟩⟩
    | [_] =>
        obtain ⟨rfl, rfl, -⟩ := by simpa using hsplit
        refine ⟨fun entry hentry => ?_, fun _ => ⟨le_rfl, le_rfl⟩⟩
        rw [hfirst] at hentry
        have htime := List.mem_map_of_mem (f := fun entry : Emission String × Answer String =>
          entry.1.recordedAt) hentry
        rw [hrecorded, List.mem_singleton] at htime
        rw [htime]
        decide +kernel
    | _ :: _ :: _ => simp at hsplit
  · intro before other after hsplit
    match before with
    | [] =>
        obtain ⟨rfl, -⟩ := by simpa using hsplit
        exact ⟨fun _ => by simp [StopsLast, Dispatcher.empty], fun _ _ => .inr rfl,
          fun _ _ _ _ => by simp [deliveries]⟩
    | [_] =>
        obtain ⟨rfl, rfl, -⟩ := by simpa using hsplit
        rw [hfirst]
        refine ⟨fun _ => ?_, fun _ _ => .inr rfl, fun _ _ _ _ => ?_⟩
        · rw [StopsLast, hqueue]
          simp
        · rw [hdeliveries]
          simp
    | _ :: _ :: _ => simp at hsplit

end RepeatedKey

end KjAtlas.Audit
