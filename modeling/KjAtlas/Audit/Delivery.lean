import Mathlib.Data.Finset.Lattice.Lemmas
import KjAtlas.Audit.Dispatcher
import KjAtlas.Foundation.KeyedStore

/-! # No event is lost

A flush takes everything out of the queue and stops at the first event that is
not accepted: that one is queued again, what came after it is lost. When at most
the last event of a queue is refused by a flush, every event that could not be
sent is delivered later, still waits, or was the oldest of a full queue.
-/

namespace KjAtlas.Audit

open BoundedLog

section Delivery

variable {Key : Type} [DecidableEq Key] {settings : Settings} {emission : Emission Key}
  {dispatcher : Dispatcher Key}

/-! ## A flush -/

/-- The delivery of an event that waited. -/
def deliver (emission : Emission Key) (item : Queued Key) : Delivery Key :=
  ⟨item.event, item.key, emission.acceptedAt item.event, true⟩

def Dispatcher.release (dispatcher : Dispatcher Key) (items : List (Queued Key)) : Dispatcher Key :=
  { dispatcher with queuedDedupKeys := dispatcher.queuedDedupKeys \ (keys items).toFinset }

@[simp] theorem release_nil : dispatcher.release [] = dispatcher := by
  simp [Dispatcher.release, keys]

theorem release_cons (item : Queued Key) (items : List (Queued Key)) :
    dispatcher.release (item :: items) = (dispatcher.release [item]).release items := by
  have hkeys : keys (item :: items) = keys [item] ++ keys items := by
    rw [keys, ← List.singleton_append, List.filterMap_append]
    rfl
  simp only [Dispatcher.release, hkeys, List.toFinset_append]
  congr 1
  ext key
  simp [and_assoc]

theorem flushPending_cases (settings : Settings) (emission : Emission Key)
    (dispatcher : Dispatcher Key) (pending : List (Queued Key)) :
    ((∀ item ∈ pending, emission.accepts item.event = true) ∧
      flushPending settings emission dispatcher pending =
        (dispatcher.release pending, pending.map (deliver emission))) ∨
    ∃ before item after, pending = before ++ item :: after ∧
      (∀ other ∈ before, emission.accepts other.event = true) ∧
      emission.accepts item.event = false ∧
      flushPending settings emission dispatcher pending =
        (enqueue settings (dispatcher.release before) item, before.map (deliver emission)) := by
  induction pending generalizing dispatcher with
  | nil =>
      left
      rw [release_nil]
      exact ⟨by simp, rfl⟩
  | cons item pending ih =>
      cases haccepts : emission.accepts item.event with
      | false =>
          refine .inr ⟨[], item, pending, rfl, by simp, haccepts, ?_⟩
          rw [flushPending, if_neg (by simp [haccepts]), release_nil]
          rfl
      | true =>
          have hstep : flushPending settings emission dispatcher (item :: pending) =
              ((flushPending settings emission (dispatcher.release [item]) pending).1,
                deliver emission item ::
                  (flushPending settings emission (dispatcher.release [item]) pending).2) := by
            rw [flushPending, if_pos haccepts]
            cases hkey : item.key with
            | none => simp [Dispatcher.release, keys, hkey, deliver]
            | some key => simp [Dispatcher.release, keys, hkey, deliver, Finset.sdiff_singleton_eq_erase]
          rcases ih (dispatcher.release [item]) with
            ⟨hall, hflush⟩ | ⟨before, refused, after, hsplit, hbefore, hrefused, hflush⟩
          · left
            refine ⟨List.forall_mem_cons.mpr ⟨haccepts, hall⟩, ?_⟩
            rw [hstep, hflush, release_cons item pending]
            rfl
          · right
            refine ⟨item :: before, refused, after, by rw [hsplit]; rfl,
              List.forall_mem_cons.mpr ⟨haccepts, hbefore⟩, hrefused, ?_⟩
            rw [hstep, hflush, release_cons item before]
            rfl

@[simp] theorem queue_enqueue (item : Queued Key) :
    (enqueue settings dispatcher item).queue = record settings.maxlen dispatcher.queue item := rfl

variable {log : List (Queued Key)} {limit : Nat}
  {run : Run (Service Key) (Emission Key) (Answer Key)}

omit [DecidableEq Key] in
theorem record_of_room {item : Queued Key} (hroom : log.length < limit) :
    record limit log item = log ++ [item] := by
  rw [record_eq_drop, List.length_append, List.length_singleton, Nat.sub_eq_zero_of_le hroom,
    List.drop_zero]

/-- The outcome of a flush, in terms of what waited. -/
structure Flushed (queue : List (Queued Key)) (delivered : List (Delivery Key))
    (kept : List (Queued Key)) : Prop where
  events : delivered.map Delivery.event ++ kept.map Queued.event = queue.map Queued.event
  byFlush : ∀ delivery ∈ delivered, delivery.byFlush = true

theorem flushQueue_lossless (hmaxlen : 0 < settings.maxlen)
    (hlast : ∀ item ∈ dispatcher.queue.dropLast, emission.accepts item.event = true) :
    Flushed dispatcher.queue (flushQueue settings emission dispatcher).2
      (flushQueue settings emission dispatcher).1.queue := by
  have hevents : ∀ items : List (Queued Key),
      (items.map (deliver emission)).map Delivery.event = items.map Queued.event := by
    intro items
    rw [List.map_map]
    rfl
  have hbyFlush : ∀ items : List (Queued Key), ∀ delivery ∈ items.map (deliver emission),
      delivery.byFlush = true := by
    intro items delivery hdelivery
    obtain ⟨item, -, rfl⟩ := List.mem_map.mp hdelivery
    rfl
  unfold flushQueue
  rcases flushPending_cases settings emission { dispatcher with queue := [] } dispatcher.queue with
    ⟨-, hflush⟩ | ⟨before, item, after, hsplit, -, hrefused, hflush⟩
  · rw [hflush]
    refine ⟨?_, hbyFlush _⟩
    rw [hevents]
    exact List.append_nil _
  · have hafter : after = [] := by
      by_contra hne
      have hmem : item ∈ dispatcher.queue.dropLast := by
        rw [hsplit, List.dropLast_append_of_ne_nil (List.cons_ne_nil _ _),
          List.dropLast_cons_of_ne_nil hne]
        simp
      rw [hlast item hmem] at hrefused
      cases hrefused
    have hkept : (enqueue settings (Dispatcher.release { dispatcher with queue := [] } before)
        item).queue = [item] := record_of_room hmaxlen
    rw [hflush]
    refine ⟨?_, hbyFlush _⟩
    rw [hkept, hevents, hsplit, hafter, List.map_append]

/-! ## An emission -/

/-- The emission sends what waits: it is not left out as blocked or as a duplicate. -/
def flushes (settings : Settings) (dispatcher : Dispatcher Key) (emission : Emission Key) : Bool :=
  settings.enabled && (!emission.safeMode || settings.allowInSafeMode) &&
    match emission.dedupKey with
    | none => true
    | some key =>
        decide (key ∈ dispatcher.queuedDedupKeys) ||
          !(isRecentDuplicate settings emission.checkedAt key dispatcher).1

/-- If the emission sends what waits, every event but the last is accepted. -/
def LosslessFlush (settings : Settings) (dispatcher : Dispatcher Key)
    (emission : Emission Key) : Prop :=
  flushes settings dispatcher emission = true →
    ∀ item ∈ dispatcher.queue.dropLast, emission.accepts item.event = true

instance : Decidable (LosslessFlush settings dispatcher emission) :=
  inferInstanceAs (Decidable (_ → _))

/-- What an emission does to events. -/
inductive Effect (settings : Settings) (event : AuditEvent) (kept : List (Queued Key))
    (flushed : List (Delivery Key)) (answer : Answer Key) (queue : List (Queued Key)) : Prop
  | leftOut (hreason : answer.result.reason ≠ some "send_failed")
      (hdelivered : answer.delivered = flushed) (hqueue : queue = kept)
  | sent (hreason : answer.result.reason ≠ some "send_failed")
      (hdelivered : ∃ direct, answer.delivered = flushed ++ [direct] ∧ direct.event = event ∧
        direct.byFlush = false) (hqueue : queue = kept)
  | failed (hdelivered : answer.delivered = flushed)
      (hqueue : ∃ key, queue = record settings.maxlen kept ⟨event, key⟩)
      (hevicted : answer.evictedFrom = if settings.maxlen ≤ kept.length then kept else [])

theorem queue_recordEmittedKey (now : ℚ) (key : Key) (dispatcher : Dispatcher Key) :
    (recordEmittedKey now key dispatcher).queue = dispatcher.queue := by
  unfold recordEmittedKey
  rfl

theorem event_sendEvent (settings : Settings) (emission : Emission Key)
    (dispatcher : Dispatcher Key) (event : AuditEvent) :
    (sendEvent settings emission event dispatcher).1.event = event := by
  unfold sendEvent
  dsimp only
  split <;> rfl

theorem event_emit (settings : Settings) (emission : Emission Key)
    (dispatcher : Dispatcher Key) (event : AuditEvent) :
    (emit settings emission event dispatcher).1.event = event := by
  unfold emit
  split
  next => rfl
  next =>
    split
    next => rfl
    next =>
      split
      next => exact event_sendEvent _ _ _ event
      next =>
        split
        next => rfl
        next =>
          split
          next => rfl
          next => exact event_sendEvent _ _ _ event

theorem sendEvent_effect (hmaxlen : 0 < settings.maxlen)
    (hlast : ∀ item ∈ dispatcher.queue.dropLast, emission.accepts item.event = true)
    (event : AuditEvent) :
    ∃ flushed kept, Flushed dispatcher.queue flushed kept ∧
      Effect settings event kept flushed (sendEvent settings emission event dispatcher).1
        (sendEvent settings emission event dispatcher).2.queue := by
  obtain ⟨pair, hpair, hflushed⟩ : ∃ pair : Dispatcher Key × List (Delivery Key),
      (if dispatcher.queue = [] then (dispatcher, []) else
        flushQueue settings emission dispatcher) = pair ∧
      Flushed dispatcher.queue pair.2 pair.1.queue := by
    refine ⟨_, rfl, ?_⟩
    split
    next => exact ⟨by simp, by simp⟩
    next => exact flushQueue_lossless hmaxlen hlast
  refine ⟨pair.2, pair.1.queue, hflushed, ?_⟩
  unfold sendEvent
  rw [hpair]
  dsimp only
  split
  next =>
    apply Effect.sent
    · simp
    · exact ⟨_, rfl, rfl, rfl⟩
    · cases emission.dedupKey with
      | none => rfl
      | some key => exact queue_recordEmittedKey _ key _
  next => exact .failed rfl ⟨emission.dedupKey, rfl⟩ rfl

theorem isRecentDuplicate_queue (settings : Settings) (now : ℚ) (key : Key)
    (dispatcher : Dispatcher Key) :
    (isRecentDuplicate settings now key dispatcher).2.queue = dispatcher.queue ∧
      (isRecentDuplicate settings now key dispatcher).2.queuedDedupKeys =
        dispatcher.queuedDedupKeys := by
  unfold isRecentDuplicate
  split
  next => exact ⟨rfl, rfl⟩
  next =>
    dsimp only
    split <;> exact ⟨rfl, rfl⟩

theorem emit_cases (settings : Settings) (emission : Emission Key) (dispatcher : Dispatcher Key)
    (event : AuditEvent) (hevent : event.safeMode = emission.safeMode) :
    (∃ reason, reason ∈ ["disabled", "safe_mode_blocked"] ∧
      emit settings emission event dispatcher =
        (⟨event, ⟨false, some reason⟩, [], []⟩, dispatcher)) ∨
    (flushes settings dispatcher emission = true ∧
      ∃ key, emission.dedupKey = some key ∧ key ∈ dispatcher.queuedDedupKeys ∧
        emit settings emission event dispatcher =
          (⟨event, ⟨true, some "queued_pending"⟩,
            (flushQueue settings emission dispatcher).2, []⟩,
            (flushQueue settings emission dispatcher).1)) ∨
    (∃ key next, emission.dedupKey = some key ∧
      isRecentDuplicate settings emission.checkedAt key dispatcher = (true, next) ∧
        emit settings emission event dispatcher =
          (⟨event, ⟨false, some "duplicate"⟩, [], []⟩, next)) ∨
    (flushes settings dispatcher emission = true ∧
      ∃ next, emit settings emission event dispatcher = sendEvent settings emission event next ∧
        (emission.dedupKey = none ∧ next = dispatcher ∨
          ∃ key, emission.dedupKey = some key ∧ key ∉ dispatcher.queuedDedupKeys ∧
            isRecentDuplicate settings emission.checkedAt key dispatcher = (false, next))) := by
  unfold emit
  split
  next => exact .inl ⟨_, by simp, rfl⟩
  next henabled =>
  split
  next => exact .inl ⟨_, by simp, rfl⟩
  next hallowed =>
    have hopen : (settings.enabled && (!emission.safeMode || settings.allowInSafeMode)) = true := by
      rw [hevent] at hallowed
      simp only [Bool.not_eq_true', Bool.not_eq_false, Bool.and_eq_true, not_and] at henabled hallowed
      cases hsafe : emission.safeMode with
      | false => simp [henabled]
      | true => simp [henabled, hallowed hsafe]
    split
    next hkey =>
      refine .inr (.inr (.inr ⟨?_, dispatcher, rfl, .inl ⟨hkey, rfl⟩⟩))
      rw [flushes, hopen, hkey]
      rfl
    next key hkey =>
      split
      next hpending =>
        refine .inr (.inl ⟨?_, key, hkey, hpending, rfl⟩)
        rw [flushes, hopen, hkey]
        simp [hpending]
      next hpending =>
        split
        next next hrecent => exact .inr (.inr (.inl ⟨key, next, hkey, hrecent, rfl⟩))
        next next hrecent =>
          refine .inr (.inr (.inr ⟨?_, next, rfl, .inr ⟨key, hkey, hpending, hrecent⟩⟩))
          rw [flushes, hopen, hkey]
          dsimp only
          rw [hrecent]
          simp

theorem emit_effect (hmaxlen : 0 < settings.maxlen)
    (hlossless : LosslessFlush settings dispatcher emission) (event : AuditEvent)
    (hevent : event.safeMode = emission.safeMode) :
    ∃ flushed kept, Flushed dispatcher.queue flushed kept ∧
      Effect settings event kept flushed (emit settings emission event dispatcher).1
        (emit settings emission event dispatcher).2.queue := by
  have hidle : Flushed dispatcher.queue [] dispatcher.queue := ⟨rfl, by simp⟩
  rcases emit_cases settings emission dispatcher event hevent with
    ⟨reason, hreason, hemit⟩ | ⟨hflushes, key, -, -, hemit⟩ | ⟨key, next, -, hrecent, hemit⟩ |
      ⟨hflushes, next, hemit, hnext⟩
  · rw [hemit]
    refine ⟨[], dispatcher.queue, hidle, .leftOut ?_ rfl rfl⟩
    simp only [List.mem_cons, List.not_mem_nil, or_false] at hreason
    rcases hreason with rfl | rfl <;> simp
  · rw [hemit]
    exact ⟨_, _, flushQueue_lossless hmaxlen (hlossless hflushes), .leftOut (by simp) rfl rfl⟩
  · have hqueue := (isRecentDuplicate_queue settings emission.checkedAt key dispatcher).1
    rw [hrecent] at hqueue
    rw [hemit]
    exact ⟨[], dispatcher.queue, hidle, .leftOut (by simp) rfl hqueue⟩
  · have hqueue : next.queue = dispatcher.queue := by
      rcases hnext with ⟨-, rfl⟩ | ⟨key, -, -, hrecent⟩
      · rfl
      · have hqueue := (isRecentDuplicate_queue settings emission.checkedAt key dispatcher).1
        rwa [hrecent] at hqueue
    rw [hemit, ← hqueue]
    exact sendEvent_effect hmaxlen (hqueue ▸ hlossless hflushes) event

/-! ## Runs -/

def deliveredIds (journal : List (Emission Key × Answer Key)) : List Nat :=
  (deliveries journal).map fun delivery => delivery.event.eventId

def flushedIds (journal : List (Emission Key × Answer Key)) : List Nat :=
  ((deliveries journal).filter Delivery.byFlush).map fun delivery => delivery.event.eventId

def queuedIds (queue : List (Queued Key)) : List Nat := queue.map fun item => item.event.eventId

/-- An event was the oldest of a queue that held as many events as it may when it gave way. -/
def Evicted (settings : Settings) (journal : List (Emission Key × Answer Key)) (id : Nat) : Prop :=
  ∃ entry ∈ journal, entry.2.evictedFrom.length = settings.maxlen ∧
    entry.2.evictedFrom.head?.map (fun item => item.event.eventId) = some id

/-- An event that could not be sent is not lost. -/
def Accounted (settings : Settings) (run : Run (Service Key) (Emission Key) (Answer Key))
    (id : Nat) : Prop :=
  id ∈ deliveredIds run.journal ∨ id ∈ queuedIds run.state.dispatcher.queue ∨
    Evicted settings run.journal id

/-- What holds of the events of a run. -/
structure Orderly (settings : Settings) (run : Run (Service Key) (Emission Key) (Answer Key)) :
    Prop where
  size : run.state.dispatcher.queue.length ≤ settings.maxlen
  nodup : (deliveredIds run.journal ++ queuedIds run.state.dispatcher.queue).Nodup
  sorted : (flushedIds run.journal ++ queuedIds run.state.dispatcher.queue).Pairwise (· < ·)
  bound : ∀ id ∈ deliveredIds run.journal ++ queuedIds run.state.dispatcher.queue,
    id < run.state.emissions
  accounted : ∀ entry ∈ run.journal, entry.2.result.reason = some "send_failed" →
    Accounted settings run entry.2.event.eventId

omit [DecidableEq Key] in
theorem deliveries_concat (journal : List (Emission Key × Answer Key))
    (entry : Emission Key × Answer Key) :
    deliveries (journal ++ [entry]) = deliveries journal ++ entry.2.delivered := by
  simp [deliveries]

omit [DecidableEq Key] in
theorem flushedIds_subset (journal : List (Emission Key × Answer Key)) :
    flushedIds journal ⊆ deliveredIds journal :=
  List.map_subset _ fun _ hdelivery => (List.mem_filter.mp hdelivery).1

omit [DecidableEq Key] in
/-- Recording an item drops the oldest entry of a full queue, and nothing else. -/
theorem mem_record (item : Queued Key) {other : Queued Key} (hlog : log.length ≤ limit)
    (hother : other ∈ log) :
    other ∈ record limit log item ∨ log.length = limit ∧ log.head? = some other := by
  rcases Nat.lt_or_ge log.length limit with hroom | hfull
  · left
    rw [record_of_room hroom]
    exact List.mem_append_left _ hother
  · have hlength : log.length = limit := Nat.le_antisymm hlog hfull
    cases log with
    | nil => cases hother
    | cons first rest =>
        rcases List.mem_cons.mp hother with rfl | hrest
        · exact .inr ⟨hlength, rfl⟩
        · left
          rw [record_eq_drop, List.length_append, hlength]
          simp [hrest]

omit [DecidableEq Key] in
theorem queuedIds_record_sublist {item : Queued Key} :
    (queuedIds (record limit log item)).Sublist (queuedIds log ++ [item.event.eventId]) := by
  have hdrop : (record limit log item).Sublist (log ++ [item]) := by
    rw [record_eq_drop]
    exact List.drop_sublist _ _
  simpa [queuedIds] using hdrop.map fun item : Queued Key => item.event.eventId

section Step

variable {queue kept queue' : List (Queued Key)} {flushed : List (Delivery Key)}
  {event : AuditEvent} {answer : Answer Key} {journal : List (Emission Key × Answer Key)}

omit [DecidableEq Key] in
theorem Flushed.ids (hflushed : Flushed queue flushed kept) :
    flushed.map (fun delivery => delivery.event.eventId) ++ queuedIds kept = queuedIds queue := by
  have hids := congrArg (List.map AuditEvent.eventId) hflushed.events
  simpa [queuedIds, List.map_append, List.map_map, Function.comp_def] using hids

section

variable (heffect : Effect settings event kept flushed answer queue')
include heffect

omit [DecidableEq Key] in
theorem Effect.subperm (hflushed : Flushed queue flushed kept) (emission : Emission Key)
    (journal : List (Emission Key × Answer Key)) :
    (deliveredIds (journal ++ [(emission, answer)]) ++ queuedIds queue').Subperm
      (deliveredIds journal ++ queuedIds queue ++ [event.eventId]) := by
  rw [← hflushed.ids]
  cases heffect with
  | leftOut _ hdelivered hqueue =>
      rw [deliveredIds, deliveries_concat, hdelivered, hqueue, List.map_append]
      refine (List.Sublist.subperm ?_)
      simp [deliveredIds]
  | sent _ hdelivered hqueue =>
      obtain ⟨direct, hdelivered, hevent, -⟩ := hdelivered
      rw [deliveredIds, deliveries_concat, hdelivered, hqueue]
      refine List.Perm.subperm ?_
      simp only [List.map_append, List.map_cons, List.map_nil, hevent, List.append_assoc,
        deliveredIds]
      exact ((List.perm_append_singleton _ _).symm.append_left _).append_left _
  | failed hdelivered hqueue _ =>
      obtain ⟨key, hqueue⟩ := hqueue
      rw [deliveredIds, deliveries_concat, hdelivered, hqueue, List.map_append]
      refine List.Sublist.subperm ?_
      rw [List.append_assoc, List.append_assoc, List.append_assoc]
      exact (queuedIds_record_sublist.append_left _).append_left _

omit [DecidableEq Key] in
theorem Effect.sublist (hflushed : Flushed queue flushed kept) :
    (flushedIds (journal ++ [(emission, answer)]) ++ queuedIds queue').Sublist
      (flushedIds journal ++ queuedIds queue ++ [event.eventId]) := by
  have hfilter : flushed.filter Delivery.byFlush = flushed :=
    List.filter_eq_self.mpr hflushed.byFlush
  rw [← hflushed.ids]
  cases heffect with
  | leftOut _ hdelivered hqueue =>
      rw [flushedIds, deliveries_concat, hdelivered, hqueue, List.filter_append, hfilter]
      simp [flushedIds]
  | sent _ hdelivered hqueue =>
      obtain ⟨direct, hdelivered, -, hdirect⟩ := hdelivered
      rw [flushedIds, deliveries_concat, hdelivered, hqueue]
      simp [flushedIds, hfilter, hdirect]
  | failed hdelivered hqueue _ =>
      obtain ⟨key, hqueue⟩ := hqueue
      rw [flushedIds, deliveries_concat, hdelivered, hqueue, List.filter_append, hfilter,
        List.map_append, List.append_assoc, List.append_assoc, List.append_assoc]
      exact (queuedIds_record_sublist.append_left _).append_left _

omit [DecidableEq Key] in
theorem Effect.length_le
    (hkept : kept.length ≤ settings.maxlen) : queue'.length ≤ settings.maxlen := by
  cases heffect with
  | leftOut _ _ hqueue => exact hqueue ▸ hkept
  | sent _ _ hqueue => exact hqueue ▸ hkept
  | failed _ hqueue _ =>
      obtain ⟨key, rfl⟩ := hqueue
      exact length_record_le

omit [DecidableEq Key] in
/-- An event that waited is delivered, still waits, or gives way to the new event. -/
theorem Effect.of_queued
    (hflushed : Flushed queue flushed kept) (hkept : kept.length ≤ settings.maxlen) {id : Nat}
    (hid : id ∈ queuedIds queue) :
    id ∈ deliveredIds [(emission, answer)] ∨ id ∈ queuedIds queue' ∨
      Evicted settings [(emission, answer)] id := by
  have hflush : id ∈ flushed.map (fun delivery => delivery.event.eventId) →
      id ∈ deliveredIds [(emission, answer)] := by
    intro hmem
    have hdelivered : ∃ rest, answer.delivered = flushed ++ rest := by
      cases heffect with
      | leftOut _ hdelivered _ => exact ⟨[], by simpa using hdelivered⟩
      | sent _ hdelivered _ =>
          obtain ⟨direct, hdelivered, -⟩ := hdelivered
          exact ⟨[direct], hdelivered⟩
      | failed hdelivered _ _ => exact ⟨[], by simpa using hdelivered⟩
    obtain ⟨rest, hdelivered⟩ := hdelivered
    simp only [deliveredIds, deliveries, List.flatMap_cons, List.flatMap_nil, hdelivered,
      List.append_nil, List.map_append]
    exact List.mem_append_left _ hmem
  rw [← hflushed.ids] at hid
  rcases List.mem_append.mp hid with hmem | hmem
  · exact .inl (hflush hmem)
  · right
    cases heffect with
    | leftOut _ _ hqueue => exact .inl (hqueue ▸ hmem)
    | sent _ _ hqueue => exact .inl (hqueue ▸ hmem)
    | failed _ hqueue hevicted =>
        obtain ⟨key, rfl⟩ := hqueue
        obtain ⟨item, hitem, rfl⟩ := List.mem_map.mp hmem
        rcases mem_record ⟨event, key⟩ hkept hitem with hstays | ⟨hfull, holdest⟩
        · exact .inl (List.mem_map_of_mem hstays)
        · right
          rw [if_pos (Nat.le_of_eq hfull.symm)] at hevicted
          refine ⟨_, List.mem_singleton_self _, ?_, ?_⟩
          · rw [hevicted, hfull]
          · rw [hevicted, holdest]
            rfl

end

end Step

omit [DecidableEq Key] in
theorem Accounted.append {id : Nat} {entry : Emission Key × Answer Key} {next : Service Key}
    (haccounted : Accounted settings run id) (hstep : id ∈ queuedIds run.state.dispatcher.queue →
      id ∈ deliveredIds [entry] ∨ id ∈ queuedIds next.dispatcher.queue ∨
        Evicted settings [entry] id) : Accounted settings ⟨run.journal ++ [entry], next⟩ id := by
  have hdelivered : ∀ {part : List (Emission Key × Answer Key)}, part ⊆ run.journal ++ [entry] →
      id ∈ deliveredIds part → id ∈ deliveredIds (run.journal ++ [entry]) := by
    intro part hpart hmem
    obtain ⟨delivery, hdelivery, rfl⟩ := List.mem_map.mp hmem
    obtain ⟨other, hother, hdelivered⟩ := List.mem_flatMap.mp hdelivery
    exact List.mem_map_of_mem (List.mem_flatMap.mpr ⟨other, hpart hother, hdelivered⟩)
  have hevicted : ∀ {part : List (Emission Key × Answer Key)}, part ⊆ run.journal ++ [entry] →
      Evicted settings part id → Evicted settings (run.journal ++ [entry]) id := by
    rintro part hpart ⟨other, hother, hfull⟩
    exact ⟨other, hpart hother, hfull⟩
  have hold : run.journal ⊆ run.journal ++ [entry] := List.subset_append_left _ _
  have hnew : [entry] ⊆ run.journal ++ [entry] := List.subset_append_right _ _
  rcases haccounted with hmem | hmem | hmem
  · exact .inl (hdelivered hold hmem)
  · exact (hstep hmem).imp (hdelivered hnew) (Or.imp_right (hevicted hnew))
  · exact .inr (.inr (hevicted hold hmem))

theorem Orderly.emit (horderly : Orderly settings run) (hmaxlen : 0 < settings.maxlen)
    (emission : Emission Key) (hlossless : LosslessFlush settings run.state.dispatcher emission)
    {answer : Answer Key} {next : Service Key}
    (hserve : serve settings run.state emission = .ok (answer, next)) :
    Orderly settings ⟨run.journal ++ [(emission, answer)], next⟩ := by
  obtain ⟨flushed, kept, hflushed, heffect⟩ :=
    emit_effect hmaxlen hlossless ⟨run.state.emissions, emission.safeMode⟩ rfl
  have hevent := event_emit settings emission run.state.dispatcher
    ⟨run.state.emissions, emission.safeMode⟩
  simp only [serve, Except.ok.injEq, Prod.mk.injEq] at hserve
  obtain ⟨rfl, rfl⟩ := hserve
  have hkept : kept.length ≤ settings.maxlen := by
    have hlength := congrArg List.length hflushed.ids
    simp only [queuedIds, List.length_append, List.length_map] at hlength
    have hsize := horderly.size
    omega
  have hsubperm := heffect.subperm hflushed emission run.journal
  have hbound : ∀ id ∈ deliveredIds run.journal ++ queuedIds run.state.dispatcher.queue ++
      [run.state.emissions], id < run.state.emissions + 1 := by
    intro id hid
    rcases mem_snoc.mp hid with hid | hid
    · exact Nat.lt_succ_of_lt (horderly.bound id hid)
    · rw [hid]
      exact Nat.lt_succ_self _
  refine ⟨heffect.length_le hkept, ?_, ?_, ?_, ?_⟩
  · obtain ⟨ids, hperm, hids⟩ := hsubperm
    refine hperm.nodup_iff.mp (hids.nodup (List.Nodup.append horderly.nodup
      (List.nodup_singleton _) ?_))
    intro id hid hnew
    rw [List.mem_singleton.mp hnew] at hid
    exact Nat.lt_irrefl _ (horderly.bound _ hid)
  · refine List.Pairwise.sublist (heffect.sublist hflushed) ?_
    rw [List.pairwise_append]
    refine ⟨horderly.sorted, List.pairwise_singleton _ _, ?_⟩
    intro id hid new hnew
    rw [List.mem_singleton.mp hnew]
    apply horderly.bound
    rcases List.mem_append.mp hid with hid | hid
    · exact List.mem_append_left _ (flushedIds_subset _ hid)
    · exact List.mem_append_right _ hid
  · exact fun id hid => hbound id (hsubperm.subset hid)
  · intro entry hentry hfailed
    rcases mem_snoc.mp hentry with hentry | hentry
    · exact (horderly.accounted entry hentry hfailed).append
        (heffect.of_queued hflushed hkept)
    · rw [hentry] at hfailed ⊢
      cases heffect with
      | leftOut hreason => exact absurd hfailed hreason
      | sent hreason => exact absurd hfailed hreason
      | failed _ hqueue _ =>
          obtain ⟨key, hqueue⟩ := hqueue
          refine .inr (.inl ?_)
          rw [hqueue, record_eq_drop, hevent]
          apply List.mem_map_of_mem (a := (⟨_, key⟩ : Queued Key))
          rw [List.length_append, List.length_singleton, List.drop_append_of_le_length (by omega)]
          simp

/-- In a run whose flushes refuse at most the last event, no event that could not be sent is lost,
none is delivered twice, and what waited is delivered in order. -/
theorem no_event_lost (settings : Settings) (hqueueSize : 1 ≤ settings.queueSize)
    {emissions : List (Emission Key)}
    (hlossless : CallsMeet (serve settings) ⟨.empty, 0⟩
      (fun run emission => LosslessFlush settings run.state.dispatcher emission) emissions) :
    (∀ entry ∈ (runEmissions settings emissions).journal,
      entry.2.result.reason = some "send_failed" →
        Accounted settings (runEmissions settings emissions) entry.2.event.eventId) ∧
    (deliveredIds (runEmissions settings emissions).journal).Nodup ∧
    (flushedIds (runEmissions settings emissions).journal).Pairwise (· < ·) := by
  have hmaxlen : 0 < settings.maxlen := by
    rw [Settings.maxlen]
    omega
  have horderly : Orderly settings (runEmissions settings emissions) := by
    refine runCalls_induction_of_meet ?_ ?_ hlossless
    · exact ⟨Nat.zero_le _, List.nodup_nil, List.Pairwise.nil, by simp [deliveredIds, deliveries,
        queuedIds, Dispatcher.empty], by simp⟩
    · intro run emission answer next horderly hemission hserve
      exact horderly.emit hmaxlen emission hemission hserve
  refine ⟨horderly.accounted, ?_, ?_⟩
  · exact (List.nodup_append.mp horderly.nodup).1
  · exact (List.pairwise_append.mp horderly.sorted).1

end Delivery

namespace BrokenFlush

def threeEvents : Settings := ⟨true, true, 3, 5⟩

def whileDown : Emission String := ⟨true, none, fun _ => false, fun _ => 0, 0, 0⟩

def allDown : Run (Service String) (Emission String) (Answer String) :=
  runEmissions threeEvents [whileDown, whileDown, whileDown]

/-- The second of three events is lost: the flush of the third emission stops at the first. -/
theorem second_lost :
    ¬ ∀ entry ∈ allDown.journal, entry.2.result.reason = some "send_failed" →
      Accounted threeEvents allDown entry.2.event.eventId := by
  intro hall
  have hjournal : allDown.journal.map (fun entry =>
      (entry.2.event.eventId, entry.2.result.reason, entry.2.evictedFrom)) =
        [(0, some "send_failed", []), (1, some "send_failed", []),
          (2, some "send_failed", [])] := by decide
  have hdelivered : deliveredIds allDown.journal = [] := by decide
  have hqueued : queuedIds allDown.state.dispatcher.queue = [0, 2] := by decide
  obtain ⟨entry, hentry, hvalue⟩ := List.mem_map.mp
    (hjournal ▸ (by simp : (1, some "send_failed", ([] : List (Queued String))) ∈
      [(0, some "send_failed", []), (1, some "send_failed", []), (2, some "send_failed", [])]))
  simp only [Prod.mk.injEq] at hvalue
  have haccounted := hall entry hentry hvalue.2.1
  rw [hvalue.1] at haccounted
  rcases haccounted with hmem | hmem | ⟨other, hother, hfull, -⟩
  · simp [hdelivered] at hmem
  · simp [hqueued] at hmem
  · have hother' := List.mem_map_of_mem (f := fun entry : Emission String × Answer String =>
      (entry.2.event.eventId, entry.2.result.reason, entry.2.evictedFrom)) hother
    rw [hjournal] at hother'
    have hempty : other.2.evictedFrom = [] := by
      simp only [List.mem_cons, Prod.mk.injEq, List.not_mem_nil, or_false] at hother'
      tauto
    rw [hempty] at hfull
    cases hfull

/-- Two events wait, and the third emission finds the transport up again. -/
def recovering : List (Emission String) :=
  [whileDown, whileDown, { whileDown with accepts := fun _ => true }]

/-- When the transport accepts again, both are delivered in order. -/
theorem nothing_lost_of_recovery :
    flushedIds (runEmissions threeEvents recovering).journal = [0, 1] ∧
    (∀ entry ∈ (runEmissions threeEvents recovering).journal,
      entry.2.result.reason = some "send_failed" →
        Accounted threeEvents (runEmissions threeEvents recovering) entry.2.event.eventId) ∧
    (deliveredIds (runEmissions threeEvents recovering).journal).Nodup ∧
    (flushedIds (runEmissions threeEvents recovering).journal).Pairwise (· < ·) :=
  ⟨by decide, no_event_lost threeEvents (by decide) (by decide +kernel)⟩

end BrokenFlush

end KjAtlas.Audit
