import Mathlib.Data.Finset.Basic
import Mathlib.Algebra.Order.Ring.Unbundled.Rat
import KjAtlas.Foundation.BoundedLog
import KjAtlas.Foundation.Transactions

/-! # The audit dispatcher

Events go to an external sink. An event that cannot be sent waits in a bounded
queue, of which every later emission first sends what it can. Emissions with a
key that waits in the queue, or was sent a moment ago, are left out.
-/

namespace KjAtlas.Audit

open BoundedLog

/-- An event. Its id is fresh: the number of the emission that it was built for. -/
structure AuditEvent where
  eventId : Nat
  safeMode : Bool
deriving DecidableEq

/-- The settings of a dispatcher. -/
structure Settings where
  enabled : Bool
  allowInSafeMode : Bool
  queueSize : Int
  dedupWindowSeconds : ℚ

/-- `max(queue_size, 0)`. -/
def Settings.maxlen (settings : Settings) : Nat := settings.queueSize.toNat

/-- `max(dedup_window_seconds, 0.0)`. -/
def Settings.window (settings : Settings) : ℚ := max settings.dedupWindowSeconds 0

@[irreducible] def recentEmitMax : Nat := 4096

section Dispatcher

variable {Key : Type} [DecidableEq Key]

/-- An event that waits, with its key. -/
structure Queued (Key : Type) where
  event : AuditEvent
  key : Option Key
deriving DecidableEq

structure Dispatcher (Key : Type) where
  queue : List (Queued Key)
  recentEmitKeys : List (Key × ℚ)
  queuedDedupKeys : Finset Key

def Dispatcher.empty : Dispatcher Key := ⟨[], [], ∅⟩

structure AuditDispatchResult where
  sent : Bool
  reason : Option String

/-- An emission: which events the transport accepts while it lasts, when it accepts them, and what
the clock shows when recent keys are looked up and when a key is recorded. No event is sent twice
in one emission. -/
structure Emission (Key : Type) where
  safeMode : Bool
  dedupKey : Option Key
  accepts : AuditEvent → Bool
  acceptedAt : AuditEvent → ℚ
  checkedAt : ℚ
  recordedAt : ℚ

/-- An event that the transport accepted. -/
structure Delivery (Key : Type) where
  event : AuditEvent
  key : Option Key
  time : ℚ
  byFlush : Bool
deriving DecidableEq

/-! ## The queue -/

def keys (queue : List (Queued Key)) : List Key := queue.filterMap Queued.key

def addKey (key : Option Key) (pendingKeys : Finset Key) : Finset Key :=
  match key with
  | none => pendingKeys
  | some key => insert key pendingKeys

/-- Put an event in the queue. The pending keys are compared with the queue only when an event was
dropped. -/
def enqueue (settings : Settings) (dispatcher : Dispatcher Key) (item : Queued Key) :
    Dispatcher Key :=
  let pendingKeys := addKey item.key dispatcher.queuedDedupKeys
  let before := dispatcher.queue.length
  let queue := record settings.maxlen dispatcher.queue item
  let after := queue.length
  let dropped := decide (before = after) && decide (0 < after)
  { dispatcher with
    queue
    queuedDedupKeys := if dropped then pendingKeys.filter (· ∈ keys queue) else pendingKeys }

/-- The loop of a flush over what was pending: it stops at the first event that is not accepted. -/
def flushPending (settings : Settings) (emission : Emission Key) :
    Dispatcher Key → List (Queued Key) → Dispatcher Key × List (Delivery Key)
  | dispatcher, [] => (dispatcher, [])
  | dispatcher, item :: pending =>
      if emission.accepts item.event then
        let dispatcher :=
          match item.key with
          | none => dispatcher
          | some key =>
              { dispatcher with queuedDedupKeys := dispatcher.queuedDedupKeys.erase key }
        let (dispatcher, delivered) := flushPending settings emission dispatcher pending
        (dispatcher, ⟨item.event, item.key, emission.acceptedAt item.event, true⟩ :: delivered)
      else (enqueue settings dispatcher item, [])

def flushQueue (settings : Settings) (emission : Emission Key) (dispatcher : Dispatcher Key) :
    Dispatcher Key × List (Delivery Key) :=
  flushPending settings emission { dispatcher with queue := [] } dispatcher.queue

/-- Put an entry at the end. -/
def moveToEnd (key : Key) (time : ℚ) (recent : List (Key × ℚ)) : List (Key × ℚ) :=
  recent.filter (fun entry => decide (entry.1 ≠ key)) ++ [(key, time)]

/-- Whether a key was recorded within the window. Expired entries are dropped on the way. -/
def isRecentDuplicate (settings : Settings) (now : ℚ) (key : Key) (dispatcher : Dispatcher Key) :
    Bool × Dispatcher Key :=
  if settings.window ≤ 0 then (false, dispatcher)
  else
    let recent := dispatcher.recentEmitKeys.filter fun entry => decide (now - entry.2 < settings.window)
    match recent.find? fun entry => decide (entry.1 = key) with
    | none => (false, { dispatcher with recentEmitKeys := recent })
    | some entry => (true, { dispatcher with recentEmitKeys := moveToEnd key entry.2 recent })

def recordEmittedKey (now : ℚ) (key : Key) (dispatcher : Dispatcher Key) : Dispatcher Key :=
  let recent := moveToEnd key now dispatcher.recentEmitKeys
  { dispatcher with recentEmitKeys := recent.drop (recent.length - recentEmitMax) }

/-- What an emission leads to. `evictedFrom` is the queue whose oldest entry gave way to the event,
if one did. -/
structure Answer (Key : Type) where
  event : AuditEvent
  result : AuditDispatchResult
  delivered : List (Delivery Key)
  evictedFrom : List (Queued Key)

def sendEvent (settings : Settings) (emission : Emission Key) (event : AuditEvent)
    (dispatcher : Dispatcher Key) : Answer Key × Dispatcher Key :=
  let (dispatcher, flushed) :=
    if dispatcher.queue = [] then (dispatcher, []) else flushQueue settings emission dispatcher
  if emission.accepts event then
    let dispatcher :=
      match emission.dedupKey with
      | none => dispatcher
      | some key => recordEmittedKey emission.recordedAt key dispatcher
    (⟨event, ⟨true, none⟩,
      flushed ++ [⟨event, emission.dedupKey, emission.recordedAt, false⟩], []⟩, dispatcher)
  else
    (⟨event, ⟨false, some "send_failed"⟩, flushed,
        if settings.maxlen ≤ dispatcher.queue.length then dispatcher.queue else []⟩,
      enqueue settings dispatcher ⟨event, emission.dedupKey⟩)

def emit (settings : Settings) (emission : Emission Key) (event : AuditEvent)
    (dispatcher : Dispatcher Key) : Answer Key × Dispatcher Key :=
  if !settings.enabled then (⟨event, ⟨false, some "disabled"⟩, [], []⟩, dispatcher)
  else if event.safeMode && !settings.allowInSafeMode then
    (⟨event, ⟨false, some "safe_mode_blocked"⟩, [], []⟩, dispatcher)
  else
    match emission.dedupKey with
    | none => sendEvent settings emission event dispatcher
    | some key =>
        if key ∈ dispatcher.queuedDedupKeys then
          let (dispatcher, flushed) := flushQueue settings emission dispatcher
          (⟨event, ⟨true, some "queued_pending"⟩, flushed, []⟩, dispatcher)
        else
          match isRecentDuplicate settings emission.checkedAt key dispatcher with
          | (true, dispatcher) => (⟨event, ⟨false, some "duplicate"⟩, [], []⟩, dispatcher)
          | (false, dispatcher) => sendEvent settings emission event dispatcher

/-- A dispatcher and the number of emissions so far. -/
structure Service (Key : Type) where
  dispatcher : Dispatcher Key
  emissions : Nat

/-- An emission of a new event. -/
def serve (settings : Settings) (service : Service Key) (emission : Emission Key) :
    Except Empty (Answer Key × Service Key) :=
  let (answer, dispatcher) :=
    emit settings emission ⟨service.emissions, emission.safeMode⟩ service.dispatcher
  .ok (answer, ⟨dispatcher, service.emissions + 1⟩)

def runEmissions (settings : Settings) (emissions : List (Emission Key)) :
    Run (Service Key) (Emission Key) (Answer Key) :=
  runCalls (serve settings) ⟨.empty, 0⟩ emissions

/-- What has been delivered, in order. -/
def deliveries (journal : List (Emission Key × Answer Key)) : List (Delivery Key) :=
  journal.flatMap fun entry => entry.2.delivered

end Dispatcher

end KjAtlas.Audit
