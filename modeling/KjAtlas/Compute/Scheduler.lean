import KjAtlas.Diff.Incremental
import KjAtlas.Foundation.Transactions

/-! # The task runner of the main thread

Without a worker, a client computes on the main thread. A task polls for
cancellation, reports progress and lets the main thread have its turn. One
runner, with one flag, serves all requests of a client, so a task of one request
can go on while another is started or aborted.
-/

namespace KjAtlas.Compute

/-- A task, as the operations on its context that it makes one after the other. -/
inductive ComputeTask (T : Type) where
  | done (result : T)
  | throw
  | isCancelled (next : Bool → ComputeTask T)
  | reportProgress (progress : ComputeProgress) (next : ComputeTask T)
  | yieldToMainThread (next : ComputeTask T)

/-- A task returns a value of a kind only after a poll that told it of a cancellation. -/
def ComputeTask.OnlyIfTold {T : Type} (kind : T → Prop) : ComputeTask T → Prop
  | .done result => ¬kind result
  | .throw => True
  | .isCancelled next => (next false).OnlyIfTold kind
  | .reportProgress _ next => next.OnlyIfTold kind
  | .yieldToMainThread next => next.OnlyIfTold kind

theorem ComputeTask.onlyIfTold_of_none {T : Type} {kind : T → Prop} (hnone : ∀ result, ¬kind result)
    (task : ComputeTask T) : task.OnlyIfTold kind := by
  induction task with
  | done result => exact hnone result
  | throw => trivial
  | isCancelled next ih => exact ih false
  | reportProgress progress next ih => exact ih
  | yieldToMainThread next ih => exact ih

/-- What `run` returns. -/
inductive RunTaskResult (T : Type) where
  | completed (result : T)
  | cancelled

/-- What a client returns. -/
inductive ComputeResult (R : Type) where
  | completed (result : R) (usedFallback : Bool)
  | cancelled (usedFallback : Bool)

def ComputeResult.isCancelled {R : Type} : ComputeResult R → Bool
  | .completed _ _ => false
  | .cancelled _ => true

/-- The fallback of a client: the task of a request, and the answer to what `run` returns. A
cancelled run is reported as cancelled, and a result is only if the task was told so. -/
structure FallbackClient (Payload T R : Type) where
  task : Payload → ComputeTask T
  answer : RunTaskResult T → ComputeResult R
  isCancelled_answer : (answer .cancelled).isCancelled = true
  onlyIfTold : ∀ payload, (task payload).OnlyIfTold fun result =>
    (answer (.completed result)).isCancelled = true

/-! ## The client of the differences -/

/-- The loop of `buildMergeItemsIncremental` over the groups. -/
def collectGroupsTask (baseDoc : DocumentV1) (maxNodes : Option Nat) (total : Nat)
    (finish : List MergeItem → IncrementalOutcome) :
    Nat → List DiffGroup → List MergeItem → ComputeTask IncrementalOutcome
  | _, [], items => .done (finish items)
  | index, group :: groups, items =>
      .isCancelled fun cancelled =>
        if cancelled then .done cancelledOutcome
        else
          let items := items ++ group.items
          .reportProgress ⟨"Computing diff: " ++ group.label, index + 1, total⟩ <|
            match maxNodes.filter fun maxNodes => decide (maxNodes < items.length) with
            | some maxNodes => .done (nodeLimitOutcome baseDoc items maxNodes)
            | none => .yieldToMainThread <|
                collectGroupsTask baseDoc maxNodes total finish (index + 1) groups items

/-- The request for a difference, with what the clock shows around its task. -/
structure DiffRequest where
  baseDoc : DocumentV1
  incomingDoc : DocumentV1
  guardrails : Guardrails
  startedAt : Int
  finishedAt : Int

/-- What a run that collects all items returns. -/
def DiffRequest.finish (lc : Js.Collation) (request : DiffRequest) (items : List MergeItem) :
    IncrementalOutcome :=
  let viewDiff := computeViewDiff lc request.baseDoc request.incomingDoc
  let elapsedMs := request.finishedAt - request.startedAt
  let notes := match request.guardrails.timeLimit.filter fun maxMs : Nat =>
      decide (maxMs < elapsedMs) with
    | some maxMs => [timeLimitNote maxMs]
    | none => []
  ⟨finalizeMergeItems request.baseDoc items viewDiff, decide (0 < notes.length), notes⟩

/-- `buildMergeItemsIncremental` as a task. -/
def diffTask (lc : Js.Collation) (request : DiffRequest) : ComputeTask IncrementalOutcome :=
  let groups := diffGroups (computeDocumentDiff lc request.baseDoc request.incomingDoc)
  collectGroupsTask request.baseDoc request.guardrails.nodeLimit (groups.length + 1)
    (request.finish lc) 0 groups []

structure DiffResult where
  documentDiff : List MergeItem
  viewDiff : List MergeItem

def diffAnswer : RunTaskResult IncrementalOutcome → ComputeResult DiffResult
  | .cancelled => .cancelled true
  | .completed outcome =>
      .completed ⟨outcome.items.filter fun item => decide (item.kind ≠ .viewField),
        outcome.items.filter fun item => decide (item.kind = .viewField)⟩ true

/-- The fallback of `DiffWorkerClient`. -/
def diffClient (lc : Js.Collation) : FallbackClient DiffRequest IncrementalOutcome DiffResult where
  task := diffTask lc
  answer := diffAnswer
  isCancelled_answer := rfl
  onlyIfTold _ := ComputeTask.onlyIfTold_of_none (fun _ => by simp [diffAnswer,
    ComputeResult.isCancelled]) _

/-! ## The client of the traces -/

/-- The loop over the stages, before the trace itself. -/
def stagesTask {R : Type} (total : Nat) (result : R) :
    Nat → List String → ComputeTask (Option R)
  | _, [] => .done (some result)
  | index, stage :: stages =>
      .reportProgress ⟨stage, index + 1, total⟩ <| .yieldToMainThread <|
        .isCancelled fun cancelled =>
          if cancelled then .done none else stagesTask total result (index + 1) stages

def traceStages : List String := ["collect", "traverse", "render"]

def traceTask {R : Type} (result : R) : ComputeTask (Option R) :=
  stagesTask traceStages.length result 0 traceStages

/-- A result that is `null` counts as cancelled. -/
def traceAnswer {R : Type} : RunTaskResult (Option R) → ComputeResult R
  | .cancelled => .cancelled true
  | .completed none => .cancelled true
  | .completed (some result) => .completed result true

theorem onlyIfTold_stagesTask {R : Type} (total : Nat) (result : R) (stages : List String) :
    ∀ index, (stagesTask total result index stages).OnlyIfTold fun result =>
      (traceAnswer (.completed result)).isCancelled = true := by
  induction stages with
  | nil => simp [stagesTask, ComputeTask.OnlyIfTold, traceAnswer, ComputeResult.isCancelled]
  | cons stage stages ih =>
      intro index
      simpa [stagesTask, ComputeTask.OnlyIfTold] using ih (index + 1)

/-- The fallback of `TraceWorkerClient`, for traces and for their analytics: the two share their
runner, their stages and the way they answer. -/
def traceClient {Payload R : Type} (compute : Payload → R) :
    FallbackClient Payload (Option R) R where
  task payload := traceTask (compute payload)
  answer := traceAnswer
  isCancelled_answer := rfl
  onlyIfTold payload := onlyIfTold_stagesTask _ (compute payload) traceStages 0

/-! ## Requests that share a runner -/

section Runner

variable {Signal Payload T R : Type} [DecidableEq Signal]

/-- How far a request is: its task is running, has returned or has thrown, `run` has returned, or
the client has answered. -/
inductive Phase (T R : Type) where
  | running (task : ComputeTask T)
  | finished (result : T)
  | failed
  | ran (outcome : RunTaskResult T)
  | answered (answer : ComputeResult R)
  | rejected

/-- The flag of the runner still decides on the request. -/
def Phase.inFlight : Phase T R → Bool
  | .running _ | .finished _ => true
  | _ => false

/-- The listeners of the request are registered. -/
def Phase.listening : Phase T R → Bool
  | .answered _ | .rejected => false
  | _ => true

/-- A request: its abort signal, what its progress listener was called with, and whether the signal
had fired when the task returned. -/
structure Request (Signal T R : Type) where
  signal : Option Signal
  phase : Phase T R
  heard : List ComputeProgress
  abortedInTime : Bool

def Request.aborted (fired : List Signal) (request : Request Signal T R) : Bool :=
  request.signal.any fun signal => decide (signal ∈ fired)

/-- The runner of a client: its flag, the requests, and the signals that have fired. -/
structure Runner (Signal T R : Type) where
  cancelled : Bool
  fired : List Signal
  requests : List (Request Signal T R)

def createCancelableTaskRunner : Runner Signal T R := ⟨false, [], []⟩

/-- What can happen: a request is made, a signal fires, and a request comes to its next operation.
The operations of all requests interleave in any way. -/
inductive Event (Signal Payload : Type) where
  | compute (signal : Option Signal) (payload : Payload)
  | abort (signal : Signal)
  | resume (index : Nat)

/-- `computeViaFallback` up to the start of the task: `run` resets the flag. A signal that has
fired before does not fire again. -/
def Runner.compute (client : FallbackClient Payload T R) (runner : Runner Signal T R)
    (signal : Option Signal) (payload : Payload) : Runner Signal T R :=
  { runner with
    cancelled := false
    requests := runner.requests ++ [⟨signal, .running (client.task payload), [], false⟩] }

def Runner.listens (runner : Runner Signal T R) (signal : Signal) : Bool :=
  runner.requests.any fun request =>
    request.phase.listening && decide (request.signal = some signal)

/-- A signal fires once, and its listeners set the flag. -/
def Runner.abort (runner : Runner Signal T R) (signal : Signal) : Runner Signal T R :=
  if signal ∈ runner.fired then runner
  else
    { runner with
      cancelled := runner.cancelled || runner.listens signal
      fired := signal :: runner.fired }

/-- The next phase of a request, unless it has come to its end. -/
def Phase.resume (client : FallbackClient Payload T R) (cancelled : Bool) :
    Phase T R → Option (Phase T R)
  | .running (.done result) => some (.finished result)
  | .running .throw => some .failed
  | .running (.isCancelled next) => some (.running (next cancelled))
  | .running (.reportProgress _ next) => some (.running next)
  | .running (.yieldToMainThread next) => some (.running next)
  | .finished result => some (.ran (if cancelled then .cancelled else .completed result))
  | .failed => some .rejected
  | .ran outcome => some (.answered (client.answer outcome))
  | .answered _ | .rejected => none

/-- The signal has fired in time if it has when the task returns. -/
def Request.moveTo (fired : List Signal) (request : Request Signal T R) (next : Phase T R) :
    Request Signal T R :=
  match next with
  | .finished _ => { request with phase := next, abortedInTime := request.aborted fired }
  | _ => { request with phase := next }

def Phase.report : Phase T R → List ComputeProgress
  | .running (.reportProgress progress _) => [progress]
  | _ => []

def Request.hear (reports : List ComputeProgress) (request : Request Signal T R) :
    Request Signal T R :=
  if request.phase.listening then { request with heard := request.heard ++ reports } else request

def Runner.serve (client : FallbackClient Payload T R) (runner : Runner Signal T R) :
    Event Signal Payload → Except Unit (Unit × Runner Signal T R)
  | .compute signal payload => .ok ((), runner.compute client signal payload)
  | .abort signal => .ok ((), runner.abort signal)
  | .resume index => do
      let request ← found () runner.requests[index]?
      let next ← found () (request.phase.resume client runner.cancelled)
      let requests := runner.requests.set index (request.moveTo runner.fired next)
      .ok ((), { runner with requests := requests.map (Request.hear request.phase.report) })

def Runner.after (client : FallbackClient Payload T R) (events : List (Event Signal Payload)) :
    Runner Signal T R :=
  (runCalls (Runner.serve client) createCancelableTaskRunner events).state

end Runner

end KjAtlas.Compute
