import KjAtlas.Compute.Scheduler

/-! # Cancellation of one request among others

The flag of a runner belongs to all requests of a client at once: each start
takes it back and each abort sets it. A request is cancelled by its own signal,
and by no other, as long as no request starts while an aborted one is in flight
or with a signal that has fired, and no request is aborted beside another one.
-/

namespace KjAtlas.Compute

variable {Signal Payload T R : Type} [DecidableEq Signal]

/-- A request that was told `completed`, by the runner or by the client. -/
def Phase.completed : Phase T R → Bool
  | .ran (.completed _) => true
  | .answered answer => !answer.isCancelled
  | _ => false

/-- A request that was told `cancelled`. -/
def Phase.cancelled : Phase T R → Bool
  | .ran .cancelled => true
  | .answered answer => answer.isCancelled
  | _ => false

/-- A request whose signal fired before its task returned is not completed, and one that is
cancelled was aborted itself. -/
def Request.CancelledByItself (fired : List Signal) (request : Request Signal T R) : Prop :=
  (request.phase.completed = true → request.abortedInTime = false) ∧
    (request.phase.cancelled = true → request.aborted fired = true)

def KeepsApart (runner : Runner Signal T R) : Event Signal Payload → Prop
  | .compute signal _ => (∀ own ∈ signal, own ∉ runner.fired) ∧
      ∀ request ∈ runner.requests, request.phase.inFlight = true →
        request.aborted runner.fired = false
  | .abort signal => signal ∉ runner.fired → runner.listens signal = true →
      ∀ request ∈ runner.requests, request.phase.inFlight = true →
        request.signal = some signal ∨ request.aborted runner.fired = true
  | .resume _ => True

instance (fired : List Signal) (request : Request Signal T R) :
    Decidable (request.CancelledByItself fired) :=
  inferInstanceAs (Decidable (_ ∧ _))

instance (runner : Runner Signal T R) : ∀ event : Event Signal Payload,
    Decidable (KeepsApart runner event)
  | .compute _ _ => inferInstanceAs (Decidable (_ ∧ _))
  | .abort _ => inferInstanceAs (Decidable (_ → _ → _))
  | .resume _ => inferInstanceAs (Decidable True)

/-! ## The invariant -/

/-- What the phase of a request tells of its signal. -/
def Phase.Justified (client : FallbackClient Payload T R) (aborted abortedInTime : Bool) :
    Phase T R → Prop
  | .running task => aborted = false → task.OnlyIfTold fun result =>
      (client.answer (.completed result)).isCancelled = true
  | .finished result => (client.answer (.completed result)).isCancelled = true → aborted = true
  | .ran (.completed result) => abortedInTime = false ∧
      ((client.answer (.completed result)).isCancelled = true → aborted = true)
  | .ran .cancelled => aborted = true
  | .answered answer => (answer.isCancelled = true → aborted = true) ∧
      (answer.isCancelled = false → abortedInTime = false)
  | .failed | .rejected => True

/-- While a request is in flight the flag is that of its own signal. -/
structure Request.Sound (client : FallbackClient Payload T R) (cancelled : Bool)
    (fired : List Signal) (request : Request Signal T R) : Prop where
  flag : request.phase.inFlight = true → cancelled = request.aborted fired
  inTime : request.abortedInTime = true → request.aborted fired = true
  justified : request.phase.Justified client (request.aborted fired) request.abortedInTime

def Runner.Sound (client : FallbackClient Payload T R) (runner : Runner Signal T R) : Prop :=
  ∀ request ∈ runner.requests, request.Sound client runner.cancelled runner.fired

variable {fired : List Signal} {request : Request Signal T R} {runner : Runner Signal T R}
  {signal : Signal}

section

variable {client : FallbackClient Payload T R} {cancelled : Bool}

theorem Request.Sound.cancelledByItself
    (hsound : request.Sound client cancelled fired) : request.CancelledByItself fired := by
  have hjustified := hsound.justified
  cases hphase : request.phase with
  | ran outcome =>
      cases outcome with
      | completed result =>
          simp only [hphase, Phase.Justified] at hjustified
          simp [CancelledByItself, hphase, Phase.completed, Phase.cancelled, hjustified.1]
      | cancelled =>
          simp only [hphase, Phase.Justified] at hjustified
          simp [CancelledByItself, hphase, Phase.completed, Phase.cancelled, hjustified]
  | answered answer =>
      simp only [hphase, Phase.Justified] at hjustified
      simpa [CancelledByItself, hphase, Phase.completed, Phase.cancelled] using hjustified.symm
  | running task => simp [CancelledByItself, hphase, Phase.completed, Phase.cancelled]
  | finished result => simp [CancelledByItself, hphase, Phase.completed, Phase.cancelled]
  | failed => simp [CancelledByItself, hphase, Phase.completed, Phase.cancelled]
  | rejected => simp [CancelledByItself, hphase, Phase.completed, Phase.cancelled]

theorem Phase.Justified.of_abort {aborted later abortedInTime : Bool} {phase : Phase T R}
    (hlater : aborted = true → later = true) (h : phase.Justified client aborted abortedInTime) :
    phase.Justified client later abortedInTime := by
  cases phase with
  | running task =>
      intro hnot
      apply h
      cases aborted with
      | true => simp [hlater rfl] at hnot
      | false => rfl
  | finished result => exact fun hcancelled => hlater (h hcancelled)
  | ran outcome =>
      cases outcome with
      | completed result => exact ⟨h.1, fun hcancelled => hlater (h.2 hcancelled)⟩
      | cancelled => exact hlater h
  | answered answer => exact ⟨fun hcancelled => hlater (h.1 hcancelled), h.2⟩
  | failed => trivial
  | rejected => trivial

theorem Runner.Sound.compute (hsound : runner.Sound client)
    {signal : Option Signal} {payload : Payload} (hfresh : ∀ own ∈ signal, own ∉ runner.fired)
    (hquiet : ∀ request ∈ runner.requests, request.phase.inFlight = true →
      request.aborted runner.fired = false) :
    (runner.compute client signal payload).Sound client := by
  intro request hmem
  rcases mem_snoc.mp hmem with hold | rfl
  · exact { hsound request hold with flag := fun hflight => (hquiet request hold hflight).symm }
  · have hnot : Request.aborted (T := T) (R := R) runner.fired
        ⟨signal, .running (client.task payload), [], false⟩ = false := by
      cases signal with
      | none => rfl
      | some own => simpa [Request.aborted] using hfresh own rfl
    exact ⟨fun _ => hnot.symm, nofun, fun _ => client.onlyIfTold payload⟩

theorem Runner.listens_of_inFlight (hmem : request ∈ runner.requests)
    (hflight : request.phase.inFlight = true) (hsignal : request.signal = some signal) :
    runner.listens signal = true := by
  rw [Runner.listens, List.any_eq_true]
  refine ⟨request, hmem, ?_⟩
  cases hphase : request.phase <;> simp_all [Phase.inFlight, Phase.listening]

theorem Request.aborted_cons :
    request.aborted (signal :: fired) = true ↔
      request.signal = some signal ∨ request.aborted fired = true := by
  cases hsignal : request.signal with
  | none => simp [Request.aborted, hsignal]
  | some own => simp [Request.aborted, hsignal]

theorem Runner.Sound.abort (hsound : runner.Sound client)
    (halone : signal ∉ runner.fired → runner.listens signal = true →
      ∀ request ∈ runner.requests, request.phase.inFlight = true →
        request.signal = some signal ∨ request.aborted runner.fired = true) :
    (runner.abort signal).Sound client := by
  unfold Runner.abort
  split
  next => exact hsound
  next hfresh =>
    intro request hmem
    have hrequest := hsound request hmem
    have hlater : request.aborted runner.fired = true →
        request.aborted (signal :: runner.fired) = true :=
      fun haborted => Request.aborted_cons.mpr (Or.inr haborted)
    refine ⟨?_, fun htime => hlater (hrequest.inTime htime), hrequest.justified.of_abort hlater⟩
    intro hflight
    rw [Bool.eq_iff_iff, Request.aborted_cons, Bool.or_eq_true, hrequest.flag hflight]
    constructor
    · rintro (haborted | hlistens)
      · exact Or.inr haborted
      · exact halone hfresh hlistens request hmem hflight
    · rintro (hsignal | haborted)
      · exact Or.inr (Runner.listens_of_inFlight hmem hflight hsignal)
      · exact Or.inl haborted

/-! ## Operations of a request -/

/-- The phase that a request moves to is as justified as the one it leaves. -/
theorem Phase.Justified.resume {aborted abortedInTime : Bool} {phase next : Phase T R}
    (h : phase.Justified client aborted abortedInTime)
    (hflag : phase.inFlight = true → cancelled = aborted)
    (htime : abortedInTime = true → aborted = true)
    (hnext : phase.resume client cancelled = some next) :
    next.Justified client aborted abortedInTime := by
  cases phase with
  | running task =>
      have hsame : cancelled = aborted := hflag rfl
      cases task with
      | done result =>
          obtain rfl := Option.some.inj hnext
          intro hcancelled
          by_contra hnot
          exact h (by simpa using hnot) hcancelled
      | throw =>
          obtain rfl := Option.some.inj hnext
          trivial
      | isCancelled next =>
          obtain rfl := Option.some.inj hnext
          intro hnot
          rw [hsame, hnot]
          exact h hnot
      | reportProgress progress next =>
          obtain rfl := Option.some.inj hnext
          exact h
      | yieldToMainThread next =>
          obtain rfl := Option.some.inj hnext
          exact h
  | finished result =>
      have hsame : cancelled = aborted := hflag rfl
      obtain rfl := Option.some.inj hnext
      cases hcancelled : cancelled with
      | true =>
          rw [hcancelled] at hsame
          exact hsame.symm
      | false =>
          refine ⟨?_, h⟩
          by_contra hintime
          rw [htime (by simpa using hintime), hcancelled] at hsame
          cases hsame
  | failed =>
      obtain rfl := Option.some.inj hnext
      trivial
  | ran outcome =>
      obtain rfl := Option.some.inj hnext
      cases outcome with
      | completed result => exact ⟨h.2, fun _ => h.1⟩
      | cancelled =>
          exact ⟨fun _ => h, fun hnot => by simp [client.isCancelled_answer] at hnot⟩
  | answered answer => cases hnext
  | rejected => cases hnext

theorem Phase.inFlight_of_resume
    {phase next : Phase T R} (hnext : phase.resume client cancelled = some next)
    (hflight : next.inFlight = true) : phase.inFlight = true := by
  cases phase with
  | running task => rfl
  | finished result => rfl
  | failed =>
      obtain rfl := Option.some.inj hnext
      cases hflight
  | ran outcome =>
      obtain rfl := Option.some.inj hnext
      cases hflight
  | answered answer => cases hnext
  | rejected => cases hnext

@[simp] theorem Request.phase_moveTo (fired : List Signal) (request : Request Signal T R)
    (next : Phase T R) : (request.moveTo fired next).phase = next := by
  cases next <;> rfl

@[simp] theorem Request.aborted_moveTo (fired now : List Signal) (request : Request Signal T R)
    (next : Phase T R) : (request.moveTo fired next).aborted now = request.aborted now := by
  cases next <;> rfl

/-- Whether a request was aborted in time is settled when its task returns. -/
theorem Request.Sound.moveTo {next : Phase T R} (hsound : request.Sound client cancelled fired)
    (hnext : request.phase.resume client cancelled = some next) :
    (request.moveTo fired next).Sound client cancelled fired := by
  have hjustified := hsound.justified.resume hsound.flag hsound.inTime hnext
  constructor
  case flag =>
    rw [Request.phase_moveTo, Request.aborted_moveTo]
    exact fun hflight => hsound.flag (Phase.inFlight_of_resume hnext hflight)
  case inTime =>
    rw [Request.aborted_moveTo]
    cases next with
    | finished result => exact id
    | running task => exact hsound.inTime
    | failed => exact hsound.inTime
    | ran outcome => exact hsound.inTime
    | answered answer => exact hsound.inTime
    | rejected => exact hsound.inTime
  case justified =>
    rw [Request.phase_moveTo, Request.aborted_moveTo]
    cases next with
    | finished result => exact hjustified
    | running task => exact hjustified
    | failed => exact hjustified
    | ran outcome => exact hjustified
    | answered answer => exact hjustified
    | rejected => exact hjustified

/-- To hear of progress changes nothing else about a request. -/
theorem Request.Sound.hear
    (reports : List ComputeProgress) (hsound : request.Sound client cancelled fired) :
    (request.hear reports).Sound client cancelled fired := by
  unfold Request.hear
  split
  next => exact ⟨hsound.flag, hsound.inTime, hsound.justified⟩
  next => exact hsound

/-! ## Runs -/

theorem Runner.Sound.serve {next : Runner Signal T R}
    {event : Event Signal Payload} {answer : Unit} (hsound : runner.Sound client)
    (hapart : KeepsApart runner event) (hok : runner.serve client event = .ok (answer, next)) :
    next.Sound client := by
  cases event with
  | compute signal payload =>
      obtain ⟨-, rfl⟩ := by simpa [Runner.serve] using hok
      exact hsound.compute hapart.1 hapart.2
  | abort signal =>
      obtain ⟨-, rfl⟩ := by simpa [Runner.serve] using hok
      exact hsound.abort hapart
  | resume index =>
      simp only [Runner.serve, bind_eq_ok, found_eq_ok, Except.ok.injEq, Prod.mk.injEq] at hok
      obtain ⟨request, hrequest, phase, hphase, -, rfl⟩ := hok
      intro other hmem
      obtain ⟨before, hbefore, rfl⟩ := List.mem_map.mp hmem
      apply Request.Sound.hear
      rcases List.mem_or_eq_of_mem_set hbefore with hold | rfl
      · exact hsound before hold
      · exact (hsound request (List.mem_of_getElem? hrequest)).moveTo hphase

end

/-- In every run whose events keep the requests apart, each request is cancelled by its own signal
and by no other, whatever the interleaving. -/
theorem cancelled_by_itself (client : FallbackClient Payload T R)
    (events : List (Event Signal Payload))
    (hapart : CallsMeet (Runner.serve client) createCancelableTaskRunner
      (fun run event => KeepsApart run.state event) events) :
    ∀ request ∈ (Runner.after client events).requests,
      request.CancelledByItself (Runner.after client events).fired := by
  have hsound : (Runner.after client events).Sound client := by
    apply runCalls_induction_of_meet (P := fun run => run.state.Sound client) ?_ ?_ hapart
    · exact fun request hmem => nomatch hmem
    · intro run event answer next hrun hevent hok
      exact hrun.serve hevent hok
  exact fun request hmem => (hsound request hmem).cancelledByItself

namespace TwoTraces

/-- A client whose traces are their payloads. -/
def client : FallbackClient String (Option String) String := traceClient id

/-- The first request is aborted at its first turn, and then the second starts. -/
def restarted : List (Event String String) :=
  [.compute (some "A") "first", .resume 0, .abort "A", .compute (some "B") "second"] ++
    List.replicate 11 (.resume 0)

/-- The second request is aborted while the first is in flight. -/
def otherAborted : List (Event String String) :=
  [.compute (some "A") "first", .compute (some "B") "second", .abort "B"] ++
    List.replicate 6 (.resume 0)

/-- The first request is aborted and comes to its end, and then the second starts. -/
def oneByOne : List (Event String String) :=
  [.compute (some "A") "first", .resume 0, .abort "A"] ++ List.replicate 5 (.resume 0) ++
    [.compute (some "B") "second"] ++ List.replicate 12 (.resume 1)

/-- The restart completes a request that was aborted in time, and the abort of another cancels a
request that was never aborted. -/
theorem not_cancelled_by_itself :
    (¬∀ request ∈ (Runner.after client restarted).requests,
      request.CancelledByItself (Runner.after client restarted).fired) ∧
    (Runner.after client restarted).requests.map
      (fun request => (request.phase.completed, request.abortedInTime)) =
        [(true, true), (false, false)] ∧
    (¬∀ request ∈ (Runner.after client otherAborted).requests,
      request.CancelledByItself (Runner.after client otherAborted).fired) ∧
    (Runner.after client otherAborted).requests.map
      (fun request => (request.phase.cancelled,
        request.aborted (Runner.after client otherAborted).fired)) =
        [(true, false), (false, true)] := by
  decide +kernel

theorem cancelled_by_itself_one_by_one :
    (Runner.after client oneByOne).requests.map
      (fun request => (request.phase.completed, request.phase.cancelled)) =
        [(false, true), (true, false)] ∧
    ∀ request ∈ (Runner.after client oneByOne).requests,
      request.CancelledByItself (Runner.after client oneByOne).fired :=
  ⟨by decide +kernel, cancelled_by_itself client oneByOne (by decide +kernel)⟩

end TwoTraces

end KjAtlas.Compute
