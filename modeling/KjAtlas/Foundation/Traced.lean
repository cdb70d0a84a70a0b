import Mathlib.Data.List.Basic

/-! # Computations that record what they do

A traced computation records its events in order and ends with a value or an
error. What follows an error is not run; an attempt turns an error into a value,
so that what follows is run.
-/

namespace KjAtlas

/-- The events of a computation, and how it ends. -/
structure Traced (ω ε α : Type) where
  events : List ω
  result : Except ε α

namespace Traced

variable {ω ε α β : Type}

/-- Go on with a value; an error ends the computation. -/
def andThen (step : Traced ω ε α) (next : α → Traced ω ε β) : Traced ω ε β :=
  match step.result with
  | .ok value => ⟨step.events ++ (next value).events, (next value).result⟩
  | .error error => ⟨step.events, .error error⟩

instance : Monad (Traced ω ε) where
  pure value := ⟨[], .ok value⟩
  bind := andThen

def call (event : ω) (outcome : Except ε α) : Traced ω ε α := ⟨[event], outcome⟩

/-- A step without an event. -/
def silent (outcome : Except ε α) : Traced ω ε α := ⟨[], outcome⟩

/-- `try { … } catch { … }`: the error becomes a value. -/
def attempt (step : Traced ω ε α) : Traced ω ε (Except ε α) := ⟨step.events, .ok step.result⟩

@[simp] theorem events_pure (value : α) : (pure value : Traced ω ε α).events = [] := rfl

@[simp] theorem result_call (event : ω) (outcome : Except ε α) :
    (call event outcome).result = outcome := rfl

@[simp] theorem events_attempt (step : Traced ω ε α) : step.attempt.events = step.events := rfl

@[simp] theorem result_attempt (step : Traced ω ε α) : step.attempt.result = .ok step.result := rfl

theorem bind_of_ok {step : Traced ω ε α} {value : α} (hok : step.result = .ok value)
    (next : α → Traced ω ε β) :
    step >>= next = ⟨step.events ++ (next value).events, (next value).result⟩ := by
  change andThen step next = _
  unfold andThen
  rw [hok]

theorem bind_of_error {step : Traced ω ε α} {error : ε} (herror : step.result = .error error)
    (next : α → Traced ω ε β) : step >>= next = ⟨step.events, .error error⟩ := by
  change andThen step next = _
  unfold andThen
  rw [herror]

/-- Computing on with a value that is known beforehand. -/
theorem bind_pure_of_map {γ : Type} (events : List ω) (outcome : Except ε α) (value : β)
    (f : β → γ) :
    ((⟨events, outcome.map fun _ => value⟩ : Traced ω ε β) >>= fun value => pure (f value)) =
      ⟨events, outcome.map fun _ => f value⟩ := by
  cases outcome with
  | ok first =>
      rw [@bind_of_ok _ _ _ _ _ value rfl, events_pure, List.append_nil]
      rfl
  | error error => rfl

variable {next : α → Traced ω ε β} {step : Traced ω ε α}

theorem mem_events_bind {event : ω} :
    event ∈ (step >>= next).events ↔
      event ∈ step.events ∨ ∃ value, step.result = .ok value ∧ event ∈ (next value).events := by
  cases hresult : step.result with
  | ok value => simp [bind_of_ok hresult]
  | error error => simp [bind_of_error hresult]

theorem result_bind_eq_ok {value : β} :
    (step >>= next).result = .ok value ↔
      ∃ middle, step.result = .ok middle ∧ (next middle).result = .ok value := by
  cases hresult : step.result with
  | ok middle => simp [bind_of_ok hresult]
  | error error => simp [bind_of_error hresult]

/-- A step without an event that succeeds is not seen. -/
@[simp] theorem silent_ok_bind (value : α) (next : α → Traced ω ε β) :
    (silent (.ok value) >>= next) = next value := by
  rw [@bind_of_ok _ _ _ _ _ value rfl]
  rfl

@[simp] theorem silent_error_bind (error : ε) (next : α → Traced ω ε β) :
    (silent (.error error) >>= next) = silent (.error error) := rfl

/-! ## Events of one kind -/

/-- All events of a computation have a property. -/
def Only (P : ω → Prop) (step : Traced ω ε α) : Prop := ∀ event ∈ step.events, P event

variable {P : ω → Prop}

theorem only_pure (value : α) : (pure value : Traced ω ε α).Only P := by
  intro event hevent
  cases hevent

theorem only_silent (outcome : Except ε α) : (silent outcome : Traced ω ε α).Only P := by
  intro event hevent
  cases hevent

theorem only_call {event : ω} (hevent : P event) (outcome : Except ε α) :
    (call event outcome).Only P := by
  intro other hother
  rw [List.mem_singleton.mp hother]
  exact hevent

theorem Only.bind (hstep : step.Only P) (hnext : ∀ value, (next value).Only P) :
    (step >>= next).Only P := by
  intro event hevent
  rcases mem_events_bind.mp hevent with hevent | ⟨value, -, hevent⟩
  · exact hstep event hevent
  · exact hnext value event hevent

end Traced

end KjAtlas
