import Mathlib.Logic.Basic

/-! # Computations that ask

A computation ends with a value or an error, or it asks a question and goes on
with the answer. What it may ask is a property of its questions whatever the
answers are; what it may end with is any end that some answers lead to.
-/

namespace KjAtlas

/-- A computation with questions in `Q` and answers in `A`. -/
inductive Asking (Q A ε α : Type) where
  | done (result : Except ε α)
  | ask (question : Q) (next : A → Asking Q A ε α)

namespace Asking

variable {Q A ε ε' α β : Type}

/-- Go on from whatever the computation ends with. -/
def andThen (computation : Asking Q A ε α) (next : Except ε α → Asking Q A ε' β) :
    Asking Q A ε' β :=
  match computation with
  | .done result => next result
  | .ask question rest => .ask question fun answer => (rest answer).andThen next

/-- Go on from a value; an error ends the computation. -/
def bind (computation : Asking Q A ε α) (next : α → Asking Q A ε β) : Asking Q A ε β :=
  computation.andThen fun result =>
    match result with
    | .ok value => next value
    | .error error => .done (.error error)

instance : Monad (Asking Q A ε) where
  pure value := .done (.ok value)
  bind := Asking.bind

instance : MonadLift (Except ε) (Asking Q A ε) where
  monadLift result := .done result

def question (q : Q) : Asking Q A ε A := .ask q fun answer => .done (.ok answer)

/-! ## What a computation may do -/

/-- Some answers lead to this end. -/
inductive Ends : Asking Q A ε α → Except ε α → Prop where
  | done (result : Except ε α) : Ends (.done result) result
  | ask {question : Q} {next : A → Asking Q A ε α} {answer : A} {result : Except ε α}
      (hnext : Ends (next answer) result) : Ends (.ask question next) result

/-- Some answers lead to this value. -/
def Returns (computation : Asking Q A ε α) (value : α) : Prop := computation.Ends (.ok value)

def Asks (P : Q → Prop) : Asking Q A ε α → Prop
  | .done _ => True
  | .ask question next => P question ∧ ∀ answer, (next answer).Asks P

@[simp] theorem ends_done {result other : Except ε α} :
    (Asking.done (Q := Q) (A := A) result).Ends other ↔ result = other := by
  constructor
  · intro hends
    cases hends
    rfl
  · rintro rfl
    exact .done result

@[simp] theorem ends_ask {question : Q} {next : A → Asking Q A ε α} {result : Except ε α} :
    (Asking.ask question next).Ends result ↔ ∃ answer, (next answer).Ends result := by
  constructor
  · intro hends
    cases hends with
    | ask hnext => exact ⟨_, hnext⟩
  · rintro ⟨answer, hnext⟩
    exact .ask hnext

variable {computation : Asking Q A ε α} {P : Q → Prop} {value : α} {next : α → Asking Q A ε β}
  {step : Except ε α} {result : Except ε' β}

theorem ends_andThen {next : Except ε α → Asking Q A ε' β} :
    (computation.andThen next).Ends result ↔
      ∃ middle, computation.Ends middle ∧ (next middle).Ends result := by
  induction computation with
  | done middle => simp [andThen]
  | ask question rest ih =>
      simp only [andThen, ends_ask, ih]
      constructor
      · rintro ⟨answer, middle, hrest, hnext⟩
        exact ⟨middle, ⟨answer, hrest⟩, hnext⟩
      · rintro ⟨middle, ⟨answer, hrest⟩, hnext⟩
        exact ⟨answer, middle, hrest, hnext⟩

theorem asks_andThen {next : Except ε α → Asking Q A ε' β} :
    (computation.andThen next).Asks P ↔
      computation.Asks P ∧ ∀ middle, computation.Ends middle → (next middle).Asks P := by
  induction computation with
  | done middle => simp [andThen, Asks]
  | ask question rest ih =>
      simp only [andThen, Asks, ih, ends_ask]
      constructor
      · rintro ⟨hquestion, hrest⟩
        refine ⟨⟨hquestion, fun answer => (hrest answer).1⟩, ?_⟩
        rintro middle ⟨answer, hends⟩
        exact (hrest answer).2 middle hends
      · rintro ⟨⟨hquestion, hrest⟩, hnext⟩
        exact ⟨hquestion, fun answer =>
          ⟨hrest answer, fun middle hends => hnext middle ⟨answer, hends⟩⟩⟩

/-! ## Steps one after another -/

theorem returns_pure {other : α} : (pure value : Asking Q A ε α).Returns other ↔ value = other := by
  change (Asking.done (.ok value)).Ends (.ok other) ↔ _
  rw [ends_done, Except.ok.injEq]

theorem returns_bind {value : β} :
    (computation >>= next).Returns value ↔
      ∃ middle, computation.Returns middle ∧ (next middle).Returns value := by
  change (computation.andThen _).Ends _ ↔ _
  rw [ends_andThen]
  constructor
  · rintro ⟨middle, hends, hnext⟩
    cases middle with
    | error error => simp at hnext
    | ok middle => exact ⟨middle, hends, hnext⟩
  · rintro ⟨middle, hends, hnext⟩
    exact ⟨.ok middle, hends, hnext⟩

theorem asks_bind :
    (computation >>= next).Asks P ↔
      computation.Asks P ∧ ∀ middle, computation.Returns middle → (next middle).Asks P := by
  change (computation.andThen _).Asks P ↔ _
  rw [asks_andThen]
  apply and_congr_right
  intro _
  constructor
  · intro hnext middle hreturns
    exact hnext (.ok middle) hreturns
  · intro hnext middle hends
    cases middle with
    | error error => trivial
    | ok middle => exact hnext middle hends

/-- A step that can fail asks nothing. -/
theorem returns_lift : (liftM step : Asking Q A ε α).Returns value ↔ step = .ok value := ends_done

@[simp] theorem asks_lift : (liftM step : Asking Q A ε α).Asks P :=
  trivial

@[simp] theorem asks_lift_bind :
    ((liftM step : Asking Q A ε α) >>= next).Asks P ↔
      ∀ value, step = .ok value → (next value).Asks P := by
  rw [asks_bind, and_iff_right asks_lift]
  simp only [returns_lift]

theorem asks_bind_of (hasks : computation.Asks P) (hnext : ∀ value, (next value).Asks P) :
    (computation >>= next).Asks P :=
  asks_bind.mpr ⟨hasks, fun value _ => hnext value⟩

@[simp] theorem asks_pure : (pure value : Asking Q A ε α).Asks P := trivial

/-- After a step that succeeds the computation is what follows. -/
theorem lift_bind_of_ok (hok : step = .ok value) (next : α → Asking Q A ε β) :
    (liftM step : Asking Q A ε α) >>= next = next value := by
  subst hok
  rfl

theorem andThen_eq_done {next : Except ε α → Asking Q A ε' β} :
    computation.andThen next = .done result ↔
      ∃ middle, computation = .done middle ∧ next middle = .done result := by
  cases computation with
  | done middle => simp [andThen]
  | ask question rest => simp [andThen]

theorem bind_eq_done {value : β} :
    computation >>= next = .done (.ok value) ↔
      ∃ middle, computation = .done (.ok middle) ∧ next middle = .done (.ok value) := by
  change computation.andThen _ = _ ↔ _
  rw [andThen_eq_done]
  constructor
  · rintro ⟨middle, hdone, hnext⟩
    cases middle with
    | error error => simp at hnext
    | ok middle => exact ⟨middle, hdone, hnext⟩
  · rintro ⟨middle, hdone, hnext⟩
    exact ⟨.ok middle, hdone, hnext⟩

def firstQuestion : Asking Q A ε α → Option Q
  | .done _ => none
  | .ask question _ => some question

theorem Asks.firstQuestion (hasks : computation.Asks P) {question : Q}
    (hfirst : computation.firstQuestion = some question) : P question := by
  cases computation with
  | done result => cases hfirst
  | ask first next =>
      cases hfirst
      exact hasks.1

end Asking

end KjAtlas
