import Mathlib.Data.List.Chain

/-! # Runs of transactions

Calls are answered one after the other. A call that succeeds yields an answer
and the next state; a call that fails leaves the state as it was. The journal of
a run lists the calls that succeeded, with their answers, in order. What holds
of the empty journal and is kept by every success holds after every run.
-/

namespace KjAtlas

/-! ## Steps that can fail -/

section Fallible

variable {α β ε : Type}

/-- Go on if a condition holds, else fail. -/
def ensure (condition : Prop) [Decidable condition] (error : ε) : Except ε Unit :=
  if condition then .ok () else .error error

def found (error : ε) : Option α → Except ε α
  | some value => .ok value
  | none => .error error

variable {next : α → Except ε β}

theorem bind_eq_ok {step : Except ε α} {value : β} :
    step >>= next = .ok value ↔ ∃ middle, step = .ok middle ∧ next middle = .ok value := by
  cases step with
  | error error => simp [bind, Except.bind]
  | ok middle => simp [bind, Except.bind]

variable {error : ε} {step : Except ε α} {condition : Prop} {option : Option α} {P : ε → Prop}

/-- A step fails, or what follows it fails. -/
theorem bind_eq_error :
    step >>= next = .error error ↔
      step = .error error ∨ ∃ middle, step = .ok middle ∧ next middle = .error error := by
  cases step with
  | error other => simp [bind, Except.bind]
  | ok middle => simp [bind, Except.bind]

@[simp] theorem pure_eq_ok {value other : α} :
    (pure value : Except ε α) = .ok other ↔ value = other := by
  simp [pure, Except.pure]

@[simp] theorem ensure_eq_ok [Decidable condition] {value : Unit} :
    ensure condition error = .ok value ↔ condition := by
  unfold ensure
  split
  next hcondition => simp [hcondition]
  next hcondition => simp [hcondition]

theorem ensure_eq_error [Decidable condition] {raised : ε} :
    ensure condition error = .error raised ↔ ¬ condition ∧ error = raised := by
  unfold ensure
  split
  next hcondition => simp [hcondition]
  next hcondition => simp [hcondition]

@[simp] theorem found_eq_ok {value : α} : found error option = .ok value ↔ option = some value := by
  cases option with
  | none => simp [found]
  | some other => simp [found]

theorem found_eq_error {raised : ε} :
    found error option = .error raised ↔ option = none ∧ error = raised := by
  cases option with
  | none => simp [found]
  | some other => simp [found]

@[simp] theorem mapError_eq_ok {ε' : Type} {rename : ε → ε'} {value : α} :
    step.mapError rename = .ok value ↔ step = .ok value := by
  cases step with
  | error error => simp [Except.mapError]
  | ok other => simp [Except.mapError]

def OnlyRaises (P : ε → Prop) (step : Except ε α) : Prop := ∀ error, step = .error error → P error

theorem onlyRaises_ok (value : α) : OnlyRaises P (.ok value) := by
  intro error herror
  cases herror

theorem OnlyRaises.bind (hstep : OnlyRaises P step)
    (hnext : ∀ value, step = .ok value → OnlyRaises P (next value)) :
    OnlyRaises P (step >>= next) := by
  intro error herror
  cases hvalue : step with
  | error other =>
      rw [hvalue] at herror
      obtain rfl := Except.error.inj herror
      exact hstep _ hvalue
  | ok value =>
      rw [hvalue] at herror
      exact hnext value hvalue error herror

theorem onlyRaises_ensure [Decidable condition] (herror : P error) :
    OnlyRaises P (ensure condition error) := by
  unfold ensure
  split
  · exact onlyRaises_ok ()
  · rintro _ ⟨⟩
    exact herror

theorem onlyRaises_found (herror : P error) : OnlyRaises P (found error option) := by
  cases option with
  | none =>
      rintro _ ⟨⟩
      exact herror
  | some value => exact onlyRaises_ok value

theorem mapM_eq_ok {f : α → Except ε β} {items : List α} {values : List β} :
    items.mapM f = .ok values ↔ List.Forall₂ (fun item value => f item = .ok value) items values := by
  induction items generalizing values with
  | nil =>
      rw [List.mapM_nil, List.forall₂_nil_left_iff]
      exact ⟨fun hok => (Except.ok.inj hok).symm, fun hnil => hnil ▸ rfl⟩
  | cons item items ih =>
      rw [List.mapM_cons, List.forall₂_cons_left_iff]
      simp only [bind_eq_ok, ih]
      constructor
      · rintro ⟨value, hvalue, rest, hrest, hok⟩
        exact ⟨value, rest, hvalue, hrest, (Except.ok.inj hok).symm⟩
      · rintro ⟨value, rest, hvalue, hrest, rfl⟩
        exact ⟨value, hvalue, rest, hrest, rfl⟩

theorem foldlM_eq_ok {step : β → α → Except ε β} {reached : List α → β} {items : List α}
    (hstep : ∀ before item after, items = before ++ item :: after →
      step (reached before) item = .ok (reached (before ++ [item]))) :
    items.foldlM step (reached []) = .ok (reached items) := by
  suffices hsuffix : ∀ before after, items = before ++ after →
      after.foldlM step (reached before) = .ok (reached items) from hsuffix [] items rfl
  intro before after hsplit
  induction after generalizing before with
  | nil => simp [hsplit, pure, Except.pure]
  | cons item after ih =>
      rw [List.foldlM_cons, hstep before item after hsplit]
      exact ih (before ++ [item]) (by rw [hsplit, List.append_assoc, List.singleton_append])

end Fallible

/-! ## Runs -/

variable {σ ℓ ρ ε : Type*}

/-- The state that a run has reached, and the successes on the way. -/
structure Run (σ ℓ ρ : Type*) where
  journal : List (ℓ × ρ)
  state : σ

def Run.call (serve : σ → ℓ → Except ε (ρ × σ)) (run : Run σ ℓ ρ) (call : ℓ) : Run σ ℓ ρ :=
  match serve run.state call with
  | .ok (answer, next) => ⟨run.journal ++ [(call, answer)], next⟩
  | .error _ => run

def runCalls (serve : σ → ℓ → Except ε (ρ × σ)) (start : σ) (calls : List ℓ) : Run σ ℓ ρ :=
  calls.foldl (Run.call serve) ⟨[], start⟩

variable {serve : σ → ℓ → Except ε (ρ × σ)}

@[simp] theorem runCalls_nil (start : σ) : runCalls serve start [] = ⟨[], start⟩ := rfl

theorem runCalls_append (start : σ) (calls later : List ℓ) :
    runCalls serve start (calls ++ later) =
      later.foldl (Run.call serve) (runCalls serve start calls) := by
  unfold runCalls
  rw [List.foldl_append]

theorem runCalls_snoc (start : σ) (calls : List ℓ) (call : ℓ) :
    runCalls serve start (calls ++ [call]) = (runCalls serve start calls).call serve call := by
  rw [runCalls_append]
  rfl

variable {run : Run σ ℓ ρ} {start : σ} {C : Run σ ℓ ρ → ℓ → Prop} {calls : List ℓ}
  {R : σ → σ → Prop}

/-- A call that fails changes neither the state nor the journal. -/
theorem Run.call_of_error {call : ℓ} {error : ε} (herror : serve run.state call = .error error) :
    run.call serve call = run := by
  unfold Run.call
  rw [herror]

theorem Run.call_of_ok {call : ℓ} {answer : ρ} {next : σ}
    (hok : serve run.state call = .ok (answer, next)) :
    run.call serve call = ⟨run.journal ++ [(call, answer)], next⟩ := by
  unfold Run.call
  rw [hok]

theorem Run.call_keeps {P : Run σ ℓ ρ → Prop} {run : Run σ ℓ ρ} {call : ℓ} (hrun : P run)
    (hstep : ∀ answer next, serve run.state call = .ok (answer, next) →
      P ⟨run.journal ++ [(call, answer)], next⟩) : P (run.call serve call) := by
  cases hserve : serve run.state call with
  | error error =>
      rw [Run.call_of_error hserve]
      exact hrun
  | ok pair =>
      obtain ⟨answer, next⟩ := pair
      rw [Run.call_of_ok hserve]
      exact hstep answer next hserve

/-- What every success keeps is kept by any further calls. -/
theorem foldl_call {P : Run σ ℓ ρ → Prop}
    (hstep : ∀ run call answer next, P run → serve run.state call = .ok (answer, next) →
      P ⟨run.journal ++ [(call, answer)], next⟩) (calls : List ℓ) (hrun : P run) :
    P (calls.foldl (Run.call serve) run) := by
  induction calls generalizing run with
  | nil => exact hrun
  | cons call calls ih =>
      rw [List.foldl_cons]
      exact ih (Run.call_keeps hrun fun answer next => hstep run call answer next hrun)

/-- What holds at the start and is kept by every success holds after every run. -/
theorem runCalls_induction {P : Run σ ℓ ρ → Prop} (hstart : P ⟨[], start⟩)
    (hstep : ∀ run call answer next, P run → serve run.state call = .ok (answer, next) →
      P ⟨run.journal ++ [(call, answer)], next⟩) (calls : List ℓ) :
    P (runCalls serve start calls) :=
  foldl_call hstep calls hstart

theorem runCalls_invariant {I : σ → Prop} (hstart : I start)
    (hstep : ∀ state call answer next, I state → serve state call = .ok (answer, next) → I next)
    (calls : List ℓ) : I (runCalls serve start calls).state :=
  runCalls_induction (P := fun run => I run.state) hstart
    (fun run call answer next hrun hserve => hstep run.state call answer next hrun hserve) calls

def CallsMeet (serve : σ → ℓ → Except ε (ρ × σ)) (start : σ) (C : Run σ ℓ ρ → ℓ → Prop)
    (calls : List ℓ) : Prop :=
  ∀ before call after, calls = before ++ call :: after → C (runCalls serve start before) call

instance {start : σ} {C : Run σ ℓ ρ → ℓ → Prop} {calls : List ℓ}
    [∀ run call, Decidable (C run call)] : Decidable (CallsMeet serve start C calls) :=
  decidable_of_iff
    (∀ index : Fin calls.length, C (runCalls serve start (calls.take index)) calls[index]) <| by
      constructor
      · rintro hall before call after rfl
        simpa using hall ⟨before.length, by simp⟩
      · intro hmeet index
        apply hmeet _ _ (calls.drop (index + 1))
        rw [Fin.getElem_fin, List.getElem_cons_drop, List.take_append_drop]

theorem callsMeet_and {D : Run σ ℓ ρ → ℓ → Prop} :
    CallsMeet serve start (fun run call => C run call ∧ D run call) calls ↔
      CallsMeet serve start C calls ∧ CallsMeet serve start D calls := by
  unfold CallsMeet
  grind

theorem CallsMeet.left {later : List ℓ} (hmeet : CallsMeet serve start C (calls ++ later)) :
    CallsMeet serve start C calls := by
  intro before call after hsplit
  exact hmeet before call (after ++ later) (by rw [hsplit]; simp)

theorem callsMeet_snoc {call : ℓ} : CallsMeet serve start C (calls ++ [call]) ↔
    CallsMeet serve start C calls ∧ C (runCalls serve start calls) call := by
  constructor
  · exact fun hmeet => ⟨hmeet.left, hmeet calls call [] rfl⟩
  · rintro ⟨hmeet, hlast⟩ before other after hsplit
    rcases List.eq_nil_or_concat after with rfl | ⟨after, last, rfl⟩
    · obtain ⟨rfl, hother⟩ := List.append_inj' hsplit rfl
      rwa [← List.head_eq_of_cons_eq hother]
    · rw [List.concat_eq_append, ← List.cons_append, ← List.append_assoc] at hsplit
      exact hmeet before other after (List.append_inj' hsplit rfl).1

section

variable {P : Run σ ℓ ρ → Prop} {D : Run σ ℓ ρ → ℓ → Prop} (hstart : P ⟨[], start⟩)
  (hstep : ∀ run call answer next, P run → C run call →
    serve run.state call = .ok (answer, next) → P ⟨run.journal ++ [(call, answer)], next⟩)
include hstart hstep

/-- What holds at the start and is kept by every success that meets a condition holds after every
run whose calls meet the condition. -/
theorem runCalls_induction_of_meet (hmeet : CallsMeet serve start C calls) : P (runCalls serve start calls) := by
  induction calls using List.reverseRecOn with
  | nil => exact hstart
  | append_singleton calls call ih =>
      have hrun : P (runCalls serve start calls) := ih hmeet.left
      rw [runCalls_snoc]
      exact Run.call_keeps hrun fun answer next =>
        hstep _ call answer next hrun (hmeet calls call [] rfl)

theorem CallsMeet.of_invariant (himplies : ∀ run call, P run → C run call → D run call)
    (hmeet : CallsMeet serve start C calls) : CallsMeet serve start D calls := by
  intro before call after hsplit
  have hbefore : CallsMeet serve start C before := by
    rw [hsplit] at hmeet
    exact hmeet.left
  exact himplies _ _ (runCalls_induction_of_meet hstart hstep hbefore)
    (hmeet before call after hsplit)

/-- Two conditions that agree wherever an invariant holds, which is kept where they are met, are
met by the same runs. -/
theorem callsMeet_iff_of_invariant (hiff : ∀ run call, P run → (C run call ↔ D run call)) :
    CallsMeet serve start C calls ↔ CallsMeet serve start D calls := by
  constructor
  · exact CallsMeet.of_invariant hstart hstep fun run call hrun => (hiff run call hrun).mp
  · refine CallsMeet.of_invariant hstart ?_ fun run call hrun => (hiff run call hrun).mpr
    exact fun run call answer next hrun hmeets =>
      hstep run call answer next hrun ((hiff run call hrun).mpr hmeets)

end

theorem journal_of_total (htotal : ∀ state call, ∃ answer next,
      serve state call = .ok (answer, next)) (start : σ) (calls : List ℓ) :
    (runCalls serve start calls).journal.map Prod.fst = calls := by
  induction calls using List.reverseRecOn with
  | nil => rfl
  | append_singleton calls call ih =>
      obtain ⟨answer, next, hserve⟩ := htotal (runCalls serve start calls).state call
      rw [runCalls_snoc, Run.call_of_ok hserve, List.map_append, ih]
      rfl

/-- A relation that no success leaves relates the states before and after further calls. -/
theorem runCalls_later (hrefl : ∀ state, R state state) (htrans : ∀ a b c, R a b → R b c → R a c)
    (hstep : ∀ state call answer next, serve state call = .ok (answer, next) → R state next)
    (start : σ) (calls later : List ℓ) :
    R (runCalls serve start calls).state (runCalls serve start (calls ++ later)).state := by
  rw [runCalls_append]
  exact foldl_call (P := fun run => R (runCalls serve start calls).state run.state)
    (fun run call answer next hrun hserve =>
      htrans _ _ _ hrun (hstep run.state call answer next hserve))
    later (hrefl _)

theorem journal_isPrefix (start : σ) (calls later : List ℓ) :
    (runCalls serve start calls).journal <+: (runCalls serve start (calls ++ later)).journal := by
  rw [runCalls_append]
  refine foldl_call (P := fun run => (runCalls serve start calls).journal <+: run.journal) ?_ later
    (List.prefix_refl _)
  exact fun run call answer next hprefix _ => hprefix.trans (List.prefix_append _ _)

theorem journal_sublist (start : σ) (calls : List ℓ) :
    ((runCalls serve start calls).journal.map Prod.fst).Sublist calls := by
  induction calls using List.reverseRecOn with
  | nil => exact List.Sublist.refl []
  | append_singleton calls call ih =>
      rw [runCalls_snoc]
      cases hserve : serve (runCalls serve start calls).state call with
      | error error =>
          rw [Run.call_of_error hserve]
          exact ih.trans (List.sublist_append_left _ _)
      | ok pair =>
          obtain ⟨answer, next⟩ := pair
          rw [Run.call_of_ok hserve, List.map_append]
          exact ih.append (List.Sublist.refl [call])

/-- Calls that are related to all calls before them are related to those that succeeded. -/
theorem callsMeet_of_pairwise {R : ℓ → ℓ → Prop} (hpairwise : calls.Pairwise R) :
    CallsMeet serve start (fun run call => ∀ entry ∈ run.journal, R entry.1 call) calls := by
  rintro before call after rfl entry hentry
  have hbefore : entry.1 ∈ before :=
    (journal_sublist start before).subset (List.mem_map_of_mem hentry)
  exact (List.pairwise_append.mp hpairwise).2.2 entry.1 hbefore call List.mem_cons_self

def Run.steps (serve : σ → ℓ → Except ε (ρ × σ)) (run : Run σ ℓ ρ) : List ℓ → List (σ × ℓ)
  | [] => []
  | call :: calls =>
      match serve run.state call with
      | .ok _ => (run.state, call) :: (run.call serve call).steps serve calls
      | .error _ => (run.call serve call).steps serve calls

/-- What one success keeps exactly under a condition, a run keeps exactly if all its successes
meet the condition. -/
theorem foldl_call_iff {I J : σ → Prop} {C : σ → ℓ → Prop}
    (hkeeps : ∀ state call answer next, J state → serve state call = .ok (answer, next) → J next)
    (hstep : ∀ state call answer next, J state → serve state call = .ok (answer, next) →
      (I next ↔ I state ∧ C state call)) (calls : List ℓ) (hrun : J run.state) :
    I (calls.foldl (Run.call serve) run).state ↔
      I run.state ∧ ∀ step ∈ run.steps serve calls, C step.1 step.2 := by
  induction calls generalizing run with
  | nil => simp [Run.steps]
  | cons call calls ih =>
      rw [List.foldl_cons, Run.steps]
      cases hserve : serve run.state call with
      | error error =>
          rw [Run.call_of_error hserve]
          exact ih hrun
      | ok pair =>
          obtain ⟨answer, next⟩ := pair
          rw [Run.call_of_ok hserve, ih (hkeeps _ _ _ _ hrun hserve),
            hstep _ _ _ _ hrun hserve, List.forall_mem_cons, and_assoc]

/-! ## The states on the way -/

def Run.visited (serve : σ → ℓ → Except ε (ρ × σ)) (run : Run σ ℓ ρ) : List ℓ → List σ
  | [] => [run.state]
  | call :: calls => run.state :: (run.call serve call).visited serve calls

/-- How often a part of the state changes from one state to the next. -/
def countChanges {β : Type*} [DecidableEq β] (part : σ → β) : List σ → Nat
  | first :: second :: rest =>
      (if part first = part second then 0 else 1) + countChanges part (second :: rest)
  | _ => 0

theorem Run.visited_ne_nil (run : Run σ ℓ ρ) (calls : List ℓ) : run.visited serve calls ≠ [] := by
  cases calls <;> simp [Run.visited]

theorem Run.head_visited (run : Run σ ℓ ρ) (calls : List ℓ) :
    (run.visited serve calls).head (run.visited_ne_nil calls) = run.state := by
  cases calls <;> rfl

/-- Neighbouring states are related by what every success relates. -/
theorem Run.isChain_visited (hrefl : ∀ state, R state state)
    (hstep : ∀ state call answer next, serve state call = .ok (answer, next) → R state next)
    (run : Run σ ℓ ρ) (calls : List ℓ) : (run.visited serve calls).IsChain R := by
  induction calls generalizing run with
  | nil => exact List.isChain_singleton _
  | cons call calls ih =>
      unfold Run.visited
      rw [List.isChain_cons]
      refine ⟨?_, ih _⟩
      intro second hsecond
      rw [List.head?_eq_some_head ((run.call serve call).visited_ne_nil calls),
        Run.head_visited] at hsecond
      cases hsecond
      cases hserve : serve run.state call with
      | error error =>
          rw [Run.call_of_error hserve]
          exact hrefl _
      | ok pair =>
          obtain ⟨answer, next⟩ := pair
          rw [Run.call_of_ok hserve]
          exact hstep _ _ _ _ hserve

theorem Run.counts_changes {β : Type*} [DecidableEq β] (part : σ → β) (counter : σ → Nat)
    (hstep : ∀ state call answer next, serve state call = .ok (answer, next) →
      counter next = counter state + if part state = part next then 0 else 1)
    (run : Run σ ℓ ρ) (calls : List ℓ) :
    counter (calls.foldl (Run.call serve) run).state =
      counter run.state + countChanges part (run.visited serve calls) := by
  induction calls generalizing run with
  | nil => rfl
  | cons call calls ih =>
      have hcounter : counter (run.call serve call).state =
          counter run.state + if part run.state = part (run.call serve call).state then 0 else 1 := by
        cases hserve : serve run.state call with
        | error error => simp [Run.call_of_error hserve]
        | ok pair =>
            obtain ⟨answer, next⟩ := pair
            rw [Run.call_of_ok hserve]
            exact hstep _ _ _ _ hserve
      have hvisited : countChanges part (run.visited serve (call :: calls)) =
          (if part run.state = part (run.call serve call).state then 0 else 1) +
            countChanges part ((run.call serve call).visited serve calls) := by
        cases calls <;> rfl
      rw [List.foldl_cons, ih, hcounter, hvisited]
      omega

end KjAtlas
