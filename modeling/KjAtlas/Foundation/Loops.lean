import Mathlib.Data.Set.Finite.Basic
import Mathlib.Order.WellFounded

/-! # Loops that can raise

A loop repeats its body while the body yields a next state; the body can raise.
With an invariant and a measure that every round decreases, the loop ends
without raising in a state that meets the invariant.

Peeling takes away, round by round, the items of a list that no remaining item
blocks. If the items cannot block each other in a circle, it ends with an order
in which every item comes after those that block it.
-/

namespace KjAtlas

section Repeat

variable {σ ε : Type*}

/-- Repeat a body, at most `fuel` times. -/
def repeatLoop (body : σ → Option (Except ε σ)) : Nat → σ → Except ε σ
  | 0, state => .ok state
  | fuel + 1, state =>
      match body state with
      | none => .ok state
      | some (.error error) => .error error
      | some (.ok next) => repeatLoop body fuel next

/-- A loop with an invariant and a measure ends, with fuel for the measure. -/
theorem repeatLoop_total {body : σ → Option (Except ε σ)} {I : σ → Prop} {m : σ → Nat}
    (hbody : ∀ state, I state → body state = none ∨
      ∃ next, body state = some (.ok next) ∧ I next ∧ m next < m state)
    {fuel : Nat} {state : σ} (hstate : I state) (hfuel : m state ≤ fuel) :
    ∃ final, repeatLoop body fuel state = .ok final ∧ I final ∧ body final = none := by
  induction fuel generalizing state with
  | zero =>
      obtain hdone | ⟨next, -, -, hless⟩ := hbody state hstate
      · exact ⟨state, rfl, hstate, hdone⟩
      · omega
  | succ fuel ih =>
      unfold repeatLoop
      obtain hdone | ⟨next, hnext, hinvariant, hless⟩ := hbody state hstate
      · rw [hdone]
        exact ⟨state, rfl, hstate, hdone⟩
      · rw [hnext]
        exact ih hinvariant (by omega)

end Repeat

/-! ## Peeling -/

section Peel

variable {α ε : Type} [DecidableEq α]

def readyItems (sort : List α → List α) (blockers : α → List α) (remaining : List α) : List α :=
  sort (remaining.filter fun item => ∀ blocker ∈ blockers item, blocker ∉ remaining)

/-- One round: the items that nothing remaining blocks, sorted, leave the rest. It raises if there
are none. -/
def peelRound (sort : List α → List α) (blockers : α → List α) (stuck : ε) :
    List α × List α → Option (Except ε (List α × List α))
  | (_, []) => none
  | (order, first :: rest) =>
      let remaining := first :: rest
      let ready := readyItems sort blockers remaining
      if ready.isEmpty then some (.error stuck)
      else some (.ok (order ++ ready, remaining.filter fun item => item ∉ ready))

/-- Take away all items. -/
def peel (sort : List α → List α) (blockers : α → List α) (stuck : ε) (items : List α) :
    Except ε (List α) :=
  (repeatLoop (peelRound sort blockers stuck) items.length ([], items)).map Prod.fst

def AfterBlockers (blockers : α → List α) (items order : List α) : Prop :=
  ∀ before item after, order = before ++ item :: after →
    ∀ blocker ∈ blockers item, blocker ∈ items → blocker ∈ before

variable {blockers : α → List α} {remaining : List α} {sort : List α → List α} {items : List α}

theorem exists_unblocked
    (hacyclic : ∀ item, ¬ Relation.TransGen (fun item blocker => blocker ∈ blockers item) item item)
    (hitems : items ≠ []) : ∃ item ∈ items, ∀ blocker ∈ blockers item, blocker ∉ items := by
  let later : {item // item ∈ items.toFinset} → {item // item ∈ items.toFinset} → Prop :=
    fun blocker item => Relation.TransGen (fun item blocker => blocker ∈ blockers item) item blocker
  have htrans : IsTrans _ later := ⟨fun _ _ _ hfirst hsecond => hsecond.trans hfirst⟩
  have hirrefl : Std.Irrefl later := ⟨fun item hitem => hacyclic item hitem⟩
  have hwf : WellFounded later := Finite.wellFounded_of_trans_of_irrefl later
  obtain ⟨start, hstart⟩ := List.exists_mem_of_ne_nil items hitems
  obtain ⟨⟨item, hitem⟩, -, hleast⟩ :=
    hwf.has_min Set.univ ⟨⟨start, List.mem_toFinset.mpr hstart⟩, trivial⟩
  refine ⟨item, List.mem_toFinset.mp hitem, fun blocker hblocker hmem => ?_⟩
  exact hleast ⟨blocker, List.mem_toFinset.mpr hmem⟩ trivial (.single hblocker)

section

variable (hsort : ∀ items, (sort items).Perm items)
include hsort

theorem mem_readyItems {item : α} :
    item ∈ readyItems sort blockers remaining ↔
      item ∈ remaining ∧ ∀ blocker ∈ blockers item, blocker ∉ remaining := by
  rw [readyItems, (hsort _).mem_iff, List.mem_filter, decide_eq_true_eq]

/-- The items after a round, in another order, are those before it. -/
theorem perm_readyItems (hnodup : remaining.Nodup) :
    (readyItems sort blockers remaining ++
      remaining.filter fun item => item ∉ readyItems sort blockers remaining).Perm remaining := by
  have hsplit := List.filter_append_perm
    (fun item => decide (item ∈ readyItems sort blockers remaining)) remaining
  refine List.Perm.trans (List.Perm.append ?_ ?_) hsplit
  · have hready : (readyItems sort blockers remaining).Nodup :=
      (hsort _).nodup_iff.mpr (hnodup.filter _)
    rw [List.perm_ext_iff_of_nodup hready (hnodup.filter _)]
    intro item
    rw [List.mem_filter, decide_eq_true_eq]
    exact ⟨fun hready => ⟨((mem_readyItems hsort).mp hready).1, hready⟩, fun hready => hready.2⟩
  · simp

theorem AfterBlockers.append {order : List α}
    (horder : AfterBlockers blockers items order) (hperm : (order ++ remaining).Perm items) :
    AfterBlockers blockers items (order ++ readyItems sort blockers remaining) := by
  intro before item after hsplit blocker hblocker hmem
  rcases List.append_eq_append_iff.mp hsplit with ⟨more, hbefore, hready⟩ | ⟨more, horder', hafter⟩
  · -- The item is ready: what blocks it is not remaining.
    have hitem : item ∈ readyItems sort blockers remaining := by simp [hready]
    have hgone := ((mem_readyItems hsort).mp hitem).2 blocker hblocker
    have hall : blocker ∈ order ++ remaining := hperm.mem_iff.mpr hmem
    rw [hbefore]
    exact List.mem_append_left _ ((List.mem_append.mp hall).resolve_right hgone)
  · cases more with
    | nil =>
        have hitem : item ∈ readyItems sort blockers remaining := by
          rw [List.nil_append] at hafter
          simp [← hafter]
        have hgone := ((mem_readyItems hsort).mp hitem).2 blocker hblocker
        have hall : blocker ∈ order ++ remaining := hperm.mem_iff.mpr hmem
        rw [horder', List.append_nil] at hall
        exact (List.mem_append.mp hall).resolve_right hgone
    | cons other more =>
        obtain ⟨rfl, -⟩ := List.cons.inj hafter
        exact horder before item more horder' blocker hblocker hmem

theorem peel_eq_ok
    (hacyclic : ∀ item, ¬ Relation.TransGen (fun item blocker => blocker ∈ blockers item) item item)
    (stuck : ε) (hitems : items.Nodup) :
    ∃ order, peel sort blockers stuck items = .ok order ∧ order.Perm items ∧
      AfterBlockers blockers items order := by
  let I : List α × List α → Prop := fun state =>
    (state.1 ++ state.2).Perm items ∧ AfterBlockers blockers items state.1
  obtain ⟨⟨order, remaining⟩, hloop, ⟨hperm, horder⟩, hdone⟩ :
      ∃ final, repeatLoop (peelRound sort blockers stuck) items.length ([], items) = .ok final ∧
        I final ∧ peelRound sort blockers stuck final = none := by
    apply repeatLoop_total (m := fun state => state.2.length)
    · rintro ⟨order, remaining⟩ ⟨hperm, horder⟩
      cases remaining with
      | nil => exact Or.inl rfl
      | cons first rest =>
          right
          obtain ⟨item, hitem, hunblocked⟩ :=
            exists_unblocked hacyclic (List.cons_ne_nil first rest)
          have hready : item ∈ readyItems sort blockers (first :: rest) :=
            (mem_readyItems hsort).mpr ⟨hitem, hunblocked⟩
          have hnodup : (first :: rest).Nodup :=
            (hperm.nodup_iff.mpr hitems).of_append_right
          refine ⟨_, if_neg ?_, ⟨?_, ?_⟩, ?_⟩
          · rw [List.isEmpty_iff]
            exact List.ne_nil_of_mem hready
          · rw [List.append_assoc]
            exact ((perm_readyItems hsort hnodup).append_left order).trans hperm
          · exact horder.append hsort hperm
          · exact List.length_filter_lt_length_iff_exists.mpr ⟨item, hitem, by simp [hready]⟩
    · exact ⟨List.Perm.refl _, by simp [AfterBlockers]⟩
    · exact le_refl _
  cases remaining with
  | nil =>
      refine ⟨order, by rw [peel, hloop]; rfl, ?_, horder⟩
      simpa using hperm
  | cons first rest =>
      simp only [peelRound] at hdone
      split at hdone <;> nomatch hdone

end

end Peel

end KjAtlas
