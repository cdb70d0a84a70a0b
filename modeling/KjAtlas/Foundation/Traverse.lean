import Mathlib.Data.List.Forall2

/-! # Reading and folding lists -/

namespace KjAtlas

/-- A list is read back up to a relation when each of its items is. -/
theorem exists_mapM_iff {α β γ : Type} {f : α → Option β} {g : β → γ} {h : α → γ} {xs : List α} :
    (∃ ys, xs.mapM f = some ys ∧ ys.map g = xs.map h) ↔
      ∀ x ∈ xs, ∃ y, f x = some y ∧ g y = h x := by
  induction xs with
  | nil => simp
  | cons x xs ih =>
      rw [List.forall_mem_cons, ← ih, List.mapM_cons]
      constructor
      · rintro ⟨ys, hys, hmap⟩
        simp only [Option.bind_eq_bind, Option.bind_eq_some_iff, Option.pure_def,
          Option.some.injEq] at hys
        obtain ⟨y, hy, ys, hys, rfl⟩ := hys
        rw [List.map_cons, List.map_cons, List.cons.injEq] at hmap
        exact ⟨⟨y, hy, hmap.1⟩, ys, hys, hmap.2⟩
      · rintro ⟨⟨y, hy, hhead⟩, ys, hys, htail⟩
        refine ⟨y :: ys, ?_, ?_⟩
        · rw [hy, hys]
          rfl
        · rw [List.map_cons, hhead, htail, List.map_cons]

variable {α : Type} {xs : List α}

/-- When each item of a list is read, nothing of the list is left out. -/
theorem map_filterMap_of_forall {β γ : Type} {f : α → Option β} {g : β → γ} {h : α → γ}
    (hitem : ∀ x ∈ xs, ∃ y, f x = some y ∧ g y = h x) : (xs.filterMap f).map g = xs.map h := by
  induction xs with
  | nil => rfl
  | cons x xs ih =>
      rw [List.forall_mem_cons] at hitem
      obtain ⟨y, hy, hhead⟩ := hitem.1
      rw [List.filterMap_cons_some hy, List.map_cons, List.map_cons, hhead, ih hitem.2]

/-- The items of a list that is read are read one by one. -/
theorem forall₂_of_mapM {β : Type} {f : α → Option β} {ys : List β} (hread : xs.mapM f = some ys) :
    List.Forall₂ (fun x y => f x = some y) xs ys := by
  induction xs generalizing ys with
  | nil =>
      rw [List.mapM_nil] at hread
      rw [← Option.some.inj hread]
      exact List.Forall₂.nil
  | cons x xs ih =>
      simp only [List.mapM_cons, Option.bind_eq_bind, Option.bind_eq_some_iff, Option.pure_def,
        Option.some.injEq] at hread
      obtain ⟨y, hy, ys, hys, rfl⟩ := hread
      exact List.Forall₂.cons hy (ih hys)

theorem exists_of_forall₂_right {β : Type} {R : α → β → Prop} {items : List α} {others : List β}
    (hitems : List.Forall₂ R items others) {other : β} (hother : other ∈ others) :
    ∃ item ∈ items, R item other := by
  induction hitems with
  | nil => exact absurd hother List.not_mem_nil
  | @cons head _ items _ hhead _ ih =>
      rcases List.mem_cons.mp hother with rfl | htail
      · exact ⟨head, List.mem_cons_self, hhead⟩
      · obtain ⟨item, hitem, hrelated⟩ := ih htail
        exact ⟨item, List.mem_cons_of_mem _ hitem, hrelated⟩

/-- What reading preserves of each item it preserves of the list. -/
theorem map_of_mapM {β γ : Type} {f : α → Option β} {g : β → γ} {h : α → γ} {ys : List β}
    (hread : xs.mapM f = some ys) (hitem : ∀ x y, f x = some y → g y = h x) :
    ys.map g = xs.map h := by
  have hitems := forall₂_of_mapM hread
  clear hread
  induction hitems with
  | nil => rfl
  | cons hy _ ih => rw [List.map_cons, List.map_cons, hitem _ _ hy, ih]

/-- What holds of the reading of each item holds of all that is read. -/
theorem forall_of_mapM {β : Type} {f : α → Option β} {P : β → Prop} {ys : List β}
    (hread : xs.mapM f = some ys) (hitem : ∀ x ∈ xs, ∀ y, f x = some y → P y) : ∀ y ∈ ys, P y := by
  intro y hy
  obtain ⟨x, hx, hread⟩ := exists_of_forall₂_right (forall₂_of_mapM hread) hy
  exact hitem x hx y hread

/-- Each item of a list that is read is read. -/
theorem exists_of_mapM {β : Type} {f : α → Option β} {ys : List β} (hread : xs.mapM f = some ys) :
    ∀ x ∈ xs, ∃ y ∈ ys, f x = some y :=
  fun _ => exists_of_forall₂_right (forall₂_of_mapM hread).flip

/-- A property that does not depend on the position. -/
theorem map_mapIdx_eq_map {β γ : Type} {f : Nat → α → β} {g : β → γ} {h : α → γ}
    (heq : ∀ index item, g (f index item) = h item) (items : List α) :
    (items.mapIdx f).map g = items.map h := by
  apply List.ext_getElem
  · simp
  · intro index hleft hright
    rw [List.getElem_map, List.getElem_mapIdx, List.getElem_map, heq]

theorem forall_foldl {α β : Type} {step : β → α → β} {P : β → α → Prop}
    (hstep : ∀ state item, P (step state item) item)
    (hkeep : ∀ state item other, P state other → P (step state item) other) (items : List α)
    (state : β) : ∀ item ∈ items, P (items.foldl step state) item := by
  intro item hitem
  obtain ⟨before, after, rfl⟩ := List.append_of_mem hitem
  rw [List.foldl_append, List.foldl_cons]
  exact List.foldlRecOn after step (hstep _ item) fun state hstate later _ =>
    hkeep state later item hstate

/-- A list is split in one way only at the first occurrence of an element. -/
theorem append_cons_inj {mark : α} {left right first second : List α} (hleft : mark ∉ left)
    (hright : mark ∉ right) (heq : left ++ mark :: first = right ++ mark :: second) :
    left = right ∧ first = second := by
  induction left generalizing right with
  | nil =>
      cases right with
      | nil => exact ⟨rfl, (List.cons.inj heq).2⟩
      | cons head right => exact absurd ((List.cons.inj heq).1 ▸ List.mem_cons_self) hright
  | cons head left ih =>
      cases right with
      | nil => exact absurd ((List.cons.inj heq).1 ▸ List.mem_cons_self) hleft
      | cons other right =>
          obtain ⟨rfl, htail⟩ := List.cons.inj heq
          rw [List.mem_cons, not_or] at hleft hright
          obtain ⟨rfl, hrest⟩ := ih hleft.2 hright.2 htail
          exact ⟨rfl, hrest⟩

/-- A list is split in one way only at an element that occurs once. -/
theorem append_cons_inj_of_once {mark : α} {left right first second : List α} (hleft : mark ∉ left)
    (hfirst : mark ∉ first) (heq : left ++ mark :: first = right ++ mark :: second) :
    left = right ∧ first = second := by
  apply append_cons_inj hleft _ heq
  intro hright
  rcases List.append_eq_append_iff.mp heq with ⟨middle, rfl, hmiddle⟩ | ⟨middle, rfl, -⟩
  · cases middle with
    | nil => exact hleft (by simpa using hright)
    | cons head middle =>
        obtain ⟨-, rfl⟩ := List.cons.inj hmiddle
        exact hfirst (by simp)
  · exact hleft (List.mem_append_left _ hright)

theorem exists_of_isOk {ε α : Type} {result : Except ε α} (hok : result.isOk = true) :
    ∃ value, result = .ok value := by
  cases result with
  | error => contradiction
  | ok value => exact ⟨value, rfl⟩

theorem eq_ok_of_toOption {ε α : Type} {result : Except ε α} {value : α}
    (hvalue : result.toOption = some value) : result = .ok value := by
  cases result with
  | error => contradiction
  | ok other => exact congrArg _ (Option.some.inj hvalue)

end KjAtlas
