import Mathlib.Data.List.Nodup
import Mathlib.Data.List.TakeDrop

/-! # Paging through a list

A list is fetched page by page. Each page but the last comes with a cursor, from
which the next page is fetched. Where the cursor after a page cannot be sent, or
leads back into what was fetched before, following the cursors does not yield
the list.
-/

namespace KjAtlas

variable {α γ : Type*}

/-- All pages from a cursor on, at most `fuel` of them. -/
def followPages (fetch : Option γ → Option (List α × Option γ)) : Nat → Option γ → Option (List α)
  | 0, _ => none
  | fuel + 1, cursor =>
      match fetch cursor with
      | none => none
      | some (items, none) => some items
      | some (items, some next) => (followPages fetch fuel (some next)).map (items ++ ·)

/-- In a sorted list, the items after one of them are those that are greater. -/
theorem filter_after_eq_drop {r : α → α → Prop} [DecidableRel r] (hasymm : ∀ a b, r a b → ¬r b a)
    {rows : List α} (hsorted : rows.Pairwise r) {index : Nat} {row : α}
    (hrow : rows[index]? = some row) :
    rows.filter (fun other => decide (r row other)) = rows.drop (index + 1) := by
  induction rows generalizing index with
  | nil => simp at hrow
  | cons head rows ih =>
      obtain ⟨hhead, hrows⟩ := List.pairwise_cons.mp hsorted
      cases index with
      | zero =>
          obtain rfl : head = row := by simpa using hrow
          have hself : ¬r head head := fun hrefl => hasymm _ _ hrefl hrefl
          rw [List.filter_cons_of_neg (by simpa using hself), List.drop_one, List.tail_cons,
            List.filter_eq_self]
          exact fun other hother => decide_eq_true (hhead other hother)
      | succ index =>
          rw [List.getElem?_cons_succ] at hrow
          have hbefore : ¬r row head := hasymm _ _ (hhead row (List.mem_of_getElem? hrow))
          rw [List.filter_cons_of_neg (by simpa using hbefore), ih hrows hrow,
            List.drop_succ_cons]

/-- If one of the first items has a property, so has the first item that has it. -/
theorem exists_filter_eq_cons {p : α → Bool} {rows : List α} {start : Nat} {row : α}
    (hrow : row ∈ rows.take start) (hp : p row = true) :
    ∃ other rest, rows.filter p = other :: rest ∧ other ∈ rows.take start := by
  have hsplit : rows.filter p = (rows.take start).filter p ++ (rows.drop start).filter p := by
    rw [← List.filter_append, List.take_append_drop]
  have hmem := List.mem_filter.mpr ⟨hrow, hp⟩
  cases hfirst : (rows.take start).filter p with
  | nil => exact absurd hmem (hfirst ▸ List.not_mem_nil)
  | cons other rest =>
      refine ⟨other, rest ++ (rows.drop start).filter p, by rw [hsplit, hfirst]; rfl, ?_⟩
      exact List.mem_of_mem_filter (hfirst ▸ List.mem_cons_self)

/-- The cursor that leads to a position, if cursors are what they should be. -/
def cursorAt (cursorOf : Nat → γ) (start : Nat) : Option γ :=
  if start = 0 then none else some (cursorOf start)

/-- How pages of a list are served. A cursor that is usable leads to the rows from its position on.
Where the next cursor is not usable it may be refused at once; if it is sent, it is refused later
or leads to a row that came before. -/
structure ServesPages (fetch : Option γ → Option (List α × Option γ)) (rows : List α)
    (limit : Nat) (cursorOf : Nat → γ) (Usable : Nat → Prop) : Prop where
  last : ∀ start, start = 0 ∨ Usable start → start ≤ rows.length → rows.length ≤ start + limit →
    fetch (cursorAt cursorOf start) = some (rows.drop start, none)
  more : ∀ start, start = 0 ∨ Usable start → start + limit < rows.length →
    fetch (cursorAt cursorOf start) =
        some ((rows.drop start).take limit, some (cursorOf (start + limit))) ∨
      fetch (cursorAt cursorOf start) = none ∧ ¬Usable (start + limit)
  back : ∀ start, start = 0 ∨ Usable start → start + limit < rows.length →
    fetch (cursorAt cursorOf start) =
        some ((rows.drop start).take limit, some (cursorOf (start + limit))) →
    ¬Usable (start + limit) →
    fetch (some (cursorOf (start + limit))) = none ∨
      ∃ row items next, fetch (some (cursorOf (start + limit))) = some (row :: items, next) ∧
        row ∈ rows.take (start + limit)

section Served

variable {fetch : Option γ → Option (List α × Option γ)} {rows : List α} {limit : Nat}
  {cursorOf : Nat → γ} {Usable : Nat → Prop}

theorem cursorAt_of_pos (cursorOf : Nat → γ) {start : Nat} (hstart : 0 < start) :
    cursorAt cursorOf start = some (cursorOf start) := by
  rw [cursorAt, if_neg (by omega)]

section

variable (hserves : ServesPages fetch rows limit cursorOf Usable)
include hserves

theorem ServesPages.follows (hlimit : 0 < limit) {start : Nat} (hhere : start = 0 ∨ Usable start)
    (hbound : start ≤ rows.length) (hahead : ∀ page, 0 < page → start + page * limit < rows.length →
      Usable (start + page * limit)) :
    ∃ fuel, followPages fetch fuel (cursorAt cursorOf start) = some (rows.drop start) := by
  induction hrest : rows.length - start using Nat.strongRecOn generalizing start with
  | ind rest ih =>
      by_cases hlast : rows.length ≤ start + limit
      · refine ⟨1, ?_⟩
        rw [followPages, hserves.last start hhere hbound hlast]
      · have hnext : Usable (start + limit) := by
          simpa using hahead 1 (by omega) (by omega)
        have hfetch := (hserves.more start hhere (by omega)).resolve_right fun h => h.2 hnext
        obtain ⟨fuel, hfuel⟩ := ih (rows.length - (start + limit)) (by omega)
          (Or.inr hnext) (by omega) (by
            intro page hpage hless
            have hlater := hahead (page + 1) (by omega)
            rw [Nat.succ_mul, ← Nat.add_assoc, Nat.add_right_comm] at hlater
            exact hlater hless) rfl
        refine ⟨fuel + 1, ?_⟩
        rw [cursorAt_of_pos cursorOf (by omega)] at hfuel
        rw [followPages, hfetch]
        dsimp only
        rw [hfuel, Option.map_some, ← List.drop_drop, List.take_append_drop]

theorem ServesPages.usable_of_follows
    (hlimit : 0 < limit) (hnodup : rows.Nodup) {fuel start : Nat} (hhere : start = 0 ∨ Usable start)
    (hfollow : followPages fetch fuel (cursorAt cursorOf start) = some (rows.drop start)) :
    ∀ page, 0 < page → start + page * limit < rows.length → Usable (start + page * limit) := by
  induction fuel generalizing start with
  | zero => cases hfollow
  | succ fuel ih =>
      intro page hpage hless
      obtain ⟨before, rfl⟩ := Nat.exists_eq_succ_of_ne_zero (Nat.pos_iff_ne_zero.mp hpage)
      rw [Nat.succ_mul] at hless ⊢
      rw [followPages] at hfollow
      rcases hserves.more start hhere (by omega) with hfetch | ⟨hnone, -⟩
      · have hback := hserves.back start hhere (by omega) hfetch
        rw [hfetch] at hfollow
        obtain ⟨rest, hrest, happend⟩ := Option.map_eq_some_iff.mp hfollow
        have hsplit : rows.drop start =
            (rows.drop start).take limit ++ rows.drop (start + limit) := by
          rw [← List.drop_drop, List.take_append_drop]
        obtain rfl := List.append_cancel_left (happend.trans hsplit)
        have hnext : Usable (start + limit) := by
          by_contra hnot
          obtain ⟨more, rfl⟩ : ∃ more, fuel = more + 1 := by
            cases fuel with
            | zero => cases hrest
            | succ more => exact ⟨more, rfl⟩
          rw [followPages] at hrest
          rcases hback hnot with hnone | ⟨row, items, next, hrow, hmem⟩
          · rw [hnone] at hrest
            cases hrest
          · have hhead : row ∈ rows.drop (start + limit) := by
              rw [hrow] at hrest
              cases next with
              | none =>
                  rw [← Option.some.inj hrest]
                  exact List.mem_cons_self
              | some next =>
                  obtain ⟨tail, -, htail⟩ := Option.map_eq_some_iff.mp hrest
                  rw [← htail]
                  exact List.mem_cons_self
            rw [← List.take_append_drop (start + limit) rows] at hnodup
            exact (List.nodup_append.mp hnodup).2.2 row hmem row hhead rfl
        by_cases hfirst : before = 0
        · subst hfirst
          simpa using hnext
        · rw [← cursorAt_of_pos cursorOf (by omega : 0 < start + limit)] at hrest
          have hlater := ih (Or.inr hnext) hrest before (by omega)
          rw [Nat.add_right_comm, Nat.add_assoc] at hlater
          exact hlater hless
      · rw [hnone] at hfollow
        cases hfollow

theorem ServesPages.follows_iff (hlimit : 0 < limit) (hnodup : rows.Nodup) :
    (∃ fuel, followPages fetch fuel none = some rows) ↔
      ∀ page, 0 < page → page * limit < rows.length → Usable (page * limit) := by
  constructor
  · rintro ⟨fuel, hfuel⟩ page hpage hless
    have hstart : (0 : Nat) = 0 ∨ Usable 0 := Or.inl rfl
    have husable := hserves.usable_of_follows hlimit hnodup hstart hfuel page hpage
    rw [Nat.zero_add] at husable
    exact husable hless
  · intro hall
    have hstart : (0 : Nat) = 0 ∨ Usable 0 := Or.inl rfl
    refine hserves.follows hlimit hstart (Nat.zero_le _) ?_
    intro page hpage hless
    rw [Nat.zero_add] at hless ⊢
    exact hall page hpage hless

end

end Served

end KjAtlas
