import Mathlib.Algebra.GroupWithZero.Nat
import Mathlib.Data.List.Basic

/-! # Common ends of two lists

How many items two lists share at their starts, and how many of the rest at
their ends. A list is put together again from the shared ends of another one
and its own middle. Two lists that are cut stay different unless they share so
much at their starts, which their pieces between separators show.
-/

namespace KjAtlas

variable {α : Type*} [DecidableEq α]

/-- Count the items that agree from a position on, among at most `remaining`. -/
def countPrefix (base current : List α) : Nat → Nat → Nat
  | 0, count => count
  | remaining + 1, count =>
      if base[count]? = current[count]? then countPrefix base current remaining (count + 1)
      else count

/-- Count the items that agree before a position from the end, among at most `remaining`. -/
def countSuffix (base current : List α) : Nat → Nat → Nat
  | 0, count => count
  | remaining + 1, count =>
      if base[base.length - 1 - count]? = current[current.length - 1 - count]? then
        countSuffix base current remaining (count + 1)
      else count

theorem countPrefix_le (base current : List α) (remaining count : Nat) :
    countPrefix base current remaining count ≤ remaining + count := by
  induction remaining generalizing count with
  | zero => simp [countPrefix]
  | succ remaining ih =>
      unfold countPrefix
      split
      · have hbound := ih (count + 1)
        omega
      · omega

theorem countSuffix_le (base current : List α) (remaining count : Nat) :
    countSuffix base current remaining count ≤ remaining + count := by
  induction remaining generalizing count with
  | zero => simp [countSuffix]
  | succ remaining ih =>
      unfold countSuffix
      split
      · have hbound := ih (count + 1)
        omega
      · omega

/-- The counted items at the start are the same. -/
theorem take_countPrefix {base current : List α} {remaining count : Nat}
    (hstart : base.take count = current.take count) :
    base.take (countPrefix base current remaining count) =
      current.take (countPrefix base current remaining count) := by
  induction remaining generalizing count with
  | zero => exact hstart
  | succ remaining ih =>
      unfold countPrefix
      split
      next heq =>
        apply ih
        rw [List.take_add_one, List.take_add_one, hstart, heq]
      next => exact hstart

/-- The counted items at the end are the same. -/
theorem drop_countSuffix {base current : List α} {remaining count : Nat}
    (hbase : remaining + count ≤ base.length) (hcurrent : remaining + count ≤ current.length)
    (hend : base.drop (base.length - count) = current.drop (current.length - count)) :
    base.drop (base.length - countSuffix base current remaining count) =
      current.drop (current.length - countSuffix base current remaining count) := by
  induction remaining generalizing count with
  | zero => exact hend
  | succ remaining ih =>
      unfold countSuffix
      split
      next heq =>
        apply ih (by omega) (by omega)
        have hleft : base.length - 1 - count < base.length := by omega
        have hright : current.length - 1 - count < current.length := by omega
        rw [List.getElem?_eq_getElem hleft, List.getElem?_eq_getElem hright,
          Option.some.injEq] at heq
        rw [show base.length - (count + 1) = base.length - 1 - count by omega,
          show current.length - (count + 1) = current.length - 1 - count by omega,
          List.drop_eq_getElem_cons hleft, List.drop_eq_getElem_cons hright, heq,
          show base.length - 1 - count + 1 = base.length - count by omega,
          show current.length - 1 - count + 1 = current.length - count by omega, hend]
      next => exact hend

omit [DecidableEq α] in
theorem splice_eq {base current : List α} {start stop : Nat}
    (hstart : base.take start = current.take start)
    (hend : base.drop (base.length - stop) = current.drop (current.length - stop))
    (hlength : start + stop ≤ current.length) :
    base.take start ++ (current.take (current.length - stop)).drop start ++
      base.drop (base.length - stop) = current := by
  have hmiddle : current.take start = (current.take (current.length - stop)).take start := by
    rw [List.take_take, Nat.min_eq_left (by omega)]
  rw [hstart, hend, hmiddle, List.take_append_drop, List.take_append_drop]

omit [DecidableEq α]

theorem take_eq_take_iff {limit : Nat} {left right : List α} :
    left.take limit = right.take limit ↔ left = right ∨
      ∃ common left' right', left = common ++ left' ∧ right = common ++ right' ∧
        limit ≤ common.length := by
  constructor
  · intro htake
    by_cases hlength : limit ≤ left.length
    · right
      refine ⟨left.take limit, left.drop limit, right.drop limit, ?_, ?_, ?_⟩
      · exact (List.take_append_drop limit left).symm
      · rw [htake, List.take_append_drop]
      · exact Nat.le_of_eq (List.length_take_of_le hlength).symm
    · left
      have hlengths := congrArg List.length htake
      rw [List.length_take, List.length_take] at hlengths
      rwa [List.take_of_length_le (by omega), List.take_of_length_le (by omega)] at htake
  · rintro (rfl | ⟨common, left', right', rfl, rfl, hlength⟩)
    · rfl
    · rw [List.take_append_of_le_length hlength, List.take_append_of_le_length hlength]

/-! ## Pieces between separators -/

/-- The pieces share so many items at their starts: whole pieces, each with the separator after it,
and the start of the next piece. -/
def ShareAtLeast (limit : Nat) (left right : List (List α)) : Prop :=
  ∃ whole start left' lefts right' rights, left = whole ++ (start ++ left') :: lefts ∧
    right = whole ++ (start ++ right') :: rights ∧
      limit ≤ (whole.map fun piece => piece.length + 1).sum + start.length

variable [DecidableEq α] (sep : α)

theorem exists_splitOn_append (common : List α) :
    ∃ whole start, (whole.map fun piece => piece.length + 1).sum + start.length = common.length ∧
      ∀ rest, ∃ piece pieces, (common ++ rest).splitOn sep =
        whole ++ (start ++ piece) :: pieces := by
  simp only [List.splitOn]
  induction common with
  | nil => exact ⟨[], [], rfl, fun rest => List.exists_cons_of_ne_nil (List.splitOnP_ne_nil _ _)⟩
  | cons item common ih =>
      obtain ⟨whole, start, hlength, hsplit⟩ := ih
      simp only [List.cons_append, List.splitOnP_cons_eq_if_modifyHead]
      by_cases hsep : item = sep
      · refine ⟨[] :: whole, start, ?_, fun rest => ?_⟩
        · simp only [List.map_cons, List.sum_cons, List.length_cons, List.length_nil]
          omega
        obtain ⟨piece, pieces, hpieces⟩ := hsplit rest
        exact ⟨piece, pieces, by rw [if_pos (beq_iff_eq.mpr hsep), hpieces]; rfl⟩
      · cases whole with
        | nil =>
            refine ⟨[], item :: start, by simpa using hlength, fun rest => ?_⟩
            obtain ⟨piece, pieces, hpieces⟩ := hsplit rest
            exact ⟨piece, pieces, by rw [if_neg (by simpa using hsep), hpieces]; rfl⟩
        | cons first whole =>
            refine ⟨(item :: first) :: whole, start, by simp at hlength ⊢; omega, fun rest => ?_⟩
            obtain ⟨piece, pieces, hpieces⟩ := hsplit rest
            exact ⟨piece, pieces, by rw [if_neg (by simpa using hsep), hpieces]; rfl⟩

omit [DecidableEq α] in
theorem exists_intercalate_eq (start piece : List α) (whole pieces : List (List α)) :
    ∃ rest, [sep].intercalate (whole ++ (start ++ piece) :: pieces) =
      (whole.flatMap fun piece => piece ++ [sep]) ++ start ++ rest := by
  induction whole with
  | nil =>
      cases pieces with
      | nil => exact ⟨piece, List.intercalate_singleton⟩
      | cons next pieces =>
          refine ⟨piece ++ ([sep] ++ [sep].intercalate (next :: pieces)), ?_⟩
          simp [List.intercalate_cons_cons]
  | cons first whole ih =>
      obtain ⟨rest, hrest⟩ := ih
      refine ⟨rest, ?_⟩
      rw [List.cons_append, List.intercalate_cons_of_ne_nil (by simp), hrest]
      simp

/-- Two lists agree up to a limit exactly if their pieces are the same, or share that much. -/
theorem take_eq_take_iff_splitOn {limit : Nat} {left right : List α} :
    left.take limit = right.take limit ↔ left.splitOn sep = right.splitOn sep ∨
      ShareAtLeast limit (left.splitOn sep) (right.splitOn sep) := by
  rw [take_eq_take_iff]
  constructor
  · rintro (rfl | ⟨common, left', right', rfl, rfl, hlength⟩)
    · exact Or.inl rfl
    · obtain ⟨whole, start, hcost, hsplit⟩ := exists_splitOn_append sep common
      obtain ⟨leftPiece, lefts, hleft⟩ := hsplit left'
      obtain ⟨rightPiece, rights, hright⟩ := hsplit right'
      exact Or.inr ⟨whole, start, leftPiece, lefts, rightPiece, rights, hleft, hright,
        hcost ▸ hlength⟩
  · rintro (heq | ⟨whole, start, leftPiece, lefts, rightPiece, rights, hleft, hright, hlimit⟩)
    · left
      have hback := congrArg [sep].intercalate heq
      rwa [List.intercalate_splitOn, List.intercalate_splitOn] at hback
    · right
      obtain ⟨left', hleft'⟩ := exists_intercalate_eq sep start leftPiece whole lefts
      obtain ⟨right', hright'⟩ := exists_intercalate_eq sep start rightPiece whole rights
      rw [← hleft, List.intercalate_splitOn] at hleft'
      rw [← hright, List.intercalate_splitOn] at hright'
      refine ⟨_, left', right', hleft', hright', ?_⟩
      simpa [List.length_flatMap] using hlimit

/-- The pieces of lists that are joined. -/
theorem splitOn_intercalate_eq_flatMap {lists : List (List α)} (hlists : lists ≠ []) :
    ([sep].intercalate lists).splitOn sep = lists.flatMap fun list => list.splitOn sep := by
  induction lists with
  | nil => exact absurd rfl hlists
  | cons first lists ih =>
      cases lists with
      | nil => rw [List.intercalate_singleton, List.flatMap_singleton]
      | cons next lists =>
          rw [List.intercalate_cons_cons, List.append_assoc, List.singleton_append, List.splitOn,
            List.splitOnP_append_cons (p := fun item => item == sep) first _ (beq_self_eq_true sep), List.flatMap_cons,
            ← ih (List.cons_ne_nil _ _)]
          rfl

end KjAtlas
