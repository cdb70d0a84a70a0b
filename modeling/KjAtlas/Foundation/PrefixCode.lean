import Mathlib.Data.List.Basic

/-! # Prefix codes and separators

A code writes letters as nonempty words, none of which begins another one. A
text of such words is read in one way only, so words may be written one after
the other without a separator. Words that are arbitrary texts are not told
apart by a separator: the separator may be read at another place.
-/

namespace KjAtlas

variable {α β : Type*}

/-- Words that are told apart by the texts that begin with them. -/
structure PrefixCode (code : α → List β) : Prop where
  ne_nil : ∀ a, code a ≠ []
  split : ∀ {a b r s}, code a ++ r = code b ++ s → a = b ∧ r = s

namespace PrefixCode

variable {code : α → List β}

theorem flatMap_injective (hcode : PrefixCode code) :
    Function.Injective fun letters : List α => letters.flatMap code := by
  intro left
  induction left with
  | nil =>
      intro right heq
      cases right with
      | nil => rfl
      | cons b right =>
          exact absurd (List.append_eq_nil_iff.mp heq.symm).1 (hcode.ne_nil b)
  | cons a left ih =>
      intro right heq
      cases right with
      | nil => exact absurd (List.append_eq_nil_iff.mp heq).1 (hcode.ne_nil a)
      | cons b right =>
          obtain ⟨rfl, hrest⟩ := hcode.split heq
          exact congrArg (a :: ·) (ih hrest)

end PrefixCode

/-! ## Separators -/

/-- The second pair is the first one with the separator read at a later place. -/
def Shifted (sep : Char) (left right : String × String) : Prop :=
  ∃ middle : String, right.1 = left.1 ++ sep.toString ++ middle ∧
    left.2 = middle ++ sep.toString ++ right.2

variable {sep : Char}

theorem join_eq_of_shifted {left right : String × String} (hshifted : Shifted sep left right) :
    left.1 ++ sep.toString ++ left.2 = right.1 ++ sep.toString ++ right.2 := by
  obtain ⟨middle, hright, hleft⟩ := hshifted
  rw [hright, hleft]
  simp only [String.append_assoc]

/-- A later place is another place. -/
theorem Shifted.ne {left right : String × String} (hshifted : Shifted sep left right) :
    left ≠ right := by
  rintro rfl
  obtain ⟨middle, hlonger, -⟩ := hshifted
  have hlength := congrArg String.length hlonger
  simp only [String.length_append, Char.toString_eq_singleton, String.length_singleton] at hlength
  omega

theorem eq_or_shifted_of_append {left right : String × String} {middle : List Char}
    (hlonger : right.1.toList = left.1.toList ++ middle)
    (hrest : sep :: left.2.toList = middle ++ sep :: right.2.toList) :
    left = right ∨ Shifted sep left right := by
  cases middle with
  | nil =>
      rw [List.append_nil] at hlonger
      rw [List.nil_append, List.cons.injEq] at hrest
      exact Or.inl (Prod.ext (String.toList_inj.mp hlonger.symm) (String.toList_inj.mp hrest.2))
  | cons c middle =>
      rw [List.cons_append, List.cons.injEq] at hrest
      obtain ⟨rfl, hrest⟩ := hrest
      refine Or.inr ⟨String.ofList middle, ?_, ?_⟩
      · apply String.toList_inj.mp
        simp [hlonger]
      · apply String.toList_inj.mp
        simp [hrest]

/-- Two pairs are joined to one text when they are equal or one of them is the other one with the
separator read at a later place. -/
theorem join_eq_iff {sep : Char} {left right : String × String} :
    left.1 ++ sep.toString ++ left.2 = right.1 ++ sep.toString ++ right.2 ↔
      left = right ∨ Shifted sep left right ∨ Shifted sep right left := by
  constructor
  · intro heq
    have hlist := congrArg String.toList heq
    simp only [String.toList_append, Char.toString_eq_singleton, String.toList_singleton,
      List.append_assoc, List.singleton_append] at hlist
    rcases List.append_eq_append_iff.mp hlist with ⟨middle, hlonger, hrest⟩ | ⟨middle, hlonger, hrest⟩
    · exact (eq_or_shifted_of_append hlonger hrest).imp_right Or.inl
    · exact (eq_or_shifted_of_append hlonger hrest).imp Eq.symm Or.inr
  · rintro (rfl | hshifted | hshifted)
    · rfl
    · exact join_eq_of_shifted hshifted
    · exact (join_eq_of_shifted hshifted).symm

end KjAtlas
