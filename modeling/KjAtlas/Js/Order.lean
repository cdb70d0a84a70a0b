import Mathlib.Data.List.Lex
import Mathlib.Order.Lex
import KjAtlas.Foundation.StableSort
import KjAtlas.Js.Value

/-! # Comparing strings

`left < right` compares UTF-16 code units. `localeCompare` depends on the
implementation and its locale; it is only known to be a consistent comparison,
and different strings may compare as equal.
-/

namespace KjAtlas.Js

def charUnits (c : Char) : List Nat :=
  if c.toNat < 0x10000 then [c.toNat]
  else [0xD800 + (c.toNat - 0x10000) / 0x400, 0xDC00 + (c.toNat - 0x10000) % 0x400]

def codeUnits (s : String) : List Nat := s.toList.flatMap charUnits

/-- `left <= right` on strings. -/
def codeUnitLe (left right : String) : Bool := decide (codeUnits left ≤ codeUnits right)

theorem codeUnitLe_total (left right : String) :
    codeUnitLe left right = true ∨ codeUnitLe right left = true := by
  simp only [codeUnitLe, decide_eq_true_eq]
  exact le_total _ _

theorem codeUnitLe_trans (a b c : String) (hab : codeUnitLe a b = true)
    (hbc : codeUnitLe b c = true) : codeUnitLe a c = true := by
  simp only [codeUnitLe, decide_eq_true_eq] at hab hbc ⊢
  exact le_trans hab hbc

/-- The first character that code units stand for, and the rest of the units. -/
def readUnit : List Nat → Option (Char × List Nat)
  | unit :: units =>
      if 0xD800 ≤ unit ∧ unit < 0xDC00 then
        match units with
        | low :: units =>
            some (Char.ofNat (0x10000 + (unit - 0xD800) * 0x400 + (low - 0xDC00)), units)
        | [] => none
      else some (Char.ofNat unit, units)
  | [] => none

theorem readUnit_charUnits (c : Char) (units : List Nat) :
    readUnit (charUnits c ++ units) = some (c, units) := by
  unfold charUnits
  split
  next hsmall =>
    have hvalid : ¬(0xD800 ≤ c.toNat ∧ c.toNat < 0xDC00) := by
      rcases c.valid with h | h
      · intro hsurrogate
        exact absurd (show c.toNat < 0xD800 from h) (by omega)
      · intro hsurrogate
        exact absurd (show 0xDFFF < c.toNat from h.1) (by omega)
    simp only [List.singleton_append, readUnit, if_neg hvalid, Char.ofNat_toNat]
  next hlarge =>
    have hmax : c.toNat < 0x110000 := by
      rcases c.valid with h | h
      · exact lt_trans (show c.toNat < 0xD800 from h) (by decide)
      · exact h.2
    have hhigh : 0xD800 ≤ 0xD800 + (c.toNat - 0x10000) / 0x400 ∧
        0xD800 + (c.toNat - 0x10000) / 0x400 < 0xDC00 := by omega
    simp only [List.cons_append, List.nil_append, readUnit, if_pos hhigh]
    have hcode : 0x10000 + (0xD800 + (c.toNat - 0x10000) / 0x400 - 0xD800) * 0x400 +
        (0xDC00 + (c.toNat - 0x10000) % 0x400 - 0xDC00) = c.toNat := by omega
    rw [hcode, Char.ofNat_toNat]

/-- Different strings have different code units. -/
theorem codeUnits_injective {left right : String} (heq : codeUnits left = codeUnits right) :
    left = right := by
  apply String.toList_inj.mp
  unfold codeUnits at heq
  generalize left.toList = s at heq
  generalize right.toList = t at heq
  induction s generalizing t with
  | nil =>
      cases t with
      | nil => rfl
      | cons d t =>
          have hread := congrArg readUnit heq
          rw [List.flatMap_nil, List.flatMap_cons, readUnit_charUnits] at hread
          contradiction
  | cons c s ih =>
      cases t with
      | nil =>
          have hread := congrArg readUnit heq
          rw [List.flatMap_nil, List.flatMap_cons, readUnit_charUnits] at hread
          contradiction
      | cons d t =>
          have hread := congrArg readUnit heq
          rw [List.flatMap_cons, List.flatMap_cons, readUnit_charUnits, readUnit_charUnits,
            Option.some.injEq, Prod.mk.injEq] at hread
          rw [hread.1, ih t hread.2]

theorem codeUnitLe_antisymm (left right : String) (hle : codeUnitLe left right = true)
    (hge : codeUnitLe right left = true) : left = right := by
  simp only [codeUnitLe, decide_eq_true_eq] at hle hge
  exact codeUnits_injective (le_antisymm hle hge)

/-- The comparison `left.localeCompare(right) <= 0` of an implementation. -/
structure Collation where
  le : String → String → Bool
  total : ∀ left right, le left right = true ∨ le right left = true
  trans : ∀ a b c, le a b = true → le b c = true → le a c = true

def Collation.codeUnit : Collation := ⟨codeUnitLe, codeUnitLe_total, codeUnitLe_trans⟩

/-- `Object.entries` sorted by property name. -/
def Props.sort (le : String → String → Bool) {α : Type} (entries : List (String × α)) :
    List (String × α) :=
  sortOn le Prod.fst entries

theorem Props.sort_map {α β : Type} (le : String → String → Bool) (f : α → β)
    (entries : List (String × α)) :
    Props.sort le (entries.map fun entry => (entry.1, f entry.2)) =
      (Props.sort le entries).map fun entry => (entry.1, f entry.2) :=
  (sortOn.map le Prod.fst Prod.fst (fun entry : String × α => (entry.1, f entry.2)) (fun _ => rfl)
    entries).symm

/-- Sorting by name keeps what a property reads. -/
theorem Props.get_sort (lc : Collation) (props : Props) (key : String) :
    Props.get (Props.sort lc.le props) key = Props.get props key := by
  apply sortOn.findSome?_of_key lc.le Prod.fst fun k => (lc.total k k).elim id id
  intro prop hprop
  by_contra hkey
  exact hprop (if_neg hkey)

/-- Under the order of code units, the order in which an object was built does
not matter. -/
theorem Props.sort_eq_of_perm {α : Type} {left right : List (String × α)}
    (hnodup : (left.map Prod.fst).Nodup) (hperm : left.Perm right) :
    Props.sort codeUnitLe left = Props.sort codeUnitLe right :=
  sortOn.eq_of_perm codeUnitLe Prod.fst codeUnitLe_total codeUnitLe_trans codeUnitLe_antisymm
    hnodup hperm

end KjAtlas.Js
