import Mathlib.Data.List.DropRight
import Mathlib.Data.String.Basic

/-! # Python texts

The white space that Python strips, texts without it at their ends, and the
order of texts.
-/

namespace KjAtlas

/-- The characters that `\s` matches and `strip()` removes. -/
def isPythonSpace (c : Char) : Bool :=
  decide (0x09 ≤ c.toNat ∧ c.toNat ≤ 0x0D) || decide (0x1C ≤ c.toNat ∧ c.toNat ≤ 0x20) ||
    [0x85, 0xA0, 0x1680, 0x2028, 0x2029, 0x202F, 0x205F, 0x3000].contains c.toNat ||
      decide (0x2000 ≤ c.toNat ∧ c.toNat ≤ 0x200A)

def strip (chars : List Char) : List Char :=
  ((chars.dropWhile isPythonSpace).reverse.dropWhile isPythonSpace).reverse

/-- `value.strip()`. -/
def stripText (value : String) : String := .ofList (strip value.toList)

theorem strip_eq (chars : List Char) :
    strip chars = (chars.dropWhile isPythonSpace).rdropWhile isPythonSpace := rfl

theorem dropWhile_strip (chars : List Char) :
    (strip chars).dropWhile isPythonSpace = strip chars := by
  rw [List.dropWhile_eq_self_iff]
  intro hlength
  have hkept : strip chars <+: chars.dropWhile isPythonSpace := List.rdropWhile_prefix _ _
  rw [hkept.getElem hlength]
  exact List.dropWhile_eq_self_iff.mp (List.dropWhile_idempotent _ chars) _

/-- Texts without white space at their ends stay as they are. -/
theorem strip_strip (chars : List Char) : strip (strip chars) = strip chars := by
  rw [strip_eq (strip chars), dropWhile_strip, strip_eq chars, List.rdropWhile_idempotent]

/-- A text that stays as it is does not start with white space. -/
theorem head_of_strip {chars : List Char} (hstrip : strip chars = chars) :
    ∀ c ∈ chars.head?, isPythonSpace c = false := by
  have hkept : chars.dropWhile isPythonSpace = chars := by
    rw [← hstrip]
    exact dropWhile_strip chars
  cases chars with
  | nil => simp
  | cons c chars =>
      rintro _ ⟨⟩
      have hfirst := List.dropWhile_eq_self_iff.mp hkept (by simp)
      simpa using hfirst

@[simp] theorem stripText_stripText (value : String) :
    stripText (stripText value) = stripText value := by
  unfold stripText
  rw [String.toList_ofList, strip_strip]

def codePointLe (left right : String) : Bool := decide (left ≤ right)

theorem codePointLe_total (left right : String) :
    codePointLe left right = true ∨ codePointLe right left = true := by
  simp only [codePointLe, decide_eq_true_eq]
  exact le_total left right

theorem codePointLe_trans (a b c : String) (hab : codePointLe a b = true)
    (hbc : codePointLe b c = true) : codePointLe a c = true := by
  simp only [codePointLe, decide_eq_true_eq] at hab hbc ⊢
  exact hab.trans hbc

theorem codePointLe_antisymm (left right : String) (hle : codePointLe left right = true)
    (hge : codePointLe right left = true) : left = right := by
  simp only [codePointLe, decide_eq_true_eq] at hle hge
  exact le_antisymm hle hge

end KjAtlas
