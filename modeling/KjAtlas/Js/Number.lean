import Mathlib.Data.List.DropRight
import Mathlib.Data.Int.Basic

/-! # Numbers and their texts

A finite number is kept by the digits and the decimal point that
`Number::toString` finds for it: the value is `0.d₁d₂…d_k · 10 ^ point`, with no
zero at either end of the digits. The text of a number determines it, and its
characters never delimit a JSON value.
-/

namespace KjAtlas.Js

/-- Text, as the list of its characters. -/
abbrev Text := List Char

instance neZero_ten : @NeZero Nat Zero.ofOfNat0 10 := ⟨by decide⟩

/-- A finite number in its shortest decimal form. Zero has no digits and no
sign: `0` and `-0` are equal and have one text. -/
structure Decimal where
  negative : Bool
  digits : List (Fin 10)
  point : Int
  head_ne_zero : digits.head? ≠ some 0
  last_ne_zero : digits.getLast? ≠ some 0
  zero_normal : digits = [] → negative = false ∧ point = 0
deriving DecidableEq

def Decimal.zero : Decimal := ⟨false, [], 0, by simp, by simp, by simp⟩

def Decimal.digit (n : Fin 10) (hn : n ≠ 0) : Decimal :=
  ⟨false, [n], 1, by simpa using hn, by simpa using hn, by simp⟩

/-- The numbers of the language. -/
inductive JsNumber where
  | finite (value : Decimal)
  | nan
  | infinity (negative : Bool)
deriving DecidableEq

def JsNumber.zero : JsNumber := .finite .zero

def JsNumber.one : JsNumber := .finite (.digit 1 (by decide))

/-- The number with the given digits in front of the decimal point. -/
def Decimal.ofDigits (digits : List (Fin 10)) : Decimal :=
  let whole := digits.dropWhile fun digit => decide (digit = 0)
  let significant := whole.rdropWhile fun digit => decide (digit = 0)
  if hne : significant = [] then .zero
  else {
    negative := false
    digits := significant
    point := whole.length
    head_ne_zero := by
      intro hhead
      obtain ⟨zeros, hwhole⟩ : significant <+: whole := List.rdropWhile_prefix _ _
      have hfirst : (digits.dropWhile fun digit => decide (digit = 0)).head? = some 0 := by
        change whole.head? = some 0
        rw [← hwhole, List.head?_append, hhead]
        rfl
      have hnot := List.head?_dropWhile_not (fun digit => decide (digit = 0)) digits
      rw [hfirst] at hnot
      simp at hnot
    last_ne_zero := by
      intro hlast
      have hnot := List.rdropWhile_last_not _ _ hne
      rw [List.getLast?_eq_some_getLast hne] at hlast
      exact hnot (decide_eq_true (Option.some.inj hlast))
    zero_normal := fun hnil => absurd hnil hne }

def JsNumber.ofNat (n : Nat) : JsNumber :=
  .finite (.ofDigits ((Nat.toDigits 10 n).map fun c => Fin.ofNat 10 (c.toNat - 48)))

def digitText (digits : List (Fin 10)) : Text := digits.map fun digit => Nat.digitChar digit.val

def exponentText (exponent : Int) : Text :=
  (if 0 < exponent then '+' else '-') :: Nat.toDigits 10 exponent.natAbs

/-- `Number::toString` of a positive number with significant digits `s`, in
the order of the cases of the specification. -/
def unsignedText (s : Text) (n : Int) : Text :=
  if s.length ≤ n ∧ n ≤ 21 then
    s ++ List.replicate (n.toNat - s.length) '0'
  else if 0 < n ∧ n ≤ 21 then
    s.take n.toNat ++ '.' :: s.drop n.toNat
  else if -6 < n ∧ n ≤ 0 then
    '0' :: '.' :: (List.replicate (-n).toNat '0' ++ s)
  else
    s.take 1 ++ (if s.length = 1 then [] else '.' :: s.drop 1) ++ 'e' :: exponentText (n - 1)

/-- `Number::toString` of a finite number. -/
def Decimal.text (value : Decimal) : Text :=
  (if value.negative then ['-'] else []) ++
    if value.digits = [] then ['0'] else unsignedText (digitText value.digits) value.point

/-- `JSON.stringify` of a number. -/
def JsNumber.text : JsNumber → Text
  | .finite value => value.text
  | .nan | .infinity _ => "null".toList

/-- `Number.isFinite`. -/
def JsNumber.isFinite : JsNumber → Bool
  | .finite _ => true
  | .nan | .infinity _ => false

/-- `Number.isInteger`: no digit stands after the decimal point. -/
def JsNumber.isInteger : JsNumber → Bool
  | .finite value => decide ((value.digits.length : Int) ≤ value.point)
  | .nan | .infinity _ => false

/-- `n < 0`. -/
def JsNumber.isNegative : JsNumber → Bool
  | .finite value => value.negative
  | .infinity negative => negative
  | .nan => false

/-- `n < 1`, for an integer. -/
def JsNumber.isBelowOne (n : JsNumber) : Bool := n.isNegative || decide (n = .zero)

/-- The characters that occur in texts of finite numbers. -/
def isNumberChar (c : Char) : Bool :=
  c.isDigit || c == '-' || c == '+' || c == '.' || c == 'e'

/-! ## Reading a number text back -/

def readExponent : Text → Int
  | _ :: sign :: digits =>
      if sign = '-' then -(Nat.ofDigitChars 10 digits 0 : Int) else Nat.ofDigitChars 10 digits 0
  | _ => 0

/-- The significant digits and the decimal point of an unsigned number text. -/
def readUnsigned (text : Text) : Text × Int :=
  let mantissa := text.takeWhile (· != 'e')
  let whole := mantissa.takeWhile (· != '.')
  let all := whole ++ (mantissa.dropWhile (· != '.')).drop 1
  ((all.dropWhile (· == '0')).rdropWhile (· == '0'),
    whole.length - (all.takeWhile (· == '0')).length + readExponent (text.dropWhile (· != 'e')))

/-- A list splits at the first occurrence of a character. -/
theorem span_of_notMem {c : Char} (before after : Text) (hbefore : c ∉ before)
    (hafter : after = [] ∨ ∃ rest, after = c :: rest) :
    (before ++ after).takeWhile (· != c) = before ∧
      (before ++ after).dropWhile (· != c) = after := by
  have hall : ∀ a ∈ before, (a != c) = true := by
    intro a ha
    simp only [bne_iff_ne, ne_eq]
    exact fun heq => hbefore (heq ▸ ha)
  rw [List.takeWhile_append_of_pos hall, List.dropWhile_append_of_pos hall]
  rcases hafter with rfl | ⟨rest, rfl⟩
  · simp
  · simp

variable {s : Text}

/-- Zeros around digits with no zero at either end are told from the digits. -/
theorem trim_zeros (hne : s ≠ []) (hhead : s.head? ≠ some '0') (hlast : s.getLast? ≠ some '0')
    (before after : Nat) : let all := List.replicate before '0' ++ (s ++ List.replicate after '0')
    (all.takeWhile (· == '0')).length = before ∧
      (all.dropWhile (· == '0')).rdropWhile (· == '0') = s := by
  intro all
  have hzeros : ∀ a ∈ List.replicate before '0', (a == '0') = true := by
    intro a ha
    simp [(List.mem_replicate.mp ha).2]
  have hstart : ∃ c rest, s = c :: rest ∧ c ≠ '0' := by
    cases s with
    | nil => exact absurd rfl hne
    | cons c rest => exact ⟨c, rest, rfl, by simpa using hhead⟩
  obtain ⟨c, rest, hs, hc⟩ := hstart
  have htake : (s ++ List.replicate after '0').takeWhile (· == '0') = [] := by simp [hs, hc]
  have hdrop : (s ++ List.replicate after '0').dropWhile (· == '0') =
      s ++ List.replicate after '0' := by simp [hs, hc]
  constructor
  · rw [List.takeWhile_append_of_pos hzeros, htake, List.append_nil, List.length_replicate]
  · rw [List.dropWhile_append_of_pos hzeros, hdrop]
    have hlast' : ∀ h : s ≠ [], ¬(s.getLast h == '0') = true := by
      intro h heq
      rw [beq_iff_eq] at heq
      exact hlast (by rw [List.getLast?_eq_some_getLast h, heq])
    have hself : s.rdropWhile (· == '0') = s := List.rdropWhile_eq_self_iff.mpr hlast'
    induction after with
    | zero => simpa using hself
    | succ after ih =>
        rw [List.replicate_succ', ← List.append_assoc, List.rdropWhile_concat_pos _ _ _ (by simp)]
        exact ih (by simp [hs, hc]) (by simp [hs, hc])

theorem readExponent_text {exponent : Int} (_hne : exponent ≠ 0) :
    readExponent ('e' :: exponentText exponent) = exponent := by
  unfold exponentText
  split
  next hpos =>
    rw [readExponent, if_neg (by decide), Nat.ofDigitChars_ten_toDigits]
    omega
  next hneg =>
    rw [readExponent, if_pos rfl, Nat.ofDigitChars_ten_toDigits]
    omega

/-- Reading the text of a number gives its digits and its decimal point. -/
theorem readUnsigned_text {n : Int} (hdigits : ∀ c ∈ s, c.isDigit) (hne : s ≠ [])
    (hhead : s.head? ≠ some '0') (hlast : s.getLast? ≠ some '0') :
    readUnsigned (unsignedText s n) = (s, n) := by
  have hnotMem : ∀ {c : Char}, c.isDigit = false → c ∉ s := by
    intro c hc hmem
    rw [hdigits c hmem] at hc
    contradiction
  have hdot : '.' ∉ s := hnotMem (by decide)
  have hexp : 'e' ∉ s := hnotMem (by decide)
  have hlength : 0 < s.length := List.length_pos_iff.mpr hne
  unfold unsignedText
  split
  next hcase =>
    -- an integer: the digits and the zeros up to the decimal point
    have he : 'e' ∉ s ++ List.replicate (n.toNat - s.length) '0' := by simp [hexp]
    have hd : '.' ∉ s ++ List.replicate (n.toNat - s.length) '0' := by simp [hdot]
    have hspan := span_of_notMem _ [] he (Or.inl rfl)
    have hspan' := span_of_notMem _ [] hd (Or.inl rfl)
    have htrim := trim_zeros hne hhead hlast 0 (n.toNat - s.length)
    simp only [List.append_nil] at hspan hspan'
    simp only [List.replicate_zero, List.nil_append] at htrim
    simp only [readUnsigned, hspan.1, hspan.2, hspan'.1, hspan'.2, List.drop_nil,
      List.append_nil, htrim.1, htrim.2, readExponent, List.length_append,
      List.length_replicate, Prod.mk.injEq, true_and]
    omega
  next =>
  split
  next hcase hcase' =>
    -- the decimal point stands between two digits
    have he : 'e' ∉ s.take n.toNat ++ '.' :: s.drop n.toNat := by
      simp only [List.mem_append, List.mem_cons, not_or]
      exact ⟨fun h => hexp (List.mem_of_mem_take h), by decide,
        fun h => hexp (List.mem_of_mem_drop h)⟩
    have hspan := span_of_notMem _ [] he (Or.inl rfl)
    have hspan' := span_of_notMem (s.take n.toNat) ('.' :: s.drop n.toNat)
      (fun h => hdot (List.mem_of_mem_take h)) (Or.inr ⟨_, rfl⟩)
    have htrim := trim_zeros hne hhead hlast 0 0
    simp only [List.append_nil] at hspan
    simp only [List.replicate_zero, List.nil_append, List.append_nil] at htrim
    simp only [readUnsigned, hspan.1, hspan.2, hspan'.1, hspan'.2, List.drop_succ_cons,
      List.drop_zero, List.take_append_drop, htrim.1, htrim.2, readExponent,
      List.length_take, Prod.mk.injEq, true_and]
    omega
  next =>
  split
  next hcase =>
    -- zeros stand between the decimal point and the digits
    have he : 'e' ∉ '0' :: '.' :: (List.replicate (-n).toNat '0' ++ s) := by simp [hexp]
    have hspan := span_of_notMem _ [] he (Or.inl rfl)
    have hspan' := span_of_notMem ['0']
      ('.' :: (List.replicate (-n).toNat '0' ++ s)) (by decide) (Or.inr ⟨_, rfl⟩)
    have htrim := trim_zeros hne hhead hlast ((-n).toNat + 1) 0
    simp only [List.append_nil] at hspan
    simp only [List.singleton_append] at hspan'
    simp only [List.replicate_zero, List.append_nil, List.replicate_succ,
      List.cons_append] at htrim
    simp only [readUnsigned, hspan.1, hspan.2, hspan'.1, hspan'.2, List.drop_succ_cons,
      List.drop_zero, List.singleton_append, htrim.1, htrim.2, readExponent,
      List.length_singleton, Prod.mk.injEq, true_and]
    omega
  next hint hfrac hsmall =>
    have hmantissa : ∀ c, c ≠ '.' → c ∉ s →
        c ∉ s.take 1 ++ (if s.length = 1 then [] else '.' :: s.drop 1) := by
      intro c hc hmem
      rw [List.mem_append, not_or]
      refine ⟨fun h => hmem (List.mem_of_mem_take h), ?_⟩
      split
      · simp
      · simp only [List.mem_cons, not_or]
        exact ⟨hc, fun h => hmem (List.mem_of_mem_drop h)⟩
    have hspan := span_of_notMem _ ('e' :: exponentText (n - 1))
      (hmantissa 'e' (by decide) hexp) (Or.inr ⟨_, rfl⟩)
    have hspan' := span_of_notMem (s.take 1)
      (if s.length = 1 then [] else '.' :: s.drop 1)
      (fun h => hdot (List.mem_of_mem_take h))
      (by split
          · exact Or.inl rfl
          · exact Or.inr ⟨_, rfl⟩)
    have hfraction : (if s.length = 1 then [] else '.' :: s.drop 1).drop 1 = s.drop 1 := by
      split
      next hone => rw [List.drop_nil, List.drop_of_length_le (by omega)]
      next => rfl
    have htrim := trim_zeros hne hhead hlast 0 0
    simp only [List.replicate_zero, List.nil_append, List.append_nil] at htrim
    simp only [readUnsigned, hspan.1, hspan.2, hspan'.1, hspan'.2, hfraction,
      List.take_append_drop, htrim.1, htrim.2, readExponent_text (show n - 1 ≠ 0 by omega),
      List.length_take, Prod.mk.injEq, true_and]
    omega

/-! ## The text determines the number -/

theorem digitChar_injective : Function.Injective fun digit : Fin 10 => Nat.digitChar digit.val := by
  intro left right
  revert left right
  decide

theorem digitText_isDigit {digits : List (Fin 10)} {c : Char} (hc : c ∈ digitText digits) :
    c.isDigit := by
  obtain ⟨digit, _, rfl⟩ := List.mem_map.mp hc
  have hall : ∀ digit : Fin 10, (Nat.digitChar digit.val).isDigit := by decide
  exact hall digit

theorem unsignedText_chars (hdigits : ∀ c ∈ s, c.isDigit) (n : Int) :
    ∀ c ∈ unsignedText s n, isNumberChar c := by
  have hnumber : ∀ c ∈ s, isNumberChar c := fun c hc => by simp [isNumberChar, hdigits c hc]
  have hzeros : ∀ k, ∀ c ∈ List.replicate k '0', isNumberChar c := by
    intro k c hc
    rw [(List.mem_replicate.mp hc).2]
    decide
  intro c hc
  unfold unsignedText at hc
  split at hc
  next => exact (List.mem_append.mp hc).elim (hnumber c) (hzeros _ c)
  next =>
  split at hc
  next =>
    simp only [List.mem_append, List.mem_cons] at hc
    rcases hc with hc | rfl | hc
    · exact hnumber c (List.mem_of_mem_take hc)
    · decide
    · exact hnumber c (List.mem_of_mem_drop hc)
  next =>
  split at hc
  next =>
    simp only [List.mem_append, List.mem_cons] at hc
    rcases hc with rfl | rfl | hc | hc
    · decide
    · decide
    · exact hzeros _ c hc
    · exact hnumber c hc
  next =>
    simp only [exponentText, List.mem_append, List.mem_cons] at hc
    rcases hc with (hc | hc) | rfl | rfl | hc
    · exact hnumber c (List.mem_of_mem_take hc)
    · split at hc
      · simp at hc
      · rcases List.mem_cons.mp hc with rfl | hc
        · decide
        · exact hnumber c (List.mem_of_mem_drop hc)
    · decide
    · split <;> decide
    · simp [isNumberChar, Nat.isDigit_of_mem_toDigits (by decide) (by decide) hc]

theorem unsignedText_head (hdigits : ∀ c ∈ s, c.isDigit) (hne : s ≠ []) (n : Int) :
    ∃ c rest, unsignedText s n = c :: rest ∧ c.isDigit := by
  cases s with
  | nil => exact absurd rfl hne
  | cons c rest =>
      have hc : c.isDigit := hdigits c List.mem_cons_self
      unfold unsignedText
      split
      · exact ⟨c, _, rfl, hc⟩
      split
      next hcase =>
        obtain ⟨k, hk⟩ : ∃ k, n.toNat = k + 1 := ⟨n.toNat - 1, by omega⟩
        exact ⟨c, _, by rw [hk]; rfl, hc⟩
      split
      · exact ⟨'0', _, rfl, by decide⟩
      · exact ⟨c, _, rfl, hc⟩

namespace Decimal

def unsigned (value : Decimal) : Text :=
  if value.digits = [] then ['0'] else unsignedText (digitText value.digits) value.point

theorem text_eq (value : Decimal) :
    value.text = (if value.negative then ['-'] else []) ++ value.unsigned := rfl

theorem unsigned_head (value : Decimal) : ∃ c rest, value.unsigned = c :: rest ∧ c.isDigit := by
  unfold unsigned
  split
  · exact ⟨'0', [], rfl, by decide⟩
  next hne =>
    exact unsignedText_head (fun c hc => digitText_isDigit hc) (by simpa [digitText] using hne) _

theorem readUnsigned_unsigned (value : Decimal) :
    readUnsigned value.unsigned = (digitText value.digits, value.point) := by
  unfold unsigned
  split
  next hzero =>
    rw [hzero, (value.zero_normal hzero).2]
    decide
  next hne =>
    have hzero : Nat.digitChar (0 : Fin 10).val = '0' := by decide
    apply readUnsigned_text (fun c hc => digitText_isDigit hc) (by simpa [digitText] using hne)
    · intro heq
      rw [digitText, List.head?_map, ← hzero] at heq
      obtain ⟨digit, hdigit, hchar⟩ := Option.map_eq_some_iff.mp heq
      exact value.head_ne_zero (digitChar_injective hchar ▸ hdigit)
    · intro heq
      rw [digitText, List.getLast?_map, ← hzero] at heq
      obtain ⟨digit, hdigit, hchar⟩ := Option.map_eq_some_iff.mp heq
      exact value.last_ne_zero (digitChar_injective hchar ▸ hdigit)

/-- A finite number is determined by its text. -/
theorem text_injective : Function.Injective text := by
  intro left right heq
  obtain ⟨c, crest, hleft, hc⟩ := left.unsigned_head
  obtain ⟨d, drest, hright, hd⟩ := right.unsigned_head
  have hminus : ∀ {c : Char}, c.isDigit → c ≠ '-' := by
    rintro c hc rfl
    simp at hc
  rw [text_eq, text_eq] at heq
  have hparts : left.negative = right.negative ∧ left.unsigned = right.unsigned := by
    cases hl : left.negative <;> cases hr : right.negative
    · simpa [hl, hr] using heq
    · simp only [hl, hr, hleft, hright, Bool.false_eq_true, if_false, if_true, List.nil_append,
        List.singleton_append, List.cons.injEq] at heq
      exact absurd heq.1 (hminus hc)
    · simp only [hl, hr, hleft, hright, Bool.false_eq_true, if_false, if_true, List.nil_append,
        List.singleton_append, List.cons.injEq] at heq
      exact absurd heq.1.symm (hminus hd)
    · simpa [hl, hr] using heq
  have hread := congrArg readUnsigned hparts.2
  rw [readUnsigned_unsigned, readUnsigned_unsigned, Prod.mk.injEq] at hread
  have hdigits : left.digits = right.digits :=
    List.map_injective_iff.mpr digitChar_injective hread.1
  cases left
  cases right
  simp only at hparts hread hdigits
  simp [hparts.1, hread.2, hdigits]

theorem text_chars (value : Decimal) : ∀ c ∈ value.text, isNumberChar c := by
  intro c hc
  rw [text_eq, List.mem_append] at hc
  rcases hc with hc | hc
  · split at hc
    · rw [List.mem_singleton.mp hc]
      decide
    · simp at hc
  · unfold unsigned at hc
    split at hc
    · rw [List.mem_singleton.mp hc]
      decide
    · exact unsignedText_chars (fun c hc => digitText_isDigit hc) _ c hc

theorem text_ne_nil (value : Decimal) : value.text ≠ [] := by
  obtain ⟨c, rest, heq, _⟩ := value.unsigned_head
  rw [text_eq, heq]
  simp

end Decimal

end KjAtlas.Js
