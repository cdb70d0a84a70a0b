import KjAtlas.Context.Query

/-! # What arrives of a query

Values without numbers other than integers below `2 ^ 53` are read in the back end
as they are written in the front end, with the members of a dict in the order of
the properties.
-/

namespace KjAtlas.Context

open Js Py

/-! ## Integers -/

section Integers

/-- Digits that do not start with zero are the digits of their number. -/
theorem toDigits_ofDigitChars {digits : List (Fin 10)} (hne : digits ≠ [])
    (hhead : digits.head? ≠ some 0) :
    Nat.toDigits 10 (Nat.ofDigitChars 10 (digitText digits) 0) = digitText digits ∧
      0 < Nat.ofDigitChars 10 (digitText digits) 0 := by
  induction digits using List.reverseRecOn with
  | nil => exact absurd rfl hne
  | append_singleton digits d ih =>
      have hvalue : Nat.ofDigitChars 10 (digitText (digits ++ [d])) 0 =
          10 * Nat.ofDigitChars 10 (digitText digits) 0 + d.val := by
        rw [digitText, List.map_append, Nat.ofDigitChars_append, List.map_singleton,
          Nat.ofDigitChars_cons_digitChar_of_lt_ten d.isLt, Nat.ofDigitChars_nil]
        rfl
      have htext : digitText (digits ++ [d]) = digitText digits ++ [Nat.digitChar d.val] := by
        rw [digitText, List.map_append, List.map_singleton]
        rfl
      rw [hvalue, htext]
      cases digits with
      | nil =>
          have hd : d ≠ 0 := by simpa using hhead
          have hpos : 0 < d.val := Nat.pos_of_ne_zero fun heq => hd (Fin.ext heq)
          have hzero : Nat.ofDigitChars 10 (digitText []) 0 = 0 := rfl
          rw [hzero, Nat.mul_zero, Nat.zero_add, Nat.toDigits_of_lt_base d.isLt]
          exact ⟨rfl, hpos⟩
      | cons head digits =>
          obtain ⟨hdigits, hpos⟩ := ih (List.cons_ne_nil _ _) (by simpa using hhead)
          rw [← Nat.toDigits_append_toDigits (by decide) hpos d.isLt, hdigits,
            Nat.toDigits_of_lt_base d.isLt]
          exact ⟨rfl, by omega⟩

def integerDigits (value : Decimal) : List (Fin 10) :=
  value.digits ++ List.replicate (value.point.toNat - value.digits.length) 0

def toInt : JsNumber → Int
  | .finite value =>
      let magnitude := Nat.ofDigitChars 10 (digitText (integerDigits value)) 0
      if value.negative then -magnitude else magnitude
  | .nan | .infinity _ => 0

/-- `Number.isSafeInteger`. -/
def isSafeInteger (n : JsNumber) : Bool := n.isInteger && decide ((toInt n).natAbs < 2 ^ 53)

theorem digitText_integerDigits (value : Decimal) :
    digitText (integerDigits value) = digitText value.digits ++
      List.replicate (value.point.toNat - value.digits.length) '0' := by
  rw [digitText, integerDigits, List.map_append, List.map_replicate]
  rfl

/-- An integer that is not too large is written as its digits. -/
theorem unsignedText_of_integer {value : Decimal}
    (hinteger : (value.digits.length : Int) ≤ value.point) (hpoint : value.point ≤ 21) :
    unsignedText (digitText value.digits) value.point = digitText (integerDigits value) := by
  have hlength : (digitText value.digits).length = value.digits.length := List.length_map _
  rw [digitText_integerDigits, unsignedText, if_pos (by rw [hlength]; exact ⟨hinteger, hpoint⟩),
    hlength]

theorem intText_natCast (n : Nat) : intText n = Nat.toDigits 10 n := rfl

theorem intText_neg_natCast {n : Nat} (hpos : 0 < n) :
    intText (-(n : Int)) = '-' :: Nat.toDigits 10 n := by
  obtain ⟨m, rfl⟩ : ∃ m, n = m + 1 := ⟨n - 1, by omega⟩
  rfl

theorem intText_toInt {n : JsNumber} (hsafe : isSafeInteger n = true) :
    intText (toInt n) = n.text := by
  rw [isSafeInteger, Bool.and_eq_true, decide_eq_true_eq] at hsafe
  obtain ⟨hinteger, hbound⟩ := hsafe
  cases n with
  | nan => cases hinteger
  | infinity negative => cases hinteger
  | finite value =>
      have hlength : (value.digits.length : Int) ≤ value.point := of_decide_eq_true hinteger
      rw [JsNumber.text, Decimal.text]
      by_cases hdigits : value.digits = []
      · obtain ⟨hsign, hpoint⟩ := value.zero_normal hdigits
        have hzero : toInt (.finite value) = (0 : Nat) := by
          rw [toInt, integerDigits, hdigits, hpoint, hsign]
          rfl
        rw [hzero, intText_natCast, if_pos hdigits, hsign]
        rfl
      · have hne : integerDigits value ≠ [] := by
          rw [integerDigits]
          exact List.append_ne_nil_of_left_ne_nil hdigits _
        have hhead : (integerDigits value).head? ≠ some 0 := by
          rw [integerDigits, List.head?_append_of_ne_nil _ hdigits]
          exact value.head_ne_zero
        obtain ⟨htext, hpos⟩ := toDigits_ofDigitChars hne hhead
        have hpoint : value.point ≤ 21 := by
          have hmagnitude : (toInt (.finite value)).natAbs =
              Nat.ofDigitChars 10 (digitText (integerDigits value)) 0 := by
            rw [toInt]
            split
            · rw [Int.natAbs_neg, Int.natAbs_natCast]
            · rw [Int.natAbs_natCast]
          rw [hmagnitude] at hbound
          have hdigitsLength := (Nat.length_toDigits_le_iff (by decide : 1 < 10)
            (by decide : 0 < 21)).mpr (hbound.trans (by decide : 2 ^ 53 < 10 ^ 21))
          rw [htext, digitText, List.length_map, integerDigits, List.length_append,
            List.length_replicate] at hdigitsLength
          omega
        rw [if_neg hdigits, unsignedText_of_integer hlength hpoint, toInt]
        cases hsign : value.negative with
        | true =>
            simp only [if_true]
            rw [intText_neg_natCast hpos, htext]
            rfl
        | false =>
            simp only [Bool.false_eq_true, if_false]
            rw [intText_natCast, htext]
            rfl

end Integers

/-! ## Values -/

section Values

variable {F : Type}

/-- Values as JSON has them, with safe integers for numbers. -/
def isPlain : JsValue → Bool := JsValue.fold {
  null := true
  bool _ := true
  number := isSafeInteger
  string _ := true
  array items := items.all id
  object props := decide (props.map Prod.fst).Nodup && props.all fun prop => prop.2.getD false }

def received : JsValue → Json F := JsValue.fold {
  null := .null
  bool := .bool
  number n := .int (toInt n)
  string := .str
  array := .list
  object props := .dict (props.filterMap fun prop => prop.2.map (prop.1, ·)) }

/-- What arrives of the properties of an object. -/
def receivedMembers (props : Props) : List (String × Json F) :=
  props.filterMap fun prop => prop.2.map fun value => (prop.1, received value)

theorem isPlain_array (items : List JsValue) : isPlain (.array items) = items.all isPlain :=
  (JsValue.fold_array _ items).trans List.all_map

theorem isPlain_object (props : Props) :
    isPlain (.object props) =
      (decide props.names.Nodup && props.all fun prop => (prop.2.map isPlain).getD false) := by
  rw [isPlain, JsValue.fold_object]
  simp only [List.map_map, List.all_map]
  rfl

theorem received_array (items : List JsValue) :
    received (.array items) = (.list (items.map received) : Json F) :=
  JsValue.fold_array _ items

theorem received_object (props : Props) :
    received (.object props) = (.dict (receivedMembers props) : Json F) := by
  rw [received, JsValue.fold_object]
  simp only [List.filterMap_map]
  congr 2
  funext prop
  simp only [Function.comp_apply, Option.map_map]
  rfl

/-- The properties of a plain object are defined and plain. -/
structure PlainProps (props : Props) : Prop where
  nodup : props.names.Nodup
  plain : ∀ prop ∈ props, ∃ value, prop.2 = some value ∧ isPlain value = true

variable {props : Props}

theorem plainProps_iff : isPlain (.object props) = true ↔ PlainProps props := by
  rw [isPlain_object, Bool.and_eq_true, decide_eq_true_eq, List.all_eq_true]
  constructor
  · rintro ⟨hnodup, hall⟩
    refine ⟨hnodup, fun prop hprop => ?_⟩
    have hplain := hall prop hprop
    cases hvalue : prop.2 with
    | none => simp [hvalue] at hplain
    | some value => exact ⟨value, rfl, by simpa [hvalue] using hplain⟩
  · rintro ⟨hnodup, hall⟩
    refine ⟨hnodup, fun prop hprop => ?_⟩
    obtain ⟨value, hvalue, hplain⟩ := hall prop hprop
    simpa [hvalue] using hplain

def propTexts (props : Props) : List (String × Text) :=
  props.filterMap fun prop => prop.2.map fun value => (prop.1, render value)

theorem map_memberText_propTexts (hdefined : ∀ prop ∈ props, prop.2 ≠ none) :
    (propTexts props).map Py.memberText = props.map propText := by
  induction props with
  | nil => rfl
  | cons prop props ih =>
      obtain ⟨key, value⟩ := prop
      cases value with
      | none => exact absurd rfl (hdefined (key, none) List.mem_cons_self)
      | some value =>
          have hrest := ih fun other hother => hdefined other (List.mem_cons_of_mem _ hother)
          exact congrArg (propText (key, some value) :: ·) hrest

theorem names_receivedMembers (hdefined : ∀ prop ∈ props, prop.2 ≠ none) :
    (receivedMembers props : List (String × Json F)).map Prod.fst = props.names := by
  induction props with
  | nil => rfl
  | cons prop props ih =>
      obtain ⟨key, value⟩ := prop
      cases value with
      | none => exact absurd rfl (hdefined (key, none) List.mem_cons_self)
      | some value =>
          have hrest := ih fun other hother => hdefined other (List.mem_cons_of_mem _ hother)
          exact congrArg (key :: ·) hrest

theorem PlainProps.defined (hprops : PlainProps props) : ∀ prop ∈ props, prop.2 ≠ none := by
  intro prop hprop
  obtain ⟨value, hvalue, -⟩ := hprops.plain prop hprop
  simp [hvalue]

theorem reads_members {floats : Floats F} (hprops : ∀ key value, (key, some value) ∈ props →
      Reads floats (received value) (render value)) :
    List.Forall₂ (ReadsMember floats) (receivedMembers props) (propTexts props) := by
  induction props with
  | nil => exact .nil
  | cons prop props ih =>
      obtain ⟨key, value⟩ := prop
      have hrest := ih fun other value hmem => hprops other value (List.mem_cons_of_mem _ hmem)
      cases value with
      | none => exact hrest
      | some value => exact .cons ⟨rfl, hprops key value List.mem_cons_self⟩ hrest

theorem reads_items {floats : Floats F} {items : List JsValue}
    (hitems : ∀ item ∈ items, Reads floats (received item) (render item)) :
    List.Forall₂ (Reads floats) (items.map received) (items.map render) := by
  induction items with
  | nil => exact .nil
  | cons item items ih =>
      exact .cons (hitems item List.mem_cons_self)
        (ih fun other hother => hitems other (List.mem_cons_of_mem _ hother))

theorem reads_received (floats : Floats F) {value : JsValue} (hplain : isPlain value = true) :
    Reads floats (received value) (render value) := by
  induction value using JsValue.induction with
  | null => exact reads_of_atom (by decide) (by decide) fun rest _ => readWord_append "null" _ rest
  | bool b =>
      cases b with
      | true =>
          exact reads_of_atom (by decide) (by decide) fun rest _ => readWord_append "true" _ rest
      | false =>
          exact reads_of_atom (by decide) (by decide) fun rest _ => readWord_append "false" _ rest
  | number n =>
      have htext : render (.number n) = intText (toInt n) := (intText_toInt hplain).symm
      obtain ⟨c, more, hcons, hc⟩ := intText_eq_cons (toInt n)
      obtain ⟨hspace, hopen⟩ := digit_opens hc
      rw [htext, hcons]
      exact reads_of_atom hspace hopen fun rest hrest =>
        hcons ▸ readAtom_intText floats (toInt n) hrest
  | string s =>
      have hstarts : Starts (quote s) := ⟨'"', _, rfl, by decide, by decide⟩
      refine ⟨hstarts, fun fuel rest hfuel _ => ?_⟩
      obtain ⟨fuel, rfl, -⟩ := exists_fuel hstarts hfuel
      have hread : readValue floats (fuel + 1) (quote s ++ rest) = some (.str s, rest) := by
        simp [quote, readValue, readString_quoted]
      exact hread
  | array items ih =>
      rw [isPlain_array, List.all_eq_true] at hplain
      rw [received_array, render_array]
      exact reads_list (reads_items fun item hitem => ih item hitem (hplain item hitem))
  | object props ih =>
      have hprops := plainProps_iff.mp hplain
      have hvalues : ∀ key value, (key, some value) ∈ props →
          Reads floats (received value) (render value) := by
        intro key value hmem
        obtain ⟨other, hother, hplain⟩ := hprops.plain _ hmem
        obtain rfl := Option.some.inj hother
        exact ih key value hmem hplain
      rw [received_object, render_object, ← map_memberText_propTexts hprops.defined]
      refine reads_dict (reads_members hvalues) ?_
      rw [names_receivedMembers hprops.defined]
      exact hprops.nodup

theorem loads_render (floats : Floats F) {value : JsValue} (hplain : isPlain value = true) :
    loads floats (render value) = some (received value) :=
  (reads_received floats hplain).loads

end Values

end KjAtlas.Context
