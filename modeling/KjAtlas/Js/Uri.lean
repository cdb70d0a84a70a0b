import KjAtlas.Foundation.PrefixCode
import KjAtlas.Py.Json

/-! # Escapes of URI components

A component is written as UTF-8. Letters, digits and a few marks stand for
themselves and every other byte is escaped, so a component is read in one way
only and holds no separator.
-/

namespace KjAtlas.Js

open Py (utf8)

/-- The bytes that `encodeURIComponent` leaves as they are. -/
def isUnreserved (b : UInt8) : Bool :=
  let c := Char.ofNat b.toNat
  decide (b < 0x80) && (c.isAlphanum || "-_.!~*'()".toList.contains c)

def upperHexDigit (n : Nat) : Char := (Nat.digitChar n).toUpper

def encodeByte (b : UInt8) : Text :=
  if isUnreserved b then [Char.ofNat b.toNat]
  else ['%', upperHexDigit (b.toNat / 16), upperHexDigit (b.toNat % 16)]

/-- `encodeURIComponent(text)`, of a text without lone surrogates. -/
def encodeURIComponent (text : String) : Text := (utf8 text.toList).flatMap encodeByte

theorem utf8_prefixCode : PrefixCode String.utf8EncodeChar where
  ne_nil c hnil := by
    have hpos := c.utf8Size_pos
    rw [← String.length_utf8EncodeChar, hnil] at hpos
    exact Nat.lt_irrefl 0 hpos
  split {a b r s} heq := by
    have hfirst : ∀ (c : Char) rest,
        (String.utf8EncodeChar c ++ rest).toByteArray.utf8DecodeChar? 0 = some c := fun c rest => by
      rw [List.toByteArray_append]
      exact ByteArray.utf8DecodeChar?_utf8EncodeChar_append
    have hchar := hfirst a r
    rw [heq, hfirst b s] at hchar
    obtain rfl := Option.some.inj hchar
    exact ⟨rfl, List.append_cancel_left heq⟩

theorem isUnreserved_spec : ∀ n < 256, isUnreserved (UInt8.ofNat n) = true →
    Char.ofNat n ≠ '%' ∧ Char.ofNat n ≠ '/' ∧ (Char.ofNat n).toNat = n := by
  decide +kernel

theorem upperHexDigit_spec : ∀ n < 16, upperHexDigit n ≠ '/' ∧
    ∀ m < 16, upperHexDigit n = upperHexDigit m → n = m := by
  decide

theorem encodeByte_prefixCode : PrefixCode encodeByte where
  ne_nil b := by
    unfold encodeByte
    split <;> exact List.cons_ne_nil _ _
  split {a b r s} heq := by
    have ha := a.toNat_lt
    have hb := b.toNat_lt
    unfold encodeByte at heq
    split at heq
    next hsafeA =>
      obtain ⟨hpercentA, -, hvalueA⟩ := isUnreserved_spec a.toNat ha (by simpa using hsafeA)
      split at heq
      next hsafeB =>
        obtain ⟨-, -, hvalueB⟩ := isUnreserved_spec b.toNat hb (by simpa using hsafeB)
        obtain ⟨hchar, hrest⟩ := List.cons.inj heq
        refine ⟨UInt8.toNat_inj.mp ?_, hrest⟩
        rw [← hvalueA, hchar, hvalueB]
      next => exact absurd (List.cons.inj heq).1 hpercentA
    next =>
      split at heq
      next hsafeB =>
        obtain ⟨hpercentB, -⟩ := isUnreserved_spec b.toNat hb (by simpa using hsafeB)
        exact absurd (List.cons.inj heq).1.symm hpercentB
      next =>
        simp only [List.cons_append, List.nil_append, List.cons.injEq, true_and] at heq
        obtain ⟨hhigh, hlow, hrest⟩ := heq
        have hdiv := (upperHexDigit_spec (a.toNat / 16) (by omega)).2 _ (by omega) hhigh
        have hmod := (upperHexDigit_spec (a.toNat % 16) (by omega)).2 _ (by omega) hlow
        exact ⟨UInt8.toNat_inj.mp (by omega), hrest⟩

theorem encodeURIComponent_injective : Function.Injective encodeURIComponent := by
  intro left right heq
  have hbytes := encodeByte_prefixCode.flatMap_injective heq
  exact String.toList_injective (utf8_prefixCode.flatMap_injective hbytes)

theorem slash_notMem_encodeURIComponent (text : String) : '/' ∉ encodeURIComponent text := by
  intro hmem
  obtain ⟨b, -, hb⟩ := List.mem_flatMap.mp hmem
  have hlt := b.toNat_lt
  unfold encodeByte at hb
  split at hb
  next hsafe =>
    exact (isUnreserved_spec b.toNat hlt (by simpa using hsafe)).2.1
      (List.mem_singleton.mp hb).symm
  next =>
    have hhigh := (upperHexDigit_spec (b.toNat / 16) (by omega)).1
    have hlow := (upperHexDigit_spec (b.toNat % 16) (by omega)).1
    simp only [List.mem_cons, List.not_mem_nil, or_false] at hb
    rcases hb with hb | hb | hb
    · exact absurd hb (by decide)
    · exact hhigh hb.symm
    · exact hlow hb.symm

end KjAtlas.Js
