import KjAtlas.Py.Json

/-! # Percent encoding in Python

`quote` writes every byte of a text that is not safe as an escape, and `unquote`
reads the escapes back. An escaped text can be read back in front of any other
text that starts with an ASCII character.
-/

namespace KjAtlas.Py

open Js (Text)

/-- `text.rpartition(sep)` without the separator: what stands before and after its last
occurrence. -/
def rpartition (sep : Char) (text : Text) : Text × Text :=
  (((text.reverse.dropWhile (· ≠ sep)).drop 1).reverse,
    (text.reverse.takeWhile (· ≠ sep)).reverse)

theorem rpartition_append {sep : Char} (head : Text) {tail : Text} (htail : sep ∉ tail) :
    rpartition sep (head ++ sep :: tail) = (head, tail) := by
  have hother : ∀ c ∈ tail.reverse, decide (c ≠ sep) = true := by
    intro c hc
    rw [List.mem_reverse] at hc
    exact decide_eq_true fun heq => htail (heq ▸ hc)
  have hreverse : (head ++ sep :: tail).reverse = tail.reverse ++ sep :: head.reverse := by simp
  rw [rpartition, hreverse, List.dropWhile_append_of_pos hother,
    List.takeWhile_append_of_pos hother]
  simp

theorem exists_last_separator {sep : Char} {text : Text} (hmem : sep ∈ text) :
    ∃ head tail, text = head ++ sep :: tail ∧ sep ∉ tail := by
  induction text with
  | nil => simp at hmem
  | cons c text ih =>
      by_cases hlater : sep ∈ text
      · obtain ⟨head, tail, rfl, htail⟩ := ih hlater
        exact ⟨c :: head, tail, rfl, htail⟩
      · obtain rfl : sep = c := by simpa [hlater] using hmem
        exact ⟨[], text, rfl, hlater⟩

/-! ## Bytes that are not UTF-8 -/

/-- How many continuation bytes a lead byte asks for, and the range of the first. -/
def leadByte (lead : UInt8) : Nat × UInt8 × UInt8 :=
  if 0xC2 ≤ lead ∧ lead ≤ 0xDF then (1, 0x80, 0xBF)
  else if lead = 0xE0 then (2, 0xA0, 0xBF)
  else if lead = 0xED then (2, 0x80, 0x9F)
  else if 0xE1 ≤ lead ∧ lead ≤ 0xEF then (2, 0x80, 0xBF)
  else if lead = 0xF0 then (3, 0x90, 0xBF)
  else if 0xF1 ≤ lead ∧ lead ≤ 0xF3 then (3, 0x80, 0xBF)
  else if lead = 0xF4 then (3, 0x80, 0x8F)
  else (0, 0, 0)

/-- How many bytes, from a byte that starts no character on, one replacement stands for. -/
def replacedLength : Bytes → Nat
  | lead :: second :: rest =>
      let (count, low, high) := leadByte lead
      if 2 ≤ count ∧ low ≤ second ∧ second ≤ high then
        match rest with
        | third :: _ => if count = 3 ∧ 0x80 ≤ third ∧ third ≤ 0xBF then 3 else 2
        | [] => 2
      else 1
  | _ => 1

/-- `bytes.decode("utf-8", "replace")`, with fuel for every byte. -/
def decodeFrom : Nat → Bytes → Text
  | 0, _ => []
  | _, [] => []
  | fuel + 1, lead :: rest =>
      match (lead :: rest).toByteArray.utf8DecodeChar? 0 with
      | some c => c :: decodeFrom fuel ((lead :: rest).drop c.utf8Size)
      | none => '\uFFFD' :: decodeFrom fuel ((lead :: rest).drop (replacedLength (lead :: rest)))

@[inherit_doc decodeFrom]
def decodeReplace (bytes : Bytes) : Text := decodeFrom bytes.length bytes

theorem replacedLength_pos (bytes : Bytes) : 0 < replacedLength bytes := by
  unfold replacedLength
  split
  · dsimp only
    split
    · split
      · split <;> omega
      · omega
    · omega
  · omega

theorem decodeFrom_eq_of_le {fuel more : Nat} {bytes : Bytes} (hfuel : bytes.length ≤ fuel)
    (hmore : bytes.length ≤ more) : decodeFrom fuel bytes = decodeFrom more bytes := by
  induction fuel generalizing more bytes with
  | zero =>
      obtain rfl : bytes = [] := List.length_eq_zero_iff.mp (by omega)
      cases more <;> rfl
  | succ fuel ih =>
      cases bytes with
      | nil => cases more <;> rfl
      | cons lead rest =>
          cases more with
          | zero => simp at hmore
          | succ more =>
              rw [List.length_cons] at hfuel hmore
              unfold decodeFrom
              split
              next c hc =>
                have hsize := c.utf8Size_pos
                rw [ih]
                · rw [List.length_drop, List.length_cons]
                  omega
                · rw [List.length_drop, List.length_cons]
                  omega
              next =>
                have hsize := replacedLength_pos (lead :: rest)
                rw [ih]
                · rw [List.length_drop, List.length_cons]
                  omega
                · rw [List.length_drop, List.length_cons]
                  omega

theorem decodeReplace_utf8EncodeChar (c : Char) (rest : Bytes) :
    decodeReplace (String.utf8EncodeChar c ++ rest) = c :: decodeReplace rest := by
  have hdecode : (String.utf8EncodeChar c ++ rest).toByteArray.utf8DecodeChar? 0 = some c := by
    rw [List.toByteArray_append]
    exact ByteArray.utf8DecodeChar?_utf8EncodeChar_append
  have hlength : (String.utf8EncodeChar c ++ rest).length = c.utf8Size + rest.length := by simp
  have hdrop : (String.utf8EncodeChar c ++ rest).drop c.utf8Size = rest :=
    List.drop_left' (String.length_utf8EncodeChar c)
  have hpos := c.utf8Size_pos
  unfold decodeReplace
  generalize String.utf8EncodeChar c ++ rest = bytes at hdecode hlength hdrop
  cases bytes with
  | nil => simp at hlength; omega
  | cons lead tail =>
      rw [List.length_cons] at hlength ⊢
      rw [decodeFrom, hdecode]
      dsimp only
      rw [hdrop, decodeFrom_eq_of_le (by omega) (le_refl rest.length)]

theorem decodeReplace_utf8 (text : Text) (rest : Bytes) :
    decodeReplace (utf8 text ++ rest) = text ++ decodeReplace rest := by
  induction text with
  | nil => rfl
  | cons c text ih =>
      rw [utf8, List.flatMap_cons, List.append_assoc, decodeReplace_utf8EncodeChar]
      exact congrArg (c :: ·) ih

/-! ## Escapes -/

namespace Url

/-- The bytes that `quote` leaves as they are. -/
def isSafe (b : UInt8) : Bool :=
  let c := Char.ofNat b.toNat
  decide (b < 0x80) && (c.isAlphanum || ['_', '.', '-', '~', '/'].contains c)

def upperHexDigit (n : Nat) : Char := (Nat.digitChar n).toUpper

def quoteByte (b : UInt8) : Text :=
  if isSafe b then [Char.ofNat b.toNat]
  else ['%', upperHexDigit (b.toNat / 16), upperHexDigit (b.toNat % 16)]

/-- `urllib.parse.quote(text)`. -/
def quote (text : Text) : Text := (utf8 text).flatMap quoteByte

/-- `urllib.parse.unquote_to_bytes(text)`. -/
def unquoteToBytes : Text → Bytes
  | [] => []
  | '%' :: a :: b :: rest =>
      match hexDigit? a, hexDigit? b with
      | some high, some low => UInt8.ofNat (16 * high + low) :: unquoteToBytes rest
      | _, _ => 0x25 :: unquoteToBytes (a :: b :: rest)
  | c :: rest => String.utf8EncodeChar c ++ unquoteToBytes rest

/-- `urllib.parse.unquote(text)`. -/
def unquote (text : Text) : Text := decodeReplace (unquoteToBytes text)

theorem unquoteToBytes_cons {c : Char} (hc : c ≠ '%') (rest : Text) :
    unquoteToBytes (c :: rest) = String.utf8EncodeChar c ++ unquoteToBytes rest := by
  rw [unquoteToBytes.eq_def]
  split
  next heq => cases heq
  next heq => exact absurd (List.cons.inj heq).1 hc
  next heq =>
    obtain ⟨rfl, rfl⟩ := List.cons.inj heq
    rfl

theorem unquoteToBytes_escape {a b : Char} {high low : Nat} (ha : hexDigit? a = some high)
    (hb : hexDigit? b = some low) (rest : Text) :
    unquoteToBytes ('%' :: a :: b :: rest) =
      UInt8.ofNat (16 * high + low) :: unquoteToBytes rest := by
  rw [unquoteToBytes, ha, hb]

theorem hexDigit?_upperHexDigit : ∀ n < 16, hexDigit? (upperHexDigit n) = some n := by decide

theorem isSafe_spec : ∀ n < 256, isSafe (UInt8.ofNat n) = true →
    Char.ofNat n ≠ '%' ∧ (0x20 < (Char.ofNat n).toNat ∧ (Char.ofNat n).toNat < 0x7F) ∧
      String.utf8EncodeChar (Char.ofNat n) = [UInt8.ofNat n] := by
  decide +kernel

theorem upperHexDigit_spec :
    ∀ n < 16, 0x20 < (upperHexDigit n).toNat ∧ (upperHexDigit n).toNat < 0x7F := by
  decide

theorem unquoteToBytes_quoteByte (b : UInt8) (rest : Text) :
    unquoteToBytes (quoteByte b ++ rest) = b :: unquoteToBytes rest := by
  have hlt := b.toNat_lt
  unfold quoteByte
  split
  next hsafe =>
    obtain ⟨hpercent, -, hencode⟩ := isSafe_spec b.toNat hlt (by simpa using hsafe)
    rw [List.singleton_append, unquoteToBytes_cons hpercent, hencode]
    simp
  next =>
    have hhigh := hexDigit?_upperHexDigit (b.toNat / 16) (by omega)
    have hlow := hexDigit?_upperHexDigit (b.toNat % 16) (by omega)
    simp only [List.cons_append, List.nil_append]
    rw [unquoteToBytes_escape hhigh hlow, Nat.div_add_mod]
    simp

theorem unquoteToBytes_quote (text : Text) (rest : Text) :
    unquoteToBytes (quote text ++ rest) = utf8 text ++ unquoteToBytes rest := by
  unfold quote
  induction utf8 text with
  | nil => rfl
  | cons b bytes ih =>
      rw [List.flatMap_cons, List.append_assoc, unquoteToBytes_quoteByte, ih]
      rfl

theorem unquote_quote (text : Text) : unquote (quote text) = text := by
  have hbytes := unquoteToBytes_quote text []
  have htext := decodeReplace_utf8 text []
  rw [List.append_nil] at hbytes htext
  rw [unquote, hbytes]
  simpa [unquoteToBytes, decodeReplace, decodeFrom] using htext

/-- The text before a colon is read back, whatever comes after it. -/
theorem unquote_quote_colon (text rest : Text) :
    unquote (quote text ++ ':' :: rest) = text ++ ':' :: unquote rest := by
  rw [unquote, unquoteToBytes_quote, decodeReplace_utf8,
    unquoteToBytes_cons (by decide), decodeReplace_utf8EncodeChar]
  rfl

theorem mem_quoteByte {b : UInt8} {c : Char} (hc : c ∈ quoteByte b) :
    0x20 < c.toNat ∧ c.toNat < 0x7F := by
  have hlt := b.toNat_lt
  unfold quoteByte at hc
  split at hc
  next hsafe =>
    obtain rfl := List.mem_singleton.mp hc
    exact (isSafe_spec b.toNat hlt (by simpa using hsafe)).2.1
  next =>
    have hhigh := upperHexDigit_spec (b.toNat / 16) (by omega)
    have hlow := upperHexDigit_spec (b.toNat % 16) (by omega)
    simp only [List.mem_cons, List.not_mem_nil, or_false] at hc
    rcases hc with rfl | rfl | rfl
    · decide
    · exact hhigh
    · exact hlow

theorem mem_quote {text : Text} {c : Char} (hc : c ∈ quote text) :
    0x20 < c.toNat ∧ c.toNat < 0x7F := by
  obtain ⟨b, -, hb⟩ := List.mem_flatMap.mp hc
  exact mem_quoteByte hb

end Url

end KjAtlas.Py
