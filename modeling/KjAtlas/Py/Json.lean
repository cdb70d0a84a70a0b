import Mathlib.Data.List.TakeDrop
import KjAtlas.Foundation.KeyedStore
import KjAtlas.Foundation.StableSort
import KjAtlas.Js.Text
import KjAtlas.Py.Text

/-! # JSON in Python

Values are written compactly, with the members of a dict sorted by key, and read
back by a reader of the whole JSON grammar. Strings are sequences of scalar
values: an escape for half of a surrogate pair is refused. A value whose dicts
are sorted is read back as it was written.
-/

namespace KjAtlas.Py

open Js (Text quote escapeChar commaJoin commaTail commaJoin_cons)

/-- What `json.loads` makes of a text; `F` is the type of floats. -/
inductive Json (F : Type) where
  | null
  | bool (b : Bool)
  | int (n : Int)
  | float (x : F)
  | str (s : String)
  | list (items : List (Json F))
  | dict (members : List (String × Json F))

/-- The texts of floats. A float that is not finite has no JSON text. -/
structure Floats (F : Type) where
  repr : F → Option Text
  ofText : Text → F

variable {F : Type}

/-! ## Writing -/

/-- `repr` of an integer. -/
def intText : Int → Text
  | .ofNat n => Nat.toDigits 10 n
  | .negSucc n => '-' :: Nat.toDigits 10 (n + 1)

def memberText (member : String × Text) : Text := quote member.1 ++ ':' :: member.2

mutual

/-- `json.dumps(value, ensure_ascii=False, sort_keys=True, separators=(",", ":"),
allow_nan=False)`. -/
def dumps (floats : Floats F) : Json F → Option Text
  | .null => some "null".toList
  | .bool b => some (if b then "true".toList else "false".toList)
  | .int n => some (intText n)
  | .float x => floats.repr x
  | .str s => some (quote s)
  | .list items => do
      let texts ← dumpsItems floats items
      return '[' :: (commaJoin texts ++ [']'])
  | .dict members => do
      let texts ← dumpsMembers floats members
      return '{' :: (commaJoin ((sortOn codePointLe Prod.fst texts).map memberText) ++ ['}'])

def dumpsItems (floats : Floats F) : List (Json F) → Option (List Text)
  | [] => some []
  | item :: items => do
      let text ← dumps floats item
      let texts ← dumpsItems floats items
      return text :: texts

def dumpsMembers (floats : Floats F) : List (String × Json F) → Option (List (String × Text))
  | [] => some []
  | (key, value) :: members => do
      let text ← dumps floats value
      let texts ← dumpsMembers floats members
      return (key, text) :: texts

end

inductive Finite (floats : Floats F) : Json F → Prop where
  | null : Finite floats .null
  | bool (b : Bool) : Finite floats (.bool b)
  | int (n : Int) : Finite floats (.int n)
  | float (x : F) (text : Text) (htext : floats.repr x = some text) : Finite floats (.float x)
  | str (s : String) : Finite floats (.str s)
  | list (items : List (Json F)) (hitems : ∀ item ∈ items, Finite floats item) :
      Finite floats (.list items)
  | dict (members : List (String × Json F))
      (hmembers : ∀ member ∈ members, Finite floats member.2) : Finite floats (.dict members)

variable {floats : Floats F} {items : List (Json F)} {members : List (String × Json F)}
  {value : Json F} {c : Char} {rest text : Text} {texts : List (String × Text)}

theorem exists_dumpsItems {P : Json F → Text → Prop}
    (hitems : ∀ item ∈ items, ∃ text, dumps floats item = some text ∧ P item text) :
    ∃ texts, dumpsItems floats items = some texts ∧ List.Forall₂ P items texts := by
  induction items with
  | nil => exact ⟨[], rfl, .nil⟩
  | cons item items ih =>
      obtain ⟨text, htext, hitem⟩ := hitems item List.mem_cons_self
      obtain ⟨texts, htexts, hrest⟩ := ih fun other hother =>
        hitems other (List.mem_cons_of_mem _ hother)
      exact ⟨text :: texts, by simp [dumpsItems, htext, htexts], .cons hitem hrest⟩

theorem exists_dumpsMembers {P : Json F → Text → Prop}
    (hmembers : ∀ member ∈ members, ∃ text, dumps floats member.2 = some text ∧ P member.2 text) :
    ∃ texts, dumpsMembers floats members = some texts ∧
      List.Forall₂ (fun member text => member.1 = text.1 ∧ P member.2 text.2) members texts := by
  induction members with
  | nil => exact ⟨[], rfl, .nil⟩
  | cons member members ih =>
      obtain ⟨text, htext, hmember⟩ := hmembers member List.mem_cons_self
      obtain ⟨texts, htexts, hrest⟩ := ih fun other hother =>
        hmembers other (List.mem_cons_of_mem _ hother)
      exact ⟨(member.1, text) :: texts, by simp [dumpsMembers, htext, htexts],
        .cons ⟨rfl, hmember⟩ hrest⟩

theorem Finite.dumps (hvalue : Finite floats value) : ∃ text, dumps floats value = some text := by
  induction hvalue with
  | null | bool | int | str => exact ⟨_, by rw [Py.dumps]⟩
  | float x text htext => exact ⟨text, by rw [Py.dumps, htext]⟩
  | list items _ ih =>
      obtain ⟨texts, htexts, -⟩ := exists_dumpsItems (P := fun _ _ => True) fun item hitem =>
        (ih item hitem).imp fun _ htext => ⟨htext, trivial⟩
      exact ⟨_, by rw [Py.dumps, htexts]; rfl⟩
  | dict members _ ih =>
      obtain ⟨texts, htexts, -⟩ := exists_dumpsMembers (P := fun _ _ => True) fun member hmember =>
        (ih member hmember).imp fun _ htext => ⟨htext, trivial⟩
      exact ⟨_, by rw [Py.dumps, htexts]; rfl⟩

/-! ## Reading -/

def isJsonSpace (c : Char) : Bool := c = ' ' || c = '\t' || c = '\n' || c = '\r'

def skipSpaces (text : Text) : Text := text.dropWhile isJsonSpace

/-- The value of a hexadecimal digit. -/
def hexDigit? (c : Char) : Option Nat :=
  if c.isDigit then some (c.toNat - 48)
  else if 'a' ≤ c ∧ c ≤ 'f' then some (c.toNat - 87)
  else if 'A' ≤ c ∧ c ≤ 'F' then some (c.toNat - 55)
  else none

/-- The code unit of four hexadecimal digits. -/
def hexUnit? (a b c d : Char) : Option Nat := do
  return 4096 * (← hexDigit? a) + 256 * (← hexDigit? b) + 16 * (← hexDigit? c) + (← hexDigit? d)

/-- The characters up to the closing quotation mark. -/
def readChars : Text → Option (List Char × Text)
  | [] => none
  | '"' :: rest => some ([], rest)
  | '\\' :: 'u' :: a :: b :: c :: d :: '\\' :: 'u' :: a' :: b' :: c' :: d' :: rest => do
      let high ← hexUnit? a b c d
      if 0xD800 ≤ high ∧ high ≤ 0xDBFF then
        let low ← hexUnit? a' b' c' d'
        let (chars, rest) ← readChars rest
        if 0xDC00 ≤ low ∧ low ≤ 0xDFFF then
          return (Char.ofNat (0x10000 + 1024 * (high - 0xD800) + (low - 0xDC00)) :: chars, rest)
        else none
      else
        let (chars, rest) ← readChars ('\\' :: 'u' :: a' :: b' :: c' :: d' :: rest)
        if 0xDC00 ≤ high ∧ high ≤ 0xDFFF then none else return (Char.ofNat high :: chars, rest)
  | '\\' :: 'u' :: a :: b :: c :: d :: rest => do
      let unit ← hexUnit? a b c d
      let (chars, rest) ← readChars rest
      if 0xD800 ≤ unit ∧ unit ≤ 0xDFFF then none else return (Char.ofNat unit :: chars, rest)
  | '\\' :: c :: rest => do
      let escaped ← [('"', '"'), ('\\', '\\'), ('/', '/'), ('b', '\x08'), ('f', '\x0c'),
        ('n', '\n'), ('r', '\r'), ('t', '\t')].lookup c
      let (chars, rest) ← readChars rest
      return (escaped :: chars, rest)
  | c :: rest =>
      if c.toNat < 0x20 then none
      else do
        let (chars, rest) ← readChars rest
        return (c :: chars, rest)

def readString (text : Text) : Option (String × Text) := do
  let (chars, rest) ← readChars text
  return (.ofList chars, rest)

/-- The integer part of a number: `0`, or digits that start with another digit. -/
def readIntegerPart : Text → Option (Text × Text)
  | '0' :: rest => some (['0'], rest)
  | text =>
      let (digits, rest) := text.span Char.isDigit
      if digits = [] then none else some (digits, rest)

def readFraction : Text → Text × Text
  | '.' :: rest =>
      let (digits, rest') := rest.span Char.isDigit
      if digits = [] then ([], '.' :: rest) else ('.' :: digits, rest')
  | text => ([], text)

def readExponent : Text → Text × Text
  | e :: rest =>
      if e = 'e' ∨ e = 'E' then
        let (sign, rest') := match rest with
          | '+' :: rest => (['+'], rest)
          | '-' :: rest => (['-'], rest)
          | rest => ([], rest)
        let (digits, rest') := rest'.span Char.isDigit
        if digits = [] then ([], e :: rest) else (e :: (sign ++ digits), rest')
      else ([], e :: rest)
  | [] => ([], [])

/-- The number without its sign. -/
def readUnsignedNumber (floats : Floats F) (negative : Bool) (text : Text) :
    Option (Json F × Text) := do
  let (digits, rest) ← readIntegerPart text
  let (fraction, rest) := readFraction rest
  let (exponent, rest) := readExponent rest
  if fraction = [] ∧ exponent = [] then
    let magnitude := Nat.ofDigitChars 10 digits 0
    return (.int (if negative then -(magnitude : Int) else magnitude), rest)
  else
    let sign := if negative then ['-'] else []
    return (.float (floats.ofText (sign ++ digits ++ fraction ++ exponent)), rest)

def readWord (word : String) (value : Json F) (text : Text) : Option (Json F × Text) :=
  if word.toList.isPrefixOf text then some (value, text.drop word.length) else none

/-- A constant or a number. -/
def readAtom (floats : Floats F) (text : Text) : Option (Json F × Text) :=
  match text with
  | 'n' :: _ => readWord "null" .null text
  | 't' :: _ => readWord "true" (.bool true) text
  | 'f' :: _ => readWord "false" (.bool false) text
  | 'N' :: _ => readWord "NaN" (.float (floats.ofText "NaN".toList)) text
  | 'I' :: _ => readWord "Infinity" (.float (floats.ofText "Infinity".toList)) text
  | '-' :: 'I' :: _ => readWord "-Infinity" (.float (floats.ofText "-Infinity".toList)) text
  | '-' :: rest => readUnsignedNumber floats true rest
  | _ => readUnsignedNumber floats false text

/-- The dict of members as they are read; the last value of a key stays. -/
def dictOf (members : List (String × Json F)) : List (String × Json F) :=
  members.foldl (fun dict member => upsertBy Prod.fst member dict) []

mutual

/-- A value at the start of a text, and the rest of the text. The fuel bounds the recursion. -/
def readValue (floats : Floats F) : Nat → Text → Option (Json F × Text)
  | 0, _ => none
  | fuel + 1, text => match text with
      | '"' :: rest => do
          let (s, rest) ← readString rest
          return (.str s, rest)
      | '[' :: rest => match skipSpaces rest with
          | ']' :: rest => some (.list [], rest)
          | rest => do
              let (items, rest) ← readItems floats fuel rest
              return (.list items, rest)
      | '{' :: rest => match skipSpaces rest with
          | '}' :: rest => some (.dict [], rest)
          | rest => do
              let (members, rest) ← readMembers floats fuel rest
              return (.dict (dictOf members), rest)
      | text => readAtom floats text

/-- The items of a list up to its closing bracket. -/
def readItems (floats : Floats F) : Nat → Text → Option (List (Json F) × Text)
  | 0, _ => none
  | fuel + 1, text => do
      let (item, rest) ← readValue floats fuel text
      match skipSpaces rest with
      | ']' :: rest => return ([item], rest)
      | ',' :: rest => do
          let (items, rest) ← readItems floats fuel (skipSpaces rest)
          return (item :: items, rest)
      | _ => none

/-- The members of a dict up to its closing brace. -/
def readMembers (floats : Floats F) : Nat → Text → Option (List (String × Json F) × Text)
  | 0, _ => none
  | fuel + 1, text => match text with
      | '"' :: rest => do
          let (key, rest) ← readString rest
          match skipSpaces rest with
          | ':' :: rest => do
              let (value, rest) ← readValue floats fuel (skipSpaces rest)
              match skipSpaces rest with
              | '}' :: rest => return ([(key, value)], rest)
              | ',' :: rest => do
                  let (members, rest) ← readMembers floats fuel (skipSpaces rest)
                  return ((key, value) :: members, rest)
              | _ => none
          | _ => none
      | _ => none

end

/-- `JSONDecoder.decode`: a text that holds one value. -/
def decode (floats : Floats F) (text : Text) : Option (Json F) := do
  let (value, rest) ← readValue floats (2 * text.length + 2) (skipSpaces text)
  if skipSpaces rest = [] then return value else none

/-- `json.loads` of a text. -/
def loads (floats : Floats F) (text : Text) : Option (Json F) :=
  if text.head? = some '\uFEFF' then none else decode floats text

/-! ## Bytes -/

abbrev Bytes := List UInt8

/-- `text.encode("utf-8")`. -/
def utf8 (text : Text) : Bytes := text.flatMap String.utf8EncodeChar

/-- `bytes.decode("utf-8")`. -/
def utf8Decode (bytes : Bytes) : Option Text :=
  bytes.toByteArray.utf8Decode?.map Array.toList

/-- Whether `json.detect_encoding` finds an encoding other than UTF-8. -/
def isWide : Bytes → Bool
  | 0xFE :: 0xFF :: _ => true
  | 0xFF :: 0xFE :: _ => true
  | [a, b] => a = 0 || b = 0
  | a :: b :: _ :: _ :: _ => a = 0 || b = 0
  | _ => false

/-- The text of bytes in UTF-8, with or without a byte order mark. -/
def utf8Text : Bytes → Option Text
  | 0xEF :: 0xBB :: 0xBF :: rest => utf8Decode rest
  | bytes => utf8Decode bytes

/-- `json.loads` of bytes; `wide` decodes those that are not in UTF-8. -/
def loadsBytes (wide : Bytes → Option Text) (floats : Floats F) (bytes : Bytes) :
    Option (Json F) := do
  let text ← if isWide bytes then wide bytes else utf8Text bytes
  decode floats text

/-! ## Strings are read back -/

theorem hexDigit?_hexDigit : ∀ n < 16, hexDigit? (Js.hexDigit n) = some n := by decide

/-- The escape of a control character. -/
theorem readChars_unit {a b d : Char} {unit : Nat} (hunit : hexUnit? a b c d = some unit)
    (hlow : unit < 0x20) (rest : Text) :
    readChars ('\\' :: 'u' :: a :: b :: c :: d :: rest) =
      (readChars rest).map fun read => (Char.ofNat unit :: read.1, read.2) := by
  have hhigh : ¬ (0xD800 ≤ unit ∧ unit ≤ 0xDBFF) := by omega
  have hlow' : ¬ (0xDC00 ≤ unit ∧ unit ≤ 0xDFFF) := by omega
  have hboth : ¬ (0xD800 ≤ unit ∧ unit ≤ 0xDFFF) := by omega
  rw [readChars.eq_def]
  split
  next h => nomatch h
  next h => simp at h
  next a b c d a' b' c' d' rest' h =>
    simp only [List.cons.injEq, true_and] at h
    obtain ⟨rfl, rfl, rfl, rfl, rfl⟩ := h
    simp only [hunit, Option.bind_eq_bind, Option.bind_some, if_neg hhigh, if_neg hlow']
    cases readChars ('\\' :: 'u' :: a' :: b' :: c' :: d' :: rest') <;> rfl
  next h =>
    simp only [List.cons.injEq, true_and] at h
    obtain ⟨rfl, rfl, rfl, rfl, rfl⟩ := h
    simp only [hunit, Option.bind_eq_bind, Option.bind_some, if_neg hboth]
    cases readChars rest <;> rfl
  next h1 h2 h3 =>
    simp only [List.cons.injEq, true_and] at h3
    obtain ⟨rfl, rfl⟩ := h3
    exact (h2 a b c d rest rfl rfl).elim
  next h5 h6 =>
    simp only [List.cons.injEq] at h6
    obtain ⟨rfl, rfl⟩ := h6
    exact (h5 _ _ rfl rfl).elim

theorem readChars_letter {letter : Char} (hletter : letter ≠ 'u')
    (hc : [('"', '"'), ('\\', '\\'), ('/', '/'), ('b', '\x08'), ('f', '\x0c'), ('n', '\n'),
      ('r', '\r'), ('t', '\t')].lookup letter = some c) (rest : Text) :
    readChars ('\\' :: letter :: rest) =
      (readChars rest).map fun read => (c :: read.1, read.2) := by
  rw [readChars.eq_def]
  split
  next h => nomatch h
  next h => simp at h
  next h =>
    simp only [List.cons.injEq, true_and] at h
    exact absurd h.1 hletter
  next h =>
    simp only [List.cons.injEq, true_and] at h
    exact absurd h.1 hletter
  next h =>
    simp only [List.cons.injEq, true_and] at h
    obtain ⟨rfl, rfl⟩ := h
    simp only [hc, Option.bind_eq_bind, Option.bind_some]
    cases readChars rest <;> rfl
  next h5 h6 =>
    simp only [List.cons.injEq] at h6
    obtain ⟨rfl, rfl⟩ := h6
    exact (h5 _ _ rfl rfl).elim

theorem readChars_plain (hquote : c ≠ '"') (hslash : c ≠ '\\') (hprintable : ¬ c.toNat < 0x20)
    (rest : Text) :
    readChars (c :: rest) = (readChars rest).map fun read => (c :: read.1, read.2) := by
  rw [readChars.eq_def]
  split
  next h => nomatch h
  next h => exact absurd (List.cons.inj h).1 hquote
  next h => exact absurd (List.cons.inj h).1 hslash
  next h => exact absurd (List.cons.inj h).1 hslash
  next h => exact absurd (List.cons.inj h).1 hslash
  next h =>
    obtain ⟨rfl, rfl⟩ := List.cons.inj h
    rw [if_neg hprintable]
    cases readChars rest <;> rfl

theorem readChars_escapeChar (c : Char) (rest : Text) :
    readChars (escapeChar c ++ rest) = (readChars rest).map fun read => (c :: read.1, read.2) := by
  unfold escapeChar
  split
  next h =>
    subst h
    exact readChars_letter (by decide) rfl rest
  next hquote =>
  split
  next h =>
    subst h
    exact readChars_letter (by decide) rfl rest
  next hslash =>
  split
  next h =>
    have hc : c = '\x08' := by rw [← Char.ofNat_toNat c, h]
    subst hc
    exact readChars_letter (by decide) rfl rest
  split
  next h =>
    have hc : c = '\x0c' := by rw [← Char.ofNat_toNat c, h]
    subst hc
    exact readChars_letter (by decide) rfl rest
  split
  next h =>
    subst h
    exact readChars_letter (by decide) rfl rest
  split
  next h =>
    subst h
    exact readChars_letter (by decide) rfl rest
  split
  next h =>
    subst h
    exact readChars_letter (by decide) rfl rest
  split
  next hcontrol =>
    have hunit : hexUnit? '0' '0' (Js.hexDigit (c.toNat / 16)) (Js.hexDigit (c.toNat % 16)) =
        some c.toNat := by
      have hzero : hexDigit? '0' = some 0 := by decide
      simp only [hexUnit?, hzero, hexDigit?_hexDigit _ (by omega : c.toNat / 16 < 16),
        hexDigit?_hexDigit _ (by omega : c.toNat % 16 < 16), Option.bind_eq_bind,
        Option.bind_some, Option.pure_def, Option.some.injEq]
      omega
    have hread := readChars_unit hunit hcontrol rest
    rwa [Char.ofNat_toNat] at hread
  next hprintable => exact readChars_plain hquote hslash hprintable rest

theorem readString_quoted (s : String) (rest : Text) :
    readString (s.toList.flatMap escapeChar ++ '"' :: rest) = some (s, rest) := by
  have hchars : ∀ chars : List Char,
      readChars (chars.flatMap escapeChar ++ '"' :: rest) = some (chars, rest) := by
    intro chars
    induction chars with
    | nil => simp [readChars]
    | cons c chars ih =>
        rw [List.flatMap_cons, List.append_assoc, readChars_escapeChar, ih, Option.map_some]
  simp [readString, hchars]

/-! ## Integers are read back -/

/-- The digits of a positive number do not start with zero. -/
theorem toDigits_head {n : Nat} (hn : 0 < n) :
    ∃ c rest, Nat.toDigits 10 n = c :: rest ∧ c.isDigit = true ∧ c ≠ '0' := by
  induction n using Nat.strongRecOn with
  | ind n ih =>
      by_cases hsmall : n < 10
      · rw [Nat.toDigits_of_lt_base hsmall]
        refine ⟨n.digitChar, [], rfl, ?_⟩
        have hdigits : ∀ n < 10, 0 < n → n.digitChar.isDigit = true ∧ n.digitChar ≠ '0' := by
          decide
        exact hdigits n hsmall hn
      · obtain ⟨c, rest, hdigits, hc⟩ := ih (n / 10) (by omega) (by omega)
        rw [Nat.toDigits_of_base_le (by decide) (by omega), hdigits]
        exact ⟨c, rest ++ [(n % 10).digitChar], rfl, hc⟩

def NumberEnds (rest : Text) : Prop :=
  ∀ c ∈ rest.head?, c.isDigit = false ∧ c ≠ '.' ∧ c ≠ 'e' ∧ c ≠ 'E'

theorem span_digits {digits : Text} (hdigits : ∀ c ∈ digits, c.isDigit = true)
    (hrest : NumberEnds rest) : (digits ++ rest).span Char.isDigit = (digits, rest) := by
  rw [List.span_eq_takeWhile_dropWhile, List.takeWhile_append_of_pos hdigits,
    List.dropWhile_append_of_pos hdigits]
  cases rest with
  | nil => simp
  | cons c rest => simp [(hrest c rfl).1]

theorem readFraction_of_ends (hrest : NumberEnds rest) : readFraction rest = ([], rest) := by
  unfold readFraction
  split
  next => exact absurd rfl (hrest '.' rfl).2.1
  next => rfl

theorem readExponent_of_ends (hrest : NumberEnds rest) : readExponent rest = ([], rest) := by
  unfold readExponent
  split
  next e rest =>
    obtain ⟨-, -, he, hE⟩ := hrest e rfl
    rw [if_neg (by simp [he, hE])]
  next => rfl

theorem readUnsignedNumber_digits (floats : Floats F) (negative : Bool) (n : Nat)
    (hrest : NumberEnds rest) :
    readUnsignedNumber floats negative (Nat.toDigits 10 n ++ rest) =
      some (.int (if negative then -(n : Int) else n), rest) := by
  have hpart : readIntegerPart (Nat.toDigits 10 n ++ rest) = some (Nat.toDigits 10 n, rest) := by
    by_cases hn : n = 0
    · subst hn
      rfl
    · obtain ⟨c, more, hdigits, hc, hzero⟩ := toDigits_head (Nat.pos_of_ne_zero hn)
      have hall : ∀ d ∈ Nat.toDigits 10 n, d.isDigit = true :=
        fun d hd => Nat.isDigit_of_mem_toDigits (by decide) (by decide) hd
      unfold readIntegerPart
      split
      next h =>
        rw [hdigits, List.cons_append, List.cons.injEq] at h
        exact absurd h.1 hzero
      next =>
        rw [span_digits hall hrest]
        exact if_neg Nat.toDigits_ne_nil
  simp only [readUnsignedNumber, hpart, Option.bind_eq_bind, Option.bind_some,
    readFraction_of_ends hrest, readExponent_of_ends hrest, and_self, if_true,
    Nat.ofDigitChars_toDigits (by decide : 1 < 10) (by decide : 10 ≤ 10)]
  rfl

theorem toDigits_eq_cons (n : Nat) :
    ∃ c more, Nat.toDigits 10 n = c :: more ∧ c.isDigit = true := by
  cases hdigits : Nat.toDigits 10 n with
  | nil => exact absurd hdigits Nat.toDigits_ne_nil
  | cons c more =>
      have hc : c ∈ Nat.toDigits 10 n := hdigits ▸ List.mem_cons_self
      exact ⟨c, more, rfl, Nat.isDigit_of_mem_toDigits (by decide) (by decide) hc⟩

theorem readAtom_intText (floats : Floats F) (n : Int) (hrest : NumberEnds rest) :
    readAtom floats (intText n ++ rest) = some (.int n, rest) := by
  cases n with
  | ofNat n =>
      obtain ⟨c, more, hdigits, hc⟩ := toDigits_eq_cons n
      have hread := readUnsignedNumber_digits floats false n hrest
      simp only [intText]
      rw [hdigits, List.cons_append] at hread ⊢
      -- the word branches start with a letter, the text with a digit
      have hne : ∀ d : Char, d.isDigit = false → ∀ after, c :: (more ++ rest) ≠ d :: after := by
        rintro d hd after heq
        rw [(List.cons.inj heq).1, hd] at hc
        nomatch hc
      unfold readAtom
      split
      next h => exact absurd h (hne 'n' rfl _)
      next h => exact absurd h (hne 't' rfl _)
      next h => exact absurd h (hne 'f' rfl _)
      next h => exact absurd h (hne 'N' rfl _)
      next h => exact absurd h (hne 'I' rfl _)
      next h => exact absurd h (hne '-' rfl _)
      next h => exact absurd h (hne '-' rfl _)
      next => exact hread
  | negSucc n =>
      obtain ⟨c, more, hdigits, hc⟩ := toDigits_eq_cons (n + 1)
      have hread := readUnsignedNumber_digits floats true (n + 1) hrest
      simp only [intText, List.cons_append]
      rw [hdigits, List.cons_append] at hread ⊢
      have hI : c ≠ 'I' := by
        rintro rfl
        nomatch hc
      unfold readAtom
      split
      next h => nomatch (List.cons.inj h).1
      next h => nomatch (List.cons.inj h).1
      next h => nomatch (List.cons.inj h).1
      next h => nomatch (List.cons.inj h).1
      next h => nomatch (List.cons.inj h).1
      next h => exact absurd (List.cons.inj (List.cons.inj h).2).1 hI
      next h =>
        rw [← (List.cons.inj h).2, hread]
        rfl
      next h => exact (h _ rfl).elim

/-! ## Values are read back -/

/-- A text that starts a value: with no white space, end of a list or byte order mark. -/
def Starts (text : Text) : Prop :=
  ∃ c more, text = c :: more ∧ isJsonSpace c = false ∧ c ≠ ']' ∧ c ≠ '\uFEFF'

/-- The text of a float is read back. -/
structure FloatReads (floats : Floats F) (x : F) (text : Text) : Prop where
  repr : floats.repr x = some text
  head : ∃ c more, text = c :: more ∧ (c.isDigit = true ∨ c = '-')
  atom : ∀ rest, NumberEnds rest → readAtom floats (text ++ rest) = some (.float x, rest)

/-- Values as they are read from their own text: dicts are sorted and floats are finite. -/
inductive Canonical (floats : Floats F) : Json F → Prop where
  | null : Canonical floats .null
  | bool (b : Bool) : Canonical floats (.bool b)
  | int (n : Int) : Canonical floats (.int n)
  | float (x : F) (text : Text) (hreads : FloatReads floats x text) : Canonical floats (.float x)
  | str (s : String) : Canonical floats (.str s)
  | list (items : List (Json F)) (hitems : ∀ item ∈ items, Canonical floats item) :
      Canonical floats (.list items)
  | dict (members : List (String × Json F))
      (hsorted : (members.map Prod.fst).Pairwise (· < ·))
      (hmembers : ∀ member ∈ members, Canonical floats member.2) :
      Canonical floats (.dict members)

/-- The text of a value is read as the value, given enough fuel and a rest that ends it. -/
structure Reads (floats : Floats F) (value : Json F) (text : Text) : Prop where
  starts : Starts text
  read : ∀ fuel rest, 2 * text.length ≤ fuel → NumberEnds rest →
    readValue floats fuel (text ++ rest) = some (value, rest)

theorem skipSpaces_cons (hc : isJsonSpace c = false) (rest : Text) :
    skipSpaces (c :: rest) = c :: rest := by
  simp [skipSpaces, hc]

theorem Starts.skipSpaces (hstarts : Starts text) (rest : Text) :
    skipSpaces (text ++ rest) = text ++ rest := by
  obtain ⟨c, more, rfl, hspace, -⟩ := hstarts
  exact skipSpaces_cons hspace _

theorem numberEnds_cons (hc : c = ',' ∨ c = ']' ∨ c = '}') (rest : Text) :
    NumberEnds (c :: rest) := by
  intro d hd
  cases hd
  rcases hc with rfl | rfl | rfl <;> decide

theorem numberEnds_commaTail {close : Char} (hclose : close = ',' ∨ close = ']' ∨ close = '}')
    (texts : List Text) (rest : Text) : NumberEnds (commaTail texts ++ close :: rest) := by
  cases texts with
  | nil => exact numberEnds_cons hclose rest
  | cons text texts => exact numberEnds_cons (.inl rfl) _

/-- A text of one character or more leaves fuel for its parts. -/
theorem exists_fuel (hstarts : Starts text) {fuel : Nat} (hfuel : 2 * text.length ≤ fuel) :
    ∃ less, fuel = less + 1 ∧ 2 * text.length ≤ less + 1 := by
  obtain ⟨c, more, rfl, -⟩ := hstarts
  rw [List.length_cons] at hfuel
  exact ⟨fuel - 1, by omega, by rw [List.length_cons]; omega⟩

theorem readItems_commaJoin {item : Json F} {texts : List Text} (hitem : Reads floats item text)
    (hitems : List.Forall₂ (Reads floats) items texts) (fuel : Nat) (rest : Text)
    (hfuel : 2 * (commaJoin (text :: texts)).length + 1 ≤ fuel) :
    readItems floats fuel (commaJoin (text :: texts) ++ ']' :: rest) =
      some (item :: items, rest) := by
  rw [commaJoin_cons] at hfuel ⊢
  induction hitems generalizing item text fuel with
  | nil =>
      obtain ⟨fuel, rfl⟩ : ∃ less, fuel = less + 1 := ⟨fuel - 1, by omega⟩
      rw [commaTail, List.append_nil] at hfuel ⊢
      have hread := hitem.read fuel (']' :: rest) (by omega) (numberEnds_cons (.inr (.inl rfl)) _)
      simp only [readItems, hread, Option.bind_eq_bind, Option.bind_some,
        skipSpaces_cons (by decide : isJsonSpace ']' = false)]
      rfl
  | @cons next text' items texts hnext hitems ih =>
      obtain ⟨fuel, rfl⟩ : ∃ less, fuel = less + 1 := ⟨fuel - 1, by omega⟩
      simp only [commaTail, List.length_append, List.length_cons] at hfuel
      have hread := hitem.read fuel (commaTail (text' :: texts) ++ ']' :: rest) (by omega)
        (numberEnds_commaTail (.inr (.inl rfl)) _ _)
      have hrest := ih hnext fuel (by rw [List.length_append]; omega)
      simp only [commaTail, List.cons_append, List.append_assoc] at hread hrest ⊢
      simp only [readItems, hread, Option.bind_eq_bind, Option.bind_some,
        skipSpaces_cons (by decide : isJsonSpace ',' = false), hnext.starts.skipSpaces, hrest]
      rfl

theorem starts_memberText (key : String) (text : Text) : Starts (memberText (key, text)) :=
  ⟨'"', _, rfl, by decide, by decide⟩

def ReadsMember (floats : Floats F) (member : String × Json F) (text : String × Text) : Prop :=
  member.1 = text.1 ∧ Reads floats member.2 text.2

theorem readMembers_commaJoin {member : String × Json F} {text : String × Text}
    (hmember : ReadsMember floats member text)
    (hmembers : List.Forall₂ (ReadsMember floats) members texts) (fuel : Nat) (rest : Text)
    (hfuel : 2 * (commaJoin ((text :: texts).map memberText)).length + 1 ≤ fuel) :
    readMembers floats fuel (commaJoin ((text :: texts).map memberText) ++ '}' :: rest) =
      some (member :: members, rest) := by
  rw [List.map_cons, commaJoin_cons] at hfuel ⊢
  induction hmembers generalizing member text fuel with
  | nil =>
      obtain ⟨fuel, rfl⟩ : ∃ less, fuel = less + 1 := ⟨fuel - 1, by omega⟩
      obtain ⟨key, value⟩ := member
      obtain ⟨key', text⟩ := text
      obtain ⟨rfl, hvalue⟩ : key = key' ∧ Reads floats value text := hmember
      simp only [List.map_nil, commaTail, List.append_nil, memberText, quote, List.cons_append,
        List.append_assoc, List.length_cons, List.length_append, List.nil_append] at hfuel ⊢
      have hread := hvalue.read fuel ('}' :: rest) (by omega) (numberEnds_cons (.inr (.inr rfl)) _)
      simp only [readMembers, readString_quoted, Option.bind_eq_bind, Option.bind_some,
        skipSpaces_cons (by decide : isJsonSpace ':' = false), hvalue.starts.skipSpaces, hread,
        skipSpaces_cons (by decide : isJsonSpace '}' = false)]
      rfl
  | @cons next text' members texts hnext hmembers ih =>
      obtain ⟨fuel, rfl⟩ : ∃ less, fuel = less + 1 := ⟨fuel - 1, by omega⟩
      obtain ⟨key, value⟩ := member
      obtain ⟨key', text⟩ := text
      obtain ⟨rfl, hvalue⟩ : key = key' ∧ Reads floats value text := hmember
      have hlength : 2 * (memberText text' ++ commaTail (texts.map memberText)).length + 1 ≤
          fuel := by
        simp only [List.map_cons, commaTail, memberText, quote, List.length_cons,
          List.length_append] at hfuel ⊢
        omega
      have hrest := ih hnext fuel hlength
      have hread := hvalue.read fuel (commaTail ((text' :: texts).map memberText) ++ '}' :: rest)
        (by
          simp only [memberText, quote, List.length_cons, List.length_append] at hfuel
          omega)
        (numberEnds_commaTail (.inr (.inr rfl)) _ _)
      have hstarts : Starts (memberText text') := starts_memberText text'.1 text'.2
      simp only [List.map_cons, commaTail, List.cons_append, List.append_assoc] at hread hrest ⊢
      conv_lhs =>
        rw [memberText, quote]
      simp only [List.cons_append, List.append_assoc, List.nil_append, readMembers,
        readString_quoted, Option.bind_eq_bind, Option.bind_some,
        skipSpaces_cons (by decide : isJsonSpace ':' = false), hvalue.starts.skipSpaces, hread,
        skipSpaces_cons (by decide : isJsonSpace ',' = false), hstarts.skipSpaces, hrest]
      rfl

/-- Distinct keys are kept as they are read. -/
theorem dictOf_of_nodup (hnodup : (members.map Prod.fst).Nodup) : dictOf members = members := by
  have hfold : ∀ (rest dict : List (String × Json F)),
      ((dict ++ rest).map Prod.fst).Nodup →
        rest.foldl (fun dict member => upsertBy Prod.fst member dict) dict = dict ++ rest := by
    intro rest
    induction rest with
    | nil => simp
    | cons member rest ih =>
        intro dict hnodup
        have hnew : upsertBy Prod.fst member dict = dict ++ [member] := by
          apply upsertBy_of_not_mem
          intro hmem
          rw [List.map_append, List.nodup_append] at hnodup
          exact hnodup.2.2 _ hmem _ (by simp) rfl
        rw [List.foldl_cons, hnew, ih _ (by simpa using hnodup), List.append_assoc]
        rfl
  exact hfold members [] (by simpa using hnodup)

theorem readWord_append (word : String) (value : Json F) (rest : Text) :
    readWord word value (word.toList ++ rest) = some (value, rest) := by
  have hprefix : word.toList.isPrefixOf (word.toList ++ rest) = true :=
    List.isPrefixOf_iff_prefix.mpr (List.prefix_append _ _)
  have hdrop : (word.toList ++ rest).drop word.length = rest := by
    rw [← String.length_toList, List.drop_left]
  rw [readWord, if_pos hprefix, hdrop]

theorem reads_of_atom {more : Text} (hspace : isJsonSpace c = false)
    (hopen : c ≠ '"' ∧ c ≠ '[' ∧ c ≠ '{' ∧ c ≠ ']' ∧ c ≠ '\uFEFF')
    (hatom : ∀ rest, NumberEnds rest →
      readAtom floats (c :: more ++ rest) = some (value, rest)) :
    Reads floats value (c :: more) := by
  obtain ⟨hquote, hlist, hdict, hclose⟩ := hopen
  have hstarts : Starts (c :: more) := ⟨c, more, rfl, hspace, hclose⟩
  refine ⟨hstarts, fun fuel rest hfuel hrest => ?_⟩
  obtain ⟨fuel, rfl, -⟩ := exists_fuel hstarts hfuel
  have hread := hatom rest hrest
  rw [List.cons_append] at hread ⊢
  unfold readValue
  split
  next h => exact absurd (List.cons.inj h).1 hquote
  next h => exact absurd (List.cons.inj h).1 hlist
  next h => exact absurd (List.cons.inj h).1 hdict
  next => exact hread

theorem digit_opens (hc : c.isDigit = true ∨ c = '-') :
    isJsonSpace c = false ∧ c ≠ '"' ∧ c ≠ '[' ∧ c ≠ '{' ∧ c ≠ ']' ∧ c ≠ '\uFEFF' := by
  have hne : ∀ d : Char, d.isDigit = false → d ≠ '-' → c ≠ d := by
    rintro d hd hminus rfl
    rcases hc with hc | hc
    · rw [hd] at hc
      nomatch hc
    · exact hminus hc
  have hspace : isJsonSpace c = false := by
    simp only [isJsonSpace, Bool.or_eq_false_iff, decide_eq_false_iff_not]
    exact ⟨⟨⟨hne ' ' rfl (by decide), hne '\t' rfl (by decide)⟩, hne '\n' rfl (by decide)⟩,
      hne '\r' rfl (by decide)⟩
  exact ⟨hspace, hne '"' rfl (by decide), hne '[' rfl (by decide), hne '{' rfl (by decide),
    hne ']' rfl (by decide), hne '\uFEFF' rfl (by decide)⟩

theorem intText_eq_cons (n : Int) :
    ∃ c more, intText n = c :: more ∧ (c.isDigit = true ∨ c = '-') := by
  cases n with
  | ofNat n =>
      obtain ⟨c, more, hdigits, hc⟩ := toDigits_eq_cons n
      exact ⟨c, more, hdigits, .inl hc⟩
  | negSucc n => exact ⟨'-', _, rfl, .inr rfl⟩

theorem map_fst_of_reads (hmembers : List.Forall₂ (ReadsMember floats) members texts) :
    texts.map Prod.fst = members.map Prod.fst := by
  induction hmembers with
  | nil => rfl
  | cons hmember _ ih => rw [List.map_cons, List.map_cons, ih, hmember.1]

theorem reads_list {texts : List Text} (hitems : List.Forall₂ (Reads floats) items texts) :
    Reads floats (.list items) ('[' :: (commaJoin texts ++ [']'])) := by
  have hstarts : Starts ('[' :: (commaJoin texts ++ [']'])) :=
    ⟨'[', _, rfl, by decide, by decide⟩
  refine ⟨hstarts, fun fuel rest hfuel _ => ?_⟩
  obtain ⟨fuel, rfl, hless⟩ := exists_fuel hstarts hfuel
  simp only [List.length_cons, List.length_append, List.length_nil] at hless
  cases hitems with
  | nil =>
      simp only [commaJoin, List.intercalate_nil, List.nil_append, List.cons_append, readValue,
        skipSpaces_cons (by decide : isJsonSpace ']' = false)]
  | @cons item text items texts hitem hitems =>
      have hread := readItems_commaJoin hitem hitems fuel rest (by omega)
      obtain ⟨c, more, rfl, hspace, hclose, -⟩ := hitem.starts
      simp only [commaJoin_cons, List.cons_append, List.append_assoc, List.nil_append] at hread ⊢
      simp only [readValue, skipSpaces_cons hspace]
      split
      next h => exact absurd (List.cons.inj h).1 hclose
      next => simp [hread]

theorem reads_dict (hmembers : List.Forall₂ (ReadsMember floats) members texts)
    (hnodup : (members.map Prod.fst).Nodup) :
    Reads floats (.dict members) ('{' :: (commaJoin (texts.map memberText) ++ ['}'])) := by
  have hstarts : Starts ('{' :: (commaJoin (texts.map memberText) ++ ['}'])) :=
    ⟨'{', _, rfl, by decide, by decide⟩
  refine ⟨hstarts, fun fuel rest hfuel _ => ?_⟩
  obtain ⟨fuel, rfl, hless⟩ := exists_fuel hstarts hfuel
  simp only [List.length_cons, List.length_append, List.length_nil] at hless
  cases hmembers with
  | nil =>
      simp only [List.map_nil, commaJoin, List.intercalate_nil, List.nil_append, List.cons_append,
        readValue, skipSpaces_cons (by decide : isJsonSpace '}' = false)]
  | @cons member text members texts hmember hmembers =>
      have hread := readMembers_commaJoin hmember hmembers fuel rest (by omega)
      simp only [List.map_cons, commaJoin_cons, memberText, quote, List.cons_append,
        List.append_assoc, List.nil_append] at hread ⊢
      simp [readValue, skipSpaces_cons (by decide : isJsonSpace '"' = false), hread,
        dictOf_of_nodup hnodup]

theorem Canonical.reads (hvalue : Canonical floats value) :
    ∃ text, dumps floats value = some text ∧ Reads floats value text := by
  induction hvalue with
  | null =>
      refine ⟨_, by rw [dumps], ?_⟩
      exact reads_of_atom (by decide) (by decide) fun rest _ => readWord_append "null" _ rest
  | bool b =>
      cases b with
      | true =>
          refine ⟨_, by rw [dumps], ?_⟩
          exact reads_of_atom (by decide) (by decide) fun rest _ => readWord_append "true" _ rest
      | false =>
          refine ⟨_, by rw [dumps], ?_⟩
          exact reads_of_atom (by decide) (by decide) fun rest _ => readWord_append "false" _ rest
  | int n =>
      refine ⟨_, by rw [dumps], ?_⟩
      obtain ⟨c, more, htext, hc⟩ := intText_eq_cons n
      obtain ⟨hspace, hopen⟩ := digit_opens hc
      rw [htext]
      exact reads_of_atom hspace hopen fun rest hrest => htext ▸ readAtom_intText floats n hrest
  | float x text hreads =>
      refine ⟨text, by rw [dumps, hreads.repr], ?_⟩
      obtain ⟨c, more, rfl, hc⟩ := hreads.head
      obtain ⟨hspace, hopen⟩ := digit_opens hc
      exact reads_of_atom hspace hopen hreads.atom
  | str s =>
      refine ⟨_, by rw [dumps], ?_⟩
      have hstarts : Starts (quote s) := ⟨'"', _, rfl, by decide, by decide⟩
      refine ⟨hstarts, fun fuel rest hfuel _ => ?_⟩
      obtain ⟨fuel, rfl, -⟩ := exists_fuel hstarts hfuel
      simp [quote, readValue, readString_quoted]
  | list items _ ih =>
      obtain ⟨texts, htexts, hreads⟩ := exists_dumpsItems ih
      exact ⟨_, by simp [dumps, htexts], reads_list hreads⟩
  | dict members hsorted _ ih =>
      obtain ⟨texts, htexts, hreads⟩ := exists_dumpsMembers ih
      have hkeys := map_fst_of_reads hreads
      -- the keys are sorted already, so sorting the texts changes nothing
      have hsort : sortOn codePointLe Prod.fst texts = texts := by
        apply List.Pairwise.insertionSort_eq
        rw [← hkeys, List.pairwise_map] at hsorted
        exact hsorted.imp fun hlt => decide_eq_true hlt.le
      have hnodup : (members.map Prod.fst).Nodup := hsorted.imp fun hlt => hlt.ne
      refine ⟨_, by rw [dumps, htexts]; rfl, ?_⟩
      rw [hsort]
      exact reads_dict hreads hnodup

theorem Reads.decode (hreads : Reads floats value text) : decode floats text = some value := by
  obtain ⟨hstarts, hread⟩ := hreads
  have hvalue := hread (2 * text.length + 2) [] (by omega) (by simp [NumberEnds])
  rw [List.append_nil] at hvalue
  obtain ⟨c, more, rfl, hspace, -⟩ := hstarts
  rw [Py.decode, skipSpaces_cons hspace]
  simp only [hvalue, Option.bind_eq_bind, Option.bind_some]
  rfl

theorem Reads.loads (hreads : Reads floats value text) : loads floats text = some value := by
  obtain ⟨c, more, rfl, -, -, hmark⟩ := hreads.starts
  rw [Py.loads, if_neg (by simpa using hmark), hreads.decode]

theorem decode_dumps (hvalue : Canonical floats value) (htext : dumps floats value = some text) :
    decode floats text = some value := by
  obtain ⟨other, hother, hreads⟩ := hvalue.reads
  rw [htext, Option.some.injEq] at hother
  subst hother
  exact hreads.decode

theorem utf8Decode_utf8 (text : Text) : utf8Decode (utf8 text) = some text := by
  have hencode : (utf8 text).toByteArray = text.utf8Encode := rfl
  rw [utf8Decode, hencode, List.utf8Decode?_utf8Encode]
  rfl

/-- A dict with members is read back from the bytes of its text. -/
theorem loadsBytes_utf8 (wide : Bytes → Option Text) (floats : Floats F) {more : Text}
    (htext : text = '{' :: '"' :: more) :
    loadsBytes wide floats (utf8 text) = decode floats text := by
  have hbytes : utf8 text = 0x7B :: 0x22 :: utf8 more := by
    rw [htext]
    rfl
  have hwide : isWide (utf8 text) = false := by
    rw [hbytes]
    unfold isWide
    split
    next h => nomatch h
    next h => nomatch h
    next h =>
      simp only [List.cons.injEq] at h
      obtain ⟨rfl, rfl, -⟩ := h
      rfl
    next h =>
      simp only [List.cons.injEq] at h
      obtain ⟨rfl, rfl, -⟩ := h
      rfl
    next => rfl
  have hmark : ∀ rest, utf8 text ≠ 0xEF :: 0xBB :: 0xBF :: rest := by
    intro rest heq
    rw [hbytes] at heq
    nomatch (List.cons.inj heq).1
  have hmatch : utf8Text (utf8 text) = some text := by
    unfold utf8Text
    split
    next rest h => exact absurd h (hmark rest)
    next => exact utf8Decode_utf8 text
  rw [loadsBytes, hwide, if_neg Bool.false_ne_true, hmatch]
  rfl

end KjAtlas.Py
