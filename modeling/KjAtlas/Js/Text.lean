import KjAtlas.Js.Value

/-! # Texts of values

Values are written as JSON text, with their properties in enumeration order. A
text followed by a delimiter is read in one way only: it determines the value
and where it ends. Numbers that are not finite are written `null`, and this is
the only loss.
-/

namespace KjAtlas.Js

/-! ## Strings -/

/-- A hexadecimal digit, in lower case. -/
def hexDigit (n : Nat) : Char := Nat.digitChar n

/-- One character inside a quoted string. -/
def escapeChar (c : Char) : Text :=
  if c = '"' then ['\\', '"']
  else if c = '\\' then ['\\', '\\']
  else if c.toNat = 0x08 then ['\\', 'b']
  else if c.toNat = 0x0C then ['\\', 'f']
  else if c = '\n' then ['\\', 'n']
  else if c = '\r' then ['\\', 'r']
  else if c = '\t' then ['\\', 't']
  else if c.toNat < 0x20 then
    ['\\', 'u', '0', '0', hexDigit (c.toNat / 16), hexDigit (c.toNat % 16)]
  else [c]

/-- `JSON.stringify` of a string. -/
def quote (s : String) : Text := '"' :: (s.toList.flatMap escapeChar ++ ['"'])

def isWhiteSpace (c : Char) : Bool :=
  [0x09, 0x0A, 0x0B, 0x0C, 0x0D, 0x20, 0xA0, 0x1680, 0x2028, 0x2029, 0x202F, 0x205F, 0x3000,
    0xFEFF].contains c.toNat || decide (0x2000 ≤ c.toNat ∧ c.toNat ≤ 0x200A)

/-- `s.trim()`. -/
def trim (s : String) : String :=
  .ofList ((s.toList.dropWhile isWhiteSpace).reverse.dropWhile isWhiteSpace).reverse

/-- Trimming again changes nothing. -/
theorem trim_trim (s : String) : trim (trim s) = trim s := by
  have htrim : ∀ t : String, trim t =
      .ofList (List.rdropWhile isWhiteSpace (t.toList.dropWhile isWhiteSpace)) := fun _ => rfl
  rw [htrim (trim s), htrim s, String.toList_ofList]
  have hhead := @List.head_dropWhile_not _ isWhiteSpace s.toList
  revert hhead
  generalize s.toList.dropWhile isWhiteSpace = kept
  intro hhead
  have hstart : (kept.rdropWhile isWhiteSpace).dropWhile isWhiteSpace =
      kept.rdropWhile isWhiteSpace := by
    obtain ⟨rest, hrest⟩ := List.rdropWhile_prefix isWhiteSpace kept
    revert hrest
    generalize kept.rdropWhile isWhiteSpace = trimmed
    rintro rfl
    cases trimmed with
    | nil => rfl
    | cons c trimmed =>
        have hfirst : isWhiteSpace c = false := hhead (List.cons_ne_nil _ _)
        rw [List.dropWhile_cons, hfirst, if_neg Bool.false_ne_true]
  rw [hstart, List.rdropWhile_idempotent]

/-- The value of a hexadecimal digit. -/
def hexValue (c : Char) : Nat := if c.isDigit then c.toNat - 48 else c.toNat - 87

/-- The first character that a quoted text stands for, and the rest of the text. -/
def unescape : Text → Option (Char × Text)
  | '\\' :: 'u' :: _ :: _ :: high :: low :: rest =>
      some (Char.ofNat (16 * hexValue high + hexValue low), rest)
  | '\\' :: 'b' :: rest => some (Char.ofNat 0x08, rest)
  | '\\' :: 'f' :: rest => some (Char.ofNat 0x0C, rest)
  | '\\' :: 'n' :: rest => some ('\n', rest)
  | '\\' :: 'r' :: rest => some ('\r', rest)
  | '\\' :: 't' :: rest => some ('\t', rest)
  | '\\' :: c :: rest => some (c, rest)
  | '"' :: _ => none
  | c :: rest => some (c, rest)
  | [] => none

theorem hexValue_hexDigit : ∀ n < 16, hexValue (hexDigit n) = n := by decide

theorem unescape_escapeChar (c : Char) (rest : Text) :
    unescape (escapeChar c ++ rest) = some (c, rest) := by
  unfold escapeChar
  split
  next h => subst h; rfl
  next hquote =>
  split
  next h => subst h; rfl
  next hslash =>
  split
  next h => rw [← Char.ofNat_toNat c, h]; rfl
  split
  next h => rw [← Char.ofNat_toNat c, h]; rfl
  split
  next h => subst h; rfl
  split
  next h => subst h; rfl
  split
  next h => subst h; rfl
  split
  next hcontrol =>
    have hhigh := hexValue_hexDigit (c.toNat / 16) (by omega)
    have hlow := hexValue_hexDigit (c.toNat % 16) (by omega)
    simp only [List.cons_append, List.nil_append, unescape, hhigh, hlow]
    rw [Nat.div_add_mod, Char.ofNat_toNat]
  next =>
    rw [List.singleton_append, unescape.eq_def]
    split <;> simp_all

theorem unescape_quote (rest : Text) : unescape ('"' :: rest) = none := rfl

theorem escaped_unambiguous {left right : List Char} {r s : Text}
    (heq : left.flatMap escapeChar ++ '"' :: r = right.flatMap escapeChar ++ '"' :: s) :
    left = right ∧ r = s := by
  induction left generalizing right with
  | nil =>
      cases right with
      | nil => simpa using heq
      | cons d right =>
          have hread := congrArg unescape heq
          rw [List.flatMap_nil, List.nil_append, unescape_quote, List.flatMap_cons,
            List.append_assoc, unescape_escapeChar] at hread
          contradiction
  | cons c left ih =>
      cases right with
      | nil =>
          have hread := congrArg unescape heq
          rw [List.flatMap_nil, List.nil_append, unescape_quote, List.flatMap_cons,
            List.append_assoc, unescape_escapeChar] at hread
          contradiction
      | cons d right =>
          have hread := congrArg unescape heq
          rw [List.flatMap_cons, List.flatMap_cons, List.append_assoc, List.append_assoc,
            unescape_escapeChar, unescape_escapeChar, Option.some.injEq, Prod.mk.injEq] at hread
          obtain ⟨hchars, hrest⟩ := ih hread.2
          rw [hread.1, hchars]
          exact ⟨rfl, hrest⟩

/-- A quoted string ends where its text ends, whatever follows. -/
theorem quote_unambiguous {k l : String} {r s : Text} (heq : quote k ++ r = quote l ++ s) :
    k = l ∧ r = s := by
  simp only [quote, List.cons_append, List.append_assoc, List.nil_append,
    List.cons.injEq, true_and] at heq
  obtain ⟨hchars, hrest⟩ := escaped_unambiguous heq
  exact ⟨String.toList_inj.mp hchars, hrest⟩

/-! ## Separated lists -/

def commaJoin (texts : List Text) : Text := [','].intercalate texts

def commaTail : List Text → Text
  | [] => []
  | text :: texts => ',' :: (text ++ commaTail texts)

theorem commaJoin_cons (text : Text) (texts : List Text) :
    commaJoin (text :: texts) = text ++ commaTail texts := by
  induction texts generalizing text with
  | nil => simp [commaJoin, commaTail]
  | cons next texts ih =>
      have hnext := ih next
      unfold commaJoin at hnext ⊢
      rw [List.intercalate_cons_cons, hnext, commaTail, List.append_assoc, List.singleton_append]

/-- Text that starts with no character of a number. -/
def Delimited (rest : Text) : Prop := ∀ c ∈ rest.head?, isNumberChar c = false

theorem delimited_nil : Delimited [] := by simp [Delimited]

theorem delimited_cons {c : Char} (rest : Text) (hc : isNumberChar c = false) :
    Delimited (c :: rest) := by
  simpa [Delimited] using hc

section Lists

variable {α β : Type} (text : α → Text) (form : α → β)

/-- Before a delimiter, the text of an item determines its form and its end. -/
def Unambiguous (a : α) : Prop :=
  ∀ b r s, Delimited r → Delimited s → text a ++ r = text b ++ s → form a = form b ∧ r = s

variable {text form} {close : Char}

theorem commaTail_delimited (hclose : isNumberChar close = false) (items : List α) (r : Text) :
    Delimited (commaTail (items.map text) ++ close :: r) := by
  cases items with
  | nil => exact delimited_cons r hclose
  | cons => exact delimited_cons _ (by decide)

theorem commaTail_unambiguous (hclose : isNumberChar close = false) (hcomma : close ≠ ',')
    {left right : List α} (hleft : ∀ a ∈ left, Unambiguous text form a) {r s : Text}
    (heq : commaTail (left.map text) ++ close :: r = commaTail (right.map text) ++ close :: s) :
    left.map form = right.map form ∧ r = s := by
  induction left generalizing right with
  | nil =>
      cases right with
      | nil => simpa [commaTail] using heq
      | cons => simp [commaTail, hcomma] at heq
  | cons a left ih =>
      cases right with
      | nil => simp [commaTail, hcomma.symm] at heq
      | cons b right =>
          simp only [List.map_cons, commaTail, List.cons_append, List.cons.injEq, true_and,
            List.append_assoc] at heq
          obtain ⟨hform, htail⟩ := hleft a List.mem_cons_self b _ _
            (commaTail_delimited hclose left r) (commaTail_delimited hclose right s) heq
          obtain ⟨hforms, hrest⟩ := ih (fun a ha => hleft a (List.mem_cons_of_mem _ ha)) htail
          exact ⟨by rw [List.map_cons, List.map_cons, hform, hforms], hrest⟩

/-- A bracketed list determines the forms of its items and its end, provided
no item starts like the closing bracket. -/
theorem commaJoin_unambiguous (hclose : isNumberChar close = false) (hcomma : close ≠ ',')
    (hstart : ∀ a, ∀ rest, text a ≠ close :: rest) (hne : ∀ a, text a ≠ [])
    {left right : List α} (hleft : ∀ a ∈ left, Unambiguous text form a) {r s : Text}
    (heq : commaJoin (left.map text) ++ close :: r = commaJoin (right.map text) ++ close :: s) :
    left.map form = right.map form ∧ r = s := by
  have hopen : ∀ a (rest : Text) (items : List α) (r : Text),
      close :: rest ≠ text a ++ commaTail (items.map text) ++ close :: r := by
    intro a rest items r hopen
    cases htext : text a with
    | nil => exact hne a htext
    | cons c more =>
        rw [htext, List.cons_append, List.cons_append, List.cons.injEq] at hopen
        exact hstart a more (by rw [htext, hopen.1])
  cases left with
  | nil =>
      cases right with
      | nil => simpa [commaJoin] using heq
      | cons b right =>
          rw [List.map_cons, commaJoin_cons] at heq
          exact absurd heq (hopen b _ right s)
  | cons a left =>
      cases right with
      | nil =>
          rw [List.map_cons, commaJoin_cons] at heq
          exact absurd heq.symm (hopen a _ left r)
      | cons b right =>
          rw [List.map_cons, List.map_cons, commaJoin_cons, commaJoin_cons,
            List.append_assoc, List.append_assoc] at heq
          obtain ⟨hform, htail⟩ := hleft a List.mem_cons_self b _ _
            (commaTail_delimited hclose left r) (commaTail_delimited hclose right s) heq
          obtain ⟨hforms, hrest⟩ := commaTail_unambiguous hclose hcomma
            (fun a ha => hleft a (List.mem_cons_of_mem _ ha)) htail
          exact ⟨by rw [List.map_cons, List.map_cons, hform, hforms], hrest⟩

end Lists

/-! ## Values -/

/-- One member of an object text. A property equal to `undefined` is written
with the word itself, as a template literal writes it. -/
def memberText (member : String × Option Text) : Text :=
  quote member.1 ++ ':' :: member.2.getD "undefined".toList

/-- The text of a value, its properties in enumeration order. -/
def renderAlgebra : JsValue.Algebra Text where
  null := "null".toList
  bool b := if b then "true".toList else "false".toList
  number := JsNumber.text
  string := quote
  array texts := '[' :: (commaJoin texts ++ [']'])
  object members := '{' :: (commaJoin (members.map memberText) ++ ['}'])

@[inherit_doc renderAlgebra]
def render : JsValue → Text := JsValue.fold renderAlgebra

/-- The value with `null` in place of every number that is not finite. -/
def finiteForm : JsValue → JsValue := JsValue.fold {
  null := .null
  bool := .bool
  number n := if n.isFinite then .number n else .null
  string := .string
  array := .array
  object := .object }

def propText (prop : String × Option JsValue) : Text :=
  memberText (prop.1, prop.2.map render)

def propForm (prop : String × Option JsValue) : String × Option JsValue :=
  (prop.1, prop.2.map finiteForm)

theorem render_array (items : List JsValue) :
    render (.array items) = '[' :: (commaJoin (items.map render) ++ [']']) :=
  JsValue.fold_array _ items

theorem render_object (props : Props) :
    render (.object props) = '{' :: (commaJoin (props.map propText) ++ ['}']) := by
  rw [render, JsValue.fold_object]
  simp only [renderAlgebra, List.map_map]
  rfl

theorem finiteForm_array (items : List JsValue) :
    finiteForm (.array items) = .array (items.map finiteForm) :=
  JsValue.fold_array _ items

theorem finiteForm_object (props : Props) :
    finiteForm (.object props) = .object (props.map propForm) :=
  JsValue.fold_object _ props

/-- The first character of a value's text, all characters of numbers taken as one. -/
def lead : JsValue → Char
  | .null => 'n'
  | .bool b => if b then 't' else 'f'
  | .number n => if n.isFinite then '0' else 'n'
  | .string _ => '"'
  | .array _ => '['
  | .object _ => '{'

theorem render_lead (value : JsValue) :
    ∃ c rest, render value = c :: rest ∧ (if isNumberChar c then '0' else c) = lead value := by
  cases value with
  | null => exact ⟨'n', _, rfl, by decide⟩
  | bool b => cases b <;> exact ⟨_, _, rfl, by decide⟩
  | number n =>
      cases n with
      | finite value =>
          cases htext : value.text with
          | nil => exact absurd htext value.text_ne_nil
          | cons c rest =>
              have hc := value.text_chars c (htext ▸ List.mem_cons_self)
              exact ⟨c, rest, htext, by rw [if_pos hc]; rfl⟩
      | nan => exact ⟨'n', _, rfl, by decide⟩
      | infinity => exact ⟨'n', _, rfl, rfl⟩
  | string s => exact ⟨'"', _, rfl, rfl⟩
  | array items => exact ⟨'[', _, render_array items, rfl⟩
  | object props => exact ⟨'{', _, render_object props, rfl⟩

theorem lead_eq {v w : JsValue} {r s : Text} (heq : render v ++ r = render w ++ s) :
    lead v = lead w := by
  obtain ⟨c, rest, hv, hc⟩ := render_lead v
  obtain ⟨d, rest', hw, hd⟩ := render_lead w
  rw [hv, hw, List.cons_append, List.cons_append, List.cons.injEq] at heq
  rw [← hc, ← hd, heq.1]

theorem render_ne_nil (value : JsValue) : render value ≠ [] := by
  obtain ⟨c, rest, heq, _⟩ := render_lead value
  simp [heq]

theorem render_ne_bracket (value : JsValue) (rest : Text) : render value ≠ ']' :: rest := by
  obtain ⟨c, rest', heq, hc⟩ := render_lead value
  rw [heq]
  intro hcons
  rw [List.cons.injEq] at hcons
  rw [hcons.1, if_neg (by decide)] at hc
  revert hc
  cases value with
  | bool b => cases b <;> decide
  | number n => cases n <;> simp [lead, JsNumber.isFinite]
  | _ => simp [lead]

theorem numberText_unambiguous {n m : Text} {r s : Text} (hn : ∀ c ∈ n, isNumberChar c)
    (hm : ∀ c ∈ m, isNumberChar c) (hr : Delimited r) (hs : Delimited s)
    (heq : n ++ r = m ++ s) : n = m ∧ r = s := by
  have hstop : ∀ {rest : Text}, Delimited rest → rest.takeWhile isNumberChar = [] := by
    intro rest hrest
    cases rest with
    | nil => rfl
    | cons c rest => simp [hrest c rfl]
  have htake := congrArg (List.takeWhile isNumberChar) heq
  rw [List.takeWhile_append_of_pos hn, List.takeWhile_append_of_pos hm, hstop hr, hstop hs,
    List.append_nil, List.append_nil] at htake
  subst htake
  exact ⟨rfl, List.append_cancel_left heq⟩

theorem propText_unambiguous {prop : String × Option JsValue}
    (hvalue : ∀ value, prop.2 = some value → Unambiguous render finiteForm value) :
    Unambiguous propText propForm prop := by
  obtain ⟨key, value⟩ := prop
  rintro ⟨key', value'⟩ r s hr hs heq
  simp only [propText, memberText, List.append_assoc] at heq
  obtain ⟨hkey, hrest⟩ := quote_unambiguous heq
  simp only [List.cons_append, List.cons.injEq, true_and] at hrest
  have hundefined : ∀ (w : JsValue) (r s : Text), "undefined".toList ++ r ≠ render w ++ s := by
    intro w r s heq
    obtain ⟨c, rest, hw, hc⟩ := render_lead w
    rw [hw, show "undefined".toList = 'u' :: "ndefined".toList by decide, List.cons_append,
      List.cons_append, List.cons.injEq] at heq
    rw [← heq.1, if_neg (by decide)] at hc
    revert hc
    cases w with
    | bool b => cases b <;> decide
    | number n => cases n <;> simp [lead, JsNumber.isFinite]
    | _ => simp [lead]
  cases value with
  | none =>
      cases value' with
      | none => exact ⟨by rw [hkey], List.append_cancel_left hrest⟩
      | some w => exact absurd hrest (hundefined w r s)
  | some v =>
      cases value' with
      | none => exact absurd hrest.symm (hundefined v s r)
      | some w =>
          obtain ⟨hform, hend⟩ := hvalue v rfl w r s hr hs hrest
          exact ⟨by simp [propForm, hkey, hform], hend⟩

/-- What begins as `null` does is `null`, or a number that is not finite. -/
theorem render_of_lead_null {w : JsValue} (hlead : lead .null = lead w) :
    render w = render .null ∧ finiteForm w = .null := by
  cases w with
  | null => exact ⟨rfl, rfl⟩
  | bool c => cases c <;> simp [lead] at hlead
  | number m =>
      cases m with
      | finite => simp [lead, JsNumber.isFinite] at hlead
      | _ => exact ⟨rfl, rfl⟩
  | _ => simp [lead] at hlead

theorem null_unambiguous : Unambiguous render finiteForm .null := by
  intro w r s _ _ heq
  obtain ⟨hrender, hform⟩ := render_of_lead_null (lead_eq heq)
  rw [hrender] at heq
  exact ⟨hform.symm, List.append_cancel_left heq⟩

/-- The text of a value determines the value, up to numbers that are not
finite, and where the text ends. -/
theorem render_unambiguous (value : JsValue) : Unambiguous render finiteForm value := by
  induction value using JsValue.induction with
  | null => exact null_unambiguous
  | bool b =>
      intro w r s hr hs heq
      have hlead := lead_eq heq
      cases w with
      | bool c =>
          cases b <;> cases c
          · exact ⟨rfl, List.append_cancel_left heq⟩
          · simp [lead] at hlead
          · simp [lead] at hlead
          · exact ⟨rfl, List.append_cancel_left heq⟩
      | number m => cases b <;> cases m <;> simp [lead, JsNumber.isFinite] at hlead
      | _ => cases b <;> simp [lead] at hlead
  | number n =>
      cases n with
      | finite n =>
          intro w r s hr hs heq
          have hlead := lead_eq heq
          cases w with
          | number m =>
              cases m with
              | finite m =>
                  obtain ⟨htext, hend⟩ :=
                    numberText_unambiguous n.text_chars m.text_chars hr hs heq
                  rw [Decimal.text_injective htext]
                  exact ⟨rfl, hend⟩
              | _ => simp [lead, JsNumber.isFinite] at hlead
          | bool c => cases c <;> simp [lead, JsNumber.isFinite] at hlead
          | _ => simp [lead, JsNumber.isFinite] at hlead
      | nan => exact null_unambiguous
      | infinity => exact null_unambiguous
  | string k =>
      intro w r s hr hs heq
      have hlead := lead_eq heq
      cases w with
      | string l =>
          obtain ⟨hkey, hend⟩ := quote_unambiguous heq
          rw [hkey]
          exact ⟨rfl, hend⟩
      | number m => cases m <;> simp [lead, JsNumber.isFinite] at hlead
      | bool c => cases c <;> simp [lead] at hlead
      | _ => simp [lead] at hlead
  | array items ih =>
      intro w r s hr hs heq
      have hlead := lead_eq heq
      cases w with
      | array items' =>
          simp only [render_array, List.cons_append, List.append_assoc, List.cons.injEq, true_and,
            List.nil_append] at heq
          obtain ⟨hforms, hend⟩ := commaJoin_unambiguous (by decide) (by decide)
            render_ne_bracket render_ne_nil ih heq
          exact ⟨by rw [finiteForm_array, finiteForm_array, hforms], hend⟩
      | number m => cases m <;> simp [lead, JsNumber.isFinite] at hlead
      | bool c => cases c <;> simp [lead] at hlead
      | _ => simp [lead] at hlead
  | object props ih =>
      intro w r s hr hs heq
      have hlead := lead_eq heq
      cases w with
      | object props' =>
          simp only [render_object, List.cons_append, List.append_assoc, List.cons.injEq, true_and,
            List.nil_append] at heq
          have hprops : ∀ prop ∈ props, Unambiguous propText propForm prop := by
            rintro ⟨key, value⟩ hprop
            exact propText_unambiguous fun v hv => ih key v (hv ▸ hprop)
          obtain ⟨hforms, hend⟩ := commaJoin_unambiguous (by decide) (by decide)
            (fun _ _ => by simp [propText, memberText, quote])
            (fun _ => by simp [propText, memberText, quote]) hprops heq
          exact ⟨by rw [finiteForm_object, finiteForm_object, hforms], hend⟩
      | number m => cases m <;> simp [lead, JsNumber.isFinite] at hlead
      | bool c => cases c <;> simp [lead] at hlead
      | _ => simp [lead] at hlead

/-- Equal texts are texts of the same value, up to numbers that are not finite. -/
theorem finiteForm_eq_of_render_eq {v w : JsValue} (heq : render v = render w) :
    finiteForm v = finiteForm w := by
  have hnil : render v ++ [] = render w ++ [] := by rw [heq]
  exact (render_unambiguous v w [] [] delimited_nil delimited_nil hnil).1

theorem render_finiteForm (value : JsValue) : render (finiteForm value) = render value := by
  induction value using JsValue.induction with
  | null => rfl
  | bool b => rfl
  | number n => cases n <;> rfl
  | string s => rfl
  | array items ih =>
      rw [finiteForm_array, render_array, render_array, List.map_map]
      have hitems : ∀ item ∈ items, (render ∘ finiteForm) item = render item := ih
      rw [List.map_congr_left hitems]
  | object props ih =>
      rw [finiteForm_object, render_object, render_object, List.map_map]
      have hprops : ∀ prop ∈ props, (propText ∘ propForm) prop = propText prop := by
        rintro ⟨key, value⟩ hprop
        cases value with
        | none => rfl
        | some value => simp [propText, propForm, ih key value hprop]
      rw [List.map_congr_left hprops]

/-- Two values have one text exactly when they agree up to numbers that are not finite. -/
theorem render_eq_iff {v w : JsValue} : render v = render w ↔ finiteForm v = finiteForm w :=
  ⟨finiteForm_eq_of_render_eq, fun heq => by rw [← render_finiteForm v, heq, render_finiteForm]⟩

end KjAtlas.Js
