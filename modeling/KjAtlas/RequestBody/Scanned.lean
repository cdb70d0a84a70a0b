import KjAtlas.Py.JsonGrammar
import KjAtlas.RequestBody.Safety

/-! # The scanner beside a reader of JSON texts

On the bytes of UTF-8 the scanner goes as deep as the reader of their characters: the
bytes of a character outside ASCII are no brackets and no quotation marks.
-/

namespace KjAtlas.RequestBody

open Js (Text)
open Py (Bytes JsonReading IsJsonText textNesting detectEncoding jsonText decodeUtf8 isContinuation
  scalar)

/-! ## The scanner without its limit -/

variable {text : Text}

namespace JsonNestingScanner

def next (scanner : JsonNestingScanner) (code : Nat) : JsonNestingScanner :=
  if scanner.inString then
    if scanner.escaped then { scanner with escaped := false }
    else if code = '\\'.toNat then { scanner with escaped := true }
    else if code = '"'.toNat then { scanner with inString := false }
    else scanner
  else if code = '"'.toNat then { scanner with inString := true }
  else if code = '{'.toNat ∨ code = '['.toNat then { scanner with depth := scanner.depth + 1 }
  else if code = '}'.toNat ∨ code = ']'.toNat then { scanner with depth := scanner.depth - 1 }
  else scanner

def run (scanner : JsonNestingScanner) (codes : List Nat) : JsonNestingScanner :=
  codes.foldl next scanner

/-- The greatest depth on the way. -/
def deepest (scanner : JsonNestingScanner) : List Nat → Nat
  | [] => scanner.depth
  | code :: codes => max scanner.depth (deepest (scanner.next code) codes)

theorem depth_le_deepest (scanner : JsonNestingScanner) (codes : List Nat) :
    scanner.depth ≤ scanner.deepest codes := by
  cases codes with
  | nil => exact le_rfl
  | cons code codes => exact le_max_left _ _

theorem depth_run_le (scanner : JsonNestingScanner) (codes : List Nat) :
    (scanner.run codes).depth ≤ scanner.deepest codes := by
  induction codes generalizing scanner with
  | nil => exact le_rfl
  | cons code codes ih => exact (ih _).trans (le_max_right _ _)

theorem run_append (scanner : JsonNestingScanner) (first second : List Nat) :
    scanner.run (first ++ second) = (scanner.run first).run second :=
  List.foldl_append

theorem deepest_append (scanner : JsonNestingScanner) (first second : List Nat) :
    scanner.deepest (first ++ second) =
      max (scanner.deepest first) ((scanner.run first).deepest second) := by
  induction first generalizing scanner with
  | nil => exact (max_eq_right (depth_le_deepest scanner second)).symm
  | cons code first ih =>
      rw [List.cons_append, deepest, ih, deepest, max_assoc]
      rfl

def codes (bytes : Bytes) : List Nat := bytes.map UInt8.toNat

variable {scanner : JsonNestingScanner} {code : Nat}

/-- One byte of a chunk. Only an opening bracket can be one too many. -/
theorem feed_cons (hdepth : scanner.depth ≤ maxJsonBodyNestingDepth) (byte : UInt8)
    (chunk : Bytes) :
    scanner.feed (byte :: chunk) =
      if maxJsonBodyNestingDepth < (scanner.next byte.toNat).depth then
        (false, scanner.next byte.toNat)
      else (scanner.next byte.toNat).feed chunk := by
  rw [feed, next]
  simp only [isOrd, decide_eq_true_eq, Bool.or_eq_true, gt_iff_lt]
  have hclosed : ¬ maxJsonBodyNestingDepth < scanner.depth - 1 := by omega
  have hkept : ¬ maxJsonBodyNestingDepth < scanner.depth := by omega
  split
  · split
    · rfl
    split
    · rfl
    split
    · rfl
    · rfl
  split
  · rfl
  split
  · rfl
  split
  · rfl
  · rfl

/-- A chunk passes unless it leads too deep. -/
theorem feed_eq (hdepth : scanner.depth ≤ maxJsonBodyNestingDepth) (chunk : Bytes) :
    ((scanner.feed chunk).1 = true ↔
        scanner.deepest (codes chunk) ≤ maxJsonBodyNestingDepth) ∧
      ((scanner.feed chunk).1 = true → (scanner.feed chunk).2 = scanner.run (codes chunk)) := by
  induction chunk generalizing scanner with
  | nil => exact ⟨⟨fun _ => hdepth, fun _ => rfl⟩, fun _ => rfl⟩
  | cons byte chunk ih =>
      have hdeepest : scanner.deepest (codes (byte :: chunk)) =
          max scanner.depth ((scanner.next byte.toNat).deepest (codes chunk)) := rfl
      rw [feed_cons hdepth, hdeepest, max_le_iff]
      have hfirst := depth_le_deepest (scanner.next byte.toNat) (codes chunk)
      split
      next hover =>
        refine ⟨⟨fun h => (Bool.false_ne_true h).elim, fun h => ?_⟩,
          fun h => (Bool.false_ne_true h).elim⟩
        omega
      next hover =>
        obtain ⟨hpasses, hrun⟩ := ih (not_lt.mp hover)
        exact ⟨hpasses.trans ⟨fun h => ⟨hdepth, h⟩, And.right⟩, hrun⟩

/-! ## Bytes of UTF-8 -/

/-- Two lists of codes that no scanner tells apart. -/
def Alike (first second : List Nat) : Prop :=
  ∀ scanner : JsonNestingScanner,
    scanner.run first = scanner.run second ∧ scanner.deepest first = scanner.deepest second

theorem Alike.refl (codes : List Nat) : Alike codes codes := fun _ => ⟨rfl, rfl⟩

theorem Alike.append {first second first' second' : List Nat} (hfirst : Alike first first')
    (hsecond : Alike second second') : Alike (first ++ second) (first' ++ second') := by
  intro scanner
  obtain ⟨hrun, hdeepest⟩ := hfirst scanner
  obtain ⟨hrun', hdeepest'⟩ := hsecond (scanner.run first')
  rw [run_append, run_append, deepest_append, deepest_append, hrun, hdeepest, hrun', hdeepest']
  exact ⟨rfl, rfl⟩

/-- A code of no character of ASCII. -/
def Plain (code : Nat) : Prop := 0x80 ≤ code

theorem next_plain (hcode : Plain code) :
    scanner.next code =
      if scanner.inString ∧ scanner.escaped then { scanner with escaped := false }
      else scanner := by
  have hother : ∀ c : Char, c.toNat < 0x80 → code ≠ c.toNat := by
    intro c hc heq
    rw [Plain] at hcode
    omega
  rw [next, if_neg (hother '\\' (by decide)), if_neg (hother '"' (by decide)),
    if_neg (hother '"' (by decide)),
    if_neg (not_or.mpr ⟨hother '{' (by decide), hother '[' (by decide)⟩),
    if_neg (not_or.mpr ⟨hother '}' (by decide), hother ']' (by decide)⟩)]
  cases scanner.inString with
  | false => rfl
  | true =>
      cases scanner.escaped with
      | false => rfl
      | true => rfl

theorem next_next_plain {code' : Nat} (hcode : Plain code) (hcode' : Plain code') :
    (scanner.next code).next code' = scanner.next code := by
  rw [next_plain hcode', next_plain hcode]
  split
  · exact if_neg (by simp)
  · rfl

theorem alike_plain {code' : Nat} {more : List Nat} (hcode : Plain code) (hcode' : Plain code')
    (hmore : ∀ other ∈ more, Plain other) : Alike (code :: more) [code'] := by
  intro scanner
  have hnext : scanner.next code = scanner.next code' := by
    rw [next_plain hcode, next_plain hcode']
  have hstays : ∀ state : JsonNestingScanner, (∀ other, Plain other → state.next other = state) →
      state.run more = state ∧ state.deepest more = state.depth := by
    intro state hstate
    induction more with
    | nil => exact ⟨rfl, rfl⟩
    | cons other more ih =>
        obtain ⟨hother, hrest⟩ := List.forall_mem_cons.mp hmore
        obtain ⟨hrun, hdeepest⟩ := ih hrest
        refine ⟨?_, ?_⟩
        · exact (congrArg (run · more) (hstate other hother)).trans hrun
        · rw [deepest, hstate other hother, hdeepest, max_self]
  obtain ⟨hrun, hdeepest⟩ := hstays (scanner.next code) fun other hother =>
    next_next_plain hcode hother
  refine ⟨?_, ?_⟩
  · exact hrun.trans hnext
  · rw [deepest, hdeepest, deepest, deepest, hnext]

theorem alike_char (c : Char) : Alike (codes (String.utf8EncodeChar c)) [c.toNat] := by
  have hval : c.val.toNat = c.toNat := rfl
  have hbyte : ∀ n, 0x80 ≤ n → n < 0x100 → Plain (UInt8.ofNat n).toNat := by
    intro n hlow hhigh
    rw [UInt8.toNat_ofNat', Nat.mod_eq_of_lt hhigh]
    exact hlow
  rw [String.utf8EncodeChar]
  simp only [hval]
  split
  next hascii =>
    have hcode : (UInt8.ofNat c.toNat).toNat = c.toNat := by
      rw [UInt8.toNat_ofNat']
      omega
    simp only [codes, List.map_cons, List.map_nil, hcode]
    exact .refl _
  next hascii =>
    have hplain : Plain c.toNat := by
      rw [Plain]
      omega
    have htail : ∀ n, Plain (UInt8.ofNat (n % 64 + 0x80)).toNat := fun n =>
      hbyte _ (by omega) (by omega)
    split
    · apply alike_plain (hbyte _ (by omega) (by omega)) hplain
      exact List.forall_mem_singleton.mpr (htail _)
    split
    · apply alike_plain (hbyte _ (by omega) (by omega)) hplain
      exact List.forall_mem_cons.mpr ⟨htail _, List.forall_mem_singleton.mpr (htail _)⟩
    · apply alike_plain (hbyte _ (by omega) (by omega)) hplain
      exact List.forall_mem_cons.mpr ⟨htail _,
        List.forall_mem_cons.mpr ⟨htail _, List.forall_mem_singleton.mpr (htail _)⟩⟩

def charCodes (text : Text) : List Nat := text.map Char.toNat

theorem alike_utf8 (text : Text) : Alike (codes (Py.utf8 text)) (charCodes text) := by
  induction text with
  | nil => exact .refl _
  | cons c text ih =>
      have hcodes : codes (Py.utf8 (c :: text)) =
          codes (String.utf8EncodeChar c) ++ codes (Py.utf8 text) := List.map_append
      rw [hcodes]
      exact (alike_char c).append ih

theorem toNat_scalar (hvalid : code.isValidChar) : (scalar code).toNat = code := by
  rw [scalar, if_pos hvalid, Char.ofNat, dif_pos hvalid]
  rfl

theorem plain_scalar (hcode : Plain code) : Plain (scalar code).toNat := by
  by_cases hvalid : code.isValidChar
  · rw [toNat_scalar hvalid]
    exact hcode
  · rw [scalar, if_neg hvalid, Plain]
    decide

theorem plain_continuation {byte : UInt8} (hbyte : isContinuation byte = true) :
    Plain byte.toNat := by
  simp only [isContinuation, Bool.and_eq_true, decide_eq_true_eq] at hbyte
  exact hbyte.1

theorem alike_decoded (bytes : Bytes) {rest : Bytes}
    (hchar : Alike (codes bytes) [(scalar code).toNat])
    (ih : ∀ {text : Text}, decodeUtf8 rest = some text → Alike (codes rest) (charCodes text))
    (hdecode : (decodeUtf8 rest).bind (fun more => some (scalar code :: more)) = some text) :
    Alike (codes (bytes ++ rest)) (charCodes text) := by
  obtain ⟨more, hmore, htext⟩ := Option.bind_eq_some_iff.mp hdecode
  rw [← Option.some.inj htext, codes, List.map_append]
  exact hchar.append (ih hmore)

/-- The bytes that `json.loads` decodes are scanned as the characters that it reads. -/
theorem alike_decodeUtf8 {bytes : Bytes} (hdecode : decodeUtf8 bytes = some text) :
    Alike (codes bytes) (charCodes text) := by
  fun_induction decodeUtf8 bytes generalizing text with
  | case1 =>
      rw [← Option.some.inj hdecode]
      exact .refl _
  | case2 a rest ha ih =>
      refine alike_decoded [a] ?_ ih hdecode
      rw [toNat_scalar (.inl (by omega))]
      exact .refl _
  | case4 a ha b rest hb ih =>
      refine alike_decoded [a, b] ?_ ih hdecode
      apply alike_plain (not_lt.mp ha)
      · apply plain_scalar
        rw [Plain, Py.codePoint2]
        omega
      · exact List.forall_mem_singleton.mpr (plain_continuation hb.2.2)
  | case6 a ha b hb c rest hc ih =>
      obtain ⟨-, -, hsecond, hthird, hcode⟩ := hc
      refine alike_decoded [a, b, c] ?_ ih hdecode
      apply alike_plain (not_lt.mp ha)
      · apply plain_scalar
        exact le_trans (by decide) hcode
      · exact List.forall_mem_cons.mpr ⟨plain_continuation hsecond,
          List.forall_mem_singleton.mpr (plain_continuation hthird)⟩
  | case8 a ha b hb c hc d rest hd ih =>
      obtain ⟨-, -, hsecond, hthird, hfourth, hcode, -⟩ := hd
      refine alike_decoded [a, b, c, d] ?_ ih hdecode
      apply alike_plain (not_lt.mp ha)
      · apply plain_scalar
        exact le_trans (by decide) hcode
      · exact List.forall_mem_cons.mpr ⟨plain_continuation hsecond,
          List.forall_mem_cons.mpr ⟨plain_continuation hthird,
            List.forall_mem_singleton.mpr (plain_continuation hfourth)⟩⟩
  | case3 | case5 | case7 | case9 => cases hdecode

end JsonNestingScanner

/-! ## The reader of JSON texts -/

open JsonNestingScanner (codes charCodes)
open Py.JsonGrammar (Phase Constant)

def phaseInString : Phase → Bool
  | .string _ | .escape _ | .digits _ _ => true
  | _ => false

def phaseEscaped : Phase → Bool
  | .escape _ => true
  | _ => false

def scannerOf (reading : JsonReading) : JsonNestingScanner :=
  ⟨reading.stack.length, phaseInString reading.phase, phaseEscaped reading.phase⟩

def outside (stack : List Py.Container) : JsonNestingScanner := ⟨stack.length, false, false⟩

/-- The scanner inside a string, not behind a backslash. -/
def inside (stack : List Py.Container) : JsonNestingScanner := ⟨stack.length, true, false⟩

/-- The characters that the scanner looks for outside strings. -/
def isStructural (c : Char) : Bool :=
  c = '"' || c = '{' || c = '[' || c = '}' || c = ']'

theorem next_outside {c : Char} (hc : isStructural c = false) (stack : List Py.Container) :
    (outside stack).next c.toNat = outside stack := by
  simp only [isStructural, Bool.or_eq_false_iff, decide_eq_false_iff_not] at hc
  obtain ⟨⟨⟨⟨hquote, hbrace⟩, hbracket⟩, hbrace'⟩, hbracket'⟩ := hc
  simp only [outside, JsonNestingScanner.next, Char.toNat_inj, hquote, hbrace, hbracket, hbrace',
    hbracket', or_self, if_false, Bool.false_eq_true]

theorem next_inside {c : Char} (hquote : c ≠ '"') (hescape : c ≠ '\\')
    (stack : List Py.Container) : (inside stack).next c.toNat = inside stack := by
  simp only [inside, JsonNestingScanner.next, Char.toNat_inj, hquote, hescape, if_false, if_true,
    Bool.false_eq_true]

theorem not_structural_of {p : Char → Bool} {c : Char} (hc : p c = true)
    (hquote : p '"' = false) (hbrace : p '{' = false) (hbracket : p '[' = false)
    (hbrace' : p '}' = false) (hbracket' : p ']' = false) : isStructural c = false := by
  have hne : ∀ d, p d = false → c ≠ d := by
    rintro d hd rfl
    exact Bool.false_ne_true (hd.symm.trans hc)
  simp only [isStructural, Bool.or_eq_false_iff, decide_eq_false_iff_not]
  exact ⟨⟨⟨⟨hne _ hquote, hne _ hbrace⟩, hne _ hbracket⟩, hne _ hbrace'⟩, hne _ hbracket'⟩

theorem next_space {c : Char} {stack : List Py.Container} (hc : Py.isJsonSpace c = true) :
    (outside stack).next c.toNat = outside stack :=
  next_outside (not_structural_of hc rfl rfl rfl rfl rfl) stack

theorem next_digit {c : Char} {stack : List Py.Container} (hc : c.isDigit = true) :
    (outside stack).next c.toNat = outside stack :=
  next_outside (not_structural_of hc rfl rfl rfl rfl rfl) stack

theorem next_close {c d : Char} {stack : List Py.Container} (hd : d = '}' ∨ d = ']') (hc : c = d) :
    (outside stack).next c.toNat = outside stack.tail := by
  have hdepth : stack.length - 1 = stack.tail.length := List.length_tail.symm
  subst hc
  rcases hd with rfl | rfl
  · exact congrArg (fun depth => (⟨depth, false, false⟩ : JsonNestingScanner)) hdepth
  · exact congrArg (fun depth => (⟨depth, false, false⟩ : JsonNestingScanner)) hdepth

theorem constant_not_structural (constant : Constant) :
    constant.text.all (fun c => !isStructural c) = true := by
  cases constant
  · rfl
  · rfl
  · rfl
  · rfl
  · rfl

section Step

variable {scanner : JsonNestingScanner} {stack : List Py.Container} {c : Char}
  {reading next : JsonReading}

/-- The scanner follows a step when it follows the branch that the step takes. -/
theorem scanner_ite {p : Prop} {_ : Decidable p} {rest : Option JsonReading}
    (hstep : (if p then some reading else rest) = some next)
    (htaken : p → scanner.next c.toNat = scannerOf reading)
    (hrest : rest = some next → scanner.next c.toNat = scannerOf next) :
    scanner.next c.toNat = scannerOf next := by
  split at hstep
  next hp =>
    cases hstep
    exact htaken hp
  next => exact hrest hstep

theorem scanner_none (hstep : none = some next) : scanner.next c.toNat = scannerOf next := by
  cases hstep

theorem scanner_sign {d e : Char} (hd : scanner.next d.toNat = scannerOf reading)
    (he : scanner.next e.toNat = scannerOf reading) (hc : c = d ∨ c = e) :
    scanner.next c.toNat = scannerOf reading := by
  rcases hc with rfl | rfl
  · exact hd
  · exact he

theorem beginValue_scanner (hstep : JsonReading.beginValue stack c = some next) :
    (outside stack).next c.toNat = scannerOf next := by
  unfold JsonReading.beginValue at hstep
  iterate 10
    refine scanner_ite hstep (by rintro rfl; rfl) fun hstep => ?_
  exact scanner_ite hstep next_digit scanner_none

theorem behindValue_scanner (hstep : JsonReading.behindValue stack c = some next) :
    (outside stack).next c.toNat = scannerOf next := by
  unfold JsonReading.behindValue at hstep
  refine scanner_ite hstep next_space fun hstep => ?_
  split at hstep
  · cases hstep
  · refine scanner_ite hstep (by rintro rfl; rfl) fun hstep => ?_
    exact scanner_ite hstep (by rintro rfl; rfl) scanner_none
  · refine scanner_ite hstep (by rintro rfl; rfl) fun hstep => ?_
    exact scanner_ite hstep (by rintro rfl; rfl) scanner_none

theorem beginKey_scanner (hstep : JsonReading.beginKey stack c = some next) :
    (outside stack).next c.toNat = scannerOf next :=
  scanner_ite hstep (by rintro rfl; rfl) scanner_none

theorem step_scanner (hstep : JsonReading.step reading c = some next) :
    (scannerOf reading).next c.toNat = scannerOf next := by
  obtain ⟨stack, phase⟩ := reading
  cases phase with
  | value => exact scanner_ite hstep next_space beginValue_scanner
  | listStart =>
      refine scanner_ite hstep next_space fun hstep => ?_
      exact scanner_ite hstep (next_close (.inr rfl)) beginValue_scanner
  | dictStart =>
      refine scanner_ite hstep next_space fun hstep => ?_
      exact scanner_ite hstep (next_close (.inl rfl)) beginKey_scanner
  | key => exact scanner_ite hstep next_space beginKey_scanner
  | colon =>
      refine scanner_ite hstep next_space fun hstep => ?_
      exact scanner_ite hstep (by rintro rfl; rfl) scanner_none
  | after => exact behindValue_scanner hstep
  | string isKey =>
      rw [JsonReading.step] at hstep
      split at hstep
      next hc =>
        subst hc
        cases hstep
        cases isKey
        · rfl
        · rfl
      next hquote =>
      split at hstep
      next hc =>
        subst hc
        cases hstep
        rfl
      next hescape =>
      split at hstep
      · cases hstep
      · cases hstep
        exact next_inside hquote hescape stack
  | escape isKey =>
      -- whatever it is, the character ends the escape
      refine scanner_ite hstep (fun _ => rfl) fun hstep => ?_
      exact scanner_ite hstep (fun _ => rfl) scanner_none
  | digits isKey due =>
      rw [JsonReading.step] at hstep
      split at hstep
      · cases hstep
      next hdigit =>
      have hne : ∀ d, Py.hexDigit? d = none → c ≠ d := by
        rintro d hd rfl
        exact hdigit (by rw [hd]; rfl)
      have hstays := next_inside (hne '"' rfl) (hne '\\' rfl) stack
      split at hstep
      · cases hstep
        exact hstays
      · cases hstep
        exact hstays
  | word constant read =>
      rw [JsonReading.step] at hstep
      split at hstep
      · cases hstep
      next hread =>
      have hmem : c ∈ constant.text := List.mem_of_getElem? (not_not.mp hread)
      have hc := List.all_eq_true.mp (constant_not_structural constant) c hmem
      have hstays := next_outside (by simpa using hc) stack
      split at hstep
      · cases hstep
        exact hstays
      · cases hstep
        exact hstays
  | minus =>
      refine scanner_ite hstep (by rintro rfl; rfl) fun hstep => ?_
      refine scanner_ite hstep (by rintro rfl; rfl) fun hstep => ?_
      exact scanner_ite hstep next_digit scanner_none
  | zero =>
      refine scanner_ite hstep (by rintro rfl; rfl) fun hstep => ?_
      exact scanner_ite hstep (scanner_sign rfl rfl) behindValue_scanner
  | integer =>
      refine scanner_ite hstep next_digit fun hstep => ?_
      refine scanner_ite hstep (by rintro rfl; rfl) fun hstep => ?_
      exact scanner_ite hstep (scanner_sign rfl rfl) behindValue_scanner
  | point | exponentSign => exact scanner_ite hstep next_digit scanner_none
  | fraction =>
      refine scanner_ite hstep next_digit fun hstep => ?_
      exact scanner_ite hstep (scanner_sign rfl rfl) behindValue_scanner
  | exponent =>
      refine scanner_ite hstep next_digit fun hstep => ?_
      exact scanner_ite hstep (scanner_sign rfl rfl) scanner_none
  | exponentDigits => exact scanner_ite hstep next_digit behindValue_scanner

theorem deepest_step (hstep : JsonReading.step reading c = some next) (text : Text) :
    (scannerOf reading).deepest (charCodes (c :: text)) =
      max reading.stack.length ((scannerOf next).deepest (charCodes text)) := by
  rw [← step_scanner hstep]
  rfl

end Step

theorem nesting_le_deepest (reading : JsonReading) (text : Text) :
    reading.nesting text ≤ (scannerOf reading).deepest (charCodes text) := by
  induction text generalizing reading with
  | nil => exact le_rfl
  | cons c text ih =>
      rw [JsonReading.nesting]
      split
      · exact le_max_left _ _
      next next hstep =>
        rw [deepest_step hstep]
        exact max_le_max le_rfl (ih next)

theorem deepest_of_accepts {reading : JsonReading} (haccepts : reading.accepts text = true) :
    (scannerOf reading).deepest (charCodes text) = reading.nesting text := by
  induction text generalizing reading with
  | nil => rfl
  | cons c text ih =>
      rw [JsonReading.accepts] at haccepts
      rw [JsonReading.nesting]
      split at haccepts
      · cases haccepts
      next next hstep => rw [deepest_step hstep, ih haccepts]

/-! ## Brackets outside strings -/

/-- The codes outside strings, from outside or inside of one on. In a string a backslash takes the
next code with it. -/
def outsideStrings : Bool → List Nat → List Nat
  | _, [] => []
  | false, code :: codes =>
      if code = '"'.toNat then outsideStrings true codes else code :: outsideStrings false codes
  | true, [_] => []
  | true, code :: other :: codes =>
      if code = '\\'.toNat then outsideStrings true codes
      else outsideStrings (decide (code ≠ '"'.toNat)) (other :: codes)

/-- How many brackets more are opened than closed from here on, up to where it is most. -/
def rise : List Nat → Nat
  | [] => 0
  | code :: codes =>
      if code = '{'.toNat ∨ code = '['.toNat then rise codes + 1
      else if code = '}'.toNat ∨ code = ']'.toNat then rise codes - 1
      else rise codes

/-- The highest rise from anywhere. -/
def nesting : List Nat → Nat
  | [] => 0
  | code :: codes => max (rise (code :: codes)) (nesting codes)

/-- How deep brackets outside strings nest, when every byte of a body is taken for a
character. -/
def byteNesting (body : Bytes) : Nat := nesting (outsideStrings false (codes body))

section Brackets

variable {start : Nat}

theorem outsideStrings_true_cons (code : Nat) (codes : List Nat) :
    outsideStrings true (code :: codes) =
      if code = '\\'.toNat then outsideStrings true (codes.drop 1)
      else outsideStrings (decide (code ≠ '"'.toNat)) codes := by
  cases codes with
  | nil => simp [outsideStrings]
  | cons other codes => rfl

theorem rise_le_nesting (codes : List Nat) : rise codes ≤ nesting codes := by
  cases codes with
  | nil => exact le_rfl
  | cons code codes => exact le_max_left _ _

/-- The depth that brackets reach from a depth on. -/
def level (start : Nat) (codes : List Nat) : Nat := max (start + rise codes) (nesting codes)

theorem level_nil : level start [] = start := max_eq_left (Nat.zero_le _)

theorem level_cons (code : Nat) (codes : List Nat) : level start (code :: codes) =
    max start (level (if code = '{'.toNat ∨ code = '['.toNat then start + 1
      else if code = '}'.toNat ∨ code = ']'.toNat then start - 1 else start) codes) := by
  have hle := rise_le_nesting codes
  simp only [level, nesting, rise]
  split
  · omega
  split
  · omega
  · omega

theorem deepest_eq (codes : List Nat) (start : Nat) :
    JsonNestingScanner.deepest ⟨start, false, false⟩ codes =
      level start (outsideStrings false codes) ∧
    JsonNestingScanner.deepest ⟨start, true, false⟩ codes =
      level start (outsideStrings true codes) ∧
    JsonNestingScanner.deepest ⟨start, true, true⟩ codes =
      level start (outsideStrings true (codes.drop 1)) := by
  induction codes generalizing start with
  | nil => exact ⟨level_nil.symm, level_nil.symm, level_nil.symm⟩
  | cons code codes ih =>
      have hkept : ∀ inString escaped,
          max start (JsonNestingScanner.deepest ⟨start, inString, escaped⟩ codes) =
            JsonNestingScanner.deepest ⟨start, inString, escaped⟩ codes :=
        fun inString escaped =>
          max_eq_right (JsonNestingScanner.depth_le_deepest ⟨start, inString, escaped⟩ codes)
      obtain ⟨houtside, hinside, hescaped⟩ := ih start
      refine ⟨?_, ?_, (hkept true false).trans hinside⟩
      · simp only [JsonNestingScanner.deepest, JsonNestingScanner.next, outsideStrings,
          Bool.false_eq_true, if_false]
        split
        · exact (hkept true false).trans hinside
        rw [level_cons]
        split
        · exact congrArg (max start) (ih _).1
        split
        · exact congrArg (max start) (ih _).1
        · exact congrArg (max start) houtside
      · simp only [JsonNestingScanner.deepest, JsonNestingScanner.next, outsideStrings_true_cons,
          Bool.false_eq_true, if_false, if_true]
        split
        · exact (hkept true true).trans hescaped
        split
        next hquote =>
          rw [decide_eq_false (not_not.mpr hquote)]
          exact (hkept false false).trans houtside
        next hquote =>
          rw [decide_eq_true hquote]
          exact (hkept true false).trans hinside

theorem byteNesting_eq (body : Bytes) :
    byteNesting body = JsonNestingScanner.deepest {} (codes body) := by
  rw [(deepest_eq (codes body) 0).1, level, Nat.zero_add, max_eq_right (rise_le_nesting _)]
  rfl

end Brackets

theorem byteNesting_utf8 (htext : IsJsonText text) :
    byteNesting (Py.utf8 text) = textNesting text := by
  rw [byteNesting_eq, (JsonNestingScanner.alike_utf8 text {}).2]
  exact deepest_of_accepts htext

theorem detectEncoding_utf8Sig {body : Bytes} (hsig : detectEncoding body = .utf8Sig) :
    ∃ rest, body = 0xEF :: 0xBB :: 0xBF :: rest := by
  unfold detectEncoding at hsig
  split at hsig
  · cases hsig
  split at hsig
  · cases hsig
  split at hsig
  next hmark =>
    obtain ⟨rest, hrest⟩ := List.isPrefixOf_iff_prefix.mp hmark
    exact ⟨rest, hrest.symm⟩
  repeat' split at hsig
  all_goals cases hsig

/-- The reader of a body in UTF-8 goes no deeper than the scanner of its bytes. -/
theorem textNesting_le {body : Bytes} (hnarrow : (detectEncoding body).isWide = false)
    (htext : jsonText body = some text) : textNesting text ≤ byteNesting body := by
  have hle : ∀ bytes, decodeUtf8 bytes = some text →
      textNesting text ≤ JsonNestingScanner.deepest {} (codes bytes) := by
    intro bytes hdecode
    rw [(JsonNestingScanner.alike_decodeUtf8 hdecode {}).2]
    exact nesting_le_deepest JsonReading.start text
  rw [jsonText] at htext
  rw [byteNesting_eq]
  cases hencoding : detectEncoding body with
  | utf8 =>
      rw [hencoding] at htext
      exact hle body htext
  | utf8Sig =>
      obtain ⟨rest, rfl⟩ := detectEncoding_utf8Sig hencoding
      rw [hencoding] at htext
      -- the byte order mark is no bracket and no quotation mark
      exact hle rest htext
  | utf16 | utf16Be | utf16Le | utf32 | utf32Be | utf32Le =>
      rw [hencoding] at hnarrow
      cases hnarrow

end KjAtlas.RequestBody
