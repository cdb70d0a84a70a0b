import KjAtlas.Py.Json

/-! # The grammar of `json.loads`, one character at a time

A reading is what is open and what may come next. A text is read up to its end or
up to the first character that the grammar does not allow there.
-/

namespace KjAtlas.Py

open Js (Text)

inductive Container where
  | list
  | dict
  deriving DecidableEq

namespace JsonGrammar

inductive Constant where
  | null
  | true
  | false
  | nan
  | infinity
  deriving DecidableEq

def Constant.text : Constant → Text
  | .null => ['n', 'u', 'l', 'l']
  | .true => ['t', 'r', 'u', 'e']
  | .false => ['f', 'a', 'l', 's', 'e']
  | .nan => ['N', 'a', 'N']
  | .infinity => ['I', 'n', 'f', 'i', 'n', 'i', 't', 'y']

/-- What may come next. -/
inductive Phase where
  | value
  /-- Behind `[`: an item or the end of the list. -/
  | listStart
  /-- Behind the opening brace: a key or the end of the dict. -/
  | dictStart
  | key
  | colon
  /-- Behind a value. -/
  | after
  | string (isKey : Bool)
  | escape (isKey : Bool)
  /-- Inside `\u`: so many digits are due. -/
  | digits (isKey : Bool) (due : Nat)
  /-- Inside a constant, of which so many characters are read. -/
  | word (constant : Constant) (read : Nat)
  | minus
  | zero
  | integer
  | point
  | fraction
  | exponent
  | exponentSign
  | exponentDigits
  deriving DecidableEq

end JsonGrammar

open JsonGrammar (Phase)

/-- What is open, the innermost first, and what may come next. -/
structure JsonReading where
  stack : List Container
  phase : Phase
  deriving DecidableEq

namespace JsonReading

def start : JsonReading := ⟨[], .value⟩

def beginValue (stack : List Container) (c : Char) : Option JsonReading :=
  if c = '"' then some ⟨stack, .string false⟩
  else if c = '[' then some ⟨.list :: stack, .listStart⟩
  else if c = '{' then some ⟨.dict :: stack, .dictStart⟩
  else if c = 'n' then some ⟨stack, .word .null 1⟩
  else if c = 't' then some ⟨stack, .word .true 1⟩
  else if c = 'f' then some ⟨stack, .word .false 1⟩
  else if c = 'N' then some ⟨stack, .word .nan 1⟩
  else if c = 'I' then some ⟨stack, .word .infinity 1⟩
  else if c = '-' then some ⟨stack, .minus⟩
  else if c = '0' then some ⟨stack, .zero⟩
  else if c.isDigit then some ⟨stack, .integer⟩
  else none

def behindValue (stack : List Container) (c : Char) : Option JsonReading :=
  if isJsonSpace c then some ⟨stack, .after⟩
  else match stack with
    | [] => none
    | .list :: outer =>
        if c = ',' then some ⟨.list :: outer, .value⟩
        else if c = ']' then some ⟨outer, .after⟩
        else none
    | .dict :: outer =>
        if c = ',' then some ⟨.dict :: outer, .key⟩
        else if c = '}' then some ⟨outer, .after⟩
        else none

def beginKey (stack : List Container) (c : Char) : Option JsonReading :=
  if c = '"' then some ⟨stack, .string true⟩ else none

/-- The phase behind the closing quotation mark. -/
def behindString (isKey : Bool) : Phase := if isKey then .colon else .after

def step : JsonReading → Char → Option JsonReading
  | ⟨stack, .value⟩, c =>
      if isJsonSpace c then some ⟨stack, .value⟩ else beginValue stack c
  | ⟨stack, .listStart⟩, c =>
      if isJsonSpace c then some ⟨stack, .listStart⟩
      else if c = ']' then some ⟨stack.tail, .after⟩
      else beginValue stack c
  | ⟨stack, .dictStart⟩, c =>
      if isJsonSpace c then some ⟨stack, .dictStart⟩
      else if c = '}' then some ⟨stack.tail, .after⟩
      else beginKey stack c
  | ⟨stack, .key⟩, c => if isJsonSpace c then some ⟨stack, .key⟩ else beginKey stack c
  | ⟨stack, .colon⟩, c =>
      if isJsonSpace c then some ⟨stack, .colon⟩
      else if c = ':' then some ⟨stack, .value⟩
      else none
  | ⟨stack, .after⟩, c => behindValue stack c
  | ⟨stack, .string isKey⟩, c =>
      if c = '"' then some ⟨stack, behindString isKey⟩
      else if c = '\\' then some ⟨stack, .escape isKey⟩
      else if c.toNat < 0x20 then none
      else some ⟨stack, .string isKey⟩
  | ⟨stack, .escape isKey⟩, c =>
      if c = 'u' then some ⟨stack, .digits isKey 4⟩
      else if c ∈ ['"', '\\', '/', 'b', 'f', 'n', 'r', 't'] then some ⟨stack, .string isKey⟩
      else none
  | ⟨stack, .digits isKey due⟩, c =>
      if (hexDigit? c).isNone then none
      else if due ≤ 1 then some ⟨stack, .string isKey⟩
      else some ⟨stack, .digits isKey (due - 1)⟩
  | ⟨stack, .word constant read⟩, c =>
      if constant.text[read]? ≠ some c then none
      else if read + 1 = constant.text.length then some ⟨stack, .after⟩
      else some ⟨stack, .word constant (read + 1)⟩
  | ⟨stack, .minus⟩, c =>
      if c = 'I' then some ⟨stack, .word .infinity 1⟩
      else if c = '0' then some ⟨stack, .zero⟩
      else if c.isDigit then some ⟨stack, .integer⟩
      else none
  | ⟨stack, .zero⟩, c =>
      if c = '.' then some ⟨stack, .point⟩
      else if c = 'e' ∨ c = 'E' then some ⟨stack, .exponent⟩
      else behindValue stack c
  | ⟨stack, .integer⟩, c =>
      if c.isDigit then some ⟨stack, .integer⟩
      else if c = '.' then some ⟨stack, .point⟩
      else if c = 'e' ∨ c = 'E' then some ⟨stack, .exponent⟩
      else behindValue stack c
  | ⟨stack, .point⟩, c => if c.isDigit then some ⟨stack, .fraction⟩ else none
  | ⟨stack, .fraction⟩, c =>
      if c.isDigit then some ⟨stack, .fraction⟩
      else if c = 'e' ∨ c = 'E' then some ⟨stack, .exponent⟩
      else behindValue stack c
  | ⟨stack, .exponent⟩, c =>
      if c.isDigit then some ⟨stack, .exponentDigits⟩
      else if c = '+' ∨ c = '-' then some ⟨stack, .exponentSign⟩
      else none
  | ⟨stack, .exponentSign⟩, c => if c.isDigit then some ⟨stack, .exponentDigits⟩ else none
  | ⟨stack, .exponentDigits⟩, c =>
      if c.isDigit then some ⟨stack, .exponentDigits⟩ else behindValue stack c

/-- Whether the text may end here. -/
def isComplete (reading : JsonReading) : Bool :=
  decide (reading.stack = [] ∧
    reading.phase ∈ [.after, .zero, .integer, .fraction, .exponentDigits])

/-- The deepest nesting of arrays and objects in the part of a text that is read. -/
def nesting (reading : JsonReading) : Text → Nat
  | [] => reading.stack.length
  | c :: text => match step reading c with
      | none => reading.stack.length
      | some next => max reading.stack.length (nesting next text)

def accepts (reading : JsonReading) : Text → Bool
  | [] => reading.isComplete
  | c :: text => match step reading c with
      | none => false
      | some next => accepts next text

end JsonReading

def IsJsonText (text : Text) : Prop := JsonReading.start.accepts text = true

/-- How deep arrays and objects nest in what a JSON parser reads of a text. -/
def textNesting (text : Text) : Nat := JsonReading.start.nesting text

end KjAtlas.Py
