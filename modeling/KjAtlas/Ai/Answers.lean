import KjAtlas.Ai.Governance

/-! # Answers

The answers of models are values of any shape. A parser either goes through a
value step by step, where Python raises an exception for a value of another
shape, or it has all of it validated at once.
-/

namespace KjAtlas.Ai

variable {F : Type} (server : Server F)

/-! ## Step by step -/

/-- `json.loads(raw_text)`, whose exceptions are not caught. -/
def loadsUncaught (rawText : Py.Str) : Except Raised (Py.Value F) :=
  (server.loads rawText).mapError .uncaught

/-- `value.get(key)`. -/
def dictGet (value : Py.Value F) (key : String) : Except Raised (Option (Py.Value F)) :=
  match value with
  | .dict members => .ok (Py.member members key)
  | _ => .error (.uncaught "AttributeError")

/-- `value.get(key, value.get(other))`. -/
def dictGetOr (value : Py.Value F) (key other : String) : Except Raised (Option (Py.Value F)) := do
  let second ← dictGet value other
  let first ← dictGet value key
  return first.or second

/-- `str(value)`. -/
def pyStr : Py.Value F → Py.Str
  | .str text => text
  | value => .ofString (server.str value)

/-- `bool(value)`. -/
def pyBool : Py.Value F → Bool
  | .null => false
  | .bool b => b
  | .int n => decide (n ≠ 0)
  | .float x => !(server.runtime.isFinite x && !server.runtime.lt x (server.runtime.ofNat 0) &&
      !server.runtime.lt (server.runtime.ofNat 0) x)
  | .str text => !text.codePoints.isEmpty
  | .list items => !items.isEmpty
  | .dict members => !members.isEmpty

def pyIter : Py.Value F → Except Raised (List (Py.Value F))
  | .list items => .ok items
  | .str text => .ok (text.codePoints.map fun codePoint => .str ⟨[codePoint]⟩)
  | .dict members => .ok (members.map fun member => .str member.1)
  | _ => .error (.uncaught "TypeError")

def fieldText (text : Py.Str) : Except Raised String := found (.uncaught "ValidationError") text.text?

/-- A value as a field of type `str | None`. -/
def optionalText : Option (Py.Value F) → Except Raised (Option String)
  | none => .ok none
  | some .null => .ok none
  | some (.str text) => do
      let text ← fieldText text
      return some text
  | some _ => .error (.uncaught "ValidationError")

/-! ## All at once -/

/-- The detail is a text, with the status 422. -/
def invalid (message : String) : Raised := .http 422 (.text message)

def loadsObject (rawText : Py.Str) : Except Raised (List (Py.Str × Py.Value F)) := do
  let parsed ← (server.loads rawText).mapError fun exception =>
    if exception = "JSONDecodeError" then invalid "LLM response is not valid JSON"
    else .uncaught exception
  match parsed with
  | .dict members => return members
  | _ => .error (invalid "LLM response must be a JSON object")

def textOf : Py.Value F → Option String
  | .str text => text.text?
  | _ => none

def listOf {α : Type} (read : Py.Value F → Option α) : Py.Value F → Option (List α)
  | .list items => items.mapM read
  | _ => none

def objectOf : Py.Value F → Option (List (Py.Str × Py.Value F))
  | .dict members => some members
  | _ => none

/-- A field that may be absent or `None`. -/
def optionalOf {α : Type} (read : Py.Value F → Option α) : Option (Py.Value F) → Option (Option α)
  | none => some none
  | some .null => some none
  | some value => (read value).map some

/-- One of the values of a `Literal`. -/
def choiceOf {α : Type} (choices : List (String × α)) (value : Py.Value F) : Option α :=
  (textOf value).bind fun text => choices.lookup text

/-- `extra="forbid"`. -/
def knownFields (names : List String) (members : List (Py.Str × Py.Value F)) : Option Unit :=
  if members.all fun member => names.any fun name => decide (member.1 = .ofString name) then some ()
  else none

/-- A field that must be there. -/
def required {α : Type} (read : Py.Value F → Option α) (members : List (Py.Str × Py.Value F))
    (name : String) : Option α := (Py.member members name).bind read

/-- A field with the default `None`. -/
def optional {α : Type} (read : Py.Value F → Option α) (members : List (Py.Str × Py.Value F))
    (name : String) : Option (Option α) := optionalOf read (Py.member members name)

end KjAtlas.Ai
