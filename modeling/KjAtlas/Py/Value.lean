import Mathlib.Data.Option.Basic
import Mathlib.Data.List.Basic

/-! # Values of Python

What `json.loads` returns. A text of Python is a sequence of code points, and
surrogates can occur in it alone. Only a text without them is encoded in UTF-8.
-/

namespace KjAtlas.Py

/-! ## Texts -/

inductive CodePoint where
  | scalar (c : Char)
  | surrogate (index : Fin 2048)
deriving DecidableEq

def CodePoint.scalar? : CodePoint → Option Char
  | .scalar c => some c
  | .surrogate _ => none

/-- A text of Python. -/
structure Str where
  codePoints : List CodePoint
deriving DecidableEq

namespace Str

def ofString (text : String) : Str := ⟨text.toList.map .scalar⟩

/-- The text, if no surrogate occurs in it. -/
def text? (value : Str) : Option String :=
  (value.codePoints.mapM CodePoint.scalar?).map String.ofList

/-- `value[:count]`. -/
def take (value : Str) (count : Nat) : Str := ⟨value.codePoints.take count⟩

end Str

/-- A value that `json.loads` returns; `F` is the type of floats. -/
inductive Value (F : Type) where
  | null
  | bool (b : Bool)
  | int (n : Int)
  | float (x : F)
  | str (text : Str)
  | list (items : List (Value F))
  | dict (members : List (Str × Value F))

def member {F : Type} (members : List (Str × Value F)) (key : String) : Option (Value F) :=
  members.lookup (.ofString key)

end KjAtlas.Py
