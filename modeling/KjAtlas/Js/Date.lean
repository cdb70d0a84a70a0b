import Mathlib.Data.Int.Basic

/-! # Dates

The reading of dates other than those that `toISOString` writes is left to the
implementation of the language. The model takes it as a parameter.
-/

namespace KjAtlas.Js

/-- `Date.parse`, with `none` for `NaN`, and the text of a date. -/
structure DateFormat where
  parse : String → Option Int
  toISOString : Int → String
  parse_toISOString : ∀ {text : String} {time : Int}, parse text = some time →
    parse (toISOString time) = some time

namespace DateFormat

/-- `typeof value === "string" && Number.isFinite(Date.parse(value))`. -/
def isTimestamp (dates : DateFormat) (text : Option String) : Bool :=
  text.any fun text => (dates.parse text).isSome

def instant (text : String) : DateFormat where
  parse other := if other = text then some 0 else none
  toISOString _ := text
  parse_toISOString := by
    intro other time hparse
    rw [if_pos rfl]
    by_cases hother : other = text
    · rwa [if_pos hother] at hparse
    · rw [if_neg hother] at hparse
      contradiction

end DateFormat

end KjAtlas.Js
