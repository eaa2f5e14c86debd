import Fieldbus.Decimal.Layout
import Fieldbus.Json.Value

/-!
# Values

What an application reads from a field or writes to one: a number or a text.
-/

set_option autoImplicit false

namespace Fieldbus

/-- The value of a field. -/
inductive Value where
  | number (value : Binary64)
  | text (value : String)
deriving DecidableEq, Repr

namespace Value

/-- A value as it is shown. -/
def display : Value → String
  | number x => x.plain
  | text s => s

/-- Whole numbers below this magnitude become integers of a document. -/
def integerBound : Int := 0x8000000000000000

/-- A number as part of a document: a whole number below the bound becomes an integer, so the
negative zero becomes `0`; NaN and the infinities become `null`. -/
def numberToJson (x : Binary64) : Json :=
  match x.toInt? with
  | some n =>
    if x.isWhole ∧ -integerBound < n ∧ n < integerBound then .int n else .real x
  | none => .null

/-- A value as part of a document. -/
def toJson : Value → Json
  | number x => numberToJson x
  | text s => .string s

/-- A value read from a document, if the document is a number or a string. -/
def ofJson? : Json → Option Value
  | .number n => some (number n.toBinary64)
  | .string s => some (text s)
  | _ => none

end Value
end Fieldbus
