import Fieldbus.Json.Value

/-!
# Reading the numbers of a document

A number is read in one pass over its digits.  They are gathered into a significand below `2 ^ 64`;
once the next digit would not fit, all further digits only count as places.  A number without point
and exponent is an integer when it lies in the range of integers; the negative zero is not an
integer.  Everything else is a double: the significand, rounded, times or divided by a power of ten,
rounded again.  A number too great for a double is refused.
-/

set_option autoImplicit false

namespace Fieldbus
namespace Json

/-- The significand stays below this bound, `2 ^ 64`. -/
def significandLimit : Nat := 0x10000000000000000

/-- Digits gathered into a significand while it stays below the limit: the significand, how many
digits it took, and the text behind them. -/
def gatherDigits (significand taken : Nat) : List Char → Nat × Nat × List Char
  | [] => (significand, taken, [])
  | c :: rest =>
    let next := significand * 10 + (c.toNat - '0'.toNat)
    if c.isDigit && next < significandLimit then gatherDigits next (taken + 1) rest
    else (significand, taken, c :: rest)

/-- Does the text begin with a decimal digit? -/
def startsWithDigit : List Char → Bool
  | c :: _ => c.isDigit
  | [] => false

/-- A double times `10 ^ exponent`, for an exponent of any size: the powers of ten up to `10 ^ 308`
are doubles, and a smaller number is divided by the last of them as often as needed.  Too great a
result is refused. -/
def scaleByTen (x : Binary64) (exponent : Int) : Option Binary64 :=
  if exponent.natAbs ≤ 308 then
    if 0 ≤ exponent then
      let y := x.mul (Binary64.ofNat (Nat.pow 10 exponent.natAbs))
      if y.isFinite then some y else none
    else some (x.div (Binary64.ofNat (Nat.pow 10 exponent.natAbs)))
  else if x = Binary64.zero then some x
  else if 0 ≤ exponent then none
  else scaleByTen (x.div (Binary64.ofNat (Nat.pow 10 308))) (exponent + 308)
termination_by exponent.natAbs
decreasing_by omega

/-- The double of the given sign, significand and decimal exponent. -/
def realOfParts (neg : Bool) (significand : Nat) (exponent : Int) : Option Binary64 :=
  (scaleByTen (Binary64.ofNat significand) exponent).map fun x => if neg then x.negate else x

/-- The greatest exponent that is read as a number; a greater one only has a sign. -/
def exponentLimit : Nat := 0x80000000

/-- The exponent of a number, the text standing behind its `e`. -/
def readExponent (neg : Bool) (significand : Nat) (places : Int) (text : List Char) :
    Option (JsonNumber × List Char) :=
  let (down, digits) := match text with
    | '-' :: rest => (true, rest)
    | '+' :: rest => (false, rest)
    | rest => (false, rest)
  if !startsWithDigit digits then none
  else
    let spelled := digits.takeWhile Char.isDigit
    let rest := digits.dropWhile Char.isDigit
    let size := spelled.foldl (fun n c => n * 10 + (c.toNat - '0'.toNat)) 0
    if exponentLimit ≤ size then
      if significand ≠ 0 ∧ !down then none
      else some (.real (if neg then Binary64.zero.negate else Binary64.zero), rest)
    else
      let exponent := if down then places - size else places + size
      (realOfParts neg significand exponent).map fun x => (.real x, rest)

/-- What follows the digits of a number that is no integer: an exponent or nothing. -/
def readScale (neg : Bool) (significand : Nat) (places : Int) (text : List Char) :
    Option (JsonNumber × List Char) :=
  match text with
  | 'e' :: rest => readExponent neg significand places rest
  | 'E' :: rest => readExponent neg significand places rest
  | rest => (realOfParts neg significand places).map fun x => (.real x, rest)

/-- The fraction of a number, the text standing behind its point. -/
def readFraction (neg : Bool) (significand : Nat) (places : Int) (text : List Char) :
    Option (JsonNumber × List Char) :=
  if !startsWithDigit text then none
  else
    let (significand, taken, rest) := gatherDigits significand 0 text
    readScale neg significand (places - taken) (rest.dropWhile Char.isDigit)

/-- A number without point and exponent, whose digits all fit into the significand. -/
def integerNumber (neg : Bool) (significand : Nat) : JsonNumber :=
  if !neg then .integer significand
  else if significand = 0 ∨ 0x8000000000000000 < significand then
    .real (Binary64.ofNat significand).negate
  else .integer (-significand)

/-- A number, its sign already read. -/
def readUnsigned (neg : Bool) (text : List Char) : Option (JsonNumber × List Char) :=
  if !startsWithDigit text then none
  else if text.head? = some '0' ∧ startsWithDigit text.tail then none
  else
    let (significand, _, rest) := gatherDigits 0 0 text
    let dropped := rest.takeWhile Char.isDigit
    match rest.dropWhile Char.isDigit with
    | '.' :: rest => readFraction neg significand dropped.length rest
    | 'e' :: rest => readExponent neg significand dropped.length rest
    | 'E' :: rest => readExponent neg significand dropped.length rest
    | rest =>
      if dropped.isEmpty then some (integerNumber neg significand, rest)
      else (realOfParts neg significand dropped.length).map fun x => (.real x, rest)

/-- A number at the head of a text, and the text behind it. -/
def readNumber : List Char → Option (JsonNumber × List Char)
  | '-' :: rest => readUnsigned true rest
  | text => readUnsigned false text

end Json
end Fieldbus
