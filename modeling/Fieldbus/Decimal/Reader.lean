import Fieldbus.Binary64.Integer
import Fieldbus.Decimal.Shortest

/-!
# Reading a written number

`Binary64.ofDecimal` rounds a decimal once, to the nearest double.  `Binary64.ofText?` is the number
that a person writes on a command line: an optional sign, then digits with an optional point and an
optional exponent, or the name of an infinity or of NaN in any case of letters.
-/

set_option autoImplicit false

namespace Fieldbus
namespace Binary64

/-- The double nearest to `± digits * 10 ^ exponent`.  A decimal beyond every double, or below half
of the least one, is settled by the place of its leading digit. -/
def ofDecimal (neg : Bool) (d : Decimal) : Binary64 :=
  let leading := d.exponent + Decimal.digitCount d.digits
  if d.digits = 0 ∨ leading < -330 then nearest neg 0 1
  else if 320 < leading then infinite neg
  else if 0 ≤ d.exponent then nearest neg (d.digits * Nat.pow 10 d.exponent.toNat * unitsInOne) 1
  else nearest neg (d.digits * unitsInOne) (Nat.pow 10 (-d.exponent).toNat)

/-- The number a run of decimal digits spells. -/
def digitsValue (cs : List Char) : Nat :=
  cs.foldl (fun n c => n * 10 + (c.toNat - '0'.toNat)) 0

/-- An exponent: nothing, or `e`, an optional sign and at least one digit up to the end. -/
def readExponent? : List Char → Option Int
  | [] => some 0
  | mark :: rest =>
    if mark ≠ 'e' ∧ mark ≠ 'E' then none
    else
      let (neg, digits) := match rest with
        | '-' :: r => (true, r)
        | '+' :: r => (false, r)
        | r => (false, r)
      if digits.isEmpty || !digits.all Char.isDigit then none
      else some (if neg then -(digitsValue digits : Int) else (digitsValue digits : Int))

/-- Digits, an optional point among them, and an exponent; at least one digit stands before the
exponent. -/
def readMagnitude? (neg : Bool) (cs : List Char) : Option Binary64 :=
  let whole := cs.takeWhile Char.isDigit
  let afterWhole := cs.dropWhile Char.isDigit
  let (fraction, rest) := match afterWhole with
    | '.' :: r => (r.takeWhile Char.isDigit, r.dropWhile Char.isDigit)
    | r => ([], r)
  if whole.isEmpty && fraction.isEmpty then none
  else (readExponent? rest).map fun exponent =>
    ofDecimal neg ⟨digitsValue (whole ++ fraction), exponent - fraction.length⟩

/-- The number that a text spells, if it spells one. -/
def ofText? (s : String) : Option Binary64 :=
  let (neg, cs) := match s.toList with
    | '-' :: r => (true, r)
    | '+' :: r => (false, r)
    | r => (false, r)
  match String.ofList (cs.map Char.toLower) with
  | "inf" => some (infinite neg)
  | "infinity" => some (infinite neg)
  | "nan" => some nan
  | _ => readMagnitude? neg cs

end Binary64
end Fieldbus
