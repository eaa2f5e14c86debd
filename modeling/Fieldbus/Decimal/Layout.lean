import Fieldbus.Decimal.Shortest

/-!
# Two written forms of a double

Both forms write the fewest digits that read back and differ in the rest:

* `plain` — a number for people: always positional, without a fraction when there is none.
* `interchange` — a number in a document: never without a fraction or an exponent, so that it is
  told apart from an integer, and scientific where the positional form would grow long.
-/

set_option autoImplicit false

namespace Fieldbus
namespace Decimal

/-- The significant digits of a decimal. -/
def digitText (d : Decimal) : String := String.ofList (Nat.toDigits 10 d.digits)

/-- A text of `n` zeros. -/
def zeros (n : Nat) : String := String.ofList (List.replicate n '0')

/-- The digits with the point in its place: zeros fill the gap on either side, and `fraction` is
added to a number that has none. -/
def positional (d : Decimal) (fraction : String) : String :=
  let text := (digitText d).toList
  if 0 ≤ d.exponent then String.ofList text ++ zeros d.exponent.toNat ++ fraction
  else
    let places := (-d.exponent).toNat
    if places < text.length then
      String.ofList (text.take (text.length - places)) ++ "."
        ++ String.ofList (text.drop (text.length - places))
    else "0." ++ zeros (places - text.length) ++ String.ofList text

/-- One digit before the point, the rest behind it, and the exponent with its sign. -/
def scientific (d : Decimal) : String :=
  let text := (digitText d).toList
  let exponent := d.exponent + text.length - 1
  let mark := if exponent < 0 then "e-" else "e+"
  match text with
  | first :: [] => String.singleton first ++ mark ++ toString exponent.natAbs
  | first :: rest =>
    String.singleton first ++ "." ++ String.ofList rest ++ mark ++ toString exponent.natAbs
  | [] => ""

end Decimal

namespace Binary64

/-- The sign in front of a number; positive numbers have none. -/
def signText (neg : Bool) : String := if neg then "-" else ""

/-- The plain text of a double: never an exponent, no fraction for whole numbers, and of two equally
near texts the greater magnitude. -/
def plain : Binary64 → String
  | nan => "NaN"
  | infinite neg => signText neg ++ "inf"
  | finite neg r => signText neg ++ (Decimal.shortest .up r).positional ""

/-- The text of a finite double in a document: positional while the leading digit stands from the
fifth decimal place up to the sixteenth place before the point, else scientific; of two equally near
texts the even one. -/
def interchange? : Binary64 → Option String
  | finite neg r =>
    let d := Decimal.shortest .even r
    let leading := d.exponent + Decimal.digitCount d.digits - 1
    some (signText neg
      ++ if -5 ≤ leading ∧ leading < 16 then d.positional ".0" else d.scientific)
  | _ => none

end Binary64
end Fieldbus
