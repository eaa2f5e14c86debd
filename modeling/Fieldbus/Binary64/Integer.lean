import Fieldbus.Binary64.Basic

/-!
# Doubles and whole numbers

Bytes are whole numbers, so a field is read by turning integers into doubles and written by turning
doubles back into integers.  Both directions are exact wherever they can be:

* `ofInt` rounds once, and `toInt?` of a whole double is that whole number.
* `toIntClamped lo hi` cuts off the fraction and answers with the nearer end of `lo … hi` for
  everything outside; NaN, which lies nowhere, answers `0`.
* `roundHalfAway` is the whole number nearest to a double, a half going away from zero.
-/

set_option autoImplicit false

namespace Fieldbus
namespace Binary64

/-! ## From whole numbers -/

/-- The double nearest to an integer. -/
def ofInt (n : Int) : Binary64 := nearest (decide (n < 0)) (n.natAbs * unitsInOne) 1

/-- The double nearest to a natural number. -/
def ofNat (n : Nat) : Binary64 := nearest false (n * unitsInOne) 1

theorem ofInt_natCast (n : Nat) : ofInt (n : Int) = ofNat n := by
  have h : ¬ (n : Int) < 0 := by omega
  simp [ofInt, ofNat, h]

instance (n : Nat) : OfNat Binary64 n := ⟨ofNat n⟩

/-- One half. -/
def half : Binary64 := nearest false unitsInOne 2

/-- The integral power `base ^ n`, by repeated squaring; a negative power is the reciprocal of the
positive one. -/
def pow (base : Binary64) (n : Int) : Binary64 :=
  let p := powSquaring 1 base n.natAbs
  if n < 0 then (1 : Binary64).div p else p

/-! ## To whole numbers -/

/-- A finite double with its fraction cut off. -/
def toInt? : Binary64 → Option Int
  | finite neg r =>
    let whole : Int := (units r / unitsInOne : Nat)
    some (if neg then -whole else whole)
  | _ => none

/-- The whole part of a double, moved to the nearer end of `lo … hi` when it lies outside; NaN
answers `0`. -/
def toIntClamped (lo hi : Int) : Binary64 → Int
  | nan => 0
  | infinite neg => if neg then lo else hi
  | finite neg r =>
    let whole : Int := (units r / unitsInOne : Nat)
    max lo (min hi (if neg then -whole else whole))

/-- A finite double without a fraction; both zeros are whole. -/
def isWhole : Binary64 → Bool
  | finite _ r => units r % unitsInOne = 0
  | _ => false

/-- Does the magnitude end in exactly one half? -/
def endsInHalf : Binary64 → Bool
  | finite _ r => 2 * (units r % unitsInOne) = unitsInOne
  | _ => false

/-- The nearest whole number, a half going away from zero.  The sign is kept, so a small negative
number becomes the negative zero; NaN and the infinities stay. -/
def roundHalfAway : Binary64 → Binary64
  | finite neg r =>
    nearest neg ((2 * units r + unitsInOne) / (2 * unitsInOne) * unitsInOne) 1
  | x => x

end Binary64
end Fieldbus
