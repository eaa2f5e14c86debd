import Fieldbus.Binary64.Basic

/-!
# The fewest digits that read back

A double is written with as few significant digits as still name it among all doubles.  The
decimals that name it form an interval: from half way to the rank below to half way to the rank
above, the two ends included exactly when the rank is even, because reading rounds a tie to the
even rank.

On the grid of decimals with `n` significant digits the only points worth testing are the two
neighbours of the value.  `shortest` tests them for `n = 1, 2, …` and takes the first grid with a
point in the interval; of two such points the nearer one, and `Tie` settles an exact tie.
-/

set_option autoImplicit false

namespace Fieldbus

/-- The decimal number `digits * 10 ^ exponent`. -/
structure Decimal where
  digits : Nat
  exponent : Int
deriving DecidableEq, Repr

namespace Decimal

/-- Which of two equally near decimals is written. -/
inductive Tie where
  /-- The greater one. -/
  | up
  /-- The one whose last digit is even. -/
  | even
deriving DecidableEq, Repr

/-- How many decimal digits a natural number has; zero has one. -/
def digitCount (n : Nat) : Nat := (Nat.toDigits 10 n).length

/-- The exponent of the leading decimal digit of `num / den`, for a positive quotient. -/
def leadingExponent (num den : Nat) : Int :=
  if den ≤ num then (digitCount (num / den) : Int) - 1
  else
    -- The least `k` with `den ≤ num * 10 ^ k`, negated.
    -(digitCount ((den - 1) / num) : Int)

/-- The decimals that read as rank `r`, in half units: from half way to the rank below to half way
to the rank above.  The ends belong to it when the rank is even. -/
structure ReadInterval where
  low : Nat
  high : Nat
  closed : Bool

/-- The interval of rank `r`. -/
def readInterval (r : Nat) : ReadInterval where
  low := Binary64.units (r - 1) + Binary64.units r
  high := Binary64.units r + Binary64.units (r + 1)
  closed := r % 2 = 0

/-- Does `num / den` half units lie in the interval? -/
def ReadInterval.contains (i : ReadInterval) (num den : Nat) : Bool :=
  if i.closed then i.low * den ≤ num && num ≤ i.high * den
  else i.low * den < num && num < i.high * den

/-- Half units in one. -/
def halfUnitsInOne : Nat := 2 * Binary64.unitsInOne

/-- The point of the grid `10 ^ exponent` that names rank `r`, if the grid has one: the nearer of
the value's two neighbours, among those that read back. -/
def onGrid (tie : Tie) (r : Nat) (exponent : Int) : Option Decimal :=
  let interval := readInterval r
  let value := 2 * Binary64.units r
  -- One step of the grid is `step / den` half units.
  let step := if 0 ≤ exponent then Nat.pow 10 exponent.toNat * halfUnitsInOne else halfUnitsInOne
  let den := if 0 ≤ exponent then 1 else Nat.pow 10 (-exponent).toNat
  let below := value * den / step
  let rest := value * den % step
  let lowFits := interval.contains (below * step) den
  let highFits := interval.contains ((below + 1) * step) den
  let takeHigh := highFits && (!lowFits || step < 2 * rest
    || (2 * rest == step && (tie == .up || below % 2 == 1)))
  if takeHigh then some ⟨below + 1, exponent⟩
  else if lowFits then some ⟨below, exponent⟩
  else none

/-- Trailing zeros moved into the exponent. -/
def trim (d : Decimal) : Decimal :=
  if h : d.digits ≠ 0 ∧ d.digits % 10 = 0 then trim ⟨d.digits / 10, d.exponent + 1⟩ else d
termination_by d.digits
decreasing_by exact Nat.div_lt_self (Nat.pos_of_ne_zero h.1) (by decide)

/-- The first of the grids `exponent, exponent - 1, …` with a point that reads back. -/
def onFirstGrid (tie : Tie) (r : Nat) : Nat → Int → Decimal
  | 0, exponent => ⟨0, exponent⟩
  | n + 1, exponent => (onGrid tie r exponent).getD (onFirstGrid tie r n (exponent - 1))

/-- The decimal with the fewest digits that reads as rank `r`.  Seventeen digits always suffice. -/
def shortest (tie : Tie) (r : Nat) : Decimal :=
  if r = 0 then ⟨0, 0⟩
  else (onFirstGrid tie r 17 (leadingExponent (Binary64.units r) Binary64.unitsInOne)).trim

end Decimal
end Fieldbus
