/-!
# Doubles as ranks

A field of a frame is read and written through double precision arithmetic, and the answers show
every bit of it.  This file gives that arithmetic as definitions that a proof can unfold.

Every finite double is a whole number of *units*, the unit being the least positive double
`2 ^ (-1074)`.  Listing the magnitudes of the finite doubles in increasing order numbers them
`0, 1, 2, …`; that number is the *rank*, and it is also the low 63 bits of the interchange format.
A double is therefore a sign and a rank, with no further condition to keep:

* `units r` — the magnitude of rank `r`, counted in units.
* `nearest neg num den` — the double nearest to `± num / den` units, a tie going to the even rank.
  This is the only place where anything is rounded.
* `add`, `mul`, `div` — the exact result, handed to `nearest`.

`units_strictMono` says that ranks and magnitudes have the same order, and `nearest_units` that a
magnitude which is a double is returned unchanged.
-/

set_option autoImplicit false

namespace Fieldbus

/-- The quotient `num / den`, rounded to the nearest natural number; a tie goes to the even one. -/
def divNearestEven (num den : Nat) : Nat :=
  let q := num / den
  let r := num % den
  if 2 * r < den then q
  else if den < 2 * r then q + 1
  else q + q % 2

/-- A natural number is its own nearest quotient by one denominator. -/
theorem divNearestEven_mul (n : Nat) {den : Nat} (h : 0 < den) :
    divNearestEven (n * den) den = n := by
  simp [divNearestEven, Nat.mul_div_cancel _ h, h]

/-- Double precision numbers.  All NaNs are one value, because no operation here tells them
apart. -/
inductive Binary64 where
  /-- The result of an operation that has none. -/
  | nan
  /-- The infinity of the given sign. -/
  | infinite (neg : Bool)
  /-- The finite double of the given sign and rank; rank zero is the zero of that sign. -/
  | finite (neg : Bool) (rank : Fin (2047 * 0x10000000000000))
deriving DecidableEq, Repr, Inhabited

namespace Binary64

/-! ## Ranks and magnitudes -/

/-- One past the greatest rank of a finite double: the rank the infinities would have. -/
def rankLimit : Nat := 2047 * 0x10000000000000

/-- The number `1` in units. -/
def unitsInOne : Nat := 1 <<< 1074

/-- The magnitude of rank `r` in units.  Below `2 ^ 53` neighbouring ranks are one unit apart, and
the distance doubles with every further `2 ^ 52` ranks. -/
def units (r : Nat) : Nat :=
  if r / 0x10000000000000 = 0 then r
  else (0x10000000000000 + r % 0x10000000000000) <<< (r / 0x10000000000000 - 1)

/-- The next rank has the greater magnitude. -/
theorem units_lt_succ (r : Nat) : units r < units (r + 1) := by
  unfold units
  rw [Nat.shiftLeft_eq, Nat.shiftLeft_eq]
  by_cases h0 : r / 0x10000000000000 = 0
  · by_cases h1 : (r + 1) / 0x10000000000000 = 0
    · rw [if_pos h0, if_pos h1]
      exact Nat.lt_succ_self r
    · have hr : r + 1 = 0x10000000000000 := by omega
      rw [if_pos h0, if_neg h1, hr]
      omega
  · rcases Nat.lt_or_ge (r % 0x10000000000000 + 1) 0x10000000000000 with hlt | hge
    · have hd : (r + 1) / 0x10000000000000 = r / 0x10000000000000 := by omega
      have hm : (r + 1) % 0x10000000000000 = r % 0x10000000000000 + 1 := by omega
      rw [if_neg h0, if_neg (by omega), hd, hm]
      exact Nat.mul_lt_mul_of_pos_right (by omega) (Nat.two_pow_pos _)
    · have hd : (r + 1) / 0x10000000000000 = (r / 0x10000000000000 - 1) + 1 + 1 := by omega
      have hm : (r + 1) % 0x10000000000000 = 0 := by omega
      rw [if_neg h0, if_neg (by omega), hd, hm, Nat.add_sub_cancel, Nat.add_zero,
        Nat.pow_succ, Nat.mul_comm _ 2, ← Nat.mul_assoc]
      exact Nat.mul_lt_mul_of_pos_right (by omega) (Nat.two_pow_pos _)

/-- Ranks and magnitudes have the same order. -/
theorem units_strictMono {r s : Nat} (h : r < s) : units r < units s := by
  induction s with
  | zero => omega
  | succ s ih =>
    rcases Nat.lt_succ_iff_lt_or_eq.1 h with hlt | rfl
    · exact Nat.lt_trans (ih hlt) (units_lt_succ s)
    · exact units_lt_succ _

/-- The double of the given sign and rank; a rank past the finite doubles is the infinity. -/
def ofRank (neg : Bool) (r : Nat) : Binary64 :=
  if h : r < 2047 * 0x10000000000000 then .finite neg ⟨r, h⟩ else .infinite neg

/-! ## Rounding -/

/-- The rank whose magnitude is nearest to `num / den` units; a tie goes to the even rank.  The
quotient is cut to 53 binary digits by dividing by a power of two, and the number of places cut
says how many blocks of `2 ^ 52` ranks lie below. -/
def nearestRank (num den : Nat) : Nat :=
  let cut := Nat.log2 (num / den) - 52
  cut * 0x10000000000000 + divNearestEven num (den <<< cut)

/-- The double nearest to `± num / den` units. -/
def nearest (neg : Bool) (num den : Nat) : Binary64 := ofRank neg (nearestRank num den)

private theorem log2_shiftLeft {m k : Nat} (hlo : 0x10000000000000 ≤ m)
    (hhi : m < 0x20000000000000) : Nat.log2 (m <<< k) = 52 + k := by
  have hne : m <<< k ≠ 0 := by
    rw [Nat.shiftLeft_eq]
    exact Nat.mul_ne_zero (by omega) (Nat.ne_of_gt (Nat.two_pow_pos k))
  rw [Nat.log2_eq_iff hne, Nat.shiftLeft_eq, Nat.pow_add, Nat.add_right_comm, Nat.pow_add]
  exact ⟨Nat.mul_le_mul_right _ hlo, Nat.mul_lt_mul_of_pos_right hhi (Nat.two_pow_pos k)⟩

/-- Rounding returns the rank of a magnitude that is a double. -/
theorem nearestRank_units (r : Nat) : nearestRank (units r) 1 = r := by
  unfold nearestRank
  rw [Nat.div_one]
  by_cases h0 : r / 0x10000000000000 = 0
  · have hu : units r = r := if_pos h0
    have hlog : Nat.log2 r - 52 = 0 := by
      rcases Nat.eq_zero_or_pos r with rfl | hpos
      · exact Nat.log2_zero ▸ rfl
      · have : Nat.log2 r < 53 := (Nat.log2_lt (by omega)).2 (by omega)
        omega
    have h := divNearestEven_mul r Nat.one_pos
    rw [Nat.mul_one] at h
    simp only [hu, hlog, Nat.shiftLeft_zero, h, Nat.zero_mul, Nat.zero_add]
  · have hu : units r = (0x10000000000000 + r % 0x10000000000000)
        <<< (r / 0x10000000000000 - 1) := if_neg h0
    have hlog := @log2_shiftLeft (0x10000000000000 + r % 0x10000000000000)
      (r / 0x10000000000000 - 1) (by omega) (by omega)
    have hcut : Nat.log2 (units r) - 52 = r / 0x10000000000000 - 1 := by rw [hu, hlog]; omega
    simp only [hcut]
    rw [hu, Nat.shiftLeft_eq, Nat.shiftLeft_eq, Nat.one_mul,
      divNearestEven_mul _ (Nat.two_pow_pos _)]
    omega

/-- A magnitude that is a double is returned unchanged. -/
theorem nearest_units (neg : Bool) (r : Nat) : nearest neg (units r) 1 = ofRank neg r := by
  rw [nearest, nearestRank_units]

/-! ## Signs and classes -/

/-- The positive zero. -/
def zero : Binary64 := .finite false ⟨0, by decide⟩

/-- The sign changed; NaN has none. -/
def negate : Binary64 → Binary64
  | nan => nan
  | infinite neg => infinite !neg
  | finite neg r => finite (!neg) r

/-- The sign dropped. -/
def abs : Binary64 → Binary64
  | nan => nan
  | infinite _ => infinite false
  | finite _ r => finite false r

/-- Neither NaN nor an infinity. -/
def isFinite : Binary64 → Bool
  | finite .. => true
  | _ => false

/-- The exact value of a finite double in units, with its sign. -/
def toUnits? : Binary64 → Option Int
  | finite neg r => some (if neg then -(units r : Int) else (units r : Int))
  | _ => none

/-! ## Arithmetic -/

/-- The double nearest to a whole number of units.  A sum of zero is the positive zero; the sign of
two negative zeros is kept by `add`. -/
def ofUnits (n : Int) : Binary64 := nearest (decide (n < 0)) n.natAbs 1

/-- The sum, rounded once. -/
def add : Binary64 → Binary64 → Binary64
  | nan, _ => nan
  | _, nan => nan
  | infinite a, infinite b => if a = b then infinite a else nan
  | infinite a, finite .. => infinite a
  | finite .., infinite b => infinite b
  | finite a r, finite b s =>
    if a = b then nearest a (units r + units s) 1
    else ofUnits ((if a then -(units r : Int) else (units r : Int))
      + (if b then -(units s : Int) else (units s : Int)))

/-- The difference, rounded once. -/
def sub (x y : Binary64) : Binary64 := x.add y.negate

/-- The product, rounded once.  A product of units is counted in `2 ^ (-2148)`, hence the
denominator. -/
def mul : Binary64 → Binary64 → Binary64
  | nan, _ => nan
  | _, nan => nan
  | infinite a, infinite b => infinite (a != b)
  | infinite a, finite b s => if s.val = 0 then nan else infinite (a != b)
  | finite a r, infinite b => if r.val = 0 then nan else infinite (a != b)
  | finite a r, finite b s => nearest (a != b) (units r * units s) unitsInOne

/-- The quotient, rounded once. -/
def div : Binary64 → Binary64 → Binary64
  | nan, _ => nan
  | _, nan => nan
  | infinite _, infinite _ => nan
  | infinite a, finite b _ => infinite (a != b)
  | finite a _, infinite b => ofRank (a != b) 0
  | finite a r, finite b s =>
    if s.val = 0 then if r.val = 0 then nan else infinite (a != b)
    else nearest (a != b) (units r * unitsInOne) (units s)

/-- The value `base ^ n` by repeated squaring, least binary digit of `n` first; every product on the
way is rounded. -/
def powSquaring (acc base : Binary64) (n : Nat) : Binary64 :=
  let acc := if n % 2 = 1 then acc.mul base else acc
  if h : n / 2 = 0 then acc else powSquaring acc (base.mul base) (n / 2)
termination_by n

/-! ## Comparison -/

/-- The order of two doubles, both zeros being equal; nothing compares with NaN. -/
def compare? : Binary64 → Binary64 → Option Ordering
  | nan, _ => none
  | _, nan => none
  | infinite a, infinite b => some (if a = b then .eq else if a then .lt else .gt)
  | infinite a, finite .. => some (if a then .lt else .gt)
  | finite .., infinite b => some (if b then .gt else .lt)
  | finite a r, finite b s =>
    some (compare (if a then -(units r : Int) else (units r : Int))
      (if b then -(units s : Int) else (units s : Int)))

/-- Strictly below. -/
def lt (x y : Binary64) : Bool := compare? x y = some .lt

/-- At least. -/
def ge (x y : Binary64) : Bool := compare? x y = some .gt || compare? x y = some .eq

end Binary64
end Fieldbus
