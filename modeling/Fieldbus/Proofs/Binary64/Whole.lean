import Fieldbus.Binary64.Integer
import Mathlib.Algebra.Group.Int.Defs
import Mathlib.Algebra.Group.Nat.Defs

/-!
# Whole numbers in double precision

What is computed here is computed with whole numbers, and `nearestWhole` is all that double
precision does to them: it rounds a number to its first 53 binary digits.  This file reduces the
arithmetic of doubles to the arithmetic of natural numbers with that rounding.

* `nearestWhole_eq_self_iff` — which numbers are not changed.  Zeros may be appended and digits may
  be dropped (`nearestWhole_mul_two_pow`, `nearestWhole_div_two_pow`).
* `two_pow_le_nearestWhole`, `nearestWhole_le`, `dvd_nearestWhole` — how far rounding goes.
* `IsNatural` — a double and the natural number that it is.  `IsNatural.add`, `.mul`, `.sub` and
  `.ge_iff` say what becomes of the numbers, and `isNatural_pow_two` that powers of two are exact.
* `toInt?_ofInt`, `nearestWhole_of_isWhole` — integers as doubles and back.

Nothing overflows as long as the numbers stay below `2 ^ 200`.
-/

set_option autoImplicit false

namespace Fieldbus

/-- Numerator and denominator may be multiplied by the same number. -/
theorem divNearestEven_mul_mul (num den : Nat) {d : Nat} (h : 0 < d) :
    divNearestEven (num * d) (den * d) = divNearestEven num den := by
  have hlt : 2 * (num % den * d) < den * d ↔ 2 * (num % den) < den := by
    rw [← Nat.mul_assoc, Nat.mul_lt_mul_right h]
  have hgt : den * d < 2 * (num % den * d) ↔ den < 2 * (num % den) := by
    rw [← Nat.mul_assoc, Nat.mul_lt_mul_right h]
  simp only [divNearestEven, Nat.mul_div_mul_right _ _ h, Nat.mul_mod_mul_right, hlt, hgt]

/-- Rounding goes to a neighbour. -/
theorem le_divNearestEven (num den : Nat) : num / den ≤ divNearestEven num den := by
  unfold divNearestEven
  simp only
  split
  · exact Nat.le_refl _
  · split <;> omega

theorem divNearestEven_le (num den : Nat) : divNearestEven num den ≤ num / den + 1 := by
  unfold divNearestEven
  simp only
  split
  · omega
  · split <;> omega

namespace Binary64

/-- The exponent stands apart, as a variable, so that nobody works out the power. -/
theorem exists_unitsInOne_eq : ∃ k, k = 1074 ∧ unitsInOne = 2 ^ k := by
  refine ⟨_, rfl, ?_⟩
  rw [← Nat.one_shiftLeft]
  rfl

theorem unitsInOne_pos : 0 < unitsInOne := by
  obtain ⟨k, -, hone⟩ := exists_unitsInOne_eq
  rw [hone]
  exact Nat.two_pow_pos k

theorem log2_mul_two_pow {n : Nat} (h : n ≠ 0) (k : Nat) :
    Nat.log2 (n * 2 ^ k) = Nat.log2 n + k := by
  have hne : n * 2 ^ k ≠ 0 := Nat.mul_ne_zero h (Nat.ne_of_gt (Nat.two_pow_pos k))
  obtain ⟨hlo, hhi⟩ := (Nat.log2_eq_iff h).1 rfl
  rw [Nat.log2_eq_iff hne, Nat.pow_add, Nat.add_right_comm, Nat.pow_add]
  exact ⟨Nat.mul_le_mul_right _ hlo, Nat.mul_lt_mul_of_pos_right hhi (Nat.two_pow_pos k)⟩

/-! ## Rounding a whole number

A double has 53 binary digits.  A whole number with more of them is divided by the power of two that
leaves 53, rounded to the nearest quotient, and multiplied again; and if rounding makes it 54
digits, then the last of them is a zero.  What follows is about divisibility by that power of two.
-/

/-- The whole number that the double nearest to `n` is: all but the first 53 binary digits are
rounded away. -/
def nearestWhole (n : Nat) : Nat :=
  divNearestEven n (2 ^ (Nat.log2 n - 52)) * 2 ^ (Nat.log2 n - 52)

theorem dvd_nearestWhole_of_le {n j : Nat} (h : j ≤ Nat.log2 n - 52) : 2 ^ j ∣ nearestWhole n :=
  Nat.dvd_mul_left_of_dvd (Nat.pow_dvd_pow 2 h) _

theorem nearestWhole_of_dvd {n : Nat} (h : 2 ^ (Nat.log2 n - 52) ∣ n) : nearestWhole n = n := by
  obtain ⟨m, hm⟩ := h
  have hpos := Nat.two_pow_pos (Nat.log2 n - 52)
  rw [nearestWhole]
  generalize 2 ^ (Nat.log2 n - 52) = d at hm hpos ⊢
  rw [hm, Nat.mul_comm d m, divNearestEven_mul m hpos]

/-- **A whole number is a double if its binary digits behind the 53rd are zeros**, and only then. -/
theorem nearestWhole_eq_self_iff {n : Nat} : nearestWhole n = n ↔ 2 ^ (Nat.log2 n - 52) ∣ n := by
  refine ⟨fun h => ?_, nearestWhole_of_dvd⟩
  have hdvd := dvd_nearestWhole_of_le (Nat.le_refl (Nat.log2 n - 52))
  rwa [h] at hdvd

/-- Zeros at the end stay. -/
theorem dvd_nearestWhole {n j : Nat} (h : 2 ^ j ∣ n) : 2 ^ j ∣ nearestWhole n := by
  rcases Nat.le_total j (Nat.log2 n - 52) with hle | hge
  · exact dvd_nearestWhole_of_le hle
  · rwa [nearestWhole_of_dvd (Nat.dvd_trans (Nat.pow_dvd_pow 2 hge) h)]

theorem nearestWhole_of_lt {n : Nat} (h : n < 2 ^ 53) : nearestWhole n = n := by
  refine nearestWhole_of_dvd ?_
  rcases Nat.eq_zero_or_pos n with rfl | hpos
  · exact Nat.dvd_zero _
  · have hlog : Nat.log2 n < 53 := (Nat.log2_lt (Nat.ne_of_gt hpos)).2 h
    rw [show Nat.log2 n - 52 = 0 by omega, Nat.pow_zero]
    exact Nat.one_dvd n

theorem nearestWhole_two_pow (j : Nat) : nearestWhole (2 ^ j) = 2 ^ j :=
  nearestWhole_of_dvd (Nat.pow_dvd_pow 2 (by rw [Nat.log2_two_pow]; exact Nat.sub_le j 52))

/-- `2 ^ 53` itself is a double, the number after it is not. -/
theorem nearestWhole_of_le {n : Nat} (h : n ≤ 2 ^ 53) : nearestWhole n = n := by
  rcases Nat.lt_or_eq_of_le h with hlt | rfl
  · exact nearestWhole_of_lt hlt
  · exact nearestWhole_two_pow 53

/-- Zeros may be appended. -/
theorem nearestWhole_mul_two_pow {n : Nat} (h : nearestWhole n = n) (k : Nat) :
    nearestWhole (n * 2 ^ k) = n * 2 ^ k := by
  rcases Nat.eq_zero_or_pos n with rfl | hpos
  · rw [Nat.zero_mul]
    exact h
  · refine nearestWhole_of_dvd ?_
    rw [log2_mul_two_pow (Nat.ne_of_gt hpos)]
    rcases Nat.le_total (Nat.log2 n) 52 with hle | hge
    · exact Nat.dvd_mul_left_of_dvd (Nat.pow_dvd_pow 2 (by omega)) n
    · rw [Nat.sub_add_comm hge, Nat.pow_add]
      exact Nat.mul_dvd_mul_right (nearestWhole_eq_self_iff.1 h) _

/-- Digits may be dropped. -/
theorem nearestWhole_div_two_pow {n : Nat} (h : nearestWhole n = n) (k : Nat) :
    nearestWhole (n / 2 ^ k) = n / 2 ^ k := by
  have hlt : n / 2 ^ k < 2 ^ (Nat.log2 n + 1 - k) := by
    rw [Nat.div_lt_iff_lt_mul (Nat.two_pow_pos k), ← Nat.pow_add]
    exact Nat.lt_of_lt_of_le Nat.lt_log2_self (Nat.pow_le_pow_right (by decide) (by omega))
  rcases Nat.le_total (Nat.log2 n - 52) k with hle | hge
  · refine nearestWhole_of_lt (Nat.lt_of_lt_of_le hlt (Nat.pow_le_pow_right (by decide) ?_))
    omega
  · rcases Nat.eq_zero_or_pos (n / 2 ^ k) with hzero | hpos
    · rw [hzero]
      exact nearestWhole_of_lt (by decide)
    · have hlog := (Nat.log2_lt (Nat.ne_of_gt hpos)).2 hlt
      have hdvd : 2 ^ (Nat.log2 n - 52 - k) ∣ n / 2 ^ k := by
        refine Nat.dvd_div_of_mul_dvd ?_
        rw [← Nat.pow_add, Nat.add_sub_cancel' hge]
        exact nearestWhole_eq_self_iff.1 h
      exact nearestWhole_of_dvd (Nat.dvd_trans (Nat.pow_dvd_pow 2 (by omega)) hdvd)

/-- What is rounded away is less than the number. -/
theorem two_pow_sub_le {n : Nat} (h : n ≠ 0) : 2 ^ (Nat.log2 n - 52) ≤ n :=
  Nat.le_trans (Nat.pow_le_pow_right (by decide) (Nat.sub_le _ 52)) (Nat.log2_self_le h)

/-- A power of two that is not above the number is not above the double. -/
theorem two_pow_le_nearestWhole {n j : Nat} (h : 2 ^ j ≤ n) : 2 ^ j ≤ nearestWhole n := by
  have hne : n ≠ 0 := Nat.ne_of_gt (Nat.lt_of_lt_of_le (Nat.two_pow_pos j) h)
  -- the greater of the two powers divides what is left after cutting
  obtain ⟨i, hj, hcut, hi⟩ : ∃ i, j ≤ i ∧ Nat.log2 n - 52 ≤ i ∧ 2 ^ i ≤ n := by
    rcases Nat.le_total j (Nat.log2 n - 52) with hle | hge
    · exact ⟨_, hle, Nat.le_refl _, two_pow_sub_le hne⟩
    · exact ⟨j, Nat.le_refl j, hge, h⟩
  have hquotient : 2 ^ (i - (Nat.log2 n - 52)) ≤ n / 2 ^ (Nat.log2 n - 52) := by
    rwa [Nat.le_div_iff_mul_le (Nat.two_pow_pos _), ← Nat.pow_add, Nat.sub_add_cancel hcut]
  calc 2 ^ j ≤ 2 ^ i := Nat.pow_le_pow_right (by decide) hj
    _ = 2 ^ (i - (Nat.log2 n - 52)) * 2 ^ (Nat.log2 n - 52) := by
      rw [← Nat.pow_add, Nat.sub_add_cancel hcut]
    _ ≤ nearestWhole n :=
      Nat.mul_le_mul_right _ (Nat.le_trans hquotient (le_divNearestEven n _))

theorem nearestWhole_le (n : Nat) : nearestWhole n ≤ 2 * n := by
  rcases Nat.eq_zero_or_pos n with rfl | hpos
  · exact Nat.le_refl 0
  · have hcut := two_pow_sub_le (Nat.ne_of_gt hpos)
    calc nearestWhole n
        ≤ (n / 2 ^ (Nat.log2 n - 52) + 1) * 2 ^ (Nat.log2 n - 52) :=
          Nat.mul_le_mul_right _ (divNearestEven_le n _)
      _ = n / 2 ^ (Nat.log2 n - 52) * 2 ^ (Nat.log2 n - 52) + 2 ^ (Nat.log2 n - 52) :=
          Nat.succ_mul _ _
      _ ≤ n + n := Nat.add_le_add (Nat.div_mul_le_self n _) hcut
      _ = 2 * n := (Nat.two_mul n).symm

/-! ## Ranks of whole numbers

Finite doubles are counted through from zero upwards, and rounding picks a rank in that count.  The
ranks between two powers of two lie at equal distances, which is why a whole number is rounded there
as `nearestWhole` says. -/

/-- Numerator and denominator may be multiplied by the same number. -/
theorem nearestRank_mul_mul (num den : Nat) {d : Nat} (h : 0 < d) :
    nearestRank (num * d) (den * d) = nearestRank num den := by
  simp only [nearestRank, Nat.mul_div_mul_right _ _ h, Nat.shiftLeft_eq, Nat.mul_right_comm den d,
    divNearestEven_mul_mul _ _ h]

/-- The ranks between two powers of two. -/
theorem units_block {k q : Nat} (hlo : 0x10000000000000 ≤ q) (hhi : q ≤ 0x20000000000000) :
    units (k * 0x10000000000000 + q) = q * 2 ^ k := by
  rcases Nat.lt_or_ge q 0x20000000000000 with hlt | hge
  · have hblock : (k * 0x10000000000000 + q) / 0x10000000000000 = k + 1 := by omega
    have hoffset : 0x10000000000000 + (k * 0x10000000000000 + q) % 0x10000000000000 = q := by omega
    rw [units, hblock, if_neg (Nat.succ_ne_zero k), hoffset, Nat.add_sub_cancel, Nat.shiftLeft_eq]
  · obtain rfl : q = 0x20000000000000 := Nat.le_antisymm hhi hge
    have hblock : (k * 0x10000000000000 + 0x20000000000000) / 0x10000000000000 = k + 2 := by omega
    have hoffset : (k * 0x10000000000000 + 0x20000000000000) % 0x10000000000000 = 0 := by omega
    rw [units, hblock, if_neg (Nat.succ_ne_zero _), hoffset, Nat.shiftLeft_eq,
      show k + 2 - 1 = k + 1 by omega, Nat.pow_succ]
    omega

/-- **Rounding a whole number of ones**: the rank lies in the block of the number, and its magnitude
is the nearest whole number of ones. -/
theorem nearestRank_whole {n : Nat} (h : n ≠ 0) :
    ∃ q, nearestRank (n * unitsInOne) 1 = (Nat.log2 n + 1022) * 0x10000000000000 + q ∧
      0x10000000000000 ≤ q ∧ q ≤ 0x20000000000000 ∧
        q * 2 ^ (Nat.log2 n + 1022) = nearestWhole n * unitsInOne := by
  obtain ⟨k, hk, hone⟩ := exists_unitsInOne_eq
  have hlog : Nat.log2 (n * unitsInOne) = Nat.log2 n + k := by
    rw [hone, log2_mul_two_pow h k]
  have hcut : Nat.log2 (n * unitsInOne) - 52 = Nat.log2 n + 1022 := by omega
  refine ⟨divNearestEven (n * unitsInOne) (2 ^ (Nat.log2 n + 1022)), ?_, ?_⟩
  · simp only [nearestRank, Nat.div_one, hcut, Nat.one_shiftLeft]
  obtain ⟨hlo, hhi⟩ := (Nat.log2_eq_iff h).1 rfl
  generalize hm : Nat.log2 n = m at hlo hhi
  rcases Nat.lt_or_ge m 52 with hsmall | hlarge
  · -- nothing is cut off: the double has room for zeros behind the ones
    have hparts : unitsInOne = 2 ^ (52 - m) * 2 ^ (m + 1022) := by
      rw [hone, ← Nat.pow_add, show 52 - m + (m + 1022) = k by omega]
    have hexact : nearestWhole n = n := nearestWhole_of_lt
      (Nat.lt_of_lt_of_le hhi (Nat.pow_le_pow_right (by decide) (by omega)))
    have hleast : 2 ^ m * 2 ^ (52 - m) = 0x10000000000000 := by
      rw [← Nat.pow_add, Nat.add_sub_cancel' (Nat.le_of_lt hsmall)]
    have hgreatest : 2 ^ (m + 1) * 2 ^ (52 - m) = 0x20000000000000 := by
      rw [← Nat.pow_add, show m + 1 + (52 - m) = 53 by omega]
    rw [hexact, hparts, ← Nat.mul_assoc, divNearestEven_mul _ (Nat.two_pow_pos _)]
    exact ⟨hleast ▸ Nat.mul_le_mul_right _ hlo,
      hgreatest ▸ Nat.mul_le_mul_right _ (Nat.le_of_lt hhi), rfl⟩
  · have hcut : m + 1022 = m - 52 + k := by omega
    have hpos := Nat.two_pow_pos (m - 52)
    have hleast : 0x10000000000000 * 2 ^ (m - 52) = 2 ^ m := by
      rw [show 0x10000000000000 = 2 ^ 52 by rfl, ← Nat.pow_add, Nat.add_sub_cancel' hlarge]
    have hgreatest : 0x20000000000000 * 2 ^ (m - 52) = 2 ^ (m + 1) := by
      rw [show 0x20000000000000 = 2 ^ 53 by rfl, ← Nat.pow_add,
        show 53 + (m - 52) = m + 1 by omega]
    rw [nearestWhole, hm, hcut, Nat.pow_add, ← hone,
      divNearestEven_mul_mul _ _ unitsInOne_pos, Nat.mul_assoc]
    refine ⟨Nat.le_trans ((Nat.le_div_iff_mul_le hpos).2 (hleast ▸ hlo)) (le_divNearestEven _ _),
      Nat.le_trans (divNearestEven_le _ _) ?_, rfl⟩
    exact Nat.succ_le_of_lt ((Nat.div_lt_iff_lt_mul hpos).2 (hgreatest ▸ hhi))

theorem units_nearestRank_whole (n : Nat) :
    units (nearestRank (n * unitsInOne) 1) = nearestWhole n * unitsInOne := by
  rcases Nat.eq_zero_or_pos n with rfl | hpos
  · rw [Nat.zero_mul]
    exact (congrArg units (nearestRank_units 0)).trans (Nat.zero_mul _).symm
  · obtain ⟨q, hrank, hlo, hhi, hq⟩ := nearestRank_whole (Nat.ne_of_gt hpos)
    rw [hrank, units_block hlo hhi, hq]

/-- Whole numbers are far below the infinity; 200 binary digits are more than anybody needs. -/
theorem nearestRank_whole_lt {n : Nat} (h : n < 2 ^ 200) :
    nearestRank (n * unitsInOne) 1 < 2047 * 0x10000000000000 := by
  rcases Nat.eq_zero_or_pos n with rfl | hpos
  · rw [Nat.zero_mul, show nearestRank 0 1 = 0 from nearestRank_units 0]
    decide
  · obtain ⟨q, hrank, -, hhi, -⟩ := nearestRank_whole (Nat.ne_of_gt hpos)
    have hlog := (Nat.log2_lt (Nat.ne_of_gt hpos)).2 h
    omega

/-! ## Natural numbers

From here on nobody looks at ranks or digits.  `IsNatural` relates a double to the number that it
is, and each operation on doubles is the operation on numbers, rounded. -/

/-- The double is the natural number; of the two zeros only the positive one is. -/
def IsNatural (x : Binary64) (n : Nat) : Prop :=
  ∃ r, x = .finite false r ∧ units r = n * unitsInOne

variable {x y : Binary64} {m n : Nat}

theorem isNatural_nearest (h : n < 2 ^ 200) :
    IsNatural (nearest false (n * unitsInOne) 1) (nearestWhole n) :=
  ⟨⟨_, nearestRank_whole_lt h⟩, dif_pos (nearestRank_whole_lt h), units_nearestRank_whole n⟩

theorem isNatural_ofNat (h : n < 2 ^ 200) : IsNatural (ofNat n) (nearestWhole n) :=
  isNatural_nearest h

/-- The double is the natural number if the number is a double. -/
theorem isNatural_ofNat_of_dvd (hdvd : 2 ^ (Nat.log2 n - 52) ∣ n) (h : n < 2 ^ 200) :
    IsNatural (ofNat n) n := by
  have hnearest := isNatural_ofNat h
  rwa [nearestWhole_of_dvd hdvd] at hnearest

theorem isNatural_ofNat_of_le (h : n ≤ 2 ^ 53) : IsNatural (ofNat n) n := by
  have hnearest := isNatural_ofNat (Nat.lt_of_le_of_lt h (by decide))
  rwa [nearestWhole_of_le h] at hnearest

theorem isNatural_ofNat_of_lt (h : n < 2 ^ 53) : IsNatural (ofNat n) n :=
  isNatural_ofNat_of_le (Nat.le_of_lt h)

theorem ofUnits_mul_unitsInOne (v : Int) : ofUnits (v * unitsInOne) = ofInt v := by
  have hpos : (0 : Int) < unitsInOne := Int.natCast_pos.2 unitsInOne_pos
  have hneg : v * unitsInOne < 0 ↔ v < 0 := by
    rw [← Int.not_le, ← Int.not_le, Int.mul_nonneg_iff_of_pos_right hpos]
  rw [ofUnits, ofInt, Int.natAbs_mul, Int.natAbs_natCast, decide_eq_decide.2 hneg]

namespace IsNatural

theorem eq_ofInt (h : x.IsNatural n) : x = ofInt n := by
  obtain ⟨r, rfl, hr⟩ := h
  rw [ofInt_natCast, ofNat, ← hr, nearest_units, ofRank, dif_pos r.isLt]

theorem abs (h : x.IsNatural n) : x.abs = x := by
  obtain ⟨r, rfl, -⟩ := h
  rfl

theorem toUnits? (h : x.IsNatural n) : x.toUnits? = some ((n : Int) * unitsInOne) := by
  obtain ⟨r, rfl, hr⟩ := h
  rw [Binary64.toUnits?, hr, Int.natCast_mul]
  rfl

theorem toInt? (h : x.IsNatural n) : x.toInt? = some (n : Int) := by
  obtain ⟨r, rfl, hr⟩ := h
  rw [Binary64.toInt?, hr, Nat.mul_div_cancel _ unitsInOne_pos]
  rfl

/-- A natural number that is a double is nearest to itself. -/
theorem nearestWhole_eq (h : x.IsNatural n) : nearestWhole n = n := by
  obtain ⟨r, rfl, hr⟩ := h
  have hwhole := units_nearestRank_whole n
  rw [← hr, nearestRank_units, hr] at hwhole
  exact (Nat.eq_of_mul_eq_mul_right unitsInOne_pos hwhole).symm

theorem add (hx : x.IsNatural m) (hy : y.IsNatural n) (h : m + n < 2 ^ 200) :
    (x.add y).IsNatural (nearestWhole (m + n)) := by
  obtain ⟨r, rfl, hr⟩ := hx
  obtain ⟨s, rfl, hs⟩ := hy
  rw [Binary64.add, if_pos rfl, hr, hs, ← Nat.add_mul]
  exact isNatural_nearest h

theorem mul (hx : x.IsNatural m) (hy : y.IsNatural n) (h : m * n < 2 ^ 200) :
    (x.mul y).IsNatural (nearestWhole (m * n)) := by
  obtain ⟨r, rfl, hr⟩ := hx
  obtain ⟨s, rfl, hs⟩ := hy
  have hunits : units r * units s = m * n * unitsInOne * unitsInOne := by
    rw [hr, hs, Nat.mul_mul_mul_comm, Nat.mul_assoc (m * n)]
  have hrank := nearestRank_mul_mul (m * n * unitsInOne) 1 unitsInOne_pos
  rw [Nat.one_mul] at hrank
  rw [Binary64.mul, nearest, hunits, hrank]
  exact isNatural_nearest h

/-- Up to `2 ^ 53` nothing is rounded. -/
theorem add_of_le (hx : x.IsNatural m) (hy : y.IsNatural n) (h : m + n ≤ 2 ^ 53) :
    (x.add y).IsNatural (m + n) := by
  have hsum := hx.add hy (Nat.lt_of_le_of_lt h (by decide))
  rwa [nearestWhole_of_le h] at hsum

theorem mul_of_le (hx : x.IsNatural m) (hy : y.IsNatural n) (h : m * n ≤ 2 ^ 53) :
    (x.mul y).IsNatural (m * n) := by
  have hproduct := hx.mul hy (Nat.lt_of_le_of_lt h (by decide))
  rwa [nearestWhole_of_le h] at hproduct

/-- A difference is rounded like any other whole number. -/
theorem sub (hx : x.IsNatural m) (hy : y.IsNatural n) : x.sub y = ofInt (m - n) := by
  obtain ⟨r, rfl, hr⟩ := hx
  obtain ⟨s, rfl, hs⟩ := hy
  have hunits : (units r : Int) + -(units s : Int) = ((m : Int) - n) * unitsInOne := by
    rw [hr, hs, Int.natCast_mul, Int.natCast_mul, Int.sub_mul, Int.sub_eq_add_neg]
  rw [Binary64.sub, negate, Binary64.add, if_neg (by decide)]
  simp only [Bool.not_false, Bool.false_eq_true, if_false, if_true]
  rw [hunits, ofUnits_mul_unitsInOne]

theorem ge_iff (hx : x.IsNatural m) (hy : y.IsNatural n) : x.ge y = true ↔ n ≤ m := by
  obtain ⟨r, rfl, hr⟩ := hx
  obtain ⟨s, rfl, hs⟩ := hy
  have hle : (units s : Int) ≤ units r ↔ n ≤ m := by
    rw [Int.ofNat_le, hr, hs, Nat.mul_le_mul_right_iff unitsInOne_pos]
  rw [← hle, ge, compare?]
  simp only [Bool.false_eq_true, if_false, Bool.or_eq_true, decide_eq_true_eq, Option.some.injEq,
    Int.compare_eq_gt, Int.compare_eq_eq]
  omega

end IsNatural

/-! ## Integers -/

theorem toInt?_ofInt {v : Int} (h : v.natAbs < 2 ^ 200) :
    (ofInt v).toInt? =
      some (if v < 0 then -(nearestWhole v.natAbs : Int) else (nearestWhole v.natAbs : Int)) := by
  rw [ofInt, nearest, ofRank, dif_pos (nearestRank_whole_lt h), toInt?]
  simp only [units_nearestRank_whole, Nat.mul_div_cancel _ unitsInOne_pos, decide_eq_true_eq]

/-- An integer that is a double is rounded to itself. -/
theorem toInt?_ofInt_of_exact {v : Int} (h : v.natAbs < 2 ^ 200)
    (hexact : nearestWhole v.natAbs = v.natAbs) : (ofInt v).toInt? = some v := by
  rw [toInt?_ofInt h, hexact, Option.some.injEq]
  split <;> omega

theorem isWhole_ofInt {v : Int} (h : v.natAbs < 2 ^ 200) : (ofInt v).isWhole = true := by
  rw [ofInt, nearest, ofRank, dif_pos (nearestRank_whole_lt h), isWhole]
  simp only [units_nearestRank_whole, Nat.mul_mod_left, decide_true]

theorem isFinite_ofInt {v : Int} (h : v.natAbs < 2 ^ 200) : (ofInt v).isFinite = true := by
  rw [ofInt, nearest, ofRank, dif_pos (nearestRank_whole_lt h)]
  rfl

/-- Integers that are rounded to the same double have the same nearest whole number. -/
theorem nearestWhole_eq_of_ofInt_eq {v w : Int} (hv : v.natAbs < 2 ^ 200) (hw : w.natAbs < 2 ^ 200)
    (h : ofInt v = ofInt w) : nearestWhole v.natAbs = nearestWhole w.natAbs := by
  have hvalues := congrArg toInt? h
  rw [toInt?_ofInt hv, toInt?_ofInt hw, Option.some.injEq] at hvalues
  split at hvalues <;> split at hvalues <;> omega

/-- Zeros at the end of an integer are zeros of every double it is rounded to. -/
theorem two_pow_dvd_of_ofInt_eq {v w : Int} {j : Nat} (hv : v.natAbs < 2 ^ 200)
    (hw : w.natAbs < 2 ^ 200) (hexact : nearestWhole w.natAbs = w.natAbs) (h : ofInt v = ofInt w)
    (hdvd : 2 ^ j ∣ v) : 2 ^ j ∣ w := by
  have hcast : ((2 ^ j : Nat) : Int) = 2 ^ j := Int.natCast_pow 2 j
  rw [← hcast, Int.ofNat_dvd_left] at hdvd ⊢
  rw [← hexact, ← nearestWhole_eq_of_ofInt_eq hv hw h]
  exact dvd_nearestWhole hdvd

/-- A double that is an integer is whole, and nothing is lost when its fraction is cut off. -/
theorem toUnits?_eq_some_iff {v : Int} :
    x.toUnits? = some (v * unitsInOne) ↔ x.isWhole = true ∧ x.toInt? = some v := by
  cases x with
  | nan => simp [toUnits?, isWhole]
  | infinite neg => simp [toUnits?, isWhole]
  | finite neg r =>
    have hone : (unitsInOne : Int) ≠ 0 := Int.natCast_ne_zero.2 (Nat.ne_of_gt unitsInOne_pos)
    have hunits (w : Int) : (units r : Int) = w * unitsInOne ↔
        units r % unitsInOne = 0 ∧ ((units r / unitsInOne : Nat) : Int) = w := by
      refine ⟨fun h => ⟨?_, ?_⟩, ?_⟩
      · rw [← Int.natCast_eq_zero, Int.natCast_emod, h, Int.mul_emod_left]
      · rw [Int.natCast_ediv, h, Int.mul_ediv_cancel w hone]
      · rintro ⟨hmod, hw⟩
        rw [← hw, ← Int.natCast_mul, Nat.div_mul_cancel (Nat.dvd_of_mod_eq_zero hmod)]
    simp only [toUnits?, isWhole, toInt?, Option.some.injEq, decide_eq_true_eq]
    cases neg with
    | false => exact hunits v
    | true =>
      have hneg := hunits (-v)
      rw [Int.neg_mul] at hneg
      simp only [if_true]
      omega

/-- A double without a fraction is nearest to its own value. -/
theorem nearestWhole_of_isWhole {v : Int} (hwhole : x.isWhole = true) (hv : x.toInt? = some v) :
    nearestWhole v.natAbs = v.natAbs := by
  cases x with
  | nan => cases hv
  | infinite neg => cases hv
  | finite neg r =>
    have hdvd : unitsInOne ∣ units r := Nat.dvd_of_mod_eq_zero (of_decide_eq_true hwhole)
    have habs : v.natAbs = units r / unitsInOne := by
      rw [← Option.some.inj hv]
      split
      · rw [Int.natAbs_neg, Int.natAbs_natCast]
      · rw [Int.natAbs_natCast]
    have hr : units r = v.natAbs * unitsInOne := by
      rw [habs, Nat.div_mul_cancel hdvd]
    have hwhole := units_nearestRank_whole v.natAbs
    rw [← hr, nearestRank_units, hr] at hwhole
    exact (Nat.eq_of_mul_eq_mul_right unitsInOne_pos hwhole).symm

theorem toIntClamped_of_toInt? {v : Int} (hv : x.toInt? = some v) (lo hi : Int) :
    x.toIntClamped lo hi = max lo (min hi v) := by
  cases x with
  | nan => cases hv
  | infinite neg => cases hv
  | finite neg r =>
    cases hv
    rfl

/-! ## Powers of two -/

theorem isNatural_two_pow {j : Nat} (h : j < 200) : IsNatural (ofNat (2 ^ j)) (2 ^ j) :=
  isNatural_ofNat_of_dvd (Nat.pow_dvd_pow 2 (by rw [Nat.log2_two_pow]; exact Nat.sub_le j 52))
    (Nat.pow_lt_pow_right (by decide) h)

theorem IsNatural.mul_two_pow {a b : Nat} (hx : x.IsNatural (2 ^ a)) (hy : y.IsNatural (2 ^ b))
    (h : a + b < 200) : (x.mul y).IsNatural (2 ^ (a + b)) := by
  have hlt : 2 ^ a * 2 ^ b < 2 ^ 200 := by
    rw [← Nat.pow_add]
    exact Nat.pow_lt_pow_right (by decide) h
  have hmul := hx.mul hy hlt
  rwa [← Nat.pow_add, nearestWhole_two_pow] at hmul

theorem isNatural_powSquaring {acc base : Binary64} {a b n : Nat} (hacc : acc.IsNatural (2 ^ a))
    (hbase : base.IsNatural (2 ^ b)) (h : a + b * n < 200) :
    (powSquaring acc base n).IsNatural (2 ^ (a + b * n)) := by
  -- by induction on the exponent, which is halved; both factors stay powers of two
  induction n using Nat.strongRecOn generalizing acc base a b with
  | ind n ih =>
    have hsplit : b * n = b * (n % 2) + (b + b) * (n / 2) := by
      rw [← Nat.two_mul, Nat.mul_comm 2 b, Nat.mul_assoc, ← Nat.mul_add, Nat.mod_add_div]
    have hacc' : (if n % 2 = 1 then acc.mul base else acc).IsNatural (2 ^ (a + b * (n % 2))) := by
      split
      · rename_i hodd
        rw [hodd, Nat.mul_one] at hsplit ⊢
        exact hacc.mul_two_pow hbase (by omega)
      · rename_i heven
        rwa [show n % 2 = 0 by omega, Nat.mul_zero, Nat.add_zero]
    rw [powSquaring]
    split
    · rename_i hhalf
      rwa [hsplit, hhalf, Nat.mul_zero, Nat.add_zero]
    · rename_i hhalf
      have hdouble : b + b ≤ (b + b) * (n / 2) :=
        Nat.le_mul_of_pos_right _ (Nat.pos_of_ne_zero hhalf)
      have hrest := ih (n / 2) (by omega) hacc' (hbase.mul_two_pow hbase (by omega)) (by omega)
      rwa [Nat.add_assoc, ← hsplit] at hrest

/-- A power of two is exact. -/
theorem isNatural_pow_two {n : Nat} (h : n < 200) : (pow 2 n).IsNatural (2 ^ n) := by
  have hone : IsNatural 1 (2 ^ 0) := isNatural_two_pow (j := 0) (by decide)
  have htwo : IsNatural 2 (2 ^ 1) := isNatural_two_pow (j := 1) (by decide)
  have hpow := isNatural_powSquaring hone htwo (n := n) (by omega)
  rw [Nat.zero_add, Nat.one_mul] at hpow
  rwa [pow, if_neg (Int.not_lt.2 (Int.natCast_nonneg n)), Int.natAbs_natCast]

end Binary64
end Fieldbus
