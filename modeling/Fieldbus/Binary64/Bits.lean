import Fieldbus.Binary64.Basic

/-!
# The interchange format

A double travels as 64 bits: the sign above the rank of its magnitude.  The rank that follows the
finite doubles stands for the infinity, and every pattern beyond it is a NaN.
-/

set_option autoImplicit false

namespace Fieldbus
namespace Binary64

/-- The double that 64 bits stand for. -/
def ofBits (bits : UInt64) : Binary64 :=
  let neg := decide (0x8000000000000000 ≤ bits.toNat)
  let r := bits.toNat % 0x8000000000000000
  if r ≤ rankLimit then ofRank neg r else nan

/-- The bits of a double; NaN is written as the quiet NaN without payload. -/
def toBits : Binary64 → UInt64
  | nan => 0x7ff8000000000000
  | infinite neg => UInt64.ofNat ((if neg then 0x8000000000000000 else 0) + rankLimit)
  | finite neg r => UInt64.ofNat ((if neg then 0x8000000000000000 else 0) + r.val)

/-- Writing a double and reading it back gives the same double. -/
theorem ofBits_toBits (x : Binary64) : ofBits (toBits x) = x := by
  cases x with
  | nan => decide
  | infinite neg => cases neg <;> decide
  | finite neg r =>
    obtain ⟨r, hr⟩ := r
    have hle : r ≤ rankLimit := Nat.le_of_lt hr
    cases neg
    · have hm : (0 + r) % 0x10000000000000000 = r := by omega
      have hn : ¬ 0x8000000000000000 ≤ r := by omega
      have hr63 : r % 0x8000000000000000 = r := by omega
      simp only [ofBits, toBits, UInt64.toNat_ofNat', Bool.false_eq_true, if_false, hm, hr63,
        if_pos hle, ofRank, dif_pos hr, hn, decide_false]
    · have hm : (0x8000000000000000 + r) % 0x10000000000000000 = 0x8000000000000000 + r := by omega
      have hn : 0x8000000000000000 ≤ 0x8000000000000000 + r := by omega
      have hr63 : (0x8000000000000000 + r) % 0x8000000000000000 = r := by omega
      simp only [ofBits, toBits, UInt64.toNat_ofNat', if_true, hm, hr63,
        if_pos hle, ofRank, dif_pos hr, hn, decide_true]

end Binary64
end Fieldbus
