import Fieldbus.Field.Encode
import Fieldbus.Proofs.Binary64.Whole
import Mathlib.Data.List.Induction
import Mathlib.Tactic.LinearCombination

/-!
# Whole numbers in fields

A whole number is packed as an integer, but it is read in double precision, and rounded after every
byte.  So a field is wider than what can be read from it exactly: this file says which numbers are
read as they were written.

* `natOfBytes` — the bytes as digits.  What is packed is the integer modulo the range of the field
  (`natOfBytes_packInteger`).
* `roundedOfBytes` — what double precision makes of the same digits (`isNatural_decodeUnsigned`).
  It is the same number whenever that number is a double (`roundedOfBytes_eq`).
* `roundedInteger` — the integer that is read in the end (`decodeInteger_eq`).
* `EncodingSchema.decode_encode_integer` — the main theorem.

A negative number is packed as its complement, which is large, and large doubles are far apart.
Minus one is a double, but its complement in eight bytes, `2 ^ 64 - 1`, is not.

## How it is proved

Writing and reading meet in the bytes, and there everything is about natural numbers.  What is
written are the digits of the integer modulo `256 ^ length`.  What is read are the same digits,
gathered with a rounding after each, and then, if the field is signed and the number lies in the
upper half, less the range.

If the number that the digits denote is a double then so is every number on the way to it, which has
fewer digits, and nothing is rounded.  If it is not, then it is the complement of a negative number,
and what is read has lost its low digits.  Modulo a power of two the complement is the number
itself, so these are digits of the number, and not all of them are zeros; what is read is another
number.  This is why the condition in the theorem is about divisibility by a power of two, and why
it is exact.
-/

set_option autoImplicit false

namespace Fieldbus

open Binary64 (nearestWhole)

/-! ## Bytes as digits -/

/-- The number whose digits to the base 256 are the bytes, most significant byte first. -/
def natOfBytes (bytes : Bytes) : Nat := bytes.foldl (fun n b => 256 * n + b.toNat) 0

theorem natOfBytes_concat (bytes : Bytes) (b : UInt8) :
    natOfBytes (bytes ++ [b]) = 256 * natOfBytes bytes + b.toNat := by
  rw [natOfBytes, List.foldl_append]
  rfl

/-! ## Reading

A byte is appended by multiplying with 256 and adding, in double precision.  The product is exact,
so there is one rounding for each byte.  Nothing is lost while the number gathered so far is a
double; the low digits that a rounding takes away do not come back. -/

/-- The number that is read: it is rounded after every byte. -/
def roundedOfBytes (bytes : Bytes) : Nat :=
  bytes.foldl (fun n b => nearestWhole (256 * n + b.toNat)) 0

theorem roundedOfBytes_concat (bytes : Bytes) (b : UInt8) :
    roundedOfBytes (bytes ++ [b]) = nearestWhole (256 * roundedOfBytes bytes + b.toNat) := by
  rw [roundedOfBytes, List.foldl_append]
  rfl

/-- A number that is a double is read without rounding. -/
theorem roundedOfBytes_eq {bytes : Bytes} (h : nearestWhole (natOfBytes bytes) = natOfBytes bytes) :
    roundedOfBytes bytes = natOfBytes bytes := by
  induction bytes using List.reverseRecOn with
  | nil => rfl
  | append_singleton rest b ih =>
    rw [natOfBytes_concat] at h ⊢
    have hrest : (256 * natOfBytes rest + b.toNat) / 2 ^ 8 = natOfBytes rest := by
      have hb := b.toNat_lt
      omega
    have hexact := Binary64.nearestWhole_div_two_pow h 8
    rw [hrest] at hexact
    rw [roundedOfBytes_concat, ih hexact, h]

/-- Before the last rounding a power of two is not lost. -/
theorem two_pow_le_of_concat {bytes : Bytes} {b : UInt8} {j : Nat}
    (h : 2 ^ j ≤ natOfBytes (bytes ++ [b])) : 2 ^ j ≤ 256 * roundedOfBytes bytes + b.toNat := by
  induction bytes using List.reverseRecOn generalizing b j with
  | nil => exact h
  | append_singleton rest c ih =>
    rw [natOfBytes_concat] at h
    have hb : b.toNat < 256 := b.toNat_lt
    rw [roundedOfBytes_concat]
    rcases Nat.lt_or_ge j 8 with hlt | hge
    · have hj : 2 ^ j ≤ 2 ^ 7 := Nat.pow_le_pow_right (by decide) (by omega)
      rcases Nat.eq_zero_or_pos (natOfBytes (rest ++ [c])) with hzero | hpos
      · omega
      · have hrest := Binary64.two_pow_le_nearestWhole (ih (j := 0) hpos)
        omega
    · have hj : 2 ^ j = 2 ^ (j - 8) * 256 := by
        rw [show 256 = 2 ^ 8 from rfl, ← Nat.pow_add, Nat.sub_add_cancel hge]
      have hlarge : 2 ^ (j - 8) ≤ natOfBytes (rest ++ [c]) := by omega
      have hrest := Binary64.two_pow_le_nearestWhole (ih hlarge)
      omega

/-- Of a large number the low digits are rounded away. -/
theorem dvd_roundedOfBytes {bytes : Bytes} {j : Nat} (h : 2 ^ j ≤ natOfBytes bytes) :
    2 ^ (j - 52) ∣ roundedOfBytes bytes := by
  rcases List.eq_nil_or_concat bytes with rfl | ⟨rest, b, rfl⟩
  · exact Nat.dvd_zero _
  · rw [List.concat_eq_append] at h ⊢
    have hle := two_pow_le_of_concat h
    rw [roundedOfBytes_concat]
    have hne := Nat.ne_of_gt (Nat.lt_of_lt_of_le (Nat.two_pow_pos j) hle)
    exact Binary64.dvd_nearestWhole_of_le (Nat.sub_le_sub_right ((Nat.le_log2 hne).2 hle) 52)

theorem two_pow_le_roundedOfBytes {bytes : Bytes} {j : Nat} (h : 2 ^ j ≤ natOfBytes bytes) :
    2 ^ j ≤ roundedOfBytes bytes := by
  rcases List.eq_nil_or_concat bytes with rfl | ⟨rest, b, rfl⟩
  · exact h
  · rw [List.concat_eq_append] at h ⊢
    rw [roundedOfBytes_concat]
    exact Binary64.two_pow_le_nearestWhole (two_pow_le_of_concat h)

theorem roundedOfBytes_lt (bytes : Bytes) : roundedOfBytes bytes < 2 ^ (10 * bytes.length) := by
  induction bytes using List.reverseRecOn with
  | nil => exact Nat.one_pos
  | append_singleton rest b ih =>
    have hb := b.toNat_lt
    have hle := Binary64.nearestWhole_le (256 * roundedOfBytes rest + b.toNat)
    rw [roundedOfBytes_concat, List.length_append, List.length_singleton, Nat.mul_add, Nat.pow_add]
    omega

/-- **What is read from the bytes**, as long as there are not absurdly many. -/
theorem isNatural_decodeUnsigned {bytes : Bytes} (h : bytes.length ≤ 16) :
    (decodeUnsigned bytes).IsNatural (roundedOfBytes bytes) := by
  induction bytes using List.reverseRecOn with
  | nil => exact Binary64.isNatural_ofNat (n := 0) (by decide)
  | append_singleton rest b ih =>
    rw [List.length_append, List.length_singleton] at h
    have hrest := ih (by omega)
    have hlt : roundedOfBytes rest < 2 ^ 150 := Nat.lt_of_lt_of_le (roundedOfBytes_lt rest)
      (Nat.pow_le_pow_right (by decide) (by omega))
    have hb := b.toNat_lt
    have h256 : Binary64.IsNatural 256 256 := Binary64.isNatural_two_pow (j := 8) (by decide)
    have hbyte : (Binary64.ofNat b.toNat).IsNatural b.toNat :=
      Binary64.isNatural_ofNat_of_lt (by omega)
    have hscaled := hrest.mul h256 (by omega)
    have hexact := Binary64.nearestWhole_mul_two_pow hrest.nearestWhole_eq 8
    rw [show (2 : Nat) ^ 8 = 256 from rfl] at hexact
    rw [hexact, Nat.mul_comm] at hscaled
    have hsum := hscaled.add hbyte (by omega)
    rw [decodeUnsigned, List.foldl_append, roundedOfBytes_concat]
    exact hsum

/-- The integer that is read; in two's complement the upper half of the range is negative. -/
def roundedInteger (signed : Bool) (bytes : Bytes) : Int :=
  let n := roundedOfBytes bytes
  if signed && 2 ^ (8 * bytes.length - 1) ≤ n then (n : Int) - 2 ^ (8 * bytes.length) else n

theorem decodeInteger_eq {bytes : Bytes} (hpos : 0 < bytes.length) (h : bytes.length ≤ 16)
    (signed : Bool) : decodeInteger signed bytes = .ofInt (roundedInteger signed bytes) := by
  have hvalue := isNatural_decodeUnsigned h
  have hbits : (bytes.length : Int) * 8 = ((8 * bytes.length : Nat) : Int) := by omega
  have hhalf : (bytes.length : Int) * 8 - 1 = ((8 * bytes.length - 1 : Nat) : Int) := by omega
  have hge := hvalue.ge_iff (Binary64.isNatural_pow_two (n := 8 * bytes.length - 1) (by omega))
  have hsub := hvalue.sub (Binary64.isNatural_pow_two (n := 8 * bytes.length) (by omega))
  cases signed with
  | false => exact hvalue.eq_ofInt
  | true =>
    simp only [decodeInteger, roundedInteger, Bool.true_and, hhalf, hge, decide_eq_true_eq]
    split
    · rw [hbits, hsub, Int.natCast_pow]
      rfl
    · exact hvalue.eq_ofInt

theorem natAbs_roundedInteger_lt (signed : Bool) {bytes : Bytes} (h : bytes.length ≤ 16) :
    (roundedInteger signed bytes).natAbs < 2 ^ 200 := by
  have hread : roundedOfBytes bytes < 2 ^ 160 :=
    Nat.lt_of_lt_of_le (roundedOfBytes_lt bytes) (Nat.pow_le_pow_right (by decide) (by omega))
  have hrange : 2 ^ (8 * bytes.length) ≤ 2 ^ 128 := Nat.pow_le_pow_right (by decide) (by omega)
  have hpow := Nat.two_pow_pos (8 * bytes.length)
  have hcast : ((2 ^ (8 * bytes.length) : Nat) : Int) = 2 ^ (8 * bytes.length) :=
    Int.natCast_pow 2 _
  simp only [roundedInteger]
  split
  · omega
  · omega

/-! ## Writing -/

theorem length_packInteger (length : Nat) (n : Int) : (packInteger length n).length = length := by
  rw [packInteger, List.length_reverse, List.length_map, List.length_range]

theorem packInteger_succ (length : Nat) (n : Int) :
    packInteger (length + 1) n = packInteger length (n / 256) ++ [UInt8.ofInt n] := by
  have hshift (i : Nat) : Int.shiftRight n (8 * (i + 1)) = Int.shiftRight (n / 256) (8 * i) := by
    show n >>> (8 * (i + 1)) = (n / 256) >>> (8 * i)
    rw [Int.shiftRight_eq_div_pow, Int.shiftRight_eq_div_pow, Int.ediv_ediv_of_nonneg (by decide),
      Nat.mul_add, Nat.pow_add, Nat.mul_comm, Int.natCast_mul]
    rfl
  rw [packInteger, List.range_succ_eq_map, List.map_cons, List.reverse_cons, List.map_map]
  simp only [Function.comp_def, Nat.succ_eq_add_one, hshift, packInteger]
  rw [Nat.mul_zero]
  congr 3
  exact Int.shiftRight_zero n

/-- **What is written into the bytes** is the integer modulo the range of the field. -/
theorem natOfBytes_packInteger (length : Nat) (n : Int) :
    (natOfBytes (packInteger length n) : Int) = n % 256 ^ length := by
  induction length generalizing n with
  | zero => exact (Int.emod_one n).symm
  | succ length ih =>
    have hlow : ((UInt8.ofInt n).toNat : Int) = n % 256 := by
      simp only [UInt8.ofInt, UInt8.toNat_ofNat', Int.natCast_emod]
      omega
    have hall := Int.emod_add_mul_ediv n (256 * 256 ^ length)
    have hhigh := Int.emod_add_mul_ediv (n / 256) (256 ^ length)
    have hbyte := Int.emod_add_mul_ediv n 256
    rw [← Int.ediv_ediv_of_nonneg (by decide)] at hall
    rw [packInteger_succ, natOfBytes_concat, Int.natCast_add, Int.natCast_mul, ih, hlow,
      Int.pow_succ']
    linear_combination 256 * hhigh + hbyte - hall

/-! ## Written and read -/

section

variable {length : Nat} {v : Int} {signed : Bool}

theorem pow_256 (length : Nat) : (256 : Int) ^ length = 2 ^ (8 * length) := by
  rw [Int.pow_mul]
  rfl

theorem two_mul_two_pow (hpos : 0 < length) :
    2 * (2 : Int) ^ (8 * length - 1) = 2 ^ (8 * length) := by
  rw [← Int.pow_succ', Nat.sub_add_cancel (by omega)]

/-- In the lower half of the range a double is read as it was written. -/
theorem roundedInteger_of_nonneg (hnonneg : 0 ≤ v) (hlt : v < 256 ^ length)
    (hlow : signed = true → v < 2 ^ (8 * length - 1))
    (hexact : nearestWhole v.natAbs = v.natAbs) :
    roundedInteger signed (packInteger length v) = v := by
  have hvalue := natOfBytes_packInteger length v
  rw [Int.emod_eq_of_lt hnonneg hlt] at hvalue
  have hread : roundedOfBytes (packInteger length v) = v.natAbs := by
    have hnat : natOfBytes (packInteger length v) = v.natAbs := by omega
    rw [roundedOfBytes_eq (by rw [hnat, hexact]), hnat]
  have hv : ((v.natAbs : Nat) : Int) = v := by omega
  simp only [roundedInteger, hread, length_packInteger, hv]
  rw [if_neg]
  simp only [Bool.and_eq_true, decide_eq_true_eq, not_and]
  intro hsigned hge
  have hcast : ((2 ^ (8 * length - 1) : Nat) : Int) = 2 ^ (8 * length - 1) := Int.natCast_pow 2 _
  have hhalf := hlow hsigned
  omega

/-- In the upper half it is written as its complement. -/
theorem natOfBytes_packInteger_of_neg (hpos : 0 < length) (hneg : v < 0)
    (hge : -2 ^ (8 * length - 1) ≤ v) :
    (natOfBytes (packInteger length v) : Int) = v + 2 ^ (8 * length) := by
  have hhalf := two_mul_two_pow hpos
  rw [natOfBytes_packInteger, pow_256, ← Int.add_emod_right,
    Int.emod_eq_of_lt (by omega) (by omega)]

/-- What is read there. -/
theorem roundedInteger_of_neg (hpos : 0 < length) (hneg : v < 0) (hge : -2 ^ (8 * length - 1) ≤ v) :
    roundedInteger true (packInteger length v) =
      roundedOfBytes (packInteger length v) - 2 ^ (8 * length) := by
  have hvalue := natOfBytes_packInteger_of_neg hpos hneg hge
  have hhalf := two_mul_two_pow hpos
  have hcast : ((2 ^ (8 * length - 1) : Nat) : Int) = 2 ^ (8 * length - 1) := Int.natCast_pow 2 _
  have hread : 2 ^ (8 * length - 1) ≤ roundedOfBytes (packInteger length v) :=
    two_pow_le_roundedOfBytes (by omega)
  simp only [roundedInteger, length_packInteger, Bool.true_and, decide_eq_true_eq, if_pos hread]

/-- Of a negative number the low digits are rounded away, as of a large one. -/
theorem dvd_roundedInteger_of_neg (hpos : 0 < length) (hneg : v < 0)
    (hge : -2 ^ (8 * length - 1) ≤ v) :
    2 ^ (8 * length - 53) ∣ roundedInteger true (packInteger length v) := by
  have hvalue := natOfBytes_packInteger_of_neg hpos hneg hge
  have hhalf := two_mul_two_pow hpos
  have hcast : ((2 ^ (8 * length - 1) : Nat) : Int) = 2 ^ (8 * length - 1) := Int.natCast_pow 2 _
  have hread : 2 ^ (8 * length - 1 - 52) ∣ roundedOfBytes (packInteger length v) :=
    dvd_roundedOfBytes (by omega)
  rw [roundedInteger_of_neg hpos hneg hge]
  refine Int.dvd_sub ?_ (pow_dvd_pow 2 (Nat.sub_le _ _))
  rw [show 8 * length - 53 = 8 * length - 1 - 52 by omega]
  exact_mod_cast Int.natCast_dvd_natCast.2 hread

/-- A negative number without low digits is read as it was written. -/
theorem roundedInteger_of_dvd (hpos : 0 < length) (hneg : v < 0) (hge : -2 ^ (8 * length - 1) ≤ v)
    (hdvd : 2 ^ (8 * length - 53) ∣ v) : roundedInteger true (packInteger length v) = v := by
  have hvalue := natOfBytes_packInteger_of_neg hpos hneg hge
  have hexact : nearestWhole (natOfBytes (packInteger length v)) =
      natOfBytes (packInteger length v) := by
    generalize natOfBytes (packInteger length v) = n at hvalue
    have hhalf := two_mul_two_pow hpos
    have hdvd' : 2 ^ (8 * length - 53) ∣ n := by
      have hsum : (2 : Int) ^ (8 * length - 53) ∣ v + 2 ^ (8 * length) :=
        Int.dvd_add hdvd (pow_dvd_pow 2 (Nat.sub_le _ _))
      rw [← hvalue] at hsum
      exact_mod_cast hsum
    have hlt : n < 2 ^ (8 * length) := by
      have hcast : ((2 ^ (8 * length) : Nat) : Int) = 2 ^ (8 * length) := Int.natCast_pow 2 _
      omega
    have hlog := (Nat.log2_lt (by omega)).2 hlt
    exact Binary64.nearestWhole_of_dvd (Nat.dvd_trans (Nat.pow_dvd_pow 2 (by omega)) hdvd')
  rw [roundedInteger_of_neg hpos hneg hge, roundedOfBytes_eq hexact, hvalue]
  omega

/-- **Which negative numbers are read as they were written**: those that would be doubles with the
exponent of their complement. -/
theorem ofInt_roundedInteger_of_neg (hpos : 0 < length) (hle : length ≤ 16) (hneg : v < 0)
    (hge : -2 ^ (8 * length - 1) ≤ v) (hexact : nearestWhole v.natAbs = v.natAbs) :
    Binary64.ofInt (roundedInteger true (packInteger length v)) = .ofInt v ↔
      2 ^ (8 * length - 53) ∣ v := by
  refine ⟨fun hread => ?_, fun hdvd => by rw [roundedInteger_of_dvd hpos hneg hge hdvd]⟩
  have hbytes : (roundedInteger true (packInteger length v)).natAbs < 2 ^ 200 :=
    natAbs_roundedInteger_lt true (by rwa [length_packInteger])
  have hv : v.natAbs < 2 ^ 200 := by
    have hrange : (2 : Int) ^ (8 * length - 1) ≤ 2 ^ 127 := pow_le_pow_right₀ (by decide) (by omega)
    omega
  exact Binary64.two_pow_dvd_of_ofInt_eq hbytes hv hexact hread
    (dvd_roundedInteger_of_neg hpos hneg hge)

/-- The greatest integer that can be packed is rounded up when it is read. -/
theorem roundedInteger_clamped :
    roundedInteger false (packInteger 8 0x7fffffffffffffff) = 0x8000000000000000 := by
  decide +kernel

end

/-! ## Descriptions

Between a number and its bytes there are two more steps: rounding to an integer, and clamping to the
64 bits of a word.  For an integer that fits into the field the first changes nothing, and the
second only what lies at `2 ^ 63` or above. -/

namespace EncodingSchema

/-- The description by which a field is read that is written by this one. -/
def reader (schema : EncodingSchema) : FieldSchema where
  length := schema.length
  signed := schema.signed
  order := schema.order

/-- The range of the integers that a field can hold. -/
def Holds (schema : EncodingSchema) (v : Int) : Prop :=
  if schema.signed then -(256 ^ schema.length / 2) ≤ v ∧ v < 256 ^ schema.length / 2
  else 0 ≤ v ∧ v < 256 ^ schema.length

instance (schema : EncodingSchema) (v : Int) : Decidable (schema.Holds v) :=
  inferInstanceAs (Decidable (if schema.signed then _ else _))

variable {schema : EncodingSchema}

/-- The lengths of a whole number. -/
theorem length_of_validate (hkind : schema.kind = .integer) (hvalid : schema.validate = .ok ()) :
    0 < schema.length ∧ schema.length ≤ 8 := by
  simp only [validate, hkind, EncodingKind.isFixedWidth, maxIntegerLength, reduceCtorEq, false_and,
    if_false, true_and] at hvalid
  split at hvalid
  · cases hvalid
  · omega

theorem decode_reader {bytes : Bytes} (hpos : 0 < schema.length)
    (hlength : bytes.length = schema.length) :
    schema.reader.decode (schema.order.arrange bytes) =
      some (.number (decodeInteger schema.signed bytes)) := by
  have hne : schema.order.arrange bytes ≠ [] :=
    mt ByteOrder.arrange_eq_nil_iff.1 (List.ne_nil_of_length_pos (hlength ▸ hpos))
  have harranged : (schema.order.arrange bytes).length = schema.reader.length :=
    (schema.order.length_arrange bytes).trans hlength
  rw [FieldSchema.decode_of_fills rfl harranged hne]
  simp only [reader, ByteOrder.arrange_arrange]
  rfl

/-- The integer that is packed for a number. -/
def clamp (v : Int) : Int := max (-packLimit) (min (packLimit - 1) v)

theorem encode_number (hkind : schema.kind = .integer) {x : Binary64} {v : Int}
    (hv : x.toInt? = some v) :
    schema.encode (.number x) = schema.order.arrange (packInteger schema.length (clamp v)) := by
  simp only [encode, encodeNumber, hkind, Binary64.toIntClamped_of_toInt? hv]
  rfl

/-- The range in powers of two. -/
theorem Holds.bounds {v : Int} (h : schema.Holds v) (hpos : 0 < schema.length) :
    (schema.signed = true → -2 ^ (8 * schema.length - 1) ≤ v ∧ v < 2 ^ (8 * schema.length - 1)) ∧
      (schema.signed = false → 0 ≤ v) ∧ v < 256 ^ schema.length := by
  have hhalf := two_mul_two_pow hpos
  have hpow : (0 : Int) < 2 ^ (8 * schema.length - 1) := Int.pow_pos (by decide)
  rw [Holds, pow_256] at h
  rw [pow_256]
  cases hsigned : schema.signed with
  | true =>
    simp only [hsigned, if_true, true_implies, reduceCtorEq, false_implies, true_and] at h ⊢
    omega
  | false =>
    simp only [hsigned, if_false, true_implies, reduceCtorEq, false_implies, true_and] at h ⊢
    exact h

/-! ## There and back -/

/-- What is read of a number that was written. -/
theorem decode_encode (hkind : schema.kind = .integer) (hvalid : schema.validate = .ok ())
    {x : Binary64} {v : Int} (hv : x.toInt? = some v) :
    schema.reader.decode (schema.encode (.number x)) =
      some (.number
        (.ofInt (roundedInteger schema.signed (packInteger schema.length (clamp v))))) := by
  obtain ⟨hpos, hle⟩ := length_of_validate hkind hvalid
  have hlength := length_packInteger schema.length (clamp v)
  rw [encode_number hkind hv, decode_reader hpos hlength, decodeInteger_eq (by omega) (by omega)]

/-- **A whole number, written and read.**  It takes as many bytes as the field has, and it is read
as it was written with two exceptions.  Above `2 ^ 63` it is clamped.  And when it is negative, it
must not have digits that a double as large as its complement cannot have: with seven bytes the last
three binary digits must be zeros, with eight bytes the last eleven. -/
theorem decode_encode_integer (hkind : schema.kind = .integer) (hvalid : schema.validate = .ok ())
    {x : Binary64} {v : Int} (hwhole : x.isWhole = true) (hv : x.toInt? = some v)
    (hholds : schema.Holds v) :
    (schema.encode (.number x)).length = schema.length ∧
      (schema.reader.decode (schema.encode (.number x)) = some (.number (.ofInt v)) ↔
        v ≤ 2 ^ 63 ∧ (v < 0 → 2 ^ (8 * schema.length - 53) ∣ v)) := by
  obtain ⟨hpos, hle⟩ := length_of_validate hkind hvalid
  obtain ⟨hsigned, hunsigned, hlt⟩ := hholds.bounds hpos
  have hexact := Binary64.nearestWhole_of_isWhole hwhole hv
  have hhalf : (2 : Int) ^ (8 * schema.length - 1) ≤ 2 ^ 63 :=
    pow_le_pow_right₀ (by decide) (by omega)
  refine ⟨by rw [encode_number hkind hv, ByteOrder.length_arrange, length_packInteger], ?_⟩
  rw [decode_encode hkind hvalid hv, Option.some.injEq, Value.number.injEq]
  rcases lt_or_ge v 0 with hneg | hnonneg
  · have hs : schema.signed = true := by
      by_contra hs
      exact absurd (hunsigned (Bool.eq_false_iff.2 hs)) (Int.not_le.2 hneg)
    have hge := (hsigned hs).1
    have hclamp : clamp v = v := by simp only [clamp, packLimit]; omega
    rw [hs, hclamp, ofInt_roundedInteger_of_neg hpos (by omega) hneg hge hexact]
    exact ⟨fun hdvd => ⟨by omega, fun _ => hdvd⟩, fun h => h.2 hneg⟩
  rcases lt_or_ge v (2 ^ 63) with hsmall | hlarge
  · have hclamp : clamp v = v := by simp only [clamp, packLimit]; omega
    rw [hclamp, roundedInteger_of_nonneg hnonneg hlt (fun hs => (hsigned hs).2) hexact]
    exact iff_of_true rfl ⟨Int.le_of_lt hsmall, fun hneg => absurd hneg (Int.not_lt.2 hnonneg)⟩
  · -- so large a number is clamped to one that is read as `2 ^ 63`
    have hclamp : clamp v = 0x7fffffffffffffff := by simp only [clamp, packLimit]; omega
    have hs : schema.signed = false := by
      by_contra hs
      have hhigh := (hsigned (Bool.eq_true_of_not_eq_false hs)).2
      omega
    have hlen : schema.length = 8 := by
      by_contra hshort
      have hless : (256 : Int) ^ schema.length ≤ 256 ^ 7 :=
        pow_le_pow_right₀ (by decide) (by omega)
      omega
    rw [hlen] at hlt
    rw [hs, hlen, hclamp, roundedInteger_clamped]
    refine ⟨fun h => ?_, fun h => ?_⟩
    · have hnear := Binary64.nearestWhole_eq_of_ofInt_eq (by decide) (by omega) h
      rw [hexact, show Int.natAbs 0x8000000000000000 = 2 ^ 63 from rfl,
        Binary64.nearestWhole_two_pow] at hnear
      omega
    · obtain rfl : v = 0x8000000000000000 := by omega
      rfl

/-- In eight bytes `-2048` is the greatest negative number that is read as it was written. -/
theorem decode_encode_integer_of_eight_bytes :
    let schema : EncodingSchema := { length := 8, signed := true, order := .littleEndian }
    (Binary64.ofInt (-2048)).isWhole = true ∧ (Binary64.ofInt (-2048)).toInt? = some (-2048) ∧
      schema.Holds (-2048) ∧
      schema.reader.decode (schema.encode (.number (.ofInt (-2048)))) =
        some (.number (.ofInt (-2048))) := by
  have hwhole : (Binary64.ofInt (-2048)).isWhole = true := by decide +kernel
  have hv : (Binary64.ofInt (-2048)).toInt? = some (-2048) := by decide +kernel
  refine ⟨hwhole, hv, by decide, ?_⟩
  exact (decode_encode_integer rfl rfl hwhole hv (by decide)).2.2 ⟨by decide, fun _ => by decide⟩

/-- Not every number that fits into a field is read as it was written: minus one in eight bytes is
not. -/
theorem not_always_decode_encode :
    ¬∀ (schema : EncodingSchema) (x : Binary64) (v : Int), schema.kind = .integer →
      schema.validate = .ok () → x.isWhole = true → x.toInt? = some v → schema.Holds v →
        schema.reader.decode (schema.encode (.number x)) = some (.number (.ofInt v)) := by
  intro h
  have hwhole : (Binary64.ofInt (-1)).isWhole = true := by decide +kernel
  have hv : (Binary64.ofInt (-1)).toInt? = some (-1) := by decide +kernel
  have hread := h { length := 8, signed := true } _ (-1) rfl rfl hwhole hv (by decide)
  rw [decode_encode rfl rfl hv, Option.some.injEq, Value.number.injEq] at hread
  have hdvd := (ofInt_roundedInteger_of_neg (by decide) (by decide) (by decide) (by decide)
    (Binary64.nearestWhole_of_isWhole hwhole hv)).1 hread
  exact absurd hdvd (by decide)

end EncodingSchema
end Fieldbus
