import Fieldbus.Field.Encode
import Fieldbus.Proofs.Binary64.Whole
import Mathlib.Data.List.Basic
import Mathlib.Data.List.Induction
import Mathlib.Data.Nat.Digits.Defs

/-!
# Decimal digits in fields

A field may hold a number by its decimal digits, one in each half byte.  How many bytes that takes
depends on the number, and numbers may be written with zeros in front; but there is one way to write
a number that is shorter than all others.

* `IsDecimal`, `decimalOfBytes` — bytes whose halves are decimal digits, and the number they spell.
* `encodeBcd_decimalOfBytes` — bytes that spell a number are written back without the zero bytes in
  front.  All that is to be known about the shortest way to write a number follows from this.
* `isNatural_decodeBcd` — what is read is the number, as long as a double holds it.
* `EncodingSchema.encode_decode_bcd` — the main theorem.
-/

set_option autoImplicit false

namespace Fieldbus

/-! ## Digits -/

/-- The half bytes, most significant one first. -/
def halfBytes (bytes : Bytes) : List Nat := bytes.flatMap fun b => [b.toNat / 16, b.toNat % 16]

/-- The number whose decimal digits are the half bytes, most significant one first. -/
def decimalOfBytes (bytes : Bytes) : Nat := Nat.ofDigits 10 (halfBytes bytes).reverse

/-- All half bytes are decimal digits. -/
def IsDecimal (bytes : Bytes) : Prop := ∀ d ∈ halfBytes bytes, d ≤ 9

instance (bytes : Bytes) : Decidable (IsDecimal bytes) :=
  List.decidableBAll (· ≤ 9) (halfBytes bytes)

/-- The bytes spell the number in decimal digits. -/
structure SpellsDecimal (bytes : Bytes) (n : Nat) : Prop where
  ne_nil : bytes ≠ []
  isDecimal : IsDecimal bytes
  value : decimalOfBytes bytes = n

theorem decimalOfBytes_concat (bytes : Bytes) (b : UInt8) : decimalOfBytes (bytes ++ [b]) =
    100 * decimalOfBytes bytes + (10 * (b.toNat / 16) + b.toNat % 16) := by
  have hlast : halfBytes [b] = [b.toNat / 16, b.toNat % 16] := List.append_nil _
  rw [decimalOfBytes, halfBytes, List.flatMap_append, ← halfBytes, ← halfBytes, hlast,
    List.reverse_append, Nat.ofDigits_append, ← decimalOfBytes]
  simp only [List.reverse_cons, List.reverse_nil, List.nil_append, List.cons_append,
    List.length_cons, List.length_nil, Nat.ofDigits_cons, Nat.ofDigits_nil]
  omega

theorem isDecimal_concat {bytes : Bytes} {b : UInt8} :
    IsDecimal (bytes ++ [b]) ↔ IsDecimal bytes ∧ b.toNat / 16 ≤ 9 ∧ b.toNat % 16 ≤ 9 := by
  simp [IsDecimal, halfBytes, or_imp, forall_and]

/-- The order of the bytes makes no difference to what their halves are. -/
theorem isDecimal_arrange {order : ByteOrder} {bytes : Bytes} :
    IsDecimal (order.arrange bytes) ↔ IsDecimal bytes := by
  cases order with
  | bigEndian => exact Iff.rfl
  | littleEndian => simp [IsDecimal, halfBytes, ByteOrder.arrange]

theorem decimalOfBytes_lt {bytes : Bytes} (h : IsDecimal bytes) :
    decimalOfBytes bytes < 100 ^ bytes.length := by
  induction bytes using List.reverseRecOn with
  | nil => exact Nat.one_pos
  | append_singleton rest b ih =>
    obtain ⟨hrest, hb⟩ := isDecimal_concat.1 h
    have hlt := ih hrest
    rw [decimalOfBytes_concat, List.length_append, List.length_singleton, Nat.pow_succ]
    omega

/-- Bytes that do not begin with a zero byte spell a number that is not zero. -/
theorem decimalOfBytes_pos {bytes : Bytes} (hne : bytes ≠ []) (hhead : bytes.head? ≠ some 0) :
    0 < decimalOfBytes bytes := by
  induction bytes using List.reverseRecOn with
  | nil => exact absurd rfl hne
  | append_singleton rest b ih =>
    rw [decimalOfBytes_concat]
    by_cases hrest : rest = []
    · subst hrest
      have hb : b.toNat ≠ 0 := fun hzero => hhead (congrArg some (UInt8.toNat_inj.1 hzero))
      omega
    · rw [List.head?_append_of_ne_nil _ hrest] at hhead
      have hpos := ih hrest hhead
      omega

/-! ## Writing -/

theorem toNat_bcdByte {n : Nat} (h : n < 100) : (bcdByte n).toNat = n / 10 * 16 + n % 10 := by
  rw [bcdByte, UInt8.toNat_ofNat', Nat.mod_eq_of_lt (by omega)]

/-- A byte is found again by its two digits. -/
theorem bcdByte_digits {b : UInt8} (hlow : b.toNat % 16 ≤ 9) (hhigh : b.toNat / 16 ≤ 9) :
    bcdByte (10 * (b.toNat / 16) + b.toNat % 16) = b := by
  refine UInt8.toNat_inj.1 ?_
  rw [toNat_bcdByte (by omega)]
  omega

/-- The last two digits come off the end. -/
theorem encodeBcd_eq (n : Nat) : encodeBcd n =
    (if n / 100 = 0 then [] else encodeBcd (n / 100)) ++ [bcdByte (n % 100)] := by
  rw [encodeBcd, bcdPairs]
  split
  · rfl
  · exact List.reverse_cons

theorem encodeBcd_zero : encodeBcd 0 = [0] := by
  rw [encodeBcd_eq]
  rfl

/-- **What is written spells the number.** -/
theorem spellsDecimal_encodeBcd (n : Nat) : SpellsDecimal (encodeBcd n) n := by
  induction n using Nat.strongRecOn with
  | ind n ih =>
    -- no byte in front of the last one spells zero, as `decimalOfBytes []` is zero
    have hfront : IsDecimal (if n / 100 = 0 then [] else encodeBcd (n / 100)) ∧
        decimalOfBytes (if n / 100 = 0 then [] else encodeBcd (n / 100)) = n / 100 := by
      split
      · rename_i hzero
        exact ⟨nofun, hzero.symm⟩
      · have hspells := ih (n / 100) (by omega)
        exact ⟨hspells.isDecimal, hspells.value⟩
    have hbyte := toNat_bcdByte (n := n % 100) (by omega)
    rw [encodeBcd_eq]
    refine ⟨by simp, isDecimal_concat.2 ⟨hfront.1, by omega, by omega⟩, ?_⟩
    rw [decimalOfBytes_concat, hfront.2]
    omega

/-- Bytes without a zero byte in front are written for the number that they spell. -/
theorem encodeBcd_decimalOfBytes_of_head {bytes : Bytes} (hne : bytes ≠ []) (h : IsDecimal bytes)
    (hhead : bytes.head? ≠ some 0) : encodeBcd (decimalOfBytes bytes) = bytes := by
  induction bytes using List.reverseRecOn with
  | nil => exact absurd rfl hne
  | append_singleton rest b ih =>
    obtain ⟨hrest, hhigh, hlow⟩ := isDecimal_concat.1 h
    have hvalue := decimalOfBytes_concat rest b
    have hdiv : decimalOfBytes (rest ++ [b]) / 100 = decimalOfBytes rest := by omega
    have hmod : decimalOfBytes (rest ++ [b]) % 100 = 10 * (b.toNat / 16) + b.toNat % 16 := by omega
    rw [encodeBcd_eq, hdiv, hmod, bcdByte_digits hlow hhigh]
    by_cases hnil : rest = []
    · subst hnil
      rfl
    · rw [List.head?_append_of_ne_nil _ hnil] at hhead
      rw [if_neg (Nat.ne_of_gt (decimalOfBytes_pos hnil hhead)), ih hnil hrest hhead]

/-! ## Zeros in front

A number is written without zero bytes in front, and every other way to spell it has some.  Dropping
them makes the bytes that are written, so these are the shortest. -/

/-- The bytes without the zero bytes in front; one byte is kept. -/
def withoutLeadingZeros : Bytes → Bytes
  | 0 :: b :: rest => withoutLeadingZeros (b :: rest)
  | bytes => bytes

theorem length_withoutLeadingZeros_le (bytes : Bytes) :
    (withoutLeadingZeros bytes).length ≤ bytes.length := by
  fun_induction withoutLeadingZeros bytes with
  | case1 b rest ih => exact Nat.le_succ_of_le ih
  | case2 bytes => exact Nat.le_refl _

/-- If nothing is left out, nothing changes. -/
theorem withoutLeadingZeros_of_length {bytes : Bytes}
    (h : (withoutLeadingZeros bytes).length = bytes.length) :
    withoutLeadingZeros bytes = bytes := by
  fun_cases withoutLeadingZeros bytes with
  | case1 b rest =>
    have hle := length_withoutLeadingZeros_le (b :: rest)
    rw [withoutLeadingZeros, List.length_cons] at h
    omega
  | case2 bytes => rfl

theorem decimalOfBytes_zero_cons (bytes : Bytes) :
    decimalOfBytes (0 :: bytes) = decimalOfBytes bytes := by
  have hzero : halfBytes (0 :: bytes) = [0, 0] ++ halfBytes bytes := rfl
  rw [decimalOfBytes, hzero, List.reverse_append, Nat.ofDigits_append]
  exact Nat.add_zero _

/-- **Bytes that spell a number are written back without the zero bytes in front.** -/
theorem encodeBcd_decimalOfBytes {bytes : Bytes} (hne : bytes ≠ []) (h : IsDecimal bytes) :
    encodeBcd (decimalOfBytes bytes) = withoutLeadingZeros bytes := by
  fun_induction withoutLeadingZeros bytes with
  | case1 b rest ih =>
    rw [decimalOfBytes_zero_cons]
    exact ih (List.cons_ne_nil b rest) fun d hd => h d (List.mem_append_right [0, 0] hd)
  | case2 bytes hzeros =>
    by_cases hhead : bytes.head? = some 0
    · -- the one zero byte that is kept
      obtain ⟨rest, rfl⟩ := List.head?_eq_some_iff.1 hhead
      cases rest with
      | nil => exact encodeBcd_zero
      | cons b rest => exact absurd rfl (hzeros b rest)
    · exact encodeBcd_decimalOfBytes_of_head hne h hhead

/-- **The shortest way to write a number** is the one that is chosen, and it is the only one of its
length. -/
theorem SpellsDecimal.length_encodeBcd_le {bytes : Bytes} {n : Nat} (h : SpellsDecimal bytes n) :
    (encodeBcd n).length ≤ bytes.length ∧
      (bytes.length = (encodeBcd n).length → bytes = encodeBcd n) := by
  have hwritten := encodeBcd_decimalOfBytes h.ne_nil h.isDecimal
  rw [h.value] at hwritten
  rw [hwritten]
  exact ⟨length_withoutLeadingZeros_le bytes,
    fun hlength => (withoutLeadingZeros_of_length hlength.symm).symm⟩

/-- It begins with a zero byte only for zero. -/
theorem head?_encodeBcd {n : Nat} (h : n ≠ 0) : (encodeBcd n).head? ≠ some 0 := by
  induction n using Nat.strongRecOn with
  | ind n ih =>
    rw [encodeBcd_eq]
    split
    · intro hhead
      have hzero : bcdByte (n % 100) = 0 := Option.some.inj hhead
      have hbyte := toNat_bcdByte (n := n % 100) (by omega)
      rw [hzero, UInt8.toNat_zero] at hbyte
      omega
    · rename_i hfront
      rw [List.head?_append_of_ne_nil _ (spellsDecimal_encodeBcd _).ne_nil]
      exact ih (n / 100) (by omega) hfront

/-! ## Reading -/

/-- **What is read from the bytes**, as long as a double holds it; the halves need not even be
decimal digits. -/
theorem isNatural_decodeBcd {bytes : Bytes} (h : decimalOfBytes bytes ≤ 2 ^ 53) :
    (decodeBcd bytes).IsNatural (decimalOfBytes bytes) := by
  induction bytes using List.reverseRecOn with
  | nil => exact Binary64.isNatural_ofNat (n := 0) (by decide)
  | append_singleton rest b ih =>
    rw [decimalOfBytes_concat] at h ⊢
    have hb := b.toNat_lt
    have hrest := ih (by omega)
    have hhigh : (Binary64.ofNat (b.toNat / 16)).IsNatural (b.toNat / 16) :=
      Binary64.isNatural_ofNat_of_lt (by omega)
    have hlow : (Binary64.ofNat (b.toNat % 16)).IsNatural (b.toNat % 16) :=
      Binary64.isNatural_ofNat_of_lt (by omega)
    have h10 : Binary64.IsNatural 10 10 := Binary64.isNatural_ofNat_of_lt (by decide)
    have h100 : Binary64.IsNatural 100 100 := Binary64.isNatural_ofNat_of_lt (by decide)
    -- on the way no number is greater than the result, so nothing is rounded
    have hscaled := hrest.mul_of_le h100 (by omega)
    have htens := hhigh.mul_of_le h10 (by omega)
    have hsum := (hscaled.add_of_le htens (by omega)).add_of_le hlow (by omega)
    rw [decodeBcd, List.foldl_append]
    rwa [Nat.mul_comm _ 100, Nat.mul_comm _ 10, Nat.add_assoc] at hsum

theorem decodeBcd_eq {bytes : Bytes} (h : decimalOfBytes bytes ≤ 2 ^ 53) :
    decodeBcd bytes = .ofNat (decimalOfBytes bytes) := by
  rw [← Binary64.ofInt_natCast]
  exact (isNatural_decodeBcd h).eq_ofInt

/-! ## Descriptions -/

theorem FieldSchema.decode_bcd (signed : Bool) (order : ByteOrder) {bytes : Bytes}
    (h : bytes ≠ []) :
    let field : FieldSchema := { length := bytes.length, signed, order, kind := .bcd }
    field.decode bytes = some (.number (decodeBcd (order.arrange bytes))) :=
  decode_of_fills rfl rfl h

namespace EncodingSchema

variable {schema : EncodingSchema}

theorem encode_ofNat (hkind : schema.kind = .bcd) {n : Nat} (h : n ≤ 2 ^ 53) :
    schema.encode (.number (.ofNat n)) = schema.order.arrange (encodeBcd n) := by
  have hnatural := Binary64.isNatural_ofNat_of_le h
  have hclamped : (Binary64.ofNat n).abs.toIntClamped 0 Json.sizeLimit = n := by
    rw [hnatural.abs, Binary64.toIntClamped_of_toInt? hnatural.toInt?, Json.sizeLimit]
    omega
  simp only [encode, encodeNumber, hkind, hclamped, Int.toNat_natCast]

/-- **Numbers by their decimal digits.**  Up to `2 ^ 53`, which a double holds, a number is written
in the shortest way there is, and read as it was written.  The other way round, up to seven bytes
whose halves are decimal digits are written as they were read, less the zero bytes at the most
significant end. -/
theorem encode_decode_bcd (schema : EncodingSchema) (hkind : schema.kind = .bcd) (signed : Bool) :
    let field (length : Nat) : FieldSchema :=
      { length, signed, order := schema.order, kind := .bcd }
    (∀ v : Nat, v ≤ 2 ^ 53 →
        let bytes := schema.encode (.number (.ofNat v))
        let digits := schema.order.arrange bytes
        (Binary64.ofNat v).toUnits? = some ((v : Int) * Binary64.unitsInOne) ∧
          SpellsDecimal digits v ∧
          (∀ other : Bytes, SpellsDecimal other v → digits.length ≤ other.length ∧
            (other.length = digits.length → other = digits)) ∧
          (v = 0 → digits = [0]) ∧ (v ≠ 0 → digits.head? ≠ some 0) ∧
          (field bytes.length).decode bytes = some (.number (.ofNat v))) ∧
      ∀ bytes : Bytes, 1 ≤ bytes.length → bytes.length ≤ 7 → IsDecimal bytes →
        ∃ x : Binary64, (field bytes.length).decode bytes = some (.number x) ∧
          schema.encode (.number x) =
            schema.order.arrange (withoutLeadingZeros (schema.order.arrange bytes)) := by
  intro field
  refine ⟨fun v hv => ?_, fun bytes hpos hle hdecimal => ?_⟩
  · have hspells := spellsDecimal_encodeBcd v
    have hne : schema.order.arrange (encodeBcd v) ≠ [] :=
      mt ByteOrder.arrange_eq_nil_iff.1 hspells.ne_nil
    have hread : decodeBcd (encodeBcd v) = .ofNat v := by
      rw [decodeBcd_eq (by rw [hspells.value]; exact hv), hspells.value]
    simp only [encode_ofNat hkind hv, ByteOrder.arrange_arrange]
    refine ⟨(Binary64.isNatural_ofNat_of_le hv).toUnits?, hspells,
      fun other hother => hother.length_encodeBcd_le, ?_, head?_encodeBcd, ?_⟩
    · rintro rfl
      exact encodeBcd_zero
    · rw [FieldSchema.decode_bcd signed schema.order hne, ByteOrder.arrange_arrange, hread]
  · have hne : bytes ≠ [] := List.length_pos_iff.1 hpos
    have hdigits : IsDecimal (schema.order.arrange bytes) := isDecimal_arrange.2 hdecimal
    have hsmall : decimalOfBytes (schema.order.arrange bytes) ≤ 2 ^ 53 := by
      have hlt := decimalOfBytes_lt hdigits
      have hrange : 100 ^ (schema.order.arrange bytes).length ≤ 100 ^ 7 :=
        Nat.pow_le_pow_right (by decide) (by rwa [ByteOrder.length_arrange])
      omega
    refine ⟨_, FieldSchema.decode_bcd signed schema.order hne, ?_⟩
    rw [decodeBcd_eq hsmall, encode_ofNat hkind hsmall,
      encodeBcd_decimalOfBytes (mt ByteOrder.arrange_eq_nil_iff.1 hne) hdigits]

/-- The greatest number takes eight bytes, and in `00 01 05` the first byte is not needed.  The
least significant byte travels first. -/
theorem encode_decode_bcd_of_greatest :
    let schema : EncodingSchema := { kind := .bcd, order := .littleEndian }
    let field (length : Nat) : FieldSchema := { length, order := .littleEndian, kind := .bcd }
    let greatest : Bytes := [0x92, 0x09, 0x74, 0x54, 0x92, 0x19, 0x07, 0x90]
    schema.encode (.number (.ofNat (2 ^ 53))) = greatest ∧
      (field 8).decode greatest = some (.number (.ofNat (2 ^ 53))) ∧
      IsDecimal [0x05, 0x01, 0x00] ∧
      ∃ x : Binary64, (field 3).decode [0x05, 0x01, 0x00] = some (.number x) ∧
        schema.encode (.number x) = [0x05, 0x01] := by
  intro schema field greatest
  obtain ⟨hnumbers, hbytes⟩ := encode_decode_bcd schema rfl false
  have hgreatest : schema.encode (.number (.ofNat (2 ^ 53))) = greatest := by
    have hdigits : encodeBcd (decimalOfBytes greatest.reverse) = greatest.reverse :=
      encodeBcd_decimalOfBytes_of_head (by decide) (by decide) (by decide)
    rw [show decimalOfBytes greatest.reverse = 2 ^ 53 by decide] at hdigits
    rw [encode_ofNat rfl (Nat.le_refl _), hdigits]
    rfl
  obtain ⟨-, -, -, -, -, hread⟩ := hnumbers (2 ^ 53) (Nat.le_refl _)
  rw [hgreatest] at hread
  exact ⟨hgreatest, hread, by decide, hbytes [0x05, 0x01, 0x00] (by decide) (by decide) (by decide)⟩

end EncodingSchema
end Fieldbus
