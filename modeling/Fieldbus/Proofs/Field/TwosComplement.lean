import Fieldbus.Proofs.Field.Integer

/-!
# Bytes that are read and written back

`Proofs.Field.Integer` asks which numbers are read as they were written.  Here it is the other way
round: bytes of a frame are read, and the number is written into a field of the same width.  Up to
six bytes nothing is lost, for a double holds every integer that they can denote.

* `integerOfBytes` — the integer that bytes denote, which is a fact about words of bits and does not
  depend on how a field is read (`integerOfBytes_eq`).
* `packInteger_integerOfBytes` — what is packed for it are the bytes themselves, in whatever width.
* `roundedInteger_eq` — it is what is read, as long as no rounding takes place.
* `EncodingSchema.encode_decode_integer` — the main theorem.
-/

set_option autoImplicit false

namespace Fieldbus

/-! ## Digits -/

theorem natOfBytes_lt (bytes : Bytes) : natOfBytes bytes < 256 ^ bytes.length := by
  induction bytes using List.reverseRecOn with
  | nil => exact Nat.one_pos
  | append_singleton rest b ih =>
    have hb : b.toNat < 256 := b.toNat_lt
    rw [natOfBytes_concat, List.length_append, List.length_singleton, Nat.pow_succ]
    omega

/-- A number has its digits only once. -/
theorem natOfBytes_inj {bytes others : Bytes} (hlength : bytes.length = others.length)
    (h : natOfBytes bytes = natOfBytes others) : bytes = others := by
  induction bytes using List.reverseRecOn generalizing others with
  | nil => exact (List.length_eq_zero_iff.1 hlength.symm).symm
  | append_singleton rest b ih =>
    rcases List.eq_nil_or_concat others with rfl | ⟨rest', b', rfl⟩
    · simp at hlength
    · rw [List.concat_eq_append] at h hlength ⊢
      rw [natOfBytes_concat, natOfBytes_concat] at h
      have hb : b.toNat < 256 := b.toNat_lt
      have hb' : b'.toNat < 256 := b'.toNat_lt
      have hrest : rest = rest' := ih (by simpa using hlength) (by omega)
      have hlast : b = b' := UInt8.toNat_inj.1 (by omega)
      rw [hrest, hlast]

/-! ## The integer that bytes denote

What bytes denote is defined by words of bits and not by the way in which a field is read.  Packing
knows nothing of a sign, it takes the integer modulo the range of the field, and modulo that range
the two integers that bytes may denote are the same. -/

/-- The integer that the bytes denote, most significant byte first: that of the word in two's
complement, or the one without a sign. -/
def integerOfBytes (signed : Bool) (bytes : Bytes) : Int :=
  let word := BitVec.ofNat (8 * bytes.length) (natOfBytes bytes)
  if signed then word.toInt else word.toNat

/-- In two's complement the upper half of the words is negative. -/
theorem integerOfBytes_eq (signed : Bool) (bytes : Bytes) :
    integerOfBytes signed bytes =
      if signed && 256 ^ bytes.length ≤ 2 * natOfBytes bytes then
        (natOfBytes bytes : Int) - 256 ^ bytes.length
      else natOfBytes bytes := by
  have hpow : 2 ^ (8 * bytes.length) = 256 ^ bytes.length := Nat.pow_mul 2 8 bytes.length
  have hword : (BitVec.ofNat (8 * bytes.length) (natOfBytes bytes)).toNat = natOfBytes bytes := by
    rw [BitVec.toNat_ofNat, hpow, Nat.mod_eq_of_lt (natOfBytes_lt bytes)]
  cases signed with
  | false => simp only [integerOfBytes, hword, Bool.false_and, Bool.false_eq_true, if_false]
  | true =>
    have hcast : ((256 ^ bytes.length : Nat) : Int) = 256 ^ bytes.length := Int.natCast_pow 256 _
    simp only [integerOfBytes, BitVec.toInt_eq_toNat_cond, hword, hpow, Bool.true_and,
      decide_eq_true_eq, if_true]
    split <;> split <;> omega

/-- The digits are those of the integer modulo the range of the word. -/
theorem integerOfBytes_emod (signed : Bool) (bytes : Bytes) :
    integerOfBytes signed bytes % 256 ^ bytes.length = natOfBytes bytes := by
  have hlt : (natOfBytes bytes : Int) < 256 ^ bytes.length := by
    exact_mod_cast natOfBytes_lt bytes
  have hdigits := Int.emod_eq_of_lt (Int.natCast_nonneg (natOfBytes bytes)) hlt
  rw [integerOfBytes_eq]
  split
  · rw [Int.sub_emod_right, hdigits]
  · exact hdigits

/-- **What is packed for the integer that bytes denote are the bytes.** -/
theorem packInteger_integerOfBytes (signed : Bool) (bytes : Bytes) :
    packInteger bytes.length (integerOfBytes signed bytes) = bytes := by
  refine natOfBytes_inj (length_packInteger _ _) ?_
  have hdigits := natOfBytes_packInteger bytes.length (integerOfBytes signed bytes)
  rw [integerOfBytes_emod] at hdigits
  exact Int.ofNat_inj.1 hdigits

/-! ## Words without rounding -/

section

variable {bytes : Bytes}

/-- In six bytes there is room for no more than 48 bits. -/
theorem natAbs_integerOfBytes_le (h : bytes.length ≤ 6) (signed : Bool) :
    (integerOfBytes signed bytes).natAbs ≤ 2 ^ 48 := by
  have hlt := natOfBytes_lt bytes
  have hcast : ((256 ^ bytes.length : Nat) : Int) = 256 ^ bytes.length := Int.natCast_pow 256 _
  have hrange : 256 ^ bytes.length ≤ 256 ^ 6 := Nat.pow_le_pow_right (by decide) h
  rw [integerOfBytes_eq]
  split <;> omega

/-- So a double holds the integer that they denote. -/
theorem toInt?_ofInt_integerOfBytes (h : bytes.length ≤ 6) (signed : Bool) :
    (Binary64.ofInt (integerOfBytes signed bytes)).toInt? = some (integerOfBytes signed bytes) := by
  have hle := natAbs_integerOfBytes_le h signed
  exact Binary64.toInt?_ofInt_of_exact (Nat.lt_of_le_of_lt hle (by decide))
    (Binary64.nearestWhole_of_lt (Nat.lt_of_le_of_lt hle (by decide)))

/-- **What is read is the integer that the bytes denote.** -/
theorem roundedInteger_eq (hpos : 0 < bytes.length) (h : bytes.length ≤ 6) (signed : Bool) :
    roundedInteger signed bytes = integerOfBytes signed bytes := by
  have hlt : natOfBytes bytes < 2 ^ 53 :=
    Nat.lt_trans (natOfBytes_lt bytes)
      (Nat.lt_of_le_of_lt (Nat.pow_le_pow_right (by decide) h) (by decide))
  have hhalf : 2 * 2 ^ (8 * bytes.length - 1) = 256 ^ bytes.length := by
    rw [← Nat.pow_succ', Nat.succ_eq_add_one, Nat.sub_add_cancel (by omega), Nat.pow_mul]
  have hupper : 2 ^ (8 * bytes.length - 1) ≤ natOfBytes bytes ↔
      256 ^ bytes.length ≤ 2 * natOfBytes bytes := by omega
  rw [integerOfBytes_eq, pow_256]
  simp only [roundedInteger, roundedOfBytes_eq (Binary64.nearestWhole_of_lt hlt), hupper]

end

/-! ## There and back -/

namespace EncodingSchema

/-- What is read from as many bytes as the field has. -/
theorem decode_eq_integerOfBytes (schema : EncodingSchema) {bytes : Bytes}
    (hlength : bytes.length = schema.length) (hpos : 0 < schema.length)
    (hle : schema.length ≤ 6) :
    schema.reader.decode bytes =
      some (.number (.ofInt (integerOfBytes schema.signed (schema.order.arrange bytes)))) := by
  have hfield : (schema.order.arrange bytes).length = schema.length := by
    rw [ByteOrder.length_arrange, hlength]
  have hread := decode_reader hpos hfield
  rw [ByteOrder.arrange_arrange, decodeInteger_eq (by omega) (by omega),
    roundedInteger_eq (by omega) (by omega)] at hread
  exact hread

/-- **What is written for the integer that bytes denote are the bytes.** -/
theorem encode_integerOfBytes (schema : EncodingSchema) (hkind : schema.kind = .integer)
    (signed : Bool) {bytes : Bytes} (hlength : bytes.length = schema.length)
    (hle : schema.length ≤ 6) :
    schema.encode (.number (.ofInt (integerOfBytes signed (schema.order.arrange bytes)))) =
      bytes := by
  have hfield : (schema.order.arrange bytes).length = schema.length := by
    rw [ByteOrder.length_arrange, hlength]
  have hsmall := natAbs_integerOfBytes_le (hfield ▸ hle) signed
  -- six bytes are far from the bounds of what is packed
  have hclamp : clamp (integerOfBytes signed (schema.order.arrange bytes)) =
      integerOfBytes signed (schema.order.arrange bytes) := by
    simp only [clamp, packLimit]
    omega
  have hpacked := packInteger_integerOfBytes signed (schema.order.arrange bytes)
  rw [hfield] at hpacked
  rw [encode_number hkind (toInt?_ofInt_integerOfBytes (hfield ▸ hle) signed), hclamp, hpacked,
    ByteOrder.arrange_arrange]

/-- **Bytes, read and written back.**  From a field of up to six bytes, with or without a sign and
in either order, the integer is read that the bytes denote, without rounding.  Written into a field
of the same width and order, it gives the same bytes again, whether or not that field has a sign.
So different bytes are read as different numbers. -/
theorem encode_decode_integer (schema : EncodingSchema) (hkind : schema.kind = .integer)
    (signed : Bool) (bytes : Bytes) (hlength : bytes.length = schema.length)
    (hpos : 0 < schema.length) (hle : schema.length ≤ 6) :
    let field : FieldSchema := { schema.reader with signed }
    let v := integerOfBytes signed (schema.order.arrange bytes)
    field.decode bytes = some (.number (.ofInt v)) ∧
      ((Binary64.ofInt v).isWhole = true ∧ (Binary64.ofInt v).toInt? = some v) ∧
      schema.encode (.number (.ofInt v)) = bytes ∧
      ∀ other : Bytes, other.length = schema.length →
        field.decode other = field.decode bytes → other = bytes := by
  intro field v
  have hread (other : Bytes) (hother : other.length = schema.length) : field.decode other =
      some (.number (.ofInt (integerOfBytes signed (schema.order.arrange other)))) :=
    decode_eq_integerOfBytes { schema with signed } hother hpos hle
  have hfield : (schema.order.arrange bytes).length ≤ 6 := by
    rw [ByteOrder.length_arrange, hlength]
    exact hle
  have hsmall := natAbs_integerOfBytes_le hfield signed
  refine ⟨hread bytes hlength,
    ⟨Binary64.isWhole_ofInt (by omega), toInt?_ofInt_integerOfBytes hfield signed⟩,
    encode_integerOfBytes schema hkind signed hlength hle, fun other hother hsame => ?_⟩
  -- what is read is enough to write the bytes again
  rw [hread other hother, hread bytes hlength] at hsame
  rw [← encode_integerOfBytes schema hkind signed hother hle, Option.some.inj hsame,
    encode_integerOfBytes schema hkind signed hlength hle]

/-- The least integer of six bytes, which travels with its least significant byte first. -/
theorem encode_decode_integer_of_least :
    let schema : EncodingSchema := { length := 6, order := .littleEndian }
    let bytes : Bytes := [0, 0, 0, 0, 0, 0x80]
    let field : FieldSchema := { schema.reader with signed := true }
    bytes.length = schema.length ∧ integerOfBytes true (schema.order.arrange bytes) = -2 ^ 47 ∧
      field.decode bytes = some (.number (.ofInt (-2 ^ 47))) ∧
      schema.encode (.number (.ofInt (-2 ^ 47))) = bytes := by
  intro schema bytes field
  have hv : integerOfBytes true (schema.order.arrange bytes) = -2 ^ 47 := by decide
  obtain ⟨hread, -, hwritten, -⟩ :=
    encode_decode_integer schema rfl true bytes rfl (by decide) (by decide)
  rw [hv] at hread hwritten
  exact ⟨rfl, hv, hread, hwritten⟩

end EncodingSchema
end Fieldbus
