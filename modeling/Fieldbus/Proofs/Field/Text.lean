import Fieldbus.Field.Encode

/-!
# Texts in fields

A character is a Unicode scalar value, a byte is not; so a field can hold the first 256 characters
and no others.  Within these limits texts and bytes are the same thing, the number of a character
being its byte.

* `IsNarrow` — a text that a field can hold.
* `encodeText_eq_some_iff` — what is written are the numbers of the characters.
* `encodeText_eq_some_iff_decodeText` — writing and reading undo each other.
* `EncodingSchema.encode_decode_text` — the main theorem.
-/

set_option autoImplicit false

namespace Fieldbus

/-- All characters are up to `U+00FF`. -/
def IsNarrow (text : String) : Prop := ∀ c ∈ text.toList, c.toNat ≤ 0xFF

instance (text : String) : Decidable (IsNarrow text) :=
  List.decidableBAll (fun c : Char => c.toNat ≤ 0xFF) text.toList

/-! ## Characters and bytes

A character and a byte correspond if they have the same number.  The correspondence is one to one
between the first 256 characters and all bytes, so for lists it is enough to compare numbers. -/

section

variable {text : String} {bytes : Bytes}

theorem byte_of_char_iff {c : Char} {b : UInt8} :
    (if c.toNat < 256 then some (UInt8.ofNat c.toNat) else none) = some b ↔ b.toNat = c.toNat := by
  have hb : b.toNat < 256 := b.toNat_lt
  rw [Option.ite_none_right_eq_some, Option.some.injEq, ← UInt8.toNat_inj, UInt8.toNat_ofNat']
  omega

/-- **One byte for each character, and its number is the character's.** -/
theorem encodeText_eq_some_iff :
    encodeText text = some bytes ↔ bytes.map UInt8.toNat = text.toList.map Char.toNat := by
  rw [encodeText]
  induction text.toList generalizing bytes with
  | nil => simp [eq_comm]
  | cons c rest ih =>
    simp only [List.mapM_cons, Option.bind_eq_bind, Option.bind_eq_some_iff, byte_of_char_iff, ih,
      Option.pure_def, Option.some.injEq, List.map_cons]
    cases bytes with
    | nil => simp
    | cons b bytes => simp

/-- A character with a greater number has no byte, and so the whole text has none. -/
theorem exists_encodeText_eq_some_iff :
    (∃ bytes, encodeText text = some bytes) ↔ IsNarrow text := by
  refine ⟨?_, fun h => ⟨text.toList.map fun c => UInt8.ofNat c.toNat, ?_⟩⟩
  · rintro ⟨bytes, h⟩ c hc
    have hnumber : c.toNat ∈ bytes.map UInt8.toNat :=
      encodeText_eq_some_iff.1 h ▸ List.mem_map_of_mem hc
    obtain ⟨b, -, hb⟩ := List.mem_map.1 hnumber
    exact hb ▸ Nat.le_of_lt_succ b.toNat_lt
  · rw [encodeText_eq_some_iff, List.map_map]
    refine List.map_congr_left fun c hc => ?_
    exact Nat.mod_eq_of_lt (Nat.lt_succ_of_le (h c hc))

theorem encodeText_eq_none (h : ¬IsNarrow text) : encodeText text = none := by
  rw [Option.eq_none_iff_forall_ne_some]
  exact fun bytes hbytes => h (exists_encodeText_eq_some_iff.1 ⟨bytes, hbytes⟩)

/-- Every byte is the number of a character. -/
theorem map_toNat_decodeText (bytes : Bytes) :
    (decodeText bytes).toList.map Char.toNat = bytes.map UInt8.toNat := by
  rw [decodeText, String.toList_ofList, List.map_map]
  refine List.map_congr_left fun b _ => ?_
  have hvalid : b.toNat.isValidChar := Or.inl (Nat.lt_trans b.toNat_lt (by decide))
  rw [Function.comp_apply, Char.ofNat, dif_pos hvalid]
  rfl

/-- **Writing a text and reading it undo each other.** -/
theorem encodeText_eq_some_iff_decodeText :
    encodeText text = some bytes ↔ decodeText bytes = text := by
  rw [encodeText_eq_some_iff, ← map_toNat_decodeText, ← String.toList_inj]
  exact List.map_inj_right fun _ _ => Char.toNat_inj.1

end

/-! ## Descriptions -/

theorem FieldSchema.decode_text (signed : Bool) (precision : Nat) (order : ByteOrder)
    {bytes : Bytes} (h : bytes ≠ []) :
    let field : FieldSchema :=
      { length := bytes.length, precision, signed, order, kind := .text }
    field.decode bytes = some (.text (decodeText (order.arrange bytes))) :=
  decode_of_fills rfl rfl h

namespace EncodingSchema

variable {schema : EncodingSchema}

theorem encode_text (hkind : schema.kind = .text) (text : String) :
    schema.encode (.text text) = schema.order.arrange ((encodeText text).getD []) := by
  rw [encode, if_pos hkind]

/-- What is written, most significant byte first. -/
theorem encodeText_of_isNarrow (hkind : schema.kind = .text) {text : String} (h : IsNarrow text) :
    encodeText text = some (schema.order.arrange (schema.encode (.text text))) := by
  obtain ⟨bytes, hbytes⟩ := exists_encodeText_eq_some_iff.2 h
  rw [encode_text hkind, hbytes, Option.getD_some, ByteOrder.arrange_arrange]

/-- A text that was read is written as the bytes it was read from. -/
theorem encode_decodeText (hkind : schema.kind = .text) (bytes : Bytes) :
    let text := decodeText (schema.order.arrange bytes)
    IsNarrow text ∧ schema.encode (.text text) = bytes := by
  intro text
  have hbytes : encodeText text = some (schema.order.arrange bytes) :=
    encodeText_eq_some_iff_decodeText.2 rfl
  refine ⟨exists_encodeText_eq_some_iff.1 ⟨_, hbytes⟩, ?_⟩
  rw [encode_text hkind, hbytes, Option.getD_some, ByteOrder.arrange_arrange]

/-- **Texts and bytes.**  In a field for text, a text of characters up to `U+00FF` is written with
one byte for each, its number; any other text is not written at all.  A text that is not empty is
read as it was written, and bytes, if there are any, are written as they were read.  So different
texts that can be written are written differently. -/
theorem encode_decode_text (schema : EncodingSchema) (hkind : schema.kind = .text) (signed : Bool)
    (precision : Nat) :
    let field (length : Nat) : FieldSchema :=
      { length, precision, signed, order := schema.order, kind := .text }
    (∀ text : String, IsNarrow text →
        let bytes := schema.encode (.text text)
        (schema.order.arrange bytes).map UInt8.toNat = text.toList.map Char.toNat ∧
          (text ≠ "" → (field bytes.length).decode bytes = some (.text text))) ∧
      (∀ text : String, ¬IsNarrow text → schema.encode (.text text) = []) ∧
      (∀ bytes : Bytes, bytes ≠ [] → ∃ text : String, IsNarrow text ∧
        (field bytes.length).decode bytes = some (.text text) ∧
          schema.encode (.text text) = bytes) ∧
      ∀ text other : String, IsNarrow text → IsNarrow other →
        schema.encode (.text text) = schema.encode (.text other) → text = other := by
  intro field
  have hread {bytes : Bytes} (h : bytes ≠ []) :
      (field bytes.length).decode bytes = some (.text (decodeText (schema.order.arrange bytes))) :=
    FieldSchema.decode_text signed precision schema.order h
  have htext {text : String} (h : IsNarrow text) :
      decodeText (schema.order.arrange (schema.encode (.text text))) = text :=
    encodeText_eq_some_iff_decodeText.1 (encodeText_of_isNarrow hkind h)
  refine ⟨fun text h => ⟨encodeText_eq_some_iff.1 (encodeText_of_isNarrow hkind h), ?_⟩,
    fun text h => ?_, fun bytes h => ?_, fun text other h hother hsame => ?_⟩
  · intro hne
    have hbytes : schema.encode (.text text) ≠ [] := by
      intro hnil
      rw [← htext h, ByteOrder.arrange_eq_nil_iff.2 hnil] at hne
      exact hne rfl
    rw [hread hbytes, htext h]
  · rw [encode_text hkind, encodeText_eq_none h, Option.getD_none, ByteOrder.arrange_eq_nil_iff]
  · obtain ⟨hnarrow, hwritten⟩ := encode_decodeText hkind bytes
    exact ⟨_, hnarrow, hread h, hwritten⟩
  · rw [← htext h, hsame, htext hother]

/-- A text with a character that takes two bytes elsewhere, and one that cannot be written. -/
theorem encode_decode_text_of_degrees :
    let schema : EncodingSchema := { kind := .text, order := .littleEndian }
    let field (length : Nat) : FieldSchema :=
      { length, order := .littleEndian, kind := .text }
    IsNarrow "21°C" ∧ schema.encode (.text "21°C") = [0x43, 0xB0, 0x31, 0x32] ∧
      (field 4).decode [0x43, 0xB0, 0x31, 0x32] = some (.text "21°C") ∧
      ¬IsNarrow "温度" ∧ schema.encode (.text "温度") = [] := by
  intro schema field
  obtain ⟨htext, hwide, -, -⟩ := encode_decode_text schema rfl false 0
  have hnarrow : IsNarrow "21°C" := by decide
  have hbytes : schema.encode (.text "21°C") = [0x43, 0xB0, 0x31, 0x32] := by decide
  have hread := (htext "21°C" hnarrow).2 (by decide)
  rw [hbytes] at hread
  exact ⟨hnarrow, hbytes, hread, by decide, hwide "温度" (by decide)⟩

end EncodingSchema
end Fieldbus
