import Fieldbus.Decimal.Layout
import Fieldbus.Proofs.Field.Bcd
import Fieldbus.Proofs.Field.Integer
import Fieldbus.Proofs.Field.Text

/-!
# Valid descriptions

A description is validated once, long before it is used, and reading and writing have to cope with
whatever they are given.  What they guard against on their own — a field without bytes, a half unit
of several bytes, a parameter that is not there — cannot be in a valid description.  What is left
are the reasons that lie in the payload and in the value.

* `FieldSchema.decode_eq_none_iff` — a field cannot be read where the payload is too short for it.
* `Binary64.isNarrow_plain`, `Binary64.plain_ne_empty` — the plain text of every double, NaN and the
  infinities included, can be written into a field for text.
* `EncodingSchema.encodeNumber_ne_nil` — hence every number can be written, whatever the encoding.
* `EncodingSchema.encode_eq_nil_iff` — the texts that cannot be.
* `valid_descriptions_suffice` — the main theorem.
-/

set_option autoImplicit false

namespace Fieldbus

/-! ## Reading -/

namespace FieldSchema

variable {field : FieldSchema}

/-- The length of a valid field lies within the bounds of its kind. -/
theorem lengthBounds_of_validate (hvalid : field.validate = .ok ()) :
    field.kind.lengthBounds.1 ≤ field.length ∧ field.length ≤ field.kind.lengthBounds.2 := by
  simp only [validate] at hvalid
  split at hvalid
  · cases hvalid
  · omega

theorem pos_of_validate (hvalid : field.validate = .ok ()) : 0 < field.length := by
  have hbounds := (lengthBounds_of_validate hvalid).1
  cases hkind : field.kind <;> rw [hkind] at hbounds <;> exact hbounds

theorem length_of_halfUnit (hvalid : field.validate = .ok ()) (hkind : field.kind = .halfUnit) :
    field.length = 1 := by
  have hbounds := lengthBounds_of_validate hvalid
  rw [hkind] at hbounds
  exact Nat.le_antisymm hbounds.2 hbounds.1

/-- Every kind of number can be read from as many bytes as a valid field has. -/
theorem exists_decodeNumber_eq_some (hvalid : field.validate = .ok ()) (hkind : field.kind ≠ .text)
    {bytes : Bytes} (hlength : bytes.length = field.length) :
    ∃ x, field.decodeNumber bytes = some x := by
  unfold decodeNumber
  cases h : field.kind with
  | integer => exact ⟨_, rfl⟩
  | bcd => exact ⟨_, rfl⟩
  | text => exact absurd h hkind
  | halfUnit =>
    rw [length_of_halfUnit hvalid h] at hlength
    obtain ⟨byte, rfl⟩ := List.length_eq_one_iff.1 hlength
    exact ⟨_, rfl⟩

/-- **A valid field has a value wherever it lies inside the payload.** -/
theorem decode_eq_none_iff {payload : Bytes} (hvalid : field.validate = .ok ())
    (hpayload : payload.length < 2 ^ 63) :
    field.decode payload = none ↔ payload.length < field.offset + field.length := by
  have hlimit : payload.length < Json.sizeLimit := Nat.lt_trans hpayload (by decide)
  rw [decode, if_neg (Nat.ne_of_gt (pos_of_validate hvalid)), window?_of_lt hlimit]
  by_cases hfits : field.offset + field.length ≤ payload.length
  · rw [if_pos hfits, Option.bind_some]
    refine iff_of_false ?_ (Nat.not_lt.2 hfits)
    by_cases hkind : field.kind = .text
    · rw [if_pos hkind]
      exact Option.some_ne_none _
    · have hlength : (field.order.arrange ((payload.drop field.offset).take field.length)).length =
          field.length := by
        rw [ByteOrder.length_arrange, List.length_take, List.length_drop]
        omega
      obtain ⟨x, hx⟩ := exists_decodeNumber_eq_some hvalid hkind hlength
      rw [if_neg hkind, hx]
      exact Option.some_ne_none _
  · rw [if_neg hfits]
    exact iff_of_true rfl (Nat.lt_of_not_le hfits)

end FieldSchema

/-! ## Texts of numbers

A number may be written into a field for text, as the text that it is printed as.  That this can
never fail has to be seen from the printer: it prints digits, a point, a sign and the names of the
values that are no numbers, and always at least one character. -/

theorem isNarrow_append {text more : String} :
    IsNarrow (text ++ more) ↔ IsNarrow text ∧ IsNarrow more := by
  simp [IsNarrow, String.toList_append, or_imp, forall_and]

theorem isNarrow_ofList {cs : List Char} :
    IsNarrow (String.ofList cs) ↔ ∀ c ∈ cs, c.toNat ≤ 0xFF := by
  simp [IsNarrow]

namespace Decimal

theorem isNarrow_digitText (d : Decimal) : IsNarrow d.digitText := by
  rw [digitText, isNarrow_ofList]
  intro c hc
  have hdigit := Nat.isDigit_of_mem_toDigits (by decide) (by decide) hc
  rw [Char.isDigit_iff_toNat] at hdigit
  have hnine : '9'.toNat = 57 := rfl
  omega

theorem isNarrow_zeros (n : Nat) : IsNarrow (zeros n) := by
  rw [zeros, isNarrow_ofList]
  intro c hc
  rw [List.eq_of_mem_replicate hc]
  decide

theorem digitText_ne_empty (d : Decimal) : d.digitText ≠ "" := by
  rw [digitText, Ne, ← String.toList_inj, String.toList_ofList]
  exact Nat.toDigits_ne_nil

/-- The point stands behind the digits, among them, or in front of them. -/
theorem positional_cases (d : Decimal) (fraction : String) :
    (∃ n, d.positional fraction = d.digitText ++ zeros n ++ fraction) ∨
      (∃ n, d.positional fraction = String.ofList (d.digitText.toList.take n) ++ "."
        ++ String.ofList (d.digitText.toList.drop n)) ∨
      ∃ n, d.positional fraction = "0." ++ zeros n ++ d.digitText := by
  simp only [positional, String.ofList_toList]
  split
  · exact .inl ⟨_, rfl⟩
  · split
    · exact .inr (.inl ⟨_, rfl⟩)
    · exact .inr (.inr ⟨_, rfl⟩)

theorem isNarrow_positional (d : Decimal) {fraction : String} (h : IsNarrow fraction) :
    IsNarrow (d.positional fraction) := by
  have hdigits := isNarrow_digitText d
  rcases positional_cases d fraction with ⟨n, heq⟩ | ⟨n, heq⟩ | ⟨n, heq⟩
  · rw [heq, isNarrow_append, isNarrow_append]
    exact ⟨⟨hdigits, isNarrow_zeros n⟩, h⟩
  · rw [heq, isNarrow_append, isNarrow_append]
    exact ⟨⟨isNarrow_ofList.2 fun c hc => hdigits c (List.mem_of_mem_take hc), by decide⟩,
      isNarrow_ofList.2 fun c hc => hdigits c (List.mem_of_mem_drop hc)⟩
  · rw [heq, isNarrow_append, isNarrow_append]
    exact ⟨⟨by decide, isNarrow_zeros n⟩, hdigits⟩

theorem positional_ne_empty (d : Decimal) (fraction : String) : d.positional fraction ≠ "" := by
  rcases positional_cases d fraction with ⟨n, heq⟩ | ⟨n, heq⟩ | ⟨n, heq⟩ <;>
    simp [heq, digitText_ne_empty]

end Decimal

namespace Binary64

theorem isNarrow_signText (neg : Bool) : IsNarrow (signText neg) := by
  cases neg <;> decide

/-- **The plain text of every double can be written.** -/
theorem isNarrow_plain (x : Binary64) : IsNarrow x.plain := by
  cases x with
  | nan => decide
  | infinite neg => exact isNarrow_append.2 ⟨isNarrow_signText neg, by decide⟩
  | finite neg r =>
    exact isNarrow_append.2 ⟨isNarrow_signText neg, Decimal.isNarrow_positional _ (by decide)⟩

theorem plain_ne_empty (x : Binary64) : x.plain ≠ "" := by
  cases x with
  | nan => decide
  | infinite neg => simp [plain]
  | finite neg r => simp [plain, Decimal.positional_ne_empty]

end Binary64

/-! ## Writing -/

/-- A text has bytes, if it has characters and a field can hold them. -/
theorem encodeText_getD_eq_nil_iff {text : String} :
    (encodeText text).getD [] = [] ↔ text = "" ∨ ¬IsNarrow text := by
  by_cases hnarrow : IsNarrow text
  · obtain ⟨bytes, hbytes⟩ := exists_encodeText_eq_some_iff.2 hnarrow
    have hnumbers := encodeText_eq_some_iff.1 hbytes
    rw [hbytes, Option.getD_some, or_iff_left (not_not.2 hnarrow), ← List.map_eq_nil_iff, hnumbers,
      List.map_eq_nil_iff, ← String.toList_inj]
    rfl
  · exact iff_of_true (by rw [encodeText_eq_none hnarrow, Option.getD_none]) (.inr hnarrow)

namespace EncodingSchema

variable {schema : EncodingSchema}

/-- A number of fixed width has bytes, if the encoding is valid. -/
theorem pos_of_isFixedWidth (hvalid : schema.validate = .ok ())
    (hkind : schema.kind.isFixedWidth = true) : 0 < schema.length := by
  unfold validate at hvalid
  split at hvalid
  · cases hvalid
  · split at hvalid
    · cases hvalid
    · split at hvalid
      · cases hvalid
      · rename_i hlength
        exact Nat.pos_of_ne_zero fun hzero => hlength ⟨hkind, .inl hzero⟩

theorem length_encodeNumber (hkind : schema.kind.isFixedWidth = true) (x : Binary64) :
    (schema.encodeNumber x).length = schema.length := by
  unfold encodeNumber
  cases h : schema.kind <;> rw [h] at hkind
  case integer | multiply | addOffset => exact length_packInteger _ _
  case bcd | text | halfUnit => cases hkind

/-- **Every number has bytes**, if the encoding is valid. -/
theorem encodeNumber_ne_nil (hvalid : schema.validate = .ok ()) (x : Binary64) :
    schema.encodeNumber x ≠ [] := by
  cases hkind : schema.kind.isFixedWidth with
  | true =>
    refine List.ne_nil_of_length_pos ?_
    rw [length_encodeNumber hkind]
    exact pos_of_isFixedWidth hvalid hkind
  | false =>
    unfold encodeNumber
    cases h : schema.kind <;> rw [h] at hkind
    case integer | multiply | addOffset => cases hkind
    case bcd => exact (spellsDecimal_encodeBcd _).ne_nil
    case halfUnit => exact List.cons_ne_nil _ _
    case text =>
      rw [Ne, encodeText_getD_eq_nil_iff]
      rintro (hempty | hwide)
      · exact x.plain_ne_empty hempty
      · exact hwide x.isNarrow_plain

/-- **Only a text may have no bytes**: in an encoding of numbers, or because it has no characters,
or one that no field can hold. -/
theorem encode_eq_nil_iff (hvalid : schema.validate = .ok ()) (value : Value) :
    schema.encode value = [] ↔
      ∃ text, value = .text text ∧ (schema.kind ≠ .text ∨ text = "" ∨ ¬IsNarrow text) := by
  cases value with
  | number x =>
    refine iff_of_false ?_ (by simp)
    rw [encode, ByteOrder.arrange_eq_nil_iff]
    exact encodeNumber_ne_nil hvalid x
  | text text =>
    simp only [encode, Value.text.injEq, exists_eq_left']
    by_cases hkind : schema.kind = .text
    · rw [if_pos hkind, ByteOrder.arrange_eq_nil_iff, encodeText_getD_eq_nil_iff,
        or_iff_right (not_not.2 hkind)]
    · exact iff_of_true (if_neg hkind) (.inl hkind)

end EncodingSchema

/-- **With a valid description only the payload and the value can be at fault.**  A field has no
value if and only if it reaches beyond the payload.  A value has no bytes if and only if it is a
text, and the encoding is not for texts, or the text is empty or has a character above `U+00FF`.  So
every number has bytes, NaN and the infinities too, and as many as the encoding says, if it says
so. -/
theorem valid_descriptions_suffice :
    (∀ (field : FieldSchema) (payload : Bytes), field.validate = .ok () →
        payload.length < 2 ^ 63 →
        (field.decode payload = none ↔ payload.length < field.offset + field.length)) ∧
      ∀ encoding : EncodingSchema, encoding.validate = .ok () →
        (∀ value : Value, encoding.encode value = [] ↔
          ∃ text, value = .text text ∧
            (encoding.kind ≠ .text ∨ text = "" ∨ ∃ c ∈ text.toList, 0xFF < c.toNat)) ∧
        ∀ x : Binary64, 1 ≤ (encoding.encode (.number x)).length ∧
          (encoding.kind ∈ [.integer, .multiply, .addOffset] →
            (encoding.encode (.number x)).length = encoding.length) := by
  refine ⟨fun field payload => FieldSchema.decode_eq_none_iff, fun encoding hvalid => ⟨?_, ?_⟩⟩
  · intro value
    simp only [EncodingSchema.encode_eq_nil_iff hvalid, IsNarrow, not_forall, not_le, exists_prop]
  · intro x
    have hlength : (encoding.encode (.number x)).length = (encoding.encodeNumber x).length :=
      ByteOrder.length_arrange _ _
    rw [hlength]
    refine ⟨List.length_pos_iff.2 (EncodingSchema.encodeNumber_ne_nil hvalid x), fun hkind => ?_⟩
    refine EncodingSchema.length_encodeNumber ?_ x
    simp only [List.mem_cons, List.not_mem_nil, or_false] at hkind
    rcases hkind with hkind | hkind | hkind <;> rw [hkind] <;> rfl

/-- The end of the first field is no offset; the second field ends with the payload.  An infinity
times NaN still has three bytes. -/
theorem valid_descriptions_suffice_at_limits :
    let beyond : FieldSchema :=
      { offset := 0xFFFFFFFFFFFFFFFF, length := 0xFFFFFFFFFFFFFFFF, kind := .text }
    let last : FieldSchema := { offset := 2, kind := .halfUnit, signed := true }
    let encoding : EncodingSchema := { kind := .multiply, length := 3, factor := some .nan }
    beyond.validate = .ok () ∧ beyond.decode [0x10, 0x20, 0xC5] = none ∧
      last.validate = .ok () ∧ last.decode [0x10, 0x20, 0xC5] ≠ none ∧
      encoding.validate = .ok () ∧ encoding.encode (.text "3") = [] ∧
      (encoding.encode (.number (.infinite true))).length = 3 := by
  intro beyond last encoding
  obtain ⟨hread, hwrite⟩ := valid_descriptions_suffice
  have hbeyond : beyond.validate = .ok () := by decide
  have hlast : last.validate = .ok () := by decide
  have hencoding : encoding.validate = .ok () := by decide
  obtain ⟨hempty, hnumber⟩ := hwrite encoding hencoding
  exact ⟨hbeyond, (hread beyond _ hbeyond (by decide)).2 (by decide),
    hlast, mt (hread last _ hlast (by decide)).1 (by decide),
    hencoding, (hempty (.text "3")).2 ⟨"3", rfl, .inl (by decide)⟩,
    (hnumber (.infinite true)).2 (by decide)⟩

end Fieldbus
