import Fieldbus.Entity.Decoder
import Mathlib.Algebra.Group.Nat.Defs
import Mathlib.Data.List.Basic

/-!
# Where a decoder looks

A description says which parts of a payload matter: a pattern has a window, and in it the bits that
its mask selects; a field has a window.  `LooksAt` says this bit by bit, for each part of a
description and for the whole.

* `BytePattern.isMatch_congr`, `FieldSchema.decode_congr` — a part of a description does not tell
  two payloads apart that have the same bits where it looks.
* `BytePattern.isMatch_of_lt` — a pattern whose window does not lie inside the payload is not
  matched by it, not even where it is inverted.
* `EntitySchema.decoder_looks` — the main theorem: neither does the decoder tell them apart.

The windows are those that are written down, as they are counted in the payload.  What the decoder
reads is a list cut out of the payload and counted from its own start.
-/

set_option autoImplicit false

namespace Fieldbus

/-! ## Bits of payloads -/

/-- A bit of a payload, if the payload has the byte. -/
def bit? (payload : Bytes) (index bit : Nat) : Option Bool :=
  payload[index]?.map fun byte => byte.toNat.testBit bit

/-- Two payloads of one length have the same bits in certain places. -/
structure SameWhere (looks : Nat → Nat → Prop) (payload other : Bytes) : Prop where
  length : payload.length = other.length
  bits : ∀ index bit, looks index bit → bit? payload index bit = bit? other index bit

section

variable {looks fewer : Nat → Nat → Prop} {payload other : Bytes}

theorem SameWhere.symm (h : SameWhere looks payload other) : SameWhere looks other payload :=
  ⟨h.length.symm, fun index bit hlooks => (h.bits index bit hlooks).symm⟩

theorem SameWhere.mono (h : SameWhere looks payload other)
    (hfewer : ∀ index bit, fewer index bit → looks index bit) : SameWhere fewer payload other :=
  ⟨h.length, fun index bit hlooks => h.bits index bit (hfewer index bit hlooks)⟩

/-- Bytes with the same bits are the same. -/
theorem getElem?_eq_of_bits {index : Nat}
    (h : ∀ bit, bit? payload index bit = bit? other index bit) :
    payload[index]? = other[index]? := by
  unfold bit? at h
  cases hbyte : payload[index]? with
  | none => cases hother : other[index]? <;> simp [hbyte, hother] at h ⊢
  | some a =>
    cases hother : other[index]? with
    | none => simp [hbyte, hother] at h
    | some b =>
      simp only [hbyte, hother, Option.map_some, Option.some.injEq] at h
      rw [UInt8.toNat_inj.1 (Nat.eq_of_testBit_eq h)]

end

/-- Through a mask two bytes look the same if they have the same bits where it selects them. -/
theorem and_eq_and_iff {a b mask : UInt8} :
    a &&& mask = b &&& mask ↔
      ∀ bit, mask.toNat.testBit bit = true → a.toNat.testBit bit = b.toNat.testBit bit := by
  rw [← UInt8.toNat_inj, UInt8.toNat_and, UInt8.toNat_and]
  refine ⟨fun h bit hmask => ?_, fun h => Nat.eq_of_testBit_eq fun bit => ?_⟩
  · have hbit := congrArg (Nat.testBit · bit) h
    simpa only [Nat.testBit_and, hmask, Bool.and_true] using hbit
  · rw [Nat.testBit_and, Nat.testBit_and]
    cases hmask : mask.toNat.testBit bit with
    | false => rw [Bool.and_false, Bool.and_false]
    | true => rw [h bit hmask]

/-! ## Patterns

A pattern takes the window out of the payload and compares it byte by byte through its mask.  Both
are questions about bits that the pattern looks at, and nothing else of the payload is used.  An
inverted pattern asks for a difference, but inside a window that is there. -/

/-- The mask selects the bit in the byte at this index of the pattern.  A single byte selects its
bits everywhere; behind the end of a list all bits are selected. -/
def Mask.Selects : Mask → Nat → Nat → Prop
  | uniform bits, _, bit => bits.toNat.testBit bit = true
  | perByte bits, index, bit => ∀ byte ∈ bits[index]?, byte.toNat.testBit bit = true

namespace BytePattern

/-- The pattern looks at this bit of a payload: the byte lies in its window, and the mask, if there
is one, selects the bit there. -/
def LooksAt (pattern : BytePattern) (index bit : Nat) : Prop :=
  ∃ i < pattern.data.length, index = pattern.offset + i ∧ ∀ mask ∈ pattern.mask, mask.Selects i bit

variable {pattern : BytePattern} {payload other : Bytes}

theorem looksAt_of_maskAt {i bit : Nat} (hi : i < pattern.data.length)
    (h : (pattern.maskAt i).toNat.testBit bit = true) :
    pattern.LooksAt (pattern.offset + i) bit := by
  refine ⟨i, hi, rfl, fun mask hmask => ?_⟩
  rw [maskAt, Option.mem_def.1 hmask] at h
  cases mask with
  | uniform bits => exact h
  | perByte bits =>
    intro byte hbyte
    simpa only [Mask.bitsAt, Option.mem_def.1 hbyte, Option.getD_some] using h

theorem agrees_iff {bytes : Bytes} :
    pattern.agrees bytes = true ↔
      ∀ i want got, pattern.data[i]? = some want → bytes[i]? = some got →
        want &&& pattern.maskAt i = got &&& pattern.maskAt i := by
  simp only [agrees, List.all_eq_true, Prod.forall, List.mem_zipIdx_iff_getElem?,
    List.getElem?_zip_eq_some, beq_iff_eq]
  exact ⟨fun h i want got hwant hgot => h want got i ⟨hwant, hgot⟩,
    fun h want got i hboth => h i want got hboth.1 hboth.2⟩

/-- If the window of one payload agrees with the pattern, so does that of the other. -/
theorem agrees_of_sameWhere (h : SameWhere pattern.LooksAt payload other)
    (hagrees : pattern.agrees ((payload.drop pattern.offset).take pattern.data.length) = true) :
    pattern.agrees ((other.drop pattern.offset).take pattern.data.length) = true := by
  rw [agrees_iff] at hagrees ⊢
  intro i want got hwant hgot
  have hi : i < pattern.data.length := (List.getElem?_eq_some_iff.1 hwant).1
  rw [List.getElem?_take_of_lt hi, List.getElem?_drop] at hgot
  have hlt : pattern.offset + i < payload.length := by
    rw [h.length]
    exact (List.getElem?_eq_some_iff.1 hgot).1
  have hbyte : payload[pattern.offset + i]? = some payload[pattern.offset + i] :=
    List.getElem?_eq_getElem hlt
  have hpayload := hagrees i want _ hwant
    (by rw [List.getElem?_take_of_lt hi, List.getElem?_drop, hbyte])
  rw [hpayload, and_eq_and_iff]
  intro bit hmask
  have hbit := h.bits _ bit (looksAt_of_maskAt hi hmask)
  rw [bit?, bit?, hbyte, hgot] at hbit
  exact Option.some.inj hbit

/-- **A pattern sees nothing but the bits it looks at.** -/
theorem isMatch_congr (h : SameWhere pattern.LooksAt payload other) :
    pattern.isMatch payload = pattern.isMatch other := by
  have hagrees : pattern.agrees ((payload.drop pattern.offset).take pattern.data.length) =
      pattern.agrees ((other.drop pattern.offset).take pattern.data.length) :=
    Bool.eq_iff_iff.2 ⟨agrees_of_sameWhere h, agrees_of_sameWhere h.symm⟩
  rw [isMatch, isMatch, window?, window?, h.length]
  by_cases hfits : min (pattern.offset + pattern.data.length) Json.sizeLimit ≤ other.length
  · simp only [if_pos hfits, hagrees]
  · simp only [if_neg hfits]

/-- A window that does not lie inside the payload is not matched, neither plainly nor inverted. -/
theorem isMatch_of_lt (hpayload : payload.length < 2 ^ 63)
    (hlt : payload.length < pattern.offset + pattern.data.length) :
    pattern.isMatch payload = false := by
  rw [isMatch, window?_of_lt (Nat.lt_trans hpayload (by decide)), if_neg (Nat.not_le.2 hlt)]

end BytePattern

/-! ## Fields -/

namespace FieldSchema

/-- The field looks at all bits of the bytes in its window. -/
def LooksAt (field : FieldSchema) (index _bit : Nat) : Prop :=
  field.offset ≤ index ∧ index < field.offset + field.length

/-- **A field sees nothing but its window.** -/
theorem decode_congr {field : FieldSchema} {payload other : Bytes}
    (h : SameWhere field.LooksAt payload other) : field.decode payload = field.decode other := by
  rw [decode, decode, window?_congr h.length fun i hi => getElem?_eq_of_bits fun bit => ?_]
  exact h.bits _ bit ⟨Nat.le_add_right _ _, Nat.add_lt_add_left hi _⟩

end FieldSchema

/-! ## Entities -/

namespace EntitySchema

/-- The description looks at this bit of a payload: for the state, for a field, for a flag, or for
the acknowledgement of a command. -/
inductive LooksAt (schema : EntitySchema) (index bit : Nat) : Prop
  | state (h : schema.state.LooksAt index bit)
  | field {name : String} {field : FieldSchema} (hfield : (name, field) ∈ schema.fields)
      (h : field.LooksAt index bit)
  | flag {name : String} {flag : BytePattern} (hflag : (name, flag) ∈ schema.flags)
      (h : flag.LooksAt index bit)
  | ack {command : String} {pattern : BytePattern} (hack : schema.ackOf command = some pattern)
      (h : pattern.LooksAt index bit)

variable {schema : EntitySchema} {payload other : Bytes}

theorem readFields_congr (h : SameWhere schema.LooksAt payload other) :
    schema.readFields payload = schema.readFields other := by
  have hvalues : ∀ entry ∈ schema.fields, entry.2.decode payload = entry.2.decode other :=
    fun _ hfield => FieldSchema.decode_congr (h.mono fun _ _ => .field hfield)
  have hflags : ∀ entry ∈ schema.flags, entry.2.isMatch payload = entry.2.isMatch other :=
    fun _ hflag => BytePattern.isMatch_congr (h.mono fun _ _ => .flag hflag)
  rw [readFields, readFields]
  congr 2
  · refine List.filterMap_congr ?_
    rintro ⟨name, field⟩ hentry
    simp only [hvalues _ hentry]
  · refine List.map_congr_left ?_
    rintro ⟨name, flag⟩ hentry
    simp only [hflags _ hentry]

theorem any_ackOf_congr (h : SameWhere schema.LooksAt payload other) (command : String) :
    (schema.ackOf command).any (·.isMatch payload) =
      (schema.ackOf command).any (·.isMatch other) := by
  cases hack : schema.ackOf command with
  | none => rfl
  | some pattern => exact BytePattern.isMatch_congr (h.mono fun _ _ => .ack hack)

/-- **A decoder sees nothing but what its description looks at.**  Two frames whose payloads have
one length, and the same bits in the windows of the state, the fields, the flags and the
acknowledgements, as far as the masks select them, belong to the entity or do not, report the same,
and acknowledge the same commands, whatever their other bits and their headers are.  And a pattern
with a window that does not lie inside the payload matches neither plainly nor inverted. -/
theorem decoder_looks {tx : TxFraming} {decoder : Decoder}
    (hresolve : schema.resolve tx = .ok decoder) :
    (∀ frame other : Frame, SameWhere schema.LooksAt frame.payload other.payload →
        decoder.matchesFrame frame = decoder.matchesFrame other ∧
          decoder.parse frame = decoder.parse other ∧
          ∀ command, decoder.matchesAck command frame = decoder.matchesAck command other) ∧
      ∀ (pattern : BytePattern) (payload : Bytes), payload.length < 2 ^ 63 →
        payload.length < pattern.offset + pattern.data.length →
        ∀ inverted, { pattern with inverted }.isMatch payload = false := by
  obtain rfl := eq_decoder_of_resolve hresolve
  refine ⟨fun frame other h => ⟨?_, ?_, fun command => ?_⟩,
    fun pattern payload hpayload hlt inverted => BytePattern.isMatch_of_lt hpayload hlt⟩
  · simp only [decoder, BytePattern.isMatch_congr (h.mono fun _ _ => .state)]
  · simp only [decoder, readFields_congr h]
  · simp only [decoder, any_ackOf_congr h command]

/-- A thermostat, whose windows overlap and whose masks leave bits out. -/
def thermostat : EntitySchema where
  id := "thermostat"
  state := { data := [0x10], mask := some (.uniform 0xF0) }
  fields := [("current", { offset := 1 })]
  flags := [("heating", { data := [0x80, 0x01], mask := some (.perByte [0x80]), offset := 2 })]
  commands := [("off", { data := [0x44], ack := some { data := [0x01], offset := 3 } })]

/-- Where the thermostat looks, these payloads differ only in bits that its masks leave out. -/
theorem thermostat_sameWhere :
    SameWhere thermostat.LooksAt [0x1C, 0x15, 0x80, 0x01, 0x55] [0x11, 0x15, 0xFF, 0x01, 0xAA] where
  length := rfl
  bits index bit hlooks := by
    cases hlooks with
    | state h =>
      obtain ⟨i, hi, rfl, hmask⟩ := h
      obtain rfl : i = 0 := Nat.lt_one_iff.1 hi
      exact congrArg some ((@and_eq_and_iff 0x1C 0x11 0xF0).1 (by decide) bit (hmask _ rfl))
    | field hfield h =>
      cases List.mem_singleton.1 hfield
      obtain rfl : index = 1 := Nat.le_antisymm (Nat.le_of_lt_succ h.2) h.1
      rfl
    | flag hflag h =>
      cases List.mem_singleton.1 hflag
      obtain ⟨i, hi, rfl, hmask⟩ := h
      match i, hi with
      | 0, _ =>
        exact congrArg some ((@and_eq_and_iff 0x80 0xFF 0x80).1 (by decide) bit (hmask _ rfl _ rfl))
      | 1, _ => rfl
    | ack hack h =>
      obtain ⟨c, hcommand, hc⟩ := Option.bind_eq_some_iff.1 hack
      simp only [thermostat, KeyMap.find?_cons, KeyMap.find?_nil] at hcommand
      split at hcommand
      · cases hcommand
        cases hc
        obtain ⟨i, hi, rfl, -⟩ := h
        obtain rfl : i = 0 := Nat.lt_one_iff.1 hi
        rfl
      · cases hcommand

/-- Two frames of the thermostat, and an inverted pattern at the largest offset. -/
theorem decoder_looks_of_thermostat :
    let tx : TxFraming := { header := [0xF7], footer := [], checksum := .named .add, delay := 50 }
    let decoder := thermostat.decoder tx
    let frame := Frame.ofBytes [0xF7, 0x1C, 0x15, 0x80, 0x01, 0x55] 1
    let other := Frame.ofBytes [0x00, 0x00, 0x11, 0x15, 0xFF, 0x01, 0xAA] 2
    let far : BytePattern := { data := [0x01], offset := 0xFFFFFFFFFFFFFFFF, inverted := true }
    thermostat.resolve tx = .ok decoder ∧
      SameWhere thermostat.LooksAt frame.payload other.payload ∧
      decoder.matchesFrame frame = decoder.matchesFrame other ∧
      decoder.parse frame = decoder.parse other ∧
      decoder.matchesAck "off" frame = decoder.matchesAck "off" other ∧
      far.isMatch frame.payload = false := by
  intro tx decoder frame other far
  have hresolve : thermostat.resolve tx = .ok decoder := rfl
  obtain ⟨hsame, hmiss⟩ := decoder_looks hresolve
  obtain ⟨hstate, hparse, hack⟩ := hsame frame other thermostat_sameWhere
  exact ⟨hresolve, thermostat_sameWhere, hstate, hparse, hack "off",
    hmiss far frame.payload (by decide) (by decide) true⟩

end EntitySchema
end Fieldbus
