import Fieldbus.Channel.Config
import Fieldbus.Entity.Schema
import Fieldbus.Offload.Basic
import Fieldbus.Proofs.Json.Fields
import Fieldbus.Queue
import Mathlib.Logic.Relation

/-!
# Descriptions survive being written down

Channels, entities and everything in them are described in documents, which are stored, read, and
stored again.  Nothing may be lost or changed in this, and it should not matter in what words a
description was first written.  For each kind of description its `slots` say what its members are;
that it is read and written by them is checked once, in its `codec`, and what there is to be proved
about it follows: `descriptions_survive`.
-/

set_option autoImplicit false

namespace Fieldbus

open Json (Codec Slot)

/-! ## What is written as a name -/

/-- Byte orders. -/
def ByteOrder.codec : Codec ByteOrder := .name names name fun order => by cases order <;> rfl

/-- Kinds of fields. -/
def FieldKind.codec : Codec FieldKind := .name names name fun kind => by cases kind <;> rfl

/-- Kinds of encodings. -/
def EncodingKind.codec : Codec EncodingKind := .name names name fun kind => by cases kind <;> rfl

/-- Priorities. -/
def Priority.codec : Codec Priority := .name names name fun priority => by cases priority <;> rfl

/-! ## Fields and patterns

For each kind of description three things are written down: which values fit, the table of its
slots, and the codec made of both.  That the reader follows the table is checked field by field, by
computation. -/

namespace FieldSchema

/-- The numbers can be written down. -/
structure Fits (schema : FieldSchema) : Prop where
  offset : schema.offset ≤ Json.sizeLimit
  length : schema.length ≤ Json.sizeLimit
  precision : schema.precision ≤ precisionLimit

/-- The members of the description of a field. -/
def slots : List (Slot FieldSchema) :=
  [.defaulted "offset" 0 .size (Nat.zero_le _) offset,
    .defaulted "length" 1 .size (by decide : 1 ≤ Json.sizeLimit) length,
    .defaulted "precision" 0 (.natUpTo precisionLimit (by decide)) (Nat.zero_le _) precision,
    .defaulted "signed" false .bool trivial signed,
    .defaulted "endian" .bigEndian ByteOrder.codec trivial order,
    .defaulted "decode" .integer FieldKind.codec trivial kind]

/-- Descriptions of fields. -/
def codec : Codec FieldSchema :=
  .record ofJson? toJson Fits slots rfl
    (.field fun _ => .field fun _ => .field fun _ => .field fun _ => .field fun _ => .field fun _ =>
      .done fun schema => by cases schema; simp [and_assoc])
    (fun _ => rfl) (by decide) fun schema => by
      simp only [slots, List.forall_mem_cons]
      exact ⟨fun h => ⟨h.offset, h.length, h.precision, trivial, trivial, trivial, nofun⟩,
        fun h => ⟨h.1, h.2.1, h.2.2.1⟩⟩

end FieldSchema

namespace EncodingSchema

/-- The numbers can be written down. -/
structure Fits (schema : EncodingSchema) : Prop where
  length : schema.length ≤ Json.sizeLimit
  factor : ∀ x ∈ schema.factor, x.isFinite = true
  offset : ∀ x ∈ schema.offset, x.isFinite = true

/-- The members of the description of an encoding. -/
def slots : List (Slot EncodingSchema) :=
  [.defaulted "value_encode" .integer EncodingKind.codec trivial kind,
    .defaulted "length" 1 .size (by decide : 1 ≤ Json.sizeLimit) length,
    .defaulted "signed" false .bool trivial signed,
    .defaulted "endian" .bigEndian ByteOrder.codec trivial order,
    .optional "multiply_factor" .real Codec.neverNull_real factor,
    .optional "add_offset" .real Codec.neverNull_real offset]

/-- Descriptions of encodings. -/
def codec : Codec EncodingSchema :=
  .record ofJson? toJson Fits slots rfl
    (.field fun _ => .field fun _ => .field fun _ => .field fun _ => .field fun _ => .field fun _ =>
      .done fun schema => by cases schema; simp [and_assoc])
    (fun _ => rfl) (by decide) fun schema => by
      simp only [slots, List.forall_mem_cons]
      exact ⟨fun h => ⟨trivial, h.length, trivial, trivial, h.factor, h.offset, nofun⟩,
        fun h => ⟨h.2.1, h.2.2.2.2.1, h.2.2.2.2.2.1⟩⟩

theorem neverNull_codec : codec.NeverNull := fun _ h => by cases h

end EncodingSchema

/-- Masks. -/
def Mask.codec : Codec Mask where
  read := ofJson?
  write := toJson
  Fits _ := True
  Restated _ _ := False
  read_write {mask} _ := by
    cases mask with
    | uniform bits =>
      have hread : Json.byte? (.nat bits.toNat) = some bits := Codec.byte.read_write trivial
      show ((Json.byte? (.nat bits.toNat)).map uniform).or _ = _
      rw [hread]
      rfl
    | perByte bits =>
      have hread : Json.bytes? (.ofBytes bits) = some bits := Codec.bytes.read_write trivial
      show (none : Option Mask).or ((Json.bytes? (.ofBytes bits)).map perByte) = _
      rw [hread]
      rfl
  sound_write {mask} _ := by
    cases mask with
    | uniform bits => exact Codec.byte.sound_write trivial
    | perByte bits => exact Codec.bytes.sound_write trivial
  fits_of_read _ _ := trivial
  read_restated h := h.elim

theorem Mask.neverNull_codec : codec.NeverNull := fun {mask} _ h => by cases mask <;> cases h

namespace BytePattern

/-- The offset can be written down. -/
structure Fits (pattern : BytePattern) : Prop where
  offset : pattern.offset ≤ Json.sizeLimit

/-- The members of a pattern. -/
def slots : List (Slot BytePattern) :=
  [.required "data" .bytes data,
    .optional "mask" Mask.codec Mask.neverNull_codec mask,
    .defaulted "offset" 0 .size (Nat.zero_le _) offset,
    .defaulted "inverted" false .bool trivial inverted]

/-- Patterns. -/
def codec : Codec BytePattern :=
  .record ofJson? toJson Fits slots rfl
    (.field fun _ => .field fun _ => .field fun _ => .field fun _ =>
      .done fun pattern => by cases pattern; simp [and_assoc])
    (fun _ => rfl) (by decide) fun pattern => by
      simp only [slots, List.forall_mem_cons]
      exact ⟨fun h => ⟨trivial, fun _ _ => trivial, h.offset, trivial, nofun⟩,
        fun h => ⟨h.2.2.1⟩⟩

theorem neverNull_codec : codec.NeverNull := fun _ h => by cases h

end BytePattern

/-! ## Channels -/

namespace ChecksumSetting

/-- The member of a script. -/
def slots : List (Slot String) := [.required "script" .string id]

/-- Scripts, told from names by being records. -/
def scriptCodec : Codec String :=
  .record (Json.Record.read (Json.Record.required "script" Json.string? >>= pure))
    (fun expression => toJson (script expression)) (fun _ => True) slots rfl
    (.field fun _ => .done fun expression => by simp)
    (fun _ => rfl) (by decide) fun expression => by
      simp only [slots, List.forall_mem_cons]
      exact ⟨fun _ => ⟨trivial, nofun⟩, fun _ => trivial⟩

theorem ofJson?_object (members : List (String × Json)) :
    ofJson? (.object members) = (scriptCodec.read (.object members)).map script := by
  have hread : scriptCodec.read =
      Json.Record.read (Json.Record.required "script" Json.string? >>= pure) := rfl
  rw [hread, bind_pure]
  exact Json.Record.read_map script (Json.Record.required "script" Json.string?) _

/-- Checksums. -/
def codec : Codec ChecksumSetting where
  read := ofJson?
  write := toJson
  Fits _ := True
  Restated := Json.Record.Restated slots
  read_write {setting} _ := by
    cases setting with
    | named name => rfl
    | script expression =>
      have hread : scriptCodec.read (toJson (script expression)) = some expression :=
        scriptCodec.read_write trivial
      exact (ofJson?_object _).trans (congrArg (Option.map script) hread)
  sound_write {setting} _ := by
    cases setting with
    | named name => exact .string name
    | script expression => exact scriptCodec.sound_write (a := expression) trivial
  fits_of_read _ _ := trivial
  read_restated h := by
    have hread := scriptCodec.read_restated h
    cases h with
    | item => rfl
    | _ => rw [ofJson?_object, ofJson?_object, hread]

theorem neverNull_codec : codec.NeverNull := fun {setting} _ h => by cases setting <;> cases h

end ChecksumSetting

namespace ChannelConfig

/-- The numbers can be written down. -/
structure Fits (config : ChannelConfig) : Prop where
  rxLength : ∀ n ∈ config.rxLength, n ≤ Json.sizeLimit
  rxMinLength : ∀ n ∈ config.rxMinLength, n ≤ Json.sizeLimit
  rxMaxLength : ∀ n ∈ config.rxMaxLength, n ≤ Json.sizeLimit
  rxTimeout : config.rxTimeout ≤ Json.sizeLimit
  txDelay : config.txDelay ≤ Json.sizeLimit

/-- The members of the description of a channel. -/
def slots : List (Slot ChannelConfig) :=
  [.defaulted "rx_header" [] .bytes trivial rxHeader,
    .defaulted "rx_footer" [] .bytes trivial rxFooter,
    .optional "rx_checksum" ChecksumSetting.codec ChecksumSetting.neverNull_codec rxChecksum,
    .optional "rx_checksum2" ChecksumSetting.codec ChecksumSetting.neverNull_codec rxChecksum2,
    .optional "rx_length" .size Codec.neverNull_size rxLength,
    .optional "rx_min_length" .size Codec.neverNull_size rxMinLength,
    .optional "rx_max_length" .size Codec.neverNull_size rxMaxLength,
    .defaulted "rx_timeout_ms" 10 .size (by decide : 10 ≤ Json.sizeLimit) rxTimeout,
    .optional "rx_valid_headers" .bytes Codec.neverNull_bytes rxStartBytes,
    .defaulted "tx_header" [] .bytes trivial txHeader,
    .defaulted "tx_footer" [] .bytes trivial txFooter,
    .optional "tx_checksum" ChecksumSetting.codec ChecksumSetting.neverNull_codec txChecksum,
    .optional "tx_checksum2" ChecksumSetting.codec ChecksumSetting.neverNull_codec txChecksum2,
    .defaulted "tx_delay_ms" 50 .size (by decide : 50 ≤ Json.sizeLimit) txDelay]

/-- Descriptions of channels. -/
def codec : Codec ChannelConfig :=
  .record ofJson? toJson Fits slots rfl
    (.field fun _ => .field fun _ => .field fun _ => .field fun _ => .field fun _ => .field fun _ =>
      .field fun _ => .field fun _ => .field fun _ => .field fun _ => .field fun _ =>
      .field fun _ => .field fun _ => .field fun _ =>
      .done fun config => by cases config; simp [and_assoc])
    (fun _ => rfl) (by decide) fun config => by
      simp only [slots, List.forall_mem_cons]
      exact ⟨fun h => ⟨trivial, trivial, fun _ _ => trivial, fun _ _ => trivial, h.rxLength,
          h.rxMinLength, h.rxMaxLength, h.rxTimeout, fun _ _ => trivial, trivial, trivial,
          fun _ _ => trivial, fun _ _ => trivial, h.txDelay, nofun⟩,
        fun ⟨_, _, _, _, hlength, hmin, hmax, htimeout, _, _, _, _, _, hdelay, _⟩ =>
          ⟨hlength, hmin, hmax, htimeout, hdelay⟩⟩

end ChannelConfig

/-! ## Entities -/

namespace CommandSchema

/-- The numbers can be written down. -/
structure Fits (schema : CommandSchema) : Prop where
  value : ∀ encoding ∈ schema.value, encoding.Fits
  valueOffset : ∀ n ∈ schema.valueOffset, n ≤ Json.sizeLimit
  ack : ∀ pattern ∈ schema.ack, pattern.Fits

/-- The members of the description of a command. -/
def slots : List (Slot CommandSchema) :=
  [.required "data" .bytes data,
    .optional "value" EncodingSchema.codec EncodingSchema.neverNull_codec value,
    .optional "value_offset" .size Codec.neverNull_size valueOffset,
    .optional "ack" BytePattern.codec BytePattern.neverNull_codec ack]

/-- Descriptions of commands. -/
def codec : Codec CommandSchema :=
  .record ofJson? toJson Fits slots rfl
    (.field fun _ => .field fun _ => .field fun _ => .field fun _ =>
      .done fun schema => by cases schema; simp [and_assoc])
    (fun _ => rfl) (by decide) fun schema => by
      simp only [slots, List.forall_mem_cons]
      exact ⟨fun h => ⟨trivial, h.value, h.valueOffset, h.ack, nofun⟩,
        fun ⟨_, hvalue, hoffset, hack, _⟩ => ⟨hvalue, hoffset, hack⟩⟩

end CommandSchema

namespace EntitySchema

/-- The numbers can be written down, and the maps are maps. -/
structure Fits (schema : EntitySchema) : Prop where
  state : schema.state.Fits
  fields : KeyMap.Sorted schema.fields ∧ ∀ entry ∈ schema.fields, entry.2.Fits
  flags : KeyMap.Sorted schema.flags ∧ ∀ entry ∈ schema.flags, entry.2.Fits
  commands : KeyMap.Sorted schema.commands ∧ ∀ entry ∈ schema.commands, entry.2.Fits

/-- The members of the description of an entity. -/
def slots : List (Slot EntitySchema) :=
  [.required "id" .string id,
    .optional "state_proxy" .string Codec.neverNull_string stateProxy,
    .required "state" BytePattern.codec state,
    .defaulted "fields" [] FieldSchema.codec.map FieldSchema.codec.fits_map_nil fields,
    .defaulted "flags" [] BytePattern.codec.map BytePattern.codec.fits_map_nil flags,
    .defaulted "commands" [] CommandSchema.codec.map CommandSchema.codec.fits_map_nil commands]

/-- Descriptions of entities. -/
def codec : Codec EntitySchema :=
  .record ofJson? toJson Fits slots rfl
    (.field fun _ => .field fun _ => .field fun _ => .field fun _ => .field fun _ => .field fun _ =>
      .done fun schema => by cases schema; simp [and_assoc])
    (fun _ => rfl) (by decide) fun schema => by
      simp only [slots, List.forall_mem_cons]
      exact ⟨fun h => ⟨trivial, fun _ _ => trivial, h.state, h.fields, h.flags, h.commands, nofun⟩,
        fun ⟨_, _, hstate, hfields, hflags, hcommands, _⟩ =>
          ⟨hstate, hfields, hflags, hcommands⟩⟩

end EntitySchema

/-! ## Offloading -/

namespace OffloadConfig

/-- The number can be written down. -/
structure Fits (config : OffloadConfig) : Prop where
  bufferCap : config.bufferCap ≤ Json.sizeLimit

/-- The member of the settings. -/
def slots : List (Slot OffloadConfig) :=
  [.defaulted "buffer_cap" 65536 .size (by decide : 65536 ≤ Json.sizeLimit) bufferCap]

/-- Settings of offloading. -/
def codec : Codec OffloadConfig :=
  .record ofJson? toJson Fits slots rfl
    (.field fun _ => .done fun config => by cases config; simp) (fun _ => rfl) (by decide)
    fun config => by
      simp only [slots, List.forall_mem_cons]
      exact ⟨fun h => ⟨h.bufferCap, nofun⟩, fun h => ⟨h.1⟩⟩

end OffloadConfig

/-! ## All descriptions -/

namespace Json

/-- Values that fit survive being written down and read. -/
structure Survives {α : Type} (read : Json → Option α) (write : α → Json) (Fits : α → Prop)
    (Restated : Json → Json → Prop) : Prop where
  /-- What is written is read as what it was. -/
  read_write : ∀ a, Fits a → (write a).Sound ∧ read (write a) = some a
  /-- What has been read is written in a normal form: it is accepted, means the same, and is its
  own normal form. -/
  normal : ∀ document a, document.Sound → read document = some a →
    Fits a ∧ (write a).Sound ∧ read (write a) = some a ∧
      (read (write a)).map write = some (write a)
  /-- In other words the same is read, however often the words are changed. -/
  restated : ∀ document document', Relation.ReflTransGen Restated document document' →
    read document' = read document

theorem Codec.survives {α : Type} (codec : Codec α) :
    Survives codec.read codec.write codec.Fits codec.Restated where
  read_write a h := ⟨codec.sound_write h, codec.read_write h⟩
  normal document a hsound h := by
    have hfits := codec.fits_of_read hsound h
    have hread := codec.read_write hfits
    exact ⟨hfits, codec.sound_write hfits, hread, by rw [hread]; rfl⟩
  restated document document' h := by
    induction h with
    | refl => rfl
    | tail _ hlast ih => exact (codec.read_restated hlast).trans ih

end Json

/-- **Descriptions survive being written down and read.**  Each of them is read as what it was, as
long as its numbers can be written down.  What has been read is written in a normal form.  And it
makes no difference if members that are no fields stand in a description or in one within it, if
fields that hold their default are left out, and if optional fields that are missing are written as
`null`. -/
theorem descriptions_survive :
    Json.Survives FieldSchema.ofJson? FieldSchema.toJson FieldSchema.Fits
        (Json.Record.Restated FieldSchema.slots) ∧
      Json.Survives EncodingSchema.ofJson? EncodingSchema.toJson EncodingSchema.Fits
        (Json.Record.Restated EncodingSchema.slots) ∧
      Json.Survives BytePattern.ofJson? BytePattern.toJson BytePattern.Fits
        (Json.Record.Restated BytePattern.slots) ∧
      Json.Survives ChecksumSetting.ofJson? ChecksumSetting.toJson (fun _ => True)
        (Json.Record.Restated ChecksumSetting.slots) ∧
      Json.Survives ChannelConfig.ofJson? ChannelConfig.toJson ChannelConfig.Fits
        (Json.Record.Restated ChannelConfig.slots) ∧
      Json.Survives CommandSchema.ofJson? CommandSchema.toJson CommandSchema.Fits
        (Json.Record.Restated CommandSchema.slots) ∧
      Json.Survives EntitySchema.ofJson? EntitySchema.toJson EntitySchema.Fits
        (Json.Record.Restated EntitySchema.slots) ∧
      Json.Survives OffloadConfig.ofJson? OffloadConfig.toJson OffloadConfig.Fits
        (Json.Record.Restated OffloadConfig.slots) ∧
      Json.Survives Priority.ofJson? Priority.toJson (fun _ => True) (fun _ _ => False) :=
  ⟨FieldSchema.codec.survives, EncodingSchema.codec.survives, BytePattern.codec.survives,
    ChecksumSetting.codec.survives, ChannelConfig.codec.survives, CommandSchema.codec.survives,
    EntitySchema.codec.survives, OffloadConfig.codec.survives, Priority.codec.survives⟩

end Fieldbus
