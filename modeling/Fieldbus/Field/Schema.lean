import Fieldbus.Json.Record

/-!
# Descriptions of fields

A `FieldSchema` says where a value lies in the payload of a frame and how its bytes are read; an
`EncodingSchema` says how a value becomes bytes.  Both are written down as documents, where every
part but the essential ones has a default, and both are validated once, before any frame is seen.
-/

set_option autoImplicit false

namespace Fieldbus

/-- What is wrong with a description of bytes. -/
inductive SchemaError where
  /-- The field is shorter or longer than its kind allows. -/
  | invalidLength (kind : String) (length least greatest : Nat)
  /-- An encoding needs a parameter that is not given. -/
  | missingParameter (kind parameter : String)
  /-- A byte pattern without bytes. -/
  | emptyPattern
  /-- A list of masks that is longer than the pattern. -/
  | maskTooLong (masks bytes : Nat)
deriving DecidableEq, Repr

/-- The wording of a schema error. -/
def SchemaError.message : SchemaError → String
  | invalidLength kind length least greatest =>
    s!"invalid length {length} for {kind} (allowed {least}..={greatest})"
  | missingParameter kind parameter => s!"value_encode {kind} requires {parameter}"
  | emptyPattern => "state pattern must contain at least one data byte"
  | maskTooLong masks bytes => s!"mask has {masks} bytes but pattern data has {bytes}"

/-- The widest plain integer, in bytes. -/
def maxIntegerLength : Nat := 8

/-! ## Byte order and kinds -/

/-- Which end of a field comes first. -/
inductive ByteOrder where
  | bigEndian
  | littleEndian
deriving DecidableEq, Repr

namespace ByteOrder

/-- The names of the byte orders. -/
def names : List (String × ByteOrder) := [("big", bigEndian), ("little", littleEndian)]

/-- The name of a byte order. -/
def name : ByteOrder → String
  | bigEndian => "big"
  | littleEndian => "little"

/-- A field with its most significant byte first, from or to the bytes as they travel. -/
def arrange (order : ByteOrder) (bytes : List UInt8) : List UInt8 :=
  match order with
  | bigEndian => bytes
  | littleEndian => bytes.reverse

/-- Arranging twice changes nothing. -/
@[simp] theorem arrange_arrange (order : ByteOrder) (bytes : List UInt8) :
    order.arrange (order.arrange bytes) = bytes := by
  cases order with
  | bigEndian => rfl
  | littleEndian => exact List.reverse_reverse bytes

/-- Where there are no bytes, there is nothing to arrange. -/
@[simp] theorem arrange_eq_nil_iff {order : ByteOrder} {bytes : List UInt8} :
    order.arrange bytes = [] ↔ bytes = [] := by
  cases order with
  | bigEndian => exact Iff.rfl
  | littleEndian => exact List.reverse_eq_nil_iff

/-- Arranging keeps the count of bytes. -/
@[simp] theorem length_arrange (order : ByteOrder) (bytes : List UInt8) :
    (order.arrange bytes).length = bytes.length := by
  cases order with
  | bigEndian => rfl
  | littleEndian => exact List.length_reverse

end ByteOrder

/-- How the bytes of a field are read. -/
inductive FieldKind where
  /-- A whole number, in two's complement if the field is signed. -/
  | integer
  /-- Two decimal digits per byte. -/
  | bcd
  /-- One character per byte. -/
  | text
  /-- One byte: a magnitude, `0x80` for a half, and in signed fields `0x40` for the sign. -/
  | halfUnit
deriving DecidableEq, Repr

namespace FieldKind

/-- The name of a kind in a description. -/
def name : FieldKind → String
  | integer => "none"
  | bcd => "bcd"
  | text => "ascii"
  | halfUnit => "signed_half_unit"

/-- The kinds by name. -/
def names : List (String × FieldKind) :=
  [integer, bcd, text, halfUnit].map fun kind => (kind.name, kind)

/-- The least and the greatest length of a field of this kind. -/
def lengthBounds : FieldKind → Nat × Nat
  | integer => (1, maxIntegerLength)
  | halfUnit => (1, 1)
  | bcd => (1, Json.sizeLimit)
  | text => (1, Json.sizeLimit)

end FieldKind

/-- How a value becomes bytes. -/
inductive EncodingKind where
  /-- A whole number of fixed width. -/
  | integer
  /-- Two decimal digits per byte, as many bytes as the number needs. -/
  | bcd
  /-- One byte per character. -/
  | text
  /-- One byte: a magnitude, `0x80` for a half, and in signed fields `0x40` for the sign. -/
  | halfUnit
  /-- Times a factor, then a whole number of fixed width. -/
  | multiply
  /-- Plus an offset, then a whole number of fixed width. -/
  | addOffset
deriving DecidableEq, Repr

namespace EncodingKind

/-- The name of a kind in a description. -/
def name : EncodingKind → String
  | integer => "none"
  | bcd => "bcd"
  | text => "ascii"
  | halfUnit => "signed_half_unit"
  | multiply => "multiply"
  | addOffset => "add_offset"

/-- The kinds by name. -/
def names : List (String × EncodingKind) :=
  [integer, bcd, text, halfUnit, multiply, addOffset].map fun kind => (kind.name, kind)

/-- The kinds whose bytes are a whole number of fixed width. -/
def isFixedWidth : EncodingKind → Bool
  | integer => true
  | multiply => true
  | addOffset => true
  | _ => false

end EncodingKind

/-! ## Fields to be read -/

/-- Where a value lies in a payload and how it is read. -/
structure FieldSchema where
  /-- The first byte of the field, counted from the end of the header. -/
  offset : Nat := 0
  /-- How many bytes the field has. -/
  length : Nat := 1
  /-- Decimal places kept after reading; zero keeps them all. -/
  precision : Nat := 0
  signed : Bool := false
  order : ByteOrder := .bigEndian
  kind : FieldKind := .integer
deriving DecidableEq, Repr

namespace FieldSchema

/-- The greatest precision that can be written down. -/
def precisionLimit : Nat := 0xFFFFFFFF

/-- The length of a field suits its kind. -/
def validate (schema : FieldSchema) : Except SchemaError Unit :=
  let (least, greatest) := schema.kind.lengthBounds
  if schema.length < least ∨ greatest < schema.length then
    .error (.invalidLength schema.kind.name schema.length least greatest)
  else .ok ()

/-- The members of the description of a field. -/
def shape : Json.Shape := .flat ["offset", "length", "precision", "signed", "endian", "decode"]

/-- The description of a field, read from a document. -/
def ofJson? : Json → Option FieldSchema :=
  Json.Record.read do
    let offset ← Json.Record.defaulted "offset" 0 Json.size?
    let length ← Json.Record.defaulted "length" 1 Json.size?
    let precision ← Json.Record.defaulted "precision" 0 (Json.natUpTo? precisionLimit)
    let signed ← Json.Record.defaulted "signed" false Json.bool?
    let order ← Json.Record.defaulted "endian" .bigEndian (Json.name? ByteOrder.names)
    let kind ← Json.Record.defaulted "decode" .integer (Json.name? FieldKind.names)
    return { offset, length, precision, signed, order, kind }

/-- The description of a field as a document, every part written out. -/
def toJson (schema : FieldSchema) : Json :=
  Json.ofMembers
    [("offset", .nat schema.offset), ("length", .nat schema.length),
      ("precision", .nat schema.precision), ("signed", .bool schema.signed),
      ("endian", .string schema.order.name), ("decode", .string schema.kind.name)]

end FieldSchema

/-! ## Values to be written -/

/-- How a value is turned into the bytes of a field. -/
structure EncodingSchema where
  kind : EncodingKind := .integer
  /-- How many bytes a whole number takes; the other kinds have a width of their own. -/
  length : Nat := 1
  signed : Bool := false
  order : ByteOrder := .bigEndian
  /-- The factor of `multiply`. -/
  factor : Option Binary64 := none
  /-- The offset of `addOffset`. -/
  offset : Option Binary64 := none
deriving DecidableEq, Repr

namespace EncodingSchema

/-- An encoding has the parameter that its kind needs, and a whole number has a width within
bounds. -/
def validate (schema : EncodingSchema) : Except SchemaError Unit :=
  if schema.kind = .multiply ∧ schema.factor = none then
    .error (.missingParameter EncodingKind.multiply.name "multiply_factor")
  else if schema.kind = .addOffset ∧ schema.offset = none then
    .error (.missingParameter EncodingKind.addOffset.name "add_offset")
  else if schema.kind.isFixedWidth ∧ (schema.length = 0 ∨ maxIntegerLength < schema.length) then
    .error (.invalidLength schema.kind.name schema.length 1 maxIntegerLength)
  else .ok ()

/-- The members of the description of an encoding. -/
def shape : Json.Shape :=
  .flat ["value_encode", "length", "signed", "endian", "multiply_factor", "add_offset"]

/-- The description of an encoding, read from a document. -/
def ofJson? : Json → Option EncodingSchema :=
  Json.Record.read do
    let kind ← Json.Record.defaulted "value_encode" .integer (Json.name? EncodingKind.names)
    let length ← Json.Record.defaulted "length" 1 Json.size?
    let signed ← Json.Record.defaulted "signed" false Json.bool?
    let order ← Json.Record.defaulted "endian" .bigEndian (Json.name? ByteOrder.names)
    let factor ← Json.Record.optional "multiply_factor" Json.real?
    let offset ← Json.Record.optional "add_offset" Json.real?
    return { kind, length, signed, order, factor, offset }

/-- The description of an encoding as a document, every part written out. -/
def toJson (schema : EncodingSchema) : Json :=
  Json.ofMembers
    [("value_encode", .string schema.kind.name), ("length", .nat schema.length),
      ("signed", .bool schema.signed), ("endian", .string schema.order.name),
      ("multiply_factor", Json.ofOption Json.real schema.factor),
      ("add_offset", Json.ofOption Json.real schema.offset)]

end EncodingSchema
end Fieldbus
