import Fieldbus.Field.Decode

/-!
# Byte patterns

A `BytePattern` recognises frames: bytes at an offset of the payload, compared in the bits that a
mask selects.  An inverted pattern matches exactly where the plain one differs, but a payload that
is too short to hold the pattern is matched by neither.
-/

set_option autoImplicit false

namespace Fieldbus

/-- The bits that are compared. -/
inductive Mask where
  /-- The same bits in every byte. -/
  | uniform (bits : UInt8)
  /-- The bits of each byte; behind the end of the list all bits are compared. -/
  | perByte (bits : List UInt8)
deriving DecidableEq, Repr

namespace Mask

/-- The bits compared in the byte at this index of the pattern. -/
def bitsAt (mask : Mask) (index : Nat) : UInt8 :=
  match mask with
  | uniform bits => bits
  | perByte bits => bits[index]?.getD 0xFF

/-- A mask read from a document: a byte or a list of bytes. -/
def ofJson? (document : Json) : Option Mask :=
  ((Json.byte? document).map uniform).or ((Json.bytes? document).map perByte)

/-- A mask as a document. -/
def toJson : Mask → Json
  | uniform bits => .nat bits.toNat
  | perByte bits => .ofBytes bits

end Mask

/-- Bytes at an offset of the payload. -/
structure BytePattern where
  data : Bytes
  /-- Without a mask all bits are compared. -/
  mask : Option Mask := none
  /-- The first byte compared, counted from the end of the header. -/
  offset : Nat := 0
  /-- Match where the bytes differ. -/
  inverted : Bool := false
deriving DecidableEq, Repr

namespace BytePattern

/-- The bits compared in the byte at this index. -/
def maskAt (pattern : BytePattern) (index : Nat) : UInt8 :=
  match pattern.mask with
  | none => 0xFF
  | some mask => mask.bitsAt index

/-- Do the bytes agree with the pattern in all selected bits? -/
def agrees (pattern : BytePattern) (bytes : Bytes) : Bool :=
  ((pattern.data.zip bytes).zipIdx).all fun ((want, got), i) =>
    want &&& pattern.maskAt i == got &&& pattern.maskAt i

/-- Does the payload match the pattern? -/
def isMatch (pattern : BytePattern) (payload : Bytes) : Bool :=
  match window? payload pattern.offset pattern.data.length with
  | some bytes => pattern.agrees bytes != pattern.inverted
  | none => false

/-- A pattern has bytes, and at least as many as masks. -/
def validate (pattern : BytePattern) : Except SchemaError Unit :=
  if pattern.data.isEmpty then .error .emptyPattern
  else match pattern.mask with
    | some (.perByte bits) =>
      if pattern.data.length < bits.length then
        .error (.maskTooLong bits.length pattern.data.length)
      else .ok ()
    | _ => .ok ()

/-- The members of a pattern. -/
def shape : Json.Shape := .flat ["data", "mask", "offset", "inverted"]

/-- A pattern read from a document. -/
def ofJson? : Json → Option BytePattern :=
  Json.Record.read do
    let data ← Json.Record.required "data" Json.bytes?
    let mask ← Json.Record.optional "mask" Mask.ofJson?
    let offset ← Json.Record.defaulted "offset" 0 Json.size?
    let inverted ← Json.Record.defaulted "inverted" false Json.bool?
    return { data, mask, offset, inverted }

/-- A pattern as a document, every part written out. -/
def toJson (pattern : BytePattern) : Json :=
  Json.ofMembers
    [("data", .ofBytes pattern.data), ("mask", Json.ofOption Mask.toJson pattern.mask),
      ("offset", .nat pattern.offset), ("inverted", .bool pattern.inverted)]

end BytePattern
end Fieldbus
