import Fieldbus.Field.Decode

/-!
# Writing fields

`EncodingSchema.encode` turns a value into bytes.  A value that the encoding cannot express has no
bytes at all; it is never cut short.
-/

set_option autoImplicit false

namespace Fieldbus

/-! ## Kinds of bytes -/

/-- The `length` low bytes of an integer in two's complement, most significant byte first. -/
def packInteger (length : Nat) (n : Int) : Bytes :=
  ((List.range length).map fun i => UInt8.ofInt (Int.shiftRight n (8 * i))).reverse

/-- Two decimal digits as one byte. -/
def bcdByte (n : Nat) : UInt8 := UInt8.ofNat (n / 10 * 16 + n % 10)

/-- The decimal digits of a number, two per byte, least significant pair first; zero takes one
byte. -/
def bcdPairs (n : Nat) : Bytes :=
  if h : n / 100 = 0 then [bcdByte (n % 100)] else bcdByte (n % 100) :: bcdPairs (n / 100)
termination_by n

/-- The decimal digits of a number, two per byte. -/
def encodeBcd (n : Nat) : Bytes := (bcdPairs n).reverse

/-- A number as a byte in half units: the whole part cut to the bits of the magnitude, `0x80` when
the fraction is exactly one half, and `0x40` for a negative number if there is a sign. -/
def encodeHalfUnit (signed : Bool) (x : Binary64) : UInt8 :=
  let whole := UInt8.ofNat (x.abs.toIntClamped 0 255).toNat &&& halfUnitMask signed
  let withHalf := if x.endsInHalf then whole ||| 0x80 else whole
  if signed && x.lt 0 then withHalf ||| 0x40 else withHalf

/-- One byte per character; a text with a character above 255 has no bytes. -/
def encodeText (text : String) : Option Bytes :=
  text.toList.mapM fun c => if c.toNat < 256 then some (UInt8.ofNat c.toNat) else none

/-! ## Fields -/

/-- The range that whole numbers are clamped to before they are packed. -/
def packLimit : Int := 0x8000000000000000

/-- A number as bytes, most significant byte first. -/
def EncodingSchema.encodeNumber (schema : EncodingSchema) (x : Binary64) : Bytes :=
  let pack (y : Binary64) := packInteger schema.length (y.toIntClamped (-packLimit) (packLimit - 1))
  match schema.kind with
  | .integer => pack x
  | .multiply => pack (x.mul (schema.factor.getD 1))
  | .addOffset => pack (x.add (schema.offset.getD 0))
  | .bcd => encodeBcd (x.abs.toIntClamped 0 Json.sizeLimit).toNat
  | .halfUnit => [encodeHalfUnit schema.signed x]
  | .text => (encodeText x.plain).getD []

/-- The bytes of a value in the order of the description; none for a value that has no bytes. -/
def EncodingSchema.encode (schema : EncodingSchema) (value : Value) : Bytes :=
  match value with
  | .number x => schema.order.arrange (schema.encodeNumber x)
  | .text text =>
    if schema.kind = .text then schema.order.arrange ((encodeText text).getD []) else []

end Fieldbus
