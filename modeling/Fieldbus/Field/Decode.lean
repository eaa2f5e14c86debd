import Fieldbus.Bytes
import Fieldbus.Field.Schema
import Fieldbus.Field.Value

/-!
# Reading fields

`FieldSchema.decode` reads the value of one field from a payload.  A field that does not fit into
the payload has no value; that is no error, for the other fields of the frame are still usable.

Numbers are put together from the most significant byte on, each step in double precision.
-/

set_option autoImplicit false

namespace Fieldbus

/-! ## Kinds of numbers -/

/-- The whole number of the bytes, most significant byte first. -/
def decodeUnsigned (field : Bytes) : Binary64 :=
  field.foldl (fun value b => (value.mul 256).add (.ofNat b.toNat)) 0

/-- The whole number of the bytes; in two's complement the upper half of the range is negative. -/
def decodeInteger (signed : Bool) (field : Bytes) : Binary64 :=
  let value := decodeUnsigned field
  let bits : Int := field.length * 8
  if signed && value.ge (.pow 2 (bits - 1)) then value.sub (.pow 2 bits) else value

/-- The number whose decimal digits are the half bytes, most significant byte first.  A half byte
above nine counts with its value. -/
def decodeBcd (field : Bytes) : Binary64 :=
  field.foldl
    (fun value b =>
      ((value.mul 100).add ((Binary64.ofNat (b.toNat / 16)).mul 10)).add (.ofNat (b.toNat % 16)))
    0

/-- The bits of a byte that hold the magnitude in half units: with a sign bit there are six. -/
def halfUnitMask (signed : Bool) : UInt8 := if signed then 0x3F else 0x7F

/-- The number of a byte in half units. -/
def decodeHalfUnit (signed : Bool) (byte : UInt8) : Binary64 :=
  let whole := Binary64.ofNat (byte &&& halfUnitMask signed).toNat
  let value := if byte &&& 0x80 ≠ 0 then whole.add .half else whole
  if signed && (byte &&& 0x40 != 0) then value.negate else value

/-- One character per byte, by its number. -/
def decodeText (field : Bytes) : String :=
  String.ofList (field.map fun b => Char.ofNat b.toNat)

/-! ## Precision -/

/-- The power of ten that a precision scales by.  A precision of `2 ^ 31` and above counts from
`2 ^ 32` downwards and is negative. -/
def precisionScale (precision : Nat) : Binary64 :=
  .pow 10 (if precision < 0x80000000 then (precision : Int) else (precision : Int) - 0x100000000)

/-- A number rounded to so many decimal places, a half going away from zero; zero places mean no
rounding. -/
def roundTo (precision : Nat) (x : Binary64) : Binary64 :=
  if precision = 0 then x
  else (x.mul (precisionScale precision)).roundHalfAway.div (precisionScale precision)

/-! ## Fields -/

/-- The bytes from `offset` on, `length` of them, if the payload has them all. -/
def window? (payload : Bytes) (offset length : Nat) : Option Bytes :=
  if min (offset + length) Json.sizeLimit ≤ payload.length then
    some ((payload.drop offset).take length)
  else none

/-- No payload is so long that the limit on the end of a window matters. -/
theorem window?_of_lt {payload : Bytes} (h : payload.length < Json.sizeLimit)
    (offset length : Nat) :
    window? payload offset length =
      if offset + length ≤ payload.length then some ((payload.drop offset).take length)
      else none := by
  rw [window?]
  by_cases hfits : offset + length ≤ payload.length
  · rw [if_pos hfits, if_pos (by omega)]
  · rw [if_neg hfits, if_neg (by omega)]

/-- A window shows nothing but the bytes in it. -/
theorem window?_congr {payload other : Bytes} {offset length : Nat}
    (hlength : payload.length = other.length)
    (h : ∀ i < length, payload[offset + i]? = other[offset + i]?) :
    window? payload offset length = window? other offset length := by
  have hbytes : (payload.drop offset).take length = (other.drop offset).take length := by
    refine List.ext_getElem? fun i => ?_
    rw [List.getElem?_take, List.getElem?_take, List.getElem?_drop, List.getElem?_drop]
    split
    · exact h i ‹_›
    · rfl
  rw [window?, window?, hlength, hbytes]

theorem window?_all (payload : Bytes) : window? payload 0 payload.length = some payload := by
  rw [window?, if_pos (by omega), List.drop_zero, List.take_length]

namespace FieldSchema

/-- The number in the bytes of a field, most significant byte first. -/
def decodeNumber (schema : FieldSchema) (field : Bytes) : Option Binary64 :=
  match schema.kind with
  | .integer => some (decodeInteger schema.signed field)
  | .bcd => some (decodeBcd field)
  | .halfUnit =>
    match field with
    | [byte] => some (decodeHalfUnit schema.signed byte)
    | _ => none
  | .text => none

/-- The value of a field, if it lies inside the payload. -/
def decode (schema : FieldSchema) (payload : Bytes) : Option Value :=
  if schema.length = 0 then none
  else
    (window? payload schema.offset schema.length).bind fun bytes =>
      let field := schema.order.arrange bytes
      if schema.kind = .text then some (.text (decodeText field))
      else (schema.decodeNumber field).map fun x => .number (roundTo schema.precision x)

/-- A field that fills the payload. -/
theorem decode_of_fills {schema : FieldSchema} {payload : Bytes} (hoffset : schema.offset = 0)
    (hlength : payload.length = schema.length) (hne : payload ≠ []) :
    schema.decode payload =
      if schema.kind = .text then some (.text (decodeText (schema.order.arrange payload)))
      else (schema.decodeNumber (schema.order.arrange payload)).map
        fun x => .number (roundTo schema.precision x) := by
  have hpos : schema.length ≠ 0 := fun h => hne (List.length_eq_zero_iff.1 (hlength.trans h))
  rw [decode, if_neg hpos, hoffset, ← hlength, window?_all, Option.bind_some]

end FieldSchema
end Fieldbus
