/-!
# Bytes and their hexadecimal text

What travels on a bus is a list of bytes.  It is shown as two hexadecimal digits per byte: `toHex`
without gaps and in small letters, `toSpacedHex` in capitals with a blank between two bytes.
`ofHex?` reads the form without gaps, in either case of letters.
-/

set_option autoImplicit false

namespace Fieldbus

/-- A run of bytes, first byte first. -/
abbrev Bytes := List UInt8

/-- The digit of a number below sixteen, in small letters. -/
def hexDigit (n : Nat) : Char := Char.ofNat (if n < 10 then 48 + n else 87 + n)

/-- The digit of a number below sixteen, in capitals. -/
def hexDigitUpper (n : Nat) : Char := Char.ofNat (if n < 10 then 48 + n else 55 + n)

/-- The value of a hexadecimal digit in either case. -/
def hexValue? (c : Char) : Option Nat :=
  let n := c.toNat
  if 48 ≤ n ∧ n ≤ 57 then some (n - 48)
  else if 97 ≤ n ∧ n ≤ 102 then some (n - 87)
  else if 65 ≤ n ∧ n ≤ 70 then some (n - 55)
  else none

namespace Bytes

/-- Two digits per byte, in small letters. -/
def toHex (bytes : Bytes) : String :=
  String.ofList (bytes.flatMap fun b => [hexDigit (b.toNat / 16), hexDigit (b.toNat % 16)])

/-- Two digits per byte, in capitals. -/
def toHexUpper (bytes : Bytes) : String :=
  String.ofList
    (bytes.flatMap fun b => [hexDigitUpper (b.toNat / 16), hexDigitUpper (b.toNat % 16)])

/-- Two digits per byte in capitals, the bytes separated by a blank. -/
def toSpacedHex (bytes : Bytes) : String :=
  " ".intercalate (bytes.map fun b => toHexUpper [b])

/-- The bytes of a list of digits; an odd count or a character that is no digit is refused. -/
def ofHexDigits? : List Char → Option Bytes
  | [] => some []
  | [_] => none
  | high :: low :: rest =>
    match hexValue? high, hexValue? low, ofHexDigits? rest with
    | some h, some l, some bytes => some (UInt8.ofNat (16 * h + l) :: bytes)
    | _, _, _ => none

/-- The bytes of a hexadecimal text. -/
def ofHex? (text : String) : Option Bytes := ofHexDigits? text.toList

/-- The exclusive or of all bytes. -/
def xor (bytes : Bytes) : UInt8 := bytes.foldl (· ^^^ ·) 0

/-- The sum of all bytes, modulo 256. -/
def sum (bytes : Bytes) : UInt8 := bytes.foldl (· + ·) 0

end Bytes
end Fieldbus
