import Fieldbus.Bytes
import Fieldbus.Text.Blank

/-!
# Bytes as a person types them

Blanks may stand anywhere between the digits.  What is left is looked at byte by byte in its UTF-8
form: the count of those bytes has to be even, and each has to be a digit.  `readBytes` says what is
wrong otherwise, the count first, then the first byte that is no digit.
-/

set_option autoImplicit false

namespace Fieldbus
namespace Text

/-- Why a text spells no bytes. -/
inductive HexError where
  | oddCount
  /-- A byte that is no digit, shown as the character of its number. -/
  | notADigit (c : Char) (position : Nat)
deriving DecidableEq, Repr

/-- The digits of a number in base sixteen without leading zeros, in small letters. -/
def hexNumber (n : Nat) : String := String.ofList (Nat.toDigits 16 n)

/-- A character between apostrophes; an apostrophe, a backslash and a control character are
escaped. -/
def quoteChar (c : Char) : String :=
  let text :=
    if c = '\'' then "\\'"
    else if c = '\\' then "\\\\"
    else if c.toNat < 0x20 ∨ 0x7F ≤ c.toNat ∧ c.toNat < 0xA0 then
      "\\u\x7b" ++ hexNumber c.toNat ++ "\x7d"
    else c.toString
  "'" ++ text ++ "'"

/-- The wording of a complaint. -/
def HexError.message : HexError → String
  | oddCount => "Odd number of digits"
  | notADigit c position => "Invalid character " ++ quoteChar c ++ s!" at position {position}"

/-- The bytes that pairs of digits spell, the first digit standing at the given position. -/
def readPairs (position : Nat) : List Char → Except HexError Bytes
  | [] => .ok []
  | [_] => .error .oddCount
  | high :: low :: rest =>
    match hexValue? high, hexValue? low with
    | none, _ => .error (.notADigit high position)
    | some _, none => .error (.notADigit low (position + 1))
    | some h, some l => do
      let bytes ← readPairs (position + 2) rest
      return UInt8.ofNat (16 * h + l) :: bytes

/-- The bytes that a text spells. -/
def readBytes (text : String) : Except HexError Bytes :=
  let units := (withoutBlanks text).toUTF8.toList.map fun b => Char.ofNat b.toNat
  if units.length % 2 = 1 then .error .oddCount else readPairs 0 units

end Text
end Fieldbus
