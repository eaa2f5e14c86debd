import Fieldbus.Bytes
import Fieldbus.Decimal.Layout
import Fieldbus.Json.Value

/-!
# The compact text of a document

Nothing is written between the parts of a document.  In a string the quote, the backslash and the
control characters are escaped, five of the latter by a letter and the others by their number; all
else stands as it is.
-/

set_option autoImplicit false

namespace Fieldbus
namespace Json

/-- A character as it stands in a string of a document. -/
def escapeChar (c : Char) : List Char :=
  match c with
  | '"' => ['\\', '"']
  | '\\' => ['\\', '\\']
  | '\n' => ['\\', 'n']
  | '\r' => ['\\', 'r']
  | '\t' => ['\\', 't']
  | '\x08' => ['\\', 'b']
  | '\x0c' => ['\\', 'f']
  | c =>
    if c.toNat < 32 then ['\\', 'u', '0', '0', hexDigit (c.toNat / 16), hexDigit (c.toNat % 16)]
    else [c]

/-- A string with its quotes. -/
def quote (s : String) : String :=
  "\"" ++ String.ofList (s.toList.flatMap escapeChar) ++ "\""

/-- A number; a double that is not finite is written as nothing. -/
def numberText : JsonNumber → String
  | .integer n => toString n
  | .real x => x.interchange?.getD "null"

mutual

/-- The compact text of a document. -/
def compact : Json → String
  | null => "null"
  | bool true => "true"
  | bool false => "false"
  | number n => numberText n
  | string s => quote s
  | array items => "[" ++ compactItems items ++ "]"
  | object members => "\x7b" ++ compactMembers members ++ "\x7d"

/-- The items of an array, separated by commas. -/
def compactItems : List Json → String
  | [] => ""
  | [item] => compact item
  | item :: rest => compact item ++ "," ++ compactItems rest

/-- The members of an object, separated by commas. -/
def compactMembers : List (String × Json) → String
  | [] => ""
  | [(name, value)] => quote name ++ ":" ++ compact value
  | (name, value) :: rest => quote name ++ ":" ++ compact value ++ "," ++ compactMembers rest

end

end Json
end Fieldbus
