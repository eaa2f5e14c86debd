import Fieldbus.Json.Shape
import Fieldbus.Json.Skip

/-!
# Reading a document

The text of a document is read from left to right; blanks may stand between its parts.  A shape says
which members of an object are read, and the others are passed over.  Those that are read are kept
as they were written, duplicates included: whether a repeated name is an error is for the reader of
the record to decide, and `Json.normalize` lets the last one win.

Arrays and objects that are read nest at most 127 deep, and a text with anything but blanks behind
the document is refused.  Every recursion is bounded by the length of the text: `readValue` and the
two functions beside it take that bound as fuel.
-/

set_option autoImplicit false

namespace Fieldbus
namespace Json

/-! ## Strings -/

/-- Four hexadecimal digits at the head of a text. -/
def readFourDigits : List Char → Option (Nat × List Char)
  | a :: b :: c :: d :: rest =>
    match hexValue? a, hexValue? b, hexValue? c, hexValue? d with
    | some a, some b, some c, some d => some (((a * 16 + b) * 16 + c) * 16 + d, rest)
    | _, _, _, _ => none
  | _ => none

/-- The character numbered behind `\u`.  A number of the upper surrogate range needs one of the
lower range right behind it, and the two name one character; neither stands alone. -/
def readNumbered (text : List Char) : Option (Char × List Char) :=
  (readFourDigits text).bind fun (high, rest) =>
    if high < 0xD800 ∨ 0xDFFF < high then some (Char.ofNat high, rest)
    else if 0xDBFF < high then none
    else match rest with
      | '\\' :: 'u' :: rest =>
        (readFourDigits rest).bind fun (low, rest) =>
          if 0xDC00 ≤ low ∧ low ≤ 0xDFFF then
            some (Char.ofNat (0x10000 + (high - 0xD800) * 0x400 + (low - 0xDC00)), rest)
          else none
      | _ => none

/-- The character behind a backslash. -/
def readEscape : List Char → Option (Char × List Char)
  | '"' :: rest => some ('"', rest)
  | '\\' :: rest => some ('\\', rest)
  | '/' :: rest => some ('/', rest)
  | 'b' :: rest => some ('\x08', rest)
  | 'f' :: rest => some ('\x0c', rest)
  | 'n' :: rest => some ('\n', rest)
  | 'r' :: rest => some ('\r', rest)
  | 't' :: rest => some ('\t', rest)
  | 'u' :: rest => readNumbered rest
  | _ => none

/-- A string up to its closing quote, the opening one already read; `read` holds the characters so
far, last one first. -/
def readString : Nat → List Char → List Char → Option (String × List Char)
  | 0, _, _ => none
  | _ + 1, _, [] => none
  | fuel + 1, read, c :: rest =>
    if c = '"' then some (String.ofList read.reverse, rest)
    else if c = '\\' then
      match readEscape rest with
      | some (c, rest) => readString fuel (c :: read) rest
      | none => none
    else if c.toNat < 32 then none
    else readString fuel (c :: read) rest

/-! ## Documents -/

/-- Arrays and objects may nest one less deep than this. -/
def depthLimit : Nat := 128

/-- A word at the head of a text stands for the given document. -/
def readWord (word : String) (document : Json) (text : List Char) : Option (Json × List Char) :=
  (skipWord word text).map fun rest => (document, rest)

mutual

/-- A document at the head of a text, and the text behind it. -/
def readValue (fuel depth : Nat) (shape : Shape) (text : List Char) : Option (Json × List Char) :=
  match fuel with
  | 0 => none
  | fuel + 1 =>
    match skipBlanks text with
    | [] => none
    | '"' :: rest => (readString (rest.length + 1) [] rest).map fun (s, rest) => (string s, rest)
    | '[' :: rest =>
      if depth ≤ 1 then none
      else match skipBlanks rest with
        | ']' :: rest => some (array [], rest)
        | rest =>
          (readItems fuel (depth - 1) shape rest).map fun (items, rest) => (array items, rest)
    | '\x7b' :: rest =>
      if depth ≤ 1 then none
      else match skipBlanks rest with
        | '\x7d' :: rest => some (object [], rest)
        | rest =>
          (readMembers fuel (depth - 1) shape rest).map fun (members, rest) =>
            (object members, rest)
    | 'n' :: rest => readWord "ull" null rest
    | 't' :: rest => readWord "rue" (bool true) rest
    | 'f' :: rest => readWord "alse" (bool false) rest
    | rest => (readNumber rest).map fun (n, rest) => (number n, rest)

/-- The items of an array up to its closing bracket, at least one. -/
def readItems (fuel depth : Nat) (shape : Shape) (text : List Char) :
    Option (List Json × List Char) :=
  match fuel with
  | 0 => none
  | fuel + 1 =>
    let (first, others) := shape.firstItem
    match readValue fuel depth first text with
    | none => none
    | some (item, rest) =>
      match skipBlanks rest with
      | ']' :: rest => some ([item], rest)
      | ',' :: rest =>
        (readItems fuel depth others rest).map fun (items, rest) => (item :: items, rest)
      | _ => none

/-- The members of an object up to its closing brace; at least one is there, if only to be passed
over. -/
def readMembers (fuel depth : Nat) (shape : Shape) (text : List Char) :
    Option (List (String × Json) × List Char) :=
  match fuel with
  | 0 => none
  | fuel + 1 =>
    match skipBlanks text with
    | '"' :: rest =>
      match readString (rest.length + 1) [] rest with
      | none => none
      | some (name, rest) =>
        match skipBlanks rest with
        | ':' :: rest =>
          let member := match shape.member? name with
            | none => (skipValue rest).map fun rest => ([], rest)
            | some shape =>
              (readValue fuel depth shape rest).map fun (value, rest) => ([(name, value)], rest)
          match member with
          | none => none
          | some (member, rest) =>
            match skipBlanks rest with
            | '\x7d' :: rest => some (member, rest)
            | ',' :: rest =>
              (readMembers fuel depth shape rest).map fun (members, rest) =>
                (member ++ members, rest)
            | _ => none
        | _ => none
    | _ => none

end

/-- What a shape says of the document that a text spells, its members as they were written. -/
def readShaped? (shape : Shape) (text : String) : Option Json :=
  let cs := text.toList
  match readValue (2 * cs.length + 2) depthLimit shape cs with
  | some (document, rest) => if (skipBlanks rest).isEmpty then some document else none
  | none => none

/-- The document that a text spells, its members in order. -/
def read? (text : String) : Option Json := (readShaped? .any text).map normalize

end Json
end Fieldbus
