import Fieldbus.Bytes
import Fieldbus.Json.Number

/-!
# Passing over a document

A document that nobody reads only has to be written correctly.  So it is passed over without giving
numbers a size, without looking whether numbered characters exist, and without a limit on how deep
arrays and objects nest: those that are still open are kept in a list.
-/

set_option autoImplicit false

namespace Fieldbus
namespace Json

/-- The blanks that may stand between the parts of a document. -/
def isBlank (c : Char) : Bool := c = ' ' || c = '\n' || c = '\t' || c = '\r'

/-- The text without leading blanks. -/
def skipBlanks (text : List Char) : List Char := text.dropWhile isBlank

/-- The text behind a word at its head. -/
def skipWord (word : String) (text : List Char) : Option (List Char) :=
  if word.toList.isPrefixOf text then some (text.drop word.length) else none

/-! ## Strings -/

/-- The characters that may follow a backslash and stand for one character. -/
def escapeLetters : List Char := ['"', '\\', '/', 'b', 'f', 'n', 'r', 't']

/-- The text behind a string, the opening quote already read. -/
def skipString : List Char → Option (List Char)
  | [] => none
  | '"' :: rest => some rest
  | '\\' :: 'u' :: a :: b :: c :: d :: rest =>
    if [a, b, c, d].all fun digit => (hexValue? digit).isSome then skipString rest else none
  | '\\' :: letter :: rest => if escapeLetters.contains letter then skipString rest else none
  | c :: rest => if c = '\\' || c.toNat < 32 then none else skipString rest

/-! ## Numbers -/

/-- The text behind digits, at least one. -/
def skipDigits (text : List Char) : Option (List Char) :=
  if startsWithDigit text then some (text.dropWhile Char.isDigit) else none

/-- The text behind the exponent of a number, which stands behind its `e`. -/
def skipExponent : List Char → Option (List Char)
  | '+' :: rest => skipDigits rest
  | '-' :: rest => skipDigits rest
  | rest => skipDigits rest

/-- The text behind the exponent of a number, if it has one. -/
def skipScale : List Char → Option (List Char)
  | 'e' :: rest => skipExponent rest
  | 'E' :: rest => skipExponent rest
  | rest => some rest

/-- The text behind the fraction and the exponent of a number, if it has them. -/
def skipFraction : List Char → Option (List Char)
  | '.' :: rest => (skipDigits rest).bind skipScale
  | rest => skipScale rest

/-- The text behind a number without a sign. -/
def skipUnsigned : List Char → Option (List Char)
  | '0' :: rest => if startsWithDigit rest then none else skipFraction rest
  | text => (skipDigits text).bind skipFraction

/-- The text behind a number. -/
def skipNumber : List Char → Option (List Char)
  | '-' :: rest => skipUnsigned rest
  | text => skipUnsigned text

/-! ## Arrays and objects -/

/-- An array or an object that has begun. -/
inductive Enclosure where
  | array
  | object
deriving DecidableEq, Repr

namespace Enclosure

/-- The character that ends it. -/
def closer : Enclosure → Char
  | array => ']'
  | object => '\x7d'

/-- The text at which the next document in it begins: in an object behind a name and a colon. -/
def skipName : Enclosure → List Char → Option (List Char)
  | array, text => some text
  | object, text =>
    match skipBlanks text with
    | '"' :: rest =>
      match (skipString rest).map skipBlanks with
      | some (':' :: rest) => some rest
      | _ => none
    | _ => none

end Enclosure

/-- How far a document has been passed over. -/
structure SkipState where
  /-- The arrays and objects that are still open, the innermost first. -/
  enclosures : List Enclosure := []
  /-- Has a document in the innermost one just ended?  If not, the next one has to begin. -/
  hasEnded : Bool := false
  text : List Char

namespace SkipState

/-- Behind the opening bracket or brace of an enclosure. -/
def opened (outer : List Enclosure) (e : Enclosure) (text : List Char) : Option SkipState :=
  match skipBlanks text with
  | [] => none
  | c :: rest =>
    if c = e.closer then some { enclosures := outer, hasEnded := true, text := rest }
    else (e.skipName (c :: rest)).map fun text => { enclosures := e :: outer, text }

/-- Behind the beginning of a document, or behind all of it if it is neither array nor object. -/
def begin (outer : List Enclosure) (text : List Char) : Option SkipState :=
  let ended (behind : Option (List Char)) : Option SkipState :=
    behind.map fun text => { enclosures := outer, hasEnded := true, text }
  match skipBlanks text with
  | '[' :: rest => opened outer .array rest
  | '\x7b' :: rest => opened outer .object rest
  | '"' :: rest => ended (skipString rest)
  | 'n' :: rest => ended (skipWord "ull" rest)
  | 't' :: rest => ended (skipWord "rue" rest)
  | 'f' :: rest => ended (skipWord "alse" rest)
  | rest => ended (skipNumber rest)

/-- Behind a comma or the end of an enclosure. -/
def proceed (outer : List Enclosure) (e : Enclosure) (text : List Char) : Option SkipState :=
  match skipBlanks text with
  | [] => none
  | ',' :: rest => (e.skipName rest).map fun text => { enclosures := e :: outer, text }
  | c :: rest =>
    if c = e.closer then some { enclosures := outer, hasEnded := true, text := rest } else none

/-- The text behind the outermost document, found in at most so many steps. -/
def finish (fuel : Nat) (s : SkipState) : Option (List Char) :=
  match fuel with
  | 0 => none
  | fuel + 1 =>
    match s.hasEnded, s.enclosures with
    | false, outer =>
      match begin outer s.text with
      | some next => finish fuel next
      | none => none
    | true, e :: outer =>
      match proceed outer e s.text with
      | some next => finish fuel next
      | none => none
    | true, [] => some s.text

end SkipState

/-- The text behind a document at its head.  Every step but the last one takes at least one
character. -/
def skipValue (text : List Char) : Option (List Char) :=
  SkipState.finish (text.length + 2) { text }

end Json
end Fieldbus
