import Fieldbus.Binary64.Integer
import Fieldbus.KeyMap

/-!
# Documents

Descriptions, events and state snapshots are JSON documents.  Two points are fixed here for the
whole library:

* A number is an integer or a double, and the two are told apart: `4` is an integer, `4.0` is not.
  Integers outside the range from `-2 ^ 63` to `2 ^ 64 - 1` are doubles.
* The members of an object stand in the order of their names, without duplicates.  A document that
  has just been read still holds them as they were written; `normalize` puts them in order.
-/

set_option autoImplicit false

namespace Fieldbus

/-- A number of a document. -/
inductive JsonNumber where
  | integer (value : Int)
  | real (value : Binary64)
deriving DecidableEq, Repr

/-- The least integer that a document holds as an integer. -/
def JsonNumber.leastInteger : Int := -0x8000000000000000

/-- The greatest integer that a document holds as an integer. -/
def JsonNumber.greatestInteger : Int := 0xFFFFFFFFFFFFFFFF

/-- The number as a double. -/
def JsonNumber.toBinary64 : JsonNumber → Binary64
  | integer value => Binary64.ofInt value
  | real value => value

/-- A document. -/
inductive Json where
  | null
  | bool (value : Bool)
  | number (value : JsonNumber)
  | string (value : String)
  | array (items : List Json)
  | object (members : List (String × Json))
deriving Inhabited

namespace Json

/-- An integer. -/
def int (n : Int) : Json := number (.integer n)

/-- A natural number. -/
def nat (n : Nat) : Json := int n

/-- A list of bytes as a list of integers. -/
def ofBytes (bytes : List UInt8) : Json := array (bytes.map fun b => nat b.toNat)

/-- The object with the given members. -/
def ofMembers (members : List (String × Json)) : Json := object (KeyMap.ofList members)

/-- A finite double; the numbers that are not finite have no place in a document. -/
def real (x : Binary64) : Json := if x.isFinite then number (.real x) else null

/-- A value, or `null` for none. -/
def ofOption {α : Type} (write : α → Json) : Option α → Json
  | some a => write a
  | none => null

/-- The members of an object. -/
def members? : Json → Option (List (String × Json))
  | object members => some members
  | _ => none

/-- The text of a string. -/
def string? : Json → Option String
  | string s => some s
  | _ => none

mutual

/-- The document with the members of every object in the order of their names; of two members with
one name the later one stays. -/
def normalize : Json → Json
  | array items => array (normalizeItems items)
  | object members => object (KeyMap.ofList (normalizeMembers members))
  | document => document

/-- The items of an array, each put in order. -/
def normalizeItems : List Json → List Json
  | [] => []
  | item :: rest => normalize item :: normalizeItems rest

/-- The members of an object, their values put in order. -/
def normalizeMembers : List (String × Json) → List (String × Json)
  | [] => []
  | (name, value) :: rest => (name, normalize value) :: normalizeMembers rest

end

end Json
end Fieldbus
