import Fieldbus.Json.Shape
import Fieldbus.Json.Value

/-!
# Records in documents

A description is a record: an object whose members are its fields, or an array that lists the
values of its fields in the order of declaration.  `Record.read` reads one field after the other.

* A member that is no field is ignored; a field given twice is refused.  Each description has a
  `shape`, by which such members are passed over when its text is read.
* A field with a default may be missing.  Once an array has ended, all further fields are missing,
  and an array with more items than fields is refused.
* `null` is a value like any other: it is refused except where a field is optional.
-/

set_option autoImplicit false

namespace Fieldbus
namespace Json

/-! ## Plain values -/

/-- A natural number up to `limit`, which has to be written as an integer. -/
def natUpTo? (limit : Nat) : Json → Option Nat
  | number (.integer n) => if 0 ≤ n ∧ n ≤ limit then some n.toNat else none
  | _ => none

/-- The greatest size, offset or count. -/
def sizeLimit : Nat := 0xFFFFFFFFFFFFFFFF

/-- A size, an offset or a count. -/
def size? : Json → Option Nat := natUpTo? sizeLimit

/-- A byte, as an integer. -/
def byte? (document : Json) : Option UInt8 := (natUpTo? 255 document).map UInt8.ofNat

/-- A truth value. -/
def bool? : Json → Option Bool
  | bool b => some b
  | _ => none

/-- Any number, as a double. -/
def real? : Json → Option Binary64
  | number n => some n.toBinary64
  | _ => none

/-- A list, each item read the same way. -/
def list? {α : Type} (read : Json → Option α) : Json → Option (List α)
  | array items => items.mapM read
  | _ => none

/-- A list of bytes. -/
def bytes? : Json → Option (List UInt8) := list? byte?

/-- An optional value: `null` is none. -/
def optional? {α : Type} (read : Json → Option α) : Json → Option (Option α)
  | null => some none
  | document => (read document).map some

/-- An object whose members all are values of one kind, named freely. -/
def map? {α : Type} (read : Json → Option α) : Json → Option (KeyMap α)
  | object members =>
    (members.mapM fun member : String × Json =>
      (read member.2).map fun a => (member.1, a)).map KeyMap.ofList
  | _ => none

/-- A name out of a list of names, written as a string or as the only member of an object, whose
value is then `null`. -/
def name? {α : Type} (names : List (String × α)) : Json → Option α
  | string s => names.lookup s
  | object [(s, null)] => names.lookup s
  | _ => none

/-! ## Records -/

/-- What a record is read from. -/
inductive Record where
  /-- Members by name. -/
  | named (members : List (String × Json))
  /-- The values of the remaining fields in order. -/
  | listed (items : List Json)

namespace Record

/-- Reading fields uses up a record from its first field on. -/
abbrev Reader (α : Type) := StateT Record Option α

/-- The next field; `missing` is its value when it is absent, if it may be. -/
def field {α : Type} (name : String) (missing : Option α) (read : Json → Option α) : Reader α
  | named members =>
    match members.filter fun member => member.1 = name with
    | [] => missing.map fun a => (a, named members)
    | [(_, value)] => (read value).map fun a => (a, named members)
    | _ => none
  | listed [] => missing.map fun a => (a, listed [])
  | listed (value :: rest) => (read value).map fun a => (a, listed rest)

/-- A field that has to be present. -/
def required {α : Type} (name : String) (read : Json → Option α) : Reader α :=
  field name none read

/-- A field with a default. -/
def defaulted {α : Type} (name : String) (default : α) (read : Json → Option α) : Reader α :=
  field name (some default) read

/-- A field that may be absent or `null`. -/
def optional {α : Type} (name : String) (read : Json → Option α) : Reader (Option α) :=
  field name (some none) (optional? read)

/-- Has every listed value been read? -/
def isUsedUp : Record → Bool
  | named _ => true
  | listed items => items.isEmpty

/-- The record of a document. -/
def ofJson? : Json → Option Record
  | object members => some (named members)
  | array items => some (listed items)
  | _ => none

/-- A record read field by field to its end. -/
def read {α : Type} (fields : Reader α) (document : Json) : Option α :=
  (ofJson? document).bind fun record =>
    (fields.run record).bind fun (a, rest) => if rest.isUsedUp then some a else none

end Record
end Json
end Fieldbus
