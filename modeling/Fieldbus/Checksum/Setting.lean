import Fieldbus.Json.Record

/-!
# Checksums as they are written down

A channel has two slots for a checksum on each side, one for a single byte and one for two.  What
stands in a slot is the name of an algorithm or a script.
-/

set_option autoImplicit false

namespace Fieldbus

/-- How many bytes a checksum slot takes. -/
inductive ChecksumWidth where
  | one
  | two
deriving DecidableEq, Repr

/-- The count of bytes of a slot. -/
def ChecksumWidth.bytes : ChecksumWidth → Nat
  | one => 1
  | two => 2

/-- The content of a checksum slot. -/
inductive ChecksumSetting where
  | named (name : String)
  | script (expression : String)
deriving DecidableEq, Repr

namespace ChecksumSetting

/-- A setting read from a document: a string, or an object with the member `script`. -/
def ofJson? : Json → Option ChecksumSetting
  | .string name => some (named name)
  | .object members =>
    Json.Record.read ((Json.Record.required "script" Json.string?).map script) (.object members)
  | _ => none

/-- A setting as a document. -/
def toJson : ChecksumSetting → Json
  | named name => .string name
  | script expression => .object [("script", .string expression)]

end ChecksumSetting
end Fieldbus
