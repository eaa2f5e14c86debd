import Fieldbus.Json.Value

/-!
# Scripts

A checksum may be an expression in a language that this library does not know.  Whoever sets up a
channel supplies an `Evaluator`; it is given the bytes in front of the checksum and, when there is
one, a snapshot of what is known about the devices.  An evaluation answers with a document, reports
a failure, or crashes.
-/

set_option autoImplicit false

namespace Fieldbus

/-- What a script sees. -/
structure ScriptInput where
  /-- All bytes in front of the checksum, the header among them. -/
  data : List UInt8
  /-- The state of the devices by entity. -/
  snapshot : Option Json

/-- The input of a script as a document. -/
def ScriptInput.toJson (input : ScriptInput) : Json :=
  let members := [("data", Json.ofBytes input.data), ("len", Json.nat input.data.length)]
  Json.ofMembers (members ++ match input.snapshot with
    | some snapshot => [("state", snapshot)]
    | none => [])

/-- How an evaluation ends. -/
inductive ScriptOutcome where
  | answer (document : Json)
  | failed (text : String)
  | crashed (text : String)

/-- The meaning of expressions. -/
abbrev Evaluator := String → ScriptInput → ScriptOutcome

end Fieldbus
