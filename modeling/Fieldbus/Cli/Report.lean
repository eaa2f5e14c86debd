import Fieldbus.Cli.Command
import Fieldbus.Dispatch.Event
import Fieldbus.Json.Printer
import Fieldbus.Text.Table

/-!
# Reports

What a command prints is a list of lines, in one of three formats: a document on one line, a plain
line for people, or a table of its own for every result.
-/

set_option autoImplicit false

namespace Fieldbus
namespace Cli

/-- Computed bytes. -/
structure BytesReport where
  /-- What was computed. -/
  kind : String
  /-- The name of the method. -/
  name : String
  bytes : Bytes

namespace BytesReport

/-- The report as a document. -/
def toJson (r : BytesReport) : Json :=
  .object [("kind", .string r.kind), ("name", .string r.name),
    ("hex", .string r.bytes.toHexUpper), ("bytes", .ofBytes r.bytes)]

/-- The report as a table. -/
def table (r : BytesReport) : Text.Table where
  titles := ["KIND", "NAME", "LEN", "BYTES"]
  rows := [[r.kind, r.name, toString r.bytes.length, r.bytes.toSpacedHex]]

/-- The lines of the report. -/
def lines (format : OutputFormat) (r : BytesReport) : List String :=
  match format with
  | .json => [r.toJson.compact]
  | .table => r.table.lines
  | .pretty => [r.kind ++ " " ++ r.name ++ ": " ++ r.bytes.toSpacedHex]

end BytesReport

namespace EventReport

/-- The entity an event is about, a hyphen if none. -/
def entity : Event → String
  | .stateUpdate _ entity _ => entity
  | .unmatchedFrame .. => "-"
  | .entityError _ entity _ => entity
  | .commandAcked _ entity _ => entity
  | .commandTimedOut _ entity _ => entity

/-- What an event tells. -/
def detail : Event → String
  | .stateUpdate _ _ fields => (Json.object fields).compact
  | .unmatchedFrame _ frame => frame.display
  | .entityError _ _ message => message
  | .commandAcked _ _ command => command
  | .commandTimedOut _ _ command => command ++ " (no ack)"

/-- An event as a table. -/
def table (event : Event) : Text.Table where
  titles := ["EVENT", "CHANNEL", "ENTITY", "DETAIL"]
  rows := [[event.kind, event.channel, entity event, detail event]]

/-- The lines of an event. -/
def lines (format : OutputFormat) (event : Event) : List String :=
  match format with
  | .json => [event.toJson.compact]
  | .table => (table event).lines
  | .pretty =>
    [event.kind ++ " channel=" ++ event.channel ++ " entity=" ++ entity event ++ " "
      ++ detail event]

end EventReport
end Cli
end Fieldbus
