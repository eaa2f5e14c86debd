import Fieldbus.Entity.Decoder

/-!
# Events

What a dispatcher has to tell is told in events.  Every event names the channel it came from.
-/

set_option autoImplicit false

namespace Fieldbus

/-- A notification. -/
inductive Event where
  /-- An entity reported fields. -/
  | stateUpdate (channel entity : String) (fields : Fields)
  /-- No decoder recognised a frame. -/
  | unmatchedFrame (channel : String) (frame : Frame)
  /-- A decoder failed on a frame. -/
  | entityError (channel entity message : String)
  /-- The device acknowledged a command. -/
  | commandAcked (channel entity command : String)
  /-- The device did not acknowledge a command in time. -/
  | commandTimedOut (channel entity command : String)

namespace Event

/-- The name of the kind of an event. -/
def kind : Event → String
  | stateUpdate .. => "state_update"
  | unmatchedFrame .. => "unmatched_frame"
  | entityError .. => "entity_error"
  | commandAcked .. => "command_acked"
  | commandTimedOut .. => "command_timed_out"

/-- The channel an event came from. -/
def channel : Event → String
  | stateUpdate channel .. => channel
  | unmatchedFrame channel _ => channel
  | entityError channel .. => channel
  | commandAcked channel .. => channel
  | commandTimedOut channel .. => channel

/-- The members of an event that follow its kind and its channel. -/
def details : Event → List (String × Json)
  | stateUpdate _ entity fields => [("entity_id", .string entity), ("fields", .object fields)]
  | unmatchedFrame _ frame => [("frame", .string frame.display)]
  | entityError _ entity message =>
    [("entity_id", .string entity), ("message", .string message)]
  | commandAcked _ entity command =>
    [("entity_id", .string entity), ("command", .string command)]
  | commandTimedOut _ entity command =>
    [("entity_id", .string entity), ("command", .string command)]

/-- An event as a document: its kind, its channel, and the rest. -/
def toJson (event : Event) : Json :=
  .object (("event", .string event.kind) :: ("channel", .string event.channel) :: event.details)

end Event
end Fieldbus
