import Fieldbus.Channel.Profile
import Fieldbus.Entity.Schema
import Fieldbus.Field.Encode
import Fieldbus.Frame

/-!
# Decoders

A `Decoder` knows the frames of one entity: it recognises them, reads the fields out of them, builds
commands and recognises their acknowledgements.  Decoders are supplied from outside, so a call may
end in a panic, and two of the calls may report an error; `Call.guarded` turns both into a message.

`EntitySchema.decoder` is the decoder of a described entity.
-/

set_option autoImplicit false

namespace Fieldbus

/-- Named values that a frame reports. -/
abbrev Fields := KeyMap Json

/-! ## Calls -/

/-- How a call of a decoder ends. -/
inductive Call (α : Type) where
  | returned (value : α)
  /-- The decoder panicked, with a text or with something else. -/
  | panicked (text : Option String)

namespace Call

variable {α : Type}

/-- What is reported of a panic. -/
def panicMessage : Option String → String
  | some text => s!"decoder panicked: {text}"
  | none => "decoder panicked"

/-- The value of a call, or the message of its error or panic. -/
def guarded : Call (Except String α) → Except String α
  | returned outcome => outcome
  | panicked text => .error (panicMessage text)

/-- The value of a call that reports no errors, or the message of its panic. -/
def guardedValue : Call α → Except String α
  | returned value => .ok value
  | panicked text => .error (panicMessage text)

/-- The answer to a question; a panic means no. -/
def isTrue : Call Bool → Bool
  | returned answer => answer
  | panicked _ => false

end Call

/-! ## Decoders -/

/-- What is known about the frames and commands of an entity. -/
structure Decoder where
  id : String
  /-- The entity under whose name the state is reported, if not under the own one. -/
  stateProxy : Option String
  /-- Does the frame belong to the entity? -/
  matchesFrame : Frame → Call (Except String Bool)
  /-- The fields of a frame that belongs to the entity, if it reports any. -/
  parse : Frame → Call (Except String (Option Fields))
  /-- The complete frame of a command, if the entity has it and it can be built. -/
  buildCommand : String → Option Value → Option Json → Call (Option Bytes)
  /-- Will the device acknowledge this command? -/
  expectsAck : String → Call Bool
  /-- Does the frame acknowledge this command? -/
  matchesAck : String → Frame → Call Bool

namespace Decoder

/-- The entity under whose name state is reported. -/
def target (d : Decoder) : String := d.stateProxy.getD d.id

/-- What a decoder makes of a frame: nothing if it does not recognise it, else the fields it
reports, if any. -/
def read (d : Decoder) (frame : Frame) : Except String (Option (Option Fields)) :=
  match (d.matchesFrame frame).guarded with
  | .error message => .error message
  | .ok false => .ok none
  | .ok true => (d.parse frame).guarded.map some

end Decoder

/-! ## Described entities -/

/-- The bytes of a list with those from `offset` on replaced by `bytes`; a gap is filled with
zeros. -/
def overwrite (data : Bytes) (offset : Nat) (bytes : Bytes) : Bytes :=
  data.take offset ++ List.replicate (offset - data.length) 0 ++ bytes
    ++ data.drop (offset + bytes.length)

namespace CommandSchema

/-- The greatest length that a list of bytes can have. -/
def greatestLength : Nat := 0x7FFFFFFFFFFFFFFF

/-- What the panic says when data cannot be as long as an argument in it asks for: either its end
is no offset at all, or the data would be too long.  An argument inside the data is never refused. -/
def overrun? (schema : CommandSchema) (last : Nat) : Option String :=
  if Json.sizeLimit < last then some "attempt to add with overflow"
  else if greatestLength < last ∧ schema.data.length < last then some "capacity overflow"
  else none

/-- The data of a command with its argument; none if the argument is missing or cannot be
encoded. -/
def dataFor (schema : CommandSchema) (value : Option Value) : Call (Option Bytes) :=
  match schema.value, value with
  | none, _ => .returned (some schema.data)
  | some _, none => .returned none
  | some encoding, some value =>
    let encoded := encoding.encode value
    let offset := schema.valueOffset.getD schema.data.length
    if encoded.isEmpty then .returned none
    else match schema.overrun? (offset + encoded.length) with
      | some text => .panicked (some text)
      | none => .returned (some (overwrite schema.data offset encoded))

end CommandSchema

namespace EntitySchema

/-- The fields and flags of a payload.  A field outside the payload is left out; a flag goes before
a field of the same name. -/
def readFields (schema : EntitySchema) (payload : Bytes) : Fields :=
  let values := schema.fields.filterMap fun (name, field) =>
    (field.decode payload).map fun value => (name, value.toJson)
  let flags := schema.flags.map fun (name, flag) => (name, Json.bool (flag.isMatch payload))
  KeyMap.ofList (values ++ flags)

/-- The frame around the data of a command.  A script is shown header and data in one list, and the
frame is one list; the decoder panics when such a list would be too long, and when the script
crashes.  Header, data and footer are there at the same time, so that the sum of their lengths is
always a size. -/
def wrap (tx : TxFraming) (snapshot : Option Json) (data : Bytes) : Call (Option Bytes) :=
  if tx.checksum.isScript ∧ CommandSchema.greatestLength < tx.header.length + data.length then
    .panicked (some "capacity overflow")
  else
    match tx.frame data snapshot with
    | .ok frame =>
      if CommandSchema.greatestLength < frame.length then .panicked (some "capacity overflow")
      else .returned (some frame)
    | .error (.crashed text) => .panicked (some text)
    | .error _ => .returned none

/-- The frame of a command, if the entity has it and it can be built. -/
def build (schema : EntitySchema) (tx : TxFraming) (command : String) (value : Option Value)
    (snapshot : Option Json) : Call (Option Bytes) :=
  match KeyMap.find? schema.commands command with
  | none => .returned none
  | some c =>
    match c.dataFor value with
    | .returned (some data) => wrap tx snapshot data
    | .returned none => .returned none
    | .panicked text => .panicked text

/-- The pattern of the frame that acknowledges a command. -/
def ackOf (schema : EntitySchema) (command : String) : Option BytePattern :=
  (KeyMap.find? schema.commands command).bind CommandSchema.ack

/-- The decoder of a described entity, whose commands are wrapped as given. -/
def decoder (schema : EntitySchema) (tx : TxFraming) : Decoder where
  id := schema.id
  stateProxy := schema.stateProxy
  matchesFrame frame := .returned (.ok (schema.state.isMatch frame.payload))
  parse frame := .returned (.ok (some (schema.readFields frame.payload)))
  buildCommand := schema.build tx
  expectsAck command := .returned (schema.ackOf command).isSome
  matchesAck command frame := .returned ((schema.ackOf command).any (·.isMatch frame.payload))

/-- The decoder of a described entity, if the description is valid. -/
def resolve (schema : EntitySchema) (tx : TxFraming) : Except SchemaError Decoder := do
  schema.validate
  return schema.decoder tx

/-- Validating a description does not change what its decoder is. -/
theorem eq_decoder_of_resolve {schema : EntitySchema} {tx : TxFraming} {decoder : Decoder}
    (h : schema.resolve tx = .ok decoder) : decoder = schema.decoder tx := by
  unfold resolve at h
  cases hvalid : schema.validate with
  | error e =>
    rw [hvalid] at h
    cases h
  | ok _ =>
    rw [hvalid] at h
    exact (Except.ok.inj h).symm

end EntitySchema
end Fieldbus
