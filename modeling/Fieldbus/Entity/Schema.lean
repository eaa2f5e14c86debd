import Fieldbus.Field.Pattern

/-!
# Descriptions of entities

An entity is a device, or a part of one, that reports state and takes commands.  Its description
names the pattern of its state frames, the fields and flags in them, and how its commands are built.
-/

set_option autoImplicit false

namespace Fieldbus

/-- How one command is built. -/
structure CommandSchema where
  /-- The data of the command, without the header, checksum and footer of the channel. -/
  data : Bytes
  /-- How the argument is encoded, if the command takes one. -/
  value : Option EncodingSchema := none
  /-- Where the encoded argument stands in the data; behind it, if not said. -/
  valueOffset : Option Nat := none
  /-- The pattern of the frame by which the device acknowledges the command. -/
  ack : Option BytePattern := none
deriving DecidableEq, Repr

namespace CommandSchema

/-- The encoding of the argument and the pattern of the acknowledgement are valid. -/
def validate (schema : CommandSchema) : Except SchemaError Unit := do
  schema.value.forM EncodingSchema.validate
  schema.ack.forM BytePattern.validate

/-- The members of the description of a command. -/
def shape : Json.Shape :=
  .record
    [("data", .any), ("value", EncodingSchema.shape), ("value_offset", .any),
      ("ack", BytePattern.shape)]

/-- The description of a command, read from a document. -/
def ofJson? : Json → Option CommandSchema :=
  Json.Record.read do
    let data ← Json.Record.required "data" Json.bytes?
    let value ← Json.Record.optional "value" EncodingSchema.ofJson?
    let valueOffset ← Json.Record.optional "value_offset" Json.size?
    let ack ← Json.Record.optional "ack" BytePattern.ofJson?
    return { data, value, valueOffset, ack }

/-- The description of a command as a document, every part written out. -/
def toJson (schema : CommandSchema) : Json :=
  Json.ofMembers
    [("data", .ofBytes schema.data), ("value", Json.ofOption EncodingSchema.toJson schema.value),
      ("value_offset", Json.ofOption Json.nat schema.valueOffset),
      ("ack", Json.ofOption BytePattern.toJson schema.ack)]

end CommandSchema

/-- The description of an entity. -/
structure EntitySchema where
  id : String
  /-- The entity under whose name the state is reported, if not under the own one. -/
  stateProxy : Option String := none
  /-- The pattern of the frames that report state. -/
  state : BytePattern
  /-- Numbers and texts in the payload. -/
  fields : KeyMap FieldSchema := []
  /-- Truth values: does the pattern match? -/
  flags : KeyMap BytePattern := []
  commands : KeyMap CommandSchema := []
deriving DecidableEq, Repr

namespace EntitySchema

/-- All parts of the description are valid; the first fault is reported, in the order state, fields,
flags, commands. -/
def validate (schema : EntitySchema) : Except SchemaError Unit := do
  schema.state.validate
  schema.fields.forM fun entry => entry.2.validate
  schema.flags.forM fun entry => entry.2.validate
  schema.commands.forM fun entry => entry.2.validate

/-- The members of the description of an entity. -/
def shape : Json.Shape :=
  .record
    [("id", .any), ("state_proxy", .any), ("state", BytePattern.shape),
      ("fields", .map FieldSchema.shape), ("flags", .map BytePattern.shape),
      ("commands", .map CommandSchema.shape)]

/-- The description of an entity, read from a document. -/
def ofJson? : Json → Option EntitySchema :=
  Json.Record.read do
    let id ← Json.Record.required "id" Json.string?
    let stateProxy ← Json.Record.optional "state_proxy" Json.string?
    let state ← Json.Record.required "state" BytePattern.ofJson?
    let fields ← Json.Record.defaulted "fields" [] (Json.map? FieldSchema.ofJson?)
    let flags ← Json.Record.defaulted "flags" [] (Json.map? BytePattern.ofJson?)
    let commands ← Json.Record.defaulted "commands" [] (Json.map? CommandSchema.ofJson?)
    return { id, stateProxy, state, fields, flags, commands }

/-- The description of an entity as a document, every part written out. -/
def toJson (schema : EntitySchema) : Json :=
  Json.ofMembers
    [("id", .string schema.id), ("state_proxy", Json.ofOption Json.string schema.stateProxy),
      ("state", schema.state.toJson),
      ("fields", .object (schema.fields.map fun (name, field) => (name, field.toJson))),
      ("flags", .object (schema.flags.map fun (name, flag) => (name, flag.toJson))),
      ("commands", .object (schema.commands.map fun (name, command) => (name, command.toJson)))]

end EntitySchema
end Fieldbus
