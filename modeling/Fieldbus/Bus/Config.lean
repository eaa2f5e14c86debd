import Fieldbus.Dispatch.Command
import Fieldbus.Json.Reader

/-!
# Descriptions of a bus

A `BusConfig` describes one channel and the entities that listen on it.  `BusConfig.setUp` turns it
into a dispatcher that knows this channel and one decoder per entity, or says what is wrong with it:
first with the channel, then with the entities in order.  There is no evaluator, so a channel with a
script is refused.
-/

set_option autoImplicit false

namespace Fieldbus

/-- The description of a bus. -/
structure BusConfig where
  /-- The name of the channel. -/
  id : String := "bus"
  channel : ChannelConfig
  entities : List EntitySchema := []
  /-- Present if a worker reassembles the frames. -/
  offload : Option OffloadConfig := none

/-- Why a bus cannot be set up. -/
inductive BusError where
  | channel (cause : ConfigError)
  | entity (id : String) (cause : SchemaError)
deriving DecidableEq, Repr

/-- The wording of what is wrong with a bus. -/
def BusError.message : BusError → String
  | channel cause => "resolve channel: " ++ cause.message
  | entity id cause => s!"entity {id}: " ++ (DispatchError.schema cause).message

namespace BusConfig

/-- The members of a description. -/
def shape : Json.Shape :=
  .record
    [("id", .any), ("channel", ChannelConfig.shape), ("entities", .list EntitySchema.shape),
      ("offload", OffloadConfig.shape)]

/-- A description, read from a document. -/
def ofJson? : Json → Option BusConfig :=
  Json.Record.read do
    let id ← Json.Record.defaulted "id" "bus" Json.string?
    let channel ← Json.Record.required "channel" ChannelConfig.ofJson?
    let entities ← Json.Record.defaulted "entities" [] (Json.list? EntitySchema.ofJson?)
    let offload ← Json.Record.optional "offload" OffloadConfig.ofJson?
    return { id, channel, entities, offload }

/-- A description, read from its text.  A field given twice is refused, and members that belong to
no description are passed over. -/
def ofText? (text : String) : Option BusConfig := (Json.readShaped? shape text).bind ofJson?

/-- The decoders of the entities in order. -/
def decoders (tx : TxFraming) : List EntitySchema → Except BusError (List Decoder)
  | [] => .ok []
  | schema :: rest =>
    match schema.resolve tx with
    | .error cause => .error (.entity schema.id cause)
    | .ok decoder => do
      let more ← decoders tx rest
      return decoder :: more

/-- A dispatcher with one channel and the given decoders.  An offloaded channel gets its worker
under any name. -/
def dispatcher (config : BusConfig) (profile : ChannelProfile) (decoders : List Decoder) :
    Dispatcher :=
  let d : Dispatcher := { decoders }
  match config.offload with
  | none => (d.addChannel config.id profile).dispatcher
  | some offload => (d.addOffloadedChannel config.id profile offload).dispatcher

/-- The dispatcher of a bus. -/
def setUp (config : BusConfig) : Except BusError Dispatcher :=
  match config.channel.resolve none with
  | .error cause => .error (.channel cause)
  | .ok profile => do
    let ds ← decoders profile.tx config.entities
    return config.dispatcher profile ds

end BusConfig
end Fieldbus
