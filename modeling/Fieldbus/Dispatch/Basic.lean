import Fieldbus.Dispatch.Event
import Fieldbus.Offload.Basic
import Fieldbus.Queue

/-!
# Dispatchers

A `Dispatcher` owns the channels and the decoders.  Bytes received on a channel become frames, every
decoder sees every frame, and what the decoders report is merged into one state per entity and told
in events.  Commands wait in the queue of their channel until the transport asks for them.

Every operation answers with a `Response`: its result or an error, the events told meanwhile, and
the dispatcher after it.

## What is left out

A program can also break off in the midst of two of the operations, with no answer at all.  Neither
has to do with what is received or sent, and both are left out here.

* The worker of a channel runs as a thread named after the channel, and no thread can have a name
  with the character of code 0.  `addOffloadedChannel` answers for such a channel as for any other.
* Waiting for a worker ends at a time, and a time for waiting can be so long that the clock has no
  such time.  `flush` is told what the worker does until the waiting is over, and not how long that
  is.
-/

set_option autoImplicit false

namespace Fieldbus

/-! ## Errors -/

/-- Why an operation was refused. -/
inductive DispatchError where
  | unknownChannel (channel : String)
  | duplicateChannel (channel : String)
  | unknownEntity (entity : String)
  /-- The entity does not have the command, or it cannot be built. -/
  | unknownCommand (entity command : String)
  /-- The decoder failed while building a command. -/
  | decoder (entity message : String)
  | config (cause : ConfigError)
  | schema (cause : SchemaError)
deriving DecidableEq, Repr

/-- The wording of a dispatch error. -/
def DispatchError.message : DispatchError → String
  | unknownChannel channel => s!"unknown channel '{channel}'"
  | duplicateChannel channel => s!"channel '{channel}' already registered"
  | unknownEntity entity => s!"unknown entity '{entity}'"
  | unknownCommand entity command => s!"entity '{entity}' cannot build command '{command}'"
  | decoder entity text => s!"decoder '{entity}' failed: {text}"
  | config cause => "config error: " ++ cause.message
  | schema cause => "schema error: " ++ cause.message

/-! ## Channels -/

/-- The receiving end of a channel. -/
inductive Receiver where
  | inProcess (reassembler : Reassembler)
  | offloaded (reassembler : Offloaded)

namespace Receiver

/-- A chunk comes. -/
def feed (receiver : Receiver) (bytes : Bytes) (now : Time) : List Frame × Receiver :=
  match receiver with
  | inProcess r =>
    let (frames, r) := r.feed bytes now
    (frames, inProcess r)
  | offloaded o =>
    let (frames, o) := o.feed bytes now
    (frames, offloaded o)

/-- The frames that have come back from a worker. -/
def poll (receiver : Receiver) : List Frame × Receiver :=
  match receiver with
  | inProcess r => ([], inProcess r)
  | offloaded o =>
    let (frames, o) := o.poll
    (frames, offloaded o)

/-- The frames that come back from a worker that makes the steps of the schedule meanwhile. -/
def flush (receiver : Receiver) (schedule : List WorkerMove) : List Frame × Receiver :=
  match receiver with
  | inProcess r => ([], inProcess r)
  | offloaded o =>
    let (frames, o) := o.flush schedule
    (frames, offloaded o)

/-- The steps by which a worker does all the work it is given. -/
def diligence : Receiver → List WorkerMove
  | inProcess _ => []
  | offloaded o => o.diligence

/-- A worker makes a step. -/
def move (receiver : Receiver) (m : WorkerMove) : Receiver :=
  match receiver with
  | inProcess r => inProcess r
  | offloaded o => offloaded (o.move m)

/-- Scripts are told something else from now on. -/
def setSnapshot (receiver : Receiver) (snapshot : Json) : Receiver :=
  match receiver with
  | inProcess r => inProcess (r.setSnapshot (some snapshot))
  | offloaded o => offloaded (o.setSnapshot (some snapshot))

/-- What scripts are told about the devices. -/
def snapshot : Receiver → Option Json
  | inProcess r => r.snapshot
  | offloaded o => o.snapshot

/-- Has an offloaded channel fallen back? -/
def isFallback : Receiver → Bool
  | inProcess _ => false
  | offloaded o => o.isFallback

end Receiver

/-- A command whose acknowledgement is awaited. -/
structure Expectation where
  entity : String
  command : String
  sentAt : Time
deriving DecidableEq, Repr

/-- A channel in use. -/
structure Channel where
  profile : ChannelProfile
  receiver : Receiver
  queue : CommandQueue
  /-- In the order the commands were sent. -/
  expectations : List Expectation := []

namespace Channel

/-- A channel that has seen nothing yet. -/
def ofProfile (profile : ChannelProfile) (receiver : Receiver) : Channel where
  profile
  receiver
  queue := { delay := profile.tx.delay }

end Channel

/-! ## Dispatchers -/

/-- The channels, the decoders, and what is known about the entities. -/
structure Dispatcher where
  channels : KeyMap Channel := []
  /-- In the order they were registered. -/
  decoders : List Decoder := []
  /-- The fields reported for each entity, the latest value of each. -/
  states : KeyMap Fields := []
  /-- How long a command waits for its acknowledgement. -/
  ackTimeout : Nat := Time.ofMillis 5000

/-- How an operation ends. -/
structure Response (α : Type) where
  result : Except DispatchError α
  /-- The events told meanwhile, in order. -/
  events : List Event := []
  dispatcher : Dispatcher

namespace Dispatcher

/-- An operation is refused. -/
def refuse {α : Type} (d : Dispatcher) (error : DispatchError) : Response α :=
  { result := .error error, dispatcher := d }

/-- A channel by its name. -/
def channel? (d : Dispatcher) (name : String) : Option Channel := KeyMap.find? d.channels name

/-- The channel of this name is replaced. -/
def setChannel (d : Dispatcher) (name : String) (channel : Channel) : Dispatcher :=
  { d with channels := KeyMap.insert name channel d.channels }

/-- The first decoder registered for an entity. -/
def decoder? (d : Dispatcher) (entity : String) : Option Decoder :=
  d.decoders.find? fun decoder => decoder.id = entity

/-- All states as one document, an object of objects. -/
def snapshotOf (states : KeyMap Fields) : Json :=
  .object (states.map fun (entity, fields) => (entity, .object fields))

/-! ### Setting up -/

/-- One more decoder; it sees frames after those registered before. -/
def register (d : Dispatcher) (decoder : Decoder) : Dispatcher :=
  { d with decoders := d.decoders ++ [decoder] }

/-- How long commands wait for their acknowledgement from now on. -/
def setAckTimeout (d : Dispatcher) (timeout : Nat) : Dispatcher := { d with ackTimeout := timeout }

/-- One more channel, which must have a new name. -/
def insertChannel (d : Dispatcher) (name : String) (channel : Channel) : Response Unit :=
  if KeyMap.contains d.channels name then d.refuse (.duplicateChannel name)
  else { result := .ok (), dispatcher := d.setChannel name channel }

/-- One more channel, reassembled in process. -/
def addChannel (d : Dispatcher) (name : String) (profile : ChannelProfile) : Response Unit :=
  d.insertChannel name (.ofProfile profile (.inProcess { framing := profile.rx }))

/-- One more channel by its description, reassembled in process. -/
def addChannelConfig (d : Dispatcher) (name : String) (config : ChannelConfig)
    (evaluator : Option Evaluator) : Response Unit :=
  match config.resolve evaluator with
  | .ok profile => d.addChannel name profile
  | .error cause => d.refuse (.config cause)

/-- One more channel, reassembled by the worker of the given reassembler. -/
def addOffloaded (d : Dispatcher) (name : String) (profile : ChannelProfile)
    (offloaded : Offloaded) : Response Unit :=
  d.insertChannel name (.ofProfile profile (.offloaded offloaded))

/-- One more channel, reassembled by a worker.  That a worker cannot be started under every name is
left out. -/
def addOffloadedChannel (d : Dispatcher) (name : String) (profile : ChannelProfile)
    (config : OffloadConfig) : Response Unit :=
  d.addOffloaded name profile (.spawn profile.rx config)

/-- The worker of a channel makes a step; on other channels nothing happens. -/
def moveWorker (d : Dispatcher) (name : String) (m : WorkerMove) : Dispatcher :=
  match d.channel? name with
  | some channel =>
    d.setChannel name { channel with receiver := channel.receiver.move m }
  | none => d

/-! ### Looking -/

/-- The latest fields reported for an entity. -/
def state (d : Dispatcher) (entity : String) : Option Fields := KeyMap.find? d.states entity

/-- How many commands wait on a channel. -/
def pendingCommands (d : Dispatcher) (name : String) : Nat :=
  (d.channel? name).elim 0 fun channel => channel.queue.length

/-- How many acknowledgements are awaited on a channel. -/
def pendingAcks (d : Dispatcher) (name : String) : Nat :=
  (d.channel? name).elim 0 fun channel => channel.expectations.length

/-- Has an offloaded channel fallen back? -/
def isFallback (d : Dispatcher) (name : String) : Bool :=
  (d.channel? name).any fun channel => channel.receiver.isFallback

end Dispatcher
end Fieldbus
