import Fieldbus.Dispatch.Basic

/-!
# Receiving

`Dispatcher.dispatch` is what happens to the frames of a channel.  First the expectations that have
waited too long are given up.  Then each frame whose length is within the bounds of the channel goes
through three stages:

1. Every decoder sees it, in the order of registration (`consult`): one that reports fields causes a
   `stateUpdate`, one that fails an `entityError`, and the others hear nothing of it.
2. If no decoder recognised it, that is told in an `unmatchedFrame`.
3. Every expectation that it acknowledges is resolved (`settleAcks`).

When a frame changed the state of an entity, the scripts of its channel are told.
-/

set_option autoImplicit false

namespace Fieldbus

/-! ## Expectations -/

namespace Expectation

/-- Has the command waited too long for its acknowledgement? -/
def isOverdue (e : Expectation) (timeout : Nat) (now : Time) : Bool :=
  timeout < Time.elapsed e.sentAt now

end Expectation

/-- The expectations that have waited too long are given up: the events that tell it, and the other
expectations. -/
def expireAcks (channel : String) (timeout : Nat) (now : Time) (expectations : List Expectation) :
    List Event × List Expectation :=
  let (overdue, open_) := expectations.partition fun e => e.isOverdue timeout now
  (overdue.map fun e => .commandTimedOut channel e.entity e.command, open_)

/-- What a frame means for an expectation. -/
inductive AckVerdict where
  | acked
  | waiting
  /-- Nobody can tell: the entity is not registered. -/
  | orphaned
deriving DecidableEq, Repr

/-- What the frame means for the expectation, as the first decoder of its entity sees it. -/
def ackVerdict (decoders : List Decoder) (frame : Frame) (e : Expectation) : AckVerdict :=
  match decoders.find? fun decoder => decoder.id = e.entity with
  | none => .orphaned
  | some decoder => if (decoder.matchesAck e.command frame).isTrue then .acked else .waiting

/-- A frame resolves the expectations that it acknowledges: the events that tell it, and the
expectations that stay open. -/
def settleAcks (channel : String) (decoders : List Decoder) (frame : Frame)
    (expectations : List Expectation) : List Event × List Expectation :=
  (expectations.filterMap fun e =>
      if ackVerdict decoders frame e = .acked then some (.commandAcked channel e.entity e.command)
      else none,
    expectations.filter fun e => ackVerdict decoders frame e = .waiting)

/-! ## Decoders -/

/-- Fields are merged into the state of an entity, each new value in place of the old one. -/
def mergeState (states : KeyMap Fields) (entity : String) (fields : Fields) : KeyMap Fields :=
  KeyMap.insert entity (KeyMap.merge ((KeyMap.find? states entity).getD []) fields) states

/-- What the decoders made of a frame. -/
structure Consultation where
  events : List Event := []
  states : KeyMap Fields
  /-- Did any decoder recognise the frame? -/
  recognized : Bool := false
  /-- Did any decoder report fields? -/
  updated : Bool := false

/-- One more decoder sees the frame. -/
def Consultation.ask (channel : String) (frame : Frame) (c : Consultation) (decoder : Decoder) :
    Consultation :=
  match decoder.read frame with
  | .error message =>
    { c with events := c.events ++ [.entityError channel decoder.id message] }
  | .ok none => c
  | .ok (some none) => { c with recognized := true }
  | .ok (some (some fields)) =>
    { events := c.events ++ [.stateUpdate channel decoder.target fields]
      states := mergeState c.states decoder.target fields
      recognized := true
      updated := true }

/-- All decoders see the frame. -/
def consult (channel : String) (decoders : List Decoder) (states : KeyMap Fields) (frame : Frame) :
    Consultation :=
  decoders.foldl (Consultation.ask channel frame) { states }

/-! ## Frames -/

namespace Dispatcher

/-- One frame of a channel: the events it causes, the state of the entities and the channel after
it. -/
def dispatchFrame (name : String) (decoders : List Decoder) (states : KeyMap Fields)
    (channel : Channel) (frame : Frame) : List Event × KeyMap Fields × Channel :=
  if !channel.profile.rx.acceptsLength frame.bytes.length then ([], states, channel)
  else
    let c := consult name decoders states frame
    let unmatched := if c.recognized then [] else [.unmatchedFrame name frame]
    let (acked, expectations) := settleAcks name decoders frame channel.expectations
    let receiver :=
      if c.updated && channel.profile.usesScript then
        channel.receiver.setSnapshot (snapshotOf c.states)
      else channel.receiver
    (c.events ++ unmatched ++ acked, c.states, { channel with expectations, receiver })

/-- The frames of a channel, one after another. -/
def dispatchFrames (name : String) (decoders : List Decoder) :
    List Frame → KeyMap Fields → Channel → List Event × KeyMap Fields × Channel
  | [], states, channel => ([], states, channel)
  | frame :: rest, states, channel =>
    let (events, states, channel) := dispatchFrame name decoders states channel frame
    let (more, states, channel) := dispatchFrames name decoders rest states channel
    (events ++ more, states, channel)

/-- What happens to the frames of a channel, the channel being as the receiver left it. -/
def dispatch (d : Dispatcher) (name : String) (channel : Channel) (frames : List Frame)
    (now : Time) : Response Unit :=
  let (expired, expectations) := expireAcks name d.ackTimeout now channel.expectations
  let (events, states, channel) :=
    dispatchFrames name d.decoders frames d.states { channel with expectations }
  { result := .ok ()
    events := expired ++ events
    dispatcher := { d with states }.setChannel name channel }

/-- Bytes are received on a channel. -/
def feed (d : Dispatcher) (name : String) (bytes : Bytes) (now : Time) : Response Unit :=
  match d.channel? name with
  | none => d.refuse (.unknownChannel name)
  | some channel =>
    let (frames, receiver) := channel.receiver.feed bytes now
    d.dispatch name { channel with receiver } frames now

/-- The frames that have come back from the worker of a channel are dispatched. -/
def poll (d : Dispatcher) (name : String) (now : Time) : Response Unit :=
  match d.channel? name with
  | none => d.refuse (.unknownChannel name)
  | some channel =>
    let (frames, receiver) := channel.receiver.poll
    d.dispatch name { channel with receiver } frames now

/-- The worker of a channel is waited for, while it makes the steps of the schedule, and the frames
that come back are dispatched.  That the clock may have no time for the end of a long wait is left
out. -/
def flush (d : Dispatcher) (name : String) (schedule : List WorkerMove) (now : Time) :
    Response Unit :=
  match d.channel? name with
  | none => d.refuse (.unknownChannel name)
  | some channel =>
    let (frames, receiver) := channel.receiver.flush schedule
    d.dispatch name { channel with receiver } frames now

/-- The worker of a channel is waited for until it has done all its work. -/
def finish (d : Dispatcher) (name : String) (now : Time) : Response Unit :=
  d.flush name ((d.channel? name).elim [] fun channel => channel.receiver.diligence) now

end Dispatcher
end Fieldbus
