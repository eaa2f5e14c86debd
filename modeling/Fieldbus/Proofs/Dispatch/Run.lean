import Fieldbus.Dispatch.Command
import Fieldbus.Proofs.Offload.Refinement

/-!
# What happens to a dispatcher

A dispatcher is used by one caller, but it is not alone: its channels have workers, which go on
working between two calls and in the midst of one, and its decoders are supplied from outside, so
that the same question may get another answer the next time.  An `Occurrence` is a call together
with what goes on meanwhile, or a step of a worker between two calls; `Dispatcher.run` is what
becomes of a dispatcher to which they occur one after another.

## What is here

* `Mood`, `Hearing` — how the decoders answer.  Only their names stay the same.
* `dispatchAmid`, `sendAmid` — dispatching and sending with decoders that change their minds.  With
  decoders that do not, they are `Dispatcher.dispatch` and `Dispatcher.send` (`dispatchAmid_calm`,
  `sendAmid_calm`), and so the operations are what they should be (`perform_feed`, `perform_poll`,
  `perform_flush`, `perform_send`).
* `Occurrence`, `perform`, `run`, `run_append`.
-/

set_option autoImplicit false

namespace Fieldbus

/-! ## Decoders that change their minds

A decoder may have a state of its own, or look at a clock; nothing keeps it from answering the same
question differently.  Instead of modelling such states, every question is put to the decoders in
some mood, and the moods are arbitrary.  What holds for all moods holds for decoders of any kind. -/

/-- How the decoders answer at a moment, each of them told by its place in the order of
registration.  A decoder never changes its name. -/
structure Mood where
  answer : Nat → Decoder → Decoder
  id_answer : ∀ place decoder, (answer place decoder).id = decoder.id

namespace Mood

/-- The decoders answer as always. -/
def calm : Mood := ⟨fun _ decoder => decoder, fun _ _ => rfl⟩

/-- The decoders in this mood. -/
def sway (mood : Mood) (decoders : List Decoder) : List Decoder := decoders.mapIdx mood.answer

@[simp] theorem calm_sway (decoders : List Decoder) : calm.sway decoders = decoders :=
  List.ext_getElem (by simp [sway]) fun i _ _ => by simp [sway, calm]

@[simp] theorem map_id_sway (mood : Mood) (decoders : List Decoder) :
    (mood.sway decoders).map Decoder.id = decoders.map Decoder.id :=
  List.ext_getElem (by simp [sway]) fun i _ _ => by simp [sway, mood.id_answer]

end Mood

/-- How the decoders answer while a frame is dispatched. -/
structure Hearing where
  /-- When they read the frame. -/
  reading : Mood := .calm
  /-- When they are asked about the expectations, one after another. -/
  settling : List Mood := []

/-! ## Dispatching

The definitions of dispatching are repeated here with a mood for each question, since a decoder can
change its mind between two questions about one frame.  In the mood `calm` they are the old ones. -/

/-- A frame resolves the expectations that it acknowledges, each of them judged in a mood of its
own. -/
def settleAcksAmid (channel : String) (decoders : List Decoder) (frame : Frame) :
    List Mood → List Expectation → List Event × List Expectation
  | _, [] => ([], [])
  | moods, e :: rest =>
    let (acked, open_) := settleAcks channel ((moods.headD .calm).sway decoders) frame [e]
    let (more, left) := settleAcksAmid channel decoders frame moods.tail rest
    (acked ++ more, open_ ++ left)

theorem settleAcksAmid_calm (channel : String) (decoders : List Decoder) (frame : Frame)
    (expectations : List Expectation) :
    settleAcksAmid channel decoders frame [] expectations =
      settleAcks channel decoders frame expectations := by
  induction expectations with
  | nil => rfl
  | cons e rest ih =>
    simp only [settleAcksAmid, List.headD_nil, List.tail_nil, Mood.calm_sway, ih, settleAcks]
    rw [← List.filterMap_append, ← List.filter_append]
    rfl

/-- When expectations are given up, nothing else is told. -/
theorem eq_commandTimedOut_of_mem {channel : String} {timeout : Nat} {now : Time}
    {expectations : List Expectation} {event : Event}
    (h : event ∈ (expireAcks channel timeout now expectations).1) :
    ∃ e ∈ expectations, event = .commandTimedOut channel e.entity e.command := by
  rw [expireAcks, List.partition_eq_filter_filter] at h
  obtain ⟨e, he, rfl⟩ := List.mem_map.1 h
  exact ⟨e, (List.mem_filter.1 he).1, rfl⟩

/-- When expectations are resolved, nothing else is told. -/
theorem eq_commandAcked_of_mem {channel : String} {decoders : List Decoder} {frame : Frame}
    {moods : List Mood} {expectations : List Expectation} {event : Event}
    (h : event ∈ (settleAcksAmid channel decoders frame moods expectations).1) :
    ∃ e ∈ expectations, event = .commandAcked channel e.entity e.command := by
  induction expectations generalizing moods with
  | nil => cases h
  | cons e rest ih =>
    rcases List.mem_append.1 h with h | h
    · obtain ⟨e', he', hsome⟩ := List.mem_filterMap.1 h
      obtain ⟨-, hevent⟩ := Option.ite_none_right_eq_some.1 hsome
      exact ⟨e', List.mem_cons.2 (.inl (List.mem_singleton.1 he')), (Option.some.inj hevent).symm⟩
    · obtain ⟨e', he', rfl⟩ := ih h
      exact ⟨e', List.mem_cons_of_mem e he', rfl⟩

namespace Dispatcher

/-- One frame of a channel, as `dispatchFrame`. -/
def dispatchFrameAmid (name : String) (decoders : List Decoder) (hearing : Hearing)
    (states : KeyMap Fields) (channel : Channel) (frame : Frame) :
    List Event × KeyMap Fields × Channel :=
  if !channel.profile.rx.acceptsLength frame.bytes.length then ([], states, channel)
  else
    let c := consult name (hearing.reading.sway decoders) states frame
    let unmatched := if c.recognized then [] else [.unmatchedFrame name frame]
    let (acked, expectations) :=
      settleAcksAmid name decoders frame hearing.settling channel.expectations
    let receiver :=
      if c.updated && channel.profile.usesScript then
        channel.receiver.setSnapshot (snapshotOf c.states)
      else channel.receiver
    (c.events ++ unmatched ++ acked, c.states, { channel with expectations, receiver })

/-- The frames of a channel, as `dispatchFrames`. -/
def dispatchFramesAmid (name : String) (decoders : List Decoder) :
    List Hearing → List Frame → KeyMap Fields → Channel → List Event × KeyMap Fields × Channel
  | _, [], states, channel => ([], states, channel)
  | hearings, frame :: rest, states, channel =>
    let (events, states, channel) :=
      dispatchFrameAmid name decoders (hearings.headD {}) states channel frame
    let (more, states, channel) :=
      dispatchFramesAmid name decoders hearings.tail rest states channel
    (events ++ more, states, channel)

/-- What happens to the frames of a channel, as `dispatch`. -/
def dispatchAmid (d : Dispatcher) (name : String) (channel : Channel) (frames : List Frame)
    (now : Time) (hearings : List Hearing) : Response Unit :=
  let (expired, expectations) := expireAcks name d.ackTimeout now channel.expectations
  let (events, states, channel) :=
    dispatchFramesAmid name d.decoders hearings frames d.states { channel with expectations }
  { result := .ok ()
    events := expired ++ events
    dispatcher := { d with states }.setChannel name channel }

theorem dispatchFramesAmid_cons (name : String) (decoders : List Decoder)
    (hearings : List Hearing) (frame : Frame) (rest : List Frame) (states : KeyMap Fields)
    (channel : Channel) :
    dispatchFramesAmid name decoders hearings (frame :: rest) states channel =
      let first := dispatchFrameAmid name decoders (hearings.headD {}) states channel frame
      let later := dispatchFramesAmid name decoders hearings.tail rest first.2.1 first.2.2
      (first.1 ++ later.1, later.2) := rfl

/-- First the overdue expectations are given up, then come the frames. -/
theorem dispatchAmid_eq (d : Dispatcher) (name : String) (channel : Channel) (frames : List Frame)
    (now : Time) (hearings : List Hearing) :
    d.dispatchAmid name channel frames now hearings =
      let expired := expireAcks name d.ackTimeout now channel.expectations
      let dispatched := dispatchFramesAmid name d.decoders hearings frames d.states
        { channel with expectations := expired.2 }
      { result := .ok ()
        events := expired.1 ++ dispatched.1
        dispatcher := { d with states := dispatched.2.1 }.setChannel name dispatched.2.2 } := rfl

theorem dispatchFrameAmid_calm (name : String) (decoders : List Decoder) (states : KeyMap Fields)
    (channel : Channel) (frame : Frame) :
    dispatchFrameAmid name decoders {} states channel frame =
      dispatchFrame name decoders states channel frame := by
  simp only [dispatchFrameAmid, Mood.calm_sway, settleAcksAmid_calm]
  rfl

theorem dispatchFramesAmid_calm (name : String) (decoders : List Decoder) (frames : List Frame)
    (states : KeyMap Fields) (channel : Channel) :
    dispatchFramesAmid name decoders [] frames states channel =
      dispatchFrames name decoders frames states channel := by
  induction frames generalizing states channel with
  | nil => rfl
  | cons frame rest ih =>
    simp only [dispatchFramesAmid, List.headD_nil, List.tail_nil, dispatchFrameAmid_calm, ih]
    rfl

/-- Decoders that do not change their minds make no difference. -/
theorem dispatchAmid_calm (d : Dispatcher) (name : String) (channel : Channel)
    (frames : List Frame) (now : Time) :
    d.dispatchAmid name channel frames now [] = d.dispatch name channel frames now := by
  simp only [dispatchAmid, dispatchFramesAmid_calm]
  rfl

end Dispatcher

/-! ## Receiving while a worker works

While the owner reads replies or hands a chunk over, the worker goes on.  What it does meanwhile is
part of the occurrence, so whatever holds of all occurrences holds for every way in which the two
can be interleaved. -/

namespace Receiver

/-- A chunk comes, while the worker does what it is said to do. -/
def feedAmid (receiver : Receiver) (bytes : Bytes) (now : Time) (meanwhile : Meanwhile) :
    List Frame × Receiver :=
  match receiver with
  | inProcess r =>
    let (frames, r) := r.feed bytes now
    (frames, inProcess r)
  | offloaded o =>
    let (frames, o) := o.feedAmid bytes now meanwhile
    (frames, offloaded o)

/-- The frames that have come back from a worker, `untilDrained` only as long as it has work, while
it does what it is said to do. -/
def collect (receiver : Receiver) (untilDrained : Bool) (meanwhile : Meanwhile) :
    List Frame × Receiver :=
  match receiver with
  | inProcess r => ([], inProcess r)
  | offloaded o =>
    let (frames, o) := o.collect untilDrained meanwhile
    (frames, offloaded o)

end Receiver

namespace Dispatcher

/-- The replaced channel is found, and every other one as it was. -/
theorem channel?_setChannel (d : Dispatcher) (name name' : String) (channel : Channel) :
    (d.setChannel name channel).channel? name' =
      if name' = name then some channel else d.channel? name' := by
  unfold channel? setChannel
  split
  · rename_i h
    rw [h, KeyMap.find?_insert_self]
  · rename_i h
    rw [KeyMap.find?_insert_of_ne h]

/-- Frames are taken from the receiver of a channel and dispatched. -/
def receive (d : Dispatcher) (name : String) (take : Receiver → List Frame × Receiver) (now : Time)
    (hearings : List Hearing) : Response Unit :=
  match d.channel? name with
  | none => d.refuse (.unknownChannel name)
  | some channel =>
    let (frames, receiver) := take channel.receiver
    d.dispatchAmid name { channel with receiver } frames now hearings

/-- The dispatcher with its decoders in a mood. -/
def sway (d : Dispatcher) (mood : Mood) : Dispatcher := { d with decoders := mood.sway d.decoders }

@[simp] theorem sway_calm (d : Dispatcher) : d.sway .calm = d := by rw [sway, Mood.calm_sway]

/-- A command is built and queued while the decoders are in a mood, as `send`. -/
def sendAmid (d : Dispatcher) (name entity command : String) (value : Option Value)
    (priority : Priority) (now : Time) (mood : Mood) : Response Bool :=
  let r := (d.sway mood).send name entity command value priority now
  { r with dispatcher := { r.dispatcher with decoders := d.decoders } }

/-- **What sending can do.**  It is refused, or a command is built and queued, and an expectation
is left behind if the decoder says so. -/
theorem send_cases (d : Dispatcher) (name entity command : String) (value : Option Value)
    (priority : Priority) (now : Time) :
    (∃ error, d.send name entity command value priority now = d.refuse error) ∨
      ∃ decoder channel frame, d.decoder? entity = some decoder ∧ d.channel? name = some channel ∧
        d.build channel decoder command value = .ok frame ∧
          d.send name entity command value priority now =
            { result := .ok channel.queue.isEmpty
              dispatcher := d.setChannel name
                { channel with
                  expectations := channel.expectations ++
                    if (decoder.expectsAck command).isTrue then [⟨entity, command, now⟩] else []
                  queue := channel.queue.push frame priority } } := by
  unfold send
  cases hdecoder : d.decoder? entity with
  | none => exact .inl ⟨_, rfl⟩
  | some decoder =>
    cases hchannel : d.channel? name with
    | none => exact .inl ⟨_, rfl⟩
    | some channel =>
      simp only
      cases hbuild : d.build channel decoder command value with
      | error error => exact .inl ⟨error, rfl⟩
      | ok frame => exact .inr ⟨decoder, channel, frame, rfl, rfl, hbuild, rfl⟩

theorem decoders_send (d : Dispatcher) (name entity command : String) (value : Option Value)
    (priority : Priority) (now : Time) :
    (d.send name entity command value priority now).dispatcher.decoders = d.decoders := by
  rcases d.send_cases name entity command value priority now with
    ⟨error, h⟩ | ⟨decoder, channel, frame, -, -, -, h⟩ <;> rw [h] <;> rfl

theorem sendAmid_calm (d : Dispatcher) (name entity command : String) (value : Option Value)
    (priority : Priority) (now : Time) :
    d.sendAmid name entity command value priority now .calm =
      d.send name entity command value priority now := by
  have hdecoders := d.decoders_send name entity command value priority now
  rw [sendAmid, sway_calm]
  generalize d.send name entity command value priority now = r at hdecoders ⊢
  rw [← hdecoders]

end Dispatcher

/-! ## Occurrences -/

/-- Something that happens to a dispatcher. -/
inductive Occurrence where
  | register (decoder : Decoder)
  | addChannel (name : String) (profile : ChannelProfile)
  | addChannelConfig (name : String) (config : ChannelConfig) (evaluator : Option Evaluator)
  /-- A channel whose reassembly is handed over; `aided`, if a worker could be asked to start. -/
  | addOffloadedChannel (name : String) (profile : ChannelProfile) (config : OffloadConfig)
      (aided : Bool)
  | feed (name : String) (bytes : Bytes) (now : Time) (meanwhile : Meanwhile)
      (hearings : List Hearing)
  | poll (name : String) (now : Time) (meanwhile : Meanwhile) (hearings : List Hearing)
  | flush (name : String) (now : Time) (meanwhile : Meanwhile) (hearings : List Hearing)
  | enqueue (name : String) (command : Bytes) (priority : Priority)
  | send (name entity command : String) (value : Option Value) (priority : Priority) (now : Time)
      (mood : Mood)
  | next (name : String) (now : Time)
  | setAckTimeout (timeout : Nat)
  /-- The worker of a channel makes a step. -/
  | work (name : String) (move : WorkerMove)

/-- What a caller hears. -/
inductive Answer where
  | done
  /-- Was nothing queued before? -/
  | wasEmpty (answer : Bool)
  /-- The command to be sent, if there is one. -/
  | command (bytes : Option Bytes)

/-- The response with its result put into other words. -/
def Response.map {α β : Type} (f : α → β) (r : Response α) : Response β where
  result := r.result.map f
  events := r.events
  dispatcher := r.dispatcher

@[simp] theorem Response.isOk_map {α β : Type} (f : α → β) (r : Response α) :
    (r.map f).result.isOk = r.result.isOk := by
  rw [map]
  cases r.result <;> rfl

namespace Dispatcher

/-- Something that cannot fail, and of which nothing is told. -/
def become (d : Dispatcher) : Response Answer := { result := .ok .done, dispatcher := d }

/-- Something happens. -/
def perform (d : Dispatcher) : Occurrence → Response Answer
  | .register decoder => (d.register decoder).become
  | .addChannel name profile => (d.addChannel name profile).map fun _ => .done
  | .addChannelConfig name config evaluator =>
    (d.addChannelConfig name config evaluator).map fun _ => .done
  | .addOffloadedChannel name profile config aided =>
    (d.addOffloaded name profile
      (if aided then .spawn profile.rx config else .unaided profile.rx config)).map fun _ => .done
  | .feed name bytes now meanwhile hearings =>
    (d.receive name (·.feedAmid bytes now meanwhile) now hearings).map fun _ => .done
  | .poll name now meanwhile hearings =>
    (d.receive name (·.collect false meanwhile) now hearings).map fun _ => .done
  | .flush name now meanwhile hearings =>
    (d.receive name (·.collect true meanwhile) now hearings).map fun _ => .done
  | .enqueue name command priority => (d.enqueue name command priority).map .wasEmpty
  | .send name entity command value priority now mood =>
    (d.sendAmid name entity command value priority now mood).map .wasEmpty
  | .next name now => (d.next name now).map .command
  | .setAckTimeout timeout => (d.setAckTimeout timeout).become
  | .work name move => (d.moveWorker name move).become

/-- One thing happens after another: the events told, and the dispatcher in the end. -/
def run (d : Dispatcher) : List Occurrence → List Event × Dispatcher
  | [] => ([], d)
  | o :: rest =>
    let r := d.perform o
    let (more, d) := run r.dispatcher rest
    (r.events ++ more, d)

theorem run_cons (d : Dispatcher) (o : Occurrence) (rest : List Occurrence) :
    d.run (o :: rest) =
      ((d.perform o).events ++ ((d.perform o).dispatcher.run rest).1,
        ((d.perform o).dispatcher.run rest).2) := rfl

/-- What happens later happens to the dispatcher that there is by then. -/
theorem run_append (d : Dispatcher) (earlier later : List Occurrence) :
    d.run (earlier ++ later) =
      ((d.run earlier).1 ++ ((d.run earlier).2.run later).1,
        ((d.run earlier).2.run later).2) := by
  induction earlier generalizing d with
  | nil => rfl
  | cons o rest ih => rw [List.cons_append, run_cons, run_cons, ih, List.append_assoc]

/-! ## The operations themselves

With a worker that does nothing meanwhile and decoders that do not change their minds, what happens
is the operation of the dispatcher. -/

theorem perform_feed (d : Dispatcher) (name : String) (bytes : Bytes) (now : Time) :
    d.perform (.feed name bytes now {} []) = (d.feed name bytes now).map fun _ => .done := by
  simp only [perform, receive, feed]
  cases d.channel? name with
  | none => rfl
  | some channel =>
    simp only [dispatchAmid_calm]
    obtain ⟨profile, receiver | receiver, queue, expectations⟩ := channel <;> rfl

theorem perform_poll (d : Dispatcher) (name : String) (now : Time) :
    d.perform (.poll name now {} []) = (d.poll name now).map fun _ => .done := by
  simp only [perform, receive, poll]
  cases d.channel? name with
  | none => rfl
  | some channel =>
    simp only [dispatchAmid_calm]
    obtain ⟨profile, receiver | receiver, queue, expectations⟩ := channel <;> rfl

theorem perform_flush (d : Dispatcher) (name : String) (schedule : List WorkerMove) (now : Time) :
    d.perform
        (.flush name now { reading := {} :: schedule.map fun m => { looking := [m] } } []) =
      (d.flush name schedule now).map fun _ => .done := by
  simp only [perform, receive, flush]
  cases d.channel? name with
  | none => rfl
  | some channel =>
    simp only [dispatchAmid_calm]
    obtain ⟨profile, receiver | receiver, queue, expectations⟩ := channel <;> rfl

theorem perform_send (d : Dispatcher) (name entity command : String) (value : Option Value)
    (priority : Priority) (now : Time) :
    d.perform (.send name entity command value priority now .calm) =
      (d.send name entity command value priority now).map .wasEmpty := by
  rw [perform, sendAmid_calm]

end Dispatcher
end Fieldbus
