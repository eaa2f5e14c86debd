import Fieldbus.Proofs.Dispatch.Effect
import Fieldbus.Proofs.Offload.Snapshot
import Mathlib.Data.List.DropRight

/-!
# What scripts are told

A dispatcher merges all fields that were reported, on whatever channel, into one state.  The scripts
of a channel are told that state whenever a frame *of their own channel* has changed it.  So they
know the state as it was after the last report on their channel: all that had been reported by then,
on any channel, and nothing of what was reported on the others since.

* `statesOf` — the state that the events tell of.
* `toldOn` — what the scripts of a channel should have heard, `liveState` — what there is to hear.
* `run_tells` — after any run the scripts of a channel know the former, which is the latter if
  nothing was reported on any other channel.
* `threeChannels` — a run after which the former is not the latter: what is reported on a channel
  without scripts is heard neither by a script that was there before, nor by one that comes later
  (`not_always_live`).

## How it is proved

What the scripts of a channel should have heard is a function of the events told so far, `toldOn`.
So the invariant compares three things that change at different times: the events, the states that
the dispatcher holds, and the snapshot that the receiving end of each channel holds.  Within one
call they get out of step, as the scripts are told after each frame and the frames of a chunk have
all been found before; `Channel.Told` is what holds between two frames, and `Dispatcher.Informed`
between two calls.

With a worker the snapshot is held twice.  The owner may know a newer one than the worker, but the
worker will know it before it handles any chunk that is sent later (`Proofs.Offload.Snapshot`).
-/

set_option autoImplicit false

namespace Fieldbus

/-! ## What the events tell

The state of a dispatcher can be computed from its events alone, and so can what the scripts of a
channel should have heard: the state as it was at the last report on the channel.  Reports on other
channels after that are passed over, until the channel reports again and all is heard. -/

namespace Event

/-- Does the event tell of reported fields? -/
def isUpdate : Event → Bool
  | stateUpdate .. => true
  | _ => false

/-- Does the event tell of fields reported on the channel? -/
def updates (name : String) (event : Event) : Bool := event.isUpdate && event.channel = name

/-- The state after the event. -/
def amend (states : KeyMap Fields) : Event → KeyMap Fields
  | stateUpdate _ entity fields => mergeState states entity fields
  | _ => states

theorem amend_of_not_isUpdate {event : Event} (h : event.isUpdate = false)
    (states : KeyMap Fields) : amend states event = states := by
  cases event with
  | stateUpdate channel entity fields => cases h
  | unmatchedFrame channel frame => rfl
  | entityError channel entity message => rfl
  | commandAcked channel entity command => rfl
  | commandTimedOut channel entity command => rfl

end Event

/-- The state that the events tell of: all reported fields, the latest value of each. -/
def statesOf (events : List Event) : KeyMap Fields := events.foldl Event.amend []

/-- The state up to the last report on the channel, if there was one. -/
def toldOn (name : String) (events : List Event) : Option Json :=
  let heard := events.rdropWhile fun event => !event.updates name
  if heard.isEmpty then none else some (Dispatcher.snapshotOf (statesOf heard))

/-- The state up to the last report on any channel, if there was one. -/
def liveState (events : List Event) : Option Json :=
  if events.any Event.isUpdate then some (Dispatcher.snapshotOf (statesOf events)) else none

variable {name : String} {events earlier later : List Event}

theorem statesOf_append (earlier later : List Event) :
    statesOf (earlier ++ later) = later.foldl Event.amend (statesOf earlier) := List.foldl_append

/-- Events that tell of no reports leave the state alone. -/
theorem foldl_amend_of_quiet (h : events.any Event.isUpdate = false) (states : KeyMap Fields) :
    events.foldl Event.amend states = states := by
  induction events generalizing states with
  | nil => rfl
  | cons event rest ih =>
    rw [List.any_cons, Bool.or_eq_false_iff] at h
    rw [List.foldl_cons, Event.amend_of_not_isUpdate h.1, ih h.2]

@[simp] theorem toldOn_nil (name : String) : toldOn name [] = none := rfl

theorem toldOn_concat (name : String) (events : List Event) (event : Event) :
    toldOn name (events ++ [event]) =
      if event.updates name then some (Dispatcher.snapshotOf (statesOf (events ++ [event])))
      else toldOn name events := by
  rw [toldOn, List.rdropWhile_concat]
  cases event.updates name with
  | true => simp
  | false => rfl

/-- Of what happens on other channels nothing is heard. -/
theorem toldOn_append_of_silent (earlier : List Event)
    (h : ∀ event ∈ later, event.updates name = false) :
    toldOn name (earlier ++ later) = toldOn name earlier := by
  induction later using List.reverseRecOn with
  | nil => rw [List.append_nil]
  | append_singleton rest event ih =>
    rw [← List.append_assoc, toldOn_concat, if_neg (by simp [h event (by simp)])]
    exact ih fun e he => h e (by simp [he])

/-- After a report on the channel all is heard that has been reported by then. -/
theorem toldOn_append_of_update (earlier : List Event)
    (h : ∀ event ∈ later, event.isUpdate = true → event.channel = name)
    (hupdate : later.any Event.isUpdate = true) :
    toldOn name (earlier ++ later) =
      some (Dispatcher.snapshotOf (statesOf (earlier ++ later))) := by
  -- by induction from the end, where the last report has to be found
  induction later using List.reverseRecOn with
  | nil => cases hupdate
  | append_singleton rest event ih =>
    rw [← List.append_assoc, toldOn_concat, Event.updates]
    cases hevent : event.isUpdate with
    | true => simp [h event (by simp) hevent]
    | false =>
      rw [List.any_append, List.any_cons, hevent] at hupdate
      rw [statesOf_append, List.foldl_cons, Event.amend_of_not_isUpdate hevent]
      exact ih (fun e he => h e (by simp [he])) (by simpa using hupdate)

/-- A channel on which everything is reported hears everything. -/
theorem toldOn_eq_liveState (h : ∀ event ∈ events, event.isUpdate = true → event.channel = name) :
    toldOn name events = liveState events := by
  rw [liveState]
  cases hupdate : events.any Event.isUpdate with
  | true => exact toldOn_append_of_update [] h hupdate
  | false =>
    refine toldOn_append_of_silent [] fun event he => ?_
    rw [Event.updates, Bool.eq_false_iff.mpr (List.any_eq_false.mp hupdate event he)]
    rfl

/-- None of the events is a report, and all are about the channel. -/
def Quiet (name : String) (events : List Event) : Prop :=
  ∀ event ∈ events, event.isUpdate = false ∧ event.channel = name

@[simp] theorem quiet_nil (name : String) : Quiet name [] :=
  fun _ he => absurd he List.not_mem_nil

theorem Quiet.any_isUpdate (h : Quiet name events) : events.any Event.isUpdate = false :=
  List.any_eq_false.mpr fun event he => Bool.eq_false_iff.mp (h event he).1

/-! ## What a dispatcher tells -/

theorem quiet_expireAcks (name : String) (timeout : Nat) (now : Time)
    (expectations : List Expectation) :
    Quiet name (expireAcks name timeout now expectations).1 := by
  intro event he
  obtain ⟨e, -, rfl⟩ := eq_commandTimedOut_of_mem he
  exact ⟨rfl, rfl⟩

theorem quiet_settleAcksAmid (name : String) (decoders : List Decoder) (frame : Frame)
    (moods : List Mood) (expectations : List Expectation) :
    Quiet name (settleAcksAmid name decoders frame moods expectations).1 := by
  intro event he
  obtain ⟨e, -, rfl⟩ := eq_commandAcked_of_mem he
  exact ⟨rfl, rfl⟩

/-- The consultation about a frame of the channel began with these states, and its events tell the
whole of it. -/
structure Consultation.Tells (c : Consultation) (name : String) (states : KeyMap Fields) :
    Prop where
  channel : ∀ event ∈ c.events, event.channel = name
  states : c.states = c.events.foldl Event.amend states
  updated : c.updated = c.events.any Event.isUpdate

theorem Consultation.Tells.ask {c : Consultation} {states : KeyMap Fields}
    (h : c.Tells name states) (frame : Frame) (decoder : Decoder) :
    (c.ask name frame decoder).Tells name states := by
  have hone (event : Event) (hchannel : event.channel = name) :
      ∀ e ∈ c.events ++ [event], e.channel = name := fun e he =>
    (List.mem_append.mp he).elim (h.channel e) fun he => List.mem_singleton.mp he ▸ hchannel
  unfold Consultation.ask
  split
  · refine ⟨hone _ rfl, ?_, ?_⟩
    · rw [List.foldl_append, ← h.states]; rfl
    · rw [List.any_append, ← h.updated]; exact (Bool.or_false _).symm
  · exact h
  · exact ⟨h.channel, h.states, h.updated⟩
  · refine ⟨hone _ rfl, ?_, ?_⟩
    · rw [List.foldl_append, ← h.states]; rfl
    · rw [List.any_append]; exact (Bool.or_true _).symm

theorem tells_consult (name : String) (decoders : List Decoder) (states : KeyMap Fields)
    (frame : Frame) : (consult name decoders states frame).Tells name states := by
  suffices h : ∀ c : Consultation, c.Tells name states →
      (decoders.foldl (Consultation.ask name frame) c).Tells name states from
    h _ ⟨fun event he => absurd he List.not_mem_nil, rfl, rfl⟩
  induction decoders with
  | nil => exact fun c hc => hc
  | cons decoder rest ih => exact fun c hc => ih _ (hc.ask frame decoder)

/-- Quiet events may be told besides. -/
theorem Consultation.Tells.append {c : Consultation} {states : KeyMap Fields}
    (h : c.Tells name states) (hlater : Quiet name later) :
    { c with events := c.events ++ later }.Tells name states where
  channel := fun event he =>
    (List.mem_append.mp he).elim (h.channel event) fun he => (hlater event he).2
  states := by rw [List.foldl_append, foldl_amend_of_quiet hlater.any_isUpdate, h.states]
  updated := by rw [List.any_append, hlater.any_isUpdate, Bool.or_false, h.updated]

theorem Consultation.Tells.states_eq {c : Consultation} (h : c.Tells name (statesOf events)) :
    c.states = statesOf (events ++ c.events) := by
  rw [statesOf_append, h.states]

/-! ## Receivers

What scripts are told is known to the receiving end of a channel, and with a worker it is known
twice, by the owner and by the worker.  `InTouch` says that the two will agree when the next chunk
is taken apart, and each way of going on has to keep that. -/

namespace Receiver

/-- A chunk that comes now is taken apart with the snapshot of the receiver. -/
def InTouch : Receiver → Prop
  | inProcess _ => True
  | offloaded o => o.InTouch

/-- The second receiver knows the same snapshot as the first, and is in touch if that was. -/
structure Keeps (receiver receiver' : Receiver) : Prop where
  snapshot : receiver'.snapshot = receiver.snapshot
  inTouch : receiver.InTouch → receiver'.InTouch

theorem Keeps.refl (receiver : Receiver) : receiver.Keeps receiver := ⟨rfl, id⟩

theorem HandsOver.keeps {receiver : Receiver} {result : List Frame × Receiver}
    (h : receiver.HandsOver result) : receiver.Keeps result.2 := by
  cases h with
  | fed bytes now meanwhile =>
    cases receiver with
    | inProcess r => exact ⟨rfl, id⟩
    | offloaded o =>
      exact ⟨o.snapshot_step (.feed bytes now meanwhile), fun h => h.feedAmid bytes now meanwhile⟩
  | collected untilDrained meanwhile =>
    cases receiver with
    | inProcess r => exact .refl _
    | offloaded o =>
      exact ⟨o.snapshot_collect untilDrained meanwhile, fun h => h.collect untilDrained meanwhile⟩

theorem keeps_move (receiver : Receiver) (move : WorkerMove) :
    receiver.Keeps (receiver.move move) := by
  cases receiver with
  | inProcess r => exact .refl _
  | offloaded o => exact ⟨o.snapshot_step (.work move), fun h => h.move move⟩

/-- A new receiver knows nothing. -/
theorem IsFresh.snapshot {rx : RxFraming} {receiver : Receiver} (h : receiver.IsFresh rx) :
    receiver.snapshot = none := by
  cases h with
  | inProcess => rfl
  | offloaded config aided => exact Offloaded.snapshot_launch rx config aided

theorem IsFresh.inTouch {rx : RxFraming} {receiver : Receiver} (h : receiver.IsFresh rx) :
    receiver.InTouch := by
  cases h with
  | inProcess => trivial
  | offloaded config aided => exact Offloaded.inTouch_launch rx config aided

theorem snapshot_setSnapshot (receiver : Receiver) (snapshot : Json) :
    (receiver.setSnapshot snapshot).snapshot = some snapshot := by
  cases receiver with
  | inProcess r => rfl
  | offloaded o => exact o.snapshot_step (.setSnapshot (some snapshot))

theorem InTouch.setSnapshot {receiver : Receiver} (h : receiver.InTouch) (snapshot : Json) :
    (receiver.setSnapshot snapshot).InTouch := by
  cases receiver with
  | inProcess r => trivial
  | offloaded o => exact Offloaded.InTouch.setSnapshot h (some snapshot)

end Receiver

/-! ## Channels

The events so far are given, and a channel knows what it should have heard of them.  More events
come in three ways: they are about another channel, they are about this one but quiet, or they are
reports on this one, after which the scripts are told. -/

/-- The scripts of the channel have been told what they should have heard. -/
structure Channel.Told (channel : Channel) (name : String) (events : List Event) : Prop where
  snapshot : channel.profile.usesScript = true → channel.receiver.snapshot = toldOn name events
  inTouch : channel.receiver.InTouch

namespace Channel.Told

variable {channel channel' : Channel} {states : KeyMap Fields}

theorem silent (h : channel.Told name earlier)
    (hlater : ∀ event ∈ later, event.updates name = false) :
    channel.Told name (earlier ++ later) :=
  ⟨fun hscript => (h.snapshot hscript).trans (toldOn_append_of_silent earlier hlater).symm,
    h.inTouch⟩

/-- What happens on another channel is not told. -/
theorem elsewhere (h : channel.Told name earlier) {name' : String} (hne : name ≠ name')
    (hlater : ∀ event ∈ later, event.channel = name') :
    channel.Told name (earlier ++ later) := by
  refine h.silent fun event he => ?_
  rw [Event.updates, hlater event he]
  simp [Ne.symm hne]

theorem quiet (h : channel.Told name earlier) (hlater : Quiet name later) :
    channel.Told name (earlier ++ later) :=
  h.silent fun event he => by rw [Event.updates, (hlater event he).1]; rfl

/-- The receiver has gone on. -/
theorem keep (h : channel.Told name events) (channel' : Channel)
    (hprofile : channel'.profile = channel.profile)
    (hkeeps : channel.receiver.Keeps channel'.receiver) : channel'.Told name events :=
  ⟨fun hscript => hkeeps.snapshot.trans (h.snapshot (hprofile ▸ hscript)),
    hkeeps.inTouch h.inTouch⟩

/-- **A changed state is told to the scripts of the channel that changed it**, with all that was
reported before. -/
theorem consulted (h : channel.Told name events) {c : Consultation}
    (hc : c.Tells name (statesOf events)) (hprofile : channel'.profile = channel.profile)
    (hreceiver : channel'.receiver =
      if c.updated && channel.profile.usesScript then
        channel.receiver.setSnapshot (Dispatcher.snapshotOf c.states)
      else channel.receiver) : channel'.Told name (events ++ c.events) := by
  by_cases htell : (c.updated && channel.profile.usesScript) = true
  · rw [if_pos htell] at hreceiver
    have hupdate := hc.updated ▸ (Bool.and_eq_true_iff.mp htell).1
    refine ⟨fun _ => ?_, hreceiver ▸ h.inTouch.setSnapshot _⟩
    rw [hreceiver, Receiver.snapshot_setSnapshot, hc.states_eq,
      toldOn_append_of_update events (fun event he _ => hc.channel event he) hupdate]
  · rw [if_neg htell] at hreceiver
    refine ⟨fun hscript => ?_, hreceiver ▸ h.inTouch⟩
    rw [hprofile] at hscript
    rw [hscript, Bool.and_true, hc.updated, List.any_eq_true] at htell
    rw [hreceiver, h.snapshot hscript, toldOn_append_of_silent]
    intro event he
    rw [Event.updates, Bool.eq_false_iff.mpr fun hupdate => htell ⟨event, he, hupdate⟩]
    rfl

theorem dispatchFrameAmid (h : channel.Told name events) (decoders : List Decoder)
    (hearing : Hearing) (frame : Frame) :
    let result := Dispatcher.dispatchFrameAmid name decoders hearing (statesOf events) channel frame
    result.2.2.Told name (events ++ result.1) ∧
      result.2.1 = statesOf (events ++ result.1) ∧ ∀ event ∈ result.1, event.channel = name := by
  unfold Dispatcher.dispatchFrameAmid
  split
  · simp only [List.append_nil]
    exact ⟨h, trivial, fun event he => absurd he List.not_mem_nil⟩
  · have hunmatched : ∀ recognized : Bool,
        Quiet name (if recognized then [] else [.unmatchedFrame name frame]) := by
      intro recognized event he
      cases recognized with
      | true => cases he
      | false => cases List.mem_singleton.mp he; exact ⟨rfl, rfl⟩
    have hconsult := tells_consult name (hearing.reading.sway decoders) (statesOf events) frame
    generalize consult name (hearing.reading.sway decoders) (statesOf events) frame = c
      at hconsult ⊢
    have hc := (hconsult.append (hunmatched c.recognized)).append
      (quiet_settleAcksAmid name decoders frame hearing.settling channel.expectations)
    exact ⟨h.consulted hc rfl rfl, hc.states_eq, hc.channel⟩

/-- **After any frames of a channel its scripts have been told.** -/
theorem dispatchFramesAmid (h : channel.Told name events) (decoders : List Decoder)
    (hearings : List Hearing) (frames : List Frame) :
    let result :=
      Dispatcher.dispatchFramesAmid name decoders hearings frames (statesOf events) channel
    result.2.2.Told name (events ++ result.1) ∧
      result.2.1 = statesOf (events ++ result.1) ∧ ∀ event ∈ result.1, event.channel = name := by
  induction frames generalizing hearings events channel with
  | nil =>
    simp only [Dispatcher.dispatchFramesAmid, List.append_nil]
    exact ⟨h, trivial, fun event he => absurd he List.not_mem_nil⟩
  | cons frame rest ih =>
    have hone := h.dispatchFrameAmid decoders (hearings.headD {}) frame
    simp only [Dispatcher.dispatchFramesAmid_cons] at hone ⊢
    generalize Dispatcher.dispatchFrameAmid name decoders (hearings.headD {}) (statesOf events)
      channel frame = first at hone ⊢
    obtain ⟨told, states, next⟩ := first
    simp only at hone ⊢
    obtain ⟨htold, rfl, hchannel⟩ := hone
    obtain ⟨hrest, hstates, hlater⟩ := ih htold hearings.tail
    rw [List.append_assoc] at hrest hstates
    exact ⟨hrest, hstates, fun event he =>
      (List.mem_append.mp he).elim (hchannel event) (hlater event)⟩

end Channel.Told

/-! ## Dispatchers

All channels are told what they should have heard, the dispatcher knows the whole, and of a channel
that does not exist nothing has been told, which is needed when it is added.  The invariant is kept
by each effect that an occurrence may have (`Dispatcher.Effect`). -/

namespace Dispatcher

/-- The dispatcher knows what the events tell, and so do the scripts of each channel, as far as they
should.  Of a channel that is not there nothing has been told. -/
structure Informed (d : Dispatcher) (events : List Event) : Prop where
  states : d.states = statesOf events
  told : ∀ name channel, d.channel? name = some channel → channel.Told name events
  silent : ∀ name, d.channel? name = none → ∀ event ∈ events, event.updates name = false

namespace Informed

variable {d : Dispatcher} {channel : Channel}

/-- Only channels and states matter. -/
theorem of_eq (h : d.Informed events) (d' : Dispatcher) (hchannels : d'.channels = d.channels)
    (hstates : d'.states = d.states) : d'.Informed events := by
  obtain ⟨channels, decoders, states, ackTimeout⟩ := d
  obtain ⟨channels', decoders', states', ackTimeout'⟩ := d'
  obtain rfl : channels' = channels := hchannels
  obtain rfl : states' = states := hstates
  exact ⟨h.states, h.told, h.silent⟩

theorem states_of_quiet (h : d.Informed events) (hlater : Quiet name later) :
    d.states = statesOf (events ++ later) := by
  rw [statesOf_append, foldl_amend_of_quiet hlater.any_isUpdate, h.states]

/-- A channel is replaced by one that has been told, after events that were about it. -/
theorem setChannel (h : d.Informed events) {channel' : Channel} {states : KeyMap Fields}
    (hstates : states = statesOf (events ++ later)) (hlater : ∀ event ∈ later, event.channel = name)
    (htold : channel'.Told name (events ++ later)) :
    ({ d with states }.setChannel name channel').Informed (events ++ later) where
  states := hstates
  told := by
    intro name' channel hchannel
    rw [channel?_setChannel] at hchannel
    split at hchannel
    · rename_i heq
      cases hchannel
      exact heq ▸ htold
    · rename_i hne
      exact (h.told name' channel hchannel).elsewhere hne hlater
  silent := by
    intro name' hnone event he
    rw [channel?_setChannel] at hnone
    split at hnone
    · cases hnone
    · rename_i hne
      rcases List.mem_append.mp he with he | he
      · exact h.silent name' hnone event he
      · rw [Event.updates, hlater event he]
        simp [Ne.symm hne]

/-- What a response leaves behind, and what it tells. -/
def After {α : Type} (events : List Event) (r : Response α) : Prop :=
  r.dispatcher.Informed (events ++ r.events)

theorem After.map {α β : Type} {r : Response α} (h : After events r) (f : α → β) :
    After events (r.map f) := h

/-- Nothing has been told. -/
theorem mute {α : Type} (h : d.Informed events) (result : Except DispatchError α) :
    After events { result, dispatcher := d } := by
  rw [After, List.append_nil]
  exact h

/-- Nothing is told, and a channel is replaced by one that knows as much. -/
theorem replace {α : Type} (h : d.Informed events) {channel' : Channel}
    (htold : channel'.Told name events) (result : Except DispatchError α) :
    After events { result, dispatcher := d.setChannel name channel' } :=
  h.setChannel (h.states_of_quiet (quiet_nil name)) (fun _ he => absurd he List.not_mem_nil)
    (htold.quiet (quiet_nil name))

/-- The receiver of a channel goes on. -/
theorem keep {α : Type} (h : d.Informed events) (hchannel : d.channel? name = some channel)
    (channel' : Channel) (hprofile : channel'.profile = channel.profile)
    (hkeeps : channel.receiver.Keeps channel'.receiver) (result : Except DispatchError α) :
    After events { result, dispatcher := d.setChannel name channel' } :=
  h.replace ((h.told name channel hchannel).keep channel' hprofile hkeeps) result

/-- A new channel knows nothing, and there is nothing that it should have heard. -/
theorem add {α : Type} (h : d.Informed events) (hnew : d.channel? name = none)
    {profile : ChannelProfile} {receiver : Receiver} (hfresh : receiver.IsFresh profile.rx)
    (result : Except DispatchError α) :
    After events { result, dispatcher := d.setChannel name (.ofProfile profile receiver) } := by
  have htold : toldOn name events = none := toldOn_append_of_silent [] (h.silent name hnew)
  exact h.replace ⟨fun _ => hfresh.snapshot.trans htold.symm, hfresh.inTouch⟩ _

/-- Frames are dispatched on a channel whose receiver has handed them over. -/
theorem dispatchAmid (h : d.Informed events) (hchannel : d.channel? name = some channel)
    {frames : List Frame} {receiver : Receiver} (hkeeps : channel.receiver.Keeps receiver)
    (now : Time) (hearings : List Hearing) :
    After events (d.dispatchAmid name { channel with receiver } frames now hearings) := by
  simp only [dispatchAmid_eq]
  have hexpired := quiet_expireAcks name d.ackTimeout now channel.expectations
  generalize expireAcks name d.ackTimeout now channel.expectations = expired at hexpired ⊢
  have hready := ((h.told name channel hchannel).keep
    { channel with receiver, expectations := expired.2 } rfl hkeeps).quiet hexpired
  obtain ⟨htold, hstates, hlater⟩ := hready.dispatchFramesAmid d.decoders hearings frames
  rw [← h.states_of_quiet hexpired] at htold hstates hlater
  rw [List.append_assoc] at htold hstates
  exact h.setChannel hstates (fun event he =>
    (List.mem_append.mp he).elim (fun he => (hexpired event he).2) (hlater event)) htold

/-- **Whatever happens, scripts are told what they should hear.** -/
theorem perform (h : d.Informed events) (o : Occurrence) : After events (d.perform o) := by
  have heffect := d.effect_perform o
  generalize d.perform o = r at heffect ⊢
  cases heffect with
  | refused error => exact h.mute _
  | registered decoder => exact (h.of_eq (d.register decoder) rfl rfl).mute _
  | timed timeout => exact (h.of_eq (d.setAckTimeout timeout) rfl rfl).mute _
  | added hnew hfresh => exact h.add hnew hfresh _
  | received now hearings hchannel hframes =>
    exact (h.dispatchAmid hchannel hframes.keeps now hearings).map _
  | queued command priority hchannel =>
    refine h.keep hchannel _ ?_ ?_ _
    · rfl
    · exact .refl _
  | sent priority now mood hdecoder hchannel hbuild =>
    refine h.keep hchannel _ ?_ ?_ _
    · rfl
    · exact .refl _
  | taken name channel now hchannel =>
    have hexpired := quiet_expireAcks name d.ackTimeout now channel.expectations
    have hready := (h.told name channel hchannel).quiet hexpired
    exact h.setChannel (h.states_of_quiet hexpired) (fun event he => (hexpired event he).2)
      ⟨hready.snapshot, hready.inTouch⟩
  | idle move hmissing => exact h.mute _
  | moved move hchannel =>
    refine h.keep hchannel _ ?_ ?_ _
    · rfl
    · exact Receiver.keeps_move _ move

theorem run (h : d.Informed events) (occurrences : List Occurrence) :
    (d.run occurrences).2.Informed (events ++ (d.run occurrences).1) := by
  induction occurrences generalizing d events with
  | nil =>
    rw [Dispatcher.run, List.append_nil]
    exact h
  | cons o rest ih =>
    have hrest := ih (h.perform o)
    rw [List.append_assoc] at hrest
    exact hrest

end Informed

/-- **What the scripts of a channel know.**  Whatever happens to a new dispatcher, its own state is
what the events tell.  A channel whose received frames are verified by a script knows that state as
it was after the last report on the channel itself, or nothing if there was none, and takes the next
chunk apart with what it knows, whoever reassembles.  So it knows the state as it is if nothing was
reported on any other channel. -/
theorem run_tells (occurrences : List Occurrence) {name : String} {channel : Channel}
    (hchannel : (({} : Dispatcher).run occurrences).2.channel? name = some channel)
    (hscript : channel.profile.rx.checksum.isScript = true) :
    (({} : Dispatcher).run occurrences).2.states =
        statesOf (({} : Dispatcher).run occurrences).1 ∧
      channel.receiver.snapshot = toldOn name (({} : Dispatcher).run occurrences).1 ∧
      channel.receiver.InTouch ∧
      ((∀ event ∈ (({} : Dispatcher).run occurrences).1,
          event.isUpdate = true → event.channel = name) →
        channel.receiver.snapshot = liveState (({} : Dispatcher).run occurrences).1) := by
  have hnew : ({} : Dispatcher).Informed [] :=
    ⟨rfl, fun _ _ hsome => (by cases hsome), fun _ _ _ he => absurd he List.not_mem_nil⟩
  have hrun := hnew.run occurrences
  have htold := hrun.told name channel hchannel
  have hknown := htold.snapshot (by rw [ChannelProfile.usesScript, hscript, Bool.true_or])
  exact ⟨hrun.states, hknown, htold.inTouch, fun honly => hknown.trans (toldOn_eq_liveState honly)⟩

/-! ### Three channels -/

/-- Frames of three bytes, the first of which is this one. -/
def threeByteProfile (first : UInt8) (checksum : Checksum) : ChannelProfile where
  rx := {
    header := [first], footer := [], checksum, delimiter := .fixedLength 3, minLength := none,
    maxLength := none, timeout := 10, startBytes := none }
  tx := { header := [], footer := [], checksum := .absent, delay := 0 }

/-- A checksum that is always zero, computed by a script. -/
def zeroScript : Checksum := .script "zero" .one fun _ _ => .answer (.number (.integer 0))

/-- Every frame reports its second byte as the level of a tank. -/
def tankDecoder : Decoder where
  id := "tank"
  stateProxy := none
  matchesFrame _ := .returned (.ok true)
  parse frame := .returned (.ok (some [("level", .number (.integer (frame.bytes.getD 1 0).toNat))]))
  buildCommand _ _ _ := .returned none
  expectsAck _ := .returned false
  matchesAck _ _ := .returned false

/-- A lamp with a script hears of the level once, then the level changes on a channel without one,
and then comes another lamp. -/
def threeChannels : List Occurrence :=
  [.register tankDecoder,
    .addChannel "meter" (threeByteProfile 0xF7 .absent),
    .addChannel "lamp" (threeByteProfile 0xF2 zeroScript),
    .feed "lamp" [0xF2, 1, 0] 0 {} [],
    .feed "meter" [0xF7, 2, 0] 0 {} [],
    .addChannel "porch" (threeByteProfile 0xF1 zeroScript)]

/-- The lamp knows the level that it was told. -/
theorem run_tells_of_three_channels :
    ∃ lamp, (({} : Dispatcher).run threeChannels).2.channel? "lamp" = some lamp ∧
      lamp.profile.rx.checksum.isScript = true ∧
      lamp.receiver.snapshot = toldOn "lamp" (({} : Dispatcher).run threeChannels).1 ∧
      lamp.receiver.InTouch ∧
      toldOn "lamp" (({} : Dispatcher).run threeChannels).1 =
        some (.object [("tank", .object [("level", .number (.integer 1))])]) := by
  refine ⟨_, rfl, rfl, ?_⟩
  obtain ⟨-, hknown, hinTouch, -⟩ := run_tells threeChannels
    (show (({} : Dispatcher).run threeChannels).2.channel? "lamp" = some _ from rfl) rfl
  exact ⟨hknown, hinTouch, rfl⟩

/-- Scripts do not always know the state as it is: here the lamp knows an old level, and the porch
none at all. -/
theorem not_always_live :
    ¬∀ (occurrences : List Occurrence) (name : String) (channel : Channel),
      (({} : Dispatcher).run occurrences).2.channel? name = some channel →
        channel.profile.rx.checksum.isScript = true →
          channel.receiver.snapshot =
              some (snapshotOf (({} : Dispatcher).run occurrences).2.states) ∨
            channel.receiver.snapshot = none ∧
              (({} : Dispatcher).run occurrences).1.any Event.isUpdate = false := by
  intro h
  have hlamp : some (Json.object [("tank", .object [("level", .number (.integer 1))])]) =
        some (.object [("tank", .object [("level", .number (.integer 2))])]) ∨ _ :=
    h threeChannels "lamp" _ rfl rfl
  rcases hlamp with hlevel | ⟨hnone, -⟩
  · simp at hlevel
  · cases hnone

end Dispatcher
end Fieldbus
