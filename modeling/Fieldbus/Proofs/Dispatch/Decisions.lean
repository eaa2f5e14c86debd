import Fieldbus.Proofs.Dispatch.Verdicts

/-!
# What decides about an acknowledgement

A command that waits for its acknowledgement is looked at again and again: whenever bytes come on
its channel, and whenever the transport asks for a command.  Most of the time nothing is decided.
The first time that something is, the wait is over: either the command has waited too long by then,
and is given up whatever frames come, or one of the frames is taken for the acknowledgement.

With decoders that do not change their minds it can be said exactly what is told then.  Commands
that look alike may be waited for at the same time, on the same channel; each of them is told once.

## What is here

* `Expectation.decision`, `Dispatcher.decision` — what decides about an expectation.
* `Dispatcher.told` — all that is told when expectations are looked at, in order.
* `dispatchFrames_decides`, `Dispatcher.perform_decides` — the frames of a channel, and anything
  that can happen, decide like this and tell no more.
* `Dispatcher.leavesOpen`, `Dispatcher.waiting` — the commands about which nothing has been decided.
* `Dispatcher.run_decides` — what holds at every place of a run.
* `Dispatcher.not_only_fed_or_asked` — a transport that only polls is told of overdue commands, too.

## How it is proved

In `Proofs.Dispatch.Verdicts` decoders may change their minds, and then it can only be said that
each verdict has a reason.  Here they do not, so the events are a function of what was awaited and
of the frames (`Dispatcher.told`), and the theorem is an equation.  Frames of one call are the inner
induction: each of them settles what it is the first to acknowledge.  Occurrences are the outer one,
and there the order of the calls matters, because verdicts of one kind are told in that order.
-/

set_option autoImplicit false

namespace Fieldbus

/-! ## Decisions

A decision is a function of the expectation, the time, the decoders and the frames of one call.  The
time is asked first; only if the command has not waited too long is the first frame sought that its
decoder takes for the acknowledgement.  Which of several frames it is has to be known, because the
events of a call are told frame by frame. -/

/-- How it is decided about an expectation. -/
inductive Decision where
  | timedOut
  /-- By the frame at this place among those that the decoders get to see. -/
  | acked (place : Nat)
deriving DecidableEq, Repr

/-- The first of the frames that the decoder of the entity takes for the acknowledgement. -/
def firstAck (decoders : List Decoder) (frames : List Frame) (e : Expectation) : Option Nat :=
  frames.findIdx? fun frame => ackVerdict decoders frame e = .acked

/-- What is decided about an expectation when frames come.  If it has waited too long, then the
frames are not asked. -/
def Expectation.decision (e : Expectation) (timeout : Nat) (now : Time) (decoders : List Decoder)
    (frames : List Frame) : Option Decision :=
  if e.isOverdue timeout now then some .timedOut else (firstAck decoders frames e).map .acked

section FirstAck

variable {decoders : List Decoder} {frame : Frame} {rest : List Frame} {e : Expectation}

theorem firstAck_cons :
    firstAck decoders (frame :: rest) e =
      if ackVerdict decoders frame e = .acked then some 0
      else (firstAck decoders rest e).map (· + 1) := by
  simp [firstAck, List.findIdx?_cons]

theorem firstAck_cons_eq_zero :
    firstAck decoders (frame :: rest) e = some 0 ↔ ackVerdict decoders frame e = .acked := by
  rw [firstAck_cons]
  split <;> simp [*]

theorem firstAck_cons_eq_succ {place : Nat} :
    firstAck decoders (frame :: rest) e = some (place + 1) ↔
      firstAck decoders rest e = some place ∧ ackVerdict decoders frame e ≠ .acked := by
  rw [firstAck_cons]
  split <;> simp [*]

theorem firstAck_cons_eq_none :
    firstAck decoders (frame :: rest) e = none ↔
      firstAck decoders rest e = none ∧ ackVerdict decoders frame e ≠ .acked := by
  rw [firstAck_cons]
  split <;> simp [*]

end FirstAck

namespace Expectation

variable {e : Expectation} {timeout : Nat} {now : Time} {decoders : List Decoder}
variable {frames : List Frame}

theorem decision_eq_timedOut :
    e.decision timeout now decoders frames = some .timedOut ↔ e.isOverdue timeout now = true := by
  rw [decision]
  split <;> simp [*]

theorem decision_eq_acked {place : Nat} :
    e.decision timeout now decoders frames = some (.acked place) ↔
      firstAck decoders frames e = some place ∧ (!e.isOverdue timeout now) = true := by
  rw [decision]
  split <;> simp [*]

theorem decision_eq_none :
    e.decision timeout now decoders frames = none ↔
      firstAck decoders frames e = none ∧ (!e.isOverdue timeout now) = true := by
  rw [decision]
  split <;> simp [*]

end Expectation

/-! ## What is told of frames -/

/-- What the decoders tell of a frame, and that none of them recognised it. -/
def readings (name : String) (decoders : List Decoder) (frame : Frame) : List Event :=
  let c := consult name decoders [] frame
  c.events ++ if c.recognized then [] else [.unmatchedFrame name frame]

/-- What is told of frames one after another: of each what the decoders read in it, and then which
expectations it settles. -/
def toldOfFrames (name : String) (decoders : List Decoder) (settledBy : Nat → List Expectation)
    (frames : List Frame) : List Event :=
  (frames.mapIdx fun place frame =>
    readings name decoders frame ++
      (settledBy place).map fun e => .commandAcked name e.entity e.command).flatten

variable (name : String) {decoders : List Decoder}

theorem toldOfFrames_cons (settledBy : Nat → List Expectation) (frame : Frame)
    (rest : List Frame) :
    toldOfFrames name decoders settledBy (frame :: rest) =
      readings name decoders frame ++
        (settledBy 0).map (fun e => .commandAcked name e.entity e.command) ++
          toldOfFrames name decoders (fun place => settledBy (place + 1)) rest := by
  rw [toldOfFrames, List.mapIdx_cons, List.flatten_cons]
  rfl

/-- A frame settles those that it acknowledges, and the others stay open. -/
theorem settleAcks_eq (frame : Frame) {expectations : List Expectation}
    (h : AllRegistered decoders expectations) :
    settleAcks name decoders frame expectations =
      ((expectations.filter fun e => ackVerdict decoders frame e = .acked).map
          fun e => .commandAcked name e.entity e.command,
        expectations.filter fun e => ackVerdict decoders frame e ≠ .acked) := by
  have hwaiting : ∀ e ∈ expectations,
      decide (ackVerdict decoders frame e = .waiting) =
        decide (ackVerdict decoders frame e ≠ .acked) := by
    intro e he
    have hjudged := ackVerdict_ne_orphaned (h e he) .calm frame
    rw [Mood.calm_sway] at hjudged
    cases hverdict : ackVerdict decoders frame e with
    | orphaned => exact absurd hverdict hjudged
    | _ => rfl
  rw [settleAcks, List.filter_congr hwaiting, ← List.filterMap_eq_map', List.filterMap_filter]
  simp only [decide_eq_true_eq]

/-! ## Frames

By induction on the frames of a call.  The first frame settles those expectations for which it is
the first to acknowledge them, and for the others the decision moves up by one place.  So what is
told of the rest is what would be told of it alone, with the places shifted. -/

/-- The frames whose length is within bounds. -/
def RxFraming.accepted (rx : RxFraming) (frames : List Frame) : List Frame :=
  frames.filter fun frame => rx.acceptsLength frame.bytes.length

theorem RxFraming.accepted_cons (rx : RxFraming) (frame : Frame) (rest : List Frame) :
    rx.accepted (frame :: rest) =
      if rx.acceptsLength frame.bytes.length then frame :: rx.accepted rest
      else rx.accepted rest := List.filter_cons

theorem consult_readings (decoders : List Decoder) (states : KeyMap Fields) (frame : Frame) :
    (consult name decoders states frame).events ++
        (if (consult name decoders states frame).recognized then []
          else [.unmatchedFrame name frame]) = readings name decoders frame := by
  have hsame := consult_sameButStates name decoders states [] frame
  rw [hsame.events, hsame.recognized]
  rfl

namespace Dispatcher

/-- A frame within bounds is read by the decoders, and settles those that it acknowledges. -/
theorem dispatchFrame_decides (states : KeyMap Fields) {channel : Channel} {frame : Frame}
    (haccepts : channel.profile.rx.acceptsLength frame.bytes.length = true)
    (h : AllRegistered decoders channel.expectations) :
    let result := dispatchFrame name decoders states channel frame
    result.1 = readings name decoders frame ++
        (channel.expectations.filter fun e => ackVerdict decoders frame e = .acked).map
          (fun e => .commandAcked name e.entity e.command) ∧
      result.2.2.expectations =
        (channel.expectations.filter fun e => ackVerdict decoders frame e ≠ .acked) ∧
      result.2.2.profile = channel.profile := by
  simp only [dispatchFrame, haccepts, settleAcks_eq name frame h, consult_readings]
  exact ⟨rfl, rfl, rfl⟩

theorem dispatchFrames_cons (decoders : List Decoder) (frame : Frame) (rest : List Frame)
    (states : KeyMap Fields) (channel : Channel) :
    dispatchFrames name decoders (frame :: rest) states channel =
      let first := dispatchFrame name decoders states channel frame
      let later := dispatchFrames name decoders rest first.2.1 first.2.2
      (first.1 ++ later.1, later.2) := rfl

/-- **The first frame that acknowledges an expectation settles it**, and frames out of bounds
settle none. -/
theorem dispatchFrames_decides (frames : List Frame) (states : KeyMap Fields) (channel : Channel)
    (h : AllRegistered decoders channel.expectations) :
    let result := dispatchFrames name decoders frames states channel
    let shown := channel.profile.rx.accepted frames
    result.1 = toldOfFrames name decoders
        (fun place => channel.expectations.filter fun e => firstAck decoders shown e = some place)
        shown ∧
      result.2.2.expectations =
        channel.expectations.filter fun e => firstAck decoders shown e = none := by
  induction frames generalizing states channel with
  | nil => exact ⟨rfl, (List.filter_eq_self.2 fun e _ => rfl).symm⟩
  | cons frame rest ih =>
    by_cases haccepts : channel.profile.rx.acceptsLength frame.bytes.length = true
    · obtain ⟨hevents, hleft, hprofile⟩ := dispatchFrame_decides name states haccepts h
      simp only [dispatchFrames_cons, RxFraming.accepted_cons, if_pos haccepts]
      generalize dispatchFrame name decoders states channel frame = first at *
      obtain ⟨hmore, hlast⟩ := ih first.2.1 first.2.2 (hleft ▸ h.subset List.filter_sublist.subset)
      rw [hprofile, hleft] at hmore hlast
      refine ⟨?_, ?_⟩
      · simp only [toldOfFrames_cons, firstAck_cons_eq_zero, firstAck_cons_eq_succ, hevents, hmore,
          List.filter_filter, Bool.decide_and]
      · simp only [firstAck_cons_eq_none, hlast, List.filter_filter, Bool.decide_and]
    · have hdropped : dispatchFrame name decoders states channel frame = ([], states, channel) := by
        simp only [dispatchFrame, haccepts]
        rfl
      simp only [dispatchFrames_cons, hdropped, List.nil_append, RxFraming.accepted_cons,
        if_neg haccepts]
      exact ih states channel h

end Dispatcher

theorem map_frame_shownOf (rx : RxFraming) (hearings : List Hearing) (frames : List Frame) :
    (shownOf name rx hearings frames).map (·.frame) = rx.accepted frames := by
  induction frames generalizing hearings with
  | nil => rfl
  | cons frame rest ih =>
    rw [shownOf, List.map_append, ih, RxFraming.accepted_cons]
    split <;> rfl

/-! ## What happens to a dispatcher

Only four kinds of occurrence look at the expectations on a channel: bytes that come, frames that
are collected from a worker in either way, and a transport that asks for a command.  For each of
them all that is told is known; of the others it is enough that they decide nothing. -/

namespace Occurrence

/-- The decoders answer as always when frames are dispatched. -/
def IsCalm : Occurrence → Prop
  | .feed _ _ _ _ hearings => hearings = []
  | .poll _ _ _ hearings => hearings = []
  | .flush _ _ _ hearings => hearings = []
  | _ => True

/-- The time at which the expectations on the channel are looked at, if they are. -/
def looksAt (name : String) : Occurrence → Option Time
  | .feed name' _ now _ _ => if name' = name then some now else none
  | .poll name' now _ _ => if name' = name then some now else none
  | .flush name' now _ _ => if name' = name then some now else none
  | .next name' now => if name' = name then some now else none
  | _ => none

/-- Does the channel get bytes, or is it asked for a command? -/
def feedsOrAsks (name : String) : Occurrence → Bool
  | .feed name' _ _ _ _ => name' = name
  | .next name' _ => name' = name
  | _ => false

/-- The frames that a reassembler in process completes. -/
def completes (r : Reassembler) : Occurrence → List Frame
  | .feed _ bytes now _ _ => (r.feed bytes now).1
  | _ => []

end Occurrence

namespace Dispatcher

/-- What is decided about an expectation on the channel.  Only frames that the decoders get to see
are asked. -/
def decision (d : Dispatcher) (name : String) (o : Occurrence) (e : Expectation) :
    Option Decision :=
  (o.looksAt name).bind fun now =>
    e.decision d.ackTimeout now d.decoders ((d.shown o).map (·.frame))

/-- What is told when these expectations are looked at: first which of them are given up, and then,
frame by frame, what the decoders read in it and which expectations it settles. -/
def told (d : Dispatcher) (name : String) (o : Occurrence) (expectations : List Expectation) :
    List Event :=
  (expectations.filter fun e => d.decision name o e = some .timedOut).map
      (fun e => .commandTimedOut name e.entity e.command) ++
    toldOfFrames name d.decoders
      (fun place => expectations.filter fun e => d.decision name o e = some (.acked place))
      ((d.shown o).map (·.frame))

variable {d : Dispatcher} {name : String}

theorem expectationsOn_of_channel? {channel : Channel} (hchannel : d.channel? name = some channel) :
    d.expectationsOn name = channel.expectations := by
  rw [expectationsOn, hchannel]
  rfl

theorem expectationsOn_of_missing (hchannel : d.channel? name = none) :
    d.expectationsOn name = [] := by
  rw [expectationsOn, hchannel]
  rfl

/-- On a channel that does not exist, nothing is told. -/
theorem told_of_missing {o : Occurrence} (hshown : d.shown o = []) : d.told name o [] = [] := by
  rw [told, hshown]
  rfl

/-- Those that are overdue are given up. -/
theorem expireAcks_eq (name : String) (timeout : Nat) (now : Time)
    (expectations : List Expectation) :
    expireAcks name timeout now expectations =
      ((expectations.filter fun e => e.isOverdue timeout now).map
          fun e => .commandTimedOut name e.entity e.command,
        expectations.filter fun e => !e.isOverdue timeout now) := by
  rw [expireAcks, List.partition_eq_filter_filter]
  rfl

/-- Frames are taken from the channel and dispatched. -/
theorem receive_decides (h : d.NoneOrphaned) {o : Occurrence} {now : Time}
    (take : Receiver → List Frame × Receiver) (hshown : d.shown o = d.shownBy name take [])
    (hlooks : o.looksAt name = some now) :
    (d.receive name take now []).events = d.told name o (d.expectationsOn name) ∧
      (d.receive name take now []).dispatcher.expectationsOn name =
        (d.expectationsOn name).filter fun e => d.decision name o e = none := by
  unfold receive
  cases hchannel : d.channel? name with
  | none =>
    have hnothing : d.shown o = [] := by rw [hshown, shownBy, hchannel]; rfl
    rw [expectationsOn_of_missing hchannel, told_of_missing hnothing]
    exact ⟨rfl, expectationsOn_of_missing hchannel⟩
  | some channel =>
    have hframes : (d.shown o).map (·.frame) =
        channel.profile.rx.accepted (take channel.receiver).1 := by
      rw [hshown, shownBy, hchannel]
      exact map_frame_shownOf name _ _ _
    obtain ⟨hevents, hleft⟩ := dispatchFrames_decides name (take channel.receiver).1 d.states
      { channel with
        receiver := (take channel.receiver).2
        expectations := channel.expectations.filter fun e => !e.isOverdue d.ackTimeout now }
      ((h name channel hchannel).subset List.filter_sublist.subset)
    simp only [List.filter_filter] at hevents hleft
    simp only [told, decision, hlooks, Option.bind_some, Expectation.decision_eq_timedOut,
      Expectation.decision_eq_acked, Expectation.decision_eq_none, Bool.decide_and,
      Bool.decide_eq_true, hframes, expectationsOn_of_channel? hchannel, dispatchAmid_calm,
      dispatch, expireAcks_eq, hevents, expectationsOn_setChannel, if_true, true_and]
    exact hleft

/-- The transport asks for a command. -/
theorem next_decides (d : Dispatcher) (name : String) (now : Time) :
    (d.next name now).events =
        d.told name (.next name now) (d.expectationsOn name) ∧
      (d.next name now).dispatcher.expectationsOn name =
        (d.expectationsOn name).filter fun e => d.decision name (.next name now) e = none := by
  have hlooks : (Occurrence.next name now).looksAt name = some now := if_pos rfl
  unfold next
  cases hchannel : d.channel? name with
  | none =>
    rw [expectationsOn_of_missing hchannel, told_of_missing rfl]
    exact ⟨rfl, expectationsOn_of_missing hchannel⟩
  | some channel =>
    have hnoframe (e : Expectation) :
        firstAck d.decoders ((d.shown (.next name now)).map (·.frame)) e = none := rfl
    simp only [told, decision, hlooks, Option.bind_some, Expectation.decision_eq_timedOut,
      Expectation.decision_eq_none, hnoframe, true_and, Bool.decide_eq_true,
      expectationsOn_of_channel? hchannel, expireAcks_eq, expectationsOn_setChannel, if_true,
      and_true]
    exact (List.append_nil _).symm

/-- What does not look at the expectations on a channel decides nothing about them. -/
theorem perform_idle (d : Dispatcher) {o : Occurrence} (hlooks : o.looksAt name = none) :
    (∀ event ∈ (d.perform o).events, event.isVerdictOn name = false) ∧
      (d.perform o).dispatcher.expectationsOn name =
        d.expectationsOn name ++ (d.sent? name o).toList := by
  by_cases habout : o.about? = some name
  · have hquiet (hevents : (d.perform o).events = []) :
        ∀ event ∈ (d.perform o).events, event.isVerdictOn name = false := by
      rw [hevents]
      exact fun event he => absurd he List.not_mem_nil
    cases o with
    | send name' entity command value priority now mood =>
      obtain rfl : name' = name := Option.some.inj habout
      obtain ⟨hevents, hleft⟩ := d.ends_send name' entity command value priority now mood
      exact ⟨hquiet hevents, hleft⟩
    | enqueue name' command priority =>
      obtain rfl : name' = name := Option.some.inj habout
      obtain ⟨hevents, hleft⟩ := d.ends_enqueue name' command priority
      exact ⟨hquiet hevents, hleft.trans (List.append_nil _).symm⟩
    | work name' move =>
      obtain rfl : name' = name := Option.some.inj habout
      obtain ⟨hevents, hleft⟩ := d.ends_work name' move
      exact ⟨hquiet hevents, hleft.trans (List.append_nil _).symm⟩
    | feed name' => cases (if_pos (Option.some.inj habout)).symm.trans hlooks
    | poll name' => cases (if_pos (Option.some.inj habout)).symm.trans hlooks
    | flush name' => cases (if_pos (Option.some.inj habout)).symm.trans hlooks
    | next name' => cases (if_pos (Option.some.inj habout)).symm.trans hlooks
    | _ => cases habout
  · obtain ⟨hevents, hsame, hsent⟩ := d.ends_elsewhere habout
    rw [hsame, hsent]
    exact ⟨hevents, (List.append_nil _).symm⟩

theorem decision_of_idle {o : Occurrence} (hlooks : o.looksAt name = none) (e : Expectation) :
    d.decision name o e = none := by
  rw [decision, hlooks]
  rfl

/-- **What happens decides about the expectations on a channel as it should**: those about which
nothing is decided stay, in their order, and what is told is told as it should be. -/
theorem perform_decides (h : d.NoneOrphaned) {o : Occurrence} (hcalm : o.IsCalm) (name : String) :
    (d.perform o).dispatcher.expectationsOn name =
        ((d.expectationsOn name).filter fun e => d.decision name o e = none) ++
          (d.sent? name o).toList ∧
      if (o.looksAt name).isSome then
        (d.perform o).events = d.told name o (d.expectationsOn name)
      else ∀ event ∈ (d.perform o).events, event.isVerdictOn name = false := by
  cases hlooks : o.looksAt name with
  | none =>
    obtain ⟨hevents, hleft⟩ := d.perform_idle hlooks
    have hall : ((d.expectationsOn name).filter fun e => d.decision name o e = none) =
        d.expectationsOn name :=
      List.filter_eq_self.2 fun e _ => decide_eq_true (decision_of_idle hlooks e)
    rw [hall]
    exact ⟨hleft, hevents⟩
  | some now =>
    suffices hlooked : (d.perform o).events = d.told name o (d.expectationsOn name) ∧
        (d.perform o).dispatcher.expectationsOn name =
          ((d.expectationsOn name).filter fun e => d.decision name o e = none) ∧
        d.sent? name o = none by
      obtain ⟨hevents, hleft, hsent⟩ := hlooked
      rw [hsent]
      exact ⟨hleft.trans (List.append_nil _).symm, hevents⟩
    cases o with
    | feed name' bytes now' meanwhile hearings =>
      obtain ⟨rfl, -⟩ := Option.ite_none_right_eq_some.1 hlooks
      obtain rfl : hearings = [] := hcalm
      obtain ⟨hevents, hleft⟩ := receive_decides h (o := .feed name' bytes now' meanwhile [])
        (·.feedAmid bytes now' meanwhile) rfl (if_pos rfl)
      exact ⟨hevents, hleft, rfl⟩
    | poll name' now' meanwhile hearings =>
      obtain ⟨rfl, -⟩ := Option.ite_none_right_eq_some.1 hlooks
      obtain rfl : hearings = [] := hcalm
      obtain ⟨hevents, hleft⟩ := receive_decides h (o := .poll name' now' meanwhile [])
        (·.collect false meanwhile) rfl (if_pos rfl)
      exact ⟨hevents, hleft, rfl⟩
    | flush name' now' meanwhile hearings =>
      obtain ⟨rfl, -⟩ := Option.ite_none_right_eq_some.1 hlooks
      obtain rfl : hearings = [] := hcalm
      obtain ⟨hevents, hleft⟩ := receive_decides h (o := .flush name' now' meanwhile [])
        (·.collect true meanwhile) rfl (if_pos rfl)
      exact ⟨hevents, hleft, rfl⟩
    | next name' now' =>
      obtain ⟨rfl, -⟩ := Option.ite_none_right_eq_some.1 hlooks
      obtain ⟨hevents, hleft⟩ := next_decides d name' now'
      exact ⟨hevents, hleft, rfl⟩
    | _ => cases hlooks

/-- On a channel that is reassembled in process, the decoders get to see the frames that the chunk
completes; there is nothing else to be collected. -/
theorem frames_shown_inProcess {o : Occurrence} (hlooks : (o.looksAt name).isSome)
    {channel : Channel} {r : Reassembler} (hchannel : d.channel? name = some channel)
    (hreceiver : channel.receiver = .inProcess r) :
    (d.shown o).map (·.frame) = channel.profile.rx.accepted (o.completes r) := by
  obtain ⟨now, hnow⟩ := Option.isSome_iff_exists.1 hlooks
  have htaken (take : Receiver → List Frame × Receiver) (hearings : List Hearing) :
      (d.shownBy name take hearings).map (·.frame) =
        channel.profile.rx.accepted (take (.inProcess r)).1 := by
    rw [shownBy, hchannel, ← hreceiver]
    exact map_frame_shownOf name _ _ _
  cases o with
  | feed name' bytes now' meanwhile hearings =>
    obtain ⟨rfl, -⟩ := Option.ite_none_right_eq_some.1 hnow
    exact htaken (·.feedAmid bytes now' meanwhile) hearings
  | poll name' now' meanwhile hearings =>
    obtain ⟨rfl, -⟩ := Option.ite_none_right_eq_some.1 hnow
    exact htaken (·.collect false meanwhile) hearings
  | flush name' now' meanwhile hearings =>
    obtain ⟨rfl, -⟩ := Option.ite_none_right_eq_some.1 hnow
    exact htaken (·.collect true meanwhile) hearings
  | next name' now' => rfl
  | _ => cases hnow

/-! ## Runs

A call waits as long as nothing that has happened after it has decided about it.  That is a
condition on the whole run since the call, but it is extended by one occurrence at a time
(`waiting_concat`), and so the expectations of a channel can be compared with the calls that wait,
by induction from the end of the run.  Both keep the order of the calls. -/

/-- Nothing that happens decides about the expectation on the channel. -/
def leavesOpen (d : Dispatcher) (name : String) : List Occurrence → Expectation → Bool
  | [], _ => true
  | o :: rest, e => d.decision name o e = none && (d.perform o).dispatcher.leavesOpen name rest e

/-- Nothing that happens after the call decides about its command. -/
def stillWaits (d : Dispatcher) (name : String) (occurrences : List Occurrence) (s : Sending) :
    Bool :=
  (d.run (occurrences.take (s.place + 1))).2.leavesOpen name (occurrences.drop (s.place + 1))
    s.expectation

/-- The calls that sent a command on the channel about which nothing has been decided since. -/
def waiting (d : Dispatcher) (name : String) (occurrences : List Occurrence) : List Sending :=
  (d.sendings name 0 occurrences).filter (d.stillWaits name occurrences)

theorem leavesOpen_append (d : Dispatcher) (name : String) (earlier later : List Occurrence)
    (e : Expectation) :
    d.leavesOpen name (earlier ++ later) e =
      (d.leavesOpen name earlier e && (d.run earlier).2.leavesOpen name later e) := by
  induction earlier generalizing d with
  | nil => rfl
  | cons o rest ih => rw [List.cons_append, leavesOpen, leavesOpen, ih, Bool.and_assoc, run_cons]

theorem sendings_append (d : Dispatcher) (name : String) (place : Nat)
    (earlier later : List Occurrence) :
    d.sendings name place (earlier ++ later) =
      d.sendings name place earlier ++
        (d.run earlier).2.sendings name (place + earlier.length) later := by
  induction earlier generalizing d place with
  | nil => rfl
  | cons o rest ih =>
    rw [List.cons_append, sendings, sendings, ih, List.append_assoc, run_cons, List.length_cons,
      Nat.add_right_comm, Nat.add_assoc]

/-- Calls are found at their places. -/
theorem place_of_mem_sendings {place : Nat} {occurrences : List Occurrence} {s : Sending}
    (hs : s ∈ d.sendings name place occurrences) :
    place ≤ s.place ∧ s.place < place + occurrences.length := by
  induction occurrences generalizing d place with
  | nil => cases hs
  | cons o rest ih =>
    rw [List.length_cons]
    rcases List.mem_append.1 hs with hs | hs
    · obtain ⟨e, -, rfl⟩ := List.mem_map.1 hs
      exact ⟨Nat.le_refl _, by show place < _; omega⟩
    · obtain ⟨hafter, hbefore⟩ := ih hs
      omega

/-- No two calls have the same place. -/
theorem pairwise_sendings (d : Dispatcher) (name : String) (place : Nat)
    (occurrences : List Occurrence) :
    (d.sendings name place occurrences).Pairwise fun s t => s.place < t.place := by
  induction occurrences generalizing d place with
  | nil => exact .nil
  | cons o rest ih =>
    refine List.pairwise_append.2 ⟨?_, ih _ _, fun s hs t ht => ?_⟩
    · cases d.sent? name o with
      | none => exact .nil
      | some e => exact List.pairwise_singleton _ _
    · obtain ⟨e, -, rfl⟩ := List.mem_map.1 hs
      exact (place_of_mem_sendings ht).1

theorem stillWaits_concat (d : Dispatcher) (name : String) (earlier : List Occurrence)
    (o : Occurrence) {s : Sending} (hplace : s.place < earlier.length) :
    d.stillWaits name (earlier ++ [o]) s =
      (d.stillWaits name earlier s && (d.run earlier).2.decision name o s.expectation = none) := by
  have hrun := d.run_append (earlier.take (s.place + 1)) (earlier.drop (s.place + 1))
  rw [List.take_append_drop] at hrun
  rw [stillWaits, List.take_append_of_le_length hplace, List.drop_append_of_le_length hplace,
    leavesOpen_append, ← stillWaits, hrun, leavesOpen, leavesOpen, Bool.and_true]

theorem stillWaits_new (d : Dispatcher) (name : String) (earlier : List Occurrence)
    (o : Occurrence) (e : Expectation) :
    d.stillWaits name (earlier ++ [o]) ⟨earlier.length, e⟩ = true := by
  have hlength : (earlier ++ [o]).length = earlier.length + 1 := List.length_append
  rw [stillWaits, List.drop_of_length_le (Nat.le_of_eq hlength)]
  rfl

/-- One thing more happens: some calls wait no longer, and there may be a new one. -/
theorem waiting_concat (d : Dispatcher) (name : String) (earlier : List Occurrence)
    (o : Occurrence) :
    d.waiting name (earlier ++ [o]) =
      ((d.waiting name earlier).filter fun s =>
          (d.run earlier).2.decision name o s.expectation = none) ++
        ((d.run earlier).2.sent? name o).toList.map (Sending.mk earlier.length) := by
  have hold : (d.sendings name 0 earlier).filter (d.stillWaits name (earlier ++ [o])) =
      (d.sendings name 0 earlier).filter fun s =>
        (d.run earlier).2.decision name o s.expectation = none && d.stillWaits name earlier s := by
    refine List.filter_congr fun s hs => ?_
    have hplace := (place_of_mem_sendings hs).2
    rw [Nat.zero_add] at hplace
    rw [d.stillWaits_concat name earlier o hplace, Bool.and_comm]
  have hnew (s : Sending)
      (hs : s ∈ ((d.run earlier).2.sent? name o).toList.map (Sending.mk earlier.length)) :
      d.stillWaits name (earlier ++ [o]) s = true := by
    obtain ⟨e, -, rfl⟩ := List.mem_map.1 hs
    exact d.stillWaits_new name earlier o e
  rw [waiting, sendings_append, Nat.zero_add, sendings, sendings, List.append_nil,
    List.filter_append, hold, List.filter_eq_self.2 hnew, waiting, List.filter_filter]

/-- What is awaited after a run is what no call has ceased to wait for. -/
theorem expectationsOn_run (h : d.NoneOrphaned) (hnobody : d.expectationsOn name = [])
    (occurrences : List Occurrence) (hcalm : ∀ o ∈ occurrences, o.IsCalm) :
    (d.run occurrences).2.expectationsOn name =
      (d.waiting name occurrences).map (·.expectation) := by
  induction occurrences using List.reverseRecOn with
  | nil => exact hnobody
  | append_singleton earlier o ih =>
    rw [List.forall_mem_append, List.forall_mem_singleton] at hcalm
    have hnone := (Settled.run (x := ⟨"", "", ""⟩) h earlier).2
    obtain ⟨hleft, -⟩ := perform_decides hnone hcalm.2 name
    rw [run_append, run_cons, waiting_concat, List.map_append, List.map_map]
    show ((d.run earlier).2.perform o).dispatcher.expectationsOn name = _
    rw [hleft, ih hcalm.1, List.filter_map]
    congr 1
    exact (List.map_id _).symm

/-- **The first thing that can decide about an acknowledgement decides about it.**  Whatever happens
to a new dispatcher whose decoders do not change their minds: on each channel, those calls wait
about whose commands nothing has been decided since.  When these are looked at, because bytes come
or are collected or the transport asks for a command, then all that is told is, first, which of them
have waited too long by now; then of each frame that the decoders get to see what they read in it,
and which of the others it is the first to acknowledge.  Nothing else tells a verdict on the
channel.  If it is reassembled in process, the frames are those that a chunk completes, as far as
they are within bounds. -/
theorem run_decides (occurrences : List Occurrence) (hcalm : ∀ o ∈ occurrences, o.IsCalm)
    (name : String) :
    (({} : Dispatcher).run occurrences).2.expectationsOn name =
        (({} : Dispatcher).waiting name occurrences).map (·.expectation) ∧
      (({} : Dispatcher).waiting name occurrences).Pairwise (fun s t => s.place < t.place) ∧
      ∀ earlier o later, occurrences = earlier ++ o :: later →
        let d := (({} : Dispatcher).run earlier).2
        let waiting := (({} : Dispatcher).waiting name earlier).map (·.expectation)
        if (o.looksAt name).isSome then
          (d.perform o).events = d.told name o waiting ∧
            ∀ channel r, d.channel? name = some channel → channel.receiver = .inProcess r →
              (d.shown o).map (·.frame) = channel.profile.rx.accepted (o.completes r)
        else ∀ event ∈ (d.perform o).events, event.isVerdictOn name = false := by
  have hnew : ({} : Dispatcher).NoneOrphaned := fun name channel hchannel => by cases hchannel
  refine ⟨expectationsOn_run hnew rfl occurrences hcalm,
    (pairwise_sendings _ _ _ _).filter _, fun earlier o later hsplit => ?_⟩
  subst hsplit
  rw [List.forall_mem_append, List.forall_mem_cons] at hcalm
  obtain ⟨hearlier, ho, -⟩ := hcalm
  have hnone := (Settled.run (x := ⟨"", "", ""⟩) hnew earlier).2
  have hdecides := (perform_decides hnone ho name).2
  rw [expectationsOn_run hnew rfl earlier hearlier] at hdecides
  intro d waiting
  split
  · rename_i hlooks
    rw [if_pos hlooks] at hdecides
    exact ⟨hdecides, fun channel r => frames_shown_inProcess hlooks⟩
  · rename_i hlooks
    rwa [if_neg hlooks] at hdecides

/-! ### The last moment -/

/-- The same command is sent twice, one nanosecond apart. -/
def twoCommands : List Occurrence :=
  [.register lampDecoder,
    .addChannelConfig "hall" { rxHeader := [0xF2], rxLength := some 3 } none,
    .send "hall" "lamp" "on" none .low (-1) .calm,
    .send "hall" "lamp" "on" none .low 0 .calm]

/-- When a frame comes five seconds later, the first command has waited too long, and the second one
has not: it is the one that the frame acknowledges. -/
theorem run_decides_of_last_moment :
    let o : Occurrence := .feed "hall" [0xF2, 0, 0] 5_000_000_000 {} []
    let d := (({} : Dispatcher).run twoCommands).2
    (∀ o' ∈ twoCommands ++ [o], o'.IsCalm) ∧
      ({} : Dispatcher).waiting "hall" twoCommands =
        [⟨2, ⟨"lamp", "on", -1⟩⟩, ⟨3, ⟨"lamp", "on", 0⟩⟩] ∧
      (d.perform o).events =
        [.commandTimedOut "hall" "lamp" "on", .unmatchedFrame "hall" (.ofBytes [0xF2, 0, 0] 1),
          .commandAcked "hall" "lamp" "on"] ∧
      (d.perform o).dispatcher.expectationsOn "hall" = [] := by
  intro o d
  have hcalm : ∀ o' ∈ twoCommands ++ [o], o'.IsCalm := by
    simp [twoCommands, o, Occurrence.IsCalm]
  obtain ⟨hleft, -, hplaces⟩ := run_decides (twoCommands ++ [o]) hcalm "hall"
  obtain ⟨htold, -⟩ := hplaces twoCommands o [] rfl
  have hwaiting : ({} : Dispatcher).waiting "hall" twoCommands =
      [⟨2, ⟨"lamp", "on", -1⟩⟩, ⟨3, ⟨"lamp", "on", 0⟩⟩] := rfl
  refine ⟨hcalm, hwaiting, ?_, ?_⟩
  · rw [htold, hwaiting]
    rfl
  · exact hleft

/-- It need not be bytes or the transport that end a wait: on a channel that is reassembled in
process there is nothing to be collected, and yet the command is found to have waited too long. -/
theorem not_only_fed_or_asked :
    let earlier : List Occurrence :=
      [.register lampDecoder,
        .addChannelConfig "hall" { rxHeader := [0xF2], rxLength := some 3 } none,
        .send "hall" "lamp" "on" none .low (-6_000_000_000) .calm]
    let d := (({} : Dispatcher).run earlier).2
    d.expectationsOn "hall" = [⟨"lamp", "on", -6_000_000_000⟩] ∧
      (d.perform (.poll "hall" 0 {} [])).events = [.commandTimedOut "hall" "lamp" "on"] ∧
      ¬∀ (occurrences : List Occurrence) (o : Occurrence) (name : String) (channel : Channel)
          (r : Reassembler),
        (∀ o' ∈ occurrences ++ [o], o'.IsCalm) →
          (({} : Dispatcher).run occurrences).2.channel? name = some channel →
            channel.receiver = .inProcess r → o.feedsOrAsks name = false →
              (({} : Dispatcher).run occurrences).2.expectationsOn name ⊆
                (({} : Dispatcher).run (occurrences ++ [o])).2.expectationsOn name := by
  intro earlier d
  refine ⟨rfl, rfl, fun h => ?_⟩
  have hcalm : ∀ o' ∈ earlier ++ [.poll "hall" 0 {} []], o'.IsCalm := by
    simp [earlier, Occurrence.IsCalm]
  have hstays := h earlier (.poll "hall" 0 {} []) "hall" _ _ hcalm rfl rfl rfl
  have hopen : (⟨"lamp", "on", -6_000_000_000⟩ : Expectation) ∈ d.expectationsOn "hall" :=
    List.mem_singleton_self _
  exact List.not_mem_nil (hstays hopen)

end Dispatcher
end Fieldbus
