import Fieldbus.Proofs.Dispatch.Decisions

/-!
# Every frame is accounted for

A decoder may make one of four things of a frame, after one call or two, each of which may fail:
`Reading` lists them.  What is told of a frame follows from the readings of all decoders, one by
one and in the order of registration (`accountOf`), and nothing but acknowledgements of commands is
told besides.

* `Decoder.reading` — what a decoder makes of a frame, call by call.
* `events_consult`, `recognized_consult` — what asking them all comes to.
* `heard` — the frames, each with the way in which it is heard.
* `dispatchFramesAmid_heeded` — frames whose length is out of bounds make no difference.
* `every_frame_accounted` — the main theorem, about all frames that are taken from a receiving end.
-/

set_option autoImplicit false

namespace Fieldbus

/-! ## Readings

A decoder is called once to say whether the frame belongs to its entity, and once more to read it if
it does.  Either call may fail, and both failures are told in the same way, so a reading only keeps
what comes of the two. -/

/-- What a decoder makes of a frame. -/
inductive Reading where
  /-- The frame does not belong to the entity. -/
  | foreign
  /-- One of the calls reported an error, or panicked. -/
  | failed (message : String)
  /-- The frame belongs to the entity, and reports nothing. -/
  | silent
  | reported (fields : Fields)

namespace Reading

/-- Was the frame recognised, and read without a failure? -/
def recognizes : Reading → Bool
  | foreign | failed _ => false
  | silent | reported _ => true

/-- What is told of it. -/
def event? (channel : String) (x : Decoder) : Reading → Option Event
  | foreign | silent => none
  | failed message => some (.entityError channel x.id message)
  | reported fields => some (.stateUpdate channel (x.stateProxy.getD x.id) fields)

end Reading

/-- What the decoder makes of a frame, call by call. -/
def Decoder.reading (x : Decoder) (frame : Frame) : Reading :=
  match x.matchesFrame frame with
  | .panicked text => .failed (Call.panicMessage text)
  | .returned (.error message) => .failed message
  | .returned (.ok false) => .foreign
  | .returned (.ok true) =>
    match x.parse frame with
    | .panicked text => .failed (Call.panicMessage text)
    | .returned (.error message) => .failed message
    | .returned (.ok none) => .silent
    | .returned (.ok (some fields)) => .reported fields

theorem Decoder.read_eq (x : Decoder) (frame : Frame) :
    x.read frame =
      match x.reading frame with
      | .foreign => .ok none
      | .failed message => .error message
      | .silent => .ok (some none)
      | .reported fields => .ok (some (some fields)) := by
  rcases hmatches : x.matchesFrame frame with (message | _ | _) | text
  case returned.ok.true =>
    rcases hparse : x.parse frame with (message | _ | fields) | text <;>
      simp [read, reading, hmatches, hparse, Call.guarded, Except.map]
  all_goals simp [read, reading, hmatches, Call.guarded]

/-! ## What is told of a frame -/

section

variable (channel : String)

/-- What the decoders tell of a frame, one after another, and if none of them recognised it, then
that as well. -/
def accountOf (decoders : List Decoder) (frame : Frame) : List Event :=
  decoders.filterMap (fun x => (x.reading frame).event? channel x) ++
    if decoders.any fun x => (x.reading frame).recognizes then []
    else [.unmatchedFrame channel frame]

/-- One more decoder is asked. -/
theorem Consultation.ask_reading (frame : Frame) (c : Consultation) (x : Decoder) :
    (c.ask channel frame x).events =
        c.events ++ ((x.reading frame).event? channel x).toList ∧
      (c.ask channel frame x).recognized =
        (c.recognized || (x.reading frame).recognizes) := by
  rw [ask, x.read_eq]
  cases x.reading frame <;> simp [Reading.event?, Reading.recognizes, Decoder.target]

theorem Consultation.foldl_ask (frame : Frame) (c : Consultation) (decoders : List Decoder) :
    (decoders.foldl (ask channel frame) c).events =
        c.events ++ decoders.filterMap (fun x => (x.reading frame).event? channel x) ∧
      (decoders.foldl (ask channel frame) c).recognized =
        (c.recognized || decoders.any fun x => (x.reading frame).recognizes) := by
  induction decoders generalizing c with
  | nil => simp
  | cons x rest ih =>
    obtain ⟨hevents, hrecognized⟩ := ih (c.ask channel frame x)
    obtain ⟨hevent, hrecognizes⟩ := c.ask_reading channel frame x
    rw [List.foldl_cons, hevents, hrecognized, hevent, hrecognizes]
    refine ⟨?_, ?_⟩
    · rw [List.append_assoc, List.filterMap_cons]
      cases (x.reading frame).event? channel x <;> rfl
    · rw [List.any_cons, Bool.or_assoc]

/-- **What asking all decoders comes to**, and that it is told if none of them recognised the
frame. -/
theorem events_consult (decoders : List Decoder) (states : KeyMap Fields) (frame : Frame) :
    (consult channel decoders states frame).events ++
        (if (consult channel decoders states frame).recognized then []
          else [.unmatchedFrame channel frame]) =
      accountOf channel decoders frame := by
  obtain ⟨hevents, hrecognized⟩ := Consultation.foldl_ask channel frame { states } decoders
  rw [consult, hevents, hrecognized, List.nil_append, Bool.false_or, accountOf]

end

/-! ## Frames as they are heard -/

/-- The frames, each with the way in which it is heard. -/
def heard : List Hearing → List Frame → List (Hearing × Frame)
  | _, [] => []
  | hearings, frame :: rest => (hearings.headD {}, frame) :: heard hearings.tail rest

/-- Those of them whose length is within the bounds of the channel. -/
def RxFraming.heeded (rx : RxFraming) (shown : List (Hearing × Frame)) : List (Hearing × Frame) :=
  shown.filter fun x => rx.acceptsLength x.2.bytes.length

theorem RxFraming.heeded_cons (rx : RxFraming) (hearing : Hearing) (frame : Frame)
    (rest : List (Hearing × Frame)) :
    rx.heeded ((hearing, frame) :: rest) =
      if rx.acceptsLength frame.bytes.length then (hearing, frame) :: rx.heeded rest
      else rx.heeded rest := List.filter_cons

/-- The events that a frame causes: none if its length is out of bounds, else what the decoders make
of it, and then the acknowledgements of commands. -/
inductive RxFraming.Causes (rx : RxFraming) (name : String) (decoders : List Decoder) :
    Hearing × Frame → List Event → Prop
  | dropped {hearing : Hearing} {frame : Frame}
      (hbounds : rx.acceptsLength frame.bytes.length = false) :
      Causes rx name decoders (hearing, frame) []
  | shown {hearing : Hearing} {frame : Frame} {acked : List Event}
      (hbounds : rx.acceptsLength frame.bytes.length = true)
      (hacked : ∀ event ∈ acked, ∃ entity command, event = .commandAcked name entity command) :
      Causes rx name decoders (hearing, frame)
        (accountOf name (hearing.reading.sway decoders) frame ++ acked)

namespace Dispatcher

variable (name : String) (decoders : List Decoder)

/-- A frame whose length is out of bounds does nothing. -/
theorem dispatchFrameAmid_of_dropped (hearing : Hearing) (states : KeyMap Fields)
    {channel : Channel} {frame : Frame}
    (hbounds : channel.profile.rx.acceptsLength frame.bytes.length = false) :
    dispatchFrameAmid name decoders hearing states channel frame = ([], states, channel) := by
  rw [dispatchFrameAmid, hbounds]
  rfl

theorem causes_dispatchFrameAmid (hearing : Hearing) (states : KeyMap Fields) (channel : Channel)
    (frame : Frame) :
    channel.profile.rx.Causes name decoders (hearing, frame)
      (dispatchFrameAmid name decoders hearing states channel frame).1 := by
  cases hbounds : channel.profile.rx.acceptsLength frame.bytes.length with
  | false =>
    rw [dispatchFrameAmid_of_dropped name decoders hearing states hbounds]
    exact .dropped hbounds
  | true =>
    have hevents : (dispatchFrameAmid name decoders hearing states channel frame).1 =
        accountOf name (hearing.reading.sway decoders) frame ++
          (settleAcksAmid name decoders frame hearing.settling channel.expectations).1 := by
      rw [← events_consult name _ states, dispatchFrameAmid, hbounds]
      rfl
    rw [hevents]
    refine .shown hbounds fun event hevent => ?_
    obtain ⟨e, -, rfl⟩ := eq_commandAcked_of_mem hevent
    exact ⟨e.entity, e.command, rfl⟩

/-- **Frames whose length is out of bounds make no difference.** -/
theorem dispatchFramesAmid_heeded (hearings : List Hearing) (frames : List Frame)
    (states : KeyMap Fields) (channel : Channel) :
    dispatchFramesAmid name decoders hearings frames states channel =
      dispatchFramesAmid name decoders
        ((channel.profile.rx.heeded (heard hearings frames)).map Prod.fst)
        (channel.profile.rx.accepted frames) states channel := by
  induction frames generalizing hearings states channel with
  | nil => rfl
  | cons frame rest ih =>
    -- the bounds are those of the channel, whatever becomes of it otherwise
    have hprofile :=
      profile_dispatchFrameAmid name decoders (hearings.headD {}) states channel frame
    have hrest := ih hearings.tail
      (dispatchFrameAmid name decoders (hearings.headD {}) states channel frame).2.1
      (dispatchFrameAmid name decoders (hearings.headD {}) states channel frame).2.2
    rw [hprofile] at hrest
    simp only [dispatchFramesAmid_cons, heard, RxFraming.heeded_cons, RxFraming.accepted_cons]
    cases hbounds : channel.profile.rx.acceptsLength frame.bytes.length with
    | false =>
      rw [dispatchFrameAmid_of_dropped name decoders _ states hbounds] at hrest ⊢
      exact hrest
    | true =>
      rw [hrest]
      rfl

/-- **What each frame causes, one after another.** -/
theorem causes_dispatchFramesAmid (hearings : List Hearing) (frames : List Frame)
    (states : KeyMap Fields) (channel : Channel) :
    ∃ blocks : List (List Event),
      (dispatchFramesAmid name decoders hearings frames states channel).1 = blocks.flatten ∧
        List.Forall₂ (channel.profile.rx.Causes name decoders) (heard hearings frames) blocks := by
  induction frames generalizing hearings states channel with
  | nil => exact ⟨[], rfl, .nil⟩
  | cons frame rest ih =>
    have hfirst := causes_dispatchFrameAmid name decoders (hearings.headD {}) states channel frame
    have hprofile :=
      profile_dispatchFrameAmid name decoders (hearings.headD {}) states channel frame
    obtain ⟨blocks, hevents, hblocks⟩ := ih hearings.tail
      (dispatchFrameAmid name decoders (hearings.headD {}) states channel frame).2.1
      (dispatchFrameAmid name decoders (hearings.headD {}) states channel frame).2.2
    rw [hprofile] at hblocks
    refine ⟨_ :: blocks, ?_, .cons hfirst hblocks⟩
    simp only [dispatchFramesAmid_cons, List.flatten_cons, hevents]

end Dispatcher

/-! ## Taking frames -/

/-- The occurrences in which frames are taken from the receiving end of a channel, and how. -/
inductive Occurrence.Takes (name : String) (now : Time) (hearings : List Hearing) :
    Occurrence → (Receiver → List Frame × Receiver) → Prop
  | feed (bytes : Bytes) (meanwhile : Meanwhile) :
      Takes name now hearings (.feed name bytes now meanwhile hearings)
        fun receiver => receiver.feedAmid bytes now meanwhile
  | poll (meanwhile : Meanwhile) :
      Takes name now hearings (.poll name now meanwhile hearings)
        fun receiver => receiver.collect false meanwhile
  | flush (meanwhile : Meanwhile) :
      Takes name now hearings (.flush name now meanwhile hearings)
        fun receiver => receiver.collect true meanwhile

namespace Dispatcher

/-- The frames that are taken are dispatched. -/
theorem perform_of_takes (d : Dispatcher) {name : String} {channel : Channel}
    (hchannel : d.channel? name = some channel) {o : Occurrence} {now : Time}
    {hearings : List Hearing} {take : Receiver → List Frame × Receiver}
    (htakes : o.Takes name now hearings take) :
    d.perform o =
      (d.dispatchAmid name { channel with receiver := (take channel.receiver).2 }
        (take channel.receiver).1 now hearings).map fun _ => .done := by
  cases htakes <;> simp only [perform, receive, hchannel]

/-- **Every frame is accounted for.**  Bytes are fed to a channel, or its worker is asked for
frames.  What becomes of the dispatcher, and what is told, is what it would be without the frames
whose length is out of bounds.  Told is which commands have waited too long, and then what each
frame causes, in order: a frame out of bounds causes nothing; of any other frame each decoder tells,
in the order of registration, the fields that it reports or that it failed, it is told that nobody
recognised the frame if and only if no decoder did without failing, and then which commands it
acknowledges. -/
theorem every_frame_accounted (d : Dispatcher) {name : String} {channel : Channel}
    (hchannel : d.channel? name = some channel) {o : Occurrence} {now : Time}
    {hearings : List Hearing} {take : Receiver → List Frame × Receiver}
    (htakes : o.Takes name now hearings take) :
    let rx := channel.profile.rx
    let frames := (take channel.receiver).1
    let emitted := heard hearings frames
    d.perform o =
        (d.dispatchAmid name { channel with receiver := (take channel.receiver).2 }
          (rx.accepted frames) now ((rx.heeded emitted).map Prod.fst)).map (fun _ => .done) ∧
      ∃ blocks : List (List Event),
        (d.perform o).events =
            (channel.expectations.filter fun e => e.isOverdue d.ackTimeout now).map
                (fun e => .commandTimedOut name e.entity e.command) ++ blocks.flatten ∧
          List.Forall₂ (rx.Causes name d.decoders) emitted blocks := by
  intro rx frames emitted
  rw [d.perform_of_takes hchannel htakes]
  refine ⟨?_, ?_⟩
  · simp only [dispatchAmid_eq]
    rw [dispatchFramesAmid_heeded]
  · obtain ⟨blocks, hevents, hblocks⟩ := causes_dispatchFramesAmid name d.decoders hearings
      (take channel.receiver).1 d.states
      { channel with
        receiver := (take channel.receiver).2
        expectations := (expireAcks name d.ackTimeout now channel.expectations).2 }
    refine ⟨blocks, ?_, hblocks⟩
    rw [← hevents, dispatchAmid_eq]
    simp only [Response.map, expireAcks_eq]

/-! ### Four decoders -/

/-- The frames that belong to the entity are those with this byte behind a header of one byte, and
reading them ends in the same way every time. -/
def singleMindedDecoder (id : String) (proxy : Option String) (own : UInt8)
    (outcome : Call (Except String (Option Fields))) : Decoder where
  id
  stateProxy := proxy
  matchesFrame frame := .returned (.ok (frame.bytes[1]? == some own))
  parse _ := outcome
  buildCommand _ _ _ := .returned none
  expectsAck _ := .returned false
  matchesAck _ _ := .returned false

/-- A meter that reports for the house, a button that has nothing to report, a valve that cannot be
read, and a ghost. -/
def crowdedHouse : List Occurrence :=
  [.register (singleMindedDecoder "meter" (some "house") 1
      (.returned (.ok (some [("level", .number (.integer 7))])))),
    .register (singleMindedDecoder "button" none 2 (.returned (.ok none))),
    .register (singleMindedDecoder "valve" none 3 (.returned (.error "stuck"))),
    .register ghostDecoder,
    .addChannelConfig "house"
      { rxHeader := [0xF7], rxFooter := [0x0D], rxMaxLength := some 3 } none]

/-- Of four frames the second one is too long.  The ghost fails on the three others, but only the
last of them is nobody's: the first reports the level of the house, and the third is the
button's. -/
theorem every_frame_accounted_in_crowded_house :
    let d := (({} : Dispatcher).run crowdedHouse).2
    let o : Occurrence := .feed "house"
      [0xF7, 1, 0x0D, 0xF7, 1, 1, 0x0D, 0xF7, 2, 0x0D, 0xF7, 3, 0x0D] 0 {} []
    ∃ channel, d.channel? "house" = some channel ∧
      (∃ take, o.Takes "house" 0 [] take ∧
        ((take channel.receiver).1.map Frame.bytes =
            [[0xF7, 1, 0x0D], [0xF7, 1, 1, 0x0D], [0xF7, 2, 0x0D], [0xF7, 3, 0x0D]] ∧
          d.perform o =
            (d.dispatchAmid "house" { channel with receiver := (take channel.receiver).2 }
              [.ofBytes [0xF7, 1, 0x0D] 1, .ofBytes [0xF7, 2, 0x0D] 1, .ofBytes [0xF7, 3, 0x0D] 1]
              0 [{}, {}, {}]).map fun _ => .done)) ∧
      (d.perform o).events =
        [.stateUpdate "house" "house" [("level", .number (.integer 7))],
          .entityError "house" "ghost" (Call.panicMessage none),
          .entityError "house" "ghost" (Call.panicMessage none),
          .entityError "house" "valve" "stuck",
          .entityError "house" "ghost" (Call.panicMessage none),
          .unmatchedFrame "house" (.ofBytes [0xF7, 3, 0x0D] 1)] := by
  intro d o
  have hchannel : d.channel? "house" = some _ := rfl
  have htakes : o.Takes "house" 0 [] _ := .feed _ _
  obtain ⟨hsame, -⟩ := every_frame_accounted d hchannel htakes
  exact ⟨_, hchannel, ⟨_, htakes, rfl, hsame⟩, rfl⟩

end Dispatcher
end Fieldbus
