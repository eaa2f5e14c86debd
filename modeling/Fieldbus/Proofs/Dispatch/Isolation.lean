import Fieldbus.Proofs.Dispatch.Expectations

/-!
# A decoder that fails harms nobody else

Decoders are supplied from outside, and one of them may be of no use: whatever frame it is shown, it
does not recognise it, or it reports an error, or it panics.  Such a decoder may be registered among
the others at any place.  To see what difference it makes, `run_isolated` compares two dispatchers
to which the same things happen, one of which has this decoder and the other has not.  The frames
that come up, the state of the entities, the queues, the open acknowledgements and all answers are
the same; the one dispatcher only tells of the failures besides, each of them once.

## What is here

* `Mood.without`, `Occurrence.without` — the same mood, and the same occurrence, when the decoder at
  a place is not there.  Those behind it stand one place further to the front.
* `Dispatcher.joined` — one decoder more.
* `SameButFor` — two lists of events that differ in complaints about one entity.
* `Dispatcher.shown`, `Dispatcher.shownIn` — the frames that the decoders get to see.
* `consult_joined`, `dispatchFramesAmid_joined`, `Dispatcher.perform_joined` — the decoder makes no
  other difference to a frame, to the frames of a channel, and to anything that can happen.
* `Dispatcher.run_isolated` — and so to a whole run.

## How it is proved

The two dispatchers run side by side, and each operation is gone through twice, with the decoder
(`joined`) and without.  What has to be shown of the others is that nothing they do depends on how
many decoders there are or where they stand.  Two things could stand in the way.  Moods are told by
the place of a decoder, and places move up when one is missing; `Occurrence.without` moves the moods
along.  And a decoder judges the commands that were sent to its entity.  That is why no command may
be sent to this one, and why expectations of entities that are not registered must be excluded
(`NoneOrphaned`): one of those would find a judge in the decoder that joins.
-/

set_option autoImplicit false

namespace Fieldbus

/-! ## One decoder less

A mood says of each place how the decoder there answers.  Without the decoder at some place all
those behind it answer one place further to the front, so the mood has to be told differently for
them to answer alike (`Mood.exists_sway`). -/

namespace Mood

/-- How the decoders answer when the one at the place is not there. -/
def without (mood : Mood) (place : Nat) : Mood where
  answer i decoder := mood.answer (if i < place then i else i + 1) decoder
  id_answer _ decoder := mood.id_answer _ decoder

@[simp] theorem calm_without (place : Nat) : calm.without place = calm := rfl

/-- Whether one decoder more is there or not, the others are in the same mood. -/
theorem exists_sway (mood : Mood) (x : Decoder) (front back : List Decoder) :
    ∃ front' back', front'.length = front.length ∧
      mood.sway (front ++ x :: back) = front' ++ mood.answer front.length x :: back' ∧
      (mood.without front.length).sway (front ++ back) = front' ++ back' := by
  refine ⟨front.mapIdx mood.answer,
    back.mapIdx fun i decoder => mood.answer (i + 1 + front.length) decoder,
    List.length_mapIdx, ?_, ?_⟩
  · rw [sway, List.mapIdx_append, List.mapIdx_cons]
    simp
  · rw [sway, List.mapIdx_append]
    congr 1
    · refine List.mapIdx_eq_mapIdx_iff.2 fun i hi => ?_
      simp [without, hi]
    · refine List.mapIdx_eq_mapIdx_iff.2 fun i hi => ?_
      simp [without, Nat.not_lt.2 (Nat.le_add_left _ i), Nat.add_right_comm]

end Mood

/-- How the decoders answer when the one at the place is not there. -/
def Hearing.without (hearing : Hearing) (place : Nat) : Hearing where
  reading := hearing.reading.without place
  settling := hearing.settling.map (·.without place)

namespace Occurrence

/-- The same, when the decoder at the place is not there. -/
def without (place : Nat) : Occurrence → Occurrence
  | .feed name bytes now meanwhile hearings =>
    .feed name bytes now meanwhile (hearings.map (·.without place))
  | .poll name now meanwhile hearings =>
    .poll name now meanwhile (hearings.map (·.without place))
  | .flush name now meanwhile hearings =>
    .flush name now meanwhile (hearings.map (·.without place))
  | .send name entity command value priority now mood =>
    .send name entity command value priority now (mood.without place)
  | o => o

/-- No decoder is registered for the entity, and no command is sent to it. -/
def Spares (entity : String) : Occurrence → Prop
  | .register decoder => decoder.id ≠ entity
  | .send _ entity' _ _ _ _ _ => entity' ≠ entity
  | _ => True

theorem spares_without {entity : String} (place : Nat) {o : Occurrence} :
    (o.without place).Spares entity ↔ o.Spares entity := by
  cases o <;> exact Iff.rfl

end Occurrence

/-! ## Complaints

The two consultations about a frame go on together.  A decoder of another entity adds the same to
both, the one in question adds a complaint to the first at most, and states and flags are the same
throughout.  `SameButFor` is stable under appending, so it can be said of a frame first, then of all
frames, and in the end of a run. -/

/-- Does the event tell that the decoder of the entity failed? -/
def Event.isErrorOf (entity : String) : Event → Bool
  | .entityError _ entity' _ => entity' = entity
  | _ => false

namespace Decoder

/-- The decoder recognises the frame and reads it without failing. -/
def Reads (x : Decoder) (frame : Frame) : Prop := ∃ reported, x.read frame = .ok (some reported)

/-- What is told if the decoder fails on a frame of the channel. -/
def complaint (x : Decoder) (channel : String) (frame : Frame) : List Event :=
  match x.read frame with
  | .error message => [.entityError channel x.id message]
  | .ok _ => []

end Decoder

/-- The first events are the second ones with complaints about the entity in between. -/
structure SameButFor (entity : String) (complaints events events' : List Event) : Prop where
  others : events.filter (fun e => !e.isErrorOf entity) = events'
  own : events.filter (·.isErrorOf entity) = complaints

namespace SameButFor

variable {entity : String} {complaints complaints' events events' later later' : List Event}

theorem append (h : SameButFor entity complaints events events')
    (hlater : SameButFor entity complaints' later later') :
    SameButFor entity (complaints ++ complaints') (events ++ later) (events' ++ later') where
  others := by rw [List.filter_append, h.others, hlater.others]
  own := by rw [List.filter_append, h.own, hlater.own]

/-- Events that are not complaints about the entity are the same without them. -/
theorem refl (h : ∀ e ∈ events, e.isErrorOf entity = false) :
    SameButFor entity [] events events where
  others := List.filter_eq_self.2 fun e he => by simp [h e he]
  own := List.filter_eq_nil_iff.2 fun e he => by simp [h e he]

theorem nil : SameButFor entity [] [] [] := ⟨rfl, rfl⟩

/-- The same is told after both. -/
theorem append_same (h : SameButFor entity complaints events events')
    (hlater : ∀ e ∈ later, e.isErrorOf entity = false) :
    SameButFor entity complaints (events ++ later) (events' ++ later) := by
  simpa using h.append (refl hlater)

end SameButFor

/-- The first consultation is the second one with complaints about the entity in between. -/
structure Consultation.SameButFor (entity : String) (complaints : List Event)
    (c c' : Consultation) : Prop where
  events : Fieldbus.SameButFor entity complaints c.events c'.events
  states : c.states = c'.states
  recognized : c.recognized = c'.recognized
  updated : c.updated = c'.updated

namespace Consultation.SameButFor

variable {entity : String} {complaints : List Event} {c c' : Consultation}

/-- A decoder of another entity makes the same of the frame in both. -/
theorem ask (h : c.SameButFor entity complaints c') (channel : String) (frame : Frame)
    {decoder : Decoder} (hid : decoder.id ≠ entity) :
    (c.ask channel frame decoder).SameButFor entity complaints (c'.ask channel frame decoder) := by
  unfold Consultation.ask
  split
  · refine ⟨h.events.append_same fun e he => ?_, h.states, h.recognized, h.updated⟩
    simp [List.mem_singleton.1 he, Event.isErrorOf, hid]
  · exact h
  · exact ⟨h.events, h.states, rfl, h.updated⟩
  · refine ⟨h.events.append_same fun e he => ?_, ?_, rfl, rfl⟩
    · simp [List.mem_singleton.1 he, Event.isErrorOf]
    · simp [h.states]

theorem askAll (h : c.SameButFor entity complaints c') (channel : String) (frame : Frame)
    {decoders : List Decoder} (hothers : entity ∉ decoders.map Decoder.id) :
    (decoders.foldl (Consultation.ask channel frame) c).SameButFor entity complaints
      (decoders.foldl (Consultation.ask channel frame) c') := by
  induction decoders generalizing c c' with
  | nil => exact h
  | cons decoder rest ih =>
    rw [List.map_cons, List.mem_cons, not_or] at hothers
    exact ih (h.ask channel frame (Ne.symm hothers.1)) hothers.2

/-- A decoder that does not read the frame complains at most. -/
theorem askUseless {c : Consultation} (h : c.SameButFor entity [] c') (channel : String)
    {frame : Frame} {x : Decoder} (hid : x.id = entity) (huseless : ¬x.Reads frame) :
    (c.ask channel frame x).SameButFor entity (x.complaint channel frame) c' := by
  unfold Consultation.ask Decoder.complaint
  rcases hread : x.read frame with message | (- | reported)
  · refine ⟨?_, h.states, h.recognized, h.updated⟩
    have hone : Fieldbus.SameButFor entity [.entityError channel x.id message]
        [.entityError channel x.id message] [] := by
      constructor <;> simp [Event.isErrorOf, hid]
    simpa using h.events.append hone
  · exact h
  · exact absurd ⟨reported, hread⟩ huseless

end Consultation.SameButFor

/-- **A decoder that does not read the frame makes no difference to the others**, wherever it
stands. -/
theorem consult_joined (channel : String) (states : KeyMap Fields) {frame : Frame} {x : Decoder}
    {front back : List Decoder} (hothers : x.id ∉ (front ++ back).map Decoder.id)
    (huseless : ¬x.Reads frame) :
    (consult channel (front ++ x :: back) states frame).SameButFor x.id
      (x.complaint channel frame) (consult channel (front ++ back) states frame) := by
  rw [List.map_append, List.mem_append, not_or] at hothers
  rw [consult, consult, List.foldl_append, List.foldl_append, List.foldl_cons]
  have hstart : Consultation.SameButFor x.id [] { states } { states } := ⟨.nil, rfl, rfl, rfl⟩
  exact ((hstart.askAll channel frame hothers.1).askUseless channel rfl huseless).askAll channel
    frame hothers.2

/-! ## Acknowledgements -/

/-- A decoder of another entity does not judge an expectation. -/
theorem ackVerdict_joined {x : Decoder} {front back : List Decoder} (frame : Frame)
    {e : Expectation} (he : e.entity ≠ x.id) :
    ackVerdict (front ++ x :: back) frame e = ackVerdict (front ++ back) frame e := by
  simp [ackVerdict, List.find?_append, Ne.symm he]

theorem settleAcks_congr (channel : String) {decoders decoders' : List Decoder} (frame : Frame)
    {e : Expectation} (h : ackVerdict decoders frame e = ackVerdict decoders' frame e) :
    settleAcks channel decoders frame [e] = settleAcks channel decoders' frame [e] := by
  simp only [settleAcks, List.filterMap_cons, List.filter_cons, List.filterMap_nil,
    List.filter_nil, h]

theorem settleAcksAmid_joined (channel : String) {x : Decoder} {front back : List Decoder}
    (frame : Frame) (moods : List Mood) {expectations : List Expectation}
    (h : ∀ e ∈ expectations, e.entity ≠ x.id) :
    settleAcksAmid channel (front ++ x :: back) frame moods expectations =
      settleAcksAmid channel (front ++ back) frame (moods.map (·.without front.length))
        expectations := by
  induction expectations generalizing moods with
  | nil => rfl
  | cons e rest ih =>
    rw [List.forall_mem_cons] at h
    have hhead : (moods.map (·.without front.length)).headD .calm =
        (moods.headD .calm).without front.length := by
      cases moods <;> rfl
    obtain ⟨front', back', -, hjoined, halone⟩ := (moods.headD .calm).exists_sway x front back
    have hid : e.entity ≠ ((moods.headD .calm).answer front.length x).id := by
      rw [Mood.id_answer]
      exact h.1
    simp only [settleAcksAmid, ih moods.tail h.2, hhead, hjoined, halone, List.map_tail,
      settleAcks_congr channel frame (ackVerdict_joined frame hid)]

theorem not_isErrorOf_settleAcksAmid (entity channel : String) (decoders : List Decoder)
    (frame : Frame) (moods : List Mood) (expectations : List Expectation) :
    ∀ e ∈ (settleAcksAmid channel decoders frame moods expectations).1,
      e.isErrorOf entity = false := by
  intro event he
  obtain ⟨e, -, rfl⟩ := eq_commandAcked_of_mem he
  rfl

theorem not_isErrorOf_expireAcks (entity channel : String) (timeout : Nat) (now : Time)
    (expectations : List Expectation) :
    ∀ e ∈ (expireAcks channel timeout now expectations).1, e.isErrorOf entity = false := by
  intro event he
  obtain ⟨e, -, rfl⟩ := eq_commandTimedOut_of_mem he
  rfl

/-! ## Frames

Which frames are shown to the decoders has to be known here, since the hypothesis on the decoder is
about these frames and no others.  Those that are out of bounds are dropped first and do not count;
a decoder may well recognise one of them. -/

/-- A frame that the decoders of a channel get to see, and the mood in which they read it. -/
structure Showing where
  channel : String
  mood : Mood
  frame : Frame

namespace Showing

/-- The decoder registered at the place makes nothing of the frame. -/
def IsLostOn (s : Showing) (place : Nat) (x : Decoder) : Prop :=
  ¬(s.mood.answer place x).Reads s.frame

/-- What is told if the decoder registered at the place fails on the frame. -/
def complaint (s : Showing) (place : Nat) (x : Decoder) : List Event :=
  (s.mood.answer place x).complaint s.channel s.frame

end Showing

/-- Which frames of a channel are shown to the decoders: those whose length is within bounds. -/
def shownOf (channel : String) (rx : RxFraming) : List Hearing → List Frame → List Showing
  | _, [] => []
  | hearings, frame :: rest =>
    (if rx.acceptsLength frame.bytes.length then
      [{ channel, mood := (hearings.headD {}).reading, frame }]
    else []) ++ shownOf channel rx hearings.tail rest

namespace Dispatcher

theorem profile_dispatchFrameAmid (name : String) (decoders : List Decoder) (hearing : Hearing)
    (states : KeyMap Fields) (channel : Channel) (frame : Frame) :
    (dispatchFrameAmid name decoders hearing states channel frame).2.2.profile =
      channel.profile := by
  unfold dispatchFrameAmid
  split <;> rfl

/-- A frame resolves expectations, and adds none. -/
theorem expectations_dispatchFrameAmid (name : String) {decoders : List Decoder}
    (hearing : Hearing) (states : KeyMap Fields) {channel : Channel} (frame : Frame)
    (h : AllRegistered decoders channel.expectations) :
    AllRegistered decoders
      (dispatchFrameAmid name decoders hearing states channel frame).2.2.expectations :=
  h.subset (Errand.openOn_dispatchFrameAmid ⟨name, "", ""⟩ name hearing states frame h).2

variable {x : Decoder} {front back : List Decoder}

/-- Expectations of registered entities are not for the decoder that is not registered. -/
theorem ne_of_allRegistered {decoders : List Decoder} {expectations : List Expectation}
    (hothers : x.id ∉ decoders.map Decoder.id) (h : AllRegistered decoders expectations) :
    ∀ e ∈ expectations, e.entity ≠ x.id := by
  rintro e he hid
  exact hothers (hid ▸ h e he)

theorem dispatchFrameAmid_joined (name : String) (hearing : Hearing) (states : KeyMap Fields)
    {channel : Channel} {frame : Frame} (hothers : x.id ∉ (front ++ back).map Decoder.id)
    (hexpectations : ∀ e ∈ channel.expectations, e.entity ≠ x.id)
    (huseless : ∀ s ∈ shownOf name channel.profile.rx [hearing] [frame],
      s.IsLostOn front.length x) :
    let joined := dispatchFrameAmid name (front ++ x :: back) hearing states channel frame
    let alone :=
      dispatchFrameAmid name (front ++ back) (hearing.without front.length) states channel frame
    joined.2 = alone.2 ∧
      SameButFor x.id ((shownOf name channel.profile.rx [hearing] [frame]).flatMap
        (·.complaint front.length x)) joined.1 alone.1 := by
  unfold dispatchFrameAmid
  by_cases haccepts : channel.profile.rx.acceptsLength frame.bytes.length = true
  · have hshown : shownOf name channel.profile.rx [hearing] [frame] =
        [⟨name, hearing.reading, frame⟩] := by
      simp [shownOf, haccepts]
    obtain ⟨front', back', -, hjoined, halone⟩ := hearing.reading.exists_sway x front back
    have hid : (hearing.reading.answer front.length x).id = x.id := Mood.id_answer ..
    have hothers' : (hearing.reading.answer front.length x).id ∉
        (front' ++ back').map Decoder.id := by
      rw [hid, ← halone, Mood.map_id_sway]
      exact hothers
    have hlost : ¬(hearing.reading.answer front.length x).Reads frame :=
      huseless ⟨name, hearing.reading, frame⟩ (by rw [hshown]; exact List.mem_singleton_self _)
    have hconsult := consult_joined name states hothers' hlost
    rw [hid] at hconsult
    rw [if_neg (by simp [haccepts]), if_neg (by simp [haccepts])]
    simp only [Hearing.without, hjoined, halone, hshown, List.flatMap_singleton,
      settleAcksAmid_joined name frame hearing.settling hexpectations, hconsult.states,
      hconsult.recognized, hconsult.updated, true_and]
    refine (hconsult.events.append_same fun e he => ?_).append_same
      (not_isErrorOf_settleAcksAmid x.id name _ frame _ _)
    split at he
    · cases he
    · rw [List.mem_singleton.1 he]
      rfl
  · -- the frame is dropped before any decoder sees it
    simp only [shownOf, haccepts]
    exact ⟨rfl, .nil⟩

/-- **The frames of a channel are dispatched as if the decoder were not there.** -/
theorem dispatchFramesAmid_joined (name : String) (hearings : List Hearing) (frames : List Frame)
    (states : KeyMap Fields) (channel : Channel)
    (hothers : x.id ∉ (front ++ back).map Decoder.id)
    (hregistered : AllRegistered (front ++ back) channel.expectations)
    (huseless : ∀ s ∈ shownOf name channel.profile.rx hearings frames,
      s.IsLostOn front.length x) :
    let joined := dispatchFramesAmid name (front ++ x :: back) hearings frames states channel
    let alone := dispatchFramesAmid name (front ++ back)
      (hearings.map (·.without front.length)) frames states channel
    joined.2 = alone.2 ∧
      SameButFor x.id ((shownOf name channel.profile.rx hearings frames).flatMap
        (·.complaint front.length x)) joined.1 alone.1 := by
  induction frames generalizing hearings states channel with
  | nil => exact ⟨rfl, .nil⟩
  | cons frame rest ih =>
    have hshown : shownOf name channel.profile.rx hearings (frame :: rest) =
        shownOf name channel.profile.rx [hearings.headD {}] [frame] ++
          shownOf name channel.profile.rx hearings.tail rest := by
      simp [shownOf]
    rw [hshown] at huseless ⊢
    rw [List.forall_mem_append] at huseless
    have hhead : (hearings.map (·.without front.length)).headD {} =
        (hearings.headD {}).without front.length := by
      cases hearings <;> rfl
    obtain ⟨hsame, hevents⟩ := dispatchFrameAmid_joined name (hearings.headD {}) states hothers
      (ne_of_allRegistered hothers hregistered) huseless.1
    -- the next frame needs bounds that are the same, and expectations that are no others
    have hprofile := profile_dispatchFrameAmid name (front ++ back)
      ((hearings.headD {}).without front.length) states channel frame
    have hleft := expectations_dispatchFrameAmid name
      ((hearings.headD {}).without front.length) states frame hregistered
    simp only [dispatchFramesAmid_cons, hhead, ← List.map_tail] at hsame hevents ⊢
    rw [hsame]
    generalize dispatchFrameAmid name (front ++ back) ((hearings.headD {}).without front.length)
      states channel frame = first at hprofile hleft hevents ⊢
    have hlater := huseless.2
    rw [← hprofile] at hlater
    obtain ⟨hrest, hmore⟩ := ih hearings.tail first.2.1 first.2.2 hleft hlater
    refine ⟨hrest, ?_⟩
    rw [hprofile] at hmore
    rw [List.flatMap_append]
    exact hevents.append hmore

/-! ## One decoder more

The dispatcher with the decoder is made from the one without.  `Admits` says when that may be done,
and it is kept by whatever happens as long as nobody has to do with the entity, so that it need only
be asked at the moment at which the decoder is registered. -/

theorem insertIdx_length_append (front back : List Decoder) (x : Decoder) :
    (front ++ back).insertIdx front.length x = front ++ x :: back := by
  induction front with
  | nil => rfl
  | cons decoder rest ih =>
    rw [List.cons_append, List.length_cons, List.insertIdx_succ_cons, ih, List.cons_append]

/-- The dispatcher with one decoder more, registered at the place. -/
def joined (d : Dispatcher) (place : Nat) (x : Decoder) : Dispatcher :=
  { d with decoders := d.decoders.insertIdx place x }

/-- A decoder may join at the place: nothing has to do with its entity so far. -/
structure Admits (d : Dispatcher) (place : Nat) (x : Decoder) : Prop where
  noneOrphaned : d.NoneOrphaned
  inBounds : place ≤ d.decoders.length
  isNew : x.id ∉ d.decoders.map Decoder.id

/-- The second response is the first one without the decoder at the place, and without the
complaints about it. -/
structure Differ (place : Nat) (x : Decoder) (complaints : List Event) {α : Type}
    (r r' : Response α) : Prop where
  result : r.result = r'.result
  dispatcher : r.dispatcher = r'.dispatcher.joined place x
  events : SameButFor x.id complaints r.events r'.events

variable {d : Dispatcher} {place : Nat}

theorem Differ.map {α β : Type} {complaints : List Event} {r r' : Response α}
    (h : Differ place x complaints r r') (f : α → β) :
    Differ place x complaints (r.map f) (r'.map f) :=
  ⟨congrArg (Except.map f) h.result, h.dispatcher, h.events⟩

/-- A decoder joins between those in front of the place and those behind it. -/
theorem exists_joined (x : Decoder) (hplace : place ≤ d.decoders.length) :
    ∃ front back, front.length = place ∧ d.decoders = front ++ back ∧
      (d.joined place x).decoders = front ++ x :: back := by
  obtain ⟨front, back, hsplit, rfl⟩ :
      ∃ front back, d.decoders = front ++ back ∧ front.length = place :=
    ⟨d.decoders.take place, d.decoders.drop place, (List.take_append_drop ..).symm,
      List.length_take_of_le hplace⟩
  exact ⟨front, back, rfl, hsplit, by rw [joined, hsplit, insertIdx_length_append]⟩

/-- A decoder that is registered joins behind all others. -/
theorem joined_length (d : Dispatcher) (x : Decoder) :
    d.joined d.decoders.length x = d.register x := by
  rw [joined, List.insertIdx_length_self, register]

theorem channel?_joined (d : Dispatcher) (place : Nat) (x : Decoder) (name : String) :
    (d.joined place x).channel? name = d.channel? name := rfl

theorem register_joined (decoder : Decoder) (hplace : place ≤ d.decoders.length) :
    (d.joined place x).register decoder = (d.register decoder).joined place x := by
  obtain ⟨front, back, rfl, hdecoders, -⟩ := exists_joined x hplace
  simp [register, joined, hdecoders, insertIdx_length_append]

/-- In a mood, the decoder that joined is in this mood, and the others are as without it. -/
theorem sway_joined (mood : Mood) (hplace : place ≤ d.decoders.length) :
    (d.joined place x).sway mood =
      (d.sway (mood.without place)).joined place (mood.answer place x) := by
  obtain ⟨front, back, rfl, hdecoders, hjoined⟩ := exists_joined x hplace
  obtain ⟨front', back', hlength, hmore, hfewer⟩ := mood.exists_sway x front back
  have hsway : mood.sway (d.joined front.length x).decoders =
      ((mood.without front.length).sway d.decoders).insertIdx front.length
        (mood.answer front.length x) := by
    rw [hjoined, hmore, hdecoders, hfewer, ← hlength, insertIdx_length_append]
  rw [sway, hsway]
  rfl

/-! ## What happens with one decoder more -/

theorem insertChannel_joined (name : String) (channel : Channel) :
    Differ place x [] ((d.joined place x).insertChannel name channel)
      (d.insertChannel name channel) := by
  unfold insertChannel
  rw [show (d.joined place x).channels = d.channels from rfl]
  split
  · exact ⟨rfl, rfl, .nil⟩
  · exact ⟨rfl, rfl, .nil⟩

/-- **The frames that have come on a channel are dispatched as if the decoder were not there.** -/
theorem dispatchAmid_joined (h : d.Admits place x) (name : String) (channel : Channel)
    (hregistered : AllRegistered d.decoders channel.expectations) (frames : List Frame)
    (now : Time) (hearings : List Hearing)
    (huseless : ∀ s ∈ shownOf name channel.profile.rx hearings frames, s.IsLostOn place x) :
    Differ place x
      ((shownOf name channel.profile.rx hearings frames).flatMap (·.complaint place x))
      ((d.joined place x).dispatchAmid name channel frames now hearings)
      (d.dispatchAmid name channel frames now (hearings.map (·.without place))) := by
  obtain ⟨front, back, rfl, hdecoders, hjoined⟩ := exists_joined x h.inBounds
  have hleft := hregistered.subset (expireAcks_subset name d.ackTimeout now channel.expectations)
  have hothers := h.isNew
  rw [hdecoders] at hleft hothers
  obtain ⟨hsame, hevents⟩ := dispatchFramesAmid_joined name hearings frames d.states
    { channel with expectations := (expireAcks name d.ackTimeout now channel.expectations).2 }
    hothers hleft huseless
  rw [← hdecoders, ← hjoined] at hsame hevents
  rw [dispatchAmid_eq, dispatchAmid_eq]
  refine ⟨rfl, ?_, ?_⟩
  · exact congrArg (fun left : KeyMap Fields × Channel =>
      Dispatcher.setChannel { d.joined front.length x with states := left.1 } name left.2) hsame
  · have hexpired := SameButFor.refl
      (not_isErrorOf_expireAcks x.id name d.ackTimeout now channel.expectations)
    exact hexpired.append hevents

theorem addChannelConfig_joined (name : String) (config : ChannelConfig)
    (evaluator : Option Evaluator) :
    Differ place x [] ((d.joined place x).addChannelConfig name config evaluator)
      (d.addChannelConfig name config evaluator) := by
  unfold addChannelConfig
  cases config.resolve evaluator with
  | error cause => exact ⟨rfl, rfl, .nil⟩
  | ok profile => exact insertChannel_joined name _

theorem enqueue_joined (name : String) (command : Bytes) (priority : Priority) :
    Differ place x [] ((d.joined place x).enqueue name command priority)
      (d.enqueue name command priority) := by
  rw [enqueue, enqueue, channel?_joined]
  cases d.channel? name with
  | none => exact ⟨rfl, rfl, .nil⟩
  | some channel => exact ⟨rfl, rfl, .nil⟩

theorem next_joined (name : String) (now : Time) :
    Differ place x [] ((d.joined place x).next name now) (d.next name now) := by
  rw [next, next, channel?_joined]
  cases d.channel? name with
  | none => exact ⟨rfl, rfl, .nil⟩
  | some channel =>
    exact ⟨rfl, rfl, .refl (not_isErrorOf_expireAcks x.id name d.ackTimeout now _)⟩

theorem moveWorker_joined (name : String) (move : WorkerMove) :
    (d.joined place x).moveWorker name move = (d.moveWorker name move).joined place x := by
  rw [moveWorker, moveWorker, channel?_joined]
  cases d.channel? name with
  | none => rfl
  | some channel => rfl

/-- The frames that the decoders get to see when frames are taken from a channel. -/
def shownBy (d : Dispatcher) (name : String) (take : Receiver → List Frame × Receiver)
    (hearings : List Hearing) : List Showing :=
  (d.channel? name).elim [] fun channel =>
    shownOf name channel.profile.rx hearings (take channel.receiver).1

theorem receive_joined (h : d.Admits place x) (name : String)
    (take : Receiver → List Frame × Receiver) (now : Time) (hearings : List Hearing)
    (huseless : ∀ s ∈ d.shownBy name take hearings, s.IsLostOn place x) :
    Differ place x ((d.shownBy name take hearings).flatMap (·.complaint place x))
      ((d.joined place x).receive name take now hearings)
      (d.receive name take now (hearings.map (·.without place))) := by
  unfold shownBy at huseless ⊢
  unfold receive
  rw [channel?_joined]
  cases hchannel : d.channel? name with
  | none => exact ⟨rfl, rfl, .nil⟩
  | some channel =>
    rw [hchannel] at huseless
    exact dispatchAmid_joined h name { channel with receiver := (take channel.receiver).2 }
      (h.noneOrphaned name channel hchannel) (take channel.receiver).1 now hearings huseless

/-- A command for another entity is built by the same decoder. -/
theorem decoder?_joined {entity : String} (hplace : place ≤ d.decoders.length)
    (hentity : x.id ≠ entity) : (d.joined place x).decoder? entity = d.decoder? entity := by
  obtain ⟨front, back, rfl, hdecoders, hjoined⟩ := exists_joined x hplace
  simp [decoder?, hjoined, hdecoders, List.find?_append, hentity]

theorem send_joined {entity : String} (hplace : place ≤ d.decoders.length)
    (hentity : x.id ≠ entity) (name command : String) (value : Option Value)
    (priority : Priority) (now : Time) :
    Differ place x [] ((d.joined place x).send name entity command value priority now)
      (d.send name entity command value priority now) := by
  unfold send
  rw [decoder?_joined hplace hentity]
  cases d.decoder? entity with
  | none => exact ⟨rfl, rfl, .nil⟩
  | some decoder =>
    simp only
    rw [channel?_joined]
    cases d.channel? name with
    | none => exact ⟨rfl, rfl, .nil⟩
    | some channel =>
      simp only
      rw [show (d.joined place x).build channel decoder command value =
        d.build channel decoder command value from rfl]
      cases d.build channel decoder command value with
      | error error => exact ⟨rfl, rfl, .nil⟩
      | ok frame => exact ⟨rfl, rfl, .nil⟩

theorem sendAmid_joined {entity : String} (hplace : place ≤ d.decoders.length)
    (hentity : entity ≠ x.id) (name command : String) (value : Option Value)
    (priority : Priority) (now : Time) (mood : Mood) :
    Differ place x [] ((d.joined place x).sendAmid name entity command value priority now mood)
      (d.sendAmid name entity command value priority now (mood.without place)) := by
  have hid : (mood.answer place x).id = x.id := mood.id_answer place x
  have hplace' : place ≤ (d.sway (mood.without place)).decoders.length := by
    rw [sway, Mood.sway, List.length_mapIdx]
    exact hplace
  have hentity' : (mood.answer place x).id ≠ entity := by
    rw [hid]
    exact hentity.symm
  have hsend := send_joined hplace' hentity' name command value priority now
  rw [sendAmid, sendAmid, sway_joined mood hplace]
  refine ⟨hsend.result, ?_, hid ▸ hsend.events⟩
  simp only [hsend.dispatcher]
  rfl

/-- The frames that the decoders get to see when something happens. -/
def shown (d : Dispatcher) : Occurrence → List Showing
  | .feed name bytes now meanwhile hearings =>
    d.shownBy name (·.feedAmid bytes now meanwhile) hearings
  | .poll name _ meanwhile hearings => d.shownBy name (·.collect false meanwhile) hearings
  | .flush name _ meanwhile hearings => d.shownBy name (·.collect true meanwhile) hearings
  | _ => []

/-- **Whatever happens, happens as if the decoder were not there.** -/
theorem perform_joined (h : d.Admits place x) {o : Occurrence} (hspares : o.Spares x.id)
    (huseless : ∀ s ∈ d.shown o, s.IsLostOn place x) :
    Differ place x ((d.shown o).flatMap (·.complaint place x)) ((d.joined place x).perform o)
      (d.perform (o.without place)) := by
  cases o with
  | register decoder => exact ⟨rfl, register_joined decoder h.inBounds, .nil⟩
  | addChannel name profile => exact (insertChannel_joined name _).map _
  | addChannelConfig name config evaluator =>
    exact (addChannelConfig_joined name config evaluator).map _
  | addOffloadedChannel name profile config aided => exact (insertChannel_joined name _).map _
  | feed name bytes now meanwhile hearings =>
    exact (receive_joined h name (·.feedAmid bytes now meanwhile) now hearings huseless).map _
  | poll name now meanwhile hearings =>
    exact (receive_joined h name (·.collect false meanwhile) now hearings huseless).map _
  | flush name now meanwhile hearings =>
    exact (receive_joined h name (·.collect true meanwhile) now hearings huseless).map _
  | enqueue name command priority => exact (enqueue_joined name command priority).map _
  | send name entity command value priority now mood =>
    exact (sendAmid_joined h.inBounds hspares name command value priority now mood).map _
  | next name now => exact (next_joined name now).map _
  | setAckTimeout timeout => exact ⟨rfl, rfl, .nil⟩
  | work name move => exact ⟨rfl, moveWorker_joined name move, .nil⟩

/-- As long as nobody has to do with its entity, the decoder may join. -/
theorem Admits.perform (h : d.Admits place x) {o : Occurrence} (hspares : o.Spares x.id) :
    (d.perform o).dispatcher.Admits place x := by
  have hnone := (Settled.perform (x := ⟨"", "", ""⟩) h.noneOrphaned o).noneOrphaned
  have heffect := d.effect_perform o
  generalize d.perform o = r at hnone heffect ⊢
  cases heffect with
  | registered decoder =>
    refine ⟨hnone, ?_, ?_⟩
    · rw [become, register, List.length_append]
      exact Nat.le_add_right_of_le h.inBounds
    · rw [become, register, List.map_append, List.mem_append, not_or]
      exact ⟨h.isNew, fun hmem => hspares (List.mem_singleton.1 hmem).symm⟩
  | _ => exact ⟨hnone, h.inBounds, h.isNew⟩

/-! ## Runs -/

/-- The frames that the decoders get to see in a run. -/
def shownIn (d : Dispatcher) : List Occurrence → List Showing
  | [] => []
  | o :: rest => d.shown o ++ (d.perform o).dispatcher.shownIn rest

/-- What the callers hear in a run. -/
def results (d : Dispatcher) : List Occurrence → List (Except DispatchError Answer)
  | [] => []
  | o :: rest => (d.perform o).result :: (d.perform o).dispatcher.results rest

theorem run_joined (h : d.Admits place x) {occurrences : List Occurrence}
    (hspares : ∀ o ∈ occurrences, o.Spares x.id)
    (huseless : ∀ s ∈ (d.joined place x).shownIn occurrences, s.IsLostOn place x) :
    let fewer := occurrences.map (·.without place)
    (d.joined place x).results occurrences = d.results fewer ∧
      ((d.joined place x).run occurrences).2 = (d.run fewer).2.joined place x ∧
      SameButFor x.id (((d.joined place x).shownIn occurrences).flatMap (·.complaint place x))
        ((d.joined place x).run occurrences).1 (d.run fewer).1 := by
  induction occurrences generalizing d with
  | nil => exact ⟨rfl, rfl, .nil⟩
  | cons o rest ih =>
    rw [List.forall_mem_cons] at hspares
    rw [shownIn, List.forall_mem_append] at huseless
    have hfirst := perform_joined h hspares.1 huseless.1
    have hnext := h.perform ((Occurrence.spares_without place).2 hspares.1)
    have hlater := huseless.2
    rw [hfirst.dispatcher] at hlater
    obtain ⟨hresults, hrun, hevents⟩ := ih hnext hspares.2 hlater
    simp only [List.map_cons, results, run_cons, shownIn, List.flatMap_append]
    rw [hfirst.dispatcher]
    exact ⟨List.cons_eq_cons.2 ⟨hfirst.result, hresults⟩, hrun, hfirst.events.append hevents⟩

/-- **A decoder that fails harms nobody else.**  To a dispatcher, whatever happened to it before, a
decoder is added at any place, whose entity is otherwise neither registered nor sent to, and which
makes nothing of any frame that it is shown: it does not recognise it, or fails on it.  Whatever
happens then, with whatever other decoders, happens as if the decoder were not there: the callers
hear the same, and the dispatcher is in the end the same but for this decoder, with its channels and
what they have received, queued and wait for, and with the state of the entities.  The same is told,
but for the failures of the decoder, each of them once for the frame on which it fails. -/
theorem run_isolated (earlier later : List Occurrence) (place : Nat) (x : Decoder)
    (hplace : place ≤ (({} : Dispatcher).run earlier).2.decoders.length)
    (hnew : x.id ∉ (({} : Dispatcher).run earlier).2.decoders.map Decoder.id)
    (hspares : ∀ o ∈ later, o.Spares x.id)
    (huseless : ∀ s ∈ ((({} : Dispatcher).run earlier).2.joined place x).shownIn later,
      s.IsLostOn place x) :
    let d := (({} : Dispatcher).run earlier).2
    let fewer := later.map (·.without place)
    (d.joined place x).results later = d.results fewer ∧
      ((d.joined place x).run later).2 = (d.run fewer).2.joined place x ∧
      ((d.joined place x).run later).1.filter (fun e => !e.isErrorOf x.id) = (d.run fewer).1 ∧
      ((d.joined place x).run later).1.filter (·.isErrorOf x.id) =
        ((d.joined place x).shownIn later).flatMap (·.complaint place x) := by
  have hnone := (Settled.run (x := ⟨"", "", ""⟩) (d := {})
    (fun name channel hchannel => by cases hchannel) earlier).2
  obtain ⟨hresults, hrun, hevents⟩ := run_joined ⟨hnone, hplace, hnew⟩ hspares huseless
  exact ⟨hresults, hrun, hevents.others, hevents.own⟩

/-! ### A ghost in the hall -/

/-- The ghost takes every frame for its own, and then panics over it. -/
def ghostDecoder : Decoder where
  id := "ghost"
  stateProxy := none
  matchesFrame _ := .returned (.ok true)
  parse _ := .panicked none
  buildCommand _ _ _ := .returned none
  expectsAck _ := .returned true
  matchesAck _ _ := .panicked none

/-- The ghost is registered after the lamp, and then three commands are sent.  It is told once that
it failed, on the frame that acknowledges a command; that the frame is nobody's and that the command
is acknowledged is told all the same. -/
theorem run_isolated_of_ghost :
    let d := (({} : Dispatcher).run [.register lampDecoder]).2
    let haunted := (({} : Dispatcher).run [.register lampDecoder, .register ghostDecoder]).2
    let later := threeCommands.tail
    haunted.results later = d.results later ∧
      (haunted.run later).2.channels = (d.run later).2.channels ∧
      (haunted.run later).1.filter (fun e => !e.isErrorOf "ghost") = (d.run later).1 ∧
      (d.run later).1.length = 3 ∧
      (haunted.run later).1.filter (·.isErrorOf "ghost") =
        [.entityError "hall" "ghost" (Call.panicMessage none)] := by
  intro d haunted later
  have hhaunted : haunted = d.joined 1 ghostDecoder := (joined_length d ghostDecoder).symm
  have hshown : (d.joined 1 ghostDecoder).shownIn later =
      [⟨"hall", .calm, .ofBytes [0xF2, 0, 0] 1⟩] := by rfl
  have hcalm : later.map (·.without 1) = later := rfl
  have hlost : ∀ s ∈ (d.joined 1 ghostDecoder).shownIn later, s.IsLostOn 1 ghostDecoder := by
    rw [hshown, List.forall_mem_singleton]
    rintro ⟨reported, hread⟩
    cases hread
  have hspares : ∀ o ∈ later, o.Spares ghostDecoder.id := by
    simp [later, threeCommands, Occurrence.Spares, ghostDecoder]
  have h := run_isolated [.register lampDecoder] later 1 ghostDecoder (Nat.le_refl 1) (by decide)
    hspares hlost
  simp only [hcalm] at h
  obtain ⟨hresults, hrun, hothers, hown⟩ := h
  rw [hhaunted]
  refine ⟨hresults, ?_, hothers, by decide +kernel, ?_⟩
  · rw [hrun, joined]
  · refine hown.trans ?_
    rw [hshown]
    rfl

end Dispatcher
end Fieldbus
