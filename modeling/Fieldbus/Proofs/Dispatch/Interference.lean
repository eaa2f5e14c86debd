import Fieldbus.Proofs.Dispatch.Isolation
import Fieldbus.Proofs.Dispatch.States

/-!
# Channels do not disturb each other

The channels of a dispatcher share its decoders, the time allowed for acknowledgements and the
states of the entities.  The states are read by scripts only, so what happens on a channel without
scripts is not changed by what happens on the others: whoever looks at one channel sees the same as
if nothing else had been received, queued, sent or taken.

The theorems are stated for any decoders, workers and moods.  Only the channel that is looked at
must have no script; the others may.

## What is here

* `Occurrence.about?`, `Occurrence.concerns` — the channel that an occurrence is about, and what
  matters to a channel: all that is about it, and all that is about the dispatcher as a whole.
* `Dispatcher.SameFor` — two dispatchers that look the same from a channel.
* `Dispatcher.perform_about` — what is about a channel replaces that channel, at most.
* `Dispatcher.perform_sameFor` — dispatchers that look the same from a channel answer alike.
* `Dispatcher.perform_comm` — so what happens on two channels may happen in either order; what is
  meant by that is `Dispatcher.EitherOrder`.
* `Dispatcher.run_undisturbed` — and from a whole run all may be left out that is about the others.

## How it is proved

`SameFor` relates two dispatchers that cannot be told apart from one channel, and two facts about it
carry everything.  What happens on another channel stays within the relation on one side alone
(`perform_elsewhere`), and what matters to the channel keeps it when it happens on both sides, with
the same answers (`perform_sameFor`).  A run and the same run with the others left out are then
compared occurrence by occurrence: one step on one side, or one step on both.

The states of the entities are not part of the relation.  They do differ, since what is reported on
one channel changes them for all.  That is why a channel with a script is excluded: its script is
told the states, and whether it accepts a frame may depend on them.
-/

set_option autoImplicit false

namespace Fieldbus

/-! ## What an occurrence is about

Channels are fed, polled, asked and so on by name, and that name is what the occurrence is about.
Registering a decoder, setting the time for acknowledgements and adding a channel are about no
channel: they change what channels share or which channels there are, and so they matter to all of
them and are never left out. -/

namespace Occurrence

/-- The channel on which something happens.  Of what is registered, set or added none is named: that
is about the dispatcher as a whole. -/
def about? : Occurrence → Option String
  | .feed name _ _ _ _ => some name
  | .poll name _ _ _ => some name
  | .flush name _ _ _ => some name
  | .enqueue name _ _ => some name
  | .send name _ _ _ _ _ _ => some name
  | .next name _ => some name
  | .work name _ => some name
  | _ => none

/-- Does it matter to the channel?  What happens on another one does not. -/
def concerns (name : String) (o : Occurrence) : Bool := o.about?.all (· = name)

/-- The channel that would be added under this name. -/
def profile? (name : String) : Occurrence → Option ChannelProfile
  | .addChannel name' profile => if name' = name then some profile else none
  | .addChannelConfig name' config evaluator =>
    if name' = name then (config.resolve evaluator).toOption else none
  | .addOffloadedChannel name' profile _ _ => if name' = name then some profile else none
  | _ => none

variable {name : String} {o : Occurrence}

theorem concerns_iff : o.concerns name = true ↔ o.about? = none ∨ o.about? = some name := by
  rw [concerns]
  cases o.about? with
  | none => simp
  | some other => simp

/-- What is added is the concern of all channels. -/
theorem concerns_of_profile? {profile : ChannelProfile} (h : profile ∈ o.profile? name) :
    o.concerns name = true := by
  cases o with
  | addChannel name' profile => rfl
  | addChannelConfig name' config evaluator => rfl
  | addOffloadedChannel name' profile config aided => rfl
  | _ => cases h

theorem concerns_eq_false_iff :
    o.concerns name = false ↔ ∃ other, o.about? = some other ∧ other ≠ name := by
  rw [concerns]
  cases o.about? with
  | none => simp
  | some other => simp

end Occurrence

/-! ## The states of the entities are not looked at

Decoders are shown frames.  The states are carried along while a frame is discussed and receive what
was reported, but nothing that is told or done on the channel is taken from them, unless its scripts
are to hear of the new state. -/

/-- The same was made of a frame, whatever the states were. -/
structure Consultation.SameButStates (c c' : Consultation) : Prop where
  events : c.events = c'.events
  recognized : c.recognized = c'.recognized
  updated : c.updated = c'.updated

theorem Consultation.SameButStates.ask {c c' : Consultation} (h : c.SameButStates c')
    (name : String) (frame : Frame) (decoder : Decoder) :
    (c.ask name frame decoder).SameButStates (c'.ask name frame decoder) := by
  unfold Consultation.ask
  split
  · exact ⟨by rw [h.events], h.recognized, h.updated⟩
  · exact h
  · exact ⟨h.events, rfl, h.updated⟩
  · exact ⟨by rw [h.events], rfl, rfl⟩

/-- **Decoders read frames, not states.** -/
theorem consult_sameButStates (name : String) (decoders : List Decoder)
    (states states' : KeyMap Fields) (frame : Frame) :
    (consult name decoders states frame).SameButStates (consult name decoders states' frame) := by
  suffices h : ∀ c c' : Consultation, c.SameButStates c' →
      (decoders.foldl (Consultation.ask name frame) c).SameButStates
        (decoders.foldl (Consultation.ask name frame) c') from h _ _ ⟨rfl, rfl, rfl⟩
  induction decoders with
  | nil => exact fun c c' h => h
  | cons decoder rest ih => exact fun c c' h => ih _ _ (h.ask name frame decoder)

namespace Dispatcher

/-- A frame of a channel without scripts: the states make no difference to what is told, and to the
channel. -/
theorem dispatchFrameAmid_states (name : String) (decoders : List Decoder) (hearing : Hearing)
    (states states' : KeyMap Fields) {channel : Channel} (frame : Frame)
    (hplain : channel.profile.usesScript = false) :
    let result := dispatchFrameAmid name decoders hearing states channel frame
    let result' := dispatchFrameAmid name decoders hearing states' channel frame
    result.1 = result'.1 ∧ result.2.2 = result'.2.2 := by
  unfold dispatchFrameAmid
  split
  · exact ⟨rfl, rfl⟩
  · have hsame := consult_sameButStates name (hearing.reading.sway decoders) states states' frame
    simp only [hplain, Bool.and_false, hsame.events, hsame.recognized]
    exact ⟨trivial, rfl⟩

theorem dispatchFramesAmid_states (name : String) (decoders : List Decoder)
    (hearings : List Hearing) (frames : List Frame) (states states' : KeyMap Fields)
    (channel : Channel) (hplain : channel.profile.usesScript = false) :
    let result := dispatchFramesAmid name decoders hearings frames states channel
    let result' := dispatchFramesAmid name decoders hearings frames states' channel
    result.1 = result'.1 ∧ result.2.2 = result'.2.2 := by
  induction frames generalizing hearings states states' channel with
  | nil => exact ⟨rfl, rfl⟩
  | cons frame rest ih =>
    obtain ⟨hevents, hchannel⟩ :=
      dispatchFrameAmid_states name decoders (hearings.headD {}) states states' frame hplain
    have hprofile :=
      profile_dispatchFrameAmid name decoders (hearings.headD {}) states channel frame
    simp only [dispatchFramesAmid_cons, ← hevents, ← hchannel]
    obtain ⟨hmore, hlast⟩ := ih hearings.tail
      (dispatchFrameAmid name decoders (hearings.headD {}) states channel frame).2.1
      (dispatchFrameAmid name decoders (hearings.headD {}) states' channel frame).2.1 _
      (hprofile ▸ hplain)
    exact ⟨by rw [hmore], hlast⟩

theorem profile_dispatchFramesAmid (name : String) (decoders : List Decoder)
    (hearings : List Hearing) (frames : List Frame) (states : KeyMap Fields) (channel : Channel) :
    (dispatchFramesAmid name decoders hearings frames states channel).2.2.profile =
      channel.profile := by
  induction frames generalizing hearings states channel with
  | nil => rfl
  | cons frame rest ih =>
    simp only [dispatchFramesAmid_cons]
    rw [ih, profile_dispatchFrameAmid]

/-! ## What is told is about the channel -/

theorem channel_of_mem_dispatchFrameAmid {name : String} {decoders : List Decoder}
    {hearing : Hearing} {states : KeyMap Fields} {channel : Channel} {frame : Frame} {event : Event}
    (h : event ∈ (dispatchFrameAmid name decoders hearing states channel frame).1) :
    event.channel = name := by
  unfold dispatchFrameAmid at h
  split at h
  · cases h
  · rcases List.mem_append.1 h with h | hacked
    · rcases List.mem_append.1 h with hread | hunmatched
      · exact (tells_consult name _ states frame).channel event hread
      · split at hunmatched
        · cases hunmatched
        · rw [List.mem_singleton.1 hunmatched]
          rfl
    · exact (quiet_settleAcksAmid name decoders frame _ _ event hacked).2

theorem channel_of_mem_dispatchFramesAmid {name : String} {decoders : List Decoder}
    {hearings : List Hearing} {frames : List Frame} {states : KeyMap Fields} {channel : Channel}
    {event : Event}
    (h : event ∈ (dispatchFramesAmid name decoders hearings frames states channel).1) :
    event.channel = name := by
  induction frames generalizing hearings states channel with
  | nil => cases h
  | cons frame rest ih =>
    rw [dispatchFramesAmid_cons] at h
    rcases List.mem_append.1 h with hfirst | hlater
    · exact channel_of_mem_dispatchFrameAmid hfirst
    · exact ih hlater

theorem channel_of_mem_dispatchAmid {d : Dispatcher} {name : String} {channel : Channel}
    {frames : List Frame} {now : Time} {hearings : List Hearing} {event : Event}
    (h : event ∈ (d.dispatchAmid name channel frames now hearings).events) :
    event.channel = name := by
  rw [dispatchAmid_eq] at h
  rcases List.mem_append.1 h with hexpired | hframes
  · exact (quiet_expireAcks name _ now _ event hexpired).2
  · exact channel_of_mem_dispatchFramesAmid hframes

/-! ## One channel is replaced

Whatever an occurrence about a channel does to the dispatcher is one replacement of that channel,
and perhaps a change of the states.  Said once in this form (`perform_about`), all that follows
about the other channels is about replacing an entry of a map, and the occurrences need not be gone
through again. -/

/-- The dispatcher is the first one, but for one channel, which was there and has its profile still,
and for the states of the entities. -/
def Replaces (d : Dispatcher) (name : String) (d' : Dispatcher) : Prop :=
  ∃ channel channel' states, d.channel? name = some channel ∧
    d' = { d with states }.setChannel name channel' ∧ channel'.profile = channel.profile

/-- **What is about a channel replaces that channel, at most, and tells of that channel only.** -/
theorem perform_about (d : Dispatcher) {o : Occurrence} {name : String}
    (habout : o.about? = some name) :
    (∀ event ∈ (d.perform o).events, event.channel = name) ∧
      ((d.perform o).dispatcher = d ∨ d.Replaces name (d.perform o).dispatcher) := by
  have hreceive (take : Receiver → List Frame × Receiver) (now : Time) (hearings : List Hearing) :
      (∀ event ∈ (d.receive name take now hearings).events, event.channel = name) ∧
        ((d.receive name take now hearings).dispatcher = d ∨
          d.Replaces name (d.receive name take now hearings).dispatcher) := by
    unfold receive
    cases hchannel : d.channel? name with
    | none => exact ⟨fun event he => absurd he List.not_mem_nil, .inl rfl⟩
    | some channel =>
      refine ⟨fun event he => channel_of_mem_dispatchAmid he,
        .inr ⟨channel, _, _, hchannel, rfl, ?_⟩⟩
      exact profile_dispatchFramesAmid ..
  cases o with
  | register decoder => cases habout
  | addChannel name' profile => cases habout
  | addChannelConfig name' config evaluator => cases habout
  | addOffloadedChannel name' profile config aided => cases habout
  | setAckTimeout timeout => cases habout
  | feed name' bytes now meanwhile hearings =>
    obtain rfl : name' = name := Option.some.inj habout
    exact hreceive _ now hearings
  | poll name' now meanwhile hearings =>
    obtain rfl : name' = name := Option.some.inj habout
    exact hreceive _ now hearings
  | flush name' now meanwhile hearings =>
    obtain rfl : name' = name := Option.some.inj habout
    exact hreceive _ now hearings
  | enqueue name' command priority =>
    obtain rfl : name' = name := Option.some.inj habout
    rw [perform, enqueue]
    cases hchannel : d.channel? name' with
    | none => exact ⟨fun event he => absurd he List.not_mem_nil, .inl rfl⟩
    | some channel =>
      exact ⟨fun event he => absurd he List.not_mem_nil, .inr ⟨channel, _, _, hchannel, rfl, rfl⟩⟩
  | send name' entity command value priority now mood =>
    obtain rfl : name' = name := Option.some.inj habout
    rw [perform, sendAmid]
    rcases (d.sway mood).send_cases name' entity command value priority now with
      ⟨error, hsend⟩ | ⟨decoder, channel, frame, -, hchannel, -, hsend⟩
    · rw [hsend]
      exact ⟨fun event he => absurd he List.not_mem_nil, .inl rfl⟩
    · rw [hsend]
      exact ⟨fun event he => absurd he List.not_mem_nil, .inr ⟨channel, _, _, hchannel, rfl, rfl⟩⟩
  | next name' now =>
    obtain rfl : name' = name := Option.some.inj habout
    rw [perform, next]
    cases hchannel : d.channel? name' with
    | none => exact ⟨fun event he => absurd he List.not_mem_nil, .inl rfl⟩
    | some channel =>
      exact ⟨fun event he => (quiet_expireAcks name' _ now _ event he).2,
        .inr ⟨channel, _, _, hchannel, rfl, rfl⟩⟩
  | work name' move =>
    obtain rfl : name' = name := Option.some.inj habout
    rw [perform, moveWorker]
    cases hchannel : d.channel? name' with
    | none => exact ⟨fun event he => absurd he List.not_mem_nil, .inl rfl⟩
    | some channel =>
      exact ⟨fun event he => absurd he List.not_mem_nil, .inr ⟨channel, _, _, hchannel, rfl, rfl⟩⟩

/-! ## Looking at one channel

Two dispatchers are the same for a channel if the channel itself is, and if they have the decoders
in common, the time allowed, and the names of all channels.  The names are needed because adding a
channel is everybody's concern, and is refused if the name is taken. -/

/-- The two dispatchers look the same from the channel: it is the same in both, with what it has
received, queued and waits for, and so is what it shares with the others, but for the states of the
entities.  The other channels have the same names. -/
structure SameFor (name : String) (d d' : Dispatcher) : Prop where
  channel : d.channel? name = d'.channel? name
  decoders : d.decoders = d'.decoders
  ackTimeout : d.ackTimeout = d'.ackTimeout
  names : ∀ other, (d.channel? other).isSome = (d'.channel? other).isSome

namespace SameFor

variable {name : String} {d d' d'' : Dispatcher}

theorem refl (name : String) (d : Dispatcher) : d.SameFor name d := ⟨rfl, rfl, rfl, fun _ => rfl⟩

theorem symm (h : d.SameFor name d') : d'.SameFor name d :=
  ⟨h.channel.symm, h.decoders.symm, h.ackTimeout.symm, fun other => (h.names other).symm⟩

theorem trans (h : d.SameFor name d') (h' : d'.SameFor name d'') : d.SameFor name d'' :=
  ⟨h.channel.trans h'.channel, h.decoders.trans h'.decoders, h.ackTimeout.trans h'.ackTimeout,
    fun other => (h.names other).trans (h'.names other)⟩

/-- The same channel is put into both. -/
theorem setChannel (h : d.SameFor name d') (name' : String) (channel : Channel)
    (states states' : KeyMap Fields) :
    ({ d with states }.setChannel name' channel).SameFor name
      ({ d' with states := states' }.setChannel name' channel) where
  channel := by
    have hchannel : { d with states }.channel? name = { d' with states := states' }.channel? name :=
      h.channel
    rw [channel?_setChannel, channel?_setChannel, hchannel]
  decoders := h.decoders
  ackTimeout := h.ackTimeout
  names other := by
    have hname : ({ d with states }.channel? other).isSome =
        ({ d' with states := states' }.channel? other).isSome := h.names other
    rw [channel?_setChannel, channel?_setChannel]
    split
    · rfl
    · exact hname

end SameFor

/-- From the other channels nothing is seen of a channel that is replaced. -/
theorem Replaces.sameFor {d d' : Dispatcher} {name other : String} (h : d.Replaces other d')
    (hne : other ≠ name) : d.SameFor name d' := by
  obtain ⟨channel, channel', states, hchannel, rfl, -⟩ := h
  refine ⟨?_, rfl, rfl, fun name' => ?_⟩
  · rw [channel?_setChannel, if_neg hne.symm]
    rfl
  · rw [channel?_setChannel]
    split
    · rename_i hname
      rw [hname, hchannel]
      rfl
    · rfl

/-- **What happens on another channel is not seen.** -/
theorem perform_elsewhere (d : Dispatcher) {o : Occurrence} {name other : String}
    (habout : o.about? = some other) (hne : other ≠ name) :
    d.SameFor name (d.perform o).dispatcher := by
  rcases (d.perform_about habout).2 with hsame | hreplaces
  · rw [hsame]
    exact .refl name d
  · exact hreplaces.sameFor hne

/-! ## Channels without scripts

That a channel has no script has to hold during the whole run.  A profile never changes, so it is
enough to look at the channel when it is added. -/

/-- If there is such a channel, it has no script. -/
def PlainOn (d : Dispatcher) (name : String) : Prop :=
  ∀ channel ∈ d.channel? name, channel.profile.usesScript = false

variable {d d' : Dispatcher} {name : String}

theorem SameFor.plainOn (h : d.SameFor name d') (hplain : d.PlainOn name) : d'.PlainOn name := by
  intro channel hchannel
  rw [← h.channel] at hchannel
  exact hplain channel hchannel

theorem Replaces.plainOn (h : d.Replaces name d') (hplain : d.PlainOn name) : d'.PlainOn name := by
  obtain ⟨channel, channel', states, hchannel, rfl, hprofile⟩ := h
  intro channel'' hchannel''
  rw [channel?_setChannel, if_pos rfl] at hchannel''
  cases hchannel''
  rw [hprofile]
  exact hplain channel hchannel

/-- A new channel without a script does no harm. -/
theorem PlainOn.insertChannel (h : d.PlainOn name) (name' : String) (profile : ChannelProfile)
    (receiver : Receiver) (hprofile : name' = name → profile.usesScript = false) :
    (d.insertChannel name' (.ofProfile profile receiver)).dispatcher.PlainOn name := by
  unfold Dispatcher.insertChannel
  split
  · exact h
  · intro channel hchannel
    rw [channel?_setChannel] at hchannel
    split at hchannel
    · rename_i heq
      cases hchannel
      exact hprofile heq.symm
    · exact h channel hchannel

/-- As long as no channel with a script is added under its name, the channel has none. -/
theorem PlainOn.perform (h : d.PlainOn name) {o : Occurrence}
    (hprofile : ∀ profile ∈ o.profile? name, profile.usesScript = false) :
    (d.perform o).dispatcher.PlainOn name := by
  cases habout : o.about? with
  | some other =>
    rcases (d.perform_about habout).2 with hsame | hreplaces
    · rw [hsame]
      exact h
    · by_cases hname : other = name
      · subst hname
        exact hreplaces.plainOn h
      · exact (hreplaces.sameFor hname).plainOn h
  | none =>
    cases o with
    | register decoder => exact h
    | setAckTimeout timeout => exact h
    | addChannel name' profile =>
      refine h.insertChannel name' profile _ ?_
      rintro rfl
      exact hprofile profile (if_pos rfl)
    | addChannelConfig name' config evaluator =>
      rw [Dispatcher.perform, addChannelConfig]
      cases hresolve : config.resolve evaluator with
      | error cause => exact h
      | ok profile =>
        refine h.insertChannel name' profile _ ?_
        rintro rfl
        refine hprofile profile ((if_pos rfl).trans ?_)
        rw [hresolve]
        rfl
    | addOffloadedChannel name' profile config aided =>
      refine h.insertChannel name' profile _ ?_
      rintro rfl
      exact hprofile profile (if_pos rfl)
    | _ => cases habout

/-! ## The same answers

What matters to the channel is done to both dispatchers.  There is one lemma for each way in which
an occurrence goes on from here: it is refused, a channel is added, frames are dispatched, a command
is sent.  They are put together in `perform_sameFor`. -/

/-- The same is answered and the same is told, and what is left looks the same from the channel. -/
structure Agree (name : String) {α : Type} (r r' : Response α) : Prop where
  result : r.result = r'.result
  events : r.events = r'.events
  dispatcher : r.dispatcher.SameFor name r'.dispatcher

theorem Agree.map {α β : Type} {r r' : Response α} (h : Agree name r r') (f : α → β) :
    Agree name (r.map f) (r'.map f) :=
  ⟨by rw [Response.map, h.result]; rfl, h.events, h.dispatcher⟩

/-- Both are refused for the same reason. -/
theorem SameFor.refuse {α : Type} (h : d.SameFor name d') (error : DispatchError) :
    Agree name (d.refuse error : Response α) (d'.refuse error) := ⟨rfl, rfl, h⟩

theorem SameFor.insertChannel (h : d.SameFor name d') (name' : String) (channel : Channel) :
    Agree name (d.insertChannel name' channel) (d'.insertChannel name' channel) := by
  have hname : KeyMap.contains d.channels name' = KeyMap.contains d'.channels name' := h.names name'
  unfold Dispatcher.insertChannel
  rw [hname]
  split
  · exact h.refuse _
  · exact ⟨rfl, rfl, h.setChannel name' channel d.states d'.states⟩

/-- The frames that have come on a channel without scripts are dispatched in the same way. -/
theorem SameFor.dispatchAmid (h : d.SameFor name d') (channel : Channel)
    (hplain : channel.profile.usesScript = false) (frames : List Frame) (now : Time)
    (hearings : List Hearing) :
    Agree name (d.dispatchAmid name channel frames now hearings)
      (d'.dispatchAmid name channel frames now hearings) := by
  obtain ⟨channels, decoders, states, ackTimeout⟩ := d
  obtain ⟨channels', decoders', states', ackTimeout'⟩ := d'
  obtain rfl : decoders = decoders' := h.decoders
  obtain rfl : ackTimeout = ackTimeout' := h.ackTimeout
  obtain ⟨hevents, hchannel⟩ := dispatchFramesAmid_states name decoders hearings frames states
    states' { channel with
      expectations := (expireAcks name ackTimeout now channel.expectations).2 } hplain
  rw [dispatchAmid_eq, dispatchAmid_eq]
  simp only [← hevents, ← hchannel]
  exact ⟨rfl, rfl, h.setChannel name _ _ _⟩

theorem SameFor.receive (h : d.SameFor name d') (hplain : d.PlainOn name)
    (take : Receiver → List Frame × Receiver) (now : Time) (hearings : List Hearing) :
    Agree name (d.receive name take now hearings) (d'.receive name take now hearings) := by
  unfold Dispatcher.receive
  rw [← h.channel]
  cases hchannel : d.channel? name with
  | none => exact h.refuse _
  | some channel =>
    exact h.dispatchAmid { channel with receiver := (take channel.receiver).2 }
      (hplain channel hchannel) _ now hearings

/-- A command for a channel without scripts is built in the same way. -/
theorem SameFor.send (h : d.SameFor name d') (hplain : d.PlainOn name) (entity command : String)
    (value : Option Value) (priority : Priority) (now : Time) :
    Agree name (d.send name entity command value priority now)
      (d'.send name entity command value priority now) := by
  unfold Dispatcher.send
  rw [decoder?, decoder?, ← h.decoders, ← h.channel]
  cases d.decoders.find? fun decoder => decoder.id = entity with
  | none => exact h.refuse _
  | some decoder =>
    cases hchannel : d.channel? name with
    | none => exact h.refuse _
    | some channel =>
      have hscript : channel.profile.tx.checksum.isScript = false :=
        (Bool.or_eq_false_iff.1 (hplain channel hchannel)).2
      have hbuild :
          d'.build channel decoder command value = d.build channel decoder command value := by
        simp only [build, sendSnapshot, hscript]
        rfl
      simp only [hbuild]
      cases d.build channel decoder command value with
      | error error => exact h.refuse _
      | ok frame => exact ⟨rfl, rfl, h.setChannel name _ d.states d'.states⟩

theorem SameFor.sendAmid (h : d.SameFor name d') (hplain : d.PlainOn name) (entity command : String)
    (value : Option Value) (priority : Priority) (now : Time) (mood : Mood) :
    Agree name (d.sendAmid name entity command value priority now mood)
      (d'.sendAmid name entity command value priority now mood) := by
  have hsway : (d.sway mood).SameFor name (d'.sway mood) :=
    ⟨h.channel, congrArg mood.sway h.decoders, h.ackTimeout, h.names⟩
  have hsend := hsway.send hplain entity command value priority now
  exact ⟨hsend.result, hsend.events, hsend.dispatcher.channel, h.decoders,
    hsend.dispatcher.ackTimeout, hsend.dispatcher.names⟩

/-- **What matters to a channel without scripts happens alike** to dispatchers that look the same
from it. -/
theorem perform_sameFor (h : d.SameFor name d') (hplain : d.PlainOn name) {o : Occurrence}
    (hconcerns : o.concerns name = true) : Agree name (d.perform o) (d'.perform o) := by
  cases o with
  | register decoder =>
    exact ⟨rfl, rfl, h.channel, congrArg (· ++ [decoder]) h.decoders, h.ackTimeout, h.names⟩
  | setAckTimeout timeout => exact ⟨rfl, rfl, h.channel, h.decoders, rfl, h.names⟩
  | addChannel name' profile => exact (h.insertChannel name' _).map _
  | addChannelConfig name' config evaluator =>
    refine Agree.map ?_ _
    rw [addChannelConfig, addChannelConfig]
    cases config.resolve evaluator with
    | error cause => exact h.refuse _
    | ok profile => exact h.insertChannel name' _
  | addOffloadedChannel name' profile config aided => exact (h.insertChannel name' _).map _
  | feed name' bytes now meanwhile hearings =>
    obtain rfl : name' = name := by simpa [Occurrence.concerns, Occurrence.about?] using hconcerns
    exact (h.receive hplain _ now hearings).map _
  | poll name' now meanwhile hearings =>
    obtain rfl : name' = name := by simpa [Occurrence.concerns, Occurrence.about?] using hconcerns
    exact (h.receive hplain _ now hearings).map _
  | flush name' now meanwhile hearings =>
    obtain rfl : name' = name := by simpa [Occurrence.concerns, Occurrence.about?] using hconcerns
    exact (h.receive hplain _ now hearings).map _
  | enqueue name' command priority =>
    obtain rfl : name' = name := by simpa [Occurrence.concerns, Occurrence.about?] using hconcerns
    refine Agree.map ?_ _
    rw [enqueue, enqueue, ← h.channel]
    cases d.channel? name' with
    | none => exact h.refuse _
    | some channel => exact ⟨rfl, rfl, h.setChannel name' _ d.states d'.states⟩
  | send name' entity command value priority now mood =>
    obtain rfl : name' = name := by simpa [Occurrence.concerns, Occurrence.about?] using hconcerns
    exact (h.sendAmid hplain entity command value priority now mood).map _
  | next name' now =>
    obtain rfl : name' = name := by simpa [Occurrence.concerns, Occurrence.about?] using hconcerns
    refine Agree.map ?_ _
    rw [next, next, ← h.channel, ← h.ackTimeout]
    cases d.channel? name' with
    | none => exact h.refuse _
    | some channel => exact ⟨rfl, rfl, h.setChannel name' _ d.states d'.states⟩
  | work name' move =>
    obtain rfl : name' = name := by simpa [Occurrence.concerns, Occurrence.about?] using hconcerns
    refine ⟨rfl, rfl, ?_⟩
    show (d.moveWorker name' move).SameFor name' (d'.moveWorker name' move)
    rw [moveWorker, moveWorker, ← h.channel]
    cases d.channel? name' with
    | none => exact h
    | some channel => exact h.setChannel name' _ d.states d'.states

/-- Of what is about the dispatcher as a whole nothing is told. -/
theorem events_perform_of_about?_eq_none (d : Dispatcher) {o : Occurrence} (h : o.about? = none) :
    (d.perform o).events = [] := by
  have hinsert (name : String) (channel : Channel) :
      (d.insertChannel name channel).events = [] := by
    unfold Dispatcher.insertChannel
    split <;> rfl
  cases o with
  | register decoder => rfl
  | setAckTimeout timeout => rfl
  | addChannel name profile => exact hinsert name _
  | addChannelConfig name config evaluator =>
    rw [perform, addChannelConfig]
    cases config.resolve evaluator with
    | error cause => rfl
    | ok profile => exact hinsert name _
  | addOffloadedChannel name profile config aided => exact hinsert name _
  | _ => cases h

/-- What matters to a channel tells of that channel only. -/
theorem channel_of_mem_perform {o : Occurrence} (hconcerns : o.concerns name = true) {event : Event}
    (he : event ∈ (d.perform o).events) : event.channel = name := by
  rcases Occurrence.concerns_iff.1 hconcerns with hnone | habout
  · rw [d.events_perform_of_about?_eq_none hnone] at he
    cases he
  · exact (d.perform_about habout).1 event he

/-! ## Two channels

If each of two occurrences is on a channel of its own, they may happen in either order.  The states
need a word of their own, as both occurrences may report values for one field, and then the later
one wins: the states are what has been told, in the order in which it was. -/

/-- Both may happen in either order: the callers hear the same and the same is told of each, and all
that is left is the same, but for the states, which are what was told, in the order in which it was
told. -/
structure EitherOrder (d : Dispatcher) (o o' : Occurrence) : Prop where
  result : ((d.perform o').dispatcher.perform o).result = (d.perform o).result
  result' : ((d.perform o).dispatcher.perform o').result = (d.perform o').result
  events : ((d.perform o').dispatcher.perform o).events = (d.perform o).events
  events' : ((d.perform o).dispatcher.perform o').events = (d.perform o').events
  left : ∀ name, ((d.perform o).dispatcher.perform o').dispatcher.SameFor name
    ((d.perform o').dispatcher.perform o).dispatcher
  states : ((d.perform o).dispatcher.perform o').dispatcher.states =
    ((d.perform o).events ++ (d.perform o').events).foldl Event.amend d.states
  states' : ((d.perform o').dispatcher.perform o).dispatcher.states =
    ((d.perform o').events ++ (d.perform o).events).foldl Event.amend d.states

/-- The states change by what is told. -/
theorem Informed.states_perform {events : List Event} (h : d.Informed events) (o : Occurrence) :
    (d.perform o).dispatcher.states = (d.perform o).events.foldl Event.amend d.states := by
  have hafter : (d.perform o).dispatcher.states = statesOf (events ++ (d.perform o).events) :=
    (h.perform o).states
  rw [hafter, statesOf_append, ← h.states]

/-- **What happens on two channels without scripts may happen in either order.** -/
theorem perform_comm {o o' : Occurrence} {other : String} {events : List Event}
    (habout : o.about? = some name) (habout' : o'.about? = some other) (hne : name ≠ other)
    (hplain : d.PlainOn name) (hplain' : d.PlainOn other) (hinformed : d.Informed events) :
    d.EitherOrder o o' := by
  have hagree := perform_sameFor (d.perform_elsewhere habout' hne.symm) hplain
    (Occurrence.concerns_iff.2 (.inr habout))
  have hagree' := perform_sameFor (d.perform_elsewhere habout hne) hplain'
    (Occurrence.concerns_iff.2 (.inr habout'))
  refine ⟨hagree.result.symm, hagree'.result.symm, hagree.events.symm, hagree'.events.symm,
    fun name' => ?_, ?_, ?_⟩
  · by_cases hname : name = name'
    · subst hname
      exact ((d.perform o).dispatcher.perform_elsewhere habout' hne.symm).symm.trans
        hagree.dispatcher
    · by_cases hother : other = name'
      · subst hother
        exact hagree'.dispatcher.symm.trans
          ((d.perform o').dispatcher.perform_elsewhere habout hne)
      · -- the third channel sees neither
        have hseen := (d.perform_elsewhere habout hname).trans
          ((d.perform o).dispatcher.perform_elsewhere habout' hother)
        have hseen' := (d.perform_elsewhere habout' hother).trans
          ((d.perform o').dispatcher.perform_elsewhere habout hname)
        exact hseen.symm.trans hseen'
  · have hfirst : (d.perform o).dispatcher.Informed (events ++ (d.perform o).events) :=
      hinformed.perform o
    rw [hfirst.states_perform, hinformed.states_perform, List.foldl_append, ← hagree'.events]
  · have hfirst : (d.perform o').dispatcher.Informed (events ++ (d.perform o').events) :=
      hinformed.perform o'
    rw [hfirst.states_perform, hinformed.states_perform, List.foldl_append, ← hagree.events]

/-! ## Runs -/

/-- What the callers hear of the occurrences that matter to a channel. -/
def resultsFor (d : Dispatcher) (name : String) :
    List Occurrence → List (Except DispatchError Answer)
  | [] => []
  | o :: rest =>
    (if o.concerns name then [(d.perform o).result] else []) ++
      (d.perform o).dispatcher.resultsFor name rest

theorem run_sameFor (h : d.SameFor name d') (hplain : d.PlainOn name)
    (occurrences : List Occurrence)
    (hprofile : ∀ o ∈ occurrences, ∀ profile ∈ o.profile? name, profile.usesScript = false) :
    let fewer := occurrences.filter (·.concerns name)
    d.resultsFor name occurrences = d'.results fewer ∧
      (d.run occurrences).1.filter (·.channel = name) = (d'.run fewer).1 ∧
      (d.run occurrences).2.SameFor name (d'.run fewer).2 := by
  induction occurrences generalizing d d' with
  | nil => exact ⟨rfl, rfl, h⟩
  | cons o rest ih =>
    rw [List.forall_mem_cons] at hprofile
    have hnext := hplain.perform hprofile.1
    simp only [resultsFor, run_cons, List.filter_append]
    cases hconcerns : o.concerns name with
    | true =>
      have hagree := perform_sameFor h hplain hconcerns
      obtain ⟨hresults, hevents, hsame⟩ := ih hagree.dispatcher hnext hprofile.2
      have hown : (d.perform o).events.filter (·.channel = name) = (d.perform o).events :=
        List.filter_eq_self.2 fun event he => by simpa using channel_of_mem_perform hconcerns he
      simp only [List.filter_cons, hconcerns, if_true, results, run_cons]
      rw [hresults, hevents, hown, hagree.result, hagree.events]
      exact ⟨rfl, rfl, hsame⟩
    | false =>
      obtain ⟨other, habout, hne⟩ := Occurrence.concerns_eq_false_iff.1 hconcerns
      obtain ⟨hresults, hevents, hsame⟩ :=
        ih ((d.perform_elsewhere habout hne).symm.trans h) hnext hprofile.2
      have hnone : (d.perform o).events.filter (·.channel = name) = [] :=
        List.filter_eq_nil_iff.2 fun event he => by
          simpa [(d.perform_about habout).1 event he] using hne
      simp only [List.filter_cons, hconcerns]
      rw [hnone]
      exact ⟨hresults, hevents, hsame⟩

theorem plainOn_run (hplain : d.PlainOn name) (occurrences : List Occurrence)
    (hprofile : ∀ o ∈ occurrences, ∀ profile ∈ o.profile? name, profile.usesScript = false) :
    (d.run occurrences).2.PlainOn name := by
  induction occurrences generalizing d with
  | nil => exact hplain
  | cons o rest ih =>
    rw [List.forall_mem_cons] at hprofile
    exact ih (hplain.perform hprofile.1) hprofile.2

/-- **Channels do not disturb each other.**  Let two new dispatchers have in common all that is
about one channel, or about the dispatcher as a whole, but nothing else: on the other channels other
things may happen to the one than to the other, or nothing at all.  As long as the channel has no
script, its callers hear the same, the same is told of it, and in the end it is the same, with the
bytes it has not taken apart yet, its queue and its expectations.  And what happens next on two such
channels may happen in either order. -/
theorem run_undisturbed (occurrences others : List Occurrence) (name : String)
    (hsame : others.filter (·.concerns name) = occurrences.filter (·.concerns name))
    (hprofile : ∀ o ∈ occurrences, ∀ profile ∈ o.profile? name, profile.usesScript = false) :
    let d := (({} : Dispatcher).run occurrences).2
    ({} : Dispatcher).resultsFor name occurrences = ({} : Dispatcher).resultsFor name others ∧
      (({} : Dispatcher).run occurrences).1.filter (·.channel = name) =
        (({} : Dispatcher).run others).1.filter (·.channel = name) ∧
      d.channel? name = (({} : Dispatcher).run others).2.channel? name ∧
      ∀ other ≠ name,
        (∀ o ∈ occurrences, ∀ profile ∈ o.profile? other, profile.usesScript = false) →
          ∀ o o', o.about? = some name → o'.about? = some other → d.EitherOrder o o' := by
  intro d
  have hnew (name' : String) : ({} : Dispatcher).PlainOn name' := by
    intro channel hchannel
    cases hchannel
  have hprofile' : ∀ o ∈ others, ∀ profile ∈ o.profile? name, profile.usesScript = false := by
    intro o ho profile hadded
    have hmem : o ∈ others.filter (·.concerns name) :=
      List.mem_filter.2 ⟨ho, Occurrence.concerns_of_profile? hadded⟩
    rw [hsame] at hmem
    exact hprofile o (List.mem_filter.1 hmem).1 profile hadded
  obtain ⟨hresults, hevents, hleft⟩ :=
    run_sameFor (.refl name {}) (hnew name) occurrences hprofile
  obtain ⟨hresults', hevents', hleft'⟩ := run_sameFor (.refl name {}) (hnew name) others hprofile'
  rw [hsame] at hresults' hevents' hleft'
  refine ⟨hresults.trans hresults'.symm, hevents.trans hevents'.symm,
    hleft.channel.trans hleft'.channel.symm, ?_⟩
  intro other hne hother o o' habout habout'
  exact perform_comm habout habout' hne.symm (plainOn_run (hnew name) occurrences hprofile)
    (plainOn_run (hnew other) occurrences hother) (informed_run occurrences)

/-! ### Hall and porch -/

/-- The lamp is switched on in the hall and on the porch.  Frames come on both channels, in pieces,
and the transport asks for the commands of both. -/
def hallAndPorch : List Occurrence :=
  [.register lampDecoder,
    .addChannelConfig "hall" { rxHeader := [0xF2], rxLength := some 3 } none,
    .addChannelConfig "porch" { rxHeader := [0xF2], rxLength := some 3 } none,
    .send "hall" "lamp" "on" none .low 0 .calm,
    .send "porch" "lamp" "on" none .high 0 .calm,
    .feed "hall" [0xF2, 0] 1_000_000 {} [],
    .feed "porch" [0xF2, 0, 0, 0xF2] 1_000_000 {} [],
    .feed "hall" [0, 0xF2] 2_000_000 {} [],
    .next "porch" 2_000_000,
    .enqueue "porch" [0x02] .low,
    .send "hall" "lamp" "off" none .low 2_000_000 .calm]

/-- What is left of it if nothing happens on the porch. -/
def hallAlone : List Occurrence := hallAndPorch.filter (·.concerns "hall")

/-- In the hall the frame is told and the command acknowledged, whether or not anything happens on
the porch.  What has come of the next frame is the same, and so is what is queued and awaited.  And
then the next command for the hall may be taken before or after the porch hears something. -/
theorem run_undisturbed_of_hall :
    let d := (({} : Dispatcher).run hallAndPorch).2
    (({} : Dispatcher).run hallAndPorch).1.map Event.channel = ["porch", "porch", "hall", "hall"] ∧
      (({} : Dispatcher).run hallAlone).1.map Event.channel = ["hall", "hall"] ∧
      (({} : Dispatcher).run hallAndPorch).1.filter (·.channel = "hall") =
        (({} : Dispatcher).run hallAlone).1.filter (·.channel = "hall") ∧
      d.channel? "hall" = (({} : Dispatcher).run hallAlone).2.channel? "hall" ∧
      d.pendingCommands "hall" = 2 ∧ d.pendingAcks "hall" = 1 ∧
      d.EitherOrder (.next "hall" 3_000_000) (.feed "porch" [0, 0] 3_000_000 {} []) := by
  have hhall : ∀ o ∈ hallAndPorch, ∀ profile ∈ o.profile? "hall", profile.usesScript = false := by
    decide +kernel
  have hporch :
      ∀ o ∈ hallAndPorch, ∀ profile ∈ o.profile? "porch", profile.usesScript = false := by
    decide +kernel
  obtain ⟨-, hevents, hleft, horder⟩ := run_undisturbed hallAndPorch hallAlone "hall"
    (by simp [hallAlone, List.filter_filter]) hhall
  exact ⟨by decide +kernel, by decide +kernel, hevents, hleft, by decide +kernel, by decide +kernel,
    horder "porch" (by decide) hporch _ _ rfl rfl⟩

end Dispatcher
end Fieldbus
