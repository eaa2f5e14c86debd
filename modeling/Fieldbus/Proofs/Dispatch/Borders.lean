import Fieldbus.Proofs.Dispatch.Interference
import Fieldbus.Proofs.Reassembler.Chunking

/-!
# Borders between chunks

All frames of a chunk are found before the first of them is dispatched.  So a frame that changes the
state of an entity is heard by the scripts of its channel only after the rest of its chunk has been
taken apart, and then it matters where the chunk ends.

It does not matter as long as the scripts do not look at the state.  Nor does it matter if the
chunks are *prompt*: if only the last byte of a chunk ever completes a frame that reports fields.
Then a chunk is as good as its bytes, one after another.

## What is here

* `toldOfFrame` — what is told of a frame when nothing is awaited.  It depends on the frame only.
* `Ear` — what a channel has come to that takes its frames apart itself; `Ear.hear` and
  `Ear.hearAll` are what chunks do to it, and `Dispatcher.Hears` says that a dispatcher has such a
  channel.
* `Ear.hear_append` — two chunks are as good as one if the first one tells the scripts nothing that
  matters.
* `Ear.hearAll_of_alike`, `Ear.hearAll_of_prompt` — the two conditions.
* `Dispatcher.feed_borders` — so the events do not depend on the borders.
* `Dispatcher.not_always_borderless` — without such a condition they do.

## How it is proved

Two chunks and one chunk are taken apart alike as far as bytes are concerned: extracting from both
together is extracting from the first, and then from what is left with the second
(`RxFraming.extract_append`).  But that is about one snapshot, and after the first chunk the scripts
may have heard of another one.  Both conditions close this gap.  Either the two snapshots are alike
for the channel, or they are the same because nothing was reported.

For prompt chunks it does not do to compare two borders with each other, as either way of cutting
may put a report where the other has none.  So each is compared with the finest way of cutting, into
single bytes, which is the same for both.
-/

set_option autoImplicit false

namespace Fieldbus

/-! ## What is told of a frame

On a channel on which nothing is awaited, what is told of a frame depends on the frame and the
decoders alone.  The states and what the scripts have heard then follow from what is told, so a list
of frames can be cut anywhere. -/

/-- What is told of a frame of a channel on which no acknowledgement is awaited. -/
def toldOfFrame (rx : RxFraming) (name : String) (decoders : List Decoder) (frame : Frame) :
    List Event :=
  if !rx.acceptsLength frame.bytes.length then []
  else
    let c := consult name decoders [] frame
    c.events ++ if c.recognized then [] else [.unmatchedFrame name frame]

/-- What the scripts of a channel have been told after the events of some of its frames: the states
as they are by then, if any fields were reported. -/
def snapshotAfter (profile : ChannelProfile) (snapshot : Option Json) (states : KeyMap Fields)
    (events : List Event) : Option Json :=
  if events.any Event.isUpdate && profile.usesScript then
    some (Dispatcher.snapshotOf (events.foldl Event.amend states))
  else snapshot

theorem snapshotAfter_of_quiet {events : List Event} (profile : ChannelProfile)
    (snapshot : Option Json) (states : KeyMap Fields) (h : events.any Event.isUpdate = false) :
    snapshotAfter profile snapshot states events = snapshot := by
  rw [snapshotAfter, h]
  rfl

/-- Events that are told later are taken up where the earlier ones left off. -/
theorem snapshotAfter_append (profile : ChannelProfile) (snapshot : Option Json)
    (states : KeyMap Fields) (earlier later : List Event) :
    snapshotAfter profile snapshot states (earlier ++ later) =
      snapshotAfter profile (snapshotAfter profile snapshot states earlier)
        (earlier.foldl Event.amend states) later := by
  cases hlater : later.any Event.isUpdate with
  | true =>
    rw [snapshotAfter, snapshotAfter, List.any_append, hlater, Bool.or_true, List.foldl_append]
    cases hscript : profile.usesScript with
    | true => rfl
    | false => simp [snapshotAfter, hscript]
  | false =>
    rw [snapshotAfter_of_quiet _ _ _ hlater, snapshotAfter, snapshotAfter, List.any_append, hlater,
      Bool.or_false, List.foldl_append, foldl_amend_of_quiet hlater]

namespace Dispatcher

variable {name : String} {decoders : List Decoder} {channel : Channel}

/-- **A frame is told, and the states and scripts follow what is told.** -/
theorem dispatchFrame_eq_told (states : KeyMap Fields) (frame : Frame)
    (hacks : channel.expectations = []) :
    let events := toldOfFrame channel.profile.rx name decoders frame
    let after := events.foldl Event.amend states
    dispatchFrame name decoders states channel frame =
      (events, after,
        { channel with
          receiver :=
            if events.any Event.isUpdate && channel.profile.usesScript then
              channel.receiver.setSnapshot (snapshotOf after)
            else channel.receiver }) := by
  intro events after
  unfold dispatchFrame
  split
  · rename_i hlength
    have hnone : events = [] := if_pos hlength
    simp only [after, hnone]
    rfl
  · rename_i hlength
    have htells := tells_consult name decoders states frame
    have hsame := consult_sameButStates name decoders states [] frame
    have hquiet : Quiet name (if (consult name decoders states frame).recognized then []
        else [.unmatchedFrame name frame]) := by
      intro event he
      split at he
      · cases he
      · rw [List.mem_singleton.1 he]
        exact ⟨rfl, rfl⟩
    have hall := htells.append hquiet
    have hevents : events = (consult name decoders states frame).events ++
        if (consult name decoders states frame).recognized then []
          else [.unmatchedFrame name frame] := by
      rw [hsame.events, hsame.recognized]
      exact if_neg hlength
    rw [← hevents] at hall
    have hafter : (consult name decoders states frame).states = after := hall.states
    have hupdated : (consult name decoders states frame).updated = events.any Event.isUpdate :=
      hall.updated
    obtain ⟨profile, receiver, queue, expectations⟩ := channel
    obtain rfl : expectations = [] := hacks
    simp only [settleAcks, List.filterMap_nil, List.filter_nil, List.append_nil, hafter, hupdated,
      ← hevents]

/-- The frames of a channel without scripts: all that is told, and the states after it. -/
theorem dispatchFrames_of_plain (frames : List Frame) (states : KeyMap Fields)
    (hacks : channel.expectations = []) (hplain : channel.profile.usesScript = false) :
    let events := frames.flatMap (toldOfFrame channel.profile.rx name decoders)
    dispatchFrames name decoders frames states channel =
      (events, events.foldl Event.amend states, channel) := by
  induction frames generalizing states with
  | nil => rfl
  | cons frame rest ih =>
    simp only [dispatchFrames, dispatchFrame_eq_told states frame hacks, hplain, Bool.and_false,
      List.flatMap_cons, List.foldl_append]
    have hrest := ih ((toldOfFrame channel.profile.rx name decoders frame).foldl Event.amend states)
    simp only at hrest
    simp only [Bool.false_eq_true, if_false, hrest]

/-- The frames of a channel that takes them apart itself: its scripts are told the states as they
are after all frames, if any frame of the channel reports fields. -/
theorem dispatchFrames_of_inProcess (frames : List Frame) (states : KeyMap Fields)
    (profile : ChannelProfile) (r : Reassembler) (queue : CommandQueue) :
    let events := frames.flatMap (toldOfFrame profile.rx name decoders)
    let after := events.foldl Event.amend states
    dispatchFrames name decoders frames states { profile, receiver := .inProcess r, queue } =
      (events, after,
        { profile
          receiver := .inProcess { r with
            snapshot := snapshotAfter profile r.snapshot states events }
          queue }) := by
  induction frames generalizing states r with
  | nil => rfl
  | cons frame rest ih =>
    let told := toldOfFrame profile.rx name decoders frame
    have hfirst : dispatchFrame name decoders states { profile, receiver := .inProcess r, queue }
        frame = (told, told.foldl Event.amend states,
          { profile
            receiver :=
              .inProcess { r with snapshot := snapshotAfter profile r.snapshot states told }
            queue }) := by
      rw [dispatchFrame_eq_told states frame rfl, snapshotAfter]
      split <;> rfl
    rw [dispatchFrames, hfirst]
    simp only [ih, List.flatMap_cons, List.foldl_append, snapshotAfter_append]
    rfl

end Dispatcher

/-! ## Chunks

An `Ear` is what is left of a channel when times and expectations are set aside: the bytes kept,
what the scripts have heard, and the states.  Two chunks differ from one in a single respect: the
second is taken apart with what the scripts have heard by then.  So they are as good as one if
nothing new was heard, or if what was heard does not matter to the checksums. -/

/-- What a channel has come to that takes its frames apart itself: the bytes that do not yet form a
frame, what its scripts have been told, and the states of the entities. -/
structure Ear where
  pending : Bytes
  snapshot : Option Json
  states : KeyMap Fields

namespace Ear

variable (profile : ChannelProfile) (name : String) (decoders : List Decoder)

/-- A chunk comes, not too late: what is told of its frames, and what the channel has come to
then. -/
def hear (ear : Ear) (chunk : Bytes) : List Event × Ear :=
  let (frames, pending) := profile.rx.extract ear.snapshot (ear.pending ++ chunk)
  let events := frames.flatMap (toldOfFrame profile.rx name decoders)
  (events,
    { pending
      snapshot := snapshotAfter profile ear.snapshot ear.states events
      states := events.foldl Event.amend ear.states })

/-- Chunks come one after another. -/
def hearAll (ear : Ear) : List Bytes → List Event × Ear
  | [] => ([], ear)
  | chunk :: rest =>
    let (events, ear) := ear.hear profile name decoders chunk
    let (more, ear) := hearAll ear rest
    (events ++ more, ear)

/-- No chunk is empty, and only the last byte of a chunk completes frames that report fields. -/
def Prompt (ear : Ear) : List Bytes → Prop
  | [] => True
  | chunk :: rest =>
    chunk ≠ [] ∧
      (ear.hear profile name decoders chunk.dropLast).1.any Event.isUpdate = false ∧
        Prompt (ear.hear profile name decoders chunk).2 rest

variable {profile name decoders}

theorem hearAll_cons (ear : Ear) (chunk : Bytes) (rest : List Bytes) :
    ear.hearAll profile name decoders (chunk :: rest) =
      ((ear.hear profile name decoders chunk).1 ++
          ((ear.hear profile name decoders chunk).2.hearAll profile name decoders rest).1,
        ((ear.hear profile name decoders chunk).2.hearAll profile name decoders rest).2) := rfl

theorem hearAll_append (ear : Ear) (earlier later : List Bytes) :
    ear.hearAll profile name decoders (earlier ++ later) =
      ((ear.hearAll profile name decoders earlier).1 ++
          ((ear.hearAll profile name decoders earlier).2.hearAll profile name decoders later).1,
        ((ear.hearAll profile name decoders earlier).2.hearAll profile name decoders later).2) := by
  induction earlier generalizing ear with
  | nil => rfl
  | cons chunk rest ih => rw [List.cons_append, hearAll_cons, hearAll_cons, ih, List.append_assoc]

/-- **Two chunks are as good as one**, if the first one tells the scripts nothing that matters. -/
theorem hear_append (ear : Ear) (earlier later : Bytes)
    (h : profile.rx.Alike (ear.hear profile name decoders earlier).2.snapshot ear.snapshot) :
    ear.hear profile name decoders (earlier ++ later) =
      ((ear.hear profile name decoders earlier).1 ++
          ((ear.hear profile name decoders earlier).2.hear profile name decoders later).1,
        ((ear.hear profile name decoders earlier).2.hear profile name decoders later).2) := by
  have hlater := h ((ear.hear profile name decoders earlier).2.pending ++ later)
  simp only [hear] at hlater ⊢
  simp only [hlater, ← List.append_assoc, RxFraming.extract_append profile.rx ear.snapshot
    (ear.pending ++ earlier) later, List.flatMap_append, List.foldl_append, snapshotAfter_append]

/-- What has been told of a chunk is told of a longer one first. -/
theorem hear_isPrefix (ear : Ear) (earlier later : Bytes) :
    (ear.hear profile name decoders earlier).1 <+:
      (ear.hear profile name decoders (earlier ++ later)).1 := by
  simp only [hear, ← List.append_assoc, RxFraming.extract_append profile.rx ear.snapshot
    (ear.pending ++ earlier) later, List.flatMap_append]
  exact List.prefix_append _ _

/-- A chunk of which nothing is told to the scripts. -/
theorem snapshot_hear_of_quiet (ear : Ear) {chunk : Bytes}
    (h : (ear.hear profile name decoders chunk).1.any Event.isUpdate = false) :
    (ear.hear profile name decoders chunk).2.snapshot = ear.snapshot :=
  snapshotAfter_of_quiet profile ear.snapshot ear.states h

/-! ### Scripts that do not look -/

/-- **If no script looks at the states, chunks are as good as one.** -/
theorem hearAll_of_alike (hrx : ∀ s t, profile.rx.Alike s t) (ear : Ear) (chunks : List Bytes)
    (hready : profile.rx.extract ear.snapshot ear.pending = ([], ear.pending)) :
    ear.hearAll profile name decoders chunks =
      ear.hear profile name decoders chunks.flatten := by
  induction chunks generalizing ear with
  | nil =>
    simp only [hearAll, hear, List.flatten_nil, List.append_nil, hready]
    rfl
  | cons chunk rest ih =>
    have hleft : profile.rx.extract (ear.hear profile name decoders chunk).2.snapshot
        (ear.hear profile name decoders chunk).2.pending =
          ([], (ear.hear profile name decoders chunk).2.pending) := by
      rw [hrx _ ear.snapshot]
      exact RxFraming.extract_left profile.rx ear.snapshot (ear.pending ++ chunk)
    rw [hearAll_cons, List.flatten_cons, hear_append ear chunk _ (hrx _ _), ih _ hleft]

/-! ### Prompt chunks

Before the last byte of a prompt chunk nothing is told to the scripts, and so nothing is told to
them after its first byte either.  That byte may as well come alone, and what is left of the chunk
is prompt again for what the channel has come to by then. -/

/-- A chunk of which the scripts hear by its last byte only is as good as its bytes. -/
theorem hear_concat_of_quiet (ear : Ear) (front : Bytes) (b : UInt8)
    (hquiet : (ear.hear profile name decoders front).1.any Event.isUpdate = false) :
    ear.hear profile name decoders (front ++ [b]) =
      ear.hearAll profile name decoders ((front ++ [b]).map ([·])) := by
  induction front generalizing ear with
  | nil =>
    simp only [List.nil_append, List.map_cons, List.map_nil, hearAll_cons, hearAll, List.append_nil]
  | cons c rest ih =>
    have hfirst : (ear.hear profile name decoders [c]).1.any Event.isUpdate = false := by
      obtain ⟨later, hlater⟩ : (ear.hear profile name decoders [c]).1 <+:
        (ear.hear profile name decoders (c :: rest)).1 := ear.hear_isPrefix [c] rest
      rw [← hlater, List.any_append, Bool.or_eq_false_iff] at hquiet
      exact hquiet.1
    have hsame : profile.rx.Alike (ear.hear profile name decoders [c]).2.snapshot ear.snapshot := by
      rw [snapshot_hear_of_quiet ear hfirst]
      exact .refl _ _
    have hsplit := hear_append ear [c] rest hsame
    have hsplit' := hear_append ear [c] (rest ++ [b]) hsame
    rw [List.singleton_append] at hsplit hsplit'
    rw [hsplit, List.any_append, Bool.or_eq_false_iff] at hquiet
    rw [List.cons_append, hsplit', List.map_cons, hearAll_cons, ih _ hquiet.2]

/-- **Prompt chunks are as good as their bytes, one after another.** -/
theorem hearAll_of_prompt (ear : Ear) (chunks : List Bytes)
    (hprompt : ear.Prompt profile name decoders chunks) :
    ear.hearAll profile name decoders chunks =
      ear.hearAll profile name decoders (chunks.flatten.map ([·])) := by
  induction chunks generalizing ear with
  | nil => rfl
  | cons chunk rest ih =>
    obtain ⟨hne, hquiet, hrest⟩ := hprompt
    have hchunk := hear_concat_of_quiet ear chunk.dropLast (chunk.getLast hne) hquiet
    rw [List.dropLast_append_getLast] at hchunk
    rw [hearAll_cons, ih _ hrest, List.flatten_cons, List.map_append, hearAll_append, ← hchunk]

end Ear

/-! ## Dispatchers -/

/-- How the given calls occur to a dispatcher with decoders that do not change their minds. -/
def feedsOf (name : String) (calls : List (Bytes × Time)) : List Occurrence :=
  calls.map fun (chunk, now) => .feed name chunk now {} []

/-- None of the calls comes too late for what is kept by then, the last chunk having come at the
given time. -/
def RxFraming.Gapless (rx : RxFraming) : Option Time → List (Bytes × Time) → Prop
  | _, [] => True
  | arrival, (_, now) :: rest =>
    (arrival.any fun last => Time.ofMillis rx.timeout < Time.elapsed last now) = false ∧
      Gapless rx (some now) rest

/-- The channel takes its frames apart itself, nothing is awaited on it, and what it keeps holds no
frame. -/
structure Channel.Listens (channel : Channel) (r : Reassembler) : Prop where
  receiver : channel.receiver = .inProcess r
  framing : r.framing = channel.profile.rx
  expectations : channel.expectations = []
  ready : r.framing.extract r.snapshot r.pending = ([], r.pending)

/-- A channel that has just been added listens. -/
theorem Channel.listens_ofProfile (profile : ChannelProfile) :
    (Channel.ofProfile profile (.inProcess { framing := profile.rx })).Listens
      { framing := profile.rx } := ⟨rfl, rfl, rfl, rfl⟩

namespace Dispatcher

/-- Every chunk is promptly heard: it is not empty, and before its last byte comes it completes no
frame that reports fields. -/
def Prompt (d : Dispatcher) (name : String) : List (Bytes × Time) → Prop
  | [] => True
  | (chunk, now) :: rest =>
    chunk ≠ [] ∧ (d.feed name chunk.dropLast now).events.any Event.isUpdate = false ∧
      Prompt (d.feed name chunk now).dispatcher name rest

/-- The dispatcher has such a channel, on which the last chunk came at that time. -/
structure Hears (d : Dispatcher) (name : String) (profile : ChannelProfile)
    (decoders : List Decoder) (arrival : Option Time) (ear : Ear) : Prop where
  channel : ∃ queue, d.channel? name = some
    { profile
      receiver := .inProcess
        { framing := profile.rx, pending := ear.pending, lastArrival := arrival,
          snapshot := ear.snapshot }
      queue }
  decoders : d.decoders = decoders
  states : d.states = ear.states

variable {d : Dispatcher} {name : String} {profile : ChannelProfile} {decoders : List Decoder}
variable {arrival : Option Time} {ear : Ear}

/-- **Such a channel hears a chunk** that comes in time. -/
theorem Hears.feed (h : d.Hears name profile decoders arrival ear) (chunk : Bytes) {now : Time}
    (hstale : (arrival.any fun last => Time.ofMillis profile.rx.timeout < Time.elapsed last now) =
      false) :
    (d.feed name chunk now).events = (ear.hear profile name decoders chunk).1 ∧
      (d.feed name chunk now).dispatcher.Hears name profile decoders (some now)
        (ear.hear profile name decoders chunk).2 := by
  obtain ⟨⟨queue, hchannel⟩, rfl, hstates⟩ := h
  let r : Reassembler :=
    { framing := profile.rx, pending := ear.pending, lastArrival := arrival,
      snapshot := ear.snapshot }
  have hfeed : d.feed name chunk now =
      d.dispatch name
        { profile
          receiver := .inProcess { r with
            pending := (profile.rx.extract ear.snapshot (r.kept now ++ chunk)).2
            lastArrival := some now }
          queue }
        (profile.rx.extract ear.snapshot (r.kept now ++ chunk)).1 now := by
    rw [Dispatcher.feed, hchannel]
    rfl
  rw [Reassembler.kept_of_not_stale (show r.isStale now = false from hstale)] at hfeed
  rw [hfeed, dispatch]
  have hnone : expireAcks name d.ackTimeout now [] = ([], []) := rfl
  simp only [hnone, List.nil_append, dispatchFrames_of_inProcess, hstates]
  refine ⟨rfl, ⟨queue, ?_⟩, rfl, rfl⟩
  rw [channel?_setChannel, if_pos rfl]
  rfl

/-- And so it hears all chunks that come in time. -/
theorem Hears.run (h : d.Hears name profile decoders arrival ear) (calls : List (Bytes × Time))
    (hgapless : profile.rx.Gapless arrival calls) :
    let heard := ear.hearAll profile name decoders (calls.map Prod.fst)
    (d.run (feedsOf name calls)).1 = heard.1 ∧
      ∃ arrival', (d.run (feedsOf name calls)).2.Hears name profile decoders arrival' heard.2 := by
  induction calls generalizing d arrival ear with
  | nil => exact ⟨rfl, arrival, h⟩
  | cons call rest ih =>
    obtain ⟨chunk, now⟩ := call
    obtain ⟨hstale, hrest⟩ := hgapless
    obtain ⟨hevents, hnext⟩ := h.feed chunk hstale
    obtain ⟨hmore, hlast⟩ := ih hnext hrest
    have hrun : d.run (feedsOf name ((chunk, now) :: rest)) =
        ((d.feed name chunk now).events ++
            ((d.feed name chunk now).dispatcher.run (feedsOf name rest)).1,
          ((d.feed name chunk now).dispatcher.run (feedsOf name rest)).2) := by
      rw [feedsOf, List.map_cons, run_cons, perform_feed]
      rfl
    rw [hrun, List.map_cons, Ear.hearAll_cons, hevents, hmore]
    exact ⟨rfl, hlast⟩

/-- It hears promptly what the dispatcher hears promptly. -/
theorem Hears.prompt (h : d.Hears name profile decoders arrival ear) (calls : List (Bytes × Time))
    (hgapless : profile.rx.Gapless arrival calls) (hprompt : d.Prompt name calls) :
    ear.Prompt profile name decoders (calls.map Prod.fst) := by
  induction calls generalizing d arrival ear with
  | nil => trivial
  | cons call rest ih =>
    obtain ⟨chunk, now⟩ := call
    obtain ⟨hstale, hgapless⟩ := hgapless
    obtain ⟨hne, hquiet, hrest⟩ := hprompt
    rw [(h.feed chunk.dropLast hstale).1] at hquiet
    exact ⟨hne, hquiet, ih (h.feed chunk hstale).2 hgapless hrest⟩

/-- A channel that listens hears. -/
theorem hears_of_listens {channel : Channel} {r : Reassembler}
    (hchannel : d.channel? name = some channel) (hlistens : channel.Listens r) :
    d.Hears name channel.profile d.decoders r.lastArrival ⟨r.pending, r.snapshot, d.states⟩ := by
  refine ⟨⟨channel.queue, ?_⟩, rfl, rfl⟩
  obtain ⟨profile, receiver, queue, expectations⟩ := channel
  obtain ⟨framing, pending, lastArrival, snapshot⟩ := r
  obtain rfl : receiver = _ := hlistens.receiver
  obtain rfl : framing = profile.rx := hlistens.framing
  obtain rfl : expectations = [] := hlistens.expectations
  exact hchannel

/-- **Borders between chunks make no difference**, if the checksum does not look at the states, as
none of the built-in ones does, or if the chunks are promptly heard however the stream is cut.  Let
the same bytes come to a channel in two ways, in time, while nothing is awaited on it: the same
events are told, the states are the same in the end, and the channel has come to the same. -/
theorem feed_borders (d : Dispatcher) (name : String) (channel : Channel) (r : Reassembler)
    (calls others : List (Bytes × Time)) (hchannel : d.channel? name = some channel)
    (hlistens : channel.Listens r) (hgapless : r.framing.Gapless r.lastArrival calls)
    (hgapless' : r.framing.Gapless r.lastArrival others)
    (hjoined : Fieldbus.joined others = Fieldbus.joined calls)
    (hscript : (∀ s t, r.framing.Alike s t) ∨ d.Prompt name calls ∧ d.Prompt name others) :
    (d.run (feedsOf name others)).1 = (d.run (feedsOf name calls)).1 ∧
      (d.run (feedsOf name others)).2.states = (d.run (feedsOf name calls)).2.states ∧
      ∃ ear arrival arrival',
        (d.run (feedsOf name calls)).2.Hears name channel.profile d.decoders arrival ear ∧
          (d.run (feedsOf name others)).2.Hears name channel.profile d.decoders arrival' ear := by
  have hears := hears_of_listens hchannel hlistens
  have hready := hlistens.ready
  rw [hlistens.framing] at hgapless hgapless' hscript hready
  have hflatten : (others.map Prod.fst).flatten = (calls.map Prod.fst).flatten := hjoined
  obtain ⟨hevents, arrival, hlast⟩ := hears.run calls hgapless
  obtain ⟨hevents', arrival', hlast'⟩ := hears.run others hgapless'
  have hsame : Ear.hearAll channel.profile name d.decoders ⟨r.pending, r.snapshot, d.states⟩
        (others.map Prod.fst) =
      Ear.hearAll channel.profile name d.decoders ⟨r.pending, r.snapshot, d.states⟩
        (calls.map Prod.fst) := by
    rcases hscript with halike | ⟨hprompt, hprompt'⟩
    · rw [Ear.hearAll_of_alike halike _ _ hready, Ear.hearAll_of_alike halike _ _ hready, hflatten]
    · rw [Ear.hearAll_of_prompt _ _ (hears.prompt calls hgapless hprompt),
        Ear.hearAll_of_prompt _ _ (hears.prompt others hgapless' hprompt'), hflatten]
  rw [hsame] at hevents' hlast'
  exact ⟨hevents'.trans hevents.symm, hlast'.states.trans hlast.states.symm, _, arrival, arrival',
    hlast, hlast'⟩

/-! ### Two frames -/

/-- A script that asks for the level of the tank, which is zero as long as nobody knows it. -/
def levelScript : Evaluator := fun _ input =>
  .answer (match input.snapshot with
    | some (.object [("tank", .object [("level", level)])]) => level
    | _ => .number (.integer 0))

/-- A lamp whose frames are verified by the level that its last frame reported. -/
def levelLamp : Dispatcher :=
  (({} : Dispatcher).run
    [.register tankDecoder,
      .addChannelConfig "lamp"
        { rxHeader := [0xF2], rxLength := some 3, rxChecksum := some (.script "level") }
        (some levelScript)]).2

/-- Two frames that come in chunks that end with a frame, or with a part of one: both are heard. -/
theorem feed_borders_of_level :
    let calls := [([0xF2, 1, 0], 0), ([0xF2, 2, 1], 1)]
    let others := [([0xF2], 0), ([1, 0], 1), ([0xF2, 2], 2), ([1], 3)]
    (levelLamp.run (feedsOf "lamp" others)).1 = (levelLamp.run (feedsOf "lamp" calls)).1 ∧
      (levelLamp.run (feedsOf "lamp" others)).2.states =
        (levelLamp.run (feedsOf "lamp" calls)).2.states ∧
      (levelLamp.run (feedsOf "lamp" calls)).1.map Event.kind =
        ["state_update", "state_update"] := by
  intro calls others
  have hcalls : levelLamp.Prompt "lamp" calls :=
    ⟨List.cons_ne_nil _ _, by decide +kernel, List.cons_ne_nil _ _, by decide +kernel, trivial⟩
  have hothers : levelLamp.Prompt "lamp" others :=
    ⟨List.cons_ne_nil _ _, by decide +kernel, List.cons_ne_nil _ _, by decide +kernel,
      List.cons_ne_nil _ _, by decide +kernel, List.cons_ne_nil _ _, by decide +kernel, trivial⟩
  obtain ⟨hevents, hstates, -⟩ := feed_borders levelLamp "lamp" _ _ calls others rfl
    (Channel.listens_ofProfile _) ⟨rfl, rfl, trivial⟩ ⟨rfl, rfl, rfl, rfl, trivial⟩ rfl
    (.inr ⟨hcalls, hothers⟩)
  exact ⟨hevents, hstates, by decide +kernel⟩

/-- In one piece only the first of them is heard: the second one has been looked for before the
level was known. -/
theorem not_always_borderless :
    ¬∀ (d : Dispatcher) (name : String) (channel : Channel) (r : Reassembler)
      (calls others : List (Bytes × Time)), d.channel? name = some channel → channel.Listens r →
        r.framing.Gapless r.lastArrival calls → r.framing.Gapless r.lastArrival others →
          Fieldbus.joined others = Fieldbus.joined calls →
            (d.run (feedsOf name others)).1 = (d.run (feedsOf name calls)).1 := by
  intro h
  have hevents := h levelLamp "lamp" _ _ [([0xF2, 1, 0], 0), ([0xF2, 2, 1], 1)]
    [([0xF2, 1, 0, 0xF2, 2, 1], 0)] rfl (Channel.listens_ofProfile _) ⟨rfl, rfl, trivial⟩
    ⟨rfl, trivial⟩ rfl
  exact absurd (congrArg List.length hevents) (by decide +kernel)

end Dispatcher
end Fieldbus
