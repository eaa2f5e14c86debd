import Fieldbus.Proofs.Dispatch.Effect

/-!
# No acknowledgement is forgotten

A command that is sent leaves an expectation behind, if its decoder says that the device will
acknowledge it.  Expectations are given up when they are overdue, and resolved when a frame
acknowledges them; `run_settles` says that each of them is either still open or was told, once, as
one of the two.

An *errand* is a command for an entity on a channel.  Expectations of the same errand cannot be told
apart, so they are counted: whatever takes some of them away tells as many events
(`Errand.openOn_expireAcks`, `Errand.openOn_settleAcksAmid`), and nothing else that can happen to a
dispatcher touches them (`Dispatcher.Settled.perform`).  The case to be excluded is that of an
expectation whose entity is not registered, which nobody could judge: it would be dropped without a
word.

## What is here

* `Errand.settledIn`, `Errand.openOn` — how many events settle an errand, how many expectations are
  open.
* `AllRegistered`, `ackVerdict_ne_orphaned` — every expectation has a judge, in whatever mood the
  decoders are.
* `Dispatcher.Settled` — a response accounts for the errand: what was open before, and what has been
  added, is open still or has been told.
* `Dispatcher.Settled.perform`, `.run` — every occurrence does, and every run.
* `Dispatcher.run_settles` — the main theorem.
-/

set_option autoImplicit false

namespace Fieldbus

/-! ## Errands

Two expectations of one errand differ in the time of sending at most, and events do not tell that
time.  So expectations and events are counted, errand by errand, and every count has to come out
even. -/

/-- A command for an entity, sent on a channel. -/
structure Errand where
  channel : String
  entity : String
  command : String
deriving DecidableEq, Repr

namespace Errand

/-- Is this an expectation of the errand, on its channel? -/
def leaves (x : Errand) (e : Expectation) : Bool := e.entity = x.entity && e.command = x.command

/-- The event that the errand was acknowledged. -/
def isAcked (x : Errand) : Event → Bool
  | .commandAcked channel entity command =>
    channel = x.channel && (entity = x.entity && command = x.command)
  | _ => false

/-- The event that the errand was not acknowledged in time. -/
def isTimedOut (x : Errand) : Event → Bool
  | .commandTimedOut channel entity command =>
    channel = x.channel && (entity = x.entity && command = x.command)
  | _ => false

/-- How many of the events settle an expectation of the errand. -/
def settledIn (x : Errand) (events : List Event) : Nat :=
  events.countP x.isAcked + events.countP x.isTimedOut

/-- How many of the expectations on a channel belong to the errand. -/
def openOn (x : Errand) (name : String) (expectations : List Expectation) : Nat :=
  if name = x.channel then expectations.countP x.leaves else 0

variable (x : Errand) (name : String)

@[simp] theorem settledIn_nil : x.settledIn [] = 0 := rfl

@[simp] theorem settledIn_append (earlier later : List Event) :
    x.settledIn (earlier ++ later) = x.settledIn earlier + x.settledIn later := by
  simp only [settledIn, List.countP_append]
  omega

@[simp] theorem openOn_nil : x.openOn name [] = 0 := by simp [openOn]

@[simp] theorem openOn_append (earlier later : List Expectation) :
    x.openOn name (earlier ++ later) = x.openOn name earlier + x.openOn name later := by
  simp only [openOn, List.countP_append]
  split <;> rfl

theorem openOn_singleton (e : Expectation) :
    x.openOn name [e] = if name = x.channel && x.leaves e then 1 else 0 := by
  rw [openOn, List.countP_singleton]
  by_cases hname : name = x.channel <;> simp [hname]

/-- Expectations that are given up are told, each of them once. -/
theorem settledIn_timedOut (expectations : List Expectation) :
    x.settledIn (expectations.map fun e => .commandTimedOut name e.entity e.command) =
      x.openOn name expectations := by
  have hacked : x.isAcked ∘ (fun e : Expectation => .commandTimedOut name e.entity e.command) =
      fun _ => false := rfl
  have htimedOut : x.isTimedOut ∘
      (fun e : Expectation => .commandTimedOut name e.entity e.command) =
        fun e => name = x.channel && x.leaves e := rfl
  rw [settledIn, List.countP_map, List.countP_map, hacked, htimedOut, openOn]
  by_cases h : name = x.channel <;> simp [h]

/-! ## What takes expectations away -/

theorem openOn_expireAcks (timeout : Nat) (now : Time) (expectations : List Expectation) :
    x.openOn name expectations =
      x.openOn name (expireAcks name timeout now expectations).2 +
        x.settledIn (expireAcks name timeout now expectations).1 := by
  rw [expireAcks, List.partition_eq_filter_filter]
  simp only [settledIn_timedOut, openOn]
  split
  · rw [expectations.countP_eq_countP_filter_add x.leaves fun e => e.isOverdue timeout now]
    exact Nat.add_comm _ _
  · rfl

/-- An expectation that a registered decoder judges is told or stays open. -/
theorem openOn_settleAcks {decoders : List Decoder} {frame : Frame} {e : Expectation}
    (h : ackVerdict decoders frame e ≠ .orphaned) :
    x.openOn name [e] =
      x.openOn name (settleAcks name decoders frame [e]).2 +
        x.settledIn (settleAcks name decoders frame [e]).1 := by
  rw [settleAcks]
  cases hverdict : ackVerdict decoders frame e with
  | acked =>
    by_cases hname : name = x.channel <;>
      by_cases hleaves : x.leaves e = true <;>
        simp_all [openOn, settledIn, isAcked, isTimedOut, leaves]
  | waiting => simp [openOn, settledIn, hverdict]
  | orphaned => exact absurd hverdict h

end Errand

/-! ## Nobody is left without a judge

An expectation is judged by the decoder of its entity, and if there is none it would be dropped in
silence.  That there always is one has two reasons: nothing is sent to an entity that is not
registered, and no decoder is ever removed.  A decoder in any mood keeps its name. -/

/-- Every expectation is one of a registered entity. -/
def AllRegistered (decoders : List Decoder) (expectations : List Expectation) : Prop :=
  ∀ e ∈ expectations, e.entity ∈ decoders.map Decoder.id

theorem AllRegistered.subset {decoders : List Decoder} {fewer expectations : List Expectation}
    (h : AllRegistered decoders expectations) (hsubset : fewer ⊆ expectations) :
    AllRegistered decoders fewer := fun e he => h e (hsubset he)

/-- A registered entity has a decoder to judge its expectations, in whatever mood. -/
theorem ackVerdict_ne_orphaned {decoders : List Decoder} {e : Expectation}
    (h : e.entity ∈ decoders.map Decoder.id) (mood : Mood) (frame : Frame) :
    ackVerdict (mood.sway decoders) frame e ≠ .orphaned := by
  rw [← mood.map_id_sway, List.mem_map] at h
  obtain ⟨decoder, hmem, hid⟩ := h
  unfold ackVerdict
  split
  · rename_i hfind
    exact absurd hid (by simpa using List.find?_eq_none.1 hfind decoder hmem)
  · split <;> simp

theorem settleAcks_subset (name : String) (decoders : List Decoder) (frame : Frame)
    (expectations : List Expectation) :
    (settleAcks name decoders frame expectations).2 ⊆ expectations :=
  List.filter_sublist.subset

theorem expireAcks_subset (name : String) (timeout : Nat) (now : Time)
    (expectations : List Expectation) :
    (expireAcks name timeout now expectations).2 ⊆ expectations := by
  rw [expireAcks, List.partition_eq_filter_filter]
  exact List.filter_sublist.subset

namespace Errand

variable (x : Errand) (name : String) {decoders : List Decoder}

/-- **Settling tells every expectation that it takes away.** -/
theorem openOn_settleAcksAmid (frame : Frame) (moods : List Mood) {expectations : List Expectation}
    (h : AllRegistered decoders expectations) :
    x.openOn name expectations =
        x.openOn name (settleAcksAmid name decoders frame moods expectations).2 +
          x.settledIn (settleAcksAmid name decoders frame moods expectations).1 ∧
      (settleAcksAmid name decoders frame moods expectations).2 ⊆ expectations := by
  induction expectations generalizing moods with
  | nil => exact ⟨by simp [settleAcksAmid], List.Subset.refl _⟩
  | cons e rest ih =>
    obtain ⟨hrest, hsubset⟩ := ih moods.tail (h.subset (List.subset_cons_self e rest))
    have hone := x.openOn_settleAcks name
      (ackVerdict_ne_orphaned (h e List.mem_cons_self) (moods.headD .calm) frame)
    have hcons := x.openOn_append name [e] rest
    simp only [settleAcksAmid, openOn_append, settledIn_append]
    refine ⟨?_, List.append_subset.2 ⟨?_, List.Subset.trans hsubset (List.subset_cons_self e rest)⟩⟩
    · rw [List.singleton_append] at hcons
      omega
    · exact List.Subset.trans (settleAcks_subset ..)
        (List.cons_subset.2 ⟨List.mem_cons_self, List.nil_subset _⟩)

/-! ## Frames -/

/-- What the decoders make of a frame settles nothing. -/
theorem settledIn_consult (decoders : List Decoder) (states : KeyMap Fields) (frame : Frame) :
    x.settledIn (consult name decoders states frame).events = 0 := by
  suffices h : ∀ c : Consultation, x.settledIn c.events = 0 →
      x.settledIn (decoders.foldl (Consultation.ask name frame) c).events = 0 from h _ rfl
  induction decoders with
  | nil => exact fun c hc => hc
  | cons decoder rest ih =>
    intro c hc
    refine ih _ ?_
    unfold Consultation.ask
    split
    · rw [settledIn_append, hc]; rfl
    · exact hc
    · exact hc
    · rw [settledIn_append, hc]; rfl

theorem openOn_dispatchFrameAmid (hearing : Hearing) (states : KeyMap Fields) (frame : Frame)
    {channel : Channel} (h : AllRegistered decoders channel.expectations) :
    let result := Dispatcher.dispatchFrameAmid name decoders hearing states channel frame
    x.openOn name channel.expectations =
        x.openOn name result.2.2.expectations + x.settledIn result.1 ∧
      result.2.2.expectations ⊆ channel.expectations := by
  unfold Dispatcher.dispatchFrameAmid
  split
  · exact ⟨rfl, List.Subset.refl _⟩
  · obtain ⟨hsettled, hsubset⟩ := x.openOn_settleAcksAmid name frame hearing.settling h
    refine ⟨?_, hsubset⟩
    have hunmatched : ∀ recognized : Bool,
        x.settledIn (if recognized then [] else [.unmatchedFrame name frame]) = 0 := by
      intro recognized
      cases recognized <;> rfl
    simp only [settledIn_append, settledIn_consult, hunmatched, Nat.zero_add]
    exact hsettled

theorem openOn_dispatchFramesAmid (hearings : List Hearing) (frames : List Frame)
    (states : KeyMap Fields) (channel : Channel)
    (h : AllRegistered decoders channel.expectations) :
    let result := Dispatcher.dispatchFramesAmid name decoders hearings frames states channel
    x.openOn name channel.expectations =
        x.openOn name result.2.2.expectations + x.settledIn result.1 ∧
      result.2.2.expectations ⊆ channel.expectations := by
  induction frames generalizing hearings states channel with
  | nil => exact ⟨rfl, List.Subset.refl _⟩
  | cons frame rest ih =>
    have hone := x.openOn_dispatchFrameAmid name (hearings.headD {}) states frame h
    simp only [Dispatcher.dispatchFramesAmid_cons, settledIn_append]
    generalize Dispatcher.dispatchFrameAmid name decoders (hearings.headD {}) states channel frame =
      first at hone ⊢
    obtain ⟨hrest, hsubset⟩ := ih hearings.tail first.2.1 first.2.2 (h.subset hone.2)
    exact ⟨by omega, List.Subset.trans hsubset hone.2⟩

end Errand

/-! ## Dispatchers

One relation, `Settled`, is enough for all operations: the errand's expectations before, and those
that were added, are as many as those after and those that were told.  An operation changes one
channel at most, so it is enough to count there. -/

namespace Dispatcher

/-- How many expectations of the errand are open. -/
def openAcks (d : Dispatcher) (x : Errand) : Nat :=
  (d.channel? x.channel).elim 0 fun channel => channel.expectations.countP x.leaves

/-- On no channel is there an expectation of an entity that is not registered. -/
def NoneOrphaned (d : Dispatcher) : Prop :=
  ∀ name channel, d.channel? name = some channel →
    AllRegistered d.decoders channel.expectations

/-- The response tells every expectation of the errand that it takes away, and there were `added`
new ones. -/
structure Settled (d : Dispatcher) (x : Errand) (added : Nat) {α : Type} (r : Response α) :
    Prop where
  openAcks : d.openAcks x + added = r.dispatcher.openAcks x + x.settledIn r.events
  noneOrphaned : r.dispatcher.NoneOrphaned

variable {d : Dispatcher} {x : Errand}

theorem NoneOrphaned.setChannel (h : d.NoneOrphaned) {name : String} {channel : Channel}
    (hchannel : AllRegistered d.decoders channel.expectations) :
    (d.setChannel name channel).NoneOrphaned := by
  intro name' channel' hfind
  rw [channel?_setChannel] at hfind
  split at hfind
  · cases hfind
    exact hchannel
  · exact h name' channel' hfind

theorem openAcks_setChannel (d : Dispatcher) (x : Errand) (name : String) (channel : Channel) :
    (d.setChannel name channel).openAcks x =
      if name = x.channel then channel.expectations.countP x.leaves else d.openAcks x := by
  rw [openAcks, channel?_setChannel]
  by_cases h : name = x.channel
  · rw [if_pos h.symm, if_pos h]; rfl
  · rw [if_neg (Ne.symm h), if_neg h]; rfl

/-- A change to one channel accounts for the errand if it does so on that channel. -/
theorem openAcks_of_openOn {name : String} {channel channel' : Channel} {added settled : Nat}
    (hchannel : d.channel? name = some channel)
    (h : x.openOn name channel.expectations + added =
      x.openOn name channel'.expectations + settled) :
    d.openAcks x + added = (d.setChannel name channel').openAcks x + settled := by
  rw [openAcks_setChannel]
  by_cases hname : name = x.channel
  · subst hname
    rw [openAcks, hchannel, if_pos rfl]
    simpa [Errand.openOn] using h
  · rw [if_neg hname]
    simpa [Errand.openOn, hname] using h

namespace Settled

theorem map {α β : Type} {r : Response α} {added : Nat} (h : d.Settled x added r) (f : α → β) :
    d.Settled x added (r.map f) := ⟨h.openAcks, h.noneOrphaned⟩

/-- What changes no channel settles nothing. -/
theorem mute {α : Type} (h : d.NoneOrphaned) (result : Except DispatchError α) :
    d.Settled x 0 { result, dispatcher := d } := ⟨rfl, h⟩

/-- A channel is changed in a way that leaves its expectations alone. -/
theorem setChannel {α : Type} (h : d.NoneOrphaned) {name : String} {channel : Channel}
    (hchannel : d.channel? name = some channel) (channel' : Channel)
    (hexpectations : channel'.expectations = channel.expectations)
    (result : Except DispatchError α) :
    d.Settled x 0 { result, dispatcher := d.setChannel name channel' } where
  openAcks := openAcks_of_openOn hchannel (by rw [hexpectations]; rfl)
  noneOrphaned := h.setChannel (hexpectations ▸ h name channel hchannel)

/-- On a new channel there are no expectations. -/
theorem add {α : Type} (h : d.NoneOrphaned) {name : String} (hnew : d.channel? name = none)
    {channel : Channel} (hexpectations : channel.expectations = [])
    (result : Except DispatchError α) :
    d.Settled x 0 { result, dispatcher := d.setChannel name channel } := by
  refine ⟨?_, h.setChannel (by rw [hexpectations]; exact fun e he => absurd he List.not_mem_nil)⟩
  show d.openAcks x = (d.setChannel name channel).openAcks x
  rw [openAcks_setChannel]
  by_cases hname : name = x.channel
  · subst hname
    rw [if_pos rfl, hexpectations, Dispatcher.openAcks, hnew]
    rfl
  · rw [if_neg hname]

/-- Frames are dispatched on a channel whose receiver has gone on. -/
theorem dispatchAmid (h : d.NoneOrphaned) {name : String} {channel : Channel}
    (hchannel : d.channel? name = some channel) (channel' : Channel)
    (hexpectations : channel'.expectations = channel.expectations) (frames : List Frame)
    (now : Time) (hearings : List Hearing) :
    d.Settled x 0 (d.dispatchAmid name channel' frames now hearings) := by
  have hregistered : AllRegistered d.decoders channel'.expectations :=
    hexpectations ▸ h name channel hchannel
  have hexpired := x.openOn_expireAcks name d.ackTimeout now channel'.expectations
  have hfewer := expireAcks_subset name d.ackTimeout now channel'.expectations
  rw [dispatchAmid_eq]
  generalize expireAcks name d.ackTimeout now channel'.expectations = expired at hexpired hfewer ⊢
  have hframes := x.openOn_dispatchFramesAmid name hearings frames d.states
    { channel' with expectations := expired.2 } (hregistered.subset hfewer)
  simp only at hframes ⊢
  generalize dispatchFramesAmid name d.decoders hearings frames d.states
    { channel' with expectations := expired.2 } = dispatched at hframes ⊢
  refine ⟨openAcks_of_openOn (d := { d with states := dispatched.2.1 }) hchannel ?_,
    NoneOrphaned.setChannel (d := { d with states := dispatched.2.1 }) h
      (hregistered.subset (List.Subset.trans hframes.2 hfewer))⟩
  rw [Errand.settledIn_append, ← hexpectations]
  omega

end Settled

/-! ## Sending

Only sending adds an expectation, and it adds one exactly if the command was built, queued, and is
to be acknowledged according to its decoder.  `awaits` reads this off the answer of the call, and
not off the dispatcher after it. -/

/-- Is this a command that is sent on the errand, without being refused, through a decoder that
expects an acknowledgement? -/
def awaits (d : Dispatcher) (x : Errand) : Occurrence → Bool
  | .send name entity command value priority now mood =>
    (name = x.channel && (entity = x.entity && command = x.command)) &&
      ((d.sendAmid name entity command value priority now mood).result.isOk &&
        ((d.sway mood).decoder? entity).any fun decoder => (decoder.expectsAck command).isTrue)
  | _ => false

/-- Nothing is awaited of an occurrence that is refused, or has another answer than sending. -/
theorem awaits_eq_false {o : Occurrence} {r : Response Answer} (hr : d.perform o = r)
    (hanswer : ∀ empty, r.result ≠ .ok (.wasEmpty empty)) : d.awaits x o = false := by
  subst hr
  cases o with
  | send name entity command value priority now mood =>
    rw [awaits]
    rw [perform] at hanswer
    cases hresult : (d.sendAmid name entity command value priority now mood).result with
    | error error => simp [Except.isOk, Except.toBool]
    | ok empty => exact absurd (by rw [Response.map, hresult]; rfl) (hanswer empty)
  | _ => rfl

/-- A command that is sent adds an expectation if it is awaited, and takes none away. -/
theorem Settled.send (h : d.NoneOrphaned) {name entity command : String} {value : Option Value}
    {channel : Channel} {decoder : Decoder} (priority : Priority) (now : Time) (mood : Mood)
    (hdecoder : (d.sway mood).decoder? entity = some decoder)
    (hchannel : d.channel? name = some channel)
    (hok : (d.sendAmid name entity command value priority now mood).result.isOk = true)
    (queue : CommandQueue) (result : Except DispatchError Answer) :
    d.Settled x
      (if d.awaits x (.send name entity command value priority now mood) then 1 else 0)
      { result
        dispatcher := d.setChannel name
          { channel with
            expectations := channel.expectations ++
              if (decoder.expectsAck command).isTrue then [⟨entity, command, now⟩] else []
            queue } } := by
  have hentity : entity ∈ d.decoders.map Decoder.id := by
    rw [← mood.map_id_sway]
    exact List.mem_map.2 ⟨decoder, List.mem_of_find?_eq_some hdecoder,
      by simpa using List.find?_some hdecoder⟩
  rw [awaits, hok, hdecoder, Option.any_some, Bool.true_and]
  refine ⟨openAcks_of_openOn hchannel ?_, h.setChannel ?_⟩
  · rw [Errand.openOn_append, Errand.settledIn_nil]
    cases (decoder.expectsAck command).isTrue with
    | false => simp
    | true =>
      rw [Bool.and_true, if_pos rfl, Errand.openOn_singleton, Errand.leaves]
      rfl
  · intro e he
    rcases List.mem_append.1 he with he | he
    · exact h name channel hchannel e he
    · split at he
      · rw [List.mem_singleton.1 he]
        exact hentity
      · cases he

/-! ## Runs -/

/-- **Whatever happens, every expectation that is taken away is told**, and none is left without a
judge. -/
theorem Settled.perform (h : d.NoneOrphaned) (o : Occurrence) :
    d.Settled x (if d.awaits x o then 1 else 0) (d.perform o) := by
  have heffect := d.effect_perform o
  generalize hr : d.perform o = r at heffect ⊢
  cases heffect with
  | refused error =>
    rw [awaits_eq_false hr fun _ hanswer => by cases hanswer]
    exact mute h _
  | registered decoder =>
    refine ⟨rfl, fun name channel hchannel e he => ?_⟩
    rw [become, register, List.map_append]
    exact List.mem_append_left _ (h name channel hchannel e he)
  | timed timeout => exact ⟨rfl, h⟩
  | added hnew hfresh =>
    rw [awaits_eq_false hr fun _ hanswer => by cases hanswer]
    exact add h hnew rfl _
  | received now hearings hchannel hframes =>
    rw [awaits_eq_false hr fun _ hanswer => by cases hanswer]
    refine map (dispatchAmid h hchannel _ ?_ _ now hearings) _
    rfl
  | queued command priority hchannel =>
    refine setChannel h hchannel _ ?_ _
    rfl
  | sent priority now mood hdecoder hchannel hbuild =>
    have hok := congrArg (fun r : Response Answer => r.result.isOk) hr
    exact send h priority now mood hdecoder hchannel ((Response.isOk_map ..).symm.trans hok) _ _
  | taken name channel now hchannel =>
    exact ⟨openAcks_of_openOn hchannel (x.openOn_expireAcks name d.ackTimeout now _),
      h.setChannel ((h name channel hchannel).subset (expireAcks_subset name _ _ _))⟩
  | idle move hmissing => exact mute h _
  | moved move hchannel =>
    refine setChannel h hchannel _ ?_ _
    rfl

/-- How many commands are sent on the errand, in a run, that are awaited. -/
def awaited (d : Dispatcher) (x : Errand) : List Occurrence → Nat
  | [] => 0
  | o :: rest => (if d.awaits x o then 1 else 0) + (d.perform o).dispatcher.awaited x rest

theorem Settled.run (h : d.NoneOrphaned) (occurrences : List Occurrence) :
    d.openAcks x + d.awaited x occurrences =
        (d.run occurrences).2.openAcks x + x.settledIn (d.run occurrences).1 ∧
      (d.run occurrences).2.NoneOrphaned := by
  induction occurrences generalizing d with
  | nil => exact ⟨rfl, h⟩
  | cons o rest ih =>
    obtain ⟨hopen, hnone⟩ := perform (x := x) h o
    obtain ⟨hrest, hnone⟩ := ih hnone
    refine ⟨?_, hnone⟩
    simp only [run_cons, Errand.settledIn_append, awaited]
    omega

/-- **No acknowledgement is forgotten, and none is told twice.**  Whatever happens to a new
dispatcher, with whatever decoders: as many awaited commands were sent on an errand as expectations
of it are open, as were told to be acknowledged, and as were told to have waited too long.  And on
no channel is there ever an expectation that nobody could judge, whatever frame comes next. -/
theorem run_settles (occurrences : List Occurrence) (x : Errand) :
    ({} : Dispatcher).awaited x occurrences =
        (({} : Dispatcher).run occurrences).2.openAcks x +
          (({} : Dispatcher).run occurrences).1.countP x.isAcked +
            (({} : Dispatcher).run occurrences).1.countP x.isTimedOut ∧
      ∀ name channel, (({} : Dispatcher).run occurrences).2.channel? name = some channel →
        ∀ e ∈ channel.expectations, ∀ (mood : Mood) (frame : Frame),
          ackVerdict (mood.sway (({} : Dispatcher).run occurrences).2.decoders) frame e ≠
            .orphaned := by
  have hnew : ({} : Dispatcher).NoneOrphaned := fun name channel hchannel => by cases hchannel
  obtain ⟨hcount, hnone⟩ := Settled.run (x := x) hnew occurrences
  have hnothing : ({} : Dispatcher).openAcks x = 0 := rfl
  refine ⟨?_, fun name channel hchannel e he mood frame =>
    ackVerdict_ne_orphaned (hnone name channel hchannel e he) mood frame⟩
  rw [Errand.settledIn, hnothing] at hcount
  omega

/-! ### Three commands -/

/-- Any frame acknowledges every command of the lamp, but none tells of it. -/
def lampDecoder : Decoder where
  id := "lamp"
  stateProxy := none
  matchesFrame _ := .returned (.ok false)
  parse _ := .returned (.ok none)
  buildCommand _ _ _ := .returned (some [0x01])
  expectsAck _ := .returned true
  matchesAck _ _ := .returned true

/-- The same command is sent three times.  The first one is overdue when the transport asks for a
command, the second one is acknowledged, and of the third nothing is heard. -/
def threeCommands : List Occurrence :=
  [.register lampDecoder,
    .addChannelConfig "hall" { rxHeader := [0xF2], rxLength := some 3 } none,
    .send "hall" "lamp" "on" none .low 0 .calm,
    .send "hall" "lamp" "on" none .high 4_000_000_000 .calm,
    .next "hall" 6_000_000_000,
    .feed "hall" [0xF2, 0, 0] 7_000_000_000 {} [],
    .send "hall" "lamp" "on" none .low 8_000_000_000 .calm]

/-- One of three is still open then, and the lamp is there to judge it. -/
theorem run_settles_of_three_commands :
    let x : Errand := ⟨"hall", "lamp", "on"⟩
    ({} : Dispatcher).awaited x threeCommands = 3 ∧
      (({} : Dispatcher).run threeCommands).1.countP x.isAcked = 1 ∧
      (({} : Dispatcher).run threeCommands).1.countP x.isTimedOut = 1 ∧
      (({} : Dispatcher).run threeCommands).2.openAcks x = 1 ∧
      ∃ channel, (({} : Dispatcher).run threeCommands).2.channel? "hall" = some channel ∧
        ⟨"lamp", "on", 8_000_000_000⟩ ∈ channel.expectations ∧
        ackVerdict (({} : Dispatcher).run threeCommands).2.decoders (.ofBytes [0xF2, 0, 0] 1)
          ⟨"lamp", "on", 8_000_000_000⟩ ≠ .orphaned := by
  intro x
  obtain ⟨hcount, hjudged⟩ := run_settles threeCommands x
  have hawaited : ({} : Dispatcher).awaited x threeCommands = 3 := by decide +kernel
  have hacked : (({} : Dispatcher).run threeCommands).1.countP x.isAcked = 1 := by decide +kernel
  have htimedOut : (({} : Dispatcher).run threeCommands).1.countP x.isTimedOut = 1 := by
    decide +kernel
  refine ⟨hawaited, hacked, htimedOut, by omega, _, rfl, List.mem_singleton.2 rfl, ?_⟩
  have hcalm := hjudged "hall" _ rfl _ (List.mem_singleton.2 rfl) .calm (.ofBytes [0xF2, 0, 0] 1)
  rwa [Mood.calm_sway] at hcalm

end Dispatcher
end Fieldbus
