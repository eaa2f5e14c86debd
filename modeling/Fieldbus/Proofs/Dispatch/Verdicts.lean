import Fieldbus.Proofs.Dispatch.Interference
import Mathlib.Data.List.Perm.Basic

/-!
# When a wait for an acknowledgement ends

A command that is to be acknowledged is waited for from the call on that sends it, and the time that
it may take is counted from there.  The command itself goes into a queue, and what becomes of it
there does not matter for the wait: a frame may be taken for the acknowledgement, or the time may be
over, while the transport has not yet asked for the command.

## What is here

* `Verdict`, `Ends` — how waits end on a channel, and that each end is told once.
* `ends_expireAcks`, `ends_settleAcksAmid`, `ends_dispatchFramesAmid` — what ends a wait: the time,
  and frames.
* `Dispatcher.Justifies` — the reasons for a verdict, and `ends_perform`: nothing ends a wait
  without one.
* `Sending`, `Wait` — calls and waits by their places in a run.  Commands that look alike may be
  waited for at the same time, so it is the places that tell which wait has ended.
* `Dispatcher.run_waits`, `Dispatcher.run_verdicts` — what holds of a whole run.
* `Dispatcher.not_only_after_taken` — both kinds of verdict, with the command still in the queue.

## How it is proved

One relation does for everything that can happen: `Ends` says of the waits before, the events and
the waits after that some waits have ended, each for a reason and each told once, and that the
others go on.  It holds of the smallest steps, giving up what is overdue and judging by one frame,
and `Ends.append` carries it from there to all the frames of a call and to a whole occurrence.

From occurrences to runs something is lost if only expectations are compared.  A command may be sent
twice at the same time, and then the two expectations are equal; which of the two calls is meant by
a verdict cannot be read off the dispatcher, and does not matter.  So `run_waits` does not follow
expectations but the calls, and gives each verdict some call that still waits for it.
-/

set_option autoImplicit false

namespace Fieldbus

/-! ## Verdicts

Waits do not end in the order in which they began: a frame may acknowledge a command that was sent
after another one.  So `Ends` compares the waits before and after as bags, while the events that
tell of the ended ones keep their order. -/

/-- How the wait for an acknowledgement ended. -/
structure Verdict where
  expectation : Expectation
  /-- Was the command acknowledged?  Else it has waited too long. -/
  acked : Bool

/-- The event that tells a verdict. -/
def Verdict.event (name : String) (v : Verdict) : Event :=
  if v.acked then .commandAcked name v.expectation.entity v.expectation.command
  else .commandTimedOut name v.expectation.entity v.expectation.command

/-- Does the event tell a verdict on the channel? -/
def Event.isVerdictOn (name : String) : Event → Bool
  | .commandAcked channel _ _ => channel = name
  | .commandTimedOut channel _ _ => channel = name
  | _ => false

theorem Verdict.isVerdictOn_event (name : String) (v : Verdict) :
    (v.event name).isVerdictOn name = true := by
  rw [event]
  split <;> simp [Event.isVerdictOn]

theorem Event.channel_of_isVerdictOn {name : String} {event : Event}
    (h : event.isVerdictOn name = true) : event.channel = name := by
  cases event with
  | commandAcked channel entity command => exact of_decide_eq_true h
  | commandTimedOut channel entity command => exact of_decide_eq_true h
  | _ => cases h

/-- Some waits have ended, each of them for a reason and told once, in the order of the events; the
others go on. -/
def Ends (name : String) (reason : Verdict → Prop) (before : List Expectation)
    (events : List Event) (after : List Expectation) : Prop :=
  ∃ ended : List Verdict,
    events.filter (·.isVerdictOn name) = ended.map (·.event name) ∧
      before.Perm (ended.map Verdict.expectation ++ after) ∧ ∀ v ∈ ended, reason v

namespace Ends

variable {name : String} {reason reason' : Verdict → Prop}
variable {before between after : List Expectation} {events later : List Event}

/-- Nothing is told, and all waits go on. -/
theorem none (h : ∀ event ∈ events, event.isVerdictOn name = false) :
    Ends name reason before events before := by
  refine ⟨[], ?_, .refl _, fun v hv => absurd hv List.not_mem_nil⟩
  rw [List.filter_eq_nil_iff.2 fun event he => by simp [h event he]]
  rfl

theorem append (h : Ends name reason before events between)
    (hlater : Ends name reason between later after) :
    Ends name reason before (events ++ later) after := by
  obtain ⟨ended, hevents, hperm, hreason⟩ := h
  obtain ⟨ended', hevents', hperm', hreason'⟩ := hlater
  refine ⟨ended ++ ended', ?_, ?_, ?_⟩
  · rw [List.filter_append, hevents, hevents', List.map_append]
  · rw [List.map_append, List.append_assoc]
    exact hperm.trans (hperm'.append_left _)
  · intro v hv
    exact (List.mem_append.1 hv).elim (hreason v) (hreason' v)

theorem mono (h : Ends name reason before events after) (hreason : ∀ v, reason v → reason' v) :
    Ends name reason' before events after := by
  obtain ⟨ended, hevents, hperm, hended⟩ := h
  exact ⟨ended, hevents, hperm, fun v hv => hreason v (hended v hv)⟩

/-- No wait is new. -/
theorem subset (h : Ends name reason before events after) : after ⊆ before := by
  obtain ⟨ended, -, hperm, -⟩ := h
  intro e he
  exact hperm.mem_iff.2 (List.mem_append_right _ he)

end Ends

/-! ## What ends a wait

There are two reasons only, the time and a frame.  The time is looked at first, once for all the
waits of a channel and before any frame of the call, so that no frame can save a wait that is
overdue.  What remains is judged frame by frame. -/

/-- Those that are overdue end, and are told. -/
theorem ends_expireAcks (name : String) (timeout : Nat) (now : Time)
    (expectations : List Expectation) :
    Ends name (fun v => v.acked = false ∧ v.expectation.isOverdue timeout now = true) expectations
      (expireAcks name timeout now expectations).1
      (expireAcks name timeout now expectations).2 := by
  let overdue := expectations.filter fun e => e.isOverdue timeout now
  refine ⟨overdue.map fun e => ⟨e, false⟩, ?_, ?_, ?_⟩
  · rw [expireAcks, List.partition_eq_filter_filter, List.map_map]
    refine List.filter_eq_self.2 fun event he => ?_
    obtain ⟨e, -, rfl⟩ := List.mem_map.1 he
    exact Verdict.isVerdictOn_event name ⟨e, false⟩
  · rw [expireAcks, List.partition_eq_filter_filter, List.map_map]
    have hsame : (Verdict.expectation ∘ fun e => ⟨e, false⟩) = id := rfl
    rw [hsame, List.map_id]
    exact (List.filter_append_perm _ expectations).symm
  · intro v hv
    obtain ⟨e, he, rfl⟩ := List.mem_map.1 hv
    exact ⟨rfl, (List.mem_filter.1 he).2⟩

/-- The frame is taken for the acknowledgement by decoders in one of the moods. -/
def AckedBy (decoders : List Decoder) (moods : List Mood) (frames : List Frame) (v : Verdict) :
    Prop :=
  v.acked = true ∧ ∃ frame ∈ frames, ∃ mood ∈ moods,
    ackVerdict (mood.sway decoders) frame v.expectation = .acked

variable (name : String) {decoders : List Decoder}

theorem AckedBy.mono {moods moods' : List Mood} {frames frames' : List Frame} {v : Verdict}
    (h : AckedBy decoders moods frames v) (hmoods : moods ⊆ moods') (hframes : frames ⊆ frames') :
    AckedBy decoders moods' frames' v := by
  obtain ⟨hacked, frame, hframe, mood, hmood, hverdict⟩ := h
  exact ⟨hacked, frame, hframes hframe, mood, hmoods hmood, hverdict⟩

/-- Those that a frame acknowledges end, and are told. -/
theorem ends_settleAcksAmid (frame : Frame) (moods : List Mood) {expectations : List Expectation}
    (h : AllRegistered decoders expectations) :
    Ends name (AckedBy decoders (.calm :: moods) [frame]) expectations
      (settleAcksAmid name decoders frame moods expectations).1
      (settleAcksAmid name decoders frame moods expectations).2 := by
  induction expectations generalizing moods with
  | nil => exact .none fun event he => absurd he List.not_mem_nil
  | cons e rest ih =>
    have htail : Mood.calm :: moods.tail ⊆ .calm :: moods :=
      List.cons_subset_cons _ (List.tail_sublist moods).subset
    have hhead : moods.headD .calm ∈ Mood.calm :: moods := by
      cases moods with
      | nil => exact List.mem_cons_self
      | cons mood moods => exact List.mem_cons_of_mem _ List.mem_cons_self
    obtain ⟨ended, hevents, hperm, hreason⟩ :=
      (ih moods.tail (h.subset (List.subset_cons_self e rest))).mono
        fun v hv => hv.mono htail (List.Subset.refl _)
    have hjudged := ackVerdict_ne_orphaned (h e List.mem_cons_self) (moods.headD .calm) frame
    rw [settleAcksAmid]
    cases hverdict : ackVerdict ((moods.headD .calm).sway decoders) frame e with
    | orphaned => exact absurd hverdict hjudged
    | acked =>
      refine ⟨⟨e, true⟩ :: ended, ?_, ?_, ?_⟩
      · simp only [settleAcks, List.filterMap_cons, hverdict, if_true, List.filterMap_nil,
          List.singleton_append, List.filter_cons, List.map_cons, hevents]
        exact if_pos (Verdict.isVerdictOn_event name ⟨e, true⟩)
      · simp only [settleAcks, List.filter_cons, hverdict, List.filter_nil]
        exact hperm.cons e
      · rw [List.forall_mem_cons]
        exact ⟨⟨rfl, frame, List.mem_singleton_self _, _, hhead, hverdict⟩, hreason⟩
    | waiting =>
      refine ⟨ended, ?_, ?_, hreason⟩
      · simp only [settleAcks, List.filterMap_cons, hverdict, List.filterMap_nil]
        exact hevents
      · simp only [settleAcks, List.filter_cons, hverdict, List.filter_nil]
        exact (hperm.cons e).trans List.perm_middle.symm

/-! ## Frames

A frame whose length is out of bounds is dropped before any decoder sees it and ends nothing.  What
decoders report about a frame tells no verdict; the verdicts come after that, from expectations that
are asked one by one, each of them in a mood of its own. -/

theorem isVerdictOn_consult (decoders : List Decoder) (states : KeyMap Fields) (frame : Frame) :
    ∀ event ∈ (consult name decoders states frame).events, event.isVerdictOn name = false := by
  suffices h : ∀ c : Consultation, (∀ event ∈ c.events, event.isVerdictOn name = false) →
      ∀ event ∈ (decoders.foldl (Consultation.ask name frame) c).events,
        event.isVerdictOn name = false from
    h _ fun event he => absurd he List.not_mem_nil
  induction decoders with
  | nil => exact fun c hc => hc
  | cons decoder rest ih =>
    intro c hc
    refine ih _ fun event he => ?_
    unfold Consultation.ask at he
    split at he
    · rcases List.mem_append.1 he with he | he
      · exact hc event he
      · rw [List.mem_singleton.1 he]
        rfl
    · exact hc event he
    · exact hc event he
    · rcases List.mem_append.1 he with he | he
      · exact hc event he
      · rw [List.mem_singleton.1 he]
        rfl

/-- A frame ends waits if it is within bounds, and if it acknowledges them. -/
theorem ends_dispatchFrameAmid (hearing : Hearing) (states : KeyMap Fields) (frame : Frame)
    {channel : Channel} (h : AllRegistered decoders channel.expectations) :
    let result := Dispatcher.dispatchFrameAmid name decoders hearing states channel frame
    Ends name
      (AckedBy decoders (.calm :: hearing.settling)
        ((shownOf name channel.profile.rx [hearing] [frame]).map (·.frame)))
      channel.expectations result.1 result.2.2.expectations := by
  unfold Dispatcher.dispatchFrameAmid
  by_cases haccepts : channel.profile.rx.acceptsLength frame.bytes.length = true
  · have hshown : (shownOf name channel.profile.rx [hearing] [frame]).map (·.frame) = [frame] := by
      simp [shownOf, haccepts]
    rw [if_neg (by simp [haccepts]), hshown]
    refine Ends.append (.none fun event he => ?_)
      (ends_settleAcksAmid name frame hearing.settling h)
    rcases List.mem_append.1 he with he | he
    · exact isVerdictOn_consult name _ states frame event he
    · split at he
      · cases he
      · rw [List.mem_singleton.1 he]
        rfl
  · rw [if_pos (by simp [haccepts])]
    exact .none fun event he => absurd he List.not_mem_nil

theorem ends_dispatchFramesAmid (hearings : List Hearing) (frames : List Frame)
    (states : KeyMap Fields) (channel : Channel)
    (h : AllRegistered decoders channel.expectations) :
    let result := Dispatcher.dispatchFramesAmid name decoders hearings frames states channel
    Ends name
      (AckedBy decoders (.calm :: hearings.flatMap Hearing.settling)
        ((shownOf name channel.profile.rx hearings frames).map (·.frame)))
      channel.expectations result.1 result.2.2.expectations := by
  induction frames generalizing hearings states channel with
  | nil => exact .none fun event he => absurd he List.not_mem_nil
  | cons frame rest ih =>
    have hshown : shownOf name channel.profile.rx hearings (frame :: rest) =
        shownOf name channel.profile.rx [hearings.headD {}] [frame] ++
          shownOf name channel.profile.rx hearings.tail rest := by
      simp [shownOf]
    have hhead : Mood.calm :: (hearings.headD {}).settling ⊆
        .calm :: hearings.flatMap Hearing.settling := by
      refine List.cons_subset_cons _ ?_
      cases hearings with
      | nil => exact List.nil_subset _
      | cons hearing rest => exact List.subset_append_left _ _
    have htail : Mood.calm :: hearings.tail.flatMap Hearing.settling ⊆
        .calm :: hearings.flatMap Hearing.settling := by
      refine List.cons_subset_cons _ ?_
      cases hearings with
      | nil => exact List.nil_subset _
      | cons hearing rest => exact List.subset_append_right _ _
    have hone := ends_dispatchFrameAmid name (hearings.headD {}) states frame h
    have hprofile := Dispatcher.profile_dispatchFrameAmid name decoders (hearings.headD {}) states
      channel frame
    simp only [Dispatcher.dispatchFramesAmid_cons, hshown, List.map_append] at hone ⊢
    generalize Dispatcher.dispatchFrameAmid name decoders (hearings.headD {}) states channel frame =
      first at hone hprofile ⊢
    have hrest := ih hearings.tail first.2.1 first.2.2 (h.subset hone.subset)
    rw [hprofile] at hrest
    exact (hone.mono fun v hv => hv.mono hhead (List.subset_append_left _ _)).append
      (hrest.mono fun v hv => hv.mono htail (List.subset_append_right _ _))

/-! ## Dispatchers

The reasons are now said of the dispatcher and of what happens to it (`Justifies`).  Of all that can
happen only what is about the channel can end a wait on it (`ends_elsewhere`), and of that only what
hands frames to the decoders or asks for a command.  Sending ends no wait and may begin one.  The
queue and the worker do not matter here, which is why nothing is said about when the transport takes
a command. -/

namespace Occurrence

/-- The time of what happens, if it has one. -/
def time? : Occurrence → Option Time
  | .feed _ _ now _ _ => some now
  | .poll _ now _ _ => some now
  | .flush _ now _ _ => some now
  | .send _ _ _ _ _ now _ => some now
  | .next _ now => some now
  | _ => none

/-- The moods in which expectations are judged. -/
def settlings : Occurrence → List Mood
  | .feed _ _ _ _ hearings => .calm :: hearings.flatMap Hearing.settling
  | .poll _ _ _ hearings => .calm :: hearings.flatMap Hearing.settling
  | .flush _ _ _ hearings => .calm :: hearings.flatMap Hearing.settling
  | _ => []

end Occurrence

namespace Dispatcher

/-- The acknowledgements that are awaited on a channel. -/
def expectationsOn (d : Dispatcher) (name : String) : List Expectation :=
  (d.channel? name).elim [] (·.expectations)

/-- What is awaited of a command that is sent on the channel. -/
def sent? (d : Dispatcher) (name : String) : Occurrence → Option Expectation
  | .send name' entity command value priority now mood =>
    if d.awaits ⟨name, entity, command⟩ (.send name' entity command value priority now mood) then
      some ⟨entity, command, now⟩
    else none
  | _ => none

/-- The reasons for a verdict: a frame that the decoders get to see is taken for the
acknowledgement, or the command has waited too long by now. -/
inductive Justifies (d : Dispatcher) (o : Occurrence) : Verdict → Prop
  | acked {e : Expectation} {s : Showing} {mood : Mood} (hshown : s ∈ d.shown o)
      (hmood : mood ∈ o.settlings)
      (hverdict : ackVerdict (mood.sway d.decoders) s.frame e = .acked) : Justifies d o ⟨e, true⟩
  | overdue {e : Expectation} {now : Time} (hnow : o.time? = some now)
      (hoverdue : e.isOverdue d.ackTimeout now = true) : Justifies d o ⟨e, false⟩

variable {d : Dispatcher} {name : String}

theorem expectationsOn_setChannel (d : Dispatcher) (name name' : String) (channel : Channel) :
    (d.setChannel name' channel).expectationsOn name =
      if name = name' then channel.expectations else d.expectationsOn name := by
  rw [expectationsOn, channel?_setChannel]
  split <;> rfl

/-- Frames are taken from the channel and dispatched. -/
theorem ends_receive (h : d.NoneOrphaned) {o : Occurrence} {now : Time}
    {take : Receiver → List Frame × Receiver} {hearings : List Hearing}
    (hshown : d.shown o = d.shownBy name take hearings)
    (hsettlings : o.settlings = .calm :: hearings.flatMap Hearing.settling)
    (htime : o.time? = some now) :
    Ends name (d.Justifies o) (d.expectationsOn name) (d.receive name take now hearings).events
      ((d.receive name take now hearings).dispatcher.expectationsOn name) := by
  unfold receive
  cases hchannel : d.channel? name with
  | none => exact .none fun event he => absurd he List.not_mem_nil
  | some channel =>
    have hregistered := h name channel hchannel
    have hexpired := ends_expireAcks name d.ackTimeout now channel.expectations
    have hframes := ends_dispatchFramesAmid name hearings (take channel.receiver).1 d.states
      { channel with
        receiver := (take channel.receiver).2
        expectations := (expireAcks name d.ackTimeout now channel.expectations).2 }
      (hregistered.subset hexpired.subset)
    have hbefore : d.expectationsOn name = channel.expectations := by
      rw [expectationsOn, hchannel]
      rfl
    simp only [dispatchAmid_eq, expectationsOn_setChannel, if_true, hbefore]
    refine (hexpired.mono ?_).append (hframes.mono ?_)
    · rintro ⟨e, acked⟩ ⟨hacked, hoverdue⟩
      obtain rfl : acked = false := hacked
      exact .overdue htime hoverdue
    · rintro ⟨e, acked⟩ ⟨hacked, frame, hframe, mood, hmood, hverdict⟩
      obtain rfl : acked = true := hacked
      obtain ⟨s, hs, rfl⟩ := List.mem_map.1 hframe
      refine .acked ?_ (hsettlings ▸ hmood) hverdict
      rw [hshown, shownBy, hchannel]
      exact hs

/-- On a new channel nothing is awaited. -/
theorem expectationsOn_insertChannel (d : Dispatcher) (name name' : String)
    (profile : ChannelProfile) (receiver : Receiver) :
    (d.insertChannel name' (.ofProfile profile receiver)).dispatcher.expectationsOn name =
      d.expectationsOn name := by
  unfold insertChannel
  split
  · rfl
  · rename_i hnew
    show (d.setChannel name' (.ofProfile profile receiver)).expectationsOn name = _
    rw [expectationsOn_setChannel]
    split
    · rename_i hname
      have hnone : d.channel? name = none := by
        rw [hname]
        simpa [KeyMap.contains, channel?] using hnew
      rw [expectationsOn, hnone]
      rfl
    · rfl

/-- What is not about the channel leaves alone what is awaited on it, and tells no verdict on it. -/
theorem ends_elsewhere (d : Dispatcher) {o : Occurrence} (habout : o.about? ≠ some name) :
    (∀ event ∈ (d.perform o).events, event.isVerdictOn name = false) ∧
      (d.perform o).dispatcher.expectationsOn name = d.expectationsOn name ∧
      d.sent? name o = none := by
  cases hother : o.about? with
  | some other =>
    have hne : other ≠ name := by
      rintro rfl
      exact habout hother
    refine ⟨fun event he => ?_, ?_, ?_⟩
    · rw [← Bool.not_eq_true]
      intro hverdict
      exact hne (((d.perform_about hother).1 event he).symm.trans
        (Event.channel_of_isVerdictOn hverdict))
    · rw [expectationsOn, expectationsOn, (d.perform_elsewhere hother hne).channel]
    · cases o with
      | send name' entity command value priority now mood =>
        obtain rfl : name' = other := Option.some.inj hother
        simp [sent?, awaits, hne]
      | _ => rfl
  | none =>
    rw [d.events_perform_of_about?_eq_none hother]
    refine ⟨fun event he => absurd he List.not_mem_nil, ?_, ?_⟩
    · cases o with
      | register decoder => rfl
      | setAckTimeout timeout => rfl
      | addChannel name' profile => exact expectationsOn_insertChannel d name name' profile _
      | addChannelConfig name' config evaluator =>
        rw [perform, addChannelConfig]
        cases config.resolve evaluator with
        | error cause => rfl
        | ok profile => exact expectationsOn_insertChannel d name name' profile _
      | addOffloadedChannel name' profile config aided =>
        exact expectationsOn_insertChannel d name name' profile _
      | _ => cases hother
    · cases o with
      | send name' entity command value priority now mood => cases hother
      | _ => rfl

/-- A command that is sent ends no wait, and begins one if it is to be acknowledged. -/
theorem ends_send (d : Dispatcher) (name entity command : String) (value : Option Value)
    (priority : Priority) (now : Time) (mood : Mood) :
    let o := Occurrence.send name entity command value priority now mood
    (d.perform o).events = [] ∧
      (d.perform o).dispatcher.expectationsOn name =
        d.expectationsOn name ++ (d.sent? name o).toList := by
  intro o
  have hsent : d.sent? name o =
      if (d.sendAmid name entity command value priority now mood).result.isOk &&
          ((d.sway mood).decoder? entity).any fun decoder =>
            (decoder.expectsAck command).isTrue then
        some ⟨entity, command, now⟩
      else none := by
    simp only [o, sent?, awaits, decide_true, Bool.true_and]
  have hperform : d.perform o =
      (d.sendAmid name entity command value priority now mood).map .wasEmpty := rfl
  rw [hsent, hperform, sendAmid]
  rcases (d.sway mood).send_cases name entity command value priority now with
    ⟨error, hsend⟩ | ⟨decoder, channel, frame, hdecoder, hchannel, -, hsend⟩
  · rw [hsend]
    exact ⟨rfl, (List.append_nil _).symm⟩
  · rw [hsend, hdecoder, Option.any_some]
    refine ⟨rfl, ?_⟩
    have hbefore : d.expectationsOn name = channel.expectations := by
      rw [expectationsOn, show d.channel? name = some channel from hchannel]
      rfl
    rw [hbefore]
    refine ((expectationsOn_setChannel d name name _).trans (if_pos rfl)).trans ?_
    cases (decoder.expectsAck command).isTrue <;> rfl

/-- When the transport asks for a command, those that have waited too long end. -/
theorem ends_next (d : Dispatcher) (name : String) (now : Time) :
    Ends name (d.Justifies (.next name now)) (d.expectationsOn name)
      (d.perform (.next name now)).events
      ((d.perform (.next name now)).dispatcher.expectationsOn name) := by
  rw [perform, next]
  cases hchannel : d.channel? name with
  | none => exact .none fun event he => absurd he List.not_mem_nil
  | some channel =>
    have hbefore : d.expectationsOn name = channel.expectations := by
      rw [expectationsOn, hchannel]
      rfl
    simp only [Response.map, expectationsOn_setChannel, if_true, hbefore]
    refine (ends_expireAcks name d.ackTimeout now channel.expectations).mono ?_
    rintro ⟨e, acked⟩ ⟨hacked, hoverdue⟩
    obtain rfl : acked = false := hacked
    exact .overdue rfl hoverdue

/-- A channel that is replaced by one with the same expectations. -/
theorem expectationsOn_replace {channel : Channel} (hchannel : d.channel? name = some channel)
    (channel' : Channel) (hsame : channel'.expectations = channel.expectations) :
    (d.setChannel name channel').expectationsOn name = d.expectationsOn name := by
  rw [expectationsOn_setChannel, if_pos rfl, hsame, expectationsOn, hchannel]
  rfl

/-- A command in the queue has nothing to do with those that were sent. -/
theorem ends_enqueue (d : Dispatcher) (name : String) (command : Bytes) (priority : Priority) :
    (d.perform (.enqueue name command priority)).events = [] ∧
      (d.perform (.enqueue name command priority)).dispatcher.expectationsOn name =
        d.expectationsOn name := by
  rw [perform, enqueue]
  cases hchannel : d.channel? name with
  | none => exact ⟨rfl, rfl⟩
  | some channel => exact ⟨rfl, expectationsOn_replace hchannel _ rfl⟩

/-- What the worker does has nothing to do with the commands that were sent, as long as nobody
looks. -/
theorem ends_work (d : Dispatcher) (name : String) (move : WorkerMove) :
    (d.perform (.work name move)).events = [] ∧
      (d.perform (.work name move)).dispatcher.expectationsOn name = d.expectationsOn name := by
  rw [perform, moveWorker]
  cases hchannel : d.channel? name with
  | none => exact ⟨rfl, rfl⟩
  | some channel => exact ⟨rfl, expectationsOn_replace hchannel _ rfl⟩

/-- **What an occurrence can do to the waits on a channel.**  It ends some of them, if it is about
the channel and there is a reason for each, and then it may begin a new one. -/
theorem ends_perform (h : d.NoneOrphaned) (name : String) (o : Occurrence) :
    ∃ left, Ends name (fun v => o.about? = some name ∧ d.Justifies o v) (d.expectationsOn name)
        (d.perform o).events left ∧
      (d.perform o).dispatcher.expectationsOn name = left ++ (d.sent? name o).toList := by
  by_cases habout : o.about? = some name
  · have hown {left : List Expectation} (hends : Ends name (d.Justifies o) (d.expectationsOn name)
        (d.perform o).events left) :
        Ends name (fun v => o.about? = some name ∧ d.Justifies o v) (d.expectationsOn name)
          (d.perform o).events left := hends.mono fun v hv => ⟨habout, hv⟩
    have hquiet (hevents : (d.perform o).events = []) :
        Ends name (d.Justifies o) (d.expectationsOn name) (d.perform o).events
          (d.expectationsOn name) := by
      rw [hevents]
      exact .none fun event he => absurd he List.not_mem_nil
    cases o with
    | feed name' bytes now meanwhile hearings =>
      obtain rfl : name' = name := Option.some.inj habout
      exact ⟨_, hown (ends_receive h rfl rfl rfl), (List.append_nil _).symm⟩
    | poll name' now meanwhile hearings =>
      obtain rfl : name' = name := Option.some.inj habout
      exact ⟨_, hown (ends_receive h rfl rfl rfl), (List.append_nil _).symm⟩
    | flush name' now meanwhile hearings =>
      obtain rfl : name' = name := Option.some.inj habout
      exact ⟨_, hown (ends_receive h rfl rfl rfl), (List.append_nil _).symm⟩
    | send name' entity command value priority now mood =>
      obtain rfl : name' = name := Option.some.inj habout
      obtain ⟨hevents, hleft⟩ := d.ends_send name' entity command value priority now mood
      exact ⟨_, hown (hquiet hevents), hleft⟩
    | next name' now =>
      obtain rfl : name' = name := Option.some.inj habout
      exact ⟨_, hown (ends_next d name' now), (List.append_nil _).symm⟩
    | enqueue name' command priority =>
      obtain rfl : name' = name := Option.some.inj habout
      obtain ⟨hevents, hleft⟩ := d.ends_enqueue name' command priority
      exact ⟨_, hown (hquiet hevents), hleft.trans (List.append_nil _).symm⟩
    | work name' move =>
      obtain rfl : name' = name := Option.some.inj habout
      obtain ⟨hevents, hleft⟩ := d.ends_work name' move
      exact ⟨_, hown (hquiet hevents), hleft.trans (List.append_nil _).symm⟩
    | _ => cases habout
  · obtain ⟨hevents, hsame, hsent⟩ := d.ends_elsewhere habout
    refine ⟨_, .none hevents, ?_⟩
    rw [hsame, hsent]
    exact (List.append_nil _).symm

end Dispatcher

/-! ## Runs

A call is known by its place in the run, which tells calls apart that send the same command at the
same time.  `exists_waits_perform` turns what is known about a bag of expectations into the same
about a bag of calls with these expectations; any matching of the two will do.  From there on
`run_waits` is an induction on the run, with the calls that still wait as its invariant. -/

/-- A command that was sent and is to be acknowledged: the place of the call in the run, and what is
awaited. -/
structure Sending where
  place : Nat
  expectation : Expectation

/-- A wait that has ended: the call with which it began, how it ended, and the place in the run of
what told it. -/
structure Wait where
  sending : Sending
  acked : Bool
  place : Nat

/-- How the wait ended. -/
def Wait.verdict (w : Wait) : Verdict := ⟨w.sending.expectation, w.acked⟩

/-- What is told after the call, at its place in the run. -/
def Wait.notice (name : String) (w : Wait) : Nat × Event := (w.place, w.verdict.event name)

/-- Verdicts about the expectations of the calls are verdicts about the calls. -/
theorem exists_waits (place : Nat) {sendings : List Sending} {verdicts : List Verdict}
    (h : sendings.map (·.expectation) = verdicts.map (·.expectation)) :
    ∃ waits : List Wait, waits.map (·.sending) = sendings ∧ waits.map (·.verdict) = verdicts ∧
      ∀ w ∈ waits, w.place = place := by
  induction sendings generalizing verdicts with
  | nil =>
    obtain rfl : verdicts = [] := List.map_eq_nil_iff.1 h.symm
    exact ⟨[], rfl, rfl, fun w hw => absurd hw List.not_mem_nil⟩
  | cons sending rest ih =>
    cases verdicts with
    | nil => cases h
    | cons verdict verdicts =>
      obtain ⟨expectation, acked⟩ := verdict
      obtain ⟨hhead, htail⟩ := List.cons_eq_cons.1 h
      obtain ⟨waits, hsendings, hverdicts, hplace⟩ := ih htail
      refine ⟨⟨sending, acked, place⟩ :: waits, ?_, ?_, ?_⟩
      · rw [List.map_cons, hsendings]
      · obtain rfl : sending.expectation = expectation := hhead
        rw [List.map_cons, hverdicts]
        rfl
      · rw [List.forall_mem_cons]
        exact ⟨rfl, hplace⟩

/-- A list whose image is another one in a different order can be put into that order. -/
theorem exists_perm_of_map_perm {α β : Type} {f : α → β} {l : List α} {m : List β}
    (h : (l.map f).Perm m) : ∃ l', l.Perm l' ∧ l'.map f = m := by
  have hsame : List.Forall₂ (fun b a => f a = b) (l.map f) l := by
    rw [List.forall₂_map_left_iff, List.forall₂_same]
    exact fun a _ => rfl
  obtain ⟨l', hl', hperm⟩ := List.perm_comp_forall₂ h.symm hsame
  refine ⟨l', hperm.symm, ?_⟩
  rw [← List.forall₂_eq_eq_eq, List.forall₂_map_left_iff]
  exact hl'.flip

namespace Dispatcher

variable {d : Dispatcher} {name : String}

/-- The commands sent on the channel that are to be acknowledged, in a run that begins at the
place. -/
def sendings (d : Dispatcher) (name : String) (place : Nat) : List Occurrence → List Sending
  | [] => []
  | o :: rest =>
    (d.sent? name o).toList.map (Sending.mk place) ++
      (d.perform o).dispatcher.sendings name (place + 1) rest

/-- The verdicts told on the channel, each with the place of what told it. -/
def notices (d : Dispatcher) (name : String) (place : Nat) : List Occurrence → List (Nat × Event)
  | [] => []
  | o :: rest =>
    ((d.perform o).events.filter (·.isVerdictOn name)).map (place, ·) ++
      (d.perform o).dispatcher.notices name (place + 1) rest

/-- **What an occurrence can do to the calls that wait.** -/
theorem exists_waits_perform (h : d.NoneOrphaned) (o : Occurrence) (place : Nat)
    {waiting : List Sending} (hwaiting : waiting.map (·.expectation) = d.expectationsOn name) :
    ∃ (ended : List Wait) (left : List Sending),
      ((d.perform o).events.filter (·.isVerdictOn name)).map (place, ·) =
          ended.map (·.notice name) ∧
        waiting.Perm (ended.map (·.sending) ++ left) ∧
        (d.perform o).dispatcher.expectationsOn name =
          (left ++ (d.sent? name o).toList.map (Sending.mk place)).map (·.expectation) ∧
        ∀ w ∈ ended, w.place = place ∧ o.about? = some name ∧ d.Justifies o w.verdict := by
  obtain ⟨left, ⟨verdicts, hevents, hperm, hreason⟩, hafter⟩ := ends_perform h name o
  rw [← hwaiting] at hperm
  obtain ⟨sorted, hsorted, hmap⟩ := exists_perm_of_map_perm hperm
  obtain ⟨gone, stay, rfl, hgone, rfl⟩ := List.map_eq_append_iff.1 hmap
  obtain ⟨ended, rfl, rfl, hplace⟩ := exists_waits place hgone
  refine ⟨ended, stay, ?_, hsorted, ?_, fun w hw => ⟨hplace w hw, ?_⟩⟩
  · rw [hevents, List.map_map, List.map_map]
    refine List.map_congr_left fun w hw => ?_
    rw [← hplace w hw]
    rfl
  · rw [hafter, List.map_append, List.map_map]
    congr 1
    exact (List.map_id _).symm
  · exact hreason w.verdict (List.mem_map_of_mem hw)

theorem run_waits (h : d.NoneOrphaned) (name : String) (place : Nat) (waiting : List Sending)
    (hwaiting : waiting.map (·.expectation) = d.expectationsOn name)
    (hplace : ∀ sending ∈ waiting, sending.place < place) (occurrences : List Occurrence) :
    ∃ (ended : List Wait) (left : List Sending),
      d.notices name place occurrences = ended.map (·.notice name) ∧
        (waiting ++ d.sendings name place occurrences).Perm (ended.map (·.sending) ++ left) ∧
        (d.run occurrences).2.expectationsOn name = left.map (·.expectation) ∧
        ∀ w ∈ ended, w.sending.place < w.place ∧
          ∃ earlier o later, occurrences = earlier ++ o :: later ∧
            w.place = place + earlier.length ∧ o.about? = some name ∧
              (d.run earlier).2.Justifies o w.verdict := by
  induction occurrences generalizing d place waiting with
  | nil =>
    refine ⟨[], waiting, rfl, ?_, hwaiting.symm, fun w hw => absurd hw List.not_mem_nil⟩
    rw [sendings, List.append_nil]
    exact .refl _
  | cons o rest ih =>
    obtain ⟨ended, stay, htold, hperm, hafter, hreason⟩ := exists_waits_perform h o place hwaiting
    have hbefore : ∀ w ∈ ended, w.sending.place < place := by
      intro w hw
      refine hplace _ (hperm.mem_iff.2 (List.mem_append_left _ ?_))
      exact List.mem_map_of_mem hw
    have hnew : ∀ sending ∈ stay ++ (d.sent? name o).toList.map (Sending.mk place),
        sending.place < place + 1 := by
      intro sending hsending
      rcases List.mem_append.1 hsending with hstay | hsent
      · exact Nat.lt_succ_of_lt (hplace _ (hperm.mem_iff.2 (List.mem_append_right _ hstay)))
      · obtain ⟨e, -, rfl⟩ := List.mem_map.1 hsent
        exact Nat.lt_succ_self place
    obtain ⟨ended', left, htold', hperm', hafter', hreason'⟩ :=
      ih (Settled.perform (x := ⟨"", "", ""⟩) h o).noneOrphaned (place + 1) _ hafter.symm hnew
    refine ⟨ended ++ ended', left, ?_, ?_, hafter', ?_⟩
    · rw [notices, htold, htold', List.map_append]
    · rw [sendings, List.map_append, List.append_assoc]
      rw [List.append_assoc] at hperm'
      refine (hperm.append_right _).trans ?_
      rw [List.append_assoc]
      exact hperm'.append_left _
    · intro w hw
      rcases List.mem_append.1 hw with hw | hw
      · obtain ⟨hhere, habout, hjustified⟩ := hreason w hw
        rw [hhere]
        exact ⟨hbefore w hw, [], o, rest, rfl, rfl, habout, hjustified⟩
      · obtain ⟨hlater, earlier, o', later, rfl, hat, habout, hjustified⟩ := hreason' w hw
        refine ⟨hlater, o :: earlier, o', later, rfl, ?_, habout, hjustified⟩
        rw [hat, List.length_cons]
        omega

/-- The notices are the events, but for those that tell no verdict. -/
theorem map_snd_notices (d : Dispatcher) (name : String) (place : Nat)
    (occurrences : List Occurrence) :
    (d.notices name place occurrences).map Prod.snd =
      (d.run occurrences).1.filter (·.isVerdictOn name) := by
  induction occurrences generalizing d place with
  | nil => rfl
  | cons o rest ih =>
    rw [notices, run_cons, List.map_append, List.filter_append, ih, List.map_map]
    congr 1
    exact List.map_id _

/-- **A wait begins with the call that sends the command, and ends for a reason.**  Whatever happens
to a new dispatcher: each verdict that is told on a channel belongs to a call of its own, which came
before and sent a command on that channel.  What tells the verdict is about the channel.  If it
tells that the command was acknowledged, a frame has come meanwhile that the decoder of the entity
takes for the acknowledgement; if it tells that the command has waited too long, then more time has
passed since the call than is allowed.  All other waits go on.  Whether the transport has taken the
command by then is not asked. -/
theorem run_verdicts (occurrences : List Occurrence) (name : String) :
    ∃ (ended : List Wait) (waiting : List Sending),
      (({} : Dispatcher).run occurrences).1.filter (·.isVerdictOn name) =
          ended.map (fun w => w.verdict.event name) ∧
        ({} : Dispatcher).notices name 0 occurrences = ended.map (·.notice name) ∧
        (({} : Dispatcher).sendings name 0 occurrences).Perm (ended.map (·.sending) ++ waiting) ∧
        (({} : Dispatcher).run occurrences).2.expectationsOn name =
          waiting.map (·.expectation) ∧
        ∀ w ∈ ended, w.sending.place < w.place ∧
          ∃ earlier o later, occurrences = earlier ++ o :: later ∧ w.place = earlier.length ∧
            o.about? = some name ∧ (({} : Dispatcher).run earlier).2.Justifies o w.verdict := by
  have hnew : ({} : Dispatcher).NoneOrphaned := fun name channel hchannel => by cases hchannel
  obtain ⟨ended, waiting, hnotices, hperm, hleft, hended⟩ :=
    run_waits hnew name 0 [] rfl
      (fun sending hsending => absurd hsending List.not_mem_nil) occurrences
  refine ⟨ended, waiting, ?_, hnotices, hperm, hleft, fun w hw => ?_⟩
  · rw [← map_snd_notices _ _ 0, hnotices, List.map_map]
    rfl
  · obtain ⟨hplace, earlier, o, later, hsplit, hat, habout, hjustified⟩ := hended w hw
    exact ⟨hplace, earlier, o, later, hsplit, hat.trans (Nat.zero_add _), habout, hjustified⟩

/-! ### Commands that nobody takes -/

/-- Two commands are sent, but the transport asks for none.  A frame acknowledges the first one;
when the next bytes come, the second one has waited too long. -/
def untakenCommands : List Occurrence :=
  [.register lampDecoder,
    .addChannelConfig "hall" { rxHeader := [0xF2], rxLength := some 3 } none,
    .send "hall" "lamp" "on" none .low 0 .calm,
    .feed "hall" [0xF2, 0, 0] 1_000_000 {} [],
    .send "hall" "lamp" "off" none .low 2_000_000 .calm,
    .feed "hall" [0xF2] 6_000_000_000 {} []]

/-- Verdicts do not wait for the transport: both are told while both commands are still queued. -/
theorem not_only_after_taken :
    (({} : Dispatcher).run untakenCommands).1.filter (·.isVerdictOn "hall") =
        [.commandAcked "hall" "lamp" "on", .commandTimedOut "hall" "lamp" "off"] ∧
      (({} : Dispatcher).run untakenCommands).2.pendingCommands "hall" = 2 ∧
      ¬∀ (occurrences : List Occurrence) (name : String),
        (occurrences.filterMap Occurrence.time?).Pairwise (· ≤ ·) →
          ∀ event ∈ (({} : Dispatcher).run occurrences).1, event.isVerdictOn name = true →
            ∃ bytes, .ok (.command (some bytes)) ∈ ({} : Dispatcher).results occurrences := by
  have hverdicts : (({} : Dispatcher).run untakenCommands).1.filter (·.isVerdictOn "hall") =
      [.commandAcked "hall" "lamp" "on", .commandTimedOut "hall" "lamp" "off"] := rfl
  refine ⟨hverdicts, rfl, fun h => ?_⟩
  have hacked : Event.commandAcked "hall" "lamp" "on" ∈
      (({} : Dispatcher).run untakenCommands).1.filter (·.isVerdictOn "hall") := by
    rw [hverdicts]
    exact List.mem_cons_self
  have htimes : (untakenCommands.filterMap Occurrence.time?).Pairwise (· ≤ ·) := by decide
  obtain ⟨bytes, hbytes⟩ := h untakenCommands "hall" htimes _ (List.mem_filter.1 hacked).1
    (List.mem_filter.1 hacked).2
  have hresults : ({} : Dispatcher).results untakenCommands =
      [.ok .done, .ok .done, .ok (.wasEmpty true), .ok .done, .ok (.wasEmpty false), .ok .done] :=
    rfl
  rw [hresults] at hbytes
  simp at hbytes

end Dispatcher
end Fieldbus
