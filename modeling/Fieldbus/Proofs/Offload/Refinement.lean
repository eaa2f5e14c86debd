import Fieldbus.Proofs.Offload.Owner

/-!
# Offloading changes nothing

An offloaded reassembler and one that works in process find the same frames.  The offloaded one may
be behind for a while; it is never ahead, and it is level with the other as soon as the worker has
acknowledged everything, or the owner has fallen back.

* `Offloaded.Refines` — the invariant of an offloaded reassembler, for either mode.
* `Offloaded.Refines.step`, `.run` — whatever happens keeps it, and so does a run.
* `Offloaded.run_told` — the main theorem.

The snapshot matters only to scripts.  A worker hears of a new one late, after the chunks that were
on the way already, so the theorem asks for one snapshot from the first chunk on, unless there is no
script (`RxFraming.Alike`).
-/

set_option autoImplicit false

namespace Fieldbus

variable {rx : RxFraming} {s snapshot : Option Json} {link : Link} {o : Offloaded}
  {told : List Frame} {calls : List (Bytes × Time)}

/-! ## The invariant

The frames told so far are compared with those that one reassembler finds in all calls.  With a
worker they are the frames of the acknowledged calls; without one they are all of them, and the
owner's reassembler is that one reassembler. -/

/-- What has been told, by who reassembles: a worker, whom the owner follows, or a reassembler that
was fed all calls. -/
def OffloadMode.Follows (rx : RxFraming) (s last : Option Json) :
    OffloadMode → List Frame → List (Bytes × Time) → Prop
  | .worker link, told, calls => link.Follows rx s last told calls ∧ link.Settled
  | .inProcess r, told, calls =>
    r = (rx.after s calls).setSnapshot last ∧ told = rx.framesOf s calls

/-- These calls have come in and these frames have been told.  From the first call on, the snapshot
makes no difference from `s`. -/
structure Offloaded.Refines (rx : RxFraming) (s : Option Json) (o : Offloaded)
    (told : List Frame) (calls : List (Bytes × Time)) : Prop where
  framing : o.framing = rx
  alike : rx.Alike o.snapshot s ∨ calls = []
  mode : o.mode.Follows rx s o.snapshot told calls

@[simp] theorem Offloaded.snapshot_goOn (o : Offloaded) (ok : Bool) (link : Link)
    (meanwhile : Meanwhile) : (o.goOn ok link meanwhile).2.snapshot = o.snapshot := by
  cases ok <;> rfl

@[simp] theorem Offloaded.snapshot_collect (o : Offloaded) (untilDrained : Bool)
    (meanwhile : Meanwhile) : (o.collect untilDrained meanwhile).2.snapshot = o.snapshot := by
  rw [collect]
  split
  · rfl
  · exact o.snapshot_goOn _ _ meanwhile

/-- Whether the owner goes on or falls back, nothing is lost. -/
theorem Link.Follows.goOn (h : link.Follows rx s o.snapshot told calls) (hframing : o.framing = rx)
    (halike : rx.Alike o.snapshot s ∨ calls = []) {ok : Bool} (hsettled : ok = true → link.Settled)
    (meanwhile : Meanwhile) :
    (o.goOn ok link meanwhile).2.Refines rx s (told ++ (o.goOn ok link meanwhile).1) calls := by
  cases ok with
  | true =>
    refine ⟨hframing, halike, ?_, hsettled rfl⟩
    show Link.Follows _ _ _ _ (told ++ []) _
    rwa [List.append_nil]
  | false =>
    obtain ⟨htold, hmode⟩ := h.fallBack hframing halike meanwhile
    show (o.fallBack link meanwhile).2.Refines rx s (told ++ (o.fallBack link meanwhile).1) calls
    rw [hmode]
    exact ⟨hframing, halike, rfl, htold⟩

namespace Offloaded.Refines

/-! ## Operations of the owner -/

theorem collect (h : o.Refines rx s told calls) (untilDrained : Bool) (meanwhile : Meanwhile) :
    (o.collect untilDrained meanwhile).2.Refines rx s
      (told ++ (o.collect untilDrained meanwhile).1) calls := by
  obtain ⟨framing, bufferCap, snapshot, mode⟩ := o
  cases mode with
  | inProcess r =>
    rw [Offloaded.collect, List.append_nil]
    exact h
  | worker link =>
    have hread := h.mode.1.readAmid h.mode.2 h.alike untilDrained meanwhile.reading
    have hgoOn := hread.follows.goOn h.framing h.alike hread.settled meanwhile
    rw [List.append_assoc] at hgoOn
    exact hgoOn

theorem feedAmid (h : o.Refines rx s told calls) (hlast : rx.Alike o.snapshot s) (bytes : Bytes)
    (now : Time) (meanwhile : Meanwhile) :
    (o.feedAmid bytes now meanwhile).2.Refines rx s
      (told ++ (o.feedAmid bytes now meanwhile).1) (calls ++ [(bytes, now)]) := by
  have hpoll := h.collect false meanwhile
  have hsnapshot := o.snapshot_collect false meanwhile
  rw [Offloaded.feedAmid, pollAmid]
  generalize o.collect false meanwhile = result at hpoll hsnapshot ⊢
  obtain ⟨frames, next⟩ := result
  replace hlast : rx.Alike next.snapshot s := hsnapshot ▸ hlast
  obtain ⟨framing, bufferCap, snapshot, mode⟩ := next
  cases mode with
  | inProcess r =>
    obtain ⟨hr, htold⟩ : r = (rx.after s calls).setSnapshot snapshot ∧
        told ++ frames = rx.framesOf s calls := hpoll.mode
    subst hr
    have hfeed := (rx.after s calls).feed_setSnapshot (s := snapshot) (by simpa using hlast)
      bytes now
    refine ⟨hpoll.framing, Or.inl hlast, ?_, ?_⟩
    · rw [RxFraming.after_snoc]
      exact congrArg Prod.snd hfeed
    · have hfound : (((rx.after s calls).setSnapshot snapshot).feed bytes now).1 =
          ((rx.after s calls).feed bytes now).1 := by rw [hfeed]
      rw [RxFraming.framesOf_snoc, ← htold, List.append_assoc]
      exact congrArg (fun found => told ++ (frames ++ found)) hfound
  | worker link =>
    have hmoves := hpoll.mode.1.moves meanwhile.handing
    obtain ⟨hhanded, hsettled⟩ := hmoves.handOver (hpoll.mode.2.moves meanwhile.handing) hlast
      ⟨framing, bufferCap, snapshot, .worker link⟩ bytes now
    have hgoOn := hhanded.goOn hpoll.framing (Or.inl hlast) hsettled meanwhile
    rw [List.append_assoc] at hgoOn
    exact hgoOn

/-- Before the first call any snapshot will do. -/
theorem setSnapshot (h : o.Refines rx s told calls) (hnext : rx.Alike snapshot s ∨ calls = []) :
    (o.setSnapshot snapshot).Refines rx s told calls := by
  obtain ⟨framing, bufferCap, last, mode⟩ := o
  cases mode with
  | inProcess r =>
    obtain ⟨hr, htold⟩ : r = (rx.after s calls).setSnapshot last ∧ told = rx.framesOf s calls :=
      h.mode
    subst hr
    exact ⟨h.framing, hnext, rfl, htold⟩
  | worker link =>
    obtain ⟨⟨t, htold, hcalls, haccords⟩, hsettled⟩ := h.mode
    simp only [Offloaded.setSnapshot]
    split
    · rename_i hready
      refine ⟨h.framing, hnext, ⟨t, htold, hcalls, haccords.post_snapshot hready snapshot⟩, ?_⟩
      intro hnow
      rw [Link.staged_post]
      exact hsettled (by rwa [Link.ready_post] at hnow)
    · rename_i hready
      have hnew := haccords.of_not_ready (Bool.eq_false_iff.mpr hready) snapshot
      exact ⟨h.framing, hnext, ⟨t, htold, hcalls, hnew⟩, hsettled⟩

theorem move (h : o.Refines rx s told calls) (m : WorkerMove) :
    (o.move m).Refines rx s told calls := by
  obtain ⟨framing, bufferCap, snapshot, mode⟩ := o
  cases mode with
  | inProcess r => exact h
  | worker link => exact ⟨h.framing, h.alike, h.mode.1.moves [m], h.mode.2.moves [m]⟩

end Offloaded.Refines

/-! ## Runs

A run has two parts, one in front of the first chunk and one from there on.  In the first part any
snapshot may be set, since nothing has been taken apart with it; in the second part only such
snapshots as make no difference. -/

/-- What can happen to an offloaded reassembler. -/
inductive OffloadEvent where
  /-- A chunk comes. -/
  | feed (bytes : Bytes) (time : Time) (meanwhile : Meanwhile)
  /-- The owner looks for frames. -/
  | poll (meanwhile : Meanwhile)
  /-- The owner waits. -/
  | flush (meanwhile : Meanwhile)
  /-- Scripts are told something else from now on. -/
  | setSnapshot (snapshot : Option Json)
  /-- The worker makes a step between two operations of the owner. -/
  | work (m : WorkerMove)

namespace OffloadEvent

/-- The chunk that comes, with its time. -/
def call? : OffloadEvent → Option (Bytes × Time)
  | feed bytes time _ => some (bytes, time)
  | _ => none

/-- What scripts are told after the event. -/
def snapshotAfter (snapshot : Option Json) : OffloadEvent → Option Json
  | setSnapshot next => next
  | _ => snapshot

/-- All chunks that come, in order. -/
def callsOf (events : List OffloadEvent) : List (Bytes × Time) := events.filterMap call?

/-- What happens before the first chunk comes. -/
def opening (events : List OffloadEvent) : List OffloadEvent := events.takeWhile (·.call?.isNone)

/-- What happens from the first chunk on. -/
def sequel (events : List OffloadEvent) : List OffloadEvent := events.dropWhile (·.call?.isNone)

/-- What scripts are told when the first chunk comes. -/
def opened (events : List OffloadEvent) : Option Json :=
  (opening events).foldl snapshotAfter none

theorem callsOf_append (first second : List OffloadEvent) :
    callsOf (first ++ second) = callsOf first ++ callsOf second := List.filterMap_append

theorem callsOf_eq_nil {events : List OffloadEvent} (h : ∀ event ∈ events, event.call? = none) :
    callsOf events = [] := List.filterMap_eq_nil_iff.mpr h

theorem opening_append_sequel (events : List OffloadEvent) :
    opening events ++ sequel events = events := List.takeWhile_append_dropWhile

/-- Before the first chunk none comes. -/
theorem call?_of_mem_opening {events : List OffloadEvent} {event : OffloadEvent}
    (h : event ∈ opening events) : event.call? = none := by
  have hall : (opening events).all (·.call?.isNone) = true := List.all_takeWhile
  exact Option.isNone_iff_eq_none.mp (List.all_eq_true.mp hall event h)

end OffloadEvent

namespace Offloaded

/-- Something happens: the frames it yields, and the reassembler after it. -/
def step (o : Offloaded) : OffloadEvent → List Frame × Offloaded
  | .feed bytes time meanwhile => o.feedAmid bytes time meanwhile
  | .poll meanwhile => o.pollAmid meanwhile
  | .flush meanwhile => o.flushAmid meanwhile
  | .setSnapshot snapshot => ([], o.setSnapshot snapshot)
  | .work m => ([], o.move m)

/-- One thing happens after another: all frames that were told, and the reassembler in the end. -/
def run (o : Offloaded) : List OffloadEvent → List Frame × Offloaded
  | [] => ([], o)
  | event :: rest =>
    let (frames, o) := o.step event
    let (more, o) := run o rest
    (frames ++ more, o)

/-- A reassembler of the channel, with a worker if one could be started. -/
def launch (framing : RxFraming) (config : OffloadConfig) (aided : Bool) : Offloaded :=
  if aided then spawn framing config else unaided framing config

@[simp] theorem snapshot_launch (framing : RxFraming) (config : OffloadConfig) (aided : Bool) :
    (launch framing config aided).snapshot = none := by
  cases aided <;> rfl

theorem run_cons (o : Offloaded) (event : OffloadEvent) (rest : List OffloadEvent) :
    o.run (event :: rest) =
      ((o.step event).1 ++ ((o.step event).2.run rest).1, ((o.step event).2.run rest).2) := rfl

theorem run_append (o : Offloaded) (first second : List OffloadEvent) :
    o.run (first ++ second) =
      ((o.run first).1 ++ ((o.run first).2.run second).1, ((o.run first).2.run second).2) := by
  induction first generalizing o with
  | nil => rfl
  | cons event rest ih => rw [List.cons_append, run_cons, run_cons, ih, List.append_assoc]

theorem snapshot_step (o : Offloaded) (event : OffloadEvent) :
    (o.step event).2.snapshot = event.snapshotAfter o.snapshot := by
  cases event with
  | feed bytes time meanwhile =>
    show (o.feedAmid bytes time meanwhile).2.snapshot = o.snapshot
    have hpoll := o.snapshot_collect false meanwhile
    rw [feedAmid, pollAmid]
    generalize o.collect false meanwhile = result at hpoll ⊢
    obtain ⟨frames, framing, bufferCap, snapshot, mode⟩ := result
    cases mode with
    | inProcess r => exact hpoll
    | worker link => exact (snapshot_goOn ..).trans hpoll
  | poll meanwhile => exact o.snapshot_collect false meanwhile
  | flush meanwhile => exact o.snapshot_collect true meanwhile
  | setSnapshot next =>
    obtain ⟨framing, bufferCap, snapshot, mode⟩ := o
    cases mode with
    | inProcess r => rfl
    | worker link =>
      show (Offloaded.setSnapshot _ next).snapshot = next
      simp only [Offloaded.setSnapshot]
      split <;> rfl
  | work m =>
    obtain ⟨framing, bufferCap, snapshot, mode⟩ := o
    cases mode <;> rfl

theorem snapshot_run (o : Offloaded) (events : List OffloadEvent) :
    (o.run events).2.snapshot = events.foldl OffloadEvent.snapshotAfter o.snapshot := by
  induction events generalizing o with
  | nil => rfl
  | cons event rest ih => rw [run, List.foldl_cons, ← snapshot_step, ← ih]

/-- Has the worker acknowledged everything? -/
def isDrained (o : Offloaded) : Bool :=
  match o.mode with
  | .worker link => link.isDrained
  | .inProcess _ => false

end Offloaded

namespace Offloaded.Refines

open OffloadEvent (callsOf callsOf_append callsOf_eq_nil)

/-- Nothing has happened yet. -/
theorem launch (rx : RxFraming) (s : Option Json) (config : OffloadConfig) (aided : Bool) :
    (Offloaded.launch rx config aided).Refines rx s [] [] := by
  cases aided with
  | false => exact ⟨rfl, Or.inr rfl, rfl, rfl⟩
  | true =>
    refine ⟨rfl, Or.inr rfl, ⟨⟨[], [], [], []⟩, rfl, rfl, ?_⟩, fun _ => rfl⟩
    exact ⟨rfl, rfl, rfl, rfl, rfl, .starting ⟨rfl, rfl, rfl⟩⟩

/-- Nothing more is told. -/
theorem silent (h : o.Refines rx s told calls) : o.Refines rx s (told ++ []) calls := by
  rwa [List.append_nil]

/-- No more calls come in. -/
theorem uncalled (h : o.Refines rx s told calls) : o.Refines rx s told (calls ++ []) := by
  rwa [List.append_nil]

/-- **Whatever happens keeps the invariant**, if a chunk comes only when the snapshot makes no
difference from `s`, and such a snapshot is set once one has come. -/
theorem step (h : o.Refines rx s told calls) (event : OffloadEvent)
    (hafter : rx.Alike (event.snapshotAfter o.snapshot) s ∨ event.call? = none ∧ calls = []) :
    (o.step event).2.Refines rx s (told ++ (o.step event).1) (calls ++ callsOf [event]) := by
  cases event with
  | feed bytes time meanwhile =>
    rcases hafter with hlast | ⟨hnone, -⟩
    · exact h.feedAmid hlast bytes time meanwhile
    · cases hnone
  | poll meanwhile => exact (h.collect false meanwhile).uncalled
  | flush meanwhile => exact (h.collect true meanwhile).uncalled
  | setSnapshot next => exact (h.setSnapshot (hafter.imp_right And.right)).silent.uncalled
  | work m => exact (h.move m).silent.uncalled

/-- Before the first chunk anything may happen. -/
theorem run_opening {events : List OffloadEvent} (h : o.Refines rx s told [])
    (hevents : ∀ event ∈ events, event.call? = none) :
    (o.run events).2.Refines rx s (told ++ (o.run events).1) [] := by
  induction events generalizing o told with
  | nil => rwa [run, List.append_nil]
  | cons event rest ih =>
    have hcall := hevents event (List.mem_cons_self ..)
    have hstep := h.step event (Or.inr ⟨hcall, rfl⟩)
    rw [callsOf_eq_nil (by simpa using hcall)] at hstep
    have hrest := ih hstep fun later hlater => hevents later (List.mem_cons_of_mem _ hlater)
    rw [List.append_assoc] at hrest
    exact hrest

/-- From the first chunk on no snapshot may be set that makes a difference. -/
theorem run_sequel {events : List OffloadEvent} (h : o.Refines rx s told calls)
    (hlast : rx.Alike o.snapshot s)
    (hevents : ∀ event ∈ events, ∀ t, rx.Alike t s → rx.Alike (event.snapshotAfter t) s) :
    (o.run events).2.Refines rx s (told ++ (o.run events).1) (calls ++ callsOf events) := by
  induction events generalizing o told calls with
  | nil => rwa [run, List.append_nil, callsOf, List.filterMap_nil, List.append_nil]
  | cons event rest ih =>
    have hafter := hevents event (List.mem_cons_self ..) _ hlast
    have hrest := ih (h.step event (Or.inl hafter)) (by rwa [o.snapshot_step])
      fun later hlater => hevents later (List.mem_cons_of_mem _ hlater)
    rw [List.append_assoc, List.append_assoc, ← callsOf_append] at hrest
    exact hrest

/-- **A whole run keeps the invariant**, if scripts are told the same from the first chunk on. -/
theorem run (rx : RxFraming) (config : OffloadConfig) (aided : Bool) (events : List OffloadEvent)
    (hsnapshot : rx.checksum.isScript = false ∨
      ∀ snapshot, .setSnapshot snapshot ∉ OffloadEvent.sequel events) :
    ((Offloaded.launch rx config aided).run events).2.Refines rx (OffloadEvent.opened events)
      ((Offloaded.launch rx config aided).run events).1 (callsOf events) := by
  have hopening : ∀ event ∈ OffloadEvent.opening events, event.call? = none :=
    fun event h => OffloadEvent.call?_of_mem_opening h
  have hbegun := (launch rx (OffloadEvent.opened events) config aided).run_opening hopening
  have hopened : ((Offloaded.launch rx config aided).run
      (OffloadEvent.opening events)).2.snapshot = OffloadEvent.opened events := by
    rw [snapshot_run, snapshot_launch]
    rfl
  have hsequel : ∀ event ∈ OffloadEvent.sequel events, ∀ t,
      rx.Alike t (OffloadEvent.opened events) →
        rx.Alike (event.snapshotAfter t) (OffloadEvent.opened events) := by
    intro event hevent t ht
    rcases hsnapshot with hscript | hnone
    · exact RxFraming.alike_of_not_script hscript _ _
    · cases event with
      | setSnapshot next => exact absurd hevent (hnone next)
      | feed bytes time meanwhile => exact ht
      | poll meanwhile => exact ht
      | flush meanwhile => exact ht
      | work m => exact ht
  have hrun := hbegun.run_sequel (hopened ▸ RxFraming.Alike.refl rx _) hsequel
  have happend := (Offloaded.launch rx config aided).run_append (OffloadEvent.opening events)
    (OffloadEvent.sequel events)
  have hcalls := callsOf_append (OffloadEvent.opening events) (OffloadEvent.sequel events)
  rw [OffloadEvent.opening_append_sequel] at happend hcalls
  rw [happend, hcalls, callsOf_eq_nil hopening]
  exact hrun

/-! ## What has been told

Calls are acknowledged in order, and more calls only add frames at the end.  So what has been told
is a front of what will be, and all of it when no call is left that is not acknowledged. -/

/-- The owner is never ahead. -/
theorem told_isPrefixOf (h : o.Refines rx s told calls) : told <+: rx.framesOf s calls := by
  obtain ⟨framing, bufferCap, snapshot, mode⟩ := o
  cases mode with
  | inProcess r => exact h.mode.2 ▸ List.prefix_refl _
  | worker link =>
    obtain ⟨⟨t, rfl, rfl, -⟩, -⟩ := h.mode
    rw [Tally.calls, List.append_assoc, RxFraming.framesOf_append]
    exact List.prefix_append ..

/-- The owner is level when everything is acknowledged, and once it has fallen back. -/
theorem told_eq (h : o.Refines rx s told calls)
    (hlevel : o.isDrained = true ∨ o.isFallback = true) : told = rx.framesOf s calls := by
  obtain ⟨framing, bufferCap, snapshot, mode⟩ := o
  cases mode with
  | inProcess r => exact h.mode.2
  | worker link =>
    obtain ⟨⟨t, rfl, rfl, haccords⟩, -⟩ := h.mode
    rcases hlevel with hdrained | hfallback
    · obtain ⟨⟨-, hstaged⟩, hunacked⟩ : (link.ready = true ∧ link.staged = []) ∧
          link.unacked = [] := by
        simpa [Offloaded.isDrained, Link.isDrained] using hdrained
      have hheld : t.held = [] := numbered_eq_nil.mp (haccords.staged.symm.trans hstaged)
      have hsent : t.handled ++ t.queued = [] :=
        numbered_eq_nil.mp (haccords.unacked.symm.trans hunacked)
      rw [Tally.calls, hheld, hsent, List.append_nil, List.append_nil]
    · cases hfallback

end Offloaded.Refines

/-- **Offloading changes nothing.**  Whatever happens, and in whatever order — chunks at any times,
looking and waiting for frames, a worker that starts late or never, that is slow, or that dies
between any two messages — the frames told so far are the first of those that a reassembler finds
that is fed the same chunks at the same times.  They are all of them when the worker has
acknowledged everything, and when the owner has fallen back.  The snapshot is the one that scripts
are told when the first chunk comes; it may be set again after that only if there is no script. -/
theorem Offloaded.run_told (rx : RxFraming) (config : OffloadConfig) (aided : Bool)
    (events : List OffloadEvent)
    (hsnapshot : rx.checksum.isScript = false ∨
      ∀ snapshot, .setSnapshot snapshot ∉ OffloadEvent.sequel events) :
    ((launch rx config aided).run events).1 <+:
        rx.framesOf (OffloadEvent.opened events) (OffloadEvent.callsOf events) ∧
      (((launch rx config aided).run events).2.isDrained = true ∨
          ((launch rx config aided).run events).2.isFallback = true →
        ((launch rx config aided).run events).1 =
          rx.framesOf (OffloadEvent.opened events) (OffloadEvent.callsOf events)) := by
  have hrun := Refines.run rx config aided events hsnapshot
  exact ⟨hrun.told_isPrefixOf, hrun.told_eq⟩

/-- The worker starts late, handles one of three chunks and dies just before the third is sent.  The
frame that is split between the first two and the one that is split between the last three are both
found. -/
theorem Offloaded.run_told_of_death :
    let rx : RxFraming :=
      { header := [0xF7], footer := [], checksum := .named .add, delimiter := .checksum,
        minLength := none, maxLength := none, timeout := 10, startBytes := none }
    let events : List OffloadEvent :=
      [.feed [0xF7, 0x01] 0 {}, .work .start, .feed [0xF8, 0xF7] 5_000_000 {}, .work .handle,
        .feed [0x02] 10_000_000 { handing := [.die] }, .feed [0xF9] 15_000_000 {}]
    let result := (launch rx {} true).run events
    result.2.isFallback = true ∧
      result.1.map Frame.bytes = [[0xF7, 0x01, 0xF8], [0xF7, 0x02, 0xF9]] ∧
      result.1 = rx.framesOf (OffloadEvent.opened events) (OffloadEvent.callsOf events) :=
  ⟨by decide, by decide, (run_told _ _ _ _ (Or.inl rfl)).2 (Or.inr (by decide))⟩

end Fieldbus
