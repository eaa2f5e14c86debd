import Fieldbus.Bus.Replay
import Fieldbus.Proofs.Channel.Resolve
import Fieldbus.Proofs.Dispatch.Borders
import Fieldbus.Proofs.Offload.Diligence

/-!
# Replaying a capture

The events of a capture depend neither on how it is cut nor on who takes it apart.  A worker may be
slow, fail to start, die, or be given up because too much is kept back for it; as long as the owner
waits in the end until it is level with the worker, or has fallen back, every frame is dispatched,
once and in order.

Nothing is awaited on the channel of a bus that has just been set up, and there is no script on it.
So dispatching changes nothing on the channel, and what is told of a frame depends on the frame only
(`toldOfFrame`).  Which frames there are is a matter of the receiving end alone, about which it is
known that it is never ahead and in the end level with a reassembler that was fed the same chunks.

## What is here

* `ReplayStep` — what may happen while a capture is replayed.
* `Receiver.run`, `Receiver.Follows` — the receiving end alone: what it has handed over so far.
* `Dispatcher.Serves` — a dispatcher with such a channel; `Serves.run` and `Serves.replay` say that
  it tells what its receiving end hands over.
* `BusConfig.launch`, `exists_launch` — what is set up for the description of a bus.
* `BusConfig.replay_capture` — the main theorem.

## How it is proved

There are two statements in one, and they are proved apart.  What is told does not depend on who
takes the capture apart: a dispatcher passes on what its receiving end hands over, and a receiving
end that is level has handed over what a reassembler in process would have (`IsFresh.run_eq`).  And
it does not depend on the pieces: without a gap, a reassembler in process finds in them what it
finds in the whole (`RxFraming.framesOf_joined`).

That the owner is level in the end is a matter of waiting.  With a worker that is given the time to
do its work it gets there (`Proofs.Offload.Diligence`); of any other schedule it has to be assumed.
-/

set_option autoImplicit false

namespace Fieldbus

/-! ## What happens -/

/-- What may happen while a capture is replayed. -/
inductive ReplayStep where
  /-- A piece of the capture comes. -/
  | piece (bytes : Bytes) (now : Time) (meanwhile : Meanwhile)
  /-- The owner looks for frames. -/
  | look (now : Time) (meanwhile : Meanwhile)
  /-- The owner waits for the worker. -/
  | wait (now : Time) (meanwhile : Meanwhile)
  /-- The worker makes a step between two operations of the owner. -/
  | work (m : WorkerMove)

namespace ReplayStep

/-- The piece that comes, with its time. -/
def call? : ReplayStep → Option (Bytes × Time)
  | piece bytes now _ => some (bytes, now)
  | _ => none

/-- All pieces that come, in order. -/
def callsOf (steps : List ReplayStep) : List (Bytes × Time) := steps.filterMap call?

/-- What happens to the dispatcher. -/
def occurrence (name : String) : ReplayStep → Occurrence
  | piece bytes now meanwhile => .feed name bytes now meanwhile []
  | look now meanwhile => .poll name now meanwhile []
  | wait now meanwhile => .flush name now meanwhile []
  | work m => .work name m

/-- What happens to an offloaded reassembler. -/
def offloadEvent : ReplayStep → OffloadEvent
  | piece bytes now meanwhile => .feed bytes now meanwhile
  | look _ meanwhile => .poll meanwhile
  | wait _ meanwhile => .flush meanwhile
  | work m => .work m

@[simp] theorem call?_offloadEvent (step : ReplayStep) : step.offloadEvent.call? = step.call? := by
  cases step <;> rfl

end ReplayStep

/-- The steps of a replay by which a piece comes. -/
def Piece.steps (piece : Piece) : List ReplayStep :=
  piece.moves.map .work ++ [.piece piece.bytes piece.time {}]

theorem ReplayStep.callsOf_append (first second : List ReplayStep) :
    callsOf (first ++ second) = callsOf first ++ callsOf second := List.filterMap_append

theorem callsOf_steps (pieces : List Piece) :
    ReplayStep.callsOf (pieces.flatMap Piece.steps) =
      pieces.map fun piece => (piece.bytes, piece.time) := by
  induction pieces with
  | nil => rfl
  | cons piece rest ih =>
    have hmoves : ReplayStep.callsOf (piece.moves.map .work) = [] := by
      simp [ReplayStep.callsOf, ReplayStep.call?]
    rw [List.flatMap_cons, ReplayStep.callsOf_append, ih, Piece.steps, ReplayStep.callsOf_append,
      hmoves]
    rfl

/-! ## The receiving end

For a while there is no dispatcher.  A receiving end, with a worker or without, is taken through the
steps, and the frames that it hands over are compared with those of a reassembler in process. -/

namespace Receiver

/-- One step: the frames that are handed over, and the receiving end after it. -/
def step (receiver : Receiver) : ReplayStep → List Frame × Receiver
  | .piece bytes now meanwhile => receiver.feedAmid bytes now meanwhile
  | .look _ meanwhile => receiver.collect false meanwhile
  | .wait _ meanwhile => receiver.collect true meanwhile
  | .work m => ([], receiver.move m)

/-- One step after another. -/
def run (receiver : Receiver) : List ReplayStep → List Frame × Receiver
  | [] => ([], receiver)
  | step :: rest =>
    let (frames, receiver) := receiver.step step
    let (more, receiver) := run receiver rest
    (frames ++ more, receiver)

theorem run_cons (receiver : Receiver) (step : ReplayStep) (rest : List ReplayStep) :
    receiver.run (step :: rest) =
      ((receiver.step step).1 ++ ((receiver.step step).2.run rest).1,
        ((receiver.step step).2.run rest).2) := rfl

theorem run_append (receiver : Receiver) (first second : List ReplayStep) :
    receiver.run (first ++ second) =
      ((receiver.run first).1 ++ ((receiver.run first).2.run second).1,
        ((receiver.run first).2.run second).2) := by
  induction first generalizing receiver with
  | nil => rfl
  | cons step rest ih => rw [List.cons_append, run_cons, run_cons, ih, List.append_assoc]

theorem step_piece (receiver : Receiver) (bytes : Bytes) (now : Time) :
    receiver.step (.piece bytes now {}) = receiver.feed bytes now := by
  cases receiver <;> rfl

theorem step_wait (receiver : Receiver) (schedule : List WorkerMove) (now : Time) :
    receiver.step (.wait now { reading := {} :: schedule.map fun m => { looking := [m] } }) =
      receiver.flush schedule := by
  cases receiver <;> rfl

/-- A piece comes after some steps of the worker. -/
theorem run_steps (receiver : Receiver) (piece : Piece) :
    receiver.run piece.steps = (piece.moves.foldl move receiver).feed piece.bytes piece.time := by
  rw [Piece.steps]
  induction piece.moves generalizing receiver with
  | nil =>
    rw [List.map_nil, List.nil_append, run_cons, step_piece, List.foldl_nil]
    simp [run]
  | cons m rest ih =>
    rw [List.map_cons, List.cons_append, run_cons, List.foldl_cons]
    exact ih (receiver.move m)

/-! ### What has been handed over -/

/-- Has it handed over all that it was fed?  A reassembler in process always has. -/
def isLevel : Receiver → Bool
  | inProcess _ => true
  | offloaded o => o.isDrained || o.isFallback

/-- These calls have come in and these frames have been handed over. -/
def Follows (rx : RxFraming) (told : List Frame) (calls : List (Bytes × Time)) : Receiver → Prop
  | inProcess r => r = rx.after none calls ∧ told = rx.framesOf none calls
  | offloaded o => o.Refines rx none told calls

variable {rx : RxFraming} {receiver : Receiver} {told : List Frame} {calls : List (Bytes × Time)}

/-- Nothing has been handed over at first. -/
theorem IsFresh.follows (h : receiver.IsFresh rx) : receiver.Follows rx [] [] := by
  cases h with
  | inProcess => exact ⟨rfl, rfl⟩
  | offloaded config aided => exact .launch rx none config aided

/-- **A step keeps it so**, the frames that it hands over being added. -/
theorem Follows.step (h : receiver.Follows rx told calls) (hscript : rx.checksum.isScript = false)
    (step : ReplayStep) :
    (receiver.step step).2.Follows rx (told ++ (receiver.step step).1)
      (calls ++ ReplayStep.callsOf [step]) := by
  cases receiver with
  | inProcess r =>
    obtain ⟨rfl, rfl⟩ := h
    have hsilent : (inProcess (rx.after none calls)).Follows rx (rx.framesOf none calls ++ [])
        (calls ++ []) := by simp [Follows]
    cases step with
    | piece bytes now meanwhile =>
      exact ⟨(rx.after_snoc none calls bytes now).symm,
        (rx.framesOf_snoc none calls bytes now).symm⟩
    | look now meanwhile => exact hsilent
    | wait now meanwhile => exact hsilent
    | work m => exact hsilent
  | offloaded o =>
    have hstep := Offloaded.Refines.step h step.offloadEvent
      (Or.inl (RxFraming.alike_of_not_script hscript _ _))
    have hcalls : OffloadEvent.callsOf [step.offloadEvent] = ReplayStep.callsOf [step] := by
      simp [OffloadEvent.callsOf, ReplayStep.callsOf, List.filterMap_cons]
    rw [hcalls] at hstep
    cases step <;> exact hstep

/-- And so does a run. -/
theorem Follows.run (h : receiver.Follows rx told calls) (hscript : rx.checksum.isScript = false)
    (steps : List ReplayStep) :
    (receiver.run steps).2.Follows rx (told ++ (receiver.run steps).1)
      (calls ++ ReplayStep.callsOf steps) := by
  induction steps generalizing receiver told calls with
  | nil => simpa [Receiver.run, ReplayStep.callsOf] using h
  | cons step rest ih =>
    have hrest := ih (h.step hscript step)
    rw [List.append_assoc, List.append_assoc] at hrest
    rw [run_cons]
    rwa [← List.singleton_append, ReplayStep.callsOf_append]

/-- When it is level all frames have been handed over. -/
theorem Follows.told_eq (h : receiver.Follows rx told calls) (hlevel : receiver.isLevel = true) :
    told = rx.framesOf none calls := by
  cases receiver with
  | inProcess r => exact h.2
  | offloaded o => exact Offloaded.Refines.told_eq h (by simpa [isLevel] using hlevel)

/-- Waiting for a worker hands over what it has found. -/
theorem Follows.flush (h : receiver.Follows rx told calls) (hscript : rx.checksum.isScript = false)
    (schedule : List WorkerMove) :
    (receiver.flush schedule).2.Follows rx (told ++ (receiver.flush schedule).1) calls := by
  have hwait := h.step hscript
    (.wait 0 { reading := {} :: schedule.map fun m => { looking := [m] } })
  rw [step_wait, ReplayStep.callsOf, List.filterMap_cons_none rfl, List.filterMap_nil,
    List.append_nil] at hwait
  exact hwait

/-- Waiting for a diligent worker makes it level. -/
theorem Follows.isLevel_flush (h : receiver.Follows rx told calls)
    (hscript : rx.checksum.isScript = false) :
    (receiver.flush receiver.diligence).2.isLevel = true := by
  cases receiver with
  | inProcess r => rfl
  | offloaded o =>
    have hfinish := Offloaded.Refines.finish h hscript
    rw [← Bool.or_eq_true] at hfinish
    exact hfinish

/-- **What a fresh receiving end hands over in a run** that leaves it level. -/
theorem IsFresh.run_eq (h : receiver.IsFresh rx) (hscript : rx.checksum.isScript = false)
    (steps : List ReplayStep) (hlevel : (receiver.run steps).2.isLevel = true) :
    (receiver.run steps).1 = rx.framesOf none (ReplayStep.callsOf steps) := by
  have hrun := h.follows.run hscript steps
  rw [List.nil_append, List.nil_append] at hrun
  exact hrun.told_eq hlevel

/-- **What it hands over in a run and when a diligent worker is waited for after it.** -/
theorem IsFresh.run_append_flush (h : receiver.IsFresh rx) (hscript : rx.checksum.isScript = false)
    (steps : List ReplayStep) :
    let fed := receiver.run steps
    fed.1 ++ (fed.2.flush fed.2.diligence).1 = rx.framesOf none (ReplayStep.callsOf steps) := by
  intro fed
  have hrun := h.follows.run hscript steps
  have hflushed := hrun.flush hscript fed.2.diligence
  rw [List.nil_append, List.nil_append] at hflushed
  exact hflushed.told_eq (hrun.isLevel_flush hscript)

end Receiver

/-! ## The frames of a capture -/

/-- **The frames of a capture do not depend on the pieces** that it comes in, without a gap. -/
theorem RxFraming.framesOf_joined (rx : RxFraming) {calls : List (Bytes × Time)}
    (hchain : calls.IsChain fun earlier later => rx.isGap earlier later = false) (now : Time) :
    rx.framesOf none calls = rx.framesOf none [(joined calls, now)] := by
  have hpieces := congrArg Prod.fst (Reassembler.feedAll_without_gap rx none hchain)
  have hwhole := congrArg Prod.fst
    (Reassembler.feedAll_without_gap rx none (.singleton (joined calls, now)))
  rw [show joined [(joined calls, now)] = joined calls by simp [joined]] at hwhole
  exact hpieces.trans hwhole.symm

/-! ## Dispatchers

A channel on which nothing is awaited and no script listens is not changed by its frames.  So the
dispatcher only passes on what the receiving end hands over: what is told is what is told of each
frame, in order. -/

namespace Dispatcher

/-- The dispatcher has such a channel without scripts, on which nothing is awaited. -/
structure Serves (d : Dispatcher) (name : String) (profile : ChannelProfile)
    (decoders : List Decoder) (receiver : Receiver) : Prop where
  channel : ∃ queue, d.channel? name = some { profile, receiver, queue }
  decoders : d.decoders = decoders
  plain : profile.usesScript = false

/-- Is the owner level with the worker of the channel, if it has one? -/
def isLevel (d : Dispatcher) (name : String) : Bool :=
  (d.channel? name).all fun channel => channel.receiver.isLevel

/-- All that is told of these frames is told, and the dispatcher has such a channel then. -/
def Passes (name : String) (profile : ChannelProfile) (decoders : List Decoder)
    (handed : List Frame × Receiver) (r : Response Unit) : Prop :=
  r.result = .ok () ∧ r.events = handed.1.flatMap (toldOfFrame profile.rx name decoders) ∧
    r.dispatcher.Serves name profile decoders handed.2

variable {d : Dispatcher} {name : String} {profile : ChannelProfile} {decoders : List Decoder}
  {receiver : Receiver}

/-- **What is taken from the receiving end is told**, and nothing else. -/
theorem Serves.receive (h : d.Serves name profile decoders receiver)
    (take : Receiver → List Frame × Receiver) (now : Time) :
    Passes name profile decoders (take receiver) (d.receive name take now []) := by
  obtain ⟨⟨queue, hchannel⟩, rfl, hplain⟩ := h
  have hnone : expireAcks name d.ackTimeout now [] = ([], []) := rfl
  have hframes (frames : List Frame) (receiver : Receiver) :
      dispatchFrames name d.decoders frames d.states { profile, receiver, queue } = (_, _, _) :=
    dispatchFrames_of_plain frames d.states rfl hplain
  simp only [Dispatcher.receive, hchannel, dispatchAmid_calm, dispatch, hnone, List.nil_append,
    hframes]
  refine ⟨rfl, rfl, ⟨queue, ?_⟩, rfl, hplain⟩
  rw [channel?_setChannel, if_pos rfl]

theorem Serves.moveWorker (h : d.Serves name profile decoders receiver) (m : WorkerMove) :
    (d.moveWorker name m).Serves name profile decoders (receiver.move m) := by
  obtain ⟨⟨queue, hchannel⟩, rfl, hplain⟩ := h
  rw [Dispatcher.moveWorker, hchannel]
  refine ⟨⟨queue, ?_⟩, rfl, hplain⟩
  rw [channel?_setChannel, if_pos rfl]

/-- A step of a replay. -/
theorem Serves.perform (h : d.Serves name profile decoders receiver) (step : ReplayStep) :
    (d.perform (step.occurrence name)).events =
        (receiver.step step).1.flatMap (toldOfFrame profile.rx name decoders) ∧
      (d.perform (step.occurrence name)).dispatcher.Serves name profile decoders
        (receiver.step step).2 := by
  cases step with
  | piece bytes now meanwhile => exact (h.receive (·.feedAmid bytes now meanwhile) now).2
  | look now meanwhile => exact (h.receive (·.collect false meanwhile) now).2
  | wait now meanwhile => exact (h.receive (·.collect true meanwhile) now).2
  | work m => exact ⟨rfl, h.moveWorker m⟩

/-- **A run tells what its receiving end hands over.** -/
theorem Serves.run (h : d.Serves name profile decoders receiver) (steps : List ReplayStep) :
    (d.run (steps.map (·.occurrence name))).1 =
        (receiver.run steps).1.flatMap (toldOfFrame profile.rx name decoders) ∧
      (d.run (steps.map (·.occurrence name))).2.Serves name profile decoders
        (receiver.run steps).2 := by
  induction steps generalizing d receiver with
  | nil => exact ⟨rfl, h⟩
  | cons step rest ih =>
    obtain ⟨hevents, hnext⟩ := h.perform step
    obtain ⟨hmore, hlast⟩ := ih hnext
    rw [List.map_cons, run_cons, Receiver.run_cons, List.flatMap_append, hevents, hmore]
    exact ⟨rfl, hlast⟩

/-! ### The operations of a replay -/

theorem feed_eq_receive (d : Dispatcher) (name : String) (bytes : Bytes) (now : Time) :
    d.feed name bytes now = d.receive name (·.feed bytes now) now [] := by
  rw [feed, Dispatcher.receive]
  cases d.channel? name with
  | none => rfl
  | some channel => exact (dispatchAmid_calm ..).symm

theorem flush_eq_receive (d : Dispatcher) (name : String) (schedule : List WorkerMove)
    (now : Time) : d.flush name schedule now = d.receive name (·.flush schedule) now [] := by
  rw [flush, Dispatcher.receive]
  cases d.channel? name with
  | none => rfl
  | some channel => exact (dispatchAmid_calm ..).symm

theorem Passes.andThen {handed more : List Frame × Receiver} {first : Response Unit}
    {next : Dispatcher → Response Unit} (h : Passes name profile decoders handed first)
    (hnext : Passes name profile decoders more (next first.dispatcher)) :
    Passes name profile decoders (handed.1 ++ more.1, more.2) (first.andThen next) := by
  obtain ⟨hresult, hevents, -⟩ := h
  obtain ⟨hresult', hevents', hserves⟩ := hnext
  simp only [Response.andThen, hresult]
  refine ⟨hresult', ?_, hserves⟩
  rw [hevents, hevents', List.flatMap_append]

theorem Serves.moveWorkerAll (h : d.Serves name profile decoders receiver)
    (moves : List WorkerMove) :
    (d.moveWorkerAll name moves).Serves name profile decoders
      (moves.foldl Receiver.move receiver) := by
  induction moves generalizing d receiver with
  | nil => exact h
  | cons m rest ih => exact ih (h.moveWorker m)

/-- Pieces that are received one after another. -/
theorem Serves.feedPieces (h : d.Serves name profile decoders receiver) (pieces : List Piece) :
    Passes name profile decoders (receiver.run (pieces.flatMap Piece.steps))
      (d.feedPieces name pieces) := by
  induction pieces generalizing d receiver with
  | nil => exact ⟨rfl, rfl, h⟩
  | cons piece rest ih =>
    have hmoved := h.moveWorkerAll piece.moves
    have hfed := hmoved.receive (·.feed piece.bytes piece.time) piece.time
    rw [← feed_eq_receive] at hfed
    rw [List.flatMap_cons, Receiver.run_append, Receiver.run_steps, Dispatcher.feedPieces]
    exact hfed.andThen (ih hfed.2.2)

/-- **A replay tells what its receiving end hands over** while the pieces come, and when a diligent
worker is waited for in the end. -/
theorem Serves.replay (h : d.Serves name profile decoders receiver) (pieces : List Piece) :
    let fed := receiver.run (pieces.flatMap Piece.steps)
    let rest := fed.2.flush fed.2.diligence
    Passes name profile decoders (fed.1 ++ rest.1, rest.2) (d.replay name pieces) := by
  intro fed rest
  have hfed := h.feedPieces pieces
  refine hfed.andThen ?_
  obtain ⟨queue, hchannel⟩ := hfed.2.2.channel
  have hfinish := hfed.2.2.receive (·.flush fed.2.diligence) pieces.length
  rw [← flush_eq_receive] at hfinish
  rw [finish, hchannel]
  exact hfinish

end Dispatcher

/-! ## The dispatcher of a bus -/

namespace BusConfig

/-- The receiving end of a bus, whose worker, if there is to be one, could be asked to start or
not. -/
def receiver (config : BusConfig) (rx : RxFraming) (aided : Bool) : Receiver :=
  match config.offload with
  | none => .inProcess { framing := rx }
  | some offload => .offloaded (.launch rx offload aided)

/-- The dispatcher of a bus with that receiving end. -/
def launch (config : BusConfig) (aided : Bool) : Except BusError Dispatcher :=
  match config.channel.resolve none with
  | .error cause => .error (.channel cause)
  | .ok profile => do
    let ds ← decoders profile.tx config.entities
    return (Dispatcher.insertChannel { decoders := ds } config.id
      (.ofProfile profile (config.receiver profile.rx aided))).dispatcher

/-- If the worker could be asked to start, the bus is set up as it should be. -/
theorem launch_true (config : BusConfig) : config.launch true = config.setUp := by
  have hdispatcher (profile : ChannelProfile) (ds : List Decoder) :
      config.dispatcher profile ds = (Dispatcher.insertChannel { decoders := ds } config.id
        (.ofProfile profile (config.receiver profile.rx true))).dispatcher := by
    rw [dispatcher, receiver]
    cases config.offload <;> rfl
  rw [launch, setUp]
  cases config.channel.resolve none with
  | error cause => rfl
  | ok profile =>
    cases hds : decoders profile.tx config.entities with
    | error cause =>
      simp only [hds]
      rfl
    | ok ds =>
      simp only [hds]
      exact congrArg Except.ok (hdispatcher profile ds).symm

theorem isFresh_receiver (config : BusConfig) (rx : RxFraming) (aided : Bool) :
    (config.receiver rx aided).IsFresh rx := by
  rw [receiver]
  cases config.offload with
  | none => exact .inProcess
  | some offload => exact .offloaded offload aided

/-- A bus that can be set up can be launched, and has a fresh channel then. -/
theorem exists_launch {config : BusConfig} {d : Dispatcher} (h : config.setUp = .ok d) :
    ∃ profile ds, profile.rx.timeout = config.channel.rxTimeout ∧
      ∀ (other : Option OffloadConfig) (aided : Bool), ∃ launched,
        { config with offload := other }.launch aided = .ok launched ∧
          launched.Serves config.id profile ds
            ({ config with offload := other }.receiver profile.rx aided) := by
  rw [setUp] at h
  cases hprofile : config.channel.resolve none with
  | error cause => simp [hprofile] at h
  | ok profile =>
    simp only [hprofile] at h
    obtain ⟨ds, hds, -⟩ := exists_of_bind_eq_ok h
    refine ⟨profile, ds, ChannelConfig.timeout_of_resolve hprofile, fun other aided => ?_⟩
    simp only [launch, hprofile, hds]
    exact ⟨_, rfl, ⟨_, KeyMap.find?_insert_self ..⟩, rfl,
      ChannelConfig.usesScript_of_resolve hprofile⟩

/-! ## Replaying -/

/-- The calls come without a pause in which a partial frame would be dropped. -/
def Gapless (config : BusConfig) (calls : List (Bytes × Time)) : Prop :=
  calls.IsChain fun earlier later =>
    Time.elapsed earlier.2 later.2 ≤ Time.ofMillis config.channel.rxTimeout

/-- The frames of a capture are those of its pieces. -/
theorem Gapless.framesOf_eq {config : BusConfig} {calls : List (Bytes × Time)}
    (h : config.Gapless calls) {rx : RxFraming} (htimeout : rx.timeout = config.channel.rxTimeout)
    {capture : Bytes} {size : Nat} (hcut : calls.map Prod.fst = cut size capture) (now : Time) :
    rx.framesOf none calls = rx.framesOf none [(capture, now)] := by
  have hchain : calls.IsChain fun earlier later => rx.isGap earlier later = false :=
    h.imp fun earlier later hle => by simpa [RxFraming.isGap, htimeout] using hle
  rw [rx.framesOf_joined hchain now, joined, List.flatMap_def, hcut, flatten_cut]

/-- **The events of a capture depend neither on how it is cut nor on who takes it apart.**  Let a
bus be set up by its description, and let a capture come in pieces of any size, without a gap.  Then
the events are those of the capture in one piece on the same bus without a worker:

* when the pieces are replayed, whatever the worker does before each of them;
* and whatever the worker does before, in the midst of and after any operation of the owner, who may
  look for frames and wait at any time, if in the end the owner is level with the worker, or has
  fallen back, or has no worker.  Here the worker may also be one that could not be asked to start;
  else the bus is set up as above (`launch_true`). -/
theorem replay_capture (config : BusConfig) (d : Dispatcher) (hsetup : config.setUp = .ok d)
    (capture : Bytes) (size : Nat) (now : Time) :
    ∃ alone, { config with offload := none }.setUp = .ok alone ∧
      (alone.feed config.id capture now).result = .ok () ∧
      (∀ pieces : List Piece, pieces.map Piece.bytes = cut size capture →
        config.Gapless (pieces.map fun piece => (piece.bytes, piece.time)) →
          (d.replay config.id pieces).result = .ok () ∧
            (d.replay config.id pieces).events = (alone.feed config.id capture now).events) ∧
      ∀ aided, ∃ launched, config.launch aided = .ok launched ∧
        ∀ steps : List ReplayStep, (ReplayStep.callsOf steps).map Prod.fst = cut size capture →
          config.Gapless (ReplayStep.callsOf steps) →
            let played := launched.run (steps.map (·.occurrence config.id))
            played.2.isLevel config.id = true →
              played.1 = (alone.feed config.id capture now).events := by
  obtain ⟨profile, ds, htimeout, hlaunch⟩ := exists_launch hsetup
  obtain ⟨alone, halone, hserves⟩ := hlaunch none true
  rw [launch_true] at halone
  have hscript : profile.rx.checksum.isScript = false := (Bool.or_eq_false_iff.mp hserves.plain).1
  -- the capture in one piece
  have hwhole := hserves.receive (·.feed capture now) now
  rw [← Dispatcher.feed_eq_receive] at hwhole
  obtain ⟨hresult, hevents, -⟩ := hwhole
  have hone : profile.rx.framesOf none [(capture, now)] =
      (({ config with offload := none }.receiver profile.rx true).feed capture now).1 :=
    List.append_nil _
  rw [← hone] at hevents
  refine ⟨alone, halone, hresult, fun pieces hcut hgapless => ?_, fun aided => ?_⟩
  · obtain ⟨_, hsetup', hserves⟩ := hlaunch config.offload true
    obtain rfl := Except.ok.inj (hsetup.symm.trans (config.launch_true.symm.trans hsetup'))
    obtain ⟨hreplayed, htold, -⟩ := hserves.replay pieces
    have hframes := (config.isFresh_receiver profile.rx true).run_append_flush hscript
      (pieces.flatMap Piece.steps)
    rw [callsOf_steps, hgapless.framesOf_eq htimeout (by rwa [List.map_map]) now] at hframes
    refine ⟨hreplayed, ?_⟩
    rw [htold, hevents]
    exact congrArg _ hframes
  · obtain ⟨launched, hlaunched, hserves⟩ := hlaunch config.offload aided
    refine ⟨launched, hlaunched, fun steps hcut hgapless => ?_⟩
    intro played hlevel
    obtain ⟨htold, hplayed⟩ := hserves.run steps
    obtain ⟨queue, hchannel⟩ := hplayed.channel
    rw [Dispatcher.isLevel, hchannel] at hlevel
    have hframes := (config.isFresh_receiver profile.rx aided).run_eq hscript steps hlevel
    rw [hgapless.framesOf_eq htimeout hcut now] at hframes
    rw [hevents, ← hframes]
    exact htold

/-- A bus with a door, on which three bytes at most are kept back for a worker. -/
def doorBus : BusConfig where
  channel := { rxHeader := [0xF7], rxChecksum := some (.named "add") }
  entities :=
    [{ id := "door", state := { data := [0x01] }, flags := [("open", { data := [0x01] })] }]
  offload := some { bufferCap := 3 }

/-- Two frames in three pieces.  Either nothing happens before the second piece comes, which is too
much to be kept back; or the worker starts in time, handles a piece and dies. -/
theorem replay_capture_of_door :
    let capture : Bytes := [0xF7, 0x01, 0xF8, 0xF7, 0x02, 0xF9]
    let pieces : List Piece :=
      [{ bytes := [0xF7, 0x01], time := 0 }, { bytes := [0xF8, 0xF7], time := 5_000_000 },
        { bytes := [0x02, 0xF9], time := 10_000_000 }]
    let steps : List ReplayStep :=
      [.piece [0xF7, 0x01] 0 {}, .work .start, .piece [0xF8, 0xF7] 5_000_000 {}, .work .handle,
        .look 6_000_000 {}, .piece [0x02, 0xF9] 10_000_000 { handing := [.die] },
        .wait 11_000_000 {}]
    ∃ d alone, doorBus.setUp = .ok d ∧ { doorBus with offload := none }.setUp = .ok alone ∧
      (alone.feed "bus" capture 0).events.map Event.kind = ["state_update", "unmatched_frame"] ∧
      (d.replay "bus" pieces).events = (alone.feed "bus" capture 0).events ∧
      (d.run (steps.map (·.occurrence "bus"))).2.isFallback "bus" = true ∧
      (d.run (steps.map (·.occurrence "bus"))).1 = (alone.feed "bus" capture 0).events := by
  intro capture pieces steps
  obtain ⟨d, hd⟩ : ∃ d, doorBus.setUp = .ok d := ⟨_, rfl⟩
  have hcut : [[0xF7, 0x01], [0xF8, 0xF7], [0x02, 0xF9]] = cut 2 capture := by simp [cut, capture]
  obtain ⟨alone, halone, -, hpieces, hsteps⟩ := replay_capture doorBus d hd capture 2 0
  obtain ⟨launched, hlaunched, hsteps⟩ := hsteps true
  obtain rfl := Except.ok.inj (hd.symm.trans (doorBus.launch_true.symm.trans hlaunched))
  have hgapless : doorBus.Gapless
      [([0xF7, 0x01], 0), ([0xF8, 0xF7], 5_000_000), ([0x02, 0xF9], 10_000_000)] := by
    simp [Gapless, doorBus, Time.elapsed, Time.ofMillis]
  refine ⟨d, alone, hd, halone, ?_, (hpieces pieces hcut hgapless).2, ?_,
    hsteps steps hcut hgapless ?_⟩
  · obtain rfl := Except.ok.inj (halone.symm.trans rfl)
    decide +kernel
  · obtain rfl := Except.ok.inj (hd.symm.trans rfl)
    decide +kernel
  · obtain rfl := Except.ok.inj (hd.symm.trans rfl)
    decide +kernel

end BusConfig
end Fieldbus
