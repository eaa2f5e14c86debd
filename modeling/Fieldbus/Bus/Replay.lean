import Fieldbus.Bus.Config

/-!
# Replaying and monitoring

Both ways of listening to a bus feed what was received to its dispatcher, piece by piece, and wait
for the worker at the end, if there is one.

* `Dispatcher.replay` takes a capture that has been cut into pieces and tells all events.
* A `Monitor` takes blocks as they come, and stops when it has told as many events as were asked
  for.
-/

set_option autoImplicit false

namespace Fieldbus

/-! ## Pieces -/

/-- A capture cut into pieces of the given size, at least one byte each; the last one may be
shorter. -/
def cut (size : Nat) : Bytes → List Bytes
  | [] => []
  | b :: rest => (b :: rest.take (size - 1)) :: cut size (rest.drop (size - 1))
termination_by capture => capture.length
decreasing_by simp only [List.length_drop, List.length_cons]; omega

/-- Nothing is lost or added by cutting. -/
theorem flatten_cut (size : Nat) (capture : Bytes) : (cut size capture).flatten = capture := by
  fun_induction cut size capture with
  | case1 => rfl
  | case2 b rest ih => simp [ih, List.take_append_drop]

/-- A part of a capture. -/
structure Piece where
  bytes : Bytes
  /-- When it comes. -/
  time : Time
  /-- The steps that a worker makes before it comes. -/
  moves : List WorkerMove := []

/-- Pieces that come one nanosecond after another, too fast for a worker to do anything
meanwhile. -/
def Piece.ofList (parts : List Bytes) : List Piece :=
  parts.zipIdx.map fun (bytes, i) => { bytes, time := (i : Int) }

/-! ## Replaying -/

/-- An operation and, if it is not refused, another one after it. -/
def Response.andThen (first : Response Unit) (next : Dispatcher → Response Unit) : Response Unit :=
  match first.result with
  | .error _ => first
  | .ok () =>
    let second := next first.dispatcher
    { second with events := first.events ++ second.events }

namespace Dispatcher

/-- The worker of a channel makes the given steps. -/
def moveWorkerAll (d : Dispatcher) (name : String) (moves : List WorkerMove) : Dispatcher :=
  moves.foldl (fun d m => d.moveWorker name m) d

/-- The pieces are received on a channel, one after another. -/
def feedPieces (d : Dispatcher) (name : String) : List Piece → Response Unit
  | [] => { result := .ok (), dispatcher := d }
  | piece :: rest =>
    ((d.moveWorkerAll name piece.moves).feed name piece.bytes piece.time).andThen
      fun d => d.feedPieces name rest

/-- The pieces are received on a channel, and its worker is waited for, which does all its work. -/
def replay (d : Dispatcher) (name : String) (pieces : List Piece) : Response Unit :=
  (d.feedPieces name pieces).andThen fun d => d.finish name pieces.length

end Dispatcher

/-! ## Monitoring -/

/-- A listener on one channel. -/
structure Monitor where
  dispatcher : Dispatcher
  channel : String
  /-- How many events to tell before stopping, if not all. -/
  limit : Option Nat
  /-- How many events have been told. -/
  told : Nat := 0

namespace Monitor

/-- The events of one block that are told.  Whether to stop is only asked after an event, so one is
told even if none was asked for. -/
def select (m : Monitor) (events : List Event) : List Event :=
  match m.limit with
  | none => events
  | some limit => events.take (max 1 (limit - m.told))

/-- Have enough events been told, `told` of them being new? -/
def isDone (m : Monitor) (told : List Event) : Bool :=
  match m.limit with
  | none => false
  | some limit => !told.isEmpty && limit ≤ m.told + told.length

/-- A block is received: the events told, and the listener after it, none if it stops. -/
def receive (m : Monitor) (block : Bytes) (now : Time) : List Event × Option Monitor :=
  let response := m.dispatcher.feed m.channel block now
  let events := m.select response.events
  if m.isDone events then (events, none)
  else (events, some { m with dispatcher := response.dispatcher, told := m.told + events.length })

/-- Nothing more will be received: the events told at the end. -/
def close (m : Monitor) (now : Time) : List Event :=
  let events := (m.dispatcher.finish m.channel now).events
  match m.limit with
  | none => events
  | some limit => events.take (limit - m.told)

/-- Blocks are received one nanosecond after another, the first one at the given time: the events
told. -/
def listen (m : Monitor) (now : Time) : List Bytes → List Event
  | [] => m.close now
  | block :: rest =>
    match m.receive block now with
    | (events, none) => events
    | (events, some m) => events ++ m.listen (now + 1) rest

end Monitor
end Fieldbus
