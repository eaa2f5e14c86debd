import Fieldbus.Reassembler.Basic

/-!
# Owner and worker

A channel may hand its reassembly to a worker.  Owner and worker share nothing and exchange messages
only, which arrive in the order they were sent: `Request`s go to the worker, `Reply`s come back.

The worker acknowledges every chunk with the frames it completed and with what it keeps since: its
pending bytes and the time of its last arrival.  The owner keeps each chunk until then.  So at any
time the owner can go on where the last acknowledged chunk left off, whatever becomes of the worker.

`Link` is both ends with the messages on the way.  `WorkerMove` is one step of the worker.  The two
run at the same time: the worker makes any number of steps between two operations of the owner and
also in the midst of one, between any two messages that the owner reads or sends (`Interlude`), and
it may die at any point.
-/

set_option autoImplicit false

namespace Fieldbus

/-! ## Messages -/

/-- Bytes that arrived together, numbered in the order of arrival. -/
structure Chunk where
  seq : Nat
  bytes : Bytes
  time : Time
deriving DecidableEq, Repr

/-- A message to the worker. -/
inductive Request where
  | chunk (chunk : Chunk)
  | snapshot (snapshot : Option Json)

/-- A message from the worker. -/
inductive Reply where
  /-- The worker has started. -/
  | ready
  /-- The worker has handled all chunks up to this number. -/
  | frames (seq : Nat) (frames : List Frame) (residual : Bytes) (lastArrival : Option Time)
  /-- The worker could not start. -/
  | failed (reason : String)

/-! ## The worker -/

/-- The state of the worker. -/
inductive Worker where
  /-- It will start with this reassembler. -/
  | starting (fresh : Reassembler)
  /-- It handles requests. -/
  | running (reassembler : Reassembler)
  /-- It handles nothing any more. -/
  | dead

namespace Worker

/-- Does the worker handle nothing any more? -/
def isDead : Worker → Bool
  | dead => true
  | _ => false

end Worker

/-- One step of the worker. -/
inductive WorkerMove where
  /-- It starts and says so. -/
  | start
  /-- It cannot start and says why. -/
  | failToStart (reason : String)
  /-- It handles its next request. -/
  | handle
  /-- It dies without a word, and the requests on the way are lost. -/
  | die
deriving DecidableEq, Repr

/-- What the worker does while the owner deals with one reply. -/
structure Interlude where
  /-- Its steps before the owner looks for the reply. -/
  looking : List WorkerMove := []
  /-- Its steps before the owner tells it the snapshot. -/
  telling : List WorkerMove := []
  /-- Its steps before the owner sends it a chunk that was kept back, for one chunk after another. -/
  sending : List (List WorkerMove) := []
deriving DecidableEq, Repr

/-! ## Both ends -/

/-- The owner's books, the messages on the way, and the worker. -/
structure Link where
  /-- Has the owner seen that the worker started? -/
  ready : Bool := false
  /-- The number of the next chunk. -/
  nextSeq : Nat := 0
  /-- Chunks kept back until the worker is ready. -/
  staged : List Chunk := []
  /-- The size of the chunks kept back. -/
  stagedBytes : Nat := 0
  /-- Chunks that were sent and are not acknowledged yet. -/
  unacked : List Chunk := []
  /-- What the worker kept after the last acknowledged chunk. -/
  residual : Bytes := []
  /-- When the last acknowledged chunk arrived. -/
  residualAt : Option Time := none
  /-- Messages to the worker, first one first. -/
  requests : List Request := []
  /-- Messages from the worker, first one first. -/
  replies : List Reply := []
  worker : Worker

namespace Link

/-- The worker makes a step.  A step it cannot make in its state changes nothing. -/
def move (link : Link) : WorkerMove → Link
  | .start =>
    match link.worker with
    | .starting fresh =>
      { link with worker := .running fresh, replies := link.replies ++ [.ready] }
    | _ => link
  | .failToStart reason =>
    match link.worker with
    | .starting _ =>
      { link with worker := .dead, requests := [], replies := link.replies ++ [.failed reason] }
    | _ => link
  | .handle =>
    match link.worker, link.requests with
    | .running r, .chunk chunk :: rest =>
      let (frames, r) := r.feed chunk.bytes chunk.time
      { link with
        worker := .running r
        requests := rest
        replies := link.replies ++ [.frames chunk.seq frames r.pending r.lastArrival] }
    | .running r, .snapshot snapshot :: rest =>
      { link with worker := .running (r.setSnapshot snapshot), requests := rest }
    | _, _ => link
  | .die => { link with worker := .dead, requests := [] }

/-- The worker makes some steps. -/
def moves (link : Link) (schedule : List WorkerMove) : Link := schedule.foldl move link

/-- Has the worker acknowledged everything? -/
def isDrained (link : Link) : Bool := link.ready && link.staged.isEmpty && link.unacked.isEmpty

/-- A message is sent to the worker; the answer says whether anybody is there to receive it. -/
def post (link : Link) (request : Request) : Bool × Link :=
  if link.worker.isDead then (false, link)
  else (true, { link with requests := link.requests ++ [request] })

/-- A chunk is sent.  The owner keeps it, whether anybody receives it or not. -/
def send (link : Link) (chunk : Chunk) : Bool × Link :=
  { link with unacked := link.unacked ++ [chunk] }.post (.chunk chunk)

/-- The chunks kept back are sent, up to the first that nobody receives. -/
def sendStaged : List (List WorkerMove) → List Chunk → Link → Bool × Link
  | _, [], link => (true, { link with staged := [] })
  | meanwhile, chunk :: rest, link =>
    match send { link.moves (meanwhile.headD []) with staged := rest } chunk with
    | (true, link) => sendStaged meanwhile.tail rest link
    | (false, link) => (false, link)

/-- The worker is told the snapshot, if there is one. -/
def tell (link : Link) (snapshot : Option Json) (meanwhile : List WorkerMove) : Bool × Link :=
  if snapshot.isSome then (link.moves meanwhile).post (.snapshot snapshot) else (true, link)

/-- The worker has handled the chunks up to this number. -/
def acknowledge (link : Link) (seq : Nat) (residual : Bytes) (lastArrival : Option Time) : Link :=
  { link with
    unacked := link.unacked.dropWhile (·.seq ≤ seq)
    residual
    residualAt := lastArrival }

/-- The worker is ready: it is told the snapshot, if there is one, and then gets all chunks that
were kept back. -/
def begin (link : Link) (snapshot : Option Json) (meanwhile : Interlude) : Bool × Link :=
  match { link with ready := true }.tell snapshot meanwhile.telling with
  | (false, link) => (false, link)
  | (true, link) => { link with stagedBytes := 0 }.sendStaged meanwhile.sending link.staged

/-- A reply is read: the frames in it, and whether the worker can be relied on further. -/
def read (link : Link) (snapshot : Option Json) (meanwhile : Interlude) :
    Reply → List Frame × Bool × Link
  | .ready =>
    let (ok, link) := link.begin snapshot meanwhile
    ([], ok, link)
  | .frames seq frames residual lastArrival =>
    (frames, true, link.acknowledge seq residual lastArrival)
  | .failed _ => ([], false, link)

/-- The replies that have arrived are read in order, `untilDrained` only as long as something is not
acknowledged.  The worker cannot be relied on further when a reply says so, or when it is dead and
all replies are read. -/
def readReplies (snapshot : Option Json) (untilDrained : Bool) :
    List Reply → Link → List Frame × Bool × Link
  | [], link =>
    let link := { link with replies := [] }
    ([], (untilDrained && link.isDrained) || !link.worker.isDead, link)
  | reply :: rest, link =>
    if untilDrained && link.isDrained then ([], true, { link with replies := reply :: rest })
    else match read { link with replies := rest } snapshot {} reply with
      | (frames, false, link) => (frames, false, link)
      | (frames, true, link) =>
        let (more, ok, link) := readReplies snapshot untilDrained rest link
        (frames ++ more, ok, link)

/-- Replies are read while the worker goes on working, and in the end those that have arrived by
then.  An owner that reads `untilDrained` waits when there is no reply; any other stops there. -/
def readAmid (snapshot : Option Json) (untilDrained : Bool) :
    List Interlude → Link → List Frame × Bool × Link
  | [], link => link.readReplies snapshot untilDrained link.replies
  | meanwhile :: later, link =>
    if untilDrained && link.isDrained then ([], true, link)
    else
      let link := link.moves meanwhile.looking
      match link.replies with
      | [] =>
        if untilDrained && !link.worker.isDead then readAmid snapshot untilDrained later link
        else ([], !link.worker.isDead, link)
      | reply :: rest =>
        match read { link with replies := rest } snapshot meanwhile reply with
        | (frames, false, link) => (frames, false, link)
        | (frames, true, link) =>
          let (more, ok, link) := readAmid snapshot untilDrained later link
          (frames ++ more, ok, link)

/-- The frames of all replies that have arrived, each of them acknowledged; nothing else in the
replies matters any more. -/
def salvage : List Reply → Link → List Frame × Link
  | [], link => ([], { link with replies := [] })
  | .frames seq frames residual lastArrival :: rest, link =>
    let (more, link) := salvage rest (link.acknowledge seq residual lastArrival)
    (frames ++ more, link)
  | _ :: rest, link => salvage rest link

/-- The chunks that no reply has acknowledged, in order. -/
def outstanding (link : Link) : List Chunk := link.unacked ++ link.staged

end Link
end Fieldbus
