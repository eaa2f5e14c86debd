import Fieldbus.Json.Record
import Fieldbus.Offload.Link

/-!
# Offloaded reassembly

An `Offloaded` reassembler is used like any other one: chunks go in, frames come out.  As long as
all goes well a worker does the work.  When the worker fails, or when too much has to be kept back
before it is ready, the owner *falls back*, once and for good:

1. It reads the replies that have arrived.
2. It sets up a reassembler with what the worker kept after the last acknowledged chunk, the bytes
   and the time, so that a pause is still noticed.
3. It feeds every chunk that was not acknowledged, in order, each with its own time.

So no chunk is taken apart twice and none is left out.
-/

set_option autoImplicit false

namespace Fieldbus

/-- The settings of offloading. -/
structure OffloadConfig where
  /-- How many bytes are kept back at most until the worker is ready. -/
  bufferCap : Nat := 65536
deriving DecidableEq, Repr

namespace OffloadConfig

/-- The members of the settings. -/
def shape : Json.Shape := .flat ["buffer_cap"]

/-- The settings, read from a document. -/
def ofJson? : Json → Option OffloadConfig :=
  Json.Record.read do
    let bufferCap ← Json.Record.defaulted "buffer_cap" 65536 Json.size?
    return { bufferCap }

/-- The settings as a document. -/
def toJson (config : OffloadConfig) : Json := .object [("buffer_cap", .nat config.bufferCap)]

end OffloadConfig

/-- What the worker does during one operation of the owner. -/
structure Meanwhile where
  /-- While the owner reads replies, one entry for each look for a reply. -/
  reading : List Interlude := []
  /-- Before the owner hands a chunk over. -/
  handing : List WorkerMove := []
  /-- Before the owner that falls back reads the last replies. -/
  leaving : List WorkerMove := []
deriving DecidableEq, Repr

/-- Who reassembles. -/
inductive OffloadMode where
  | worker (link : Link)
  | inProcess (reassembler : Reassembler)

/-- Reassembly by a worker, as long as that goes well. -/
structure Offloaded where
  framing : RxFraming
  bufferCap : Nat
  /-- What scripts are told about the devices. -/
  snapshot : Option Json := none
  mode : OffloadMode

namespace Offloaded

/-- A worker is asked to start with the given reassembler. -/
def withWorker (framing : RxFraming) (config : OffloadConfig) (fresh : Reassembler) : Offloaded where
  framing
  bufferCap := config.bufferCap
  mode := .worker { worker := .starting fresh }

/-- A worker is asked to start with a reassembler of the same channel. -/
def spawn (framing : RxFraming) (config : OffloadConfig) : Offloaded :=
  withWorker framing config { framing }

/-- No worker could be started: the owner falls back before anything has come. -/
def unaided (framing : RxFraming) (config : OffloadConfig) : Offloaded where
  framing
  bufferCap := config.bufferCap
  mode := .inProcess { framing }

/-- Has the owner fallen back? -/
def isFallback (o : Offloaded) : Bool :=
  match o.mode with
  | .inProcess _ => true
  | .worker _ => false

/-- Does the owner know that the worker is ready? -/
def isReady (o : Offloaded) : Bool :=
  match o.mode with
  | .worker link => link.ready
  | .inProcess _ => false

/-- The worker makes a step. -/
def move (o : Offloaded) (m : WorkerMove) : Offloaded :=
  match o.mode with
  | .worker link => { o with mode := .worker (link.move m) }
  | .inProcess _ => o

/-! ## Falling back -/

/-- The reassembler that goes on where the last acknowledged chunk left off. -/
def successor (o : Offloaded) (link : Link) : Reassembler :=
  let r : Reassembler := { framing := o.framing, snapshot := o.snapshot }
  match link.residualAt with
  | some time => r.seedAt link.residual time
  | none => r.seed link.residual

/-- The owner falls back: the frames of the replies that have arrived, then those of all chunks that
were not acknowledged. -/
def fallBack (o : Offloaded) (link : Link) (meanwhile : Meanwhile) : List Frame × Offloaded :=
  let link := link.moves meanwhile.leaving
  let (salvaged, link) := link.salvage link.replies
  let chunks := link.outstanding.map fun chunk => (chunk.bytes, chunk.time)
  let (replayed, r) := (o.successor link).feedAll chunks
  (salvaged ++ replayed, { o with mode := .inProcess r })

/-- The owner goes on with the link, or falls back when it cannot be relied on. -/
def goOn (o : Offloaded) (ok : Bool) (link : Link) (meanwhile : Meanwhile) :
    List Frame × Offloaded :=
  if ok then ([], { o with mode := .worker link }) else o.fallBack link meanwhile

/-! ## Operations of the owner

Each operation comes in two forms: one during which the worker does what it is said to do, and one
during which it does nothing. -/

/-- Replies are read, `untilDrained` only as long as something is not acknowledged. -/
def collect (o : Offloaded) (untilDrained : Bool) (meanwhile : Meanwhile) :
    List Frame × Offloaded :=
  match o.mode with
  | .inProcess _ => ([], o)
  | .worker link =>
    let (frames, ok, link) := link.readAmid o.snapshot untilDrained meanwhile.reading
    let (more, o) := o.goOn ok link meanwhile
    (frames ++ more, o)

/-- The frames that have come back since the last time. -/
def pollAmid (o : Offloaded) (meanwhile : Meanwhile) : List Frame × Offloaded :=
  o.collect false meanwhile

/-- The frames that have come back since the last time. -/
def poll (o : Offloaded) : List Frame × Offloaded := o.pollAmid {}

/-- A chunk for the worker: sent at once when the worker is ready, else kept back.  The answer says
whether the owner can go on like this. -/
def handOver (o : Offloaded) (link : Link) (bytes : Bytes) (now : Time) : Bool × Link :=
  let chunk : Chunk := ⟨link.nextSeq, bytes, now⟩
  let link := { link with nextSeq := link.nextSeq + 1 }
  if link.ready then link.send chunk
  else
    let size := link.stagedBytes + bytes.length
    let link := { link with staged := link.staged ++ [chunk] }
    if o.bufferCap < size then (false, link) else (true, { link with stagedBytes := size })

/-- A chunk comes: the frames available so far, and the reassembler after it. -/
def feedAmid (o : Offloaded) (bytes : Bytes) (now : Time) (meanwhile : Meanwhile) :
    List Frame × Offloaded :=
  let (frames, o) := o.pollAmid meanwhile
  match o.mode with
  | .inProcess r =>
    let (more, r) := r.feed bytes now
    (frames ++ more, { o with mode := .inProcess r })
  | .worker link =>
    let (ok, link) := o.handOver (link.moves meanwhile.handing) bytes now
    let (more, o) := o.goOn ok link meanwhile
    (frames ++ more, o)

/-- A chunk comes: the frames available so far, and the reassembler after it. -/
def feed (o : Offloaded) (bytes : Bytes) (now : Time) : List Frame × Offloaded :=
  o.feedAmid bytes now {}

/-- The owner waits until everything is acknowledged, or until the time for waiting is over.  How
long that is does not appear here, nor a wait whose end is beyond the clock. -/
def flushAmid (o : Offloaded) (meanwhile : Meanwhile) : List Frame × Offloaded :=
  o.collect true meanwhile

/-- The owner waits for the worker, which makes the steps of the schedule meanwhile; the owner looks
for a reply before the first step and after each.  At the end of the schedule the time for waiting
is over. -/
def flush (o : Offloaded) (schedule : List WorkerMove) : List Frame × Offloaded :=
  o.flushAmid { reading := {} :: schedule.map fun m => { looking := [m] } }

/-- Scripts are told something else from now on.  A worker that is not ready yet is told when it
is. -/
def setSnapshot (o : Offloaded) (snapshot : Option Json) : Offloaded :=
  let o := { o with snapshot }
  match o.mode with
  | .inProcess r => { o with mode := .inProcess (r.setSnapshot snapshot) }
  | .worker link =>
    if link.ready then { o with mode := .worker (link.post (.snapshot snapshot)).2 } else o

/-! ## A diligent worker -/

/-- The steps by which a worker handles these requests; it dies on a chunk on which a script
crashes. -/
def handling : Reassembler → List Request → List WorkerMove
  | _, [] => []
  | r, .snapshot snapshot :: rest => .handle :: handling (r.setSnapshot snapshot) rest
  | r, .chunk chunk :: rest =>
    if r.crashesOn chunk.bytes chunk.time then [.die]
    else .handle :: handling (r.feed chunk.bytes chunk.time).2 rest

/-- The steps by which a worker does all the work it is given: it starts, if it has not yet, and
handles what is on the way or will be sent to it as soon as it is known to be ready. -/
def diligence (o : Offloaded) : List WorkerMove :=
  match o.mode with
  | .inProcess _ => []
  | .worker link =>
    let coming :=
      if link.ready then []
      else (if o.snapshot.isSome then [Request.snapshot o.snapshot] else [])
        ++ link.staged.map Request.chunk
    match link.worker with
    | .starting fresh => .start :: handling fresh (link.requests ++ coming)
    | .running r => handling r (link.requests ++ coming)
    | .dead => []

/-- The owner waits until a diligent worker has done all its work. -/
def finish (o : Offloaded) : List Frame × Offloaded := o.flush o.diligence

end Offloaded
end Fieldbus
