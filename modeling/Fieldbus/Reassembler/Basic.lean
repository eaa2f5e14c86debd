import Fieldbus.Reassembler.Step
import Fieldbus.Time

/-!
# Reassembling frames

Bytes arrive in chunks of any size.  A `Reassembler` keeps those that do not yet form a frame, and
the time at which the last chunk came.  When the next chunk comes after a longer pause than the
channel allows, what is kept cannot be the beginning of the same frame, and is dropped.
-/

set_option autoImplicit false

namespace Fieldbus

/-- The receiving end of a channel. -/
structure Reassembler where
  framing : RxFraming
  /-- The bytes that do not yet form a frame. -/
  pending : Bytes := []
  /-- When the last chunk came. -/
  lastArrival : Option Time := none
  /-- What scripts are told about the devices. -/
  snapshot : Option Json := none

namespace Reassembler

/-- Has there been too long a pause since the last chunk? -/
def isStale (r : Reassembler) (now : Time) : Bool :=
  r.lastArrival.any fun last => Time.ofMillis r.framing.timeout < Time.elapsed last now

/-- The bytes that a chunk coming now is appended to. -/
def kept (r : Reassembler) (now : Time) : Bytes := if r.isStale now then [] else r.pending

/-- A chunk comes: the frames it completes, and the reassembler after it. -/
def feed (r : Reassembler) (chunk : Bytes) (now : Time) : List Frame × Reassembler :=
  let (frames, rest) := r.framing.extract r.snapshot (r.kept now ++ chunk)
  (frames, { r with pending := rest, lastArrival := some now })

/-- Chunks come one after another. -/
def feedAll (r : Reassembler) : List (Bytes × Time) → List Frame × Reassembler
  | [] => ([], r)
  | (chunk, now) :: rest =>
    let (frames, r) := r.feed chunk now
    let (more, r) := feedAll r rest
    (frames ++ more, r)

/-- Bytes received elsewhere, put in front of the ones kept here; no frame is looked for. -/
def seed (r : Reassembler) (bytes : Bytes) : Reassembler :=
  { r with pending := bytes ++ r.pending }

/-- Bytes received elsewhere, the last of them at the given time. -/
def seedAt (r : Reassembler) (bytes : Bytes) (time : Time) : Reassembler :=
  { r.seed bytes with
    lastArrival := some (match r.lastArrival with
      | some last => max last time
      | none => time) }

/-- The partial frame is dropped. -/
def clear (r : Reassembler) : Reassembler := { r with pending := [] }

/-- Scripts are told something else from now on. -/
def setSnapshot (r : Reassembler) (snapshot : Option Json) : Reassembler := { r with snapshot }

/-- Does handling this chunk run into a crash of a script? -/
def crashesOn (r : Reassembler) (chunk : Bytes) (now : Time) : Bool :=
  r.framing.crashes r.snapshot (r.kept now ++ chunk)

end Reassembler
end Fieldbus
