import Fieldbus.Bytes
import Fieldbus.Json.Record
import Fieldbus.Time

/-!
# Command queues

Commands wait in two queues, and those of high priority are sent first.  Devices need a pause
between two commands: after one has been handed out, the next one is held back until the delay of
the channel has passed.
-/

set_option autoImplicit false

namespace Fieldbus

/-- How urgent a command is. -/
inductive Priority where
  | high
  | low
deriving DecidableEq, Repr

namespace Priority

/-- The name of a priority. -/
def name : Priority → String
  | high => "high"
  | low => "low"

/-- The priorities by name. -/
def names : List (String × Priority) := [high, low].map fun p => (p.name, p)

/-- A priority read from a document. -/
def ofJson? : Json → Option Priority := Json.name? names

/-- A priority as a document. -/
def toJson (priority : Priority) : Json := .string priority.name

end Priority

/-- Commands that wait to be sent. -/
structure CommandQueue where
  high : List Bytes := []
  low : List Bytes := []
  /-- Milliseconds between two commands. -/
  delay : Nat
  /-- When a command was last handed out. -/
  lastSent : Option Time := none
deriving DecidableEq, Repr

namespace CommandQueue

/-- Does no command wait? -/
def isEmpty (q : CommandQueue) : Bool := q.high.isEmpty && q.low.isEmpty

/-- How many commands wait. -/
def length (q : CommandQueue) : Nat := q.high.length + q.low.length

/-- All commands that wait, in the order they will be handed out. -/
def toList (q : CommandQueue) : List Bytes := q.high ++ q.low

/-- The queue with one more command. -/
def push (q : CommandQueue) (command : Bytes) (priority : Priority) : CommandQueue :=
  match priority with
  | .high => { q with high := q.high ++ [command] }
  | .low => { q with low := q.low ++ [command] }

/-- Was a command handed out less than the pause ago? -/
def isHeldBack (q : CommandQueue) (pause : Nat) (now : Time) : Bool :=
  q.lastSent.any fun last => Time.elapsed last now < pause

/-- The next command, if one waits and the pause is over, and the queue without it.  Only a command
that is handed out starts the pause anew. -/
def popAfter (q : CommandQueue) (pause : Nat) (now : Time) : Option Bytes × CommandQueue :=
  if q.isHeldBack pause now then (none, q)
  else match q.high, q.low with
    | command :: rest, _ => (some command, { q with high := rest, lastSent := some now })
    | [], command :: rest => (some command, { q with low := rest, lastSent := some now })
    | [], [] => (none, q)

/-- The next command, if one waits and the delay has passed, and the queue without it. -/
def pop (q : CommandQueue) (now : Time) : Option Bytes × CommandQueue :=
  q.popAfter (Time.ofMillis q.delay) now

/-- A queue is empty when nothing is left to hand out. -/
theorem isEmpty_iff (q : CommandQueue) : q.isEmpty = true ↔ q.toList = [] := by
  simp [isEmpty, toList]

/-- A pop that hands out nothing changes nothing. -/
theorem popAfter_eq_self {q : CommandQueue} {pause : Nat} {now : Time}
    (h : (q.popAfter pause now).1 = none) : (q.popAfter pause now).2 = q := by
  obtain ⟨high, low, delay, lastSent⟩ := q
  unfold popAfter at h ⊢
  split at h
  · simp_all
  · cases high <;> cases low <;> simp_all

end CommandQueue
end Fieldbus
