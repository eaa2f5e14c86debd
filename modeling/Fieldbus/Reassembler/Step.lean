import Fieldbus.Channel.Profile
import Fieldbus.Frame

/-!
# Finding the next frame

Frames are looked for at the head of the buffered bytes only.  `RxFraming.step` decides what becomes
of the head:

* Where no frame can begin, everything up to the next byte that may begin one is skipped.
* Where one can, its possible ends are tried, shortest first; `candidates` lists them.  The first
  candidate that `verifies` is the frame.
* Without one, the head is given up once more bytes are there than any frame has; until then the
  step waits for more.

`extract` repeats the step.
-/

set_option autoImplicit false

namespace Fieldbus

/-- The longest frame that is looked for with a footer or a checksum as delimiter. -/
def maxCandidateLength : Nat := 256

/-- What becomes of the head of the buffered bytes. -/
inductive Step where
  /-- The first `length` bytes are a frame. -/
  | emit (length : Nat)
  /-- No frame begins in the first `count` bytes. -/
  | skip (count : Nat)
  /-- More bytes are needed. -/
  | wait
deriving DecidableEq, Repr

namespace RxFraming

/-! ## Candidates -/

/-- The lengths from `least` to `greatest`. -/
def lengthsFromTo (least greatest : Nat) : List Nat := List.range' least (greatest + 1 - least)

/-- The possible lengths of a frame at the head of so many bytes, in the order they are tried. -/
def candidates (rx : RxFraming) (available : Nat) : List Nat :=
  match rx.delimiter with
  | .fixedLength length => if length ≤ available then [length] else []
  | .footer =>
    lengthsFromTo (max (rx.overhead + 1) (rx.minLength.getD 0)) (min available maxCandidateLength)
  | .checksum =>
    lengthsFromTo (rx.header.length + rx.checksum.length + 1) (min available maxCandidateLength)

/-- With so many bytes, have all candidates been tried that there will ever be? -/
def isExhausted (rx : RxFraming) (available : Nat) : Bool :=
  match rx.delimiter with
  | .fixedLength length => length ≤ available
  | _ => maxCandidateLength < available

/-- The three parts of a candidate that the checksum is about: header, data and checksum bytes. -/
def parts (rx : RxFraming) (candidate : Bytes) : Bytes × Bytes × Bytes :=
  let bodyEnd := candidate.length - rx.footer.length
  let dataEnd := bodyEnd - rx.checksum.length
  (candidate.take rx.header.length,
    (candidate.take dataEnd).drop rx.header.length,
    (candidate.take bodyEnd).drop dataEnd)

/-- Has the candidate room for a byte of data, and does it end with the footer? -/
def isWrapped (rx : RxFraming) (candidate : Bytes) : Bool :=
  rx.overhead + 1 ≤ candidate.length
    && candidate.drop (candidate.length - rx.footer.length) == rx.footer

/-- Does the candidate end with the footer, and the checksum verify in front of it? -/
def verifies (rx : RxFraming) (snapshot : Option Json) (candidate : Bytes) : Bool :=
  let (header, data, checksum) := rx.parts candidate
  rx.isWrapped candidate && rx.checksum.verify header data checksum snapshot

/-! ## Steps -/

/-- How far the next byte lies that may begin a frame, the head not counted; all bytes if there is
none. -/
def nextStart (rx : RxFraming) (buffer : Bytes) : Nat :=
  match buffer.tail.findIdx? rx.isStartByte with
  | some i => i + 1
  | none => buffer.length

/-- Do the bytes agree with the header, as far as there are any? -/
def agreesWithHeader (rx : RxFraming) (buffer : Bytes) : Bool :=
  let n := min rx.header.length buffer.length
  buffer.take n == rx.header.take n

/-- Can a frame begin at the head? -/
def canBegin (rx : RxFraming) (buffer : Bytes) : Bool :=
  buffer.head?.any rx.isStartByte && rx.agreesWithHeader buffer

/-- What becomes of the head of the buffer. -/
def step (rx : RxFraming) (snapshot : Option Json) (buffer : Bytes) : Step :=
  if !rx.canBegin buffer then .skip (rx.nextStart buffer)
  else if buffer.length < rx.header.length then .wait
  else match (rx.candidates buffer.length).find? fun n => rx.verifies snapshot (buffer.take n) with
    | some n => .emit n
    | none => if rx.isExhausted buffer.length then .skip 1 else .wait

/-- Iterations that `extract` is granted beyond the number of bytes. -/
def safetyMargin : Nat := 16

/-- The frames at the head of the buffer and the bytes left behind them, after at most `limit`
steps.  When the steps are used up, one byte is given up instead. -/
def extractWithin (rx : RxFraming) (snapshot : Option Json) :
    Nat → Bytes → List Frame × Bytes
  | _, [] => ([], [])
  | 0, buffer => ([], buffer.drop 1)
  | limit + 1, buffer =>
    match rx.step snapshot buffer with
    | .wait => ([], buffer)
    | .skip n => extractWithin rx snapshot limit (buffer.drop n)
    | .emit n =>
      let (frames, rest) := extractWithin rx snapshot limit (buffer.drop n)
      (Frame.ofBytes (buffer.take n) rx.header.length :: frames, rest)

/-- The frames at the head of the buffer, and the bytes left behind them. -/
def extract (rx : RxFraming) (snapshot : Option Json) (buffer : Bytes) : List Frame × Bytes :=
  extractWithin rx snapshot (buffer.length + safetyMargin) buffer

/-! ## Crashes

A script runs on every candidate that is wrapped rightly, up to the first one that verifies.  If it
crashes on one of them, so does whoever is extracting. -/

/-- Does a step at the head of the buffer run into a crash? -/
def stepCrashes (rx : RxFraming) (snapshot : Option Json) (buffer : Bytes) : Bool :=
  let crashesOn (candidate : Bytes) : Bool :=
    let (header, data, _) := rx.parts candidate
    rx.isWrapped candidate && rx.checksum.crashes header data snapshot
  rx.canBegin buffer && rx.header.length ≤ buffer.length
    && match (rx.candidates buffer.length).find? fun n =>
        rx.verifies snapshot (buffer.take n) || crashesOn (buffer.take n) with
      | some n => crashesOn (buffer.take n)
      | none => false

/-- Does extracting run into a crash within `limit` steps? -/
def crashesWithin (rx : RxFraming) (snapshot : Option Json) : Nat → Bytes → Bool
  | _, [] => false
  | 0, _ => false
  | limit + 1, buffer =>
    rx.stepCrashes snapshot buffer ||
      match rx.step snapshot buffer with
      | .wait => false
      | .skip n => crashesWithin rx snapshot limit (buffer.drop n)
      | .emit n => crashesWithin rx snapshot limit (buffer.drop n)

/-- Does extracting the frames of a buffer run into a crash? -/
def crashes (rx : RxFraming) (snapshot : Option Json) (buffer : Bytes) : Bool :=
  rx.checksum.isScript && crashesWithin rx snapshot (buffer.length + safetyMargin) buffer

end RxFraming
end Fieldbus
