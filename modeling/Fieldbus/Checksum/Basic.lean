import Fieldbus.Checksum.Algorithm
import Fieldbus.Checksum.Script
import Fieldbus.Json.Printer

/-!
# Checksums

A `Checksum` is ready to be computed: a named algorithm, or a script together with the width of its
slot and the evaluator that runs it.  `Checksum.resolve` makes one from a setting.

A checksum is never taken from a frame: `verify` computes it anew and compares.  A script that
fails, crashes or answers with anything but the bytes asked for yields no checksum, so nothing is
verified by it.
-/

set_option autoImplicit false

namespace Fieldbus

/-! ## Errors -/

/-- Why a channel cannot be set up. -/
inductive ConfigError where
  /-- No algorithm has this name. -/
  | unknownChecksum (name : String)
  /-- The algorithm yields another count of bytes than its slot takes. -/
  | checksumWidth (name : String) (expected actual : Nat)
  /-- A script without an evaluator. -/
  | missingEvaluator
  /-- Nothing says where a received frame ends. -/
  | unframeable
  /-- The fixed length cannot hold header, checksum, footer and one byte of data. -/
  | lengthTooSmall (length minimum : Nat)
  /-- The least length is above the greatest. -/
  | invalidBounds (least greatest : Nat)
deriving DecidableEq, Repr

/-- The wording of a configuration error. -/
def ConfigError.message : ConfigError → String
  | unknownChecksum name => s!"unknown checksum algorithm '{name}'"
  | checksumWidth name expected actual =>
    s!"checksum '{name}' produces {actual} byte(s) but is configured as {expected}-byte"
  | missingEvaluator => "script checksum configured but no script evaluator was provided"
  | unframeable => "rx side needs rx_length, rx_footer or a checksum to delimit frames"
  | lengthTooSmall length minimum => s!"rx_length {length} too small (minimum {minimum})"
  | invalidBounds least greatest => s!"rx_min_length {least} exceeds rx_max_length {greatest}"

/-- Why a checksum could not be computed. -/
inductive ChecksumError where
  /-- The evaluator reported a failure. -/
  | script (text : String)
  /-- The script answered with something else than asked for. -/
  | malformedResult (found expected : String)
  /-- The evaluator crashed. -/
  | crashed (text : String)
deriving DecidableEq, Repr

/-- The wording of a checksum error. -/
def ChecksumError.message : ChecksumError → String
  | script text => s!"checksum script failed: {text}"
  | malformedResult found expected => s!"checksum script returned {found}, expected {expected}"
  | crashed text => text

/-! ## Checksums -/

/-- A checksum that can be computed. -/
inductive Checksum where
  | named (algorithm : Algorithm)
  | script (expression : String) (width : ChecksumWidth) (evaluate : Evaluator)

namespace Checksum

/-- No checksum. -/
def absent : Checksum := named .none

/-- Is the checksum computed by a script? -/
def isScript : Checksum → Bool
  | named _ => false
  | script .. => true

/-- Is there no checksum? -/
def isAbsent : Checksum → Bool
  | named a => a = .none
  | script .. => false

/-- The width of the slot that the checksum belongs into. -/
def width : Checksum → ChecksumWidth
  | named a => a.width
  | script _ width _ => width

/-- How many bytes the checksum takes in a frame. -/
def length : Checksum → Nat
  | named a => a.length
  | script _ width _ => width.bytes

/-- The checksum of a slot.  A script needs an evaluator. -/
def resolve (setting : ChecksumSetting) (slot : ChecksumWidth) (evaluator : Option Evaluator) :
    Except ConfigError Checksum :=
  match setting with
  | .named name =>
    match Algorithm.ofName? name with
    | none => .error (.unknownChecksum name)
    | some a =>
      if a ≠ .none ∧ a.width ≠ slot then
        .error (.checksumWidth a.name slot.bytes a.width.bytes)
      else .ok (named a)
  | .script expression =>
    match evaluator with
    | none => .error .missingEvaluator
    | some evaluate => .ok (script expression slot evaluate)

/-! ## Answers of scripts -/

/-- A byte in the answer of a script: a whole number from 0 to 255, written as an integer or not. -/
def answeredByte? : Json → Option UInt8
  | .number (.integer n) => if 0 ≤ n ∧ n ≤ 255 then some (UInt8.ofNat n.toNat) else none
  | .number (.real x) =>
    match x.toInt? with
    | some n => if x.isWhole ∧ 0 ≤ n ∧ n ≤ 255 then some (UInt8.ofNat n.toNat) else none
    | none => none
  | _ => none

/-- The checksum bytes in the answer of a script: a number for one byte, two numbers in an array for
two. -/
def answeredBytes (width : ChecksumWidth) (document : Json) : Except ChecksumError Bytes :=
  match width with
  | .one =>
    match answeredByte? document with
    | some b => .ok [b]
    | none => .error (.malformedResult document.compact "a number")
  | .two =>
    match document with
    | .array [first, second] =>
      match answeredByte? first, answeredByte? second with
      | some a, some b => .ok [a, b]
      | _, _ => .error (.malformedResult document.compact "two numbers")
    | _ => .error (.malformedResult document.compact "two numbers")

/-- An answer that is accepted fills the slot. -/
theorem length_of_answeredBytes {width : ChecksumWidth} {document : Json} {bytes : Bytes}
    (h : answeredBytes width document = .ok bytes) : bytes.length = width.bytes := by
  cases width with
  | one =>
    simp only [answeredBytes] at h
    split at h <;> cases h
    rfl
  | two =>
    simp only [answeredBytes] at h
    split at h
    · split at h <;> cases h
      rfl
    · cases h

/-! ## Computing and verifying -/

/-- The checksum of a header and data; a script may use the snapshot. -/
def compute (checksum : Checksum) (header data : Bytes) (snapshot : Option Json) :
    Except ChecksumError Bytes :=
  match checksum with
  | named a => .ok (a.compute header data)
  | script expression width evaluate =>
    match evaluate expression ⟨header ++ data, snapshot⟩ with
    | .answer document => answeredBytes width document
    | .failed text => .error (.script text)
    | .crashed text => .error (.crashed text)

/-- A checksum that can be computed takes as many bytes in a frame as it announces. -/
theorem length_of_compute {checksum : Checksum} {header data bytes : Bytes}
    {snapshot : Option Json} (h : checksum.compute header data snapshot = .ok bytes) :
    bytes.length = checksum.length := by
  cases checksum with
  | named a =>
    cases h
    exact a.length_compute header data
  | script expression width evaluate =>
    rw [compute] at h
    split at h
    · exact length_of_answeredBytes h
    · cases h
    · cases h

/-- Are these the checksum bytes of the header and data? -/
def verify (checksum : Checksum) (header data expected : Bytes) (snapshot : Option Json) : Bool :=
  match checksum.compute header data snapshot with
  | .ok bytes => bytes == expected
  | .error _ => false

/-- Only what is computed verifies. -/
theorem verify_eq_true_iff {checksum : Checksum} {header data expected : Bytes}
    {snapshot : Option Json} : checksum.verify header data expected snapshot = true ↔
      checksum.compute header data snapshot = .ok expected := by
  rw [verify]
  split <;> simp [*]

/-- Does computing the checksum crash? -/
def crashes (checksum : Checksum) (header data : Bytes) (snapshot : Option Json) : Bool :=
  match checksum.compute header data snapshot with
  | .error (.crashed _) => true
  | _ => false

end Checksum
end Fieldbus
