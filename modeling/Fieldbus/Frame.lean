import Fieldbus.Bytes

/-!
# Frames

A frame is a complete run of bytes as it stood on the wire, header, checksum and footer included.
All offsets of a description count from the end of the header, that is, in the payload.
-/

set_option autoImplicit false

namespace Fieldbus

/-- The bytes of a frame, the first `headerLength` of which are the header. -/
structure Frame where
  bytes : Bytes
  headerLength : Nat
  headerLength_le : headerLength ≤ bytes.length
deriving DecidableEq, Repr

namespace Frame

/-- The frame of these bytes; a header that would be longer than the frame takes all of it. -/
def ofBytes (bytes : Bytes) (headerLength : Nat) : Frame :=
  ⟨bytes, min headerLength bytes.length, Nat.min_le_right _ _⟩

/-- The bytes behind the header. -/
def payload (frame : Frame) : Bytes := frame.bytes.drop frame.headerLength

/-- The frame as it is shown. -/
def display (frame : Frame) : String := frame.bytes.toSpacedHex

@[simp] theorem bytes_ofBytes (bytes : Bytes) (n : Nat) : (ofBytes bytes n).bytes = bytes := rfl

/-- The payload of a frame starts behind the given header. -/
theorem payload_ofBytes (bytes : Bytes) (n : Nat) : (ofBytes bytes n).payload = bytes.drop n := by
  show bytes.drop (min n bytes.length) = bytes.drop n
  rcases Nat.le_total n bytes.length with h | h
  · rw [Nat.min_eq_left h]
  · rw [Nat.min_eq_right h, List.drop_length, List.drop_eq_nil_of_le h]

end Frame
end Fieldbus
