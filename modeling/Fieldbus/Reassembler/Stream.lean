import Fieldbus.Reassembler.Basic

/-!
# Frames over a stream

A byte stream hands over a buffer at a time and asks for a frame at a time.  A `FrameStream` takes
the whole buffer whenever there is one, and hands out the frames in order, one for each time it is
asked.  In the other direction commands are appended to a buffer.
-/

set_option autoImplicit false

namespace Fieldbus

/-- Both directions of a channel over a byte stream. -/
structure FrameStream where
  reassembler : Reassembler
  tx : TxFraming
  /-- Frames that have not been asked for yet. -/
  ready : List Frame := []

namespace FrameStream

/-- The stream of a channel. -/
def ofProfile (profile : ChannelProfile) : FrameStream where
  reassembler := { framing := profile.rx }
  tx := profile.tx

/-- Scripts are told something else about what comes in. -/
def setSnapshot (s : FrameStream) (snapshot : Option Json) : FrameStream :=
  { s with reassembler := s.reassembler.setSnapshot snapshot }

/-- All bytes of a buffer are taken, if there are any: the bytes left in it, and the stream. -/
def takeUp (s : FrameStream) (buffer : Bytes) (now : Time) : Bytes × FrameStream :=
  if buffer.isEmpty then (buffer, s)
  else
    let (frames, reassembler) := s.reassembler.feed buffer now
    ([], { s with reassembler, ready := s.ready ++ frames })

/-- A buffer is handed over, and a frame asked for: the frame, the bytes left in the buffer, and the
stream. -/
def decode (s : FrameStream) (buffer : Bytes) (now : Time) :
    Option Frame × Bytes × FrameStream :=
  let (left, s) := s.takeUp buffer now
  (s.ready.head?, left, { s with ready := s.ready.tail })

/-- Buffers are handed over one after another: for each of them the frame and the bytes left in
it. -/
def decodeAll (s : FrameStream) : List (Bytes × Time) → List (Option Frame × Bytes) × FrameStream
  | [] => ([], s)
  | (buffer, now) :: rest =>
    let (frame, left, s) := s.decode buffer now
    let (answers, s) := decodeAll s rest
    ((frame, left) :: answers, s)

/-- The frame around the data of a command is put at the end of a buffer. -/
def encodeInto (s : FrameStream) (data buffer : Bytes) : Except ChecksumError Unit × Bytes :=
  s.tx.encodeInto data none buffer

/-- The buffer after that, if it goes well. -/
def encode (s : FrameStream) (data buffer : Bytes) : Except ChecksumError Bytes :=
  let (result, buffer) := s.encodeInto data buffer
  result.map fun _ => buffer

end FrameStream
end Fieldbus
