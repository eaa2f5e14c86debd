import Fieldbus.Proofs.Reassembler.Feed

/-!
# The frames that are found

`IsFrame` says what a frame of a channel is, without a word about how it is looked for.  Every frame
that is found is one (`isFrame_of_mem_extract`), and the frames are parts of what was received, in
order, with nothing of it used twice or lost (`extract_pieces`).
-/

set_option autoImplicit false

namespace Fieldbus

namespace RxFraming

variable {rx : RxFraming} {snapshot : Option Json}

/-! ## What a frame is -/

/-- The frame is one of the channel: header, data, the checksum of both, footer. -/
structure IsFrame (rx : RxFraming) (snapshot : Option Json) (frame : Frame) : Prop where
  /-- Its parts; there is data, and the payload is all that comes behind the header. -/
  parts : ∃ data check : Bytes,
    frame.bytes = rx.header ++ data ++ check ++ rx.footer ∧
      frame.payload = data ++ check ++ rx.footer ∧ data ≠ [] ∧
        check.length = rx.checksum.length ∧
          rx.checksum.verify rx.header data check snapshot = true
  /-- A frame may begin with its first byte. -/
  first : ∃ b ∈ frame.bytes.head?, rx.isStartByte b = true
  /-- It has the fixed length, or one that a frame with a marked end may have. -/
  length : rx.HasFrameLength frame.bytes.length

/-- What the plain step emits is a frame. -/
theorem isFrame_of_plainStep {buffer : Bytes} {n : Nat} (hb : buffer ≠ [])
    (h : rx.plainStep snapshot buffer = .emit n) :
    rx.IsFrame snapshot (Frame.ofBytes (buffer.take n) rx.header.length) := by
  rcases plainStep_cases rx snapshot buffer with ⟨-, hskip⟩ | hwait | ⟨hbegin, hheader, hend⟩
  · rw [h] at hskip; cases hskip
  · rw [h] at hwait; cases hwait
  obtain ⟨hlength, hle, hverifies⟩ := plainEnd_emit (hend ▸ h)
  obtain ⟨hoverhead, hn⟩ := pos_of_verifies_take hverifies
  obtain ⟨hstart, hagrees⟩ := canBegin_iff.1 hbegin
  have hhead : (buffer.take n).take rx.header.length = rx.header := by
    rw [List.take_take, Nat.min_eq_left (by rw [overhead] at hoverhead; omega)]
    exact (List.prefix_iff_eq_take.1 (header_isPrefixOf hagrees hheader)).symm
  obtain ⟨data, check, hparts, hdata, hcheck, hverify⟩ := exists_of_verifies hverifies
  rw [hhead] at hparts hverify
  refine ⟨⟨data, check, hparts, ?_, hdata, hcheck, hverify⟩, ?_, ?_⟩
  · rw [Frame.payload_ofBytes, hparts]
    simp
  · obtain ⟨b, rest, rfl⟩ := List.exists_cons_of_ne_nil hb
    obtain ⟨n, rfl⟩ := Nat.exists_eq_succ_of_ne_zero hn
    exact ⟨b, rfl, hstart⟩
  · rw [Frame.bytes_ofBytes, List.length_take, Nat.min_eq_left hle]
    exact hlength

/-- **Only frames are found.** -/
theorem isFrame_of_mem_extract {buffer : Bytes} {frame : Frame}
    (h : frame ∈ (rx.extract snapshot buffer).1) : rx.IsFrame snapshot frame := by
  rw [extract_eq_scanWith] at h
  obtain ⟨here, n, hb, hemit, rfl⟩ := mem_scanWith (advances_plainStep rx snapshot) h
  exact isFrame_of_plainStep hb hemit

/-- **Nothing is lost or used twice.** -/
theorem extract_pieces (rx : RxFraming) (snapshot : Option Json) (buffer : Bytes) :
    ∃ (lead : Bytes) (pieces : List (Frame × Bytes)),
      pieces.map Prod.fst = (rx.extract snapshot buffer).1 ∧
        buffer = lead ++ wire pieces ++ (rx.extract snapshot buffer).2 := by
  rw [extract_eq_scanWith]
  exact scanWith_pieces rx (advances_plainStep rx snapshot) buffer

end RxFraming

namespace Reassembler

open RxFraming (wire extract_pieces isFrame_of_mem_extract)

/-- **Only verified frames, and every byte accounted for once.**  Without a gap, what was pending
and the chunk consist of the frames that are told, in order, of bytes before, between and behind
them that belong to no frame, and of what is pending now; and each of the frames is one of the
channel. -/
theorem feed_accounts (r : Reassembler) (chunk : Bytes) (now : Time)
    (hgap : r.isStale now = false) :
    (∃ (lead : Bytes) (pieces : List (Frame × Bytes)),
      pieces.map Prod.fst = (r.feed chunk now).1 ∧
        r.pending ++ chunk = lead ++ wire pieces ++ (r.feed chunk now).2.pending) ∧
      ∀ frame ∈ (r.feed chunk now).1, r.framing.IsFrame r.snapshot frame := by
  rw [feed_fst, pending_feed, kept_of_not_stale hgap]
  exact ⟨extract_pieces r.framing r.snapshot _, fun frame hframe => isFrame_of_mem_extract hframe⟩

/-- Two frames with a byte of noise between them, the first one begun by an earlier chunk. -/
theorem feed_accounts_of_two_frames :
    let r : Reassembler :=
      { framing :=
          { header := [0xF7], footer := [], checksum := .named .add, delimiter := .checksum,
            minLength := none, maxLength := none, timeout := 10, startBytes := none }
        pending := [0xF7, 0x01]
        lastArrival := some 0 }
    let chunk : Bytes := [0xF8, 0x00, 0xF7, 0x02, 0xF9, 0xF7]
    r.isStale 10_000_000 = false ∧
      (r.feed chunk 10_000_000).1.map Frame.bytes = [[0xF7, 0x01, 0xF8], [0xF7, 0x02, 0xF9]] ∧
      (∃ (lead : Bytes) (pieces : List (Frame × Bytes)),
        pieces.map Prod.fst = (r.feed chunk 10_000_000).1 ∧
          r.pending ++ chunk = lead ++ wire pieces ++ (r.feed chunk 10_000_000).2.pending) ∧
      ∀ frame ∈ (r.feed chunk 10_000_000).1, r.framing.IsFrame r.snapshot frame :=
  ⟨by decide, by decide, feed_accounts _ _ _ (by decide)⟩

end Reassembler
end Fieldbus
