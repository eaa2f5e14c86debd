import Fieldbus.Proofs.Channel.Resolve
import Fieldbus.Proofs.Reassembler.Feed

/-!
# How much is kept

A reassembler keeps bytes only as long as they may still become a frame, so that a head which never
becomes one does not make it keep more and more.  There are two reasons to keep bytes: the header is
not complete, or the frame is not.  `length_lt_of_waits` and `length_le_of_waits` say how many bytes
there can be with either reason, and `feed_keeps_little` that nothing else is ever kept, whatever
has been done to the reassembler before.
-/

set_option autoImplicit false

namespace Fieldbus

namespace RxFraming

variable {rx : RxFraming} {snapshot : Option Json}

/-! ## Waiting -/

/-- The step waits for the rest of the header, or for the end of the frame. -/
theorem short_of_waits {buffer : Bytes} (h : rx.plainStep snapshot buffer = .wait) :
    buffer.length < rx.header.length ∨ rx.plainEnd snapshot buffer = .wait := by
  rw [plainStep_eq] at h
  split at h
  · cases h
  · split at h
    · exact .inl ‹_›
    · exact .inr h

/-- With a fixed length, fewer bytes wait than a frame has. -/
theorem length_lt_of_waits {length : Nat} (hfixed : rx.delimiter = .fixedLength length)
    (hroom : rx.overhead < length) {buffer : Bytes}
    (h : rx.plainStep snapshot buffer = .wait) : buffer.length < length := by
  rcases short_of_waits h with hheader | hend
  · rw [overhead] at hroom
    omega
  · rw [plainEnd_of_fixed hfixed] at hend
    refine Nat.lt_of_not_le fun hle => ?_
    rw [if_neg (Nat.not_lt.2 hle)] at hend
    split at hend <;> cases hend

/-- With a marked end, no more bytes wait than a candidate may have, or than are needed to see
whether the header is complete. -/
theorem length_le_of_waits (hmarked : ∀ length, rx.delimiter ≠ .fixedLength length)
    {buffer : Bytes} (h : rx.plainStep snapshot buffer = .wait) :
    buffer.length ≤ max maxCandidateLength (rx.header.length - 1) := by
  rcases short_of_waits h with hheader | hend
  · omega
  · rw [plainEnd_of_marked hmarked] at hend
    split at hend
    · cases hend
    · split at hend
      · cases hend
      · omega

/-- What an extraction leaves behind waits, if there is anything. -/
theorem extract_stops (rx : RxFraming) (snapshot : Option Json) (buffer : Bytes) :
    (rx.extract snapshot buffer).2 = [] ∨
      rx.plainStep snapshot (rx.extract snapshot buffer).2 = .wait := by
  rw [extract_eq_scanWith]
  exact scanWith_stops rx (advances_plainStep rx snapshot) buffer

end RxFraming

/-! ## Using a reassembler

A reassembler can be given any bytes from outside, so that nothing is known of what it holds.  What
it holds after the next chunk is what an extraction left behind, and that is enough. -/

/-- Something that is done to a reassembler. -/
inductive ReassemblerCall where
  | feed (chunk : Bytes) (now : Time)
  | seed (bytes : Bytes)
  | seedAt (bytes : Bytes) (time : Time)
  | clear
  | setSnapshot (snapshot : Option Json)

namespace Reassembler

/-- The reassembler after something has been done to it. -/
def afterCall (r : Reassembler) : ReassemblerCall → Reassembler
  | .feed chunk now => (r.feed chunk now).2
  | .seed bytes => r.seed bytes
  | .seedAt bytes time => r.seedAt bytes time
  | .clear => r.clear
  | .setSnapshot snapshot => r.setSnapshot snapshot

/-- The reassembler after one thing has been done to it after another. -/
def afterCalls (r : Reassembler) (calls : List ReassemblerCall) : Reassembler :=
  calls.foldl afterCall r

theorem framing_afterCall (r : Reassembler) (call : ReassemblerCall) :
    (r.afterCall call).framing = r.framing := by
  cases call <;> rfl

/-- The framing of a reassembler never changes. -/
theorem framing_afterCalls (r : Reassembler) (calls : List ReassemblerCall) :
    (r.afterCalls calls).framing = r.framing := by
  induction calls generalizing r with
  | nil => rfl
  | cons call rest ih => exact (ih (r.afterCall call)).trans (framing_afterCall r call)

/-- **Little is kept.**  Whatever has been done to the reassembler of a channel, and however many
bytes it holds by then: after the next chunk it keeps fewer bytes than a frame has, if all frames
have the same length, and otherwise no more than a candidate may have, or than the header has but
one. -/
theorem feed_keeps_little {config : ChannelConfig} {evaluator : Option Evaluator}
    {profile : ChannelProfile} (hresolve : config.resolve evaluator = .ok profile)
    (snapshot : Option Json) (calls : List ReassemblerCall) (chunk : Bytes) (now : Time) :
    let pending := (((fresh profile.rx snapshot).afterCalls calls).feed chunk now).2.pending
    (∀ length, profile.rx.delimiter = .fixedLength length → pending.length < length) ∧
      ((∀ length, profile.rx.delimiter ≠ .fixedLength length) →
        pending.length ≤ max maxCandidateLength (profile.rx.header.length - 1)) := by
  intro pending
  have hstops : pending = [] ∨
      profile.rx.plainStep ((fresh profile.rx snapshot).afterCalls calls).snapshot pending =
        .wait := by
    have h := RxFraming.extract_stops ((fresh profile.rx snapshot).afterCalls calls).framing
      ((fresh profile.rx snapshot).afterCalls calls).snapshot
      (((fresh profile.rx snapshot).afterCalls calls).kept now ++ chunk)
    rwa [← pending_feed, framing_afterCalls, fresh_framing] at h
  refine ⟨fun length hfixed => ?_, fun hmarked => ?_⟩
  · have hroom := ChannelConfig.overhead_lt_of_resolve hresolve hfixed
    rcases hstops with hempty | hwait
    · rw [hempty, List.length_nil]
      omega
    · exact RxFraming.length_lt_of_waits hfixed hroom hwait
  · rcases hstops with hempty | hwait
    · rw [hempty, List.length_nil]
      exact Nat.zero_le _
    · exact RxFraming.length_le_of_waits hmarked hwait

/-- The noise and the two frames that were seeded are gone after the next chunk; what stays is one
byte short of a frame. -/
theorem feed_keeps_little_of_seeds :
    let config : ChannelConfig :=
      { rxHeader := [0xB0], rxChecksum := some (.named "add"), rxLength := some 4 }
    let profile : ChannelProfile :=
      { rx :=
          { header := [0xB0], footer := [], checksum := .named .add, delimiter := .fixedLength 4,
            minLength := none, maxLength := none, timeout := 10, startBytes := none }
        tx := { header := [], footer := [], checksum := .absent, delay := 50 } }
    let calls : List ReassemblerCall :=
      [.feed [0xB0, 1, 2, 0xB3, 0xB0] 0, .setSnapshot (some .null),
        .seedAt [0, 0xB0, 0, 0, 0xB0, 0xB0, 0, 0, 0xB0, 0xB0, 0xB0] 5_000_000]
    let pending := (((fresh profile.rx none).afterCalls calls).feed [0x01] 9_000_000).2.pending
    config.resolve none = .ok profile ∧ profile.rx.delimiter = .fixedLength 4 ∧
      ((fresh profile.rx none).afterCalls calls).pending.length = 12 ∧
      pending = [0xB0, 0xB0, 1] ∧ pending.length < 4 := by
  intro config profile calls pending
  have hresolve : config.resolve none = .ok profile := rfl
  have hfixed : profile.rx.delimiter = .fixedLength 4 := rfl
  obtain ⟨hlittle, -⟩ := feed_keeps_little hresolve none calls [0x01] 9_000_000
  exact ⟨hresolve, hfixed, by decide, by decide, hlittle 4 hfixed⟩

end Reassembler
end Fieldbus
