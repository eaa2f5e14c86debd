import Fieldbus.Reassembler.Step

/-!
# Scanning

`RxFraming.extract` repeats a step.  This file separates the repetition from the step: `scanWith`
repeats *any* decision about the head of a buffer, without a limit on the number of steps, and what
is proved about it here is proved once for every such decision.

## What is here

* `Advances next` — the decision never takes nothing, and never more than there is.  For a decision
  like that `scanWith` is described by three equations, one for each thing a step can do
  (`scanWith_wait`, `scanWith_skip`, `scanWith_emit`).
* `Stable next` — a decision taken on a short buffer is also taken on every longer one.  Such a
  scanner does not care where a stream is cut: `scanWith_append`.
* `scanWith_pieces` — the frames and the bytes left behind are parts of the buffer, in order, and
  no two of them share a byte.
-/

set_option autoImplicit false

namespace Fieldbus
namespace RxFraming

/-! ## Repeating a decision

The recursion must end whatever is decided, so at least one byte is taken each time; for a decision
that `Advances` this makes no difference.  The induction that follows it, `Advances.induction`, has
one case for each thing that a step can do. -/

/-- The frames that are found by repeating the decision `next` about the head of the buffer, and the
bytes left behind them.  Whatever is decided, at least one byte is taken. -/
def scanWith (rx : RxFraming) (next : Bytes → Step) : Bytes → List Frame × Bytes
  | [] => ([], [])
  | b :: rest =>
    match next (b :: rest) with
    | .wait => ([], b :: rest)
    | .skip n => scanWith rx next (rest.drop (n - 1))
    | .emit n =>
      let (frames, left) := scanWith rx next (rest.drop (n - 1))
      (Frame.ofBytes ((b :: rest).take n) rx.header.length :: frames, left)
termination_by buffer => buffer.length
decreasing_by all_goals simp only [List.length_drop, List.length_cons]; omega

/-- The decision takes at least one byte and never more than there are. -/
structure Advances (next : Bytes → Step) : Prop where
  skip : ∀ {buffer : Bytes} {n : Nat}, buffer ≠ [] → next buffer = .skip n →
    0 < n ∧ n ≤ buffer.length
  emit : ∀ {buffer : Bytes} {n : Nat}, buffer ≠ [] → next buffer = .emit n →
    0 < n ∧ n ≤ buffer.length

/-- Bytes that come later do not change a decision that has been taken. -/
def Stable (next : Bytes → Step) : Prop :=
  ∀ buffer later : Bytes, buffer ≠ [] → next buffer ≠ .wait → next (buffer ++ later) = next buffer

variable {rx : RxFraming} {next : Bytes → Step}

@[simp] theorem scanWith_nil : scanWith rx next [] = ([], []) := by rw [scanWith]

theorem scanWith_wait {buffer : Bytes} (h : next buffer = .wait) :
    scanWith rx next buffer = ([], buffer) := by
  cases buffer with
  | nil => exact scanWith_nil
  | cons b rest => rw [scanWith, h]

theorem scanWith_skip {buffer : Bytes} {n : Nat} (h : next buffer = .skip n) (hn : 0 < n) :
    scanWith rx next buffer = scanWith rx next (buffer.drop n) := by
  cases buffer with
  | nil => simp
  | cons b rest =>
    obtain ⟨n, rfl⟩ : ∃ m, n = m + 1 := ⟨n - 1, by omega⟩
    rw [scanWith, h]
    rfl

theorem scanWith_emit {buffer : Bytes} {n : Nat} (hb : buffer ≠ []) (h : next buffer = .emit n)
    (hn : 0 < n) :
    scanWith rx next buffer =
      (Frame.ofBytes (buffer.take n) rx.header.length :: (scanWith rx next (buffer.drop n)).1,
        (scanWith rx next (buffer.drop n)).2) := by
  cases buffer with
  | nil => exact absurd rfl hb
  | cons b rest =>
    obtain ⟨n, rfl⟩ : ∃ m, n = m + 1 := ⟨n - 1, by omega⟩
    rw [scanWith, h]
    rfl

/-- Induction along a scan: what becomes of the head, and then of the bytes behind it. -/
theorem Advances.induction (hnext : Advances next) {motive : Bytes → Prop}
    (nil : motive [])
    (wait : ∀ buffer, buffer ≠ [] → next buffer = .wait → motive buffer)
    (skip : ∀ buffer n, buffer ≠ [] → next buffer = .skip n → 0 < n → n ≤ buffer.length →
      motive (buffer.drop n) → motive buffer)
    (emit : ∀ buffer n, buffer ≠ [] → next buffer = .emit n → 0 < n → n ≤ buffer.length →
      motive (buffer.drop n) → motive buffer)
    (buffer : Bytes) : motive buffer := by
  induction hlen : buffer.length using Nat.strongRecOn generalizing buffer with
  | ind len ih =>
    by_cases hb : buffer = []
    · exact hb ▸ nil
    have hpos : 0 < buffer.length := List.length_pos_iff.2 hb
    have hdrop : ∀ n, 0 < n → motive (buffer.drop n) := fun n hn =>
      ih _ (by rw [List.length_drop]; omega) _ rfl
    cases h : next buffer with
    | wait => exact wait buffer hb h
    | skip n =>
      obtain ⟨hn, hle⟩ := hnext.skip hb h
      exact skip buffer n hb h hn hle (hdrop n hn)
    | emit n =>
      obtain ⟨hn, hle⟩ := hnext.emit hb h
      exact emit buffer n hb h hn hle (hdrop n hn)

/-! ## Scanning in two parts

By induction along the scan of the first part.  As long as something is decided there, the same is
decided with the second part behind it, by stability.  Where the first scan stops, its bytes left
are what the scan of both parts has come to. -/

/-- **It does not matter where a stream is cut.**  Scanning two parts together is scanning the first
part, and then what it left behind together with the second part. -/
theorem scanWith_append (rx : RxFraming) (hnext : Advances next) (hstable : Stable next)
    (first second : Bytes) :
    scanWith rx next (first ++ second) =
      ((scanWith rx next first).1 ++ (scanWith rx next ((scanWith rx next first).2 ++ second)).1,
        (scanWith rx next ((scanWith rx next first).2 ++ second)).2) := by
  induction first using hnext.induction with
  | nil => simp
  | wait buffer hb h => rw [scanWith_wait h]; rfl
  | skip buffer n hb h hn hle ih =>
    have happend : next (buffer ++ second) = .skip n := by
      rw [hstable buffer second hb (by simp [h]), h]
    rw [scanWith_skip happend hn, scanWith_skip h hn, List.drop_append_of_le_length hle, ih]
  | emit buffer n hb h hn hle ih =>
    have happend : next (buffer ++ second) = .emit n := by
      rw [hstable buffer second hb (by simp [h]), h]
    rw [scanWith_emit (by simp [hb]) happend hn, scanWith_emit hb h hn,
      List.drop_append_of_le_length hle, List.take_append_of_le_length hle, ih]
    rfl

/-- What a scan leaves behind holds no frame. -/
theorem scanWith_left (rx : RxFraming) (hnext : Advances next) (hstable : Stable next)
    (buffer : Bytes) :
    scanWith rx next (scanWith rx next buffer).2 = ([], (scanWith rx next buffer).2) := by
  have h := scanWith_append rx hnext hstable buffer []
  rw [List.append_nil, List.append_nil] at h
  have hframes := congrArg Prod.fst h
  have hleft := congrArg Prod.snd h
  exact Prod.ext (List.self_eq_append_right.1 hframes) hleft.symm

/-- A scan stops where more bytes are needed, or where none are left. -/
theorem scanWith_stops (rx : RxFraming) (hnext : Advances next) (buffer : Bytes) :
    (scanWith rx next buffer).2 = [] ∨ next (scanWith rx next buffer).2 = .wait := by
  induction buffer using hnext.induction with
  | nil => exact .inl (congrArg Prod.snd scanWith_nil)
  | wait buffer hb h => rw [scanWith_wait h]; exact .inr h
  | skip buffer n hb h hn hle ih => rw [scanWith_skip h hn]; exact ih
  | emit buffer n hb h hn hle ih => rw [scanWith_emit hb h hn]; exact ih

/-! ## The frames as parts of the buffer

Each frame is followed by some bytes that belong to none, and in front of the first there may be
some as well.  Put together in order they are the buffer again, so no byte is used twice, lost, or
moved. -/

/-- The bytes of frames, each followed by the bytes behind it that belong to no frame. -/
def wire (pieces : List (Frame × Bytes)) : Bytes :=
  pieces.flatMap fun piece => piece.1.bytes ++ piece.2

/-- **Every byte is accounted for once.**  The buffer consists of the frames in their order, of
bytes before, between and behind them that belong to no frame, and of the bytes left behind. -/
theorem scanWith_pieces (rx : RxFraming) (hnext : Advances next) (buffer : Bytes) :
    ∃ (lead : Bytes) (pieces : List (Frame × Bytes)),
      pieces.map Prod.fst = (scanWith rx next buffer).1 ∧
        buffer = lead ++ wire pieces ++ (scanWith rx next buffer).2 := by
  induction buffer using hnext.induction with
  | nil => exact ⟨[], [], by simp [wire]⟩
  | wait buffer hb h =>
    rw [scanWith_wait h]
    exact ⟨[], [], by simp [wire]⟩
  | skip buffer n hb h hn hle ih =>
    obtain ⟨lead, pieces, hfst, hbuffer⟩ := ih
    rw [scanWith_skip h hn]
    refine ⟨buffer.take n ++ lead, pieces, hfst, ?_⟩
    rw [List.append_assoc, List.append_assoc, ← List.append_assoc lead, ← hbuffer,
      List.take_append_drop]
  | emit buffer n hb h hn hle ih =>
    obtain ⟨lead, pieces, hfst, hbuffer⟩ := ih
    rw [scanWith_emit hb h hn]
    refine ⟨[], (Frame.ofBytes (buffer.take n) rx.header.length, lead) :: pieces,
      by simp [hfst], ?_⟩
    calc buffer = buffer.take n ++ buffer.drop n := (List.take_append_drop n buffer).symm
      _ = buffer.take n ++ (lead ++ wire pieces ++ (scanWith rx next (buffer.drop n)).2) := by
        rw [← hbuffer]
      _ = _ := by simp [wire]

/-- A frame is found where the decision is to emit it. -/
theorem mem_scanWith (hnext : Advances next) {buffer : Bytes} {frame : Frame}
    (hf : frame ∈ (scanWith rx next buffer).1) :
    ∃ (here : Bytes) (n : Nat), here ≠ [] ∧ next here = .emit n ∧
      frame = Frame.ofBytes (here.take n) rx.header.length := by
  induction buffer using hnext.induction with
  | nil => simp at hf
  | wait buffer hb h => simp [scanWith_wait h] at hf
  | skip buffer n hb h hn hle ih =>
    rw [scanWith_skip h hn] at hf
    exact ih hf
  | emit buffer n hb h hn hle ih =>
    rw [scanWith_emit hb h hn] at hf
    rcases List.mem_cons.1 hf with rfl | hf
    · exact ⟨buffer, n, hb, h, rfl⟩
    · exact ih hf

end RxFraming
end Fieldbus
