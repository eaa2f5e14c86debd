import Fieldbus.Proofs.Reassembler.Plain

/-!
# Looking for frames within bounds

Cutting a list behind its end, or taking away more than there is, does no harm to lists and natural
numbers: what is cut out is shorter, and the difference is zero.  Where bytes lie in an array both
are faults.  So this file repeats the search for frames with accesses that can fail, `slice?` and
`minus?`, and counts how often the loop is gone through.

* `step?_eq` — no access of a step fails, and the step with checked accesses decides as `step` does.
  The condition that carries this is the room that `isWrapped` asks for before anything is taken
  apart; the lengths of header, footer and checksum need not fit anything.
* `extractWithin?_spec` — neither does an access of the loop, and what it finds is what
  `extractWithin` finds.  As each step but the last takes a byte, the steps granted are not used up.
* `extract_progresses` — the main theorem.
-/

set_option autoImplicit false

namespace Fieldbus

/-! ## Checked accesses -/

/-- The bytes from one place of a list up to another, if there are these places in this order. -/
def slice? (bytes : Bytes) (first last : Nat) : Option Bytes :=
  if first ≤ last ∧ last ≤ bytes.length then some ((bytes.take last).drop first) else none

/-- What is left of a length, if there is as much to take away. -/
def minus? (length taken : Nat) : Option Nat :=
  if taken ≤ length then some (length - taken) else none

section

variable {bytes : Bytes} {n : Nat}

theorem slice?_of_le {first last : Nat} (hfirst : first ≤ last) (hlast : last ≤ bytes.length) :
    slice? bytes first last = some ((bytes.take last).drop first) :=
  if_pos ⟨hfirst, hlast⟩

theorem slice?_take (h : n ≤ bytes.length) : slice? bytes 0 n = some (bytes.take n) :=
  slice?_of_le (Nat.zero_le n) h

theorem slice?_drop (h : n ≤ bytes.length) :
    slice? bytes n bytes.length = some (bytes.drop n) := by
  rw [slice?_of_le h (Nat.le_refl _), List.take_length]

theorem minus?_of_le {length taken : Nat} (h : taken ≤ length) :
    minus? length taken = some (length - taken) :=
  if_pos h

end

namespace RxFraming

/-! ## The search with checked accesses

Each definition repeats one of the search, with the same branches in the same order.  Wherever bytes
are cut out or lengths are subtracted the access is checked, and if it fails so does the whole.  The
loop also counts its rounds, and says if it had to give up a byte. -/

/-- Does the candidate end with the footer, and the checksum verify in front of it? -/
def verifies? (rx : RxFraming) (snapshot : Option Json) (candidate : Bytes) : Option Bool := do
  if candidate.length < rx.overhead + 1 then return false
  let bodyEnd ← minus? candidate.length rx.footer.length
  if (← slice? candidate bodyEnd candidate.length) != rx.footer then return false
  let dataEnd ← minus? bodyEnd rx.checksum.length
  let header ← slice? candidate 0 rx.header.length
  let data ← slice? candidate rx.header.length dataEnd
  let checksum ← slice? candidate dataEnd bodyEnd
  return rx.checksum.verify header data checksum snapshot

/-- The first of these lengths with which a frame ends. -/
def firstEnd? (rx : RxFraming) (snapshot : Option Json) (buffer : Bytes) :
    List Nat → Option (Option Nat)
  | [] => some none
  | length :: rest => do
    let candidate ← slice? buffer 0 length
    if ← rx.verifies? snapshot candidate then return some length
    else firstEnd? rx snapshot buffer rest

/-- How far the next byte lies that may begin a frame. -/
def nextStart? (rx : RxFraming) (buffer : Bytes) : Option Nat := do
  match (← slice? buffer 1 buffer.length).findIdx? rx.isStartByte with
  | some i => return i + 1
  | none => return buffer.length

/-- Can a frame begin at the head? -/
def canBegin? (rx : RxFraming) (buffer : Bytes) : Option Bool := do
  if !rx.isStartByte (← buffer[0]?) then return false
  let n := min rx.header.length buffer.length
  return (← slice? buffer 0 n) == (← slice? rx.header 0 n)

/-- What becomes of the head of the buffer. -/
def step? (rx : RxFraming) (snapshot : Option Json) (buffer : Bytes) : Option Step := do
  if !(← rx.canBegin? buffer) then return .skip (← rx.nextStart? buffer)
  else if buffer.length < rx.header.length then return .wait
  else
    match ← rx.firstEnd? snapshot buffer (rx.candidates buffer.length) with
    | some n => return .emit n
    | none => return if rx.isExhausted buffer.length then .skip 1 else .wait

/-- What extracting comes to. -/
structure Extraction where
  frames : List Frame
  /-- The bytes left behind the frames. -/
  left : Bytes
  /-- How often the loop was gone through. -/
  rounds : Nat
  /-- Was a byte given up because the steps were used up? -/
  gaveUp : Bool

namespace Extraction

/-- The loop ends here. -/
def last (left : Bytes) : Extraction := ⟨[], left, 1, false⟩

/-- One round comes before, with the frames it found. -/
def after (run : Extraction) (frames : List Frame) : Extraction :=
  { run with frames := frames ++ run.frames, rounds := run.rounds + 1 }

end Extraction

/-- The frames at the head of the buffer, after at most `limit` steps. -/
def extractWithin? (rx : RxFraming) (snapshot : Option Json) : Nat → Bytes → Option Extraction
  | _, [] => some ⟨[], [], 0, false⟩
  | 0, buffer => do
    let left ← slice? buffer 1 buffer.length
    return { Extraction.last left with gaveUp := true }
  | limit + 1, buffer => do
    match ← rx.step? snapshot buffer with
    | .wait => return .last buffer
    | .skip n =>
      let left ← slice? buffer n buffer.length
      return (← extractWithin? rx snapshot limit left).after []
    | .emit n =>
      let bytes ← slice? buffer 0 n
      let left ← slice? buffer n buffer.length
      return (← extractWithin? rx snapshot limit left).after [.ofBytes bytes rx.header.length]

/-- The frames at the head of the buffer, and what it took to find them. -/
def extract? (rx : RxFraming) (snapshot : Option Json) (buffer : Bytes) : Option Extraction :=
  rx.extractWithin? snapshot (buffer.length + safetyMargin) buffer

/-! ## No access fails -/

variable {rx : RxFraming} {snapshot : Option Json} {buffer : Bytes}

/-- The room that is asked for first makes all that follows possible. -/
theorem verifies?_eq (candidate : Bytes) :
    rx.verifies? snapshot candidate = some (rx.verifies snapshot candidate) := by
  by_cases hshort : candidate.length < rx.overhead + 1
  · have hwrapped : rx.isWrapped candidate = false := by
      rw [isWrapped, decide_eq_false (Nat.not_le.2 hshort), Bool.false_and]
    simp only [verifies?, if_pos hshort, verifies, hwrapped, Bool.false_and, Option.pure_def]
  · have hroom : rx.overhead + 1 ≤ candidate.length := Nat.not_lt.1 hshort
    have hfooter : rx.footer.length ≤ candidate.length := by rw [overhead] at hroom; omega
    have hchecksum : rx.checksum.length ≤ candidate.length - rx.footer.length := by
      rw [overhead] at hroom; omega
    have hheader :
        rx.header.length ≤ candidate.length - rx.footer.length - rx.checksum.length := by
      rw [overhead] at hroom; omega
    have hdata :
        candidate.length - rx.footer.length - rx.checksum.length ≤ candidate.length := by omega
    simp only [verifies?, if_neg hshort, minus?_of_le hfooter, minus?_of_le hchecksum,
      slice?_drop (Nat.sub_le _ _), slice?_take (Nat.le_trans hheader hdata),
      slice?_of_le hheader hdata, slice?_of_le (Nat.sub_le _ _) (Nat.sub_le _ _), verifies, parts,
      isWrapped, decide_eq_true hroom, Option.bind_eq_bind, Option.bind_some, Option.pure_def,
      Bool.true_and]
    cases hends : candidate.drop (candidate.length - rx.footer.length) == rx.footer with
    | false => simp only [bne, hends, Bool.not_false, if_true, Bool.false_and]
    | true => simp only [bne, hends, Bool.not_true, Bool.false_eq_true, if_false, Bool.true_and]

theorem firstEnd?_eq {lengths : List Nat} (h : ∀ n ∈ lengths, n ≤ buffer.length) :
    rx.firstEnd? snapshot buffer lengths =
      some (lengths.find? fun n => rx.verifies snapshot (buffer.take n)) := by
  induction lengths with
  | nil => rfl
  | cons n rest ih =>
    rw [List.forall_mem_cons] at h
    simp only [firstEnd?, slice?_take h.1, verifies?_eq, ih h.2, List.find?_cons,
      Option.bind_eq_bind, Option.bind_some, Option.pure_def]
    cases rx.verifies snapshot (buffer.take n) with
    | false => rfl
    | true => rfl

theorem le_of_mem_candidates {available n : Nat} (h : n ∈ rx.candidates available) :
    n ≤ available := by
  unfold candidates at h
  split at h
  · split at h
    · obtain rfl := List.mem_singleton.1 h
      assumption
    · cases h
  · exact Nat.le_trans (mem_lengthsFromTo.1 h).2 (Nat.min_le_left _ _)
  · exact Nat.le_trans (mem_lengthsFromTo.1 h).2 (Nat.min_le_left _ _)

theorem nextStart?_eq (hb : buffer ≠ []) : rx.nextStart? buffer = some (rx.nextStart buffer) := by
  have hone : 1 ≤ buffer.length := List.length_pos_iff.2 hb
  simp only [nextStart?, slice?_drop hone, List.drop_one, nextStart, Option.bind_eq_bind,
    Option.bind_some, Option.pure_def]
  cases buffer.tail.findIdx? rx.isStartByte with
  | none => rfl
  | some i => rfl

theorem canBegin?_eq (hb : buffer ≠ []) : rx.canBegin? buffer = some (rx.canBegin buffer) := by
  obtain ⟨head, rest, rfl⟩ := List.exists_cons_of_ne_nil hb
  simp only [canBegin?, List.getElem?_cons_zero, slice?_take (Nat.min_le_left _ _),
    slice?_take (Nat.min_le_right _ _), canBegin, agreesWithHeader, List.head?_cons,
    Option.any_some, Option.bind_eq_bind, Option.bind_some, Option.pure_def]
  cases rx.isStartByte head with
  | false => rfl
  | true => rfl

/-- **No access of a step fails**, and the step decides as the one that does not check. -/
theorem step?_eq (hb : buffer ≠ []) :
    rx.step? snapshot buffer = some (rx.step snapshot buffer) := by
  simp only [step?, step, canBegin?_eq hb, nextStart?_eq hb,
    firstEnd?_eq fun _ => le_of_mem_candidates, Option.bind_eq_bind, Option.bind_some,
    Option.pure_def]
  cases rx.canBegin buffer with
  | false => rfl
  | true =>
    by_cases hshort : buffer.length < rx.header.length
    · simp only [if_pos hshort]
      rfl
    · simp only [if_neg hshort]
      cases (rx.candidates buffer.length).find? fun n => rx.verifies snapshot (buffer.take n) with
      | none => rfl
      | some n => rfl

/-! ## The loop -/

theorem extractWithin?_succ {limit : Nat} (hb : buffer ≠ []) :
    rx.extractWithin? snapshot (limit + 1) buffer =
      match rx.step snapshot buffer with
      | .wait => some (.last buffer)
      | .skip n => do
        let left ← slice? buffer n buffer.length
        return (← rx.extractWithin? snapshot limit left).after []
      | .emit n => do
        let bytes ← slice? buffer 0 n
        let left ← slice? buffer n buffer.length
        return (← rx.extractWithin? snapshot limit left).after
          [.ofBytes bytes rx.header.length] := by
  obtain ⟨b, rest, rfl⟩ := List.exists_cons_of_ne_nil hb
  simp only [extractWithin?, step?_eq hb, Option.bind_eq_bind, Option.bind_some]
  rfl

/-- A round that takes a byte pays for itself. -/
theorem Extraction.rounds_after_le {run : Extraction} (frames : List Frame) {n : Nat} (hn : 0 < n)
    (hle : n ≤ buffer.length) (h : run.rounds ≤ (buffer.drop n).length) :
    (run.after frames).rounds ≤ buffer.length := by
  have hrounds : (run.after frames).rounds = run.rounds + 1 := rfl
  rw [List.length_drop] at h
  omega

/-- **No access of the loop fails**, it finds what the one that does not check finds, and there are
no more rounds than bytes: a step that goes on has taken a byte, and the next round needs one. -/
theorem extractWithin?_spec {limit : Nat} (hlimit : buffer.length ≤ limit) :
    ∃ run, rx.extractWithin? snapshot limit buffer = some run ∧
      (run.frames, run.left) = rx.extractWithin snapshot limit buffer ∧
      run.rounds ≤ buffer.length ∧ run.gaveUp = false := by
  induction limit generalizing buffer with
  | zero =>
    obtain rfl : buffer = [] := List.length_eq_zero_iff.1 (Nat.le_zero.1 hlimit)
    exact ⟨_, rfl, rfl, Nat.le_refl _, rfl⟩
  | succ limit ih =>
    by_cases hb : buffer = []
    · subst hb
      exact ⟨_, rfl, rfl, Nat.le_refl _, rfl⟩
    rw [extractWithin?_succ hb, extractWithin_succ hb]
    cases hstep : rx.step snapshot buffer with
    | wait => exact ⟨_, rfl, rfl, List.length_pos_iff.2 hb, rfl⟩
    | skip n =>
      obtain ⟨hn, hle⟩ := (advances_step rx snapshot).skip hb hstep
      have hleft : (buffer.drop n).length ≤ limit := by rw [List.length_drop]; omega
      obtain ⟨run, hrun, hfound, hrounds, hgaveUp⟩ := ih hleft
      refine ⟨run.after [], ?_, hfound, ?_, hgaveUp⟩
      · simp only [slice?_drop hle, hrun, Option.bind_eq_bind, Option.bind_some, Option.pure_def]
      · exact Extraction.rounds_after_le _ hn hle hrounds
    | emit n =>
      obtain ⟨hn, hle⟩ := (advances_step rx snapshot).emit hb hstep
      have hleft : (buffer.drop n).length ≤ limit := by rw [List.length_drop]; omega
      obtain ⟨run, hrun, hfound, hrounds, hgaveUp⟩ := ih hleft
      refine ⟨run.after [.ofBytes (buffer.take n) rx.header.length], ?_, ?_, ?_, hgaveUp⟩
      · simp only [slice?_take hle, slice?_drop hle, hrun, Option.bind_eq_bind, Option.bind_some,
          Option.pure_def]
      · simp only [← hfound]
        rfl
      · exact Extraction.rounds_after_le _ hn hle hrounds

/-- **The search for frames goes on, and stays within bounds.**  Whatever a channel says of its
frames and whatever is buffered: a step waits, or takes at least one byte and not more than there
are, and none of its accesses fails; extracting ends after no more rounds than there are bytes, none
of its accesses fails either, and no byte is given up for want of steps. -/
theorem extract_progresses (rx : RxFraming) (snapshot : Option Json) (buffer : Bytes) :
    (buffer ≠ [] →
      rx.step? snapshot buffer = some (rx.step snapshot buffer) ∧
        (rx.step snapshot buffer = .wait ∨ ∃ n, 0 < n ∧ n ≤ buffer.length ∧
          (rx.step snapshot buffer = .emit n ∨ rx.step snapshot buffer = .skip n))) ∧
      ∃ run, rx.extract? snapshot buffer = some run ∧
        (run.frames, run.left) = rx.extract snapshot buffer ∧
        run.rounds ≤ buffer.length ∧ run.gaveUp = false := by
  refine ⟨fun hb => ⟨step?_eq hb, ?_⟩, extractWithin?_spec (Nat.le_add_right _ _)⟩
  cases hstep : rx.step snapshot buffer with
  | wait => exact .inl rfl
  | emit n =>
    obtain ⟨hn, hle⟩ := (advances_step rx snapshot).emit hb hstep
    exact .inr ⟨n, hn, hle, .inl rfl⟩
  | skip n =>
    obtain ⟨hn, hle⟩ := (advances_step rx snapshot).skip hb hstep
    exact .inr ⟨n, hn, hle, .inr rfl⟩

/-- A byte of noise, a frame, and the first half of a header. -/
theorem extract_progresses_of_frame :
    let rx : RxFraming :=
      { header := [0xF7, 0x0E], footer := [0xEE], checksum := .named .xor, delimiter := .footer,
        minLength := none, maxLength := none, timeout := 10, startBytes := none }
    let buffer : Bytes := [0x01, 0xF7, 0x0E, 0x20, 0xD9, 0xEE, 0xF7]
    buffer ≠ [] ∧ rx.step? none buffer = some (.skip 1) ∧
      ∃ run, rx.extract? none buffer = some run ∧
        run.frames.map Frame.bytes = [[0xF7, 0x0E, 0x20, 0xD9, 0xEE]] ∧ run.left = [0xF7] ∧
        run.rounds ≤ 7 ∧ run.gaveUp = false := by
  intro rx buffer
  have hb : buffer ≠ [] := List.cons_ne_nil _ _
  obtain ⟨hstep, run, hrun, hfound, hrounds, hgaveUp⟩ := extract_progresses rx none buffer
  have hframes : (rx.extract none buffer).1.map Frame.bytes = [[0xF7, 0x0E, 0x20, 0xD9, 0xEE]] := by
    decide
  have hleft : (rx.extract none buffer).2 = [0xF7] := by decide
  rw [← hfound] at hframes hleft
  exact ⟨hb, (hstep hb).1, run, hrun, hframes, hleft, hrounds, hgaveUp⟩

end RxFraming
end Fieldbus
