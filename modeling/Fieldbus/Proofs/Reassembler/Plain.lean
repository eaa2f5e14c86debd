import Fieldbus.Proofs.Reassembler.Candidate
import Fieldbus.Proofs.Reassembler.Scan

/-!
# The plain scanner

`RxFraming.step` is written to be quick: where no frame can begin it jumps to the next byte that may
begin one, and it lists the lengths worth trying before it tries them.  `plainStep` is the same rule
without any of that.  It looks at the first byte and at the header, drops exactly one byte where no
frame begins, and otherwise looks through all prefixes of the buffer for the shortest one that is a
frame.

## What is here

* `AdmitsLength`, `contradictsHeader`, `plainStep`, `plainScan` — the plain scanner.
* `step_eq_plainStep` — where a frame can begin, the quick step and the plain one decide alike.
* `plainScan_drop` — where none can, the plain scanner comes by single bytes to the place that
  the quick one jumps to, and finds nothing on the way.
* `extract_eq_plainScan` — hence both find the same frames and leave the same bytes behind.
* `stable_plainStep` — the plain step decides on a short buffer as on every longer one.  This is
  *not* true of the quick step, whose jump stops at the end of the buffer; it is the reason why
  everything about streams is proved of the plain one.

## Why they agree

Both scanners stand at the same place at first, and they part only where no frame can begin.  There
the quick one jumps and the plain one drops a byte.  The jump goes to the next byte that may begin a
frame, so at every place in between the plain scanner finds such a byte missing and drops one more;
after as many steps as the jump is long they meet again.  The limit on the steps of the quick one
does not come into it, for every step takes a byte and there are more steps than bytes.

Where a frame can begin, they agree for another reason.  The lengths worth trying are those of
`AdmitsLength` with room for a frame, from the shortest on, and a candidate without room for one
does not verify.  So the first candidate that verifies is the shortest prefix that does.
-/

set_option autoImplicit false

namespace Fieldbus
namespace RxFraming

/-! ## The scanner -/

/-- May a frame whose end is marked by a footer or a checksum have so many bytes? -/
def AdmitsLength (rx : RxFraming) (n : Nat) : Prop :=
  rx.overhead + 1 ≤ n ∧ n ≤ maxCandidateLength ∧
    (rx.delimiter = .footer → ∀ least ∈ rx.minLength, least ≤ n)

instance (rx : RxFraming) (n : Nat) : Decidable (rx.AdmitsLength n) :=
  inferInstanceAs (Decidable (_ ∧ _ ∧ (_ → ∀ least ∈ rx.minLength, least ≤ n)))

/-- Do the bytes that there are differ from the header somewhere? -/
def contradictsHeader (rx : RxFraming) (buffer : Bytes) : Bool :=
  !(rx.header.isPrefixOf buffer || buffer.isPrefixOf rx.header)

/-- The length of the shortest prefix that is a frame. -/
def shortestFrame? (rx : RxFraming) (snapshot : Option Json) (buffer : Bytes) : Option Nat :=
  (List.range (buffer.length + 1)).find? fun n =>
    rx.AdmitsLength n && rx.verifies snapshot (buffer.take n)

/-- What becomes of the head of the buffer, if a frame can begin there. -/
def plainEnd (rx : RxFraming) (snapshot : Option Json) (buffer : Bytes) : Step :=
  match rx.delimiter with
  | .fixedLength n =>
    if buffer.length < n then .wait
    else if rx.verifies snapshot (buffer.take n) then .emit n
    else .skip 1
  | _ =>
    match rx.shortestFrame? snapshot buffer with
    | some n => .emit n
    | none => if maxCandidateLength < buffer.length then .skip 1 else .wait

/-- What becomes of the head of the buffer, decided one byte at a time. -/
def plainStep (rx : RxFraming) (snapshot : Option Json) (buffer : Bytes) : Step :=
  if !buffer.head?.any rx.isStartByte || rx.contradictsHeader buffer then .skip 1
  else if buffer.length < rx.header.length then .wait
  else rx.plainEnd snapshot buffer

/-- The frames that the plain scanner finds in a buffer, and the bytes it leaves behind. -/
def plainScan (rx : RxFraming) (snapshot : Option Json) (buffer : Bytes) : List Frame × Bytes :=
  rx.scanWith (rx.plainStep snapshot) buffer

variable {rx : RxFraming} {snapshot : Option Json}

/-! ## Where a frame can begin -/

theorem contradictsHeader_eq_false {buffer : Bytes} :
    rx.contradictsHeader buffer = false ↔ rx.header <+: buffer ∨ buffer <+: rx.header := by
  rw [contradictsHeader, Bool.not_eq_false', Bool.or_eq_true, List.isPrefixOf_iff_prefix,
    List.isPrefixOf_iff_prefix]

/-- The quick comparison with the header sees what the plain one sees. -/
theorem agreesWithHeader_iff {buffer : Bytes} :
    rx.agreesWithHeader buffer = true ↔ rx.contradictsHeader buffer = false := by
  rw [agreesWithHeader, beq_iff_eq, contradictsHeader_eq_false]
  constructor
  · intro heq
    rcases Nat.le_total rx.header.length buffer.length with h | h
    · rw [Nat.min_eq_left h, List.take_length] at heq
      exact Or.inl (heq ▸ List.take_prefix _ _)
    · rw [Nat.min_eq_right h, List.take_length] at heq
      exact Or.inr (heq ▸ List.take_prefix _ _)
  · rintro (⟨later, hbuffer⟩ | ⟨later, hheader⟩)
    · rw [← hbuffer]; simp
    · rw [← hheader]; simp

/-- More bytes do not undo a difference from the header. -/
theorem contradictsHeader_of_append {buffer later : Bytes}
    (h : rx.contradictsHeader (buffer ++ later) = false) : rx.contradictsHeader buffer = false := by
  rw [contradictsHeader_eq_false] at h ⊢
  rcases h with h | h
  · exact List.prefix_or_prefix_of_prefix h (List.prefix_append buffer later)
  · exact Or.inr ((List.prefix_append buffer later).trans h)

/-- The header stands at the head of a buffer that is long enough and does not contradict it. -/
theorem header_isPrefixOf {buffer : Bytes} (h : rx.contradictsHeader buffer = false)
    (hlen : rx.header.length ≤ buffer.length) : rx.header <+: buffer := by
  rcases contradictsHeader_eq_false.1 h with h | h
  · exact h
  · exact h.eq_of_length_le hlen ▸ List.prefix_refl _

theorem contradictsHeader_append {buffer : Bytes} (later : Bytes)
    (h : rx.contradictsHeader buffer = false) (hlen : rx.header.length ≤ buffer.length) :
    rx.contradictsHeader (buffer ++ later) = false :=
  contradictsHeader_eq_false.2 (Or.inl ((header_isPrefixOf h hlen).trans (List.prefix_append _ _)))

/-! ## The shortest frame -/

theorem shortestFrame?_eq_some {buffer : Bytes} {n : Nat} :
    rx.shortestFrame? snapshot buffer = some n ↔
      (rx.AdmitsLength n ∧ rx.verifies snapshot (buffer.take n) = true) ∧ n ≤ buffer.length ∧
        ∀ m < n, rx.AdmitsLength m → rx.verifies snapshot (buffer.take m) = false := by
  simp only [shortestFrame?, List.find?_range_eq_some, Bool.and_eq_true, decide_eq_true_eq,
    List.mem_range, Nat.lt_succ_iff, Bool.not_eq_true', Bool.and_eq_false_imp]

theorem shortestFrame?_eq_none {buffer : Bytes} :
    rx.shortestFrame? snapshot buffer = none ↔
      ∀ m ≤ buffer.length, rx.AdmitsLength m → rx.verifies snapshot (buffer.take m) = false := by
  simp only [shortestFrame?, List.find?_range_eq_none, Nat.lt_succ_iff, Bool.not_eq_true',
    Bool.and_eq_false_imp, decide_eq_true_eq]

/-- With more bytes the shortest frame stays the shortest. -/
theorem shortestFrame?_append {buffer : Bytes} {n : Nat} (later : Bytes)
    (h : rx.shortestFrame? snapshot buffer = some n) :
    rx.shortestFrame? snapshot (buffer ++ later) = some n := by
  obtain ⟨⟨hadmits, hverifies⟩, hle, hmin⟩ := shortestFrame?_eq_some.1 h
  have htake : ∀ m ≤ n, (buffer ++ later).take m = buffer.take m := fun m hm =>
    List.take_append_of_le_length (Nat.le_trans hm hle)
  refine shortestFrame?_eq_some.2 ⟨⟨hadmits, ?_⟩, ?_, fun m hm hm' => ?_⟩
  · rw [htake n (Nat.le_refl n)]; exact hverifies
  · rw [List.length_append]; omega
  · rw [htake m (Nat.le_of_lt hm)]; exact hmin m hm hm'

/-- Once there are more bytes than any frame has, none will begin here. -/
theorem shortestFrame?_append_eq_none {buffer : Bytes} (later : Bytes)
    (h : rx.shortestFrame? snapshot buffer = none) (hlen : maxCandidateLength < buffer.length) :
    rx.shortestFrame? snapshot (buffer ++ later) = none := by
  rw [shortestFrame?_eq_none] at h ⊢
  intro m _ hm
  have hle : m ≤ buffer.length := Nat.le_trans hm.2.1 (Nat.le_of_lt hlen)
  rw [List.take_append_of_le_length hle]
  exact h m hle hm

/-! ## The plain step, case by case

All three decisions have to be compared with those on a longer buffer.  A byte is dropped for a
reason that more bytes do not remove.  A frame is emitted because it is the shortest, and more bytes
bring no shorter one.  Waiting is the only decision that more bytes may change. -/

theorem plainEnd_of_fixed {length : Nat} (h : rx.delimiter = .fixedLength length)
    (buffer : Bytes) :
    rx.plainEnd snapshot buffer =
      if buffer.length < length then .wait
      else if rx.verifies snapshot (buffer.take length) then .emit length
      else .skip 1 := by
  rw [plainEnd, h]

theorem plainEnd_of_marked (h : ∀ length, rx.delimiter ≠ .fixedLength length) (buffer : Bytes) :
    rx.plainEnd snapshot buffer =
      match rx.shortestFrame? snapshot buffer with
      | some n => .emit n
      | none => if maxCandidateLength < buffer.length then .skip 1 else .wait := by
  unfold plainEnd
  split
  · rename_i length hdelimiter; exact absurd hdelimiter (h length)
  · rfl

theorem fixed_or_marked (rx : RxFraming) :
    (∃ length, rx.delimiter = .fixedLength length) ∨
      ∀ length, rx.delimiter ≠ .fixedLength length := by
  cases rx.delimiter <;> simp

/-- The length of a frame that the plain scanner emits. -/
def HasFrameLength (rx : RxFraming) (n : Nat) : Prop :=
  match rx.delimiter with
  | .fixedLength length => n = length
  | _ => rx.AdmitsLength n

theorem plainEnd_skip {buffer : Bytes} {n : Nat} (h : rx.plainEnd snapshot buffer = .skip n) :
    n = 1 := by
  rcases fixed_or_marked rx with ⟨length, hfixed⟩ | hmarked
  · rw [plainEnd_of_fixed hfixed] at h
    split at h
    · simp at h
    · split at h <;> simp_all
  · rw [plainEnd_of_marked hmarked] at h
    split at h
    · simp at h
    · split at h <;> simp_all

theorem plainEnd_emit {buffer : Bytes} {n : Nat} (h : rx.plainEnd snapshot buffer = .emit n) :
    rx.HasFrameLength n ∧ n ≤ buffer.length ∧ rx.verifies snapshot (buffer.take n) = true := by
  unfold HasFrameLength
  unfold plainEnd at h
  split at h
  · split at h
    · simp at h
    · rename_i hlen
      split at h
      · rename_i hverifies
        cases h
        exact ⟨rfl, Nat.le_of_not_lt hlen, hverifies⟩
      · simp at h
  · split at h
    · rename_i hfind
      cases h
      obtain ⟨⟨hadmits, hverifies⟩, hle, -⟩ := shortestFrame?_eq_some.1 hfind
      exact ⟨hadmits, hle, hverifies⟩
    · split at h <;> simp at h

/-- Once the end of a frame is found, or none can be any more, later bytes change nothing. -/
theorem plainEnd_append {buffer : Bytes} (later : Bytes)
    (h : rx.plainEnd snapshot buffer ≠ .wait) :
    rx.plainEnd snapshot (buffer ++ later) = rx.plainEnd snapshot buffer := by
  rcases fixed_or_marked rx with ⟨length, hfixed⟩ | hmarked
  · simp only [plainEnd_of_fixed hfixed] at h ⊢
    have hle : ¬ buffer.length < length := fun hlt => h (if_pos hlt)
    rw [if_neg hle, if_neg (by rw [List.length_append]; omega),
      List.take_append_of_le_length (Nat.le_of_not_lt hle)]
  · simp only [plainEnd_of_marked hmarked] at h ⊢
    cases hfind : rx.shortestFrame? snapshot buffer with
    | some n => rw [shortestFrame?_append later hfind]
    | none =>
      simp only [hfind] at h
      have hlen : maxCandidateLength < buffer.length :=
        Decidable.not_not.1 fun hle => h (if_neg hle)
      rw [shortestFrame?_append_eq_none later hfind hlen]
      simp only [hlen, if_true]
      rw [if_pos (by rw [List.length_append]; omega)]

theorem canBegin_iff {buffer : Bytes} :
    rx.canBegin buffer = true ↔
      buffer.head?.any rx.isStartByte = true ∧ rx.contradictsHeader buffer = false := by
  rw [canBegin, Bool.and_eq_true, agreesWithHeader_iff]

theorem plainStep_eq (buffer : Bytes) :
    rx.plainStep snapshot buffer =
      if rx.canBegin buffer = false then .skip 1
      else if buffer.length < rx.header.length then .wait
      else rx.plainEnd snapshot buffer := by
  rw [plainStep]
  cases hstart : buffer.head?.any rx.isStartByte <;>
    cases hheader : rx.contradictsHeader buffer <;>
    simp [← Bool.not_eq_true, canBegin_iff, hstart, hheader]

theorem plainStep_of_not_canBegin {buffer : Bytes} (h : rx.canBegin buffer = false) :
    rx.plainStep snapshot buffer = .skip 1 := by
  rw [plainStep_eq, if_pos h]

theorem plainStep_of_canBegin {buffer : Bytes} (h : rx.canBegin buffer = true) :
    rx.plainStep snapshot buffer =
      if buffer.length < rx.header.length then .wait else rx.plainEnd snapshot buffer := by
  rw [plainStep_eq, if_neg (by simp [h])]

/-- **What the plain step can do.**  It drops one byte where no frame begins; it waits; or it
decides by the end of the frame, in a buffer that begins rightly. -/
theorem plainStep_cases (rx : RxFraming) (snapshot : Option Json) (buffer : Bytes) :
    (rx.canBegin buffer = false ∧ rx.plainStep snapshot buffer = .skip 1) ∨
      rx.plainStep snapshot buffer = .wait ∨
      (rx.canBegin buffer = true ∧ rx.header.length ≤ buffer.length ∧
        rx.plainStep snapshot buffer = rx.plainEnd snapshot buffer) := by
  cases h : rx.canBegin buffer with
  | false => exact Or.inl ⟨rfl, plainStep_of_not_canBegin h⟩
  | true =>
    rw [plainStep_of_canBegin h]
    by_cases hlen : buffer.length < rx.header.length
    · exact Or.inr (Or.inl (if_pos hlen))
    · exact Or.inr (Or.inr ⟨rfl, Nat.le_of_not_lt hlen, if_neg hlen⟩)

theorem advances_plainStep (rx : RxFraming) (snapshot : Option Json) :
    Advances (rx.plainStep snapshot) where
  skip := by
    intro buffer n hb h
    have hpos := List.length_pos_iff.2 hb
    obtain rfl : n = 1 := by
      rcases plainStep_cases rx snapshot buffer with
        ⟨-, hskip⟩ | hwait | ⟨-, -, hend⟩
      · rw [h] at hskip; cases hskip; rfl
      · rw [h] at hwait; cases hwait
      · exact plainEnd_skip (hend ▸ h)
    exact ⟨Nat.one_pos, hpos⟩
  emit := by
    intro buffer n hb h
    rcases plainStep_cases rx snapshot buffer with
      ⟨-, hskip⟩ | hwait | ⟨-, -, hend⟩
    · rw [h] at hskip; cases hskip
    · rw [h] at hwait; cases hwait
    · obtain ⟨-, hle, hverifies⟩ := plainEnd_emit (hend ▸ h)
      exact ⟨Nat.pos_of_ne_zero (pos_of_verifies_take hverifies).2, hle⟩

theorem head?_append {buffer : Bytes} (hb : buffer ≠ []) (later : Bytes) :
    (buffer ++ later).head? = buffer.head? := by
  obtain ⟨b, rest, rfl⟩ := List.exists_cons_of_ne_nil hb
  rfl

theorem canBegin_append {buffer : Bytes} (later : Bytes) (hb : buffer ≠ [])
    (hlen : rx.header.length ≤ buffer.length) :
    rx.canBegin (buffer ++ later) = rx.canBegin buffer := by
  rw [Bool.eq_iff_iff, canBegin_iff, canBegin_iff, head?_append hb]
  exact and_congr_right fun _ =>
    ⟨contradictsHeader_of_append, fun h => contradictsHeader_append later h hlen⟩

theorem canBegin_append_eq_false {buffer : Bytes} (later : Bytes) (hb : buffer ≠ [])
    (h : rx.canBegin buffer = false) : rx.canBegin (buffer ++ later) = false := by
  rw [← Bool.not_eq_true, canBegin_iff] at h ⊢
  rw [head?_append hb]
  exact fun hand => h ⟨hand.1, contradictsHeader_of_append hand.2⟩

/-- **The plain step decides on a short buffer as on every longer one.** -/
theorem stable_plainStep (rx : RxFraming) (snapshot : Option Json) :
    Stable (rx.plainStep snapshot) := by
  intro buffer later hb hwait
  rcases plainStep_cases rx snapshot buffer with
    ⟨hbegin, hskip⟩ | h | ⟨hbegin, hlen, hend⟩
  · rw [hskip, plainStep_of_not_canBegin (canBegin_append_eq_false later hb hbegin)]
  · exact absurd h hwait
  · rw [hend] at hwait ⊢
    rw [plainStep_of_canBegin (by rw [canBegin_append later hb hlen, hbegin]),
      if_neg (by rw [List.length_append]; omega), plainEnd_append later hwait]

/-! ## The quick step, compared -/

/-- The lengths that the quick step tries are those that the plain one admits, as far as a candidate
of that length can verify at all. -/
theorem mem_candidates_iff (hmarked : ∀ length, rx.delimiter ≠ .fixedLength length)
    {buffer : Bytes} {n : Nat} (hverifies : rx.verifies snapshot (buffer.take n) = true) :
    n ∈ rx.candidates buffer.length ↔ rx.AdmitsLength n ∧ n ≤ buffer.length := by
  have hlt := (pos_of_verifies_take hverifies).1
  unfold candidates AdmitsLength
  split
  · rename_i length hfixed; exact absurd hfixed (hmarked length)
  · rename_i hfooter
    rw [mem_lengthsFromTo]
    cases rx.minLength <;> simp [hfooter] <;> omega
  · rename_i hchecksum
    rw [mem_lengthsFromTo]
    rw [overhead] at hlt ⊢
    simp [hchecksum]
    omega

theorem candidates_of_marked (hmarked : ∀ length, rx.delimiter ≠ .fixedLength length)
    (available : Nat) :
    ∃ least greatest, rx.candidates available = lengthsFromTo least greatest := by
  unfold candidates
  split
  · rename_i length hfixed; exact absurd hfixed (hmarked length)
  · exact ⟨_, _, rfl⟩
  · exact ⟨_, _, rfl⟩

/-- The first candidate that verifies is the shortest frame. -/
theorem find?_candidates (hmarked : ∀ length, rx.delimiter ≠ .fixedLength length)
    (buffer : Bytes) :
    ((rx.candidates buffer.length).find? fun n => rx.verifies snapshot (buffer.take n)) =
      rx.shortestFrame? snapshot buffer := by
  obtain ⟨least, greatest, hcandidates⟩ := candidates_of_marked hmarked buffer.length
  have hmem : ∀ {n : Nat}, rx.verifies snapshot (buffer.take n) = true →
      ((least ≤ n ∧ n ≤ greatest) ↔ rx.AdmitsLength n ∧ n ≤ buffer.length) := by
    intro n hverifies
    rw [← mem_candidates_iff hmarked hverifies, hcandidates, mem_lengthsFromTo]
  refine Option.ext fun n => ?_
  rw [shortestFrame?_eq_some, hcandidates, lengthsFromTo, List.find?_range'_eq_some, ← lengthsFromTo,
    mem_lengthsFromTo]
  constructor
  · rintro ⟨hverifies, hrange, hmin⟩
    obtain ⟨hadmits, hle⟩ := (hmem hverifies).1 hrange
    refine ⟨⟨hadmits, hverifies⟩, hle, fun m hm hadmits' => ?_⟩
    rw [← Bool.not_eq_true]
    intro hverifies'
    have hleast := ((hmem hverifies').2 ⟨hadmits', by omega⟩).1
    simpa [hverifies'] using hmin m hleast hm
  · rintro ⟨⟨hadmits, hverifies⟩, hle, hmin⟩
    have hrange := (hmem hverifies).2 ⟨hadmits, hle⟩
    refine ⟨hverifies, hrange, fun m hleast hm => ?_⟩
    rw [Bool.not_eq_true', ← Bool.not_eq_true]
    intro hverifies'
    have hadmits' := ((hmem hverifies').1 ⟨hleast, by omega⟩).1
    simpa [hverifies'] using hmin m hm hadmits'

/-- The quick way to the end of a frame is the plain one. -/
theorem plainEnd_eq (buffer : Bytes) :
    rx.plainEnd snapshot buffer =
      match (rx.candidates buffer.length).find? fun n => rx.verifies snapshot (buffer.take n) with
      | some n => .emit n
      | none => if rx.isExhausted buffer.length then .skip 1 else .wait := by
  rcases fixed_or_marked rx with ⟨length, hfixed⟩ | hmarked
  · rw [plainEnd_of_fixed hfixed]
    simp only [candidates, isExhausted, hfixed]
    by_cases hle : length ≤ buffer.length
    · cases hverifies : rx.verifies snapshot (buffer.take length) <;>
        simp [hle, hverifies, Nat.not_lt.2 hle]
    · simp [hle, Nat.lt_of_not_le hle]
  · rw [plainEnd_of_marked hmarked, find?_candidates hmarked]
    cases hfind : rx.shortestFrame? snapshot buffer with
    | some n => rfl
    | none =>
      have hexhausted :
          rx.isExhausted buffer.length = decide (maxCandidateLength < buffer.length) := by
        unfold isExhausted
        split
        · rename_i length hfixed; exact absurd hfixed (hmarked length)
        · rfl
      simp [hexhausted]

theorem step_of_not_canBegin {buffer : Bytes} (h : rx.canBegin buffer = false) :
    rx.step snapshot buffer = .skip (rx.nextStart buffer) := by
  rw [step, h]
  rfl

/-- Where a frame can begin, the quick step and the plain one decide alike. -/
theorem step_eq_plainStep {buffer : Bytes} (h : rx.canBegin buffer = true) :
    rx.step snapshot buffer = rx.plainStep snapshot buffer := by
  rw [plainStep_of_canBegin h, plainEnd_eq, step, h]
  rfl

/-! ## The jump to the next start -/

theorem nextStart_bounds {buffer : Bytes} (hb : buffer ≠ []) :
    0 < rx.nextStart buffer ∧ rx.nextStart buffer ≤ buffer.length := by
  have hpos := List.length_pos_iff.2 hb
  unfold nextStart
  split
  · rename_i i hfind
    obtain ⟨hi, -⟩ := List.findIdx?_eq_some_iff_getElem.1 hfind
    rw [List.length_tail] at hi
    omega
  · omega

/-- No frame begins where the jump passes by. -/
theorem canBegin_drop {buffer : Bytes} {n : Nat} (hn : 0 < n) (hlt : n < rx.nextStart buffer) :
    rx.canBegin (buffer.drop n) = false := by
  have hstart : (buffer.drop n).head?.any rx.isStartByte = false := by
    obtain ⟨n, rfl⟩ : ∃ m, n = m + 1 := ⟨n - 1, by omega⟩
    rw [List.head?_drop, ← List.getElem?_tail]
    unfold nextStart at hlt
    split at hlt
    · rename_i i hfind
      obtain ⟨hi, -, hbefore⟩ := List.findIdx?_eq_some_iff_getElem.1 hfind
      rw [List.getElem?_eq_getElem (by omega)]
      simpa using hbefore n (by omega)
    · rename_i hfind
      rw [List.findIdx?_eq_none_iff] at hfind
      have hn' : n < buffer.tail.length := by rw [List.length_tail]; omega
      rw [List.getElem?_eq_getElem hn']
      simpa using hfind _ (List.getElem_mem hn')
  rw [canBegin, hstart, Bool.false_and]

/-- **The jump skips nothing.**  The plain scanner comes by single bytes to every place up to the
one that the quick one jumps to. -/
theorem plainScan_drop {buffer : Bytes} (h : rx.canBegin buffer = false) :
    ∀ n, n ≤ rx.nextStart buffer →
      rx.plainScan snapshot (buffer.drop n) = rx.plainScan snapshot buffer := by
  intro n
  induction n with
  | zero => intro _; rfl
  | succ n ih =>
    intro hn
    have hbegin : rx.canBegin (buffer.drop n) = false := by
      rcases Nat.eq_zero_or_pos n with rfl | hpos
      · exact h
      · exact canBegin_drop hpos (by omega)
    rw [← ih (by omega), plainScan, plainScan,
      scanWith_skip (plainStep_of_not_canBegin hbegin) Nat.one_pos, List.drop_drop]

theorem advances_step (rx : RxFraming) (snapshot : Option Json) :
    Advances (rx.step snapshot) where
  skip := by
    intro buffer n hb h
    cases hbegin : rx.canBegin buffer with
    | false =>
      rw [step_of_not_canBegin hbegin] at h
      cases h
      exact nextStart_bounds hb
    | true => exact (advances_plainStep rx snapshot).skip hb (step_eq_plainStep hbegin ▸ h)
  emit := by
    intro buffer n hb h
    cases hbegin : rx.canBegin buffer with
    | false => rw [step_of_not_canBegin hbegin] at h; cases h
    | true => exact (advances_plainStep rx snapshot).emit hb (step_eq_plainStep hbegin ▸ h)

/-- Repeating the quick step finds what the plain scanner finds. -/
theorem scanWith_step (buffer : Bytes) :
    rx.scanWith (rx.step snapshot) buffer = rx.plainScan snapshot buffer := by
  induction buffer using (advances_step rx snapshot).induction with
  | nil => rw [plainScan, scanWith_nil, scanWith_nil]
  | wait buffer hb h =>
    cases hbegin : rx.canBegin buffer with
    | false => rw [step_of_not_canBegin hbegin] at h; cases h
    | true => rw [scanWith_wait h, plainScan, scanWith_wait (step_eq_plainStep hbegin ▸ h)]
  | skip buffer n hb h hn hle ih =>
    rw [scanWith_skip h hn, ih]
    cases hbegin : rx.canBegin buffer with
    | false =>
      rw [step_of_not_canBegin hbegin] at h
      cases h
      exact plainScan_drop hbegin _ (Nat.le_refl _)
    | true => exact (scanWith_skip (step_eq_plainStep hbegin ▸ h) hn).symm
  | emit buffer n hb h hn hle ih =>
    cases hbegin : rx.canBegin buffer with
    | false => rw [step_of_not_canBegin hbegin] at h; cases h
    | true =>
      rw [scanWith_emit hb h hn, ih, plainScan, plainScan,
        scanWith_emit hb (step_eq_plainStep hbegin ▸ h) hn]

theorem extractWithin_succ {limit : Nat} {buffer : Bytes} (hb : buffer ≠ []) :
    rx.extractWithin snapshot (limit + 1) buffer =
      match rx.step snapshot buffer with
      | .wait => ([], buffer)
      | .skip n => rx.extractWithin snapshot limit (buffer.drop n)
      | .emit n =>
        let (frames, rest) := rx.extractWithin snapshot limit (buffer.drop n)
        (Frame.ofBytes (buffer.take n) rx.header.length :: frames, rest) := by
  cases buffer with
  | nil => exact absurd rfl hb
  | cons b rest => rfl

/-- Steps that take at least one byte each are not used up before the bytes are. -/
theorem extractWithin_eq_scanWith {limit : Nat} {buffer : Bytes} (hlimit : buffer.length ≤ limit) :
    rx.extractWithin snapshot limit buffer = rx.scanWith (rx.step snapshot) buffer := by
  induction limit generalizing buffer with
  | zero =>
    rw [List.length_eq_zero_iff.1 (Nat.le_zero.1 hlimit), extractWithin, scanWith_nil]
  | succ limit ih =>
    cases buffer with
    | nil => rw [extractWithin, scanWith_nil]
    | cons b rest =>
      have hb : b :: rest ≠ [] := List.cons_ne_nil _ _
      rw [extractWithin_succ hb]
      cases h : rx.step snapshot (b :: rest) with
      | wait => rw [scanWith_wait h]
      | skip n =>
        obtain ⟨hn, -⟩ := (advances_step rx snapshot).skip hb h
        rw [scanWith_skip h hn, ← ih (by rw [List.length_drop]; omega)]
      | emit n =>
        obtain ⟨hn, -⟩ := (advances_step rx snapshot).emit hb h
        rw [scanWith_emit hb h hn, ← ih (by rw [List.length_drop]; omega)]

/-- `extract` is never stopped by its limit, so no byte is given up blindly. -/
theorem extract_eq_scanWith_step (buffer : Bytes) :
    rx.extract snapshot buffer = rx.scanWith (rx.step snapshot) buffer := by
  rw [extract, extractWithin_eq_scanWith (Nat.le_add_right _ _)]

/-- What `extract` finds, in the form in which it is reasoned about. -/
theorem extract_eq_scanWith (buffer : Bytes) :
    rx.extract snapshot buffer = rx.scanWith (rx.plainStep snapshot) buffer := by
  rw [extract_eq_scanWith_step, scanWith_step, plainScan]

/-- Extracting from two parts together is extracting from the first one, and then from what it left
behind together with the second one. -/
theorem extract_append (rx : RxFraming) (snapshot : Option Json) (first second : Bytes) :
    rx.extract snapshot (first ++ second) =
      ((rx.extract snapshot first).1 ++
          (rx.extract snapshot ((rx.extract snapshot first).2 ++ second)).1,
        (rx.extract snapshot ((rx.extract snapshot first).2 ++ second)).2) := by
  simp only [extract_eq_scanWith]
  exact scanWith_append rx (advances_plainStep rx snapshot) (stable_plainStep rx snapshot) first
    second

/-- What is left behind holds no frame. -/
theorem extract_left (rx : RxFraming) (snapshot : Option Json) (buffer : Bytes) :
    rx.extract snapshot (rx.extract snapshot buffer).2 = ([], (rx.extract snapshot buffer).2) := by
  simp only [extract_eq_scanWith]
  exact scanWith_left rx (advances_plainStep rx snapshot) (stable_plainStep rx snapshot) buffer

/-- **The quick scanner and the plain one agree.**  Whatever the framing, the snapshot and the
buffer, they find the same frames in the same order and leave the same bytes behind. -/
theorem extract_eq_plainScan (rx : RxFraming) (snapshot : Option Json) (buffer : Bytes) :
    rx.extract snapshot buffer = rx.plainScan snapshot buffer := by
  rw [extract_eq_scanWith_step, scanWith_step]

end RxFraming
end Fieldbus
