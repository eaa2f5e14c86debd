import Fieldbus.Proofs.Channel.Resolve
import Fieldbus.Proofs.Reassembler.Chunking

/-!
# When the bytes of a frame came

A reassembler keeps one time only, that of the last chunk.  To see when each byte of a frame came, a
`Traced` reassembler is followed with every byte stamped with the time of its chunk.  The stamps are
never looked at: without them its frames are those of the reassembler (`feedAll_unstamped`).

Pauses are measured between one chunk and the next.  So the bytes of a frame come from chunks
between which no pause was too long (`Recent.feedAll`), and if all of these chunks hold bytes, then
no two neighbours in a frame came too long one after the other (`Unbroken.withinTimeout`).  A chunk
*without* bytes, however, counts as well: it puts an end to a pause without bringing a byte, and a
frame may reach across it (`not_always_within_timeout`).

## What is here

* `stamp`, `extractStamped` — bytes with the times at which they came, and frames found among them.
* `Traced`, `Traced.feedAll_unstamped` — a reassembler with the stamps of what it keeps, and that it
  finds the frames it would find without.
* `Unbroken`, `Recent`, `Brought` — a stretch of chunks without a pause that is too long; that such
  a stretch brought what is kept; and that one brought the bytes of a frame.
* `WithinTimeout` — neighbours that came closely one after the other.
* `feedAll_stamped` — the main theorem: every frame was brought by an unbroken stretch, and if there
  are bytes in every chunk its neighbours are within the timeout.
-/

set_option autoImplicit false

namespace Fieldbus

/-! ## Stamps -/

/-- Bytes, each of them with the time at which it came. -/
abbrev StampedBytes := List (UInt8 × Time)

/-- The bytes of a chunk, stamped with its time. -/
def stamp (chunk : Bytes) (now : Time) : StampedBytes := chunk.map (·, now)

/-- The bytes of chunks, each stamped with the time of its chunk. -/
def stamped (calls : List (Bytes × Time)) : StampedBytes :=
  calls.flatMap fun call => stamp call.1 call.2

/-- The bytes without their stamps. -/
def unstamped (bytes : StampedBytes) : Bytes := bytes.map Prod.fst

@[simp] theorem unstamped_stamp (chunk : Bytes) (now : Time) :
    unstamped (stamp chunk now) = chunk := by
  rw [unstamped, stamp, List.map_map]
  exact List.map_id _

@[simp] theorem unstamped_append (first second : StampedBytes) :
    unstamped (first ++ second) = unstamped first ++ unstamped second := List.map_append

theorem stamped_concat (calls : List (Bytes × Time)) (chunk : Bytes) (now : Time) :
    stamped (calls ++ [(chunk, now)]) = stamped calls ++ stamp chunk now := by
  simp [stamped]

/-! ## Extracting -/

namespace RxFraming

/-- The frames at the head of stamped bytes and the bytes left behind them, as `extractWithin`. -/
def extractStampedWithin (rx : RxFraming) (snapshot : Option Json) :
    Nat → StampedBytes → List StampedBytes × StampedBytes
  | _, [] => ([], [])
  | 0, bytes => ([], bytes.drop 1)
  | limit + 1, bytes =>
    match rx.step snapshot (unstamped bytes) with
    | .wait => ([], bytes)
    | .skip n => extractStampedWithin rx snapshot limit (bytes.drop n)
    | .emit n =>
      let (frames, rest) := extractStampedWithin rx snapshot limit (bytes.drop n)
      (bytes.take n :: frames, rest)

/-- The frames at the head of stamped bytes and the bytes left behind them, as `extract`. -/
def extractStamped (rx : RxFraming) (snapshot : Option Json) (bytes : StampedBytes) :
    List StampedBytes × StampedBytes :=
  rx.extractStampedWithin snapshot (bytes.length + safetyMargin) bytes

variable (rx : RxFraming) (snapshot : Option Json)

theorem extractStampedWithin_unstamped (limit : Nat) (bytes : StampedBytes) :
    (rx.extractStampedWithin snapshot limit bytes).1.map unstamped =
        (rx.extractWithin snapshot limit (unstamped bytes)).1.map Frame.bytes ∧
      unstamped (rx.extractStampedWithin snapshot limit bytes).2 =
        (rx.extractWithin snapshot limit (unstamped bytes)).2 := by
  induction limit generalizing bytes with
  | zero => cases bytes <;> exact ⟨rfl, rfl⟩
  | succ limit ih =>
    cases bytes with
    | nil => exact ⟨rfl, rfl⟩
    | cons b rest =>
      have hdrop (n : Nat) : unstamped ((b :: rest).drop n) = (unstamped (b :: rest)).drop n :=
        List.map_drop
      have htake (n : Nat) : unstamped ((b :: rest).take n) = (unstamped (b :: rest)).take n :=
        List.map_take
      have hne : unstamped (b :: rest) ≠ [] := List.cons_ne_nil _ _
      rw [extractWithin_succ hne, extractStampedWithin]
      · cases rx.step snapshot (unstamped (b :: rest)) with
        | wait => exact ⟨rfl, rfl⟩
        | skip n =>
          have hskip := ih ((b :: rest).drop n)
          rw [hdrop] at hskip
          exact hskip
        | emit n =>
          obtain ⟨hframes, hrest⟩ := ih ((b :: rest).drop n)
          rw [hdrop] at hframes hrest
          refine ⟨?_, hrest⟩
          show unstamped ((b :: rest).take n) :: _ = Frame.bytes (Frame.ofBytes _ _) :: _
          rw [htake, hframes, Frame.bytes_ofBytes]
      · exact List.cons_ne_nil _ _

/-- Without the stamps the same is extracted. -/
theorem extractStamped_unstamped (bytes : StampedBytes) :
    (rx.extractStamped snapshot bytes).1.map unstamped =
        (rx.extract snapshot (unstamped bytes)).1.map Frame.bytes ∧
      unstamped (rx.extractStamped snapshot bytes).2 =
        (rx.extract snapshot (unstamped bytes)).2 := by
  rw [extract, unstamped, List.length_map]
  exact rx.extractStampedWithin_unstamped snapshot _ bytes

theorem extractStampedWithin_isInfix (limit : Nat) (bytes : StampedBytes) :
    (∀ frame ∈ (rx.extractStampedWithin snapshot limit bytes).1, frame <:+: bytes) ∧
      (rx.extractStampedWithin snapshot limit bytes).2 <:+ bytes := by
  induction limit generalizing bytes with
  | zero =>
    cases bytes with
    | nil => exact ⟨fun frame hframe => absurd hframe List.not_mem_nil, List.suffix_refl _⟩
    | cons b rest =>
      exact ⟨fun frame hframe => absurd hframe List.not_mem_nil, List.suffix_cons b rest⟩
  | succ limit ih =>
    cases bytes with
    | nil => exact ⟨fun frame hframe => absurd hframe List.not_mem_nil, List.suffix_refl _⟩
    | cons b rest =>
      rw [extractStampedWithin]
      · cases rx.step snapshot (unstamped (b :: rest)) with
        | wait => exact ⟨fun frame hframe => absurd hframe List.not_mem_nil, List.suffix_refl _⟩
        | skip n =>
          obtain ⟨hframes, hrest⟩ := ih ((b :: rest).drop n)
          have hdrop := List.drop_suffix n (b :: rest)
          exact ⟨fun frame hframe => (hframes frame hframe).trans hdrop.isInfix,
            hrest.trans hdrop⟩
        | emit n =>
          obtain ⟨hframes, hrest⟩ := ih ((b :: rest).drop n)
          have hdrop := List.drop_suffix n (b :: rest)
          refine ⟨fun frame hframe => ?_, hrest.trans hdrop⟩
          rcases List.mem_cons.1 hframe with rfl | hframe
          · exact (List.take_prefix n (b :: rest)).isInfix
          · exact (hframes frame hframe).trans hdrop.isInfix
      · exact List.cons_ne_nil _ _

/-- Frames are runs of neighbouring bytes, and what is left behind stood at the end. -/
theorem extractStamped_isInfix (bytes : StampedBytes) :
    (∀ frame ∈ (rx.extractStamped snapshot bytes).1, frame <:+: bytes) ∧
      (rx.extractStamped snapshot bytes).2 <:+ bytes :=
  rx.extractStampedWithin_isInfix snapshot _ bytes

end RxFraming

/-! ## Following a reassembler -/

/-- A reassembler, and the bytes that it keeps with their stamps. -/
structure Traced where
  reassembler : Reassembler
  kept : StampedBytes
  unstamped_kept : unstamped kept = reassembler.pending

namespace Traced

/-- A reassembler before anything has come. -/
def fresh (rx : RxFraming) (snapshot : Option Json) : Traced := ⟨.fresh rx snapshot, [], rfl⟩

/-- The stamped bytes from which frames are extracted when a chunk comes. -/
def buffer (t : Traced) (chunk : Bytes) (now : Time) : StampedBytes :=
  (if t.reassembler.isStale now then [] else t.kept) ++ stamp chunk now

theorem unstamped_buffer (t : Traced) (chunk : Bytes) (now : Time) :
    unstamped (t.buffer chunk now) = t.reassembler.kept now ++ chunk := by
  rw [buffer, unstamped_append, unstamped_stamp, Reassembler.kept]
  split
  · rfl
  · rw [t.unstamped_kept]

/-- A chunk comes. -/
def feed (t : Traced) (chunk : Bytes) (now : Time) : List StampedBytes × Traced :=
  let r := t.reassembler
  let extracted := r.framing.extractStamped r.snapshot (t.buffer chunk now)
  (extracted.1,
    { reassembler := (r.feed chunk now).2
      kept := extracted.2
      unstamped_kept := by
        rw [Reassembler.pending_feed, ← t.unstamped_buffer]
        exact (r.framing.extractStamped_unstamped r.snapshot _).2 })

/-- Chunks come one after another. -/
def feedAll (t : Traced) : List (Bytes × Time) → List StampedBytes × Traced
  | [] => ([], t)
  | (chunk, now) :: rest =>
    ((t.feed chunk now).1 ++ ((t.feed chunk now).2.feedAll rest).1,
      ((t.feed chunk now).2.feedAll rest).2)

/-- **The stamps are not looked at.** -/
theorem feedAll_unstamped (t : Traced) (calls : List (Bytes × Time)) :
    (t.feedAll calls).1.map unstamped = (t.reassembler.feedAll calls).1.map Frame.bytes := by
  induction calls generalizing t with
  | nil => rfl
  | cons call rest ih =>
    obtain ⟨chunk, now⟩ := call
    have hfeed : (t.feed chunk now).1.map unstamped =
        (t.reassembler.feed chunk now).1.map Frame.bytes := by
      rw [Reassembler.feed_fst, ← t.unstamped_buffer]
      exact (t.reassembler.framing.extractStamped_unstamped t.reassembler.snapshot _).1
    rw [feedAll, Reassembler.feedAll_cons, List.map_append, List.map_append, hfeed, ih]
    rfl

/-! ## Where the bytes come from

What is kept after a chunk came in the last few chunks, and between none of these was the pause too
long, or else it would have been dropped.  A frame is found in what was kept and the new chunk, so
all of its bytes came in such a stretch. -/

/-- Chunks that came one after another, without too long a pause. -/
def Unbroken (rx : RxFraming) (stretch : List (Bytes × Time)) : Prop :=
  stretch.IsChain fun earlier later => rx.isGap earlier later = false

/-- What is kept came in the last chunks so far, without too long a pause between them. -/
structure Recent (rx : RxFraming) (calls : List (Bytes × Time)) (t : Traced) : Prop where
  framing : t.reassembler.framing = rx
  lastArrival : t.reassembler.lastArrival = calls.getLast?.map Prod.snd
  kept : ∃ stretch, stretch <:+ calls ∧ Unbroken rx stretch ∧ t.kept <:+ stamped stretch

/-- Somewhere in the calls there is an unbroken stretch that brought the bytes of the frame. -/
def Brought (rx : RxFraming) (calls : List (Bytes × Time)) (frame : StampedBytes) : Prop :=
  ∃ stretch, stretch <:+: calls ∧ Unbroken rx stretch ∧ frame <:+: stamped stretch

variable {rx : RxFraming} {calls : List (Bytes × Time)} {t : Traced}

/-- A chunk that comes without too long a pause goes on with the stretch. -/
theorem Unbroken.concat {stretch : List (Bytes × Time)} (hstretch : Unbroken rx stretch)
    (call : Bytes × Time) (hgap : ∀ last ∈ stretch.getLast?, rx.isGap last call = false) :
    Unbroken rx (stretch ++ [call]) := by
  refine List.isChain_append.2 ⟨hstretch, List.isChain_singleton _, fun last hlast next hnext => ?_⟩
  obtain rfl : call = next := Option.some.inj hnext
  exact hgap last hlast

theorem recent_fresh (rx : RxFraming) (snapshot : Option Json) :
    Recent rx [] (fresh rx snapshot) :=
  { framing := rfl
    lastArrival := rfl
    kept := ⟨[], List.suffix_refl _, List.isChain_nil, List.suffix_refl _⟩ }

/-- The stretch that brought what the frames are looked for in when one more chunk has come. -/
theorem Recent.buffer (h : Recent rx calls t) (chunk : Bytes) (now : Time) :
    ∃ stretch, stretch <:+ calls ++ [(chunk, now)] ∧ Unbroken rx stretch ∧
      t.buffer chunk now <:+ stamped stretch := by
  obtain ⟨stretch, hsuffix, hunbroken, hkept⟩ := h.kept
  cases hstale : t.reassembler.isStale now with
  | true =>
    refine ⟨[(chunk, now)], List.suffix_append _ _, List.isChain_singleton _, ?_⟩
    rw [Traced.buffer, hstale, ← List.nil_append [(chunk, now)], stamped_concat]
    exact List.suffix_refl _
  | false =>
    refine ⟨stretch ++ [(chunk, now)], List.suffix_append_self_iff.2 hsuffix,
      hunbroken.concat _ fun last hlast => ?_, ?_⟩
    · -- the last chunk of the stretch is the last of all, whose time the reassembler keeps
      obtain ⟨before, rfl⟩ := hsuffix
      rw [Reassembler.isStale, h.framing, h.lastArrival, List.getLast?_append, hlast] at hstale
      exact hstale
    · rw [Traced.buffer, hstale, stamped_concat]
      exact List.suffix_append_self_iff.2 hkept

/-- One more chunk. -/
theorem Recent.feed (h : Recent rx calls t) (chunk : Bytes) (now : Time) :
    Recent rx (calls ++ [(chunk, now)]) (t.feed chunk now).2 ∧
      ∀ frame ∈ (t.feed chunk now).1, Brought rx (calls ++ [(chunk, now)]) frame := by
  obtain ⟨stretch, hsuffix, hunbroken, hbuffer⟩ := h.buffer chunk now
  obtain ⟨hframes, hleft⟩ := t.reassembler.framing.extractStamped_isInfix t.reassembler.snapshot
    (t.buffer chunk now)
  refine ⟨{ framing := h.framing, lastArrival := ?_, kept := ?_ }, fun frame hframe => ?_⟩
  · rw [List.getLast?_concat]
    rfl
  · exact ⟨stretch, hsuffix, hunbroken, hleft.trans hbuffer⟩
  · exact ⟨stretch, hsuffix.isInfix, hunbroken, (hframes frame hframe).trans hbuffer.isInfix⟩

theorem Brought.append {frame : StampedBytes} (h : Brought rx calls frame)
    (later : List (Bytes × Time)) : Brought rx (calls ++ later) frame := by
  obtain ⟨stretch, hinfix, hunbroken, hframe⟩ := h
  exact ⟨stretch, hinfix.trans (List.prefix_append _ _).isInfix, hunbroken, hframe⟩

/-- The bytes of a frame come from chunks between which no pause was too long. -/
theorem Recent.feedAll (h : Recent rx calls t) (later : List (Bytes × Time)) :
    ∀ frame ∈ (t.feedAll later).1, Brought rx (calls ++ later) frame := by
  induction later generalizing calls t with
  | nil => exact fun frame hframe => absurd hframe List.not_mem_nil
  | cons call rest ih =>
    obtain ⟨chunk, now⟩ := call
    obtain ⟨hrecent, hframes⟩ := h.feed chunk now
    rw [← List.singleton_append, ← List.append_assoc]
    intro frame hframe
    rcases List.mem_append.1 hframe with hframe | hframe
    · exact (hframes frame hframe).append rest
    · exact ih hrecent frame hframe

/-! ## Neighbours -/

/-- No two neighbours came too long one after the other. -/
def WithinTimeout (rx : RxFraming) (bytes : StampedBytes) : Prop :=
  bytes.IsChain fun earlier later => later.2 - earlier.2 ≤ (Time.ofMillis rx.timeout : Int)

instance (rx : RxFraming) (bytes : StampedBytes) : Decidable (WithinTimeout rx bytes) :=
  inferInstanceAs (Decidable (bytes.IsChain _))

theorem withinTimeout_stamp (rx : RxFraming) (chunk : Bytes) (now : Time) :
    WithinTimeout rx (stamp chunk now) := by
  refine (List.isChain_map _).2 (List.pairwise_of_forall fun _ _ => ?_).isChain
  rw [Int.sub_self]
  exact Int.natCast_nonneg _

/-- If there are bytes in every chunk of an unbroken stretch, they follow each other closely. -/
theorem Unbroken.withinTimeout {stretch : List (Bytes × Time)} (h : Unbroken rx stretch)
    (hfull : ∀ call ∈ stretch, call.1 ≠ []) : WithinTimeout rx (stamped stretch) := by
  rw [stamped, List.flatMap_def]
  refine (List.isChain_flatten ?_).2 ⟨?_, (List.isChain_map _).2 (h.imp ?_)⟩
  · intro hmem
    obtain ⟨call, hcall, hnil⟩ := List.mem_map.1 hmem
    exact hfull call hcall (List.map_eq_nil_iff.1 hnil)
  · intro bytes hbytes
    obtain ⟨call, -, rfl⟩ := List.mem_map.1 hbytes
    exact withinTimeout_stamp rx call.1 call.2
  · intro earlier later hgap first hfirst second hsecond
    obtain ⟨b, -, rfl⟩ := List.mem_map.1 (List.mem_of_mem_getLast? hfirst)
    obtain ⟨c, -, rfl⟩ := List.mem_map.1 (List.mem_of_mem_head? hsecond)
    rw [RxFraming.isGap, Time.elapsed, decide_eq_false_iff_not, Nat.not_lt] at hgap
    exact Int.toNat_le.1 hgap

end Traced

namespace Reassembler

/-- **No frame reaches across a pause, unless a chunk without bytes comes in between.**  A
reassembler is followed with every byte stamped with the time of its chunk.  Its frames are those of
the reassembler; the bytes of each come from chunks one after another between which no pause was too
long; and if all of these hold bytes, no two neighbours in the frame came too long one after the
other. -/
theorem feedAll_stamped (rx : RxFraming) (snapshot : Option Json) (calls : List (Bytes × Time)) :
    ((Traced.fresh rx snapshot).feedAll calls).1.map unstamped =
        ((fresh rx snapshot).feedAll calls).1.map Frame.bytes ∧
      ∀ frame ∈ ((Traced.fresh rx snapshot).feedAll calls).1,
        ∃ stretch, stretch <:+: calls ∧ Traced.Unbroken rx stretch ∧ frame <:+: stamped stretch ∧
          ((∀ call ∈ stretch, call.1 ≠ []) → Traced.WithinTimeout rx frame) := by
  refine ⟨(Traced.fresh rx snapshot).feedAll_unstamped calls, fun frame hframe => ?_⟩
  obtain ⟨stretch, hinfix, hunbroken, hbrought⟩ :=
    (Traced.recent_fresh rx snapshot).feedAll calls frame hframe
  exact ⟨stretch, hinfix, hunbroken, hbrought,
    fun hfull => List.IsChain.infix (hunbroken.withinTimeout hfull) hbrought⟩

/-- Ten milliseconds are the timeout, and sixteen lie between two neighbours of a frame: halfway a
chunk without bytes came. -/
theorem not_always_within_timeout :
    ¬ ∀ (config : ChannelConfig) (evaluator : Option Evaluator) (profile : ChannelProfile)
        (snapshot : Option Json) (calls : List (Bytes × Time)),
      config.resolve evaluator = .ok profile → (calls.map Prod.snd).Pairwise (· ≤ ·) →
        ∀ frame ∈ ((Traced.fresh profile.rx snapshot).feedAll calls).1,
          Traced.WithinTimeout profile.rx frame := by
  intro h
  let config : ChannelConfig := { rxHeader := [0xF7], rxChecksum := some (.named "add") }
  let profile : ChannelProfile :=
    { rx :=
        { header := [0xF7], footer := [], checksum := .named .add, delimiter := .checksum,
          minLength := none, maxLength := none, timeout := 10, startBytes := none }
      tx := { header := [], footer := [], checksum := .absent, delay := 50 } }
  let calls : List (Bytes × Time) := [([0xF7, 0x01], 0), ([], 8_000_000), ([0xF8], 16_000_000)]
  have hframes : ((Traced.fresh profile.rx none).feedAll calls).1 =
      [[(0xF7, 0), (0x01, 0), (0xF8, 16_000_000)]] := by decide
  have hwithin := h config none profile none calls rfl (by decide)
  rw [hframes] at hwithin
  exact absurd (hwithin _ List.mem_cons_self) (by decide)

end Reassembler
end Fieldbus
