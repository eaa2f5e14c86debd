import Fieldbus.Proofs.Reassembler.Feed
import Mathlib.Data.List.SplitBy

/-!
# Chunks and pauses

How a stream is cut into chunks makes no difference, and how long the pauses between them are makes
one only where a pause is too long: `feedAll_segments`.

The calls are cut into *segments* at every pause that is too long.  Within a segment the bytes kept
are those of the segment that belong to no frame yet, so that the segment might as well have come in
one piece (`feedAll_of_isChain`; this is where `RxFraming.extract_append` is needed).  At the
beginning of a segment nothing is kept, so that the one before it might as well not have been
(`feedAll_flatten`).
-/

set_option autoImplicit false

namespace Fieldbus

/-! ## Segments -/

/-- Is the pause between two calls too long for a frame? -/
def RxFraming.isGap (rx : RxFraming) (earlier later : Bytes × Time) : Bool :=
  Time.ofMillis rx.timeout < Time.elapsed earlier.2 later.2

/-- The calls, cut where the pause is too long and nowhere else. -/
def RxFraming.segments (rx : RxFraming) (calls : List (Bytes × Time)) :
    List (List (Bytes × Time)) :=
  calls.splitBy fun earlier later => !rx.isGap earlier later

/-- The bytes of the calls in one piece. -/
def joined (calls : List (Bytes × Time)) : Bytes := calls.flatMap Prod.fst

theorem joined_cons (chunk : Bytes) (now : Time) (rest : List (Bytes × Time)) :
    joined ((chunk, now) :: rest) = chunk ++ joined rest := rfl

namespace Reassembler

/-- What a call leaves is stale for a later one if and only if there is a gap between the two. -/
theorem isStale_feed (r : Reassembler) (call later : Bytes × Time) :
    (r.feed call.1 call.2).2.isStale later.2 = r.framing.isGap call later := rfl

/-! ## Within a segment

By induction on the calls after the first.  What is kept is what an extraction has left behind, and
extracting from it together with the next chunk is extracting from both chunks in one piece. -/

/-- **Without a gap it does not matter how the bytes are cut into chunks.** -/
theorem feedAll_of_isChain (r : Reassembler) (call : Bytes × Time) (rest : List (Bytes × Time))
    (hchain : (call :: rest).IsChain fun earlier later => r.framing.isGap earlier later = false) :
    ((r.feedAll (call :: rest)).1, (r.feedAll (call :: rest)).2.pending) =
      r.framing.extract r.snapshot (r.kept call.2 ++ joined (call :: rest)) := by
  induction rest generalizing r call with
  | nil =>
    obtain ⟨chunk, now⟩ := call
    simp [feedAll_cons, joined, feed_fst, pending_feed]
  | cons next rest ih =>
    obtain ⟨hgap, hrest⟩ := List.isChain_cons_cons.1 hchain
    have hkept : (r.feed call.1 call.2).2.kept next.2 = (r.feed call.1 call.2).2.pending :=
      kept_of_not_stale ((isStale_feed r call next).trans hgap)
    have hih := ih (r.feed call.1 call.2).2 next hrest
    rw [hkept, framing_feed, snapshot_feed, pending_feed] at hih
    rw [joined_cons, ← List.append_assoc, RxFraming.extract_append, ← hih]
    rfl

theorem lastArrival_feedAll (r : Reassembler) {calls : List (Bytes × Time)} (hne : calls ≠ []) :
    (r.feedAll calls).2.lastArrival = some (calls.getLast hne).2 := by
  induction calls generalizing r with
  | nil => exact absurd rfl hne
  | cons call rest ih =>
    obtain ⟨chunk, now⟩ := call
    rw [feedAll_cons]
    by_cases hrest : rest = []
    · subst hrest; rfl
    · rw [ih _ hrest, List.getLast_cons hrest]

/-! ## From segment to segment -/

theorem kept_after_gap (r : Reassembler) {segment : List (Bytes × Time)} (hne : segment ≠ [])
    {call : Bytes × Time} (hgap : r.framing.isGap (segment.getLast hne) call = true) :
    (r.feedAll segment).2.kept call.2 = [] := by
  refine kept_of_stale ?_
  rw [isStale, lastArrival_feedAll r hne, framing_feedAll]
  exact hgap

/-- **What comes after a gap does not depend on what came before it.**  Each segment yields the
frames that its bytes hold on their own, and the last one decides what is kept. -/
theorem feedAll_flatten (r : Reassembler) (segments : List (List (Bytes × Time)))
    (hnil : [] ∉ segments)
    (hchain : ∀ segment ∈ segments,
      segment.IsChain fun earlier later => r.framing.isGap earlier later = false)
    (hgaps : segments.IsChain fun before after =>
      ∃ hb ha, r.framing.isGap (before.getLast hb) (after.head ha) = true)
    (hfirst : ∀ call ∈ segments.flatten.head?, r.kept call.2 = []) :
    (r.feedAll segments.flatten).1 =
        segments.flatMap (fun segment => (r.framing.extract r.snapshot (joined segment)).1) ∧
      (r.feedAll segments.flatten).2.pending =
        segments.getLast?.elim r.pending
          fun segment => (r.framing.extract r.snapshot (joined segment)).2 := by
  induction segments generalizing r with
  | nil => exact ⟨rfl, rfl⟩
  | cons segment rest ih =>
    obtain ⟨call, more, rfl⟩ : ∃ call more, segment = call :: more :=
      List.exists_cons_of_ne_nil fun h => hnil (h ▸ List.mem_cons_self)
    have hkept : r.kept call.2 = [] := hfirst call rfl
    have hone := feedAll_of_isChain r call more (hchain _ List.mem_cons_self)
    rw [hkept, List.nil_append] at hone
    have hnext : ∀ later ∈ rest.flatten.head?, (r.feedAll (call :: more)).2.kept later.2 = [] := by
      intro later hlater
      cases rest with
      | nil => simp at hlater
      | cons next rest =>
        obtain ⟨⟨hb, ha, hgap⟩, -⟩ := List.isChain_cons_cons.1 hgaps
        obtain rfl : next.head ha = later := by
          obtain ⟨c, cs, rfl⟩ := List.exists_cons_of_ne_nil ha
          simpa using hlater
        exact kept_after_gap r hb hgap
    obtain ⟨hframes, hpending⟩ := ih (r.feedAll (call :: more)).2
      (fun h => hnil (List.mem_cons_of_mem _ h))
      (fun s hs => by rw [framing_feedAll]; exact hchain s (List.mem_cons_of_mem _ hs))
      (by rw [framing_feedAll]; exact hgaps.tail) hnext
    rw [framing_feedAll, snapshot_feedAll] at hframes hpending
    rw [List.flatten_cons, feedAll_append, List.flatMap_cons]
    refine ⟨?_, ?_⟩
    · rw [hframes, ← hone]
    · rw [hpending]
      cases hrest : rest.getLast? with
      | none =>
        rw [List.getLast?_eq_none_iff] at hrest
        subst hrest
        exact congrArg Prod.snd hone
      | some last => rw [List.getLast?_cons, hrest]; rfl

/-- The frames of all calls, and what is kept in the end, segment by segment. -/
theorem feedAll_fresh (rx : RxFraming) (snapshot : Option Json) (calls : List (Bytes × Time)) :
    ((fresh rx snapshot).feedAll calls).1 =
        (rx.segments calls).flatMap (fun segment => (rx.extract snapshot (joined segment)).1) ∧
      ((fresh rx snapshot).feedAll calls).2.pending =
        (rx.segments calls).getLast?.elim []
          fun segment => (rx.extract snapshot (joined segment)).2 := by
  have h := feedAll_flatten (fresh rx snapshot) (rx.segments calls)
    (List.nil_notMem_splitBy _ _)
    (fun segment hsegment => by
      simpa using List.isChain_of_mem_splitBy hsegment)
    (by simpa [RxFraming.segments] using
      List.isChain_getLast_head_splitBy (fun earlier later => !rx.isGap earlier later) calls)
    (fun call _ => kept_fresh rx snapshot call.2)
  rw [RxFraming.segments, List.flatten_splitBy] at h
  exact h

/-- Without a gap the calls are as good as one. -/
theorem feedAll_without_gap (rx : RxFraming) (snapshot : Option Json) {calls : List (Bytes × Time)}
    (hchain : calls.IsChain fun earlier later => rx.isGap earlier later = false) :
    (((fresh rx snapshot).feedAll calls).1, ((fresh rx snapshot).feedAll calls).2.pending) =
      rx.extract snapshot (joined calls) := by
  cases calls with
  | nil => rfl
  | cons call rest => exact feedAll_of_isChain (fresh rx snapshot) call rest hchain

/-- A chunk without bytes yields no frame, if what is pending was left behind by an extraction. -/
theorem feed_nil (r : Reassembler) (now : Time) (buffer : Bytes)
    (hpending : r.pending = (r.framing.extract r.snapshot buffer).2) :
    (r.feed [] now).1 = [] ∧ (r.feed [] now).2.pending = r.kept now := by
  rw [feed_fst, pending_feed, List.append_nil]
  cases hstale : r.isStale now with
  | true => rw [kept_of_stale hstale]; exact ⟨rfl, rfl⟩
  | false =>
    rw [kept_of_not_stale hstale, hpending, RxFraming.extract_left]
    exact ⟨rfl, rfl⟩

/-- **The law of chunks and pauses.**  The frames of any calls are those of their segments, each of
them fed in one piece to a reassembler of its own, and what is kept in the end is what the last of
these keeps.  So without a gap it does not matter how a stream is cut; and a chunk without bytes
yields no frame and changes nothing that is kept. -/
theorem feedAll_segments (rx : RxFraming) (snapshot : Option Json) (calls : List (Bytes × Time))
    (now : Time) :
    ((fresh rx snapshot).feedAll calls).1 =
        (rx.segments calls).flatMap
          (fun segment => ((fresh rx snapshot).feed (joined segment) now).1) ∧
      ((fresh rx snapshot).feedAll calls).2.pending =
        (rx.segments calls).getLast?.elim []
          (fun segment => ((fresh rx snapshot).feed (joined segment) now).2.pending) ∧
      (∀ others : List (Bytes × Time),
        calls.IsChain (fun earlier later => rx.isGap earlier later = false) →
        others.IsChain (fun earlier later => rx.isGap earlier later = false) →
        joined others = joined calls →
          ((fresh rx snapshot).feedAll others).1 = ((fresh rx snapshot).feedAll calls).1 ∧
            ((fresh rx snapshot).feedAll others).2.pending =
              ((fresh rx snapshot).feedAll calls).2.pending) ∧
      ∀ later : Time,
        (((fresh rx snapshot).feedAll calls).2.feed [] later).1 = [] ∧
          (((fresh rx snapshot).feedAll calls).2.feed [] later).2.pending =
            ((fresh rx snapshot).feedAll calls).2.kept later := by
  obtain ⟨hframes, hpending⟩ := feedAll_fresh rx snapshot calls
  refine ⟨hframes, hpending, fun others hcalls hothers hjoined => ?_, fun later => ?_⟩
  · have hsame := (feedAll_without_gap rx snapshot hothers).trans
      (hjoined ▸ (feedAll_without_gap rx snapshot hcalls).symm)
    exact Prod.mk.inj hsame
  · cases hlast : (rx.segments calls).getLast? with
    | none =>
      refine feed_nil _ later [] ?_
      rw [hpending, hlast]; rfl
    | some segment =>
      refine feed_nil _ later (joined segment) ?_
      rw [hpending, hlast, framing_feedAll, snapshot_feedAll]; rfl

end Reassembler
end Fieldbus
