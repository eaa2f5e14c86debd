import Fieldbus.Offload.Link
import Fieldbus.Proofs.Reassembler.Feed

/-!
# Messages on the way

Owner and worker know of each other by messages only, so what an invariant can say about them it has
to say about the messages on the way.  Here is the vocabulary for that.

* `numbered n calls` — the calls as chunks, numbered from `n` on: what the owner keeps.
* `Carries` — the requests on the way are exactly these calls, in order and rightly numbered, with
  snapshots between them that the worker is told in time.
* `repliesTo` — the replies of a worker that has handled the calls.
* `salvage_repliesTo` — whoever reads such replies learns all that a reassembler would have found.
-/

set_option autoImplicit false

namespace Fieldbus

/-! ## Numbered chunks -/

/-- The calls as chunks, numbered from the given number on. -/
def numbered : Nat → List (Bytes × Time) → List Chunk
  | _, [] => []
  | n, (bytes, time) :: rest => ⟨n, bytes, time⟩ :: numbered (n + 1) rest

theorem numbered_append (n : Nat) (first second : List (Bytes × Time)) :
    numbered n (first ++ second) = numbered n first ++ numbered (n + first.length) second := by
  induction first generalizing n with
  | nil => rfl
  | cons call rest ih =>
    rw [List.cons_append, numbered, numbered, ih, List.length_cons,
      show n + 1 + rest.length = n + (rest.length + 1) by omega]
    rfl

theorem map_numbered (n : Nat) (calls : List (Bytes × Time)) :
    (numbered n calls).map (fun chunk => (chunk.bytes, chunk.time)) = calls := by
  induction calls generalizing n with
  | nil => rfl
  | cons call rest ih => rw [numbered, List.map_cons, ih]

theorem numbered_eq_nil {n : Nat} {calls : List (Bytes × Time)} :
    numbered n calls = [] ↔ calls = [] := by
  cases calls with
  | nil => exact ⟨fun _ => rfl, fun _ => rfl⟩
  | cons call rest => simp [numbered]

/-- Acknowledging the first of the chunks leaves the others. -/
theorem dropWhile_numbered (n : Nat) (call : Bytes × Time) (rest : List (Bytes × Time)) :
    (numbered n (call :: rest)).dropWhile (·.seq ≤ n) = numbered (n + 1) rest := by
  have hrest : (numbered (n + 1) rest).dropWhile (·.seq ≤ n) = numbered (n + 1) rest := by
    cases rest with
    | nil => rfl
    | cons next rest => exact List.dropWhile_cons_of_neg (by simp)
  rw [numbered, List.dropWhile_cons_of_pos (by simp), hrest]

/-! ## Requests -/

/-- The requests carry the calls, numbered from `n` on, to a worker that has been told `s`.
Whenever one of them is handled the worker knows a good snapshot, and in the end it will know the
last one. -/
inductive Carries (good : Option Json → Prop) (last : Option Json) :
    Option Json → Nat → List (Bytes × Time) → List Request → Prop
  | done {n : Nat} : Carries good last last n [] []
  | snapshot {s t : Option Json} {n : Nat} {calls : List (Bytes × Time)} {rest : List Request}
      (h : Carries good last t n calls rest) : Carries good last s n calls (.snapshot t :: rest)
  | chunk {s : Option Json} {n : Nat} {bytes : Bytes} {time : Time} {calls : List (Bytes × Time)}
      {rest : List Request} (hgood : good s) (h : Carries good last s (n + 1) calls rest) :
      Carries good last s n ((bytes, time) :: calls) (.chunk ⟨n, bytes, time⟩ :: rest)

namespace Carries

variable {good : Option Json → Prop} {last s : Option Json} {n : Nat}
  {calls : List (Bytes × Time)} {requests : List Request}

theorem snoc_snapshot (h : Carries good last s n calls requests) (t : Option Json) :
    Carries good t s n calls (requests ++ [.snapshot t]) := by
  induction h with
  | done => exact .snapshot .done
  | snapshot _ ih => exact .snapshot ih
  | chunk hgood _ ih => exact .chunk hgood ih

theorem snoc_chunk (h : Carries good last s n calls requests) (hlast : good last) (bytes : Bytes)
    (time : Time) :
    Carries good last s n (calls ++ [(bytes, time)])
      (requests ++ [.chunk ⟨n + calls.length, bytes, time⟩]) := by
  induction h with
  | done => exact .chunk hlast .done
  | snapshot _ ih => exact .snapshot ih
  | @chunk s n _ _ calls _ hgood _ ih =>
    rw [List.length_cons, show n + (calls.length + 1) = n + 1 + calls.length by omega]
    exact .chunk hgood ih

end Carries

/-! ## Replies -/

/-- The replies of a worker that has handled the calls, beginning with the reassembler `r` and the
number `n`. -/
def repliesTo : Reassembler → Nat → List (Bytes × Time) → List Reply
  | _, _, [] => []
  | r, n, (bytes, time) :: rest =>
    let (frames, r) := r.feed bytes time
    .frames n frames r.pending r.lastArrival :: repliesTo r (n + 1) rest

theorem repliesTo_cons (r : Reassembler) (n : Nat) (bytes : Bytes) (time : Time)
    (rest : List (Bytes × Time)) :
    repliesTo r n ((bytes, time) :: rest) =
      .frames n (r.feed bytes time).1 (r.feed bytes time).2.pending (some time) ::
        repliesTo (r.feed bytes time).2 (n + 1) rest := rfl

/-- The first reply is about the first call. -/
theorem exists_of_repliesTo_eq_cons {r : Reassembler} {n : Nat} {calls : List (Bytes × Time)}
    {reply : Reply} {rest : List Reply} (h : repliesTo r n calls = reply :: rest) :
    ∃ bytes time more, calls = (bytes, time) :: more ∧
      reply = .frames n (r.feed bytes time).1 (r.feed bytes time).2.pending (some time) ∧
      rest = repliesTo (r.feed bytes time).2 (n + 1) more := by
  cases calls with
  | nil => cases h
  | cons call more =>
    obtain ⟨bytes, time⟩ := call
    rw [repliesTo_cons] at h
    obtain ⟨hreply, hrest⟩ := List.cons.inj h
    exact ⟨bytes, time, more, rfl, hreply.symm, hrest.symm⟩

theorem repliesTo_snoc (r : Reassembler) (n : Nat) (calls : List (Bytes × Time)) (bytes : Bytes)
    (time : Time) :
    repliesTo r n (calls ++ [(bytes, time)]) =
      repliesTo r n calls ++
        [.frames (n + calls.length) ((r.feedAll calls).2.feed bytes time).1
          ((r.feedAll calls).2.feed bytes time).2.pending (some time)] := by
  induction calls generalizing r n with
  | nil => rfl
  | cons call rest ih =>
    obtain ⟨first, earliest⟩ := call
    rw [List.cons_append, repliesTo_cons, ih, repliesTo_cons, List.length_cons,
      show n + 1 + rest.length = n + (rest.length + 1) by omega]
    rfl

/-- **Whoever reads the replies learns what the worker found.**  The frames are told in order, the
chunks are acknowledged one by one, and the books in the end say what the worker keeps. -/
theorem salvage_repliesTo (r : Reassembler) (n : Nat) (handled queued : List (Bytes × Time))
    (link : Link) (hunacked : link.unacked = numbered n (handled ++ queued))
    (hresidual : link.residual = r.pending) (hresidualAt : link.residualAt = r.lastArrival) :
    Link.salvage (repliesTo r n handled) link =
      ((r.feedAll handled).1,
        { link with
          unacked := numbered (n + handled.length) queued
          residual := (r.feedAll handled).2.pending
          residualAt := (r.feedAll handled).2.lastArrival
          replies := [] }) := by
  induction handled generalizing r n link with
  | nil =>
    simp only [repliesTo, Link.salvage, Reassembler.feedAll_nil, ← hresidual, ← hresidualAt]
    rw [List.nil_append] at hunacked
    simp [hunacked]
  | cons call rest ih =>
    obtain ⟨bytes, time⟩ := call
    have hacknowledged :
        (link.acknowledge n (r.feed bytes time).2.pending (some time)).unacked =
          numbered (n + 1) (rest ++ queued) := by
      simp only [Link.acknowledge, hunacked]
      exact dropWhile_numbered n (bytes, time) (rest ++ queued)
    rw [repliesTo_cons, Link.salvage, ih (r.feed bytes time).2 (n + 1) _ hacknowledged rfl rfl,
      List.length_cons, show n + 1 + rest.length = n + (rest.length + 1) by omega]
    rfl

end Fieldbus
