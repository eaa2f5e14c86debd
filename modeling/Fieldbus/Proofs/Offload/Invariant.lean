import Fieldbus.Proofs.Offload.Messages

/-!
# What owner and worker agree on

The invariant of offloading.  A `Tally` says of every call that has come in where it is: the first
ones are acknowledged; then come those that the worker has handled, with the replies on the way;
then those that were sent and are not handled, with the requests on the way or, if the worker has
died, lost; and then those that were kept back.

`Link.Accords` says that a link is in the state that a tally describes.  Nothing that happens to a
link changes the calls of its tally or their order.

* `Link.Accords.moves` — the worker moves calls from the queued ones to the handled ones.
* `Link.Accords.post_snapshot` — telling the worker a snapshot moves nothing.
* `Link.Accords.stage`, `.send`, `.sendNow` — a call that comes in is kept back, one that was kept
  back is queued, and one that comes in when nothing is kept back is queued at once.

How reading a reply moves calls to the acknowledged ones, with their frames, is a matter of its own.
-/

set_option autoImplicit false

namespace Fieldbus

open Reassembler (fresh)

/-! ## The tally

The calls stand in one list, in the order in which they came, and three cuts through it say where
each of them is.  Everything that happens moves a cut or adds a call at the end. -/

/-- Where the calls are, in the order in which they came. -/
structure Tally where
  /-- Acknowledged: the owner has read the replies. -/
  acked : List (Bytes × Time)
  /-- Handled by the worker, with the replies on the way. -/
  handled : List (Bytes × Time)
  /-- Sent, but not handled. -/
  queued : List (Bytes × Time)
  /-- Kept back by the owner. -/
  held : List (Bytes × Time)

namespace Tally

/-- All calls. -/
def calls (t : Tally) : List (Bytes × Time) := t.acked ++ (t.handled ++ t.queued) ++ t.held

/-- The number of the first call that was kept back. -/
def sent (t : Tally) : Nat := t.acked.length + (t.handled.length + t.queued.length)

/-- Nothing has been sent to the worker. -/
def Untouched (t : Tally) : Prop := t.acked = [] ∧ t.handled = [] ∧ t.queued = []

/-- The second tally is the first one after some steps of the worker. -/
structure Advances (t t' : Tally) : Prop where
  acked : t'.acked = t.acked
  sent : t'.handled ++ t'.queued = t.handled ++ t.queued
  held : t'.held = t.held

theorem Advances.refl (t : Tally) : t.Advances t := ⟨rfl, rfl, rfl⟩

theorem Advances.trans {t t' t'' : Tally} (h : t.Advances t') (h' : t'.Advances t'') :
    t.Advances t'' :=
  ⟨h'.acked.trans h.acked, h'.sent.trans h.sent, h'.held.trans h.held⟩

theorem Advances.calls {t t' : Tally} (h : t.Advances t') : t'.calls = t.calls := by
  rw [Tally.calls, Tally.calls, h.acked, h.sent, h.held]

theorem Advances.sent_eq {t t' : Tally} (h : t.Advances t') : t'.sent = t.sent := by
  have hlength := congrArg List.length h.sent
  rw [List.length_append, List.length_append] at hlength
  rw [Tally.sent, Tally.sent, h.acked, hlength]

theorem length_calls (t : Tally) : t.calls.length = t.sent + t.held.length := by
  rw [calls, sent, List.length_append, List.length_append, List.length_append]

/-- A call that is sent stays where it was among the calls. -/
theorem calls_of_held {t : Tally} {call : Bytes × Time} {rest : List (Bytes × Time)}
    (h : t.held = call :: rest) :
    { t with queued := t.queued ++ [call], held := rest }.calls = t.calls := by
  simp only [Tally.calls, h, List.append_assoc, List.cons_append, List.nil_append]

end Tally

/-! ## The invariant

The owner's books are a matter of the cuts alone.  Worker and messages have a relation of their own,
`Conversation`, with a case for each stage in the life of a worker.  It speaks of the snapshot that
the worker will know in the end, which it need not know yet. -/

/-- How the worker and the messages on the way fit the tally, by whether the owner has seen that the
worker started.  The snapshot that the worker will know when it has handled all requests is `last`,
and it handles no call with one that makes a difference from `s`. -/
inductive Conversation (rx : RxFraming) (s last : Option Json) (t : Tally) :
    Bool → Worker → List Request → List Reply → Prop
  | starting (h : t.Untouched) : Conversation rx s last t false (.starting (fresh rx none)) [] []
  | started (h : t.Untouched) :
      Conversation rx s last t false (.running (fresh rx none)) [] [.ready]
  | running {told : Option Json} {requests : List Request}
      (h : Carries (rx.Alike · s) last told (t.acked.length + t.handled.length) t.queued requests) :
      Conversation rx s last t true
        (.running ((rx.after s (t.acked ++ t.handled)).setSnapshot told)) requests
        (repliesTo (rx.after s t.acked) t.acked.length t.handled)
  | diedUnseen {replies : List Reply} (h : t.Untouched)
      (hreplies : replies = [] ∨ replies = [.ready] ∨ ∃ reason, replies = [.failed reason]) :
      Conversation rx s last t false .dead [] replies
  | died :
      Conversation rx s last t true .dead []
        (repliesTo (rx.after s t.acked) t.acked.length t.handled)

/-- The link is in the state that the tally describes. -/
structure Link.Accords (rx : RxFraming) (s last : Option Json) (link : Link) (t : Tally) :
    Prop where
  /-- The next number is the count of calls. -/
  nextSeq : link.nextSeq = t.calls.length
  /-- The owner keeps what was sent, until it is acknowledged. -/
  unacked : link.unacked = numbered t.acked.length (t.handled ++ t.queued)
  /-- It keeps what it has kept back, numbered on. -/
  staged : link.staged = numbered t.sent t.held
  /-- Its books say what a reassembler keeps after the acknowledged calls. -/
  residual : link.residual = (rx.after s t.acked).pending
  residualAt : link.residualAt = (rx.after s t.acked).lastArrival
  /-- The worker and the messages fit. -/
  conversation : Conversation rx s last t link.ready link.worker link.requests link.replies

variable {rx : RxFraming} {s last : Option Json} {link : Link} {t : Tally}

/-! ## Steps of the worker -/

/-- Only the worker's side and the messages have changed. -/
theorem Link.Accords.of_conversation (h : link.Accords rx s last t) {t' : Tally}
    (hadvances : t.Advances t') {next : Option Json} {ready : Bool} {worker : Worker}
    {requests : List Request} {replies : List Reply}
    (hconversation : Conversation rx s next t' ready worker requests replies) :
    { link with
      ready := ready
      worker := worker
      requests := requests
      replies := replies }.Accords rx s next t' where
  nextSeq := by rw [hadvances.calls]; exact h.nextSeq
  unacked := by rw [hadvances.acked, hadvances.sent]; exact h.unacked
  staged := by rw [hadvances.sent_eq, hadvances.held]; exact h.staged
  residual := by rw [hadvances.acked]; exact h.residual
  residualAt := by rw [hadvances.acked]; exact h.residualAt
  conversation := hconversation

/-- The worker handles the next request on the way. -/
theorem Conversation.handle {r : Reassembler} {request : Request} {rest : List Request}
    {replies : List Reply}
    (h : Conversation rx s last t true (.running r) (request :: rest) replies) :
    (∃ snapshot, request = .snapshot snapshot ∧
      Conversation rx s last t true (.running (r.setSnapshot snapshot)) rest replies) ∨
    ∃ chunk t', request = .chunk chunk ∧ t.Advances t' ∧
      Conversation rx s last t' true (.running (r.feed chunk.bytes chunk.time).2) rest
        (replies ++ [.frames chunk.seq (r.feed chunk.bytes chunk.time).1
          (r.feed chunk.bytes chunk.time).2.pending
          (r.feed chunk.bytes chunk.time).2.lastArrival]) := by
  obtain ⟨acked, handled, queued, held⟩ := t
  cases h with
  | @running told _ h =>
    cases h with
    | snapshot h => exact Or.inl ⟨_, rfl, .running h⟩
    | @chunk _ _ bytes time more _ hgood h =>
      refine Or.inr
        ⟨_, ⟨acked, handled ++ [(bytes, time)], more, held⟩, rfl, ⟨rfl, by simp, rfl⟩, ?_⟩
      have hfeed := (rx.after s (acked ++ handled)).feed_setSnapshot (s := told)
        (by simpa using hgood) bytes time
      have hafter : rx.after s (acked ++ (handled ++ [(bytes, time)])) =
          ((rx.after s (acked ++ handled)).feed bytes time).2 := by
        rw [← List.append_assoc, RxFraming.after_snoc]
      have hrun : Conversation rx s last ⟨acked, handled ++ [(bytes, time)], more, held⟩ true
          _ _ _ := .running (by simpa [Nat.add_assoc] using h)
      rw [hafter, repliesTo_snoc, ← RxFraming.after_append] at hrun
      rw [hfeed]
      exact hrun

theorem Conversation.start {ready : Bool} {r : Reassembler} {requests : List Request}
    {replies : List Reply} (h : Conversation rx s last t ready (.starting r) requests replies) :
    Conversation rx s last t ready (.running r) requests (replies ++ [.ready]) := by
  cases h with
  | starting h => exact .started h

theorem Conversation.failToStart {ready : Bool} {r : Reassembler} {requests : List Request}
    {replies : List Reply} (h : Conversation rx s last t ready (.starting r) requests replies)
    (reason : String) :
    Conversation rx s last t ready .dead [] (replies ++ [.failed reason]) := by
  cases h with
  | starting h => exact .diedUnseen h (Or.inr (Or.inr ⟨reason, rfl⟩))

/-- Whatever the worker has said before it dies stays said. -/
theorem Conversation.die {ready : Bool} {worker : Worker} {requests : List Request}
    {replies : List Reply} (h : Conversation rx s last t ready worker requests replies) :
    Conversation rx s last t ready .dead [] replies := by
  cases h with
  | starting h => exact .diedUnseen h (Or.inl rfl)
  | started h => exact .diedUnseen h (Or.inr (Or.inl rfl))
  | running h => exact .died
  | diedUnseen h hreplies => exact .diedUnseen h hreplies
  | died => exact .died

/-- There are requests on the way only when the owner has seen that the worker started. -/
theorem Conversation.ready_of_cons {ready : Bool} {worker : Worker} {request : Request}
    {rest : List Request} {replies : List Reply}
    (h : Conversation rx s last t ready worker (request :: rest) replies) : ready = true := by
  cases h with
  | running h => rfl

/-- **A step of the worker keeps the invariant.** -/
theorem Link.Accords.move (h : link.Accords rx s last t) (m : WorkerMove) :
    ∃ t', t.Advances t' ∧ (link.move m).Accords rx s last t' := by
  have hconversation := h.conversation
  cases m with
  | start =>
    simp only [Link.move]
    split
    · rename_i r hworker
      rw [hworker] at hconversation
      exact ⟨t, .refl t, h.of_conversation (.refl t) hconversation.start⟩
    · exact ⟨t, .refl t, h⟩
  | failToStart reason =>
    simp only [Link.move]
    split
    · rename_i r hworker
      rw [hworker] at hconversation
      exact ⟨t, .refl t, h.of_conversation (.refl t) (hconversation.failToStart reason)⟩
    · exact ⟨t, .refl t, h⟩
  | handle =>
    simp only [Link.move]
    split
    · rename_i r chunk rest hworker hrequests
      rw [hworker, hrequests] at hconversation
      have hready := hconversation.ready_of_cons
      rw [hready] at hconversation
      rcases hconversation.handle with ⟨_, hrequest, -⟩ | ⟨_, t', hrequest, hadvances, hnext⟩
      · cases hrequest
      · cases hrequest
        exact ⟨t', hadvances, h.of_conversation hadvances (hready ▸ hnext)⟩
    · rename_i r snapshot rest hworker hrequests
      rw [hworker, hrequests] at hconversation
      have hready := hconversation.ready_of_cons
      rw [hready] at hconversation
      rcases hconversation.handle with ⟨_, hrequest, hnext⟩ | ⟨_, t', hrequest, -, -⟩
      · cases hrequest
        exact ⟨t, .refl t, h.of_conversation (.refl t) (hready ▸ hnext)⟩
      · cases hrequest
    · exact ⟨t, .refl t, h⟩
  | die => exact ⟨t, .refl t, h.of_conversation (.refl t) hconversation.die⟩

/-- Any number of steps of the worker keep the invariant. -/
theorem Link.Accords.moves (h : link.Accords rx s last t) (schedule : List WorkerMove) :
    ∃ t', t.Advances t' ∧ (link.moves schedule).Accords rx s last t' := by
  induction schedule generalizing link t with
  | nil => exact ⟨t, .refl t, h⟩
  | cons m rest ih =>
    obtain ⟨t', hadvances, h'⟩ := h.move m
    obtain ⟨t'', hadvances', h''⟩ := ih h'
    exact ⟨t'', hadvances.trans hadvances', h''⟩

/-- What the worker does shows on its own side of the link and in the messages only. -/
theorem Link.move_eq (link : Link) (m : WorkerMove) :
    ∃ worker requests replies,
      link.move m = { link with worker := worker, requests := requests, replies := replies } := by
  cases m with
  | start => simp only [move]; split <;> exact ⟨_, _, _, rfl⟩
  | failToStart reason => simp only [move]; split <;> exact ⟨_, _, _, rfl⟩
  | handle => simp only [move]; split <;> exact ⟨_, _, _, rfl⟩
  | die => exact ⟨_, _, _, rfl⟩

theorem Link.moves_eq (link : Link) (schedule : List WorkerMove) :
    ∃ worker requests replies,
      link.moves schedule =
        { link with worker := worker, requests := requests, replies := replies } := by
  induction schedule generalizing link with
  | nil => exact ⟨_, _, _, rfl⟩
  | cons m rest ih =>
    obtain ⟨_, _, _, hmove⟩ := link.move_eq m
    obtain ⟨worker, requests, replies, hmoves⟩ := ih (link.move m)
    rw [hmove] at hmoves
    exact ⟨worker, requests, replies, (congrArg (·.moves rest) hmove).trans hmoves⟩

@[simp] theorem Link.ready_moves (link : Link) (schedule : List WorkerMove) :
    (link.moves schedule).ready = link.ready := by
  obtain ⟨_, _, _, hmoves⟩ := link.moves_eq schedule
  rw [hmoves]

@[simp] theorem Link.staged_moves (link : Link) (schedule : List WorkerMove) :
    (link.moves schedule).staged = link.staged := by
  obtain ⟨_, _, _, hmoves⟩ := link.moves_eq schedule
  rw [hmoves]

/-! ## Sending

A call is sent whether the worker lives or not: the owner learns of a death when it sends, and then
the call is lost on the way but not to the owner, who keeps it until it is acknowledged.  So the
invariant holds on either outcome, and what follows need not ask which it was. -/

/-- The worker knows nothing of what is kept back. -/
theorem Conversation.of_held {ready : Bool} {worker : Worker} {requests : List Request}
    {replies : List Reply} (h : Conversation rx s last t ready worker requests replies)
    (held : List (Bytes × Time)) :
    Conversation rx s last { t with held := held } ready worker requests replies := by
  cases h with
  | starting h => exact .starting h
  | started h => exact .started h
  | running h => exact .running h
  | diedUnseen h hreplies => exact .diedUnseen h hreplies
  | died => exact .died

/-- How much is kept back does not matter. -/
theorem Link.Accords.of_stagedBytes (h : link.Accords rx s last t) (size : Nat) :
    { link with stagedBytes := size }.Accords rx s last t :=
  ⟨h.nextSeq, h.unacked, h.staged, h.residual, h.residualAt, h.conversation⟩

/-- A call comes in and is kept back. -/
theorem Link.Accords.stage (h : link.Accords rx s last t) (bytes : Bytes) (time : Time) :
    { link with
      nextSeq := link.nextSeq + 1
      staged := link.staged ++ [(⟨link.nextSeq, bytes, time⟩ : Chunk)] }.Accords rx s last
        { t with held := t.held ++ [(bytes, time)] } where
  nextSeq := by
    show link.nextSeq + 1 = _
    rw [h.nextSeq]
    simp only [Tally.calls, List.length_append, List.length_cons, List.length_nil]
    omega
  unacked := h.unacked
  staged := by
    show link.staged ++ _ = numbered t.sent _
    rw [h.staged, numbered_append, h.nextSeq, t.length_calls]
    rfl
  residual := h.residual
  residualAt := h.residualAt
  conversation := h.conversation.of_held _

/-- A dead worker is told nothing any more. -/
theorem Conversation.of_dead {ready : Bool} {worker : Worker} {requests : List Request}
    {replies : List Reply} (h : Conversation rx s last t ready worker requests replies)
    (hdead : worker.isDead = true) (next : Option Json) :
    Conversation rx s next t ready worker requests replies := by
  cases h with
  | starting h => cases hdead
  | started h => cases hdead
  | running h => cases hdead
  | diedUnseen h hreplies => exact .diedUnseen h hreplies
  | died => exact .died

/-- Another snapshot is on the way. -/
theorem Conversation.snapshot {worker : Worker} {requests : List Request} {replies : List Reply}
    (h : Conversation rx s last t true worker requests replies) (halive : worker.isDead = false)
    (next : Option Json) :
    Conversation rx s next t true worker (requests ++ [.snapshot next]) replies := by
  cases h with
  | running h => exact .running (h.snoc_snapshot next)
  | died => cases halive

/-- Another chunk is on the way, or lost. -/
theorem Conversation.chunk {worker : Worker} {requests : List Request} {replies : List Reply}
    (h : Conversation rx s last t true worker requests replies) (hlast : rx.Alike last s)
    (bytes : Bytes) (time : Time) :
    Conversation rx s last { t with queued := t.queued ++ [(bytes, time)] } true worker
      (if worker.isDead then requests else requests ++ [.chunk ⟨t.sent, bytes, time⟩]) replies := by
  cases h with
  | running h =>
    have hcarries := h.snoc_chunk hlast bytes time
    rw [Nat.add_assoc] at hcarries
    exact .running hcarries
  | died => exact .died

/-- The worker that has started is told another snapshot, or is dead. -/
theorem Link.Accords.post_snapshot (h : link.Accords rx s last t) (hready : link.ready = true)
    (next : Option Json) : (link.post (.snapshot next)).2.Accords rx s next t := by
  have hconversation := h.conversation
  rw [post]
  split
  · rename_i hdead
    exact h.of_conversation (.refl t) (hconversation.of_dead hdead next)
  · rename_i halive
    rw [hready] at hconversation
    have hnext := hconversation.snapshot (Bool.not_eq_true _ ▸ halive) next
    exact h.of_conversation (.refl t) (hready ▸ hnext)

/-- Nothing is on the way to a worker that has not been seen to start. -/
theorem Link.Accords.of_not_ready (h : link.Accords rx s last t) (hready : link.ready = false)
    (next : Option Json) : link.Accords rx s next t where
  nextSeq := h.nextSeq
  unacked := h.unacked
  staged := h.staged
  residual := h.residual
  residualAt := h.residualAt
  conversation := by
    have hconversation := h.conversation
    rw [hready] at hconversation ⊢
    generalize link.worker = worker, link.requests = requests, link.replies = replies
      at hconversation ⊢
    cases hconversation with
    | starting h => exact .starting h
    | started h => exact .started h
    | diedUnseen h hreplies => exact .diedUnseen h hreplies

/-- **Sending the first call that was kept back keeps the invariant**, whether anybody receives it
or not. -/
theorem Link.Accords.send (h : link.Accords rx s last t) (hready : link.ready = true)
    (hlast : rx.Alike last s) {bytes : Bytes} {time : Time} {rest : List (Bytes × Time)}
    (hheld : t.held = (bytes, time) :: rest) :
    (Link.send { link with staged := numbered (t.sent + 1) rest } ⟨t.sent, bytes, time⟩).2.Accords
      rx s last { t with queued := t.queued ++ [(bytes, time)], held := rest } := by
  have hconversation := h.conversation
  rw [hready] at hconversation
  have hnext := (hconversation.chunk hlast bytes time).of_held rest
  have hbooks (requests : List Request)
      (hrequests : requests =
        if link.worker.isDead then link.requests
        else link.requests ++ [.chunk ⟨t.sent, bytes, time⟩]) :
      { link with
        staged := numbered (t.sent + 1) rest
        unacked := link.unacked ++ [(⟨t.sent, bytes, time⟩ : Chunk)]
        requests := requests }.Accords rx s last
          { t with queued := t.queued ++ [(bytes, time)], held := rest } := by
    refine ⟨?_, ?_, ?_, h.residual, h.residualAt, ?_⟩
    · rw [Tally.calls_of_held hheld]
      exact h.nextSeq
    · show link.unacked ++ _ = numbered t.acked.length (t.handled ++ (t.queued ++ _))
      rw [h.unacked, ← List.append_assoc, numbered_append _ (t.handled ++ t.queued),
        List.length_append]
      rfl
    · show numbered (t.sent + 1) rest = numbered (Tally.sent _) rest
      congr 1
      simp only [Tally.sent, List.length_append, List.length_cons, List.length_nil]
      omega
    · rw [hrequests, hready]
      exact hnext
  rw [Link.send, post]
  split
  · rename_i hdead
    exact hbooks link.requests (by rw [if_pos hdead])
  · rename_i halive
    exact hbooks _ (by rw [if_neg halive])

/-- A call that comes in when nothing is kept back can be sent at once. -/
theorem Link.Accords.sendNow (h : link.Accords rx s last t) (hready : link.ready = true)
    (hlast : rx.Alike last s) (hheld : t.held = []) (bytes : Bytes) (time : Time) :
    ({ link with nextSeq := link.nextSeq + 1 }.send ⟨link.nextSeq, bytes, time⟩).2.Accords rx s last
      { t with queued := t.queued ++ [(bytes, time)] } := by
  obtain ⟨acked, handled, queued, held⟩ := t
  obtain rfl : held = [] := hheld
  have hstaged : link.staged = [] := h.staged
  have hlink : { link with nextSeq := link.nextSeq + 1, staged := [] } =
      { link with nextSeq := link.nextSeq + 1 } := by rw [← hstaged]
  have hnumber : link.nextSeq = Tally.sent ⟨acked, handled, queued, []⟩ := by
    rw [h.nextSeq, Tally.length_calls]
    rfl
  have hsend : (Link.send { link with nextSeq := link.nextSeq + 1, staged := [] }
      ⟨Tally.sent ⟨acked, handled, queued, []⟩, bytes, time⟩).2.Accords rx s last
        ⟨acked, handled, queued ++ [(bytes, time)], []⟩ :=
    (h.stage bytes time).send hready hlast rfl
  rwa [hlink, ← hnumber] at hsend

end Fieldbus
