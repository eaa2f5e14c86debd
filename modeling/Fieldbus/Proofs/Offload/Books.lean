import Fieldbus.Proofs.Offload.Refinement
import Fieldbus.Proofs.Offload.Ledger

/-!
# The owner's books

What an owner has written down about its chunks and its worker, whatever happens: which chunks it
still keeps, under which numbers, how much of that is kept back, and what the worker kept after the
last chunk that it acknowledged.

* `Link.InOrder` — the invariant between two operations, for all that the worker has been sent or
  will be sent; `Offloaded.mail` says of a run what that is.
* `Link.Books` — what follows for the books (`Link.InOrder.books`).
* `Offloaded.InOrder.step`, `.run` — whatever happens keeps the invariant, and so does a run.
* `Offloaded.run_keeps_books` — the main theorem.

## How it is proved

The ledger (`Proofs.Offload.Ledger`) knows of each request whether it is on the way, handled or
settled, and every step of either side is known there.  What remains to be done here is to follow
an owner through its operations, each of which is made of many steps, and to say what it has written
down without mentioning the ledger.

A worker that has not been seen to start is the difficulty.  Nothing has been sent to it, so for the
ledger nothing has happened, and yet the chunks have come in and have numbers.  That is why the
books are compared with the *mail*, all that the worker has been sent or will be sent: it grows with
each chunk, whether that is sent or kept back, and the handshake leaves it as it is.

The mail is computed from the run and from what the owner has seen of its worker
(`Offloaded.mail`); it is no part of the program.
-/

set_option autoImplicit false

namespace Fieldbus

open Request (chunksOf chunksOf_append)

variable {fresh : Reassembler} {l : Ledger} {link : Link} {snapshot : Option Json}

/-! ## Between two operations

The invariant is about the link between two operations of its owner, with the worker in the midst of
anything.  It counts on a handshake that is not divided: before the worker has been seen to start
nothing was sent to it, and what it will be sent is known, the snapshot and then all that is kept
back; from then on the mail is what was sent, and nothing is kept back.  So reading the reply that
the worker is ready changes what was sent, but not the mail. -/

/-- The size of some chunks. -/
def totalSize (chunks : List Chunk) : Nat :=
  chunks.foldr (fun chunk size => chunk.bytes.length + size) 0

theorem totalSize_concat (chunks : List Chunk) (chunk : Chunk) :
    totalSize (chunks ++ [chunk]) = totalSize chunks + chunk.bytes.length := by
  induction chunks with
  | nil => exact (Nat.zero_add _).symm
  | cons first rest ih =>
    show first.bytes.length + totalSize (rest ++ [chunk]) = _
    rw [ih, ← Nat.add_assoc]
    rfl

/-- The state of a link between two operations of an owner that knows the snapshot.  The requests of
`mail` are those that were sent, or as long as the worker has not been seen to start, those that it
will be sent then. -/
structure Link.InOrder (cap : Nat) (fresh : Reassembler) (snapshot : Option Json)
    (mail : List Request) (link : Link) : Prop where
  sent : link.HasSent fresh (if link.ready then mail else [])
  settled : link.Settled
  mail : link.ready = false → mail = welcome snapshot link.staged
  stagedBytes : link.ready = false →
    link.stagedBytes = totalSize link.staged ∧ link.stagedBytes ≤ cap

namespace Link.InOrder

variable {cap : Nat} {mail : List Request}

/-- Of a worker that has been seen to start no more is asked than that it has been sent all. -/
theorem of_ready (hsent : link.HasSent fresh mail) (hstaged : link.staged = [])
    (hready : link.ready = true) : link.InOrder cap fresh snapshot mail where
  sent := by rwa [if_pos hready]
  settled _ := hstaged
  mail hunready := absurd (hready.symm.trans hunready) (by decide)
  stagedBytes hunready := absurd (hready.symm.trans hunready) (by decide)

theorem move (h : link.InOrder cap fresh snapshot mail) (m : WorkerMove) :
    (link.move m).InOrder cap fresh snapshot mail := by
  have hsent := h.sent.moves [m]
  obtain ⟨worker, requests, replies, hmove⟩ := link.move_eq m
  rw [show link.moves [m] = link.move m from rfl, hmove] at hsent
  rw [hmove]
  exact ⟨hsent, h.settled, h.mail, h.stagedBytes⟩

theorem moves (h : link.InOrder cap fresh snapshot mail) (schedule : List WorkerMove) :
    (link.moves schedule).InOrder cap fresh snapshot mail := by
  induction schedule generalizing link with
  | nil => exact h
  | cons m rest ih => exact ih (h.move m)

/-- **A reply is read**, and says that the worker can be relied on further. -/
theorem read {reply : Reply} {rest : List Reply}
    (h : { link with replies := reply :: rest }.InOrder cap fresh snapshot mail)
    (meanwhile : Interlude)
    (hok : ({ link with replies := rest }.read snapshot meanwhile reply).2.1 = true) :
    ({ link with replies := rest }.read snapshot meanwhile reply).2.2.InOrder cap fresh snapshot
      mail := by
  obtain ⟨l, hsent, hbalances⟩ := h.sent
  rcases hbalances.exchange.reply with
    ⟨rfl, hunready, hnone, hexchange⟩ | ⟨reason, rfl⟩ |
      ⟨before, chunk, after, frames, hhandled, hbefore, rfl, hexchange⟩
  · -- the worker has started: from now on the mail is what was sent
    obtain ⟨settled, handled, queued⟩ := l
    obtain ⟨rfl, rfl, rfl⟩ : settled = [] ∧ handled = [] ∧ queued = [] := by
      simpa [Ledger.sent] using hnone
    have hmet : { link with replies := rest, ready := true }.HasSent fresh [] :=
      ⟨⟨[], [], []⟩, rfl, hbalances.numbered, hbalances.unacked, hbalances.noted, hexchange⟩
    obtain ⟨hall, hstaged, hready⟩ := hmet.begin meanwhile hok
    rw [← h.mail hunready] at hall
    exact of_ready hall hstaged hready
  · cases hok
  · have hsame : Ledger.sent ⟨l.settled ++ before ++ [.chunk chunk], after, l.queued⟩ = l.sent := by
      simp [Ledger.sent, hhandled]
    exact ⟨⟨_, hsame.trans hsent, hbalances.acknowledge hhandled hbefore hexchange⟩, h.settled,
      h.mail, h.stagedBytes⟩

/-- So the link stays in order while the owner reads. -/
theorem lasting (cap : Nat) (fresh : Reassembler) (snapshot : Option Json) (mail : List Request) :
    Link.Lasting snapshot fun _ ok link =>
      ok = true → link.InOrder cap fresh snapshot mail where
  stop _ hok := by cases hok
  move m h _ := (h rfl).move m
  read meanwhile h hok := (h rfl).read meanwhile hok

/-- The mail is what was sent and what is kept back. -/
theorem exists_ledger (h : link.InOrder cap fresh snapshot mail) :
    ∃ l later, link.Balances fresh l ∧ mail = l.sent ++ later ∧ chunksOf later = link.staged ∧
      (link.ready = true → later = []) ∧ (link.ready = false → l.sent = []) := by
  obtain ⟨l, hsent, hbalances⟩ := h.sent
  cases hready : link.ready with
  | true =>
    rw [if_pos hready] at hsent
    exact ⟨l, [], hbalances, by rw [hsent, List.append_nil], (h.settled hready).symm,
      fun _ => rfl, by simp⟩
  | false =>
    rw [if_neg (by rw [hready]; decide)] at hsent
    exact ⟨l, mail, hbalances, by rw [hsent]; rfl, by rw [h.mail hready, chunksOf_welcome],
      by simp, fun _ => hsent⟩

/-- As long as the worker has not been seen to start, the mail is kept back. -/
theorem stagedBytes_eq (h : link.InOrder cap fresh snapshot mail) (hunready : link.ready = false) :
    link.stagedBytes = totalSize (chunksOf mail) := by
  rw [(h.stagedBytes hunready).1, h.mail hunready, chunksOf_welcome]

/-- The next number is the count of the chunks. -/
theorem nextSeq_eq (h : link.InOrder cap fresh snapshot mail) :
    link.nextSeq = (chunksOf mail).length := by
  obtain ⟨l, later, hbalances, rfl, hlater, -⟩ := h.exists_ledger
  have hlength := congrArg List.length hbalances.numbered
  rw [List.length_map, List.length_range] at hlength
  rw [chunksOf_append, hlater, hlength]

/-- **A chunk comes in**, and the owner can go on with the worker. -/
theorem handOver (o : Offloaded) (h : link.InOrder o.bufferCap fresh snapshot mail) (bytes : Bytes)
    (now : Time) (hok : (o.handOver link bytes now).1 = true) :
    (o.handOver link bytes now).2.InOrder o.bufferCap fresh snapshot
      (mail ++ [.chunk ⟨(chunksOf mail).length, bytes, now⟩]) := by
  rw [← h.nextSeq_eq]
  obtain ⟨l, hsent, hbalances⟩ := h.sent
  have hstage := hbalances.stage bytes now
  simp only [Offloaded.handOver] at hok ⊢
  by_cases hready : link.ready = true
  · -- nothing was kept back, so the chunk is the first one that is
    have hstaged : link.staged = [] := h.settled hready
    have hone : link.staged ++ [⟨link.nextSeq, bytes, now⟩] = [⟨link.nextSeq, bytes, now⟩] := by
      rw [hstaged, List.nil_append]
    have hsend := hstage.send hready hone
    have hlink : { link with nextSeq := link.nextSeq + 1, staged := [] } =
        { link with nextSeq := link.nextSeq + 1 } := by rw [← hstaged]
    rw [hlink] at hsend
    rw [if_pos hready] at hsent ⊢
    refine of_ready ⟨_, ?_, hsend⟩ ?_ ?_
    · rw [← hsent]
      simp [Ledger.sent]
    · rw [staged_send]
      exact hstaged
    · rw [ready_send]
      exact hready
  · have hunready : link.ready = false := Bool.eq_false_iff.mpr hready
    obtain ⟨hsize, hle⟩ := h.stagedBytes hunready
    rw [if_neg hready] at hsent hok ⊢
    by_cases hover : o.bufferCap < link.stagedBytes + bytes.length
    · rw [if_pos hover] at hok
      cases hok
    · rw [if_neg hover]
      refine ⟨⟨l, ?_, hstage.numbered, hstage.unacked, hstage.noted, hstage.exchange⟩, ?_, ?_, ?_⟩
      · rw [hsent, if_neg hready]
      · exact fun h => absurd h hready
      · intro _
        rw [h.mail hunready]
        simp [welcome]
      · intro _
        refine ⟨?_, Nat.not_lt.mp hover⟩
        show link.stagedBytes + bytes.length = totalSize (link.staged ++ _)
        rw [totalSize_concat, hsize]

end Link.InOrder

/-! ## The books

What is said here mentions neither the ledger nor when the worker was seen to start.  It is about
the notes of the owner and the messages on the way, compared with the mail: everything that a reader
of the notes needs who wants to go on without the worker. -/

namespace Link

/-- How many chunks are acknowledged. -/
def acknowledged (link : Link) : Nat := link.nextSeq - link.outstanding.length

/-- The books of an owner that has a worker, between two operations.  The worker starts with the
reassembler `fresh`, and `mail` is all that it has been sent, or as long as it has not been seen to
start, all that it will be sent then. -/
structure Books (cap : Nat) (fresh : Reassembler) (mail : List Request) (link : Link) : Prop where
  /-- The owner keeps the chunks that are not acknowledged. -/
  outstanding : link.outstanding = (chunksOf mail).drop link.acknowledged
  /-- Their numbers follow one another and end in front of the next one. -/
  numbered : link.outstanding.map Chunk.seq =
    List.range' link.acknowledged (link.nextSeq - link.acknowledged)
  /-- Until the worker is seen to be ready all of them are kept back, and not too much. -/
  unready : link.ready = false →
    link.unacked = [] ∧ link.stagedBytes = totalSize link.staged ∧ link.stagedBytes ≤ cap
  /-- From then on nothing is kept back. -/
  ready : link.ready = true → link.staged = []
  /-- Of the chunks that were sent the first are answered and the others are on the way, unless the
  worker has died. -/
  covered : link.worker.isDead = false →
    ∃ answered, link.unacked = answered ++ chunksOf link.requests ∧
      link.replies.filterMap Reply.seq? = answered.map Chunk.seq
  /-- The worker has handled the mail up to what is on the way. -/
  worker : ∀ r, link.worker = .running r → ∃ handled later,
    mail = handled ++ (link.requests ++ later) ∧ r = fresh.handleAll handled ∧
      (link.ready = true → later = []) ∧ (link.ready = false → handled = [])
  /-- It is written down what the worker kept right after the last chunk acknowledged. -/
  residual : 0 < link.acknowledged → ∃ before chunk after,
    mail = before ++ .chunk chunk :: after ∧ chunk.seq + 1 = link.acknowledged ∧
      link.residual = (fresh.handleAll (before ++ [.chunk chunk])).pending ∧
      link.residualAt = (fresh.handleAll (before ++ [.chunk chunk])).lastArrival
  /-- Before any chunk is acknowledged nothing is written down. -/
  blank : link.acknowledged = 0 → link.residual = [] ∧ link.residualAt = none

/-! ### From the ledger to the books

The ledger has the requests in three parts, and each note of the owner is a function of one or two
of them.  The chunks in the settled part are the acknowledged ones, their count is the number of the
first that is kept, and the last of them is the one after which the worker kept what is written
down. -/

namespace Balances

/-- The chunks that have come in are those that are settled and those that the owner keeps. -/
theorem append_outstanding (h : link.Balances fresh l) :
    chunksOf l.sent ++ link.staged = chunksOf l.settled ++ link.outstanding := by
  rw [Ledger.sent, chunksOf_append, ← h.unacked, List.append_assoc]
  rfl

theorem acknowledged_eq (h : link.Balances fresh l) :
    link.acknowledged = (chunksOf l.settled).length := by
  have hlength := congrArg List.length h.numbered
  rw [h.append_outstanding, List.length_map, List.length_append, List.length_range] at hlength
  rw [acknowledged]
  omega

theorem map_outstanding (h : link.Balances fresh l) :
    link.outstanding.map Chunk.seq =
      List.range' link.acknowledged (link.nextSeq - link.acknowledged) := by
  have hnumbered := h.numbered
  rw [h.append_outstanding, List.map_append, List.range_eq_range'] at hnumbered
  have hdrop := congrArg (List.drop link.acknowledged) hnumbered
  rw [List.drop_left' (by rw [List.length_map, h.acknowledged_eq]), List.drop_range'] at hdrop
  simpa using hdrop

/-- The last chunk acknowledged has the last number before those that are kept. -/
theorem seq_last (h : link.Balances fresh l) {before : List Request} {chunk : Chunk}
    (hsettled : l.settled = before ++ [.chunk chunk]) : chunk.seq + 1 = link.acknowledged := by
  have hnumbered := h.numbered
  have hcount := h.acknowledged_eq
  rw [hsettled, chunksOf_append, List.length_append] at hcount
  rw [h.append_outstanding, hsettled, chunksOf_append, List.append_assoc] at hnumbered
  have hplace := congrArg (·[(chunksOf before).length]?) hnumbered
  have hseq : chunk.seq = (chunksOf before).length := by
    have hfound : some chunk.seq = (List.range link.nextSeq)[(chunksOf before).length]? := by
      simpa using hplace
    exact (List.getElem?_eq_some_iff.mp hfound.symm).2.symm.trans (List.getElem_range _)
  rw [hcount, hseq]
  rfl

/-- What is written down, as the ledger has it. -/
theorem residual_eq (h : link.Balances fresh l) :
    (l.settled = [] ∧ link.residual = [] ∧ link.residualAt = none) ∨
      ∃ before chunk, l.settled = before ++ [.chunk chunk] ∧
        link.residual = (fresh.handleAll (before ++ [.chunk chunk])).pending ∧
        link.residualAt = (fresh.handleAll (before ++ [.chunk chunk])).lastArrival := by
  have hnoted := h.noted
  generalize l.settled = settled, link.residual = residual, link.residualAt = residualAt at hnoted
  cases hnoted with
  | nothing => exact .inl ⟨rfl, rfl, rfl⟩
  | last before chunk => exact .inr ⟨before, chunk, rfl, rfl, rfl⟩

end Balances

/-- As long as the worker lives, every chunk that was sent and is not acknowledged is answered or on
the way. -/
theorem Balances.covered (h : link.Balances fresh l) (halive : link.worker.isDead = false) :
    ∃ answered, link.unacked = answered ++ chunksOf link.requests ∧
      link.replies.filterMap Reply.seq? = answered.map Chunk.seq := by
  obtain ⟨settled, handled, queued⟩ := l
  have hexchange := h.exchange
  rw [h.unacked]
  generalize link.ready = ready, link.worker = worker, link.requests = requests,
    link.replies = replies at hexchange halive
  cases hexchange with
  | starting hsent =>
    obtain ⟨rfl, rfl, rfl⟩ : settled = [] ∧ handled = [] ∧ queued = [] := by
      simpa [Ledger.sent] using hsent
    exact ⟨[], rfl, rfl⟩
  | started hsent =>
    obtain ⟨rfl, rfl, rfl⟩ : settled = [] ∧ handled = [] ∧ queued = [] := by
      simpa [Ledger.sent] using hsent
    exact ⟨[], rfl, rfl⟩
  | running => exact ⟨chunksOf handled, chunksOf_append .., Reassembler.seqs_answers ..⟩
  | diedUnseen hsent hreplies => cases halive
  | died => cases halive

/-- A running worker has handled what was sent, up to what is on the way. -/
theorem Balances.worker (h : link.Balances fresh l) {r : Reassembler}
    (hworker : link.worker = .running r) :
    ∃ handled, l.sent = handled ++ link.requests ∧ r = fresh.handleAll handled := by
  have hexchange := h.exchange
  rw [hworker] at hexchange
  generalize link.ready = ready, link.requests = requests, link.replies = replies at hexchange ⊢
  obtain ⟨settled, handled, queued⟩ := l
  cases hexchange with
  | started hsent => exact ⟨[], hsent, rfl⟩
  | running => exact ⟨settled ++ handled, (List.append_assoc ..).symm, rfl⟩

/-- **A link in order has its books right.** -/
theorem InOrder.books {cap : Nat} {mail : List Request}
    (h : link.InOrder cap fresh snapshot mail) : link.Books cap fresh mail := by
  obtain ⟨l, later, hbalances, rfl, hlater, hready, hunready⟩ := h.exists_ledger
  have hmail : chunksOf (l.sent ++ later) = chunksOf l.settled ++ link.outstanding := by
    rw [chunksOf_append, hlater, hbalances.append_outstanding]
  refine ⟨?_, hbalances.map_outstanding, ?_, h.settled, hbalances.covered, ?_, ?_, ?_⟩
  · rw [hmail, hbalances.acknowledged_eq, List.drop_left]
  · intro hnot
    have hnone : l.handled ++ l.queued = [] := (List.append_eq_nil_iff.mp (hunready hnot)).2
    exact ⟨by rw [hbalances.unacked, hnone]; rfl, h.stagedBytes hnot⟩
  · intro r hworker
    obtain ⟨handled, hsent, hr⟩ := hbalances.worker hworker
    refine ⟨handled, later, by rw [hsent, List.append_assoc], hr, hready, fun hnot => ?_⟩
    rw [hunready hnot] at hsent
    exact (List.append_eq_nil_iff.mp hsent.symm).1
  · intro hpos
    rcases hbalances.residual_eq with ⟨hnone, -, -⟩ | ⟨before, chunk, hsettled, hresidual⟩
    · rw [hbalances.acknowledged_eq, hnone] at hpos
      cases hpos
    · refine ⟨before, chunk, l.handled ++ l.queued ++ later, ?_, hbalances.seq_last hsettled,
        hresidual⟩
      simp [Ledger.sent, hsettled]
  · intro hzero
    rcases hbalances.residual_eq with ⟨-, hnone⟩ | ⟨before, chunk, hsettled, -⟩
    · exact hnone
    · exact absurd ((hbalances.seq_last hsettled).trans hzero) (Nat.succ_ne_zero _)

end Link

/-! ## Offloaded reassemblers

An owner that has fallen back has no link, and then there is nothing to be kept in order.  Else the
mail grows with each chunk and each snapshot.  Only a snapshot that comes before the worker has been
seen to start is different: it takes the place of an older one, which is never sent. -/

/-- The link is in order, as long as there is one. -/
def OffloadMode.InOrder (cap : Nat) (fresh : Reassembler) (snapshot : Option Json)
    (mail : List Request) : OffloadMode → Prop
  | .worker link => link.InOrder cap fresh snapshot mail
  | .inProcess _ => True

namespace Offloaded

/-- An owner in order, with this mail for its worker. -/
structure InOrder (cap : Nat) (fresh : Reassembler) (mail : List Request) (o : Offloaded) :
    Prop where
  bufferCap : o.bufferCap = cap
  mode : o.mode.InOrder cap fresh o.snapshot mail

/-- The mail after an event.  A snapshot that is set before the worker has been seen to start takes
the place of the one before. -/
def mailAfter (o : Offloaded) (mail : List Request) : OffloadEvent → List Request
  | .feed bytes time _ => mail ++ [.chunk ⟨(chunksOf mail).length, bytes, time⟩]
  | .setSnapshot snapshot =>
    if o.isReady then mail ++ [.snapshot snapshot] else welcome snapshot (chunksOf mail)
  | _ => mail

/-- The mail after some events. -/
def mail (o : Offloaded) (before : List Request) : List OffloadEvent → List Request
  | [] => before
  | event :: rest => (o.step event).2.mail (o.mailAfter before event) rest

variable {o : Offloaded} {cap : Nat} {mail : List Request}

theorem mailAfter_of_isReady (h : o.isReady = true) (snapshot : Option Json) :
    o.mailAfter mail (.setSnapshot snapshot) = mail ++ [.snapshot snapshot] := if_pos h

theorem mailAfter_of_not_isReady (h : ¬o.isReady = true) (snapshot : Option Json) :
    o.mailAfter mail (.setSnapshot snapshot) = welcome snapshot (chunksOf mail) := if_neg h

namespace InOrder

/-- Whoever falls back has no link any more. -/
theorem goOn (hcap : o.bufferCap = cap) {ok : Bool}
    (h : ok = true → link.InOrder cap fresh o.snapshot mail) (meanwhile : Meanwhile) :
    (o.goOn ok link meanwhile).2.InOrder cap fresh mail := by
  cases ok with
  | true => exact ⟨hcap, h rfl⟩
  | false => exact ⟨hcap, trivial⟩

theorem collect (h : o.InOrder cap fresh mail) (untilDrained : Bool) (meanwhile : Meanwhile) :
    (o.collect untilDrained meanwhile).2.InOrder cap fresh mail := by
  obtain ⟨framing, bufferCap, snapshot, mode⟩ := o
  cases mode with
  | inProcess r => exact h
  | worker link =>
    have hread := (Link.InOrder.lasting cap fresh snapshot mail).readAmid [] untilDrained
      meanwhile.reading fun _ => h.mode
    exact goOn h.bufferCap hread meanwhile

theorem feedAmid (h : o.InOrder cap fresh mail) (bytes : Bytes) (now : Time)
    (meanwhile : Meanwhile) :
    (o.feedAmid bytes now meanwhile).2.InOrder cap fresh
      (mail ++ [.chunk ⟨(chunksOf mail).length, bytes, now⟩]) := by
  have hpoll := h.collect false meanwhile
  rw [Offloaded.feedAmid, pollAmid]
  generalize o.collect false meanwhile = result at hpoll ⊢
  obtain ⟨frames, framing, bufferCap, snapshot, mode⟩ := result
  cases mode with
  | inProcess r => exact ⟨hpoll.bufferCap, trivial⟩
  | worker link =>
    obtain rfl : bufferCap = cap := hpoll.bufferCap
    have hmoves := Link.InOrder.moves hpoll.mode meanwhile.handing
    exact goOn rfl (hmoves.handOver ⟨framing, bufferCap, snapshot, .worker link⟩ bytes now)
      meanwhile

theorem setSnapshot (h : o.InOrder cap fresh mail) (next : Option Json) :
    (o.setSnapshot next).InOrder cap fresh (o.mailAfter mail (.setSnapshot next)) := by
  obtain ⟨framing, bufferCap, snapshot, mode⟩ := o
  cases mode with
  | inProcess r => exact ⟨h.bufferCap, trivial⟩
  | worker link =>
    have hlink : link.InOrder cap fresh snapshot mail := h.mode
    by_cases hready : link.ready = true
    · have hisReady : isReady ⟨framing, bufferCap, snapshot, .worker link⟩ = true := hready
      have hsent := hlink.sent
      rw [if_pos hready] at hsent
      rw [mailAfter_of_isReady hisReady]
      simp only [Offloaded.setSnapshot, if_pos hready]
      refine ⟨h.bufferCap, .of_ready (hsent.post_snapshot hready next) ?_ ?_⟩
      · rw [Link.staged_post]
        exact hlink.settled hready
      · rw [Link.ready_post, hready]
    · have hisReady : ¬isReady ⟨framing, bufferCap, snapshot, .worker link⟩ = true := hready
      have hsent := hlink.sent
      rw [if_neg hready] at hsent
      rw [mailAfter_of_not_isReady hisReady]
      simp only [Offloaded.setSnapshot, if_neg hready]
      refine ⟨h.bufferCap, ?_, hlink.settled, fun hunready => ?_, hlink.stagedBytes⟩
      · rwa [if_neg hready]
      · rw [hlink.mail hunready, chunksOf_welcome]

theorem move (h : o.InOrder cap fresh mail) (m : WorkerMove) :
    (o.move m).InOrder cap fresh mail := by
  obtain ⟨framing, bufferCap, snapshot, mode⟩ := o
  cases mode with
  | inProcess r => exact h
  | worker link => exact ⟨h.bufferCap, Link.InOrder.move h.mode m⟩

/-- **Whatever happens, the owner stays in order.** -/
theorem step (h : o.InOrder cap fresh mail) (event : OffloadEvent) :
    (o.step event).2.InOrder cap fresh (o.mailAfter mail event) := by
  cases event with
  | feed bytes time meanwhile => exact h.feedAmid bytes time meanwhile
  | poll meanwhile => exact h.collect false meanwhile
  | flush meanwhile => exact h.collect true meanwhile
  | setSnapshot snapshot => exact h.setSnapshot snapshot
  | work m => exact h.move m

theorem run (h : o.InOrder cap fresh mail) (events : List OffloadEvent) :
    (o.run events).2.InOrder cap fresh (o.mail mail events) := by
  induction events generalizing o mail with
  | nil => exact h
  | cons event rest ih => exact ih (h.step event)

theorem withWorker (framing : RxFraming) (config : OffloadConfig) (fresh : Reassembler) :
    (withWorker framing config fresh).InOrder config.bufferCap fresh [] where
  bufferCap := rfl
  mode :=
    { sent := ⟨⟨[], [], []⟩, rfl, rfl, rfl, .nothing, .starting rfl⟩
      settled := fun _ => rfl
      mail := fun _ => rfl
      stagedBytes := fun _ => ⟨rfl, Nat.zero_le _⟩ }

end InOrder

/-! ## Leaving the worker

There are several reasons to give a worker up: it failed to start, it died, or too much is kept back
while it has not been seen to start.  For the last one it can be said in which call it happens.  The
owner reads the replies first, and if it still has a worker that it has not seen to start, then only
the size counts.  That reading leaves the size as it was follows from the invariant: the size is
that of the mail, and the mail is left alone. -/

/-- There is no way back to a worker. -/
theorem isFallback_step (h : o.isFallback = true) (event : OffloadEvent) :
    (o.step event).2.isFallback = true := by
  obtain ⟨framing, bufferCap, snapshot, mode⟩ := o
  cases mode with
  | inProcess r => cases event <;> rfl
  | worker link => cases h

theorem isFallback_run (h : o.isFallback = true) (events : List OffloadEvent) :
    (o.run events).2.isFallback = true := by
  induction events generalizing o with
  | nil => exact h
  | cons event rest ih => exact ih (isFallback_step h event)

theorem isFallback_goOn (o : Offloaded) (ok : Bool) (link : Link) (meanwhile : Meanwhile) :
    (o.goOn ok link meanwhile).2.isFallback = !ok := by
  cases ok <;> rfl

/-- As long as the worker has not been seen to start, only the size of what is kept back counts. -/
theorem handOver_eq_false_iff (hunready : link.ready = false) (bytes : Bytes) (now : Time) :
    (o.handOver link bytes now).1 = false ↔ o.bufferCap < link.stagedBytes + bytes.length := by
  simp only [handOver, hunready, Bool.false_eq_true, if_false]
  split <;> simp [*]

/-- **Too much is kept back**: the owner falls back during the call that brings it to that, and not
before. -/
theorem InOrder.isFallback_feedAmid_iff (h : o.InOrder cap fresh mail)
    (hmode : o.mode = .worker link) (hunready : link.ready = false) (bytes : Bytes)
    (now : Time) (meanwhile : Meanwhile) (hsilent : (o.pollAmid meanwhile).2.isReady = false) :
    (o.feedAmid bytes now meanwhile).2.isFallback = true ↔
      (o.pollAmid meanwhile).2.isFallback = true ∨ cap < link.stagedBytes + bytes.length := by
  have hlink : link.InOrder cap fresh o.snapshot mail := by
    have hcurrent := h.mode
    rwa [hmode] at hcurrent
  have hpoll : (o.pollAmid meanwhile).2.InOrder cap fresh mail := h.collect false meanwhile
  rw [Offloaded.feedAmid]
  generalize o.pollAmid meanwhile = result at hpoll hsilent ⊢
  obtain ⟨frames, framing, bufferCap, snapshot, mode⟩ := result
  cases mode with
  | inProcess r => exact ⟨fun _ => .inl rfl, fun _ => rfl⟩
  | worker next =>
    have hmoved := Link.InOrder.moves hpoll.mode meanwhile.handing
    have hstill : (next.moves meanwhile.handing).ready = false :=
      (Link.ready_moves ..).trans hsilent
    -- polling leaves the mail as it is, and so the size of what is kept back
    have hsize : (next.moves meanwhile.handing).stagedBytes = link.stagedBytes := by
      rw [hmoved.stagedBytes_eq hstill, hlink.stagedBytes_eq hunready]
    obtain rfl : bufferCap = cap := hpoll.bufferCap
    simp only [isFallback_goOn, Bool.not_eq_true', handOver_eq_false_iff hstill, hsize]
    exact ⟨.inr, fun hor => hor.resolve_left (by simp [isFallback])⟩

/-! ## Runs -/

/-- **The owner's books are right**, whatever happens and in whatever order, as long as there is a
worker; and a worker is given up for good.  As long as the worker has not been seen to start, the
owner gives it up in the call that brings too much to keep back, if it has not by then. -/
theorem run_keeps_books (framing : RxFraming) (config : OffloadConfig) (fresh : Reassembler)
    (events : List OffloadEvent) :
    let start := Offloaded.withWorker framing config fresh
    let o := (start.run events).2
    (∀ link, o.mode = .worker link →
      link.Books config.bufferCap fresh (start.mail [] events) ∧
        (link.ready = false → ∀ bytes now meanwhile, (o.pollAmid meanwhile).2.isReady = false →
          ((o.feedAmid bytes now meanwhile).2.isFallback = true ↔
            (o.pollAmid meanwhile).2.isFallback = true ∨
              config.bufferCap < link.stagedBytes + bytes.length))) ∧
      (o.isFallback = true → ∀ later, (o.run later).2.isFallback = true) := by
  intro start o
  have horder : o.InOrder config.bufferCap fresh (start.mail [] events) :=
    (InOrder.withWorker framing config fresh).run events
  refine ⟨fun link hmode => ⟨?_, fun hunready => ?_⟩, isFallback_run⟩
  · have hlink := horder.mode
    rw [hmode] at hlink
    exact Link.InOrder.books hlink
  · exact horder.isFallback_feedAmid_iff hmode hunready

/-- Three bytes may be kept back.  A worker that starts in time has handled the first of two chunks;
one that does not start is given up with the second. -/
theorem run_keeps_books_of_slow_worker :
    let rx : RxFraming :=
      { header := [0xF7], footer := [], checksum := .named .add, delimiter := .checksum,
        minLength := none, maxLength := none, timeout := 10, startBytes := none }
    let fresh := Reassembler.fresh rx none
    let start := Offloaded.withWorker rx { bufferCap := 3 } fresh
    let first : OffloadEvent := .feed [0xF7, 0x01] 0 {}
    let second : OffloadEvent := .feed [0xF8, 0xF7] 5_000_000 {}
    let meeting := [first, .work .start, .poll {}, .work .handle, second]
    (∃ link, (start.run meeting).2.mode = .worker link ∧
      (link.ready = true ∧ link.acknowledged = 1 ∧ link.residual = [0xF7, 0x01] ∧
        link.residualAt = some 0) ∧ link.Books 3 fresh (start.mail [] meeting)) ∧
    (∃ link, (start.run [first]).2.mode = .worker link ∧
      (link.ready = false ∧ link.stagedBytes = 2) ∧
      ((start.run [first]).2.pollAmid {}).2.isReady = false ∧
      ((start.run [first]).2.feedAmid [0xF8, 0xF7] 5_000_000 {}).2.isFallback = true) ∧
    (start.run [first, second]).2.isFallback = true ∧
      ((start.run [first, second]).2.run [.work .start, .poll {}]).2.isFallback = true := by
  intro rx fresh start first second meeting
  have hbooks := run_keeps_books rx { bufferCap := 3 } fresh
  refine ⟨?_, ?_, ?_⟩
  · have hmet : (match (start.run meeting).2.mode with
        | .worker link => decide (link.ready = true ∧ link.acknowledged = 1 ∧
            link.residual = [0xF7, 0x01] ∧ link.residualAt = some 0)
        | .inProcess _ => false) = true := by decide
    split at hmet
    · rename_i link hmode
      exact ⟨link, hmode, of_decide_eq_true hmet, ((hbooks meeting).1 link hmode).1⟩
    · cases hmet
  · have hunmet : (match (start.run [first]).2.mode with
        | .worker link => decide (link.ready = false ∧ link.stagedBytes = 2)
        | .inProcess _ => false) = true := by decide
    have hsilent : ((start.run [first]).2.pollAmid {}).2.isReady = false := by decide
    split at hunmet
    · rename_i link hmode
      have hlink := of_decide_eq_true hunmet
      have hfull := ((hbooks [first]).1 link hmode).2 hlink.1 [0xF8, 0xF7] 5_000_000 {} hsilent
      refine ⟨link, hmode, hlink, hsilent, hfull.2 (.inr ?_)⟩
      rw [hlink.2]
      decide
    · cases hunmet
  · have hgone : (start.run [first, second]).2.isFallback = true := by decide
    exact ⟨hgone, (hbooks [first, second]).2 hgone _⟩

end Offloaded
end Fieldbus
