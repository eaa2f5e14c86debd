import Fieldbus.Proofs.Offload.Reading

/-!
# Where the requests are

A request that the owner has sent is on the way, or the worker has handled it, and then the replies
are on the way or read.  The ledger keeps the three apart, in the order in which the requests were
sent; the owner's books and the messages on the way follow from it.

* `Request.chunksOf`, `Reassembler.handleAll`, `.answers` — what requests hold, what a worker makes
  of them and what it replies.
* `Ledger`, `Exchange`, `Noted` — where the requests are; what worker, messages and notes have to be
  then.
* `Link.Balances` — the books and the messages on the way agree with the ledger.  Each step has a
  lemma: `.move`, `.post_snapshot`, `.stage`, `.send`, `.acknowledge`; and `Exchange.reply` says
  what the next reply can be.
* `Link.HasSent` — the same without the ledger, for what the owner does in several steps:
  `.sendStaged` and the handshake, `.begin`.

In contrast to `Link.Accords` nothing is asked of the snapshots, and the worker may start with any
reassembler; so the requests themselves are counted, and not the calls alone.

## Why a ledger

Owner and worker each know a part only.  The owner knows which chunks it has sent and which of them
were acknowledged; the worker knows what it has handled; and a message on the way is known to
neither.  A statement about the owner's notes cannot be kept through a step of the worker unless it
says what the worker has handled, and a statement about the worker must say what is still on the
way to it.  The ledger says all of that at once.  It cannot always be told where its cuts are: of a
worker that has died nobody knows whether it handled the snapshots behind its last reply.  So
`Link.HasSent` only says that there is a ledger with these requests.
-/

set_option autoImplicit false

namespace Fieldbus

/-! ## Requests and replies

A worker is a reassembler that handles one request after another and replies to the chunks alone.
So what it keeps and what it replies are functions of the requests, and it is enough to say which
requests it has handled. -/

/-- The number of the chunk that a reply acknowledges. -/
def Reply.seq? : Reply → Option Nat
  | .frames seq _ _ _ => some seq
  | _ => none

namespace Request

/-- The chunk in a request. -/
def chunk? : Request → Option Chunk
  | .chunk c => some c
  | .snapshot _ => none

/-- The chunks in the requests. -/
def chunksOf (requests : List Request) : List Chunk := requests.filterMap chunk?

@[simp] theorem chunksOf_nil : chunksOf [] = [] := rfl

@[simp] theorem chunksOf_snapshot_cons (s : Option Json) (rest : List Request) :
    chunksOf (snapshot s :: rest) = chunksOf rest := rfl

@[simp] theorem chunksOf_chunk_cons (c : Chunk) (rest : List Request) :
    chunksOf (chunk c :: rest) = c :: chunksOf rest := rfl

@[simp] theorem chunksOf_append (first second : List Request) :
    chunksOf (first ++ second) = chunksOf first ++ chunksOf second := List.filterMap_append

theorem chunksOf_map_chunk (chunks : List Chunk) : chunksOf (chunks.map chunk) = chunks := by
  induction chunks with
  | nil => rfl
  | cons c rest ih => exact congrArg (c :: ·) ih

end Request

open Request (chunksOf chunksOf_append chunksOf_map_chunk)

namespace Reassembler

/-- The reassembler of a worker after a request. -/
def handle (r : Reassembler) : Request → Reassembler
  | .chunk chunk => (r.feed chunk.bytes chunk.time).2
  | .snapshot snapshot => r.setSnapshot snapshot

/-- The reassembler of a worker after requests that it handles one after another. -/
def handleAll (r : Reassembler) (requests : List Request) : Reassembler := requests.foldl handle r

/-- What the worker replies to them. -/
def answers : Reassembler → List Request → List Reply
  | _, [] => []
  | r, .snapshot snapshot :: rest => answers (r.setSnapshot snapshot) rest
  | r, .chunk chunk :: rest =>
    let (frames, r) := r.feed chunk.bytes chunk.time
    .frames chunk.seq frames r.pending r.lastArrival :: answers r rest

theorem handleAll_append (r : Reassembler) (first second : List Request) :
    r.handleAll (first ++ second) = (r.handleAll first).handleAll second := List.foldl_append

theorem handleAll_concat (r : Reassembler) (requests : List Request) (request : Request) :
    r.handleAll (requests ++ [request]) = (r.handleAll requests).handle request :=
  handleAll_append r requests [request]

theorem answers_append (r : Reassembler) (first second : List Request) :
    r.answers (first ++ second) = r.answers first ++ (r.handleAll first).answers second := by
  induction first generalizing r with
  | nil => rfl
  | cons request rest ih =>
    cases request with
    | snapshot snapshot => exact ih (r.setSnapshot snapshot)
    | chunk chunk => exact congrArg (_ :: ·) (ih (r.feed chunk.bytes chunk.time).2)

/-- A worker replies to the chunks, one by one. -/
theorem seqs_answers (r : Reassembler) (requests : List Request) :
    (r.answers requests).filterMap Reply.seq? = (chunksOf requests).map Chunk.seq := by
  induction requests generalizing r with
  | nil => rfl
  | cons request rest ih =>
    cases request with
    | snapshot snapshot => exact ih (r.setSnapshot snapshot)
    | chunk chunk => exact congrArg (chunk.seq :: ·) (ih (r.feed chunk.bytes chunk.time).2)

/-- The first reply is about the first chunk, and says what the worker keeps right after it. -/
theorem exists_of_answers_eq_cons {r : Reassembler} {requests : List Request} {reply : Reply}
    {rest : List Reply} (h : r.answers requests = reply :: rest) :
    ∃ before chunk after frames, requests = before ++ .chunk chunk :: after ∧
      chunksOf before = [] ∧
      reply = .frames chunk.seq frames (r.handleAll (before ++ [.chunk chunk])).pending
        (r.handleAll (before ++ [.chunk chunk])).lastArrival ∧
      rest = (r.handleAll (before ++ [.chunk chunk])).answers after := by
  induction requests generalizing r with
  | nil => cases h
  | cons request requests ih =>
    cases request with
    | snapshot snapshot =>
      obtain ⟨before, chunk, after, frames, rfl, hbefore, hreply, hrest⟩ := ih h
      exact ⟨.snapshot snapshot :: before, chunk, after, frames, rfl, hbefore, hreply, hrest⟩
    | chunk chunk =>
      obtain ⟨hreply, hrest⟩ := List.cons.inj h
      exact ⟨[], chunk, requests, _, rfl, rfl, hreply.symm, hrest.symm⟩

end Reassembler

/-! ## Where the requests are

In the order in which requests are sent they are also handled, and in that order the replies are
read.  So two cuts through the list of all requests say where each of them is: in front of the first
cut the replies have been read, between the two they are on the way, and behind the second cut
nothing has been handled.  Snapshots get no reply; they count as settled with the next chunk. -/

/-- Where the requests are that were sent, in the order in which they were. -/
structure Ledger where
  /-- Handled, up to the last chunk that is acknowledged. -/
  settled : List Request
  /-- Handled since, with the replies on the way. -/
  handled : List Request
  /-- Not handled: on the way, or lost with the worker. -/
  queued : List Request

namespace Ledger

/-- All requests that were sent. -/
def sent (l : Ledger) : List Request := l.settled ++ (l.handled ++ l.queued)

/-- The next request is handled. -/
theorem sent_handle (l : Ledger) {request : Request} {rest : List Request}
    (h : l.queued = request :: rest) :
    sent { l with handled := l.handled ++ [request], queued := rest } = l.sent := by
  simp [sent, h]

end Ledger

/-- How the worker and the messages on the way fit the ledger, by whether the owner has seen that
the worker started. -/
inductive Exchange (fresh : Reassembler) (l : Ledger) :
    Bool → Worker → List Request → List Reply → Prop
  | starting (h : l.sent = []) : Exchange fresh l false (.starting fresh) [] []
  | started (h : l.sent = []) : Exchange fresh l false (.running fresh) [] [.ready]
  | running :
      Exchange fresh l true (.running (fresh.handleAll (l.settled ++ l.handled))) l.queued
        ((fresh.handleAll l.settled).answers l.handled)
  | diedUnseen {replies : List Reply} (h : l.sent = [])
      (hreplies : replies = [] ∨ replies = [.ready] ∨ ∃ reason, replies = [.failed reason]) :
      Exchange fresh l false .dead [] replies
  | died : Exchange fresh l true .dead [] ((fresh.handleAll l.settled).answers l.handled)

/-- What is written down is what the worker kept after these requests, the last of which is the last
chunk acknowledged; without any, nothing is. -/
inductive Noted (fresh : Reassembler) : List Request → Bytes → Option Time → Prop
  | nothing : Noted fresh [] [] none
  | last (before : List Request) (chunk : Chunk) :
      Noted fresh (before ++ [.chunk chunk]) (fresh.handleAll (before ++ [.chunk chunk])).pending
        (fresh.handleAll (before ++ [.chunk chunk])).lastArrival

/-- The books and the messages on the way agree with the ledger. -/
structure Link.Balances (fresh : Reassembler) (link : Link) (l : Ledger) : Prop where
  /-- Chunks are numbered as they come in. -/
  numbered : (chunksOf l.sent ++ link.staged).map Chunk.seq = List.range link.nextSeq
  /-- The owner keeps what was sent, until it is acknowledged. -/
  unacked : link.unacked = chunksOf (l.handled ++ l.queued)
  noted : Noted fresh l.settled link.residual link.residualAt
  exchange : Exchange fresh l link.ready link.worker link.requests link.replies

variable {fresh : Reassembler} {l : Ledger} {link : Link} {snapshot : Option Json}

/-! ## Steps of the worker

Handling a request moves the second cut by one, and starting, failing and dying move none.  Nothing
is sent, so all requests together stay what they were; only this much has to be known about the
worker later on. -/

/-- The worker handles the next request, of whatever kind. -/
theorem Link.move_handle {r : Reassembler} {request : Request} {rest : List Request}
    (hworker : link.worker = .running r) (hrequests : link.requests = request :: rest) :
    link.move .handle =
      { link with
        worker := .running (r.handle request)
        requests := rest
        replies := link.replies ++ r.answers [request] } := by
  cases request with
  | chunk chunk =>
    simp only [Link.move, hworker, hrequests]
    rfl
  | snapshot snapshot =>
    simp only [Link.move, hworker, hrequests, Reassembler.answers, List.append_nil]
    rfl

namespace Exchange

variable {ready : Bool} {worker : Worker} {requests : List Request} {replies : List Reply}

theorem start {r : Reassembler} (h : Exchange fresh l ready (.starting r) requests replies) :
    Exchange fresh l ready (.running r) requests (replies ++ [.ready]) := by
  cases h with
  | starting hsent => exact .started hsent

theorem failToStart {r : Reassembler} (h : Exchange fresh l ready (.starting r) requests replies)
    (reason : String) : Exchange fresh l ready .dead [] (replies ++ [.failed reason]) := by
  cases h with
  | starting hsent => exact .diedUnseen hsent (.inr (.inr ⟨reason, rfl⟩))

theorem handle {r : Reassembler} {request : Request} {rest : List Request}
    (h : Exchange fresh l ready (.running r) (request :: rest) replies) :
    l.queued = request :: rest ∧
      Exchange fresh { l with handled := l.handled ++ [request], queued := rest } ready
        (.running (r.handle request)) rest (replies ++ r.answers [request]) := by
  obtain ⟨settled, handled, queued⟩ := l
  cases h with
  | running =>
    have hnext : Exchange fresh ⟨settled, handled ++ [request], rest⟩ true _ rest _ := .running
    refine ⟨rfl, ?_⟩
    rw [← List.append_assoc, Reassembler.handleAll_concat, Reassembler.answers_append,
      ← Reassembler.handleAll_append] at hnext
    exact hnext

/-- Whatever the worker has said before it dies stays said. -/
theorem die (h : Exchange fresh l ready worker requests replies) :
    Exchange fresh l ready .dead [] replies := by
  cases h with
  | starting hsent => exact .diedUnseen hsent (.inl rfl)
  | started hsent => exact .diedUnseen hsent (.inr (.inl rfl))
  | running => exact .died
  | diedUnseen hsent hreplies => exact .diedUnseen hsent hreplies
  | died => exact .died

/-- A request is sent to a worker that has been seen to start; it is lost if the worker is dead. -/
theorem post (h : Exchange fresh l true worker requests replies) (request : Request) :
    Exchange fresh { l with queued := l.queued ++ [request] } true worker
      (if worker.isDead then requests else requests ++ [request]) replies := by
  cases h with
  | running => exact .running
  | died => exact .died

end Exchange

/-- **A step of the worker keeps the balance**, and no request is sent by it. -/
theorem Link.Balances.move (h : link.Balances fresh l) (m : WorkerMove) :
    ∃ l', l'.sent = l.sent ∧ (link.move m).Balances fresh l' := by
  have hexchange := h.exchange
  cases m with
  | start =>
    simp only [Link.move]
    split
    · rename_i r hworker
      rw [hworker] at hexchange
      exact ⟨l, rfl, h.numbered, h.unacked, h.noted, hexchange.start⟩
    · exact ⟨l, rfl, h⟩
  | failToStart reason =>
    simp only [Link.move]
    split
    · rename_i r hworker
      rw [hworker] at hexchange
      exact ⟨l, rfl, h.numbered, h.unacked, h.noted, hexchange.failToStart reason⟩
    · exact ⟨l, rfl, h⟩
  | handle =>
    rcases hworker : link.worker with r | r | _
    · exact ⟨l, rfl, by simpa only [Link.move, hworker] using h⟩
    · rcases hrequests : link.requests with _ | ⟨request, rest⟩
      · exact ⟨l, rfl, by simpa only [Link.move, hworker, hrequests] using h⟩
      · rw [hworker, hrequests] at hexchange
        obtain ⟨hqueued, hnext⟩ := hexchange.handle
        rw [Link.move_handle hworker hrequests]
        refine ⟨_, l.sent_handle hqueued, ?_, ?_, h.noted, hnext⟩
        · rw [l.sent_handle hqueued]
          exact h.numbered
        · show link.unacked = chunksOf (l.handled ++ [request] ++ rest)
          rw [h.unacked, hqueued, List.append_assoc]
          rfl
    · exact ⟨l, rfl, by simpa only [Link.move, hworker] using h⟩
  | die => exact ⟨l, rfl, h.numbered, h.unacked, h.noted, hexchange.die⟩

/-! ## Steps of the owner

Sending adds a request behind the second cut, and reading a reply moves the first cut up to behind
the chunk that is acknowledged.  The owner drops its copies up to the number in the reply.  That
this drops one chunk and no other is due to the numbers, which increase. -/

theorem Link.post_eq (link : Link) (request : Request) :
    link.post request =
      (!link.worker.isDead,
        { link with
          requests := if link.worker.isDead then link.requests
            else link.requests ++ [request] }) := by
  rw [post]
  cases link.worker.isDead <;> rfl

namespace Link.Balances

/-- The worker is told a snapshot, or is dead. -/
theorem post_snapshot (h : link.Balances fresh l) (hready : link.ready = true)
    (snapshot : Option Json) :
    (link.post (.snapshot snapshot)).2.Balances fresh
      { l with queued := l.queued ++ [.snapshot snapshot] } := by
  have hexchange := h.exchange
  rw [hready] at hexchange
  rw [Link.post_eq]
  refine ⟨?_, ?_, h.noted, ?_⟩
  · rw [← h.numbered]
    simp [Ledger.sent]
  · show link.unacked = _
    rw [h.unacked]
    simp
  · show Exchange _ _ link.ready _ _ _
    rw [hready]
    exact hexchange.post _

/-- A chunk comes in and is kept back. -/
theorem stage (h : link.Balances fresh l) (bytes : Bytes) (time : Time) :
    { link with
      nextSeq := link.nextSeq + 1
      staged := link.staged ++ [(⟨link.nextSeq, bytes, time⟩ : Chunk)] }.Balances fresh l where
  numbered := by
    show (chunksOf l.sent ++ (link.staged ++ _)).map Chunk.seq = List.range (link.nextSeq + 1)
    rw [← List.append_assoc, List.map_append, h.numbered, List.range_succ]
    rfl
  unacked := h.unacked
  noted := h.noted
  exchange := h.exchange

/-- **The first chunk that was kept back is sent**, whether anybody receives it or not. -/
theorem send (h : link.Balances fresh l) (hready : link.ready = true) {chunk : Chunk}
    {rest : List Chunk} (hstaged : link.staged = chunk :: rest) :
    (Link.send { link with staged := rest } chunk).2.Balances fresh
      { l with queued := l.queued ++ [.chunk chunk] } := by
  have hexchange := h.exchange
  rw [hready] at hexchange
  rw [Link.send, Link.post_eq]
  refine ⟨?_, ?_, h.noted, ?_⟩
  · rw [← h.numbered, hstaged]
    simp [Ledger.sent]
  · show link.unacked ++ [chunk] = _
    rw [h.unacked]
    simp
  · show Exchange _ _ link.ready _ _ _
    rw [hready]
    exact hexchange.post _

/-- The chunks kept behind the first one stay, as their numbers are higher. -/
theorem dropWhile_unacked {chunk : Chunk} {rest : List Chunk}
    (h : ∀ later ∈ rest, chunk.seq < later.seq) :
    (chunk :: rest).dropWhile (·.seq ≤ chunk.seq) = rest := by
  rw [List.dropWhile_cons_of_pos (by simp)]
  cases rest with
  | nil => rfl
  | cons next rest =>
    have hnext := h next (List.mem_cons_self ..)
    exact List.dropWhile_cons_of_neg (by simpa using hnext)

/-- The numbers of the chunks that are kept for the worker increase. -/
theorem pairwise_unacked (h : link.Balances fresh l) :
    (link.unacked.map Chunk.seq).Pairwise (· < ·) := by
  have hall : ((chunksOf l.sent ++ link.staged).map Chunk.seq).Pairwise (· < ·) :=
    h.numbered ▸ List.pairwise_lt_range
  rw [Ledger.sent, chunksOf_append, ← h.unacked, List.map_append, List.map_append,
    List.pairwise_append, List.pairwise_append] at hall
  exact hall.1.2.1

/-- **The first chunk that is not acknowledged is.** -/
theorem acknowledge (h : link.Balances fresh l) {before after : List Request} {chunk : Chunk}
    {replies : List Reply} (hhandled : l.handled = before ++ .chunk chunk :: after)
    (hbefore : chunksOf before = [])
    (hexchange : Exchange fresh ⟨l.settled ++ before ++ [.chunk chunk], after, l.queued⟩ link.ready
      link.worker link.requests replies) :
    (Link.acknowledge { link with replies := replies } chunk.seq
      (fresh.handleAll (l.settled ++ before ++ [.chunk chunk])).pending
      (fresh.handleAll (l.settled ++ before ++ [.chunk chunk])).lastArrival).Balances fresh
        ⟨l.settled ++ before ++ [.chunk chunk], after, l.queued⟩ where
  numbered := by
    show (chunksOf (Ledger.sent _) ++ link.staged).map Chunk.seq = List.range link.nextSeq
    rw [← h.numbered]
    simp [Ledger.sent, hhandled]
  unacked := by
    have hunacked : link.unacked = chunk :: chunksOf (after ++ l.queued) := by
      rw [h.unacked, hhandled]
      simp [hbefore]
    have hincreasing := h.pairwise_unacked
    rw [hunacked, List.map_cons, List.pairwise_cons] at hincreasing
    show link.unacked.dropWhile _ = _
    rw [hunacked, dropWhile_unacked fun later hlater =>
      hincreasing.1 _ (List.mem_map_of_mem hlater)]
  noted := .last _ chunk
  exchange := hexchange

end Link.Balances

/-- What the next reply can be, and where the requests are when it has been read. -/
theorem Exchange.reply {ready : Bool} {worker : Worker} {requests : List Request} {reply : Reply}
    {rest : List Reply} (h : Exchange fresh l ready worker requests (reply :: rest)) :
    (reply = .ready ∧ ready = false ∧ l.sent = [] ∧
        Exchange fresh ⟨[], [], []⟩ true worker requests rest) ∨
      (∃ reason, reply = .failed reason) ∨
      ∃ before chunk after frames, l.handled = before ++ .chunk chunk :: after ∧
        chunksOf before = [] ∧
        reply = .frames chunk.seq frames
          (fresh.handleAll (l.settled ++ before ++ [.chunk chunk])).pending
          (fresh.handleAll (l.settled ++ before ++ [.chunk chunk])).lastArrival ∧
        Exchange fresh ⟨l.settled ++ before ++ [.chunk chunk], after, l.queued⟩ ready worker
          requests rest := by
  generalize hreplies : reply :: rest = replies at h
  obtain ⟨settled, handled, queued⟩ := l
  cases h with
  | starting hsent => cases hreplies
  | started hsent =>
    cases hreplies
    exact .inl ⟨rfl, rfl, hsent, .running⟩
  | diedUnseen hsent hnone =>
    rcases hnone with rfl | rfl | ⟨reason, rfl⟩
    · cases hreplies
    · cases hreplies
      exact .inl ⟨rfl, rfl, hsent, .died⟩
    · cases hreplies
      exact .inr (.inl ⟨reason, rfl⟩)
  | running =>
    obtain ⟨before, chunk, after, frames, hhandled, hbefore, hreply, hrest⟩ :=
      Reassembler.exists_of_answers_eq_cons hreplies.symm
    rw [← Reassembler.handleAll_append, ← List.append_assoc] at hreply hrest
    refine .inr (.inr ⟨before, chunk, after, frames, hhandled, hbefore, hreply, ?_⟩)
    -- the worker has handled the same requests, only more of them are settled
    have hall : settled ++ before ++ [.chunk chunk] ++ after = settled ++ handled := by
      simp [show handled = _ from hhandled]
    have hnext : Exchange fresh ⟨settled ++ before ++ [.chunk chunk], after, queued⟩ true _ _ _ :=
      .running
    rw [hall] at hnext
    rw [hrest]
    exact hnext
  | died =>
    obtain ⟨before, chunk, after, frames, hhandled, hbefore, hreply, hrest⟩ :=
      Reassembler.exists_of_answers_eq_cons hreplies.symm
    rw [← Reassembler.handleAll_append, ← List.append_assoc] at hreply hrest
    refine .inr (.inr ⟨before, chunk, after, frames, hhandled, hbefore, hreply, ?_⟩)
    rw [hrest]
    exact .died

/-! ## What has been sent

The owner does several things in one operation, and the worker goes on between any two of them.  To
follow that the cuts need not be known, only that there are some for the requests sent so far. -/

/-- These are the requests that were sent, and the books are in balance. -/
def Link.HasSent (fresh : Reassembler) (sent : List Request) (link : Link) : Prop :=
  ∃ l : Ledger, l.sent = sent ∧ link.Balances fresh l

/-- What a worker that has been seen to start is sent at once: the snapshot, if there is one, and
the chunks that were kept back. -/
def welcome (snapshot : Option Json) (chunks : List Chunk) : List Request :=
  (if snapshot.isSome then [.snapshot snapshot] else []) ++ chunks.map .chunk

@[simp] theorem chunksOf_welcome (snapshot : Option Json) (chunks : List Chunk) :
    chunksOf (welcome snapshot chunks) = chunks := by
  rw [welcome, chunksOf_append, chunksOf_map_chunk]
  split <;> rfl

namespace Link.HasSent

variable {sent : List Request}

theorem moves (h : link.HasSent fresh sent) (schedule : List WorkerMove) :
    (link.moves schedule).HasSent fresh sent := by
  induction schedule generalizing link with
  | nil => exact h
  | cons m rest ih =>
    obtain ⟨l, rfl, hbalances⟩ := h
    obtain ⟨l', hsent, hmove⟩ := hbalances.move m
    exact ih ⟨l', hsent, hmove⟩

theorem post_snapshot (h : link.HasSent fresh sent) (hready : link.ready = true)
    (snapshot : Option Json) :
    (link.post (.snapshot snapshot)).2.HasSent fresh (sent ++ [.snapshot snapshot]) := by
  obtain ⟨l, rfl, hbalances⟩ := h
  exact ⟨_, by simp [Ledger.sent], hbalances.post_snapshot hready snapshot⟩

theorem send (h : link.HasSent fresh sent) (hready : link.ready = true) {chunk : Chunk}
    {rest : List Chunk} (hstaged : link.staged = chunk :: rest) :
    (Link.send { link with staged := rest } chunk).2.HasSent fresh (sent ++ [.chunk chunk]) := by
  obtain ⟨l, rfl, hbalances⟩ := h
  exact ⟨_, by simp [Ledger.sent], hbalances.send hready hstaged⟩

/-- **All that was kept back is sent**, if somebody is there to receive it. -/
theorem sendStaged (h : link.HasSent fresh sent) (hready : link.ready = true)
    (meanwhile : List (List WorkerMove))
    (hok : (Link.sendStaged meanwhile link.staged link).1 = true) :
    (Link.sendStaged meanwhile link.staged link).2.HasSent fresh
        (sent ++ link.staged.map .chunk) ∧
      (Link.sendStaged meanwhile link.staged link).2.staged = [] ∧
      (Link.sendStaged meanwhile link.staged link).2.ready = true := by
  -- by induction on what is kept back, with the worker at work before each chunk
  obtain ⟨staged, hstaged⟩ : ∃ staged, link.staged = staged := ⟨_, rfl⟩
  induction staged generalizing link sent meanwhile with
  | nil =>
    have hlink : { link with staged := [] } = link := by rw [← hstaged]
    rw [hstaged, Link.sendStaged, hlink, List.map_nil, List.append_nil]
    exact ⟨h, hstaged, hready⟩
  | cons chunk rest ih =>
    have hfirst : (link.moves (meanwhile.headD [])).staged = chunk :: rest := by
      rwa [staged_moves]
    have hsent := (h.moves (meanwhile.headD [])).send (by rwa [ready_moves]) hfirst
    have hready' := ready_send { link.moves (meanwhile.headD []) with staged := rest } chunk
    have hstaged' := staged_send { link.moves (meanwhile.headD []) with staged := rest } chunk
    rw [hstaged, Link.sendStaged] at hok ⊢
    generalize Link.send _ chunk = result at hsent hready' hstaged' hok ⊢
    obtain ⟨ok, next⟩ := result
    cases ok with
    | false => cases hok
    | true =>
      have hmore := ih hsent (hready'.trans ((ready_moves ..).trans hready)) meanwhile.tail
      rw [hstaged', List.append_assoc] at hmore
      exact hmore hok rfl

/-- The worker is told the snapshot, if there is one. -/
theorem tell (h : link.HasSent fresh []) (hready : link.ready = true) (snapshot : Option Json)
    (meanwhile : List WorkerMove) :
    (link.tell snapshot meanwhile).2.HasSent fresh (welcome snapshot []) ∧
      (link.tell snapshot meanwhile).2.staged = link.staged ∧
      (link.tell snapshot meanwhile).2.ready = true := by
  rw [Link.tell, welcome, List.map_nil, List.append_nil]
  split
  · refine ⟨(h.moves meanwhile).post_snapshot (by rwa [ready_moves]) snapshot, ?_, ?_⟩
    · rw [staged_post, staged_moves]
    · rw [ready_post, ready_moves, hready]
  · exact ⟨h, rfl, hready⟩

/-- **The handshake**: a worker that is ready and that nobody has sent anything is sent all there
is. -/
theorem begin (h : { link with ready := true }.HasSent fresh []) (meanwhile : Interlude)
    (hok : (link.begin snapshot meanwhile).1 = true) :
    (link.begin snapshot meanwhile).2.HasSent fresh (welcome snapshot link.staged) ∧
      (link.begin snapshot meanwhile).2.staged = [] ∧
      (link.begin snapshot meanwhile).2.ready = true := by
  obtain ⟨htold, hstaged, hready⟩ := h.tell rfl snapshot meanwhile.telling
  rw [Link.begin] at hok ⊢
  generalize Link.tell _ _ _ = result at htold hstaged hready hok ⊢
  obtain ⟨ok, next⟩ := result
  cases ok with
  | false => cases hok
  | true =>
    obtain ⟨l, hsent, hnumbered, hunacked, hnoted, hexchange⟩ := htold
    have hnext : { next with stagedBytes := 0 }.HasSent fresh (welcome snapshot []) :=
      ⟨l, hsent, hnumbered, hunacked, hnoted, hexchange⟩
    have hall := hnext.sendStaged hready meanwhile.sending hok
    have hsame : next.staged = link.staged := hstaged
    simpa [welcome, hsame] using hall

end Link.HasSent

end Fieldbus
