import Fieldbus.Proofs.Offload.Invariant

/-!
# Reading replies

What the owner learns from the worker.  `Link.Follows` says of a link which calls have come in and
that the frames told so far are those of the calls acknowledged; where the other calls are does not
matter any more.

* `Link.Follows.sendStaged` — sending what was kept back, with the worker at work in between.
* `Link.Follows.begin` — the handshake with a worker that has started.
* `Link.Follows.read` — one reply keeps `Follows`, with the frames read added to those told.
* `Link.Lasting` — whatever the steps of the worker and single replies keep, reading keeps
  (`.readAmid`), and so it keeps `Follows` (`Link.Follows.readAmid`).
-/

set_option autoImplicit false

namespace Fieldbus

variable {rx : RxFraming} {s last snapshot : Option Json} {link : Link} {t : Tally}
  {told : List Frame} {calls : List (Bytes × Time)}

/-! ## What has been told -/

/-- These calls have come in, and these frames have been told, which are those of the calls
acknowledged. -/
def Link.Follows (rx : RxFraming) (s last : Option Json) (link : Link) (told : List Frame)
    (calls : List (Bytes × Time)) : Prop :=
  ∃ t : Tally, rx.framesOf s t.acked = told ∧ t.calls = calls ∧ link.Accords rx s last t

/-- Nothing is kept back from a worker that is ready. -/
def Link.Settled (link : Link) : Prop := link.ready = true → link.staged = []

/-- What reading has come to: these frames have been told as well, and the link is settled if the
worker can be relied on further. -/
structure Link.Outcome (rx : RxFraming) (s last : Option Json) (told : List Frame)
    (calls : List (Bytes × Time)) (result : List Frame × Bool × Link) : Prop where
  follows : result.2.2.Follows rx s last (told ++ result.1) calls
  settled : result.2.1 = true → result.2.2.Settled

/-- Nothing more has been told. -/
theorem Link.Outcome.nothing {ok : Bool} (h : link.Follows rx s last told calls)
    (hsettled : ok = true → link.Settled) : Link.Outcome rx s last told calls ([], ok, link) where
  follows := by
    show link.Follows rx s last (told ++ []) calls
    rwa [List.append_nil]
  settled := hsettled

theorem Link.Follows.moves (h : link.Follows rx s last told calls) (schedule : List WorkerMove) :
    (link.moves schedule).Follows rx s last told calls := by
  obtain ⟨t, rfl, rfl, h⟩ := h
  obtain ⟨t', hadvances, h'⟩ := h.moves schedule
  exact ⟨t', by rw [hadvances.acked], hadvances.calls, h'⟩

theorem Link.Settled.moves (h : link.Settled) (schedule : List WorkerMove) :
    (link.moves schedule).Settled := by
  intro hready
  rw [staged_moves]
  exact h (by rwa [ready_moves] at hready)

/-! ## The handshake

A worker that has just been seen to start is sent the snapshot and then all calls that were kept
back, one message at a time, and it may die at any of them.  The owner stops there.  What was sent
is then lost, what was not sent is still kept back, and the tally has both. -/

@[simp] theorem Link.ready_post (link : Link) (request : Request) :
    (link.post request).2.ready = link.ready := by
  rw [post]; split <;> rfl

@[simp] theorem Link.ready_send (link : Link) (chunk : Chunk) :
    (link.send chunk).2.ready = link.ready := by
  rw [send, ready_post]

@[simp] theorem Link.staged_post (link : Link) (request : Request) :
    (link.post request).2.staged = link.staged := by
  rw [post]; split <;> rfl

@[simp] theorem Link.staged_send (link : Link) (chunk : Chunk) :
    (link.send chunk).2.staged = link.staged := by
  rw [send, staged_post]

/-- No call is kept back when none has come in. -/
theorem Tally.held_eq_nil (h : t.calls = []) : t.held = [] :=
  (List.append_eq_nil_iff.mp h).2

/-- **Sending what was kept back tells nothing and loses nothing**, wherever it stops. -/
theorem Link.Accords.sendStaged (h : link.Accords rx s last t) (hready : link.ready = true)
    (halike : rx.Alike last s ∨ t.held = []) (meanwhile : List (List WorkerMove)) :
    (Link.sendStaged meanwhile link.staged link).2.Follows rx s last (rx.framesOf s t.acked)
        t.calls ∧
      ((Link.sendStaged meanwhile link.staged link).1 = true →
        (Link.sendStaged meanwhile link.staged link).2.staged = []) := by
  -- by induction on what is kept back; the invariant holds after each chunk, sent or lost
  obtain ⟨held, hheld⟩ : ∃ held, t.held = held := ⟨_, rfl⟩
  induction held generalizing link t meanwhile with
  | nil =>
    have hstaged : link.staged = [] := by rw [h.staged, hheld]; rfl
    have hlink : { link with staged := [] } = link := by rw [← hstaged]
    rw [hstaged, Link.sendStaged, hlink]
    exact ⟨⟨t, rfl, rfl, h⟩, fun _ => hstaged⟩
  | cons call rest ih =>
    obtain ⟨bytes, time⟩ := call
    have hlast : rx.Alike last s := by
      rcases halike with hlast | hnil
      · exact hlast
      · rw [hheld] at hnil; cases hnil
    have hstaged : link.staged = ⟨t.sent, bytes, time⟩ :: numbered (t.sent + 1) rest := by
      rw [h.staged, hheld, numbered]
    obtain ⟨t', hadvances, h'⟩ := h.moves (meanwhile.headD [])
    have hsent := h'.send (by rwa [ready_moves]) hlast (hadvances.held.trans hheld)
    rw [hadvances.sent_eq] at hsent
    rw [hstaged, Link.sendStaged]
    have hstaged' := staged_send
      { link.moves (meanwhile.headD []) with staged := numbered (t.sent + 1) rest }
      ⟨t.sent, bytes, time⟩
    have hready' := ready_send
      { link.moves (meanwhile.headD []) with staged := numbered (t.sent + 1) rest }
      ⟨t.sent, bytes, time⟩
    have hcalls := (Tally.calls_of_held (hadvances.held.trans hheld)).trans hadvances.calls
    generalize Link.send _ _ = result at hsent hstaged' hready' ⊢
    obtain ⟨ok, next⟩ := result
    rw [← hadvances.acked, ← hcalls]
    cases ok with
    | false =>
      exact ⟨⟨{ t' with queued := t'.queued ++ [(bytes, time)], held := rest }, rfl, rfl, hsent⟩,
        fun hok => by cases hok⟩
    | true =>
      have hrest := ih hsent (by rw [hready', ← hready]; exact ready_moves link _) (Or.inl hlast)
        meanwhile.tail rfl
      rw [hstaged'] at hrest
      exact hrest

theorem Link.Follows.tell (h : link.Follows rx s none told calls) (hready : link.ready = true)
    (snapshot : Option Json) (meanwhile : List WorkerMove) :
    (link.tell snapshot meanwhile).2.Follows rx s snapshot told calls := by
  rw [Link.tell]
  split
  · obtain ⟨t, htold, hcalls, h'⟩ := h.moves meanwhile
    exact ⟨t, htold, hcalls, h'.post_snapshot (by rwa [ready_moves]) snapshot⟩
  · rename_i hsnapshot
    rw [Option.not_isSome_iff_eq_none.mp hsnapshot]
    exact h

theorem Link.ready_tell (link : Link) (snapshot : Option Json) (meanwhile : List WorkerMove) :
    (link.tell snapshot meanwhile).2.ready = link.ready := by
  rw [tell]
  split
  · rw [ready_post, ready_moves]
  · rfl

/-- **The handshake keeps the invariant**, at whatever message the worker dies. -/
theorem Link.Follows.begin (link : Link)
    (h : { link with ready := true }.Follows rx s none told calls)
    (halike : rx.Alike snapshot s ∨ calls = []) (meanwhile : Interlude) :
    (link.begin snapshot meanwhile).2.Follows rx s snapshot told calls ∧
      ((link.begin snapshot meanwhile).1 = true →
        (link.begin snapshot meanwhile).2.staged = []) := by
  have htold := h.tell rfl snapshot meanwhile.telling
  have hready := { link with ready := true }.ready_tell snapshot meanwhile.telling
  rw [Link.begin]
  generalize Link.tell _ _ _ = result at htold hready ⊢
  obtain ⟨ok, next⟩ := result
  cases ok with
  | false => exact ⟨htold, fun hok => by cases hok⟩
  | true =>
    obtain ⟨t, rfl, rfl, hnext⟩ := htold
    exact (hnext.of_stagedBytes 0).sendStaged hready (halike.imp_right Tally.held_eq_nil)
      meanwhile.sending

/-! ## One reply -/

/-- What the next reply can be, and what the conversation is when it has been read. -/
theorem Conversation.reply {ready : Bool} {worker : Worker} {requests : List Request}
    {reply : Reply} {rest : List Reply}
    (h : Conversation rx s last t ready worker requests (reply :: rest)) :
    (reply = .ready ∧ Conversation rx s none t true worker requests rest) ∨
    (∃ reason, reply = .failed reason ∧ Conversation rx s last t ready worker requests rest) ∨
    ∃ bytes time more, t.handled = (bytes, time) :: more ∧
      reply = .frames t.acked.length ((rx.after s t.acked).feed bytes time).1
        ((rx.after s t.acked).feed bytes time).2.pending (some time) ∧
      Conversation rx s last { t with acked := t.acked ++ [(bytes, time)], handled := more } ready
        worker requests rest := by
  generalize hreplies : reply :: rest = replies at h
  obtain ⟨acked, handled, queued, held⟩ := t
  cases h with
  | starting h => cases hreplies
  | started h =>
    obtain ⟨rfl, rfl, rfl⟩ : acked = [] ∧ handled = [] ∧ queued = [] := h
    cases hreplies
    exact Or.inl ⟨rfl, .running .done⟩
  | diedUnseen h hnone =>
    rcases hnone with rfl | rfl | ⟨reason, rfl⟩
    · cases hreplies
    · obtain ⟨rfl, rfl, rfl⟩ : acked = [] ∧ handled = [] ∧ queued = [] := h
      cases hreplies
      exact Or.inl ⟨rfl, .died⟩
    · cases hreplies
      exact Or.inr (Or.inl ⟨reason, rfl, .diedUnseen h (Or.inl rfl)⟩)
  | @running now _ h =>
    obtain ⟨bytes, time, more, hhandled, hreply, hrest⟩ := exists_of_repliesTo_eq_cons hreplies.symm
    refine Or.inr (Or.inr ⟨bytes, time, more, hhandled, hreply, ?_⟩)
    obtain rfl : handled = (bytes, time) :: more := hhandled
    have hnext : Conversation rx s last ⟨acked ++ [(bytes, time)], more, queued, held⟩ true _ _ _ :=
      .running (by simpa [Nat.add_assoc, Nat.add_comm 1] using h)
    rw [List.append_assoc, RxFraming.after_snoc, List.length_append] at hnext
    rw [hrest]
    exact hnext
  | died =>
    obtain ⟨bytes, time, more, hhandled, hreply, hrest⟩ := exists_of_repliesTo_eq_cons hreplies.symm
    refine Or.inr (Or.inr ⟨bytes, time, more, hhandled, hreply, ?_⟩)
    have hnext : Conversation rx s last ⟨acked ++ [(bytes, time)], more, queued, held⟩ true _ _ _ :=
      .died
    rw [RxFraming.after_snoc, List.length_append] at hnext
    rw [hrest]
    exact hnext

/-- The first call that is not acknowledged is. -/
theorem Link.Accords.acknowledge {bytes : Bytes} {time : Time} {more : List (Bytes × Time)}
    {replies : List Reply} (h : link.Accords rx s last t)
    (hhandled : t.handled = (bytes, time) :: more)
    (hconversation : Conversation rx s last
      { t with acked := t.acked ++ [(bytes, time)], handled := more } link.ready link.worker
      link.requests replies) :
    (Link.acknowledge { link with replies := replies } t.acked.length
      ((rx.after s t.acked).feed bytes time).2.pending (some time)).Accords rx s last
        { t with acked := t.acked ++ [(bytes, time)], handled := more } where
  nextSeq := by
    show link.nextSeq = _
    rw [h.nextSeq, Tally.calls, Tally.calls, hhandled]
    simp
  unacked := by
    show link.unacked.dropWhile _ = _
    rw [h.unacked, hhandled, List.cons_append, dropWhile_numbered, List.length_append]
    rfl
  staged := by
    show link.staged = _
    rw [h.staged, Tally.sent, Tally.sent, hhandled]
    simp [Nat.add_assoc, Nat.add_comm 1]
  residual := by rw [RxFraming.after_snoc]; rfl
  residualAt := by rw [RxFraming.after_snoc]; rfl
  conversation := hconversation

/-- **Reading a reply tells the frames of the call it acknowledges.** -/
theorem Link.Follows.read {reply : Reply} {rest : List Reply}
    (h : { link with replies := reply :: rest }.Follows rx s snapshot told calls)
    (hsettled : link.Settled) (halike : rx.Alike snapshot s ∨ calls = []) (meanwhile : Interlude) :
    Link.Outcome rx s snapshot told calls
      ({ link with replies := rest }.read snapshot meanwhile reply) := by
  obtain ⟨t, rfl, rfl, h⟩ := h
  rcases h.conversation.reply with
    ⟨rfl, hseen⟩ | ⟨reason, rfl, hfailed⟩ | ⟨bytes, time, more, hhandled, rfl, hnext⟩
  · have hbegin := Link.Follows.begin { link with replies := rest }
      ⟨t, rfl, rfl, h.of_conversation (.refl t) hseen⟩ halike meanwhile
    exact .nothing hbegin.1 fun hok _ => hbegin.2 hok
  · exact .nothing ⟨t, rfl, rfl, h.of_conversation (.refl t) hfailed⟩ fun hok => by cases hok
  · refine ⟨⟨_, RxFraming.framesOf_snoc .., ?_, h.acknowledge hhandled hnext⟩, fun _ => hsettled⟩
    simp [Tally.calls, hhandled]

/-! ## Many replies

How the owner reads is a recursion on the replies that have arrived and on how often it looks.  It
is the same for everything that one wants to know of the link, so it is gone through once, for any
statement that lasts through single steps (`Link.Lasting`). -/

@[simp] theorem Link.replies_post (link : Link) (request : Request) :
    (link.post request).2.replies = link.replies := by
  rw [post]; split <;> rfl

theorem Link.replies_sendStaged (chunks : List Chunk) (link : Link) :
    (sendStaged [] chunks link).2.replies = link.replies := by
  induction chunks generalizing link with
  | nil => rfl
  | cons chunk rest ih =>
    have hsend := replies_post
      { link with staged := rest, unacked := link.unacked ++ [chunk] } (.chunk chunk)
    rw [sendStaged]
    generalize hresult : Link.send _ _ = result
    replace hsend : result.2.replies = link.replies := hresult ▸ hsend
    obtain ⟨ok, next⟩ := result
    cases ok with
    | false => exact hsend
    | true => exact (ih next).trans hsend

/-- A worker that does nothing meanwhile says nothing meanwhile. -/
theorem Link.replies_read (link : Link) (snapshot : Option Json) (reply : Reply) :
    (link.read snapshot {} reply).2.2.replies = link.replies := by
  cases reply with
  | frames seq frames residual lastArrival => rfl
  | failed reason => rfl
  | ready =>
    have htell : ({ link with ready := true }.tell snapshot []).2.replies = link.replies := by
      rw [tell]
      split
      · exact replies_post _ _
      · rfl
    show (link.begin snapshot {}).2.replies = link.replies
    rw [begin]
    generalize Link.tell _ _ _ = result at htell ⊢
    obtain ⟨ok, next⟩ := result
    cases ok with
    | false => exact htell
    | true => exact (replies_sendStaged _ _).trans htell

/-- What lasts while replies are read.  `P told ok link` is to say what holds when these frames have
been told, and `ok` whether the worker can be relied on further. -/
structure Link.Lasting (snapshot : Option Json) (P : List Frame → Bool → Link → Prop) : Prop where
  /-- It lasts when the owner stops relying on the worker. -/
  stop : ∀ {told : List Frame} {link : Link}, P told true link → P told false link
  /-- It lasts whatever the worker does. -/
  move : ∀ {told : List Frame} {link : Link} (m : WorkerMove),
    P told true link → P told true (link.move m)
  /-- It lasts when a reply is read. -/
  read : ∀ {told : List Frame} {link : Link} {reply : Reply} {rest : List Reply}
    (meanwhile : Interlude), P told true { link with replies := reply :: rest } →
      P (told ++ ({ link with replies := rest }.read snapshot meanwhile reply).1)
        ({ link with replies := rest }.read snapshot meanwhile reply).2.1
        ({ link with replies := rest }.read snapshot meanwhile reply).2.2

namespace Link.Lasting

variable {P : List Frame → Bool → Link → Prop}

theorem nothing (h : Lasting snapshot P) (hlink : P told true link) (ok : Bool) :
    P (told ++ []) ok link := by
  rw [List.append_nil]
  cases ok with
  | true => exact hlink
  | false => exact h.stop hlink

theorem moves (h : Lasting snapshot P) (hlink : P told true link) (schedule : List WorkerMove) :
    P told true (link.moves schedule) := by
  induction schedule generalizing link with
  | nil => exact hlink
  | cons m rest ih => exact ih (h.move m hlink)

/-- It lasts while all replies are read that have arrived. -/
theorem readReplies (h : Lasting snapshot P) (untilDrained : Bool) (replies : List Reply)
    (hlink : P told true { link with replies := replies }) :
    P (told ++ (link.readReplies snapshot untilDrained replies).1)
      (link.readReplies snapshot untilDrained replies).2.1
      (link.readReplies snapshot untilDrained replies).2.2 := by
  induction replies generalizing link told with
  | nil => exact h.nothing hlink _
  | cons reply rest ih =>
    rw [Link.readReplies]
    split
    · exact h.nothing hlink _
    · have hread := h.read {} hlink
      have hreplies := { link with replies := rest }.replies_read snapshot reply
      generalize Link.read _ _ _ _ = result at hread hreplies ⊢
      obtain ⟨frames, ok, next⟩ := result
      cases ok with
      | false => exact hread
      | true =>
        have hnext : { next with replies := rest } = next := by
          rw [← show next.replies = rest from hreplies]
        simp only [← List.append_assoc]
        exact ih (hnext ▸ hread)

/-- **It lasts while replies are read**, however much the worker does meanwhile. -/
theorem readAmid (h : Lasting snapshot P) (told : List Frame) (untilDrained : Bool)
    (interludes : List Interlude) (hlink : P told true link) :
    P (told ++ (link.readAmid snapshot untilDrained interludes).1)
      (link.readAmid snapshot untilDrained interludes).2.1
      (link.readAmid snapshot untilDrained interludes).2.2 := by
  induction interludes generalizing link told with
  | nil => exact h.readReplies untilDrained link.replies hlink
  | cons meanwhile later ih =>
    have hmoves := h.moves hlink meanwhile.looking
    rw [Link.readAmid]
    split
    · exact h.nothing hlink _
    · simp only
      split
      · split
        · exact ih told hmoves
        · exact h.nothing hmoves _
      · rename_i reply rest hreplies
        have hsame : { link.moves meanwhile.looking with replies := reply :: rest } =
            link.moves meanwhile.looking := by rw [← hreplies]
        have hread := h.read meanwhile (hsame ▸ hmoves)
        generalize Link.read _ _ _ _ = result at hread ⊢
        obtain ⟨frames, ok, next⟩ := result
        cases ok with
        | false => exact hread
        | true =>
          simp only [← List.append_assoc]
          exact ih _ hread

end Link.Lasting

/-- A link that is followed, and settled if the worker can be relied on, stays so. -/
theorem Link.Follows.lasting (halike : rx.Alike snapshot s ∨ calls = []) :
    Link.Lasting snapshot fun told ok link =>
      link.Follows rx s snapshot told calls ∧ (ok = true → link.Settled) where
  stop h := ⟨h.1, fun hok => by cases hok⟩
  move m h := ⟨h.1.moves [m], fun _ => (h.2 rfl).moves [m]⟩
  read meanwhile h :=
    have hread := Link.Follows.read h.1 (h.2 rfl) halike meanwhile
    ⟨hread.follows, hread.settled⟩

/-- **Reading keeps the invariant**, however much the worker does meanwhile. -/
theorem Link.Follows.readAmid (h : link.Follows rx s snapshot told calls) (hsettled : link.Settled)
    (halike : rx.Alike snapshot s ∨ calls = []) (untilDrained : Bool)
    (interludes : List Interlude) :
    Link.Outcome rx s snapshot told calls (link.readAmid snapshot untilDrained interludes) :=
  have hread := (lasting halike).readAmid told untilDrained interludes ⟨h, fun _ => hsettled⟩
  ⟨hread.1, hread.2⟩

end Fieldbus
