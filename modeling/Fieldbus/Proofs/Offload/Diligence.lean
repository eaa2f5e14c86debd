import Fieldbus.Proofs.Offload.Refinement

/-!
# A diligent worker gets done

Whoever waits for a worker gives it the time to make the steps of `Offloaded.diligence`: to start,
if it has not yet, and to handle what is on the way or will be sent to it.  Without scripts nothing
can stop it then, so in the end it has acknowledged everything, or the owner has fallen back.

* `handling_of_plain` — the steps are as many as the requests.
* `Link.begin_of_ok` — what a link looks like after the handshake.
* `Link.Suffices` — the steps that are still to come are enough; `.move` and `.read` keep it so.
* `Link.Follows.drains` — by induction on the steps: who reads until everything is acknowledged
  gets there.
* `Offloaded.Refines.finish` — the main theorem.

The owner looks for one reply before the first step and after each, and for all that are left in the
end.

## How it is proved

Two things are counted against each other: the steps that the worker has yet to make, and the
requests that it has yet to handle.  A worker that has not been met makes the count awkward, since
the requests it will be sent are not on the way yet; so they are counted as owed from the beginning
(`Link.owed`).  A step that handles a request takes one from either side, and reading replies takes
none, nor does the handshake.  When no step is left nothing is owed, and once all replies are read
the invariant of `Proofs.Offload.Reading` leaves no place where a call could be that is not
acknowledged.

A worker that has died owes nothing and gets nothing done.  Then the owner finds out, and falls
back, which is the other way for a wait to end.
-/

set_option autoImplicit false

namespace Fieldbus

/-! ## The steps of a worker without scripts -/

/-- Only scripts crash. -/
theorem Reassembler.crashesOn_of_plain {r : Reassembler} (h : r.framing.checksum.isScript = false)
    (chunk : Bytes) (now : Time) : r.crashesOn chunk now = false := by
  rw [crashesOn, RxFraming.crashes, h, Bool.false_and]

/-- Without a script every request is handled. -/
theorem handling_of_plain {r : Reassembler} (h : r.framing.checksum.isScript = false)
    (requests : List Request) :
    Offloaded.handling r requests = List.replicate requests.length .handle := by
  induction requests generalizing r with
  | nil => rfl
  | cons request rest ih =>
    cases request with
    | snapshot snapshot => exact congrArg (WorkerMove.handle :: ·) (ih h)
    | chunk chunk =>
      rw [Offloaded.handling, if_neg (by simp [Reassembler.crashesOn_of_plain h])]
      exact congrArg (WorkerMove.handle :: ·) (ih h)

/-! ## What the messages on the way tell -/

variable {rx : RxFraming} {s snapshot : Option Json} {t : Tally}

theorem Carries.calls_eq_nil {good : Option Json → Prop} {n : Nat} {calls : List (Bytes × Time)}
    (h : Carries good snapshot s n calls []) : calls = [] := by
  cases h with
  | done => rfl

theorem repliesTo_eq_nil {r : Reassembler} {n : Nat} {calls : List (Bytes × Time)} :
    repliesTo r n calls = [] ↔ calls = [] := by
  cases calls with
  | nil => exact ⟨fun _ => rfl, fun _ => rfl⟩
  | cons call rest => simp [repliesTo]

/-- All that was sent is acknowledged. -/
theorem Conversation.sent_eq_nil {ready : Bool} {r : Reassembler}
    (h : Conversation rx s snapshot t ready (.running r) [] []) : t.handled ++ t.queued = [] := by
  generalize hreplies : ([] : List Reply) = replies at h
  cases h with
  | started h => cases hreplies
  | running h =>
    rw [repliesTo_eq_nil.mp hreplies.symm, h.calls_eq_nil]
    rfl

/-- A worker that acknowledges has been met. -/
theorem Conversation.ready_of_frames {ready : Bool} {worker : Worker} {requests : List Request}
    {seq : Nat} {frames : List Frame} {residual : Bytes} {lastArrival : Option Time}
    {rest : List Reply}
    (h : Conversation rx s snapshot t ready worker requests
      (.frames seq frames residual lastArrival :: rest)) : ready = true := by
  generalize hreplies : Reply.frames seq frames residual lastArrival :: rest = replies at h
  cases h with
  | starting h => cases hreplies
  | started h => cases hreplies
  | running h => rfl
  | diedUnseen h hnone =>
    subst hreplies
    simp at hnone
  | died => rfl

/-- A worker that says that it is ready has started, and has not been met. -/
theorem Conversation.of_ready {ready : Bool} {worker : Worker} {requests : List Request}
    {rest : List Reply} (h : Conversation rx s snapshot t ready worker requests (.ready :: rest)) :
    ready = false ∧ ∀ fresh, worker ≠ .starting fresh := by
  have hnever {r : Reassembler} {n : Nat} {calls : List (Bytes × Time)} :
      Reply.ready :: rest ≠ repliesTo r n calls := by
    intro hreplies
    obtain ⟨_, _, _, -, hreply, -⟩ := exists_of_repliesTo_eq_cons hreplies.symm
    cases hreply
  generalize hreplies : Reply.ready :: rest = replies at h hnever
  cases h with
  | starting h => cases hreplies
  | started h => exact ⟨rfl, fun _ hworker => by cases hworker⟩
  | running h => exact absurd rfl hnever
  | diedUnseen h hnone => exact ⟨rfl, fun _ hworker => by cases hworker⟩
  | died => exact absurd rfl hnever

namespace Link

/-! ## The handshake with a worker that does nothing meanwhile -/

/-- What a worker is sent that has just said that it is ready. -/
def greeting (link : Link) (snapshot : Option Json) : List Request :=
  (if snapshot.isSome then [Request.snapshot snapshot] else []) ++ link.staged.map Request.chunk

theorem sendStaged_of_ok {chunks : List Chunk} {link next : Link}
    (h : sendStaged [] chunks link = (true, next)) :
    next = { link with
      staged := []
      unacked := link.unacked ++ chunks
      requests := link.requests ++ chunks.map Request.chunk } := by
  induction chunks generalizing link with
  | nil =>
    cases h
    simp
  | cons chunk rest ih =>
    rw [sendStaged] at h
    by_cases hdead : link.worker.isDead = true
    · simp [send, post, moves, hdead] at h
    · simp only [send, post, moves, List.headD_nil, List.foldl_nil, List.tail_nil, hdead] at h
      rw [ih h]
      simp

/-- The handshake that goes well: the worker is told all it is to be told. -/
theorem begin_of_ok {link next : Link} {snapshot : Option Json}
    (h : link.begin snapshot {} = (true, next)) :
    next = { link with
      ready := true
      stagedBytes := 0
      staged := []
      unacked := link.unacked ++ link.staged
      requests := link.requests ++ link.greeting snapshot } := by
  cases snapshot with
  | none => exact sendStaged_of_ok h
  | some snapshot =>
    rw [begin, tell] at h
    by_cases hdead : link.worker.isDead = true
    · simp [post, moves, hdead] at h
    · simp only [post, moves, List.foldl_nil, hdead] at h
      rw [sendStaged_of_ok h]
      simp [greeting]

/-! ## Enough steps

What the worker owes is counted in requests, those on the way and those that it will be sent as soon
as it has been seen to start.  Handling takes one of them, and the handshake moves the second kind
to the first without changing their number. -/

/-- What the worker has yet to handle: what is on the way, and what it will be sent. -/
def owed (link : Link) (snapshot : Option Json) : List Request :=
  link.requests ++ if link.ready then [] else link.greeting snapshot

/-- The worker makes these steps yet, and they are enough; a dead worker owes nothing. -/
inductive Suffices (snapshot : Option Json) (link : Link) : List WorkerMove → Prop
  | starting {fresh : Reassembler} {n : Nat} (hworker : link.worker = .starting fresh)
      (h : (link.owed snapshot).length ≤ n) :
      Suffices snapshot link (.start :: List.replicate n .handle)
  | running {r : Reassembler} {n : Nat} {ms : List WorkerMove} (hworker : link.worker = .running r)
      (hsteps : ms = List.replicate n .handle) (h : (link.owed snapshot).length ≤ n) :
      Suffices snapshot link ms
  | dead {ms : List WorkerMove} (hworker : link.worker = .dead) : Suffices snapshot link ms

/-- The owner knows of a running worker that it runs. -/
def Met (link : Link) : Prop := ∀ r, link.worker = .running r → link.ready = true

variable {link : Link} {ms : List WorkerMove} {told : List Frame} {calls : List (Bytes × Time)}

/-- After a step of the worker the others are enough. -/
theorem Suffices.move {m : WorkerMove} (h : link.Suffices snapshot (m :: ms)) (hmet : link.Met) :
    (link.move m).Suffices snapshot ms := by
  generalize hall : m :: ms = all at h
  cases h with
  | starting hworker h =>
    cases hall
    simp only [Link.move, hworker]
    exact .running rfl rfl h
  | @running r n _ hworker hsteps h =>
    subst hall
    have hready := hmet r hworker
    rw [owed, hready, if_pos rfl, List.append_nil] at h
    cases n with
    | zero => cases hsteps
    | succ n =>
      obtain ⟨rfl, rfl⟩ := List.cons.inj hsteps
      cases hrequests : link.requests with
      | nil =>
        have hmove : link.move .handle = link := by rw [Link.move, hworker, hrequests]
        rw [hmove]
        exact .running hworker rfl (by simp [owed, hready, hrequests])
      | cons request rest =>
        rw [hrequests, List.length_cons] at h
        cases request with
        | chunk chunk =>
          simp only [Link.move, hworker, hrequests]
          exact .running rfl rfl (by simp [owed, hready]; omega)
        | snapshot snapshot =>
          simp only [Link.move, hworker, hrequests]
          exact .running rfl rfl (by simp [owed, hready]; omega)
  | dead hworker =>
    refine .dead ?_
    cases m <;> simp only [Link.move, hworker]

/-- Who has read the worker's only greeting knows of it. -/
theorem Met.of_no_reply (h : Conversation rx s snapshot t link.ready link.worker link.requests []) :
    link.Met := by
  intro r hworker
  rw [hworker] at h
  generalize link.ready = ready, link.requests = requests, hreplies : ([] : List Reply) = replies
    at h ⊢
  cases h with
  | started h => cases hreplies
  | running h => rfl

/-- After a reply that does not end the reading the steps remain enough, and the owner has met the
worker. -/
theorem Suffices.read {reply : Reply} {rest : List Reply} (h : link.Suffices snapshot ms)
    (hconversation :
      Conversation rx s snapshot t link.ready link.worker link.requests (reply :: rest)) :
    let result := { link with replies := rest }.read snapshot {} reply
    result.2.1 = true → result.2.2.Suffices snapshot ms ∧ result.2.2.Met := by
  intro result hok
  cases reply with
  | failed reason => cases hok
  | frames seq found residual lastArrival =>
    have hready : link.ready = true := hconversation.ready_of_frames
    refine ⟨?_, fun _ _ => hready⟩
    cases h with
    | starting hworker h => exact .starting hworker h
    | running hworker hsteps h => exact .running hworker hsteps h
    | dead hworker => exact .dead hworker
  | ready =>
    obtain ⟨hready, hstarted⟩ := hconversation.of_ready
    have hbegin := begin_of_ok (Prod.ext hok rfl :
      { link with replies := rest }.begin snapshot {} = (true, result.2.2))
    rw [hbegin]
    refine ⟨?_, fun _ _ => rfl⟩
    cases h with
    | starting hworker h => exact absurd hworker (hstarted _)
    | running hworker hsteps h =>
      refine .running hworker hsteps ?_
      simpa [owed, hready, greeting] using h
    | dead hworker => exact .dead hworker

/-- Reading does not depend on what the worker has done before the owner looked. -/
theorem read_looking (link : Link) (snapshot : Option Json) (looking : List WorkerMove)
    (reply : Reply) :
    link.read snapshot { looking } reply = link.read snapshot {} reply := by
  cases reply <;> rfl

/-! ## Reading until everything is acknowledged

By induction on the steps that are still to come.  The owner reads what has arrived; if everything
is acknowledged it is done, and otherwise it looks again after the next step, when the steps left
are still enough.  When none is left the worker owes nothing, and the replies to all that it has
done are there to be read. -/

/-- A worker that owes nothing has acknowledged everything, once all replies are read. -/
theorem Follows.isDrained (h : { link with replies := [] }.Follows rx s snapshot told calls)
    (hsettled : link.Settled) {r : Reassembler} (hworker : link.worker = .running r)
    (howed : link.owed snapshot = []) : link.isDrained = true := by
  obtain ⟨t, -, -, h⟩ := h
  have hconversation := h.conversation
  have hready : link.ready = true := Met.of_no_reply hconversation r hworker
  rw [owed, hready, if_pos rfl, List.append_nil] at howed
  simp only [hready, hworker, howed] at hconversation
  have hunacked : link.unacked = [] := by
    rw [h.unacked, hconversation.sent_eq_nil]
    rfl
  simp [Link.isDrained, hready, hsettled hready, hunacked]

/-- Reading all that has arrived is enough when no step is needed any more. -/
theorem Follows.readReplies_drained (hscript : rx.checksum.isScript = false)
    (replies : List Reply) (h : { link with replies := replies }.Follows rx s snapshot told calls)
    (hsettled : link.Settled) (hsuffices : link.Suffices snapshot [])
    (hok : (link.readReplies snapshot true replies).2.1 = true) :
    (link.readReplies snapshot true replies).2.2.isDrained = true := by
  induction replies generalizing link told with
  | nil =>
    rw [Link.readReplies] at hok ⊢
    generalize hnone : ([] : List WorkerMove) = ms at hsuffices
    cases hsuffices with
    | starting hworker h => cases hnone
    | @running r n _ hworker hsteps howed =>
      subst hnone
      obtain rfl : n = 0 := by simpa using hsteps.symm
      exact Follows.isDrained h hsettled hworker
        (List.eq_nil_of_length_eq_zero (Nat.le_zero.mp howed))
    | dead hworker => simpa [hworker, Worker.isDead] using hok
  | cons reply rest ih =>
    rw [Link.readReplies] at hok ⊢
    by_cases hdrained : link.isDrained = true
    · simp only [hdrained, Bool.and_self, if_pos]
      exact hdrained
    · simp only [hdrained, Bool.and_false, Bool.false_eq_true, if_false] at hok ⊢
      have halike : rx.Alike snapshot s ∨ calls = [] :=
        Or.inl (RxFraming.alike_of_not_script hscript _ _)
      have hread := h.read hsettled halike {}
      have hreplies := { link with replies := rest }.replies_read snapshot reply
      obtain ⟨t, -, -, haccords⟩ := h
      have hnext := hsuffices.read haccords.conversation
      generalize Link.read _ _ _ _ = result at hread hreplies hnext hok ⊢
      obtain ⟨frames, ok, next⟩ := result
      cases ok with
      | false => cases hok
      | true =>
        have hsame : { next with replies := rest } = next := by
          rw [← show next.replies = rest from hreplies]
        exact ih (hsame ▸ hread.follows) (hread.settled rfl) (hnext rfl).1 hok

/-- Who reads until everything is acknowledged, with the worker at work as described, gets there,
unless the worker turns out to be dead. -/
def Drains (snapshot : Option Json) (link : Link) (interludes : List Interlude) : Prop :=
  (link.readAmid snapshot true interludes).2.1 = true →
    (link.readAmid snapshot true interludes).2.2.isDrained = true

/-- The owner looks for a reply once, after some steps of the worker, and goes on from there. -/
theorem Follows.drains_cons (h : link.Follows rx s snapshot told calls)
    (hscript : rx.checksum.isScript = false) (hsettled : link.Settled)
    {looking : List WorkerMove} (hsuffices : (link.moves looking).Suffices snapshot ms)
    {later : List Interlude}
    (hlater : ∀ {next : Link} {told}, next.Follows rx s snapshot told calls → next.Settled →
      next.Suffices snapshot ms → next.Met → next.Drains snapshot later) :
    link.Drains snapshot ({ looking } :: later) := by
  intro hok
  have hmoves := h.moves looking
  have hsettled' := hsettled.moves looking
  rw [Link.readAmid] at hok ⊢
  by_cases hdrained : link.isDrained = true
  · simp only [hdrained, Bool.and_self, if_pos]
  · simp only [hdrained, Bool.and_false, Bool.false_eq_true, if_false, Bool.true_and] at hok ⊢
    generalize link.moves looking = link at hmoves hsettled' hsuffices hok ⊢
    obtain ⟨t, htold, hcalls, haccords⟩ := id hmoves
    have hconversation := haccords.conversation
    cases hreplies : link.replies with
    | nil =>
      simp only [hreplies] at hconversation hok ⊢
      by_cases hdead : link.worker.isDead = true
      · simp [hdead] at hok
      · simp only [hdead, Bool.not_false, if_true] at hok ⊢
        exact hlater hmoves hsettled' hsuffices (.of_no_reply hconversation) hok
    | cons reply rest =>
      simp only [hreplies, read_looking] at hconversation hok ⊢
      have hlink : { link with replies := reply :: rest } = link := by rw [← hreplies]
      have hread := Link.Follows.read (hlink ▸ hmoves) hsettled'
        (Or.inl (RxFraming.alike_of_not_script hscript _ _)) {}
      have hnext := hsuffices.read hconversation
      generalize Link.read _ _ _ _ = result at hread hnext hok ⊢
      obtain ⟨frames, ok, next⟩ := result
      cases ok with
      | false => cases hok
      | true =>
        obtain ⟨hnext, hmet⟩ := hnext rfl
        exact hlater hread.follows (hread.settled rfl) hnext hmet hok

/-- **Reading while the worker makes enough steps gets everything acknowledged.** -/
theorem Follows.drains (looking : List WorkerMove) (h : link.Follows rx s snapshot told calls)
    (hscript : rx.checksum.isScript = false) (hsettled : link.Settled)
    (hsuffices : (link.moves looking).Suffices snapshot ms) :
    link.Drains snapshot ({ looking } :: ms.map fun m => { looking := [m] }) := by
  -- by induction on the steps; the owner looks once before each
  induction ms generalizing link looking told with
  | nil =>
    exact h.drains_cons hscript hsettled hsuffices fun hnext hsettled hsuffices _ =>
      hnext.readReplies_drained hscript _ hsettled hsuffices
  | cons m ms ih =>
    exact h.drains_cons hscript hsettled hsuffices fun hnext hsettled hsuffices hmet =>
      ih [m] hnext hsettled (hsuffices.move hmet)

end Link

/-- Whatever the worker works with, it is a reassembler of the channel. -/
theorem Conversation.framing {ready : Bool} {worker : Worker} {requests : List Request}
    {replies : List Reply} (h : Conversation rx s snapshot t ready worker requests replies)
    {r : Reassembler} (hworker : worker = .starting r ∨ worker = .running r) : r.framing = rx := by
  cases h with
  | starting h => obtain ⟨⟨⟩⟩ | ⟨⟨⟩⟩ := hworker; rfl
  | started h => obtain ⟨⟨⟩⟩ | ⟨⟨⟩⟩ := hworker; rfl
  | running h => obtain ⟨⟨⟩⟩ | ⟨⟨⟩⟩ := hworker; exact rx.framing_after s _
  | diedUnseen h hreplies => obtain ⟨⟨⟩⟩ | ⟨⟨⟩⟩ := hworker
  | died => obtain ⟨⟨⟩⟩ | ⟨⟨⟩⟩ := hworker

/-- A diligent worker makes enough steps. -/
theorem Link.Suffices.diligence {link : Link} {requests : List Request} {replies : List Reply}
    (h : Conversation rx s snapshot t link.ready link.worker requests replies)
    (hscript : rx.checksum.isScript = false) (o : Offloaded) (hmode : o.mode = .worker link) :
    link.Suffices o.snapshot o.diligence := by
  rw [Offloaded.diligence, hmode]
  dsimp only
  cases hworker : link.worker with
  | starting fresh =>
    have hplain : fresh.framing.checksum.isScript = false :=
      h.framing (Or.inl hworker) ▸ hscript
    simp only [handling_of_plain hplain]
    exact .starting hworker (Nat.le_refl _)
  | running r =>
    have hplain : r.framing.checksum.isScript = false := h.framing (Or.inr hworker) ▸ hscript
    exact .running hworker (handling_of_plain hplain _) (Nat.le_refl _)
  | dead => exact .dead hworker

/-- **Waiting for a diligent worker is enough**: in the end it has acknowledged everything, or the
owner has fallen back. -/
theorem Offloaded.Refines.finish {o : Offloaded} {told : List Frame} {calls : List (Bytes × Time)}
    (h : o.Refines rx s told calls) (hscript : rx.checksum.isScript = false) :
    o.finish.2.isDrained = true ∨ o.finish.2.isFallback = true := by
  obtain ⟨framing, bufferCap, snapshot, mode⟩ := o
  cases mode with
  | inProcess r => exact Or.inr rfl
  | worker link =>
    obtain ⟨hfollows, hsettled⟩ := h.mode
    obtain ⟨t, -, -, haccords⟩ := id hfollows
    have hdrains := hfollows.drains [] hscript hsettled
      (.diligence haccords.conversation hscript ⟨framing, bufferCap, snapshot, .worker link⟩ rfl)
    simp only [Link.Drains] at hdrains
    simp only [Offloaded.finish, Offloaded.flush, Offloaded.flushAmid, Offloaded.collect]
    generalize Link.readAmid _ _ _ _ = result at hdrains ⊢
    obtain ⟨frames, ok, next⟩ := result
    cases ok with
    | false => exact Or.inr rfl
    | true => exact Or.inl (hdrains rfl)

end Fieldbus
