import Fieldbus.Proofs.Offload.Refinement

/-!
# What a worker will know

A worker hears of a snapshot by a message, so while messages are on the way it may still know an old
one.  But messages are handled in order, and a chunk that is sent now is handled after all of them.

* `Link.Hears` — what the worker will know when it has handled all that is on the way.
* `Offloaded.InTouch` — a chunk that comes now will be taken apart with the snapshot of the owner,
  whoever does it.
* `Offloaded.InTouch.collect`, `.feedAmid`, `.setSnapshot`, `.move` — whatever happens, it stays so.

In contrast to `Offloaded.Refines` nothing is asked of the snapshots here: they may change at any
time.
-/

set_option autoImplicit false

namespace Fieldbus

/-- What a worker knows after a request, if it knew this before. -/
def Request.teach (known : Option Json) : Request → Option Json
  | .chunk _ => known
  | .snapshot next => next

namespace Link

/-- The worker will know the snapshot when it has handled all requests, unless it dies before. -/
def Hears (link : Link) (snapshot : Option Json) : Prop :=
  match link.worker with
  | .starting r => link.requests.foldl Request.teach r.snapshot = snapshot
  | .running r => link.requests.foldl Request.teach r.snapshot = snapshot
  | .dead => True

/-- The worker will know the snapshot of the owner.  Until the owner sees that the worker has
started it tells it nothing, and sends no chunks either. -/
def InTouch (link : Link) (snapshot : Option Json) : Prop :=
  link.Hears (if link.ready then snapshot else none)

variable {link : Link} {snapshot : Option Json}

theorem hears_of_isDead (h : link.worker.isDead = true) (snapshot : Option Json) :
    link.Hears snapshot := by
  unfold Hears
  split
  · rename_i hworker
    rw [hworker] at h
    cases h
  · rename_i hworker
    rw [hworker] at h
    cases h
  · trivial

/-! ## The worker -/

/-- What a worker will know is settled when the messages are sent. -/
theorem Hears.move (h : link.Hears snapshot) (m : WorkerMove) : (link.move m).Hears snapshot := by
  cases m with
  | start =>
    simp only [Link.move]
    split
    · rename_i r hworker
      simp only [Hears, hworker] at h
      exact h
    · exact h
  | failToStart reason =>
    simp only [Link.move]
    split
    · trivial
    · exact h
  | handle =>
    simp only [Link.move]
    split
    · rename_i r chunk rest hworker hrequests
      simp only [Hears, hworker, hrequests] at h
      exact h
    · rename_i r next rest hworker hrequests
      simp only [Hears, hworker, hrequests] at h
      exact h
    · exact h
  | die => trivial

theorem Hears.moves (h : link.Hears snapshot) (schedule : List WorkerMove) :
    (link.moves schedule).Hears snapshot := by
  induction schedule generalizing link with
  | nil => exact h
  | cons m rest ih => exact ih (h.move m)

theorem InTouch.moves (h : link.InTouch snapshot) (schedule : List WorkerMove) :
    (link.moves schedule).InTouch snapshot := by
  rw [InTouch, ready_moves]
  exact Hears.moves h schedule

/-! ## Messages to the worker -/

theorem Hears.post (h : link.Hears snapshot) (request : Request) :
    (link.post request).2.Hears (request.teach snapshot) := by
  rw [Link.post]
  split
  · rename_i hdead
    exact hears_of_isDead hdead _
  · unfold Hears at h ⊢
    cases hworker : link.worker with
    | starting r =>
      simp only [hworker] at h ⊢
      rw [List.foldl_append, h]; rfl
    | running r =>
      simp only [hworker] at h ⊢
      rw [List.foldl_append, h]; rfl
    | dead => trivial

namespace InTouch

theorem send (h : link.InTouch snapshot) (chunk : Chunk) :
    (link.send chunk).2.InTouch snapshot := by
  have hkept : { link with unacked := link.unacked ++ [chunk] }.Hears
      (if link.ready then snapshot else none) := h
  rw [InTouch, ready_send]
  exact hkept.post (.chunk chunk)

theorem post_snapshot (h : link.InTouch snapshot) (hready : link.ready = true)
    (next : Option Json) : (link.post (.snapshot next)).2.InTouch next := by
  rw [InTouch, ready_post, if_pos hready]
  exact Hears.post h (.snapshot next)

/-- As long as the worker is told nothing, it does not matter what it would be told. -/
theorem of_not_ready (h : link.InTouch snapshot) (hready : ¬link.ready = true)
    (next : Option Json) : link.InTouch next := by
  rw [InTouch, if_neg hready] at h ⊢
  exact h

theorem sendStaged (h : link.InTouch snapshot) (meanwhile : List (List WorkerMove))
    (chunks : List Chunk) : (Link.sendStaged meanwhile chunks link).2.InTouch snapshot := by
  induction chunks generalizing link meanwhile with
  | nil => exact h
  | cons chunk rest ih =>
    have hmoves : { link.moves (meanwhile.headD []) with staged := rest }.InTouch snapshot :=
      h.moves (meanwhile.headD [])
    have hsent := hmoves.send chunk
    rw [Link.sendStaged]
    generalize Link.send _ chunk = result at hsent ⊢
    obtain ⟨ok, next⟩ := result
    cases ok with
    | false => exact hsent
    | true => exact ih hsent meanwhile.tail

theorem tell (h : link.InTouch snapshot) (meanwhile : List WorkerMove) :
    ({ link with ready := true }.tell snapshot meanwhile).2.InTouch snapshot := by
  rw [Link.tell]
  split
  · have hready : { link with ready := true }.Hears (if link.ready then snapshot else none) := h
    rw [InTouch, ready_post, ready_moves]
    exact (hready.moves meanwhile).post (.snapshot snapshot)
  · rename_i hsnapshot
    obtain rfl := Option.not_isSome_iff_eq_none.mp hsnapshot
    rwa [InTouch, ite_self] at h ⊢

/-- A worker that has just been seen to start is told the snapshot before any chunk. -/
theorem begin (h : link.InTouch snapshot) (meanwhile : Interlude) :
    (link.begin snapshot meanwhile).2.InTouch snapshot := by
  have htold := h.tell meanwhile.telling
  rw [Link.begin]
  generalize Link.tell _ _ _ = result at htold ⊢
  obtain ⟨ok, next⟩ := result
  cases ok with
  | false => exact htold
  | true =>
    have hbegun : { next with stagedBytes := 0 }.InTouch snapshot := htold
    exact hbegun.sendStaged _ _

theorem handOver (h : link.InTouch snapshot) (o : Offloaded) (bytes : Bytes) (now : Time) :
    (o.handOver link bytes now).2.InTouch snapshot := by
  simp only [Offloaded.handOver]
  split
  · have hnumbered : { link with nextSeq := link.nextSeq + 1 }.InTouch snapshot := h
    exact hnumbered.send _
  · split
    · exact h
    · exact h

/-! ## Messages from the worker -/

theorem read (h : link.InTouch snapshot) (meanwhile : Interlude) (reply : Reply) :
    (link.read snapshot meanwhile reply).2.2.InTouch snapshot := by
  cases reply with
  | ready => exact h.begin meanwhile
  | frames seq frames residual lastArrival => exact h
  | failed reason => exact h

theorem lasting : Link.Lasting snapshot fun _ _ link => link.InTouch snapshot where
  stop h := h
  move m h := h.moves [m]
  read {_ link reply rest} meanwhile h :=
    have hrest : { link with replies := rest }.InTouch snapshot := h
    hrest.read meanwhile reply

theorem readAmid (h : link.InTouch snapshot) (untilDrained : Bool) (meanwhile : List Interlude) :
    (link.readAmid snapshot untilDrained meanwhile).2.2.InTouch snapshot :=
  lasting.readAmid [] untilDrained meanwhile h

end InTouch
end Link

/-! ## Offloaded reassemblers -/

namespace Offloaded

/-- A chunk that comes now will be taken apart with the snapshot of the owner. -/
def InTouch (o : Offloaded) : Prop :=
  match o.mode with
  | .inProcess r => r.snapshot = o.snapshot
  | .worker link => link.InTouch o.snapshot

variable {o : Offloaded} {link : Link}

theorem inTouch_launch (framing : RxFraming) (config : OffloadConfig) (aided : Bool) :
    (launch framing config aided).InTouch := by
  cases aided <;> rfl

theorem snapshot_successor (o : Offloaded) (link : Link) :
    (o.successor link).snapshot = o.snapshot := by
  rw [successor]
  split <;> rfl

/-- Who falls back takes its snapshot along. -/
theorem inTouch_fallBack (o : Offloaded) (link : Link) (meanwhile : Meanwhile) :
    (o.fallBack link meanwhile).2.InTouch := by
  show ((o.successor _).feedAll _).2.snapshot = o.snapshot
  rw [Reassembler.snapshot_feedAll, snapshot_successor]

theorem InTouch.goOn (h : link.InTouch o.snapshot) (ok : Bool) (meanwhile : Meanwhile) :
    (o.goOn ok link meanwhile).2.InTouch := by
  cases ok with
  | true => exact h
  | false => exact o.inTouch_fallBack link meanwhile

theorem InTouch.collect (h : o.InTouch) (untilDrained : Bool) (meanwhile : Meanwhile) :
    (o.collect untilDrained meanwhile).2.InTouch := by
  obtain ⟨framing, bufferCap, snapshot, mode⟩ := o
  cases mode with
  | inProcess r => exact h
  | worker link =>
    exact InTouch.goOn (Link.InTouch.readAmid h untilDrained meanwhile.reading) _ meanwhile

theorem InTouch.feedAmid (h : o.InTouch) (bytes : Bytes) (now : Time) (meanwhile : Meanwhile) :
    (o.feedAmid bytes now meanwhile).2.InTouch := by
  have hpoll := h.collect false meanwhile
  rw [Offloaded.feedAmid, pollAmid]
  generalize o.collect false meanwhile = result at hpoll ⊢
  obtain ⟨frames, framing, bufferCap, snapshot, mode⟩ := result
  cases mode with
  | inProcess r => exact hpoll
  | worker link =>
    exact InTouch.goOn ((Link.InTouch.moves hpoll meanwhile.handing).handOver _ bytes now) _
      meanwhile

theorem InTouch.setSnapshot (h : o.InTouch) (snapshot : Option Json) :
    (o.setSnapshot snapshot).InTouch := by
  obtain ⟨framing, bufferCap, last, mode⟩ := o
  cases mode with
  | inProcess r => rfl
  | worker link =>
    simp only [Offloaded.setSnapshot]
    split
    · rename_i hready
      exact Link.InTouch.post_snapshot h hready snapshot
    · rename_i hready
      exact Link.InTouch.of_not_ready h hready snapshot

theorem InTouch.move (h : o.InTouch) (m : WorkerMove) : (o.move m).InTouch := by
  obtain ⟨framing, bufferCap, snapshot, mode⟩ := o
  cases mode with
  | inProcess r => exact h
  | worker link => exact Link.InTouch.moves h [m]

end Offloaded
end Fieldbus
