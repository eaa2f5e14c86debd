import Fieldbus.Proofs.Reassembler.Chunking
import Fieldbus.Reassembler.Stream

/-!
# One frame at a time

A `Reassembler` hands out all frames that a chunk completes; a `FrameStream` hands out one frame for
each time it is asked.  What it has not been asked for yet waits in `ready`, so that the frames
handed out, and after them the frames that wait, are always the frames found:

* `decode_spec` — what one call does: the frame handed out and the frames that wait then are the
  frames that waited before, and those that the buffer has completed.
* `decodeAll_spec` — what calls do that come one after another, gaps or not.  To the reassembler
  behind the stream only the calls matter that bring bytes (`bringing`).
* `decodeAll_idle` — asking without bringing bytes hands out what waits, in order.
* `decodeAll_delivers` — the main theorem: without a gap nothing is lost, repeated or put out of
  order, however the bytes are cut and however often the stream is asked.
-/

set_option autoImplicit false

namespace Fieldbus

/-! ## Putting a frame into a buffer -/

/-- **What is put into a buffer is the frame, or nothing.** -/
theorem TxFraming.encodeInto_eq (tx : TxFraming) (data : Bytes) (snapshot : Option Json)
    (buffer : Bytes) :
    tx.encodeInto data snapshot buffer =
      match tx.frame data snapshot with
      | .ok frame => (.ok (), buffer ++ frame)
      | .error e => (.error e, buffer) := by
  rw [encodeInto, frame]
  cases tx.checksum.compute tx.header data snapshot with
  | ok checksum => simp only [List.append_assoc]
  | error e => rfl

/-- The calls that bring bytes. -/
def bringing (calls : List (Bytes × Time)) : List (Bytes × Time) :=
  calls.filter fun call => !call.1.isEmpty

theorem bringing_append (earlier later : List (Bytes × Time)) :
    bringing (earlier ++ later) = bringing earlier ++ bringing later := List.filter_append ..

/-- Calls without bytes add nothing. -/
theorem joined_bringing (calls : List (Bytes × Time)) : joined (bringing calls) = joined calls := by
  induction calls with
  | nil => rfl
  | cons call rest ih =>
    obtain ⟨buffer, now⟩ := call
    cases buffer with
    | nil => exact ih
    | cons b buffer => exact congrArg (b :: buffer ++ ·) ih

namespace FrameStream

/-- The frames handed out in answers. -/
def returned (answers : List (Option Frame × Bytes)) : List Frame := answers.filterMap Prod.fst

variable (s : FrameStream)

/-! ## One call

A call does two things, of which either may be nothing: it takes up the bytes it is given, and hands
out the first of the frames that wait.  Without bytes the reassembler is not asked, and the time of
its last chunk stays what it was. -/

theorem takeUp_eq (buffer : Bytes) (now : Time) :
    s.takeUp buffer now =
      ([], { s with
        reassembler := (s.reassembler.feedAll (bringing [(buffer, now)])).2
        ready := s.ready ++ (s.reassembler.feedAll (bringing [(buffer, now)])).1 }) := by
  cases buffer with
  | nil =>
    show ([], s) = _
    simp [bringing]
  | cons b buffer => simp [takeUp, bringing, Reassembler.feedAll_cons]

/-- **What one call does.** -/
theorem decode_spec (buffer : Bytes) (now : Time) :
    (s.decode buffer now).1.toList ++ (s.decode buffer now).2.2.ready =
        s.ready ++ (s.reassembler.feedAll (bringing [(buffer, now)])).1 ∧
      (s.decode buffer now).2.1 = [] ∧
      (s.decode buffer now).2.2.reassembler =
        (s.reassembler.feedAll (bringing [(buffer, now)])).2 ∧
      (s.decode buffer now).2.2.tx = s.tx := by
  rw [decode, takeUp_eq]
  refine ⟨?_, rfl, rfl, rfl⟩
  cases s.ready ++ (s.reassembler.feedAll (bringing [(buffer, now)])).1 <;> rfl

/-- **No frame is handed out only if none waits.** -/
theorem ready_of_decode_eq_none {buffer : Bytes} {now : Time}
    (h : (s.decode buffer now).1 = none) : (s.decode buffer now).2.2.ready = [] := by
  have hempty : (s.takeUp buffer now).2.ready = [] := List.head?_eq_none_iff.1 h
  show (s.takeUp buffer now).2.ready.tail = []
  rw [hempty]
  rfl

/-! ## Call after call -/

theorem decodeAll_cons (buffer : Bytes) (now : Time) (rest : List (Bytes × Time)) :
    s.decodeAll ((buffer, now) :: rest) =
      (((s.decode buffer now).1, (s.decode buffer now).2.1) ::
          ((s.decode buffer now).2.2.decodeAll rest).1,
        ((s.decode buffer now).2.2.decodeAll rest).2) := rfl

theorem decodeAll_append (earlier later : List (Bytes × Time)) :
    s.decodeAll (earlier ++ later) =
      ((s.decodeAll earlier).1 ++ ((s.decodeAll earlier).2.decodeAll later).1,
        ((s.decodeAll earlier).2.decodeAll later).2) := by
  induction earlier generalizing s with
  | nil => rfl
  | cons call rest ih =>
    obtain ⟨buffer, now⟩ := call
    rw [List.cons_append, decodeAll_cons, decodeAll_cons, ih, List.cons_append]

/-- Every call is answered. -/
theorem length_decodeAll (calls : List (Bytes × Time)) :
    (s.decodeAll calls).1.length = calls.length := by
  induction calls generalizing s with
  | nil => rfl
  | cons call rest ih => rw [decodeAll_cons, List.length_cons, ih, List.length_cons]

/-- **What calls do that come one after another.** -/
theorem decodeAll_spec (calls : List (Bytes × Time)) :
    returned (s.decodeAll calls).1 ++ (s.decodeAll calls).2.ready =
        s.ready ++ (s.reassembler.feedAll (bringing calls)).1 ∧
      (∀ answer ∈ (s.decodeAll calls).1, answer.2 = []) ∧
      (s.decodeAll calls).2.reassembler = (s.reassembler.feedAll (bringing calls)).2 ∧
      (s.decodeAll calls).2.tx = s.tx := by
  induction calls generalizing s with
  | nil => exact ⟨(List.append_nil _).symm, fun _ h => (List.not_mem_nil h).elim, rfl, rfl⟩
  | cons call rest ih =>
    obtain ⟨buffer, now⟩ := call
    obtain ⟨hframes, hleft, hreassembler, htx⟩ := s.decode_spec buffer now
    obtain ⟨ihframes, ihleft, ihreassembler, ihtx⟩ := ih (s.decode buffer now).2.2
    have hcalls : bringing ((buffer, now) :: rest) = bringing [(buffer, now)] ++ bringing rest :=
      bringing_append [(buffer, now)] rest
    rw [decodeAll_cons, hcalls, Reassembler.feedAll_append, ← hreassembler]
    refine ⟨?_, ?_, ihreassembler, ihtx.trans htx⟩
    · have hreturned (frame : Option Frame) (left : Bytes) (answers) :
          returned ((frame, left) :: answers) = frame.toList ++ returned answers := by
        cases frame <;> rfl
      rw [hreturned, List.append_assoc, ihframes, ← List.append_assoc, hframes, List.append_assoc]
    · rintro answer (_ | ⟨_, hanswer⟩)
      · exact hleft
      · exact ihleft answer hanswer

/-- If the last call has got no frame, none waits. -/
theorem ready_of_getLast_eq_none {calls : List (Bytes × Time)} {left : Bytes}
    (h : (s.decodeAll calls).1.getLast? = some (none, left)) :
    (s.decodeAll calls).2.ready = [] := by
  rcases List.eq_nil_or_concat calls with rfl | ⟨earlier, call, rfl⟩
  · cases h
  · obtain ⟨buffer, now⟩ := call
    rw [List.concat_eq_append, decodeAll_append] at h ⊢
    rw [decodeAll_cons, List.getLast?_append_cons] at h
    exact ready_of_decode_eq_none _ (congrArg Prod.fst (Option.some.inj h))

/-- **Asking without bringing bytes** hands out what waits, in order, and then nothing. -/
theorem decodeAll_idle (times : List Time) :
    ((s.decodeAll (times.map ([], ·))).1.map Prod.fst,
        (s.decodeAll (times.map ([], ·))).2.ready) =
      ((List.range times.length).map (s.ready[·]?), s.ready.drop times.length) := by
  induction times generalizing s with
  | nil => rfl
  | cons now rest ih =>
    have hdecode : s.decode [] now = (s.ready.head?, [], { s with ready := s.ready.tail }) := rfl
    obtain ⟨hanswers, hready⟩ := Prod.mk.inj (ih { s with ready := s.ready.tail })
    rw [List.map_cons, decodeAll_cons, hdecode, List.map_cons, hanswers, hready, List.length_cons,
      List.range_succ_eq_map, List.map_cons, List.map_map, List.head?_eq_getElem?, List.drop_tail]
    simp only [List.getElem?_tail]
    rfl

/-- Asking often enough hands out all that waits. -/
theorem returned_decodeAll_idle {times : List Time} (h : s.ready.length ≤ times.length) :
    returned (s.decodeAll (times.map ([], ·))).1 = s.ready := by
  have hnone : bringing (times.map ([], ·)) = [] :=
    List.filter_eq_nil_iff.2 fun call hcall => by
      obtain ⟨now, -, rfl⟩ := List.mem_map.1 hcall
      simp
  have hready : (s.decodeAll (times.map ([], ·))).2.ready = [] :=
    (congrArg Prod.snd (s.decodeAll_idle times)).trans (List.drop_eq_nil_of_le h)
  have hframes := (s.decodeAll_spec (times.map ([], ·))).1
  rw [hready, hnone, Reassembler.feedAll_nil, List.append_nil, List.append_nil] at hframes
  exact hframes

/-- **The stream hands out what the reassembler finds.**  Buffers are handed over one after another,
some of them empty, and no gap lies between those that are not.  Each call is answered, and leaves
its buffer empty.  The frames handed out up to then, and after them the frames that wait, are those
that a reassembler finds in all the bytes in one piece.  When a call has got no frame, all of them
have been handed out; and asking without bringing bytes hands out the frames that wait in order, and
all of them, if it is done often enough.  A command is put at the end of a buffer within its frame,
or else the buffer remains what it was. -/
theorem decodeAll_delivers (profile : ChannelProfile) (snapshot : Option Json)
    (calls : List (Bytes × Time)) (now : Time)
    (hgap : (bringing calls).IsChain fun earlier later => profile.rx.isGap earlier later = false) :
    let stream := (ofProfile profile).setSnapshot snapshot
    let answers := (stream.decodeAll calls).1
    let after := (stream.decodeAll calls).2
    let found := ((Reassembler.fresh profile.rx snapshot).feed (joined calls) now).1
    (answers.length = calls.length ∧ ∀ answer ∈ answers, answer.2 = []) ∧
      returned answers ++ after.ready = found ∧
      (∀ left, answers.getLast? = some (none, left) → returned answers = found) ∧
      (∀ times : List Time,
        (after.decodeAll (times.map ([], ·))).1.map Prod.fst =
            (List.range times.length).map (after.ready[·]?) ∧
          (after.ready.length ≤ times.length →
            returned answers ++ returned (after.decodeAll (times.map ([], ·))).1 = found)) ∧
      ∀ data buffer, after.encodeInto data buffer =
        match profile.tx.frame data none with
        | .ok frame => (.ok (), buffer ++ frame)
        | .error e => (.error e, buffer) := by
  intro stream answers after found
  obtain ⟨hframes, hleft, -, htx⟩ := stream.decodeAll_spec calls
  have hfound : (stream.reassembler.feedAll (bringing calls)).1 = found := by
    have hone := Reassembler.feedAll_without_gap profile.rx snapshot hgap
    rw [joined_bringing] at hone
    show ((Reassembler.fresh profile.rx snapshot).feedAll (bringing calls)).1 =
      (profile.rx.extract snapshot (joined calls)).1
    rw [← hone]
  have hwhole : returned answers ++ after.ready = found := hframes.trans hfound
  refine ⟨⟨stream.length_decodeAll calls, hleft⟩, hwhole, fun left hlast => ?_, fun times => ?_,
    fun data buffer => ?_⟩
  · rw [ready_of_getLast_eq_none stream hlast, List.append_nil] at hwhole
    exact hwhole
  · refine ⟨congrArg Prod.fst (after.decodeAll_idle times), fun hlength => ?_⟩
    rw [returned_decodeAll_idle after hlength, hwhole]
  · rw [encodeInto, htx]
    exact profile.tx.encodeInto_eq data none buffer

/-- Bytes of no frame, and two frames, of which the second is complete before the first is handed
out; between them the stream is asked although nothing has come. -/
theorem decodeAll_delivers_two_frames :
    let rx : RxFraming :=
      { header := [0xF7], footer := [], checksum := .named .add, delimiter := .checksum,
        minLength := none, maxLength := none, timeout := 10, startBytes := none }
    let profile : ChannelProfile :=
      { rx, tx := { header := [0xF7], footer := [], checksum := .named .add, delay := 50 } }
    let calls : List (Bytes × Time) :=
      [([0x00, 0xF7, 0x01], 0), ([], 60_000_000), ([0xF8, 0xF7, 0x01, 0x02, 0xFA], 5_000_000),
        ([], 90_000_000)]
    let stream := (ofProfile profile).setSnapshot none
    let first := Frame.ofBytes [0xF7, 0x01, 0xF8] 1
    let second := Frame.ofBytes [0xF7, 0x01, 0x02, 0xFA] 1
    (bringing calls).IsChain (fun earlier later => profile.rx.isGap earlier later = false) ∧
      (stream.decodeAll calls).1 =
        [(none, []), (none, []), (some first, []), (some second, [])] ∧
      ((Reassembler.fresh rx none).feed (joined calls) 0).1 = [first, second] ∧
      (stream.decodeAll calls).2.encodeInto [0x01, 0x02] [0xAA] =
        (.ok (), [0xAA, 0xF7, 0x01, 0x02, 0xFA]) := by
  intro rx profile calls stream first second
  have hgap : (bringing calls).IsChain
      fun earlier later => profile.rx.isGap earlier later = false := by decide
  obtain ⟨-, hwhole, -, -, hencode⟩ := decodeAll_delivers profile none calls 0 hgap
  have hanswers : (stream.decodeAll calls).1 =
      [(none, []), (none, []), (some first, []), (some second, [])] := by decide
  have hready : (stream.decodeAll calls).2.ready = [] := by decide
  have hstream : (ofProfile profile).setSnapshot none = stream := rfl
  rw [hstream, hanswers, hready] at hwhole
  exact ⟨hgap, hanswers, hwhole.symm, hencode [0x01, 0x02] [0xAA]⟩

end FrameStream
end Fieldbus
