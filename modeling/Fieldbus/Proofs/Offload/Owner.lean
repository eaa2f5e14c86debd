import Fieldbus.Offload.Basic
import Fieldbus.Proofs.Offload.Reading

/-!
# Falling back and handing over

The two things the owner does with a link besides reading.

* `Link.Follows.fallBack` — falling back: the frames that are still missing, all of them, and a
  reassembler in the state of one that was fed all calls.
* `Link.Follows.handOver` — a call that comes in.
-/

set_option autoImplicit false

namespace Fieldbus

variable {rx : RxFraming} {s last : Option Json} {link : Link} {t : Tally} {told : List Frame}
  {calls : List (Bytes × Time)}

/-! ## Falling back -/

/-- Whatever has been said besides, the replies on the way say what the worker has found. -/
theorem Conversation.salvage {ready : Bool} {worker : Worker} {requests : List Request}
    {replies : List Reply} (h : Conversation rx s last t ready worker requests replies)
    (link : Link) :
    link.salvage replies =
      link.salvage (repliesTo (rx.after s t.acked) t.acked.length t.handled) := by
  cases h with
  | starting h => rw [h.2.1]; rfl
  | started h => rw [h.2.1]; rfl
  | running h => rfl
  | diedUnseen h hreplies =>
    rw [h.2.1]
    rcases hreplies with rfl | rfl | ⟨reason, rfl⟩
    · rfl
    · rfl
    · rfl
  | died => rfl

/-- The successor is the reassembler that the books are about. -/
theorem Offloaded.successor_eq (o : Offloaded) {link : Link} {r : Reassembler}
    (hframing : r.framing = o.framing) (hresidual : link.residual = r.pending)
    (hresidualAt : link.residualAt = r.lastArrival) :
    o.successor link = r.setSnapshot o.snapshot := by
  obtain ⟨framing, pending, lastArrival, last⟩ := r
  obtain rfl : framing = o.framing := hframing
  rw [Offloaded.successor, hresidual, hresidualAt]
  cases lastArrival with
  | none => simp [Reassembler.seed, Reassembler.setSnapshot]
  | some time => simp [Reassembler.seedAt, Reassembler.seed, Reassembler.setSnapshot]

/-- The snapshot makes no difference to these calls. -/
theorem RxFraming.feedAll_after (rx : RxFraming) {s : Option Json} {calls : List (Bytes × Time)}
    (earlier : List (Bytes × Time)) (h : rx.Alike last s ∨ calls = []) :
    ((rx.after s earlier).setSnapshot last).feedAll calls =
      (((rx.after s earlier).feedAll calls).1,
        (rx.after s (earlier ++ calls)).setSnapshot last) := by
  rw [RxFraming.after_append]
  rcases h with h | rfl
  · exact Reassembler.feedAll_setSnapshot _ (by simpa using h) calls
  · rfl

/-- **Falling back**: the owner tells all frames that have not been told, and goes on as a
reassembler that was fed all calls. -/
theorem Link.Follows.fallBack {o : Offloaded} (h : link.Follows rx s o.snapshot told calls)
    (hframing : o.framing = rx) (halike : rx.Alike o.snapshot s ∨ calls = [])
    (meanwhile : Meanwhile) :
    told ++ (o.fallBack link meanwhile).1 = rx.framesOf s calls ∧
      (o.fallBack link meanwhile).2 =
        { o with mode := .inProcess ((rx.after s calls).setSnapshot o.snapshot) } := by
  obtain ⟨t, rfl, rfl, hmoved⟩ := h.moves meanwhile.leaving
  have hcalls : t.calls = t.acked ++ t.handled ++ (t.queued ++ t.held) := by
    simp only [Tally.calls, List.append_assoc]
  have hleft : rx.Alike o.snapshot s ∨ t.queued ++ t.held = [] :=
    halike.imp_right fun hnil => (List.append_eq_nil_iff.mp (hcalls ▸ hnil)).2
  -- the replies that have arrived settle what was handled
  have hsalvage := (hmoved.conversation.salvage (link.moves meanwhile.leaving)).trans
    (salvage_repliesTo (rx.after s t.acked) _ t.handled t.queued _ hmoved.unacked hmoved.residual
      hmoved.residualAt)
  rw [← RxFraming.after_append] at hsalvage
  -- what is outstanding is the rest
  have hrest : numbered (t.acked.length + t.handled.length) t.queued ++
      (link.moves meanwhile.leaving).staged =
        numbered (t.acked.length + t.handled.length) (t.queued ++ t.held) := by
    rw [hmoved.staged, numbered_append, Tally.sent, Nat.add_assoc]
  simp only [Offloaded.fallBack, hsalvage, Link.outstanding, hrest, map_numbered]
  rw [o.successor_eq (r := rx.after s (t.acked ++ t.handled)) (by simp [hframing]) rfl rfl,
    rx.feedAll_after _ hleft, hcalls, RxFraming.framesOf_append, RxFraming.framesOf_append]
  exact ⟨(List.append_assoc ..).symm, rfl⟩

/-! ## Handing over -/

/-- **A call that comes in is sent or kept back.** -/
theorem Link.Follows.handOver (h : link.Follows rx s last told calls) (hsettled : link.Settled)
    (hlast : rx.Alike last s) (o : Offloaded) (bytes : Bytes) (now : Time) :
    (o.handOver link bytes now).2.Follows rx s last told (calls ++ [(bytes, now)]) ∧
      ((o.handOver link bytes now).1 = true → (o.handOver link bytes now).2.Settled) := by
  obtain ⟨t, rfl, rfl, h⟩ := h
  simp only [Offloaded.handOver]
  split
  · rename_i hready
    have hstaged : link.staged = [] := hsettled hready
    have hheld : t.held = [] := numbered_eq_nil.mp (h.staged.symm.trans hstaged)
    have hcalls : { t with queued := t.queued ++ [(bytes, now)] }.calls =
        t.calls ++ [(bytes, now)] := by
      simp only [Tally.calls, hheld, List.append_assoc, List.append_nil]
    refine ⟨⟨{ t with queued := t.queued ++ [(bytes, now)] }, rfl, hcalls, ?_⟩, fun _ _ => ?_⟩
    · exact h.sendNow hready hlast hheld bytes now
    · rw [Link.staged_send]
      exact hstaged
  · rename_i hready
    have hcalls : { t with held := t.held ++ [(bytes, now)] }.calls =
        t.calls ++ [(bytes, now)] := by
      simp only [Tally.calls, List.append_assoc]
    have hstage := h.stage bytes now
    split
    · exact ⟨⟨{ t with held := t.held ++ [(bytes, now)] }, rfl, hcalls, hstage⟩,
        fun hok => by cases hok⟩
    · exact ⟨⟨{ t with held := t.held ++ [(bytes, now)] }, rfl, hcalls, hstage.of_stagedBytes _⟩,
        fun _ hnow => absurd hnow hready⟩

end Fieldbus
