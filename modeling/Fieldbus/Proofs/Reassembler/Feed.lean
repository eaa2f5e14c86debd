import Fieldbus.Proofs.Reassembler.Plain
import Fieldbus.Reassembler.Basic

/-!
# Feeding a reassembler

What one chunk does to a reassembler (`feed_fst`, `pending_feed`), and what chunks do that come one
after another (`feedAll_append`).

Two snapshots are `Alike` for a channel when nothing that comes in is taken apart differently with
one than with the other.  Any two are, unless the checksum is a script (`alike_of_not_script`), and
a reassembler does not notice when one of them is put in the place of the other
(`feed_setSnapshot`).
-/

set_option autoImplicit false

namespace Fieldbus
namespace Reassembler

/-- The reassembler of a channel before anything has come. -/
def fresh (rx : RxFraming) (snapshot : Option Json) : Reassembler := { framing := rx, snapshot }

@[simp] theorem fresh_framing (rx : RxFraming) (snapshot : Option Json) :
    (fresh rx snapshot).framing = rx := rfl

@[simp] theorem kept_fresh (rx : RxFraming) (snapshot : Option Json) (now : Time) :
    (fresh rx snapshot).kept now = [] := rfl

/-! ## One chunk -/

theorem feed_fst (r : Reassembler) (chunk : Bytes) (now : Time) :
    (r.feed chunk now).1 = (r.framing.extract r.snapshot (r.kept now ++ chunk)).1 := rfl

theorem pending_feed (r : Reassembler) (chunk : Bytes) (now : Time) :
    (r.feed chunk now).2.pending = (r.framing.extract r.snapshot (r.kept now ++ chunk)).2 := rfl

@[simp] theorem framing_feed (r : Reassembler) (chunk : Bytes) (now : Time) :
    (r.feed chunk now).2.framing = r.framing := rfl

@[simp] theorem snapshot_feed (r : Reassembler) (chunk : Bytes) (now : Time) :
    (r.feed chunk now).2.snapshot = r.snapshot := rfl

theorem kept_of_not_stale {r : Reassembler} {now : Time} (h : r.isStale now = false) :
    r.kept now = r.pending := by
  rw [kept, h]; rfl

theorem kept_of_stale {r : Reassembler} {now : Time} (h : r.isStale now = true) :
    r.kept now = [] := by
  rw [kept, h]; rfl

/-! ## Chunks one after another -/

@[simp] theorem feedAll_nil (r : Reassembler) : r.feedAll [] = ([], r) := rfl

theorem feedAll_cons (r : Reassembler) (chunk : Bytes) (now : Time) (rest : List (Bytes × Time)) :
    r.feedAll ((chunk, now) :: rest) =
      ((r.feed chunk now).1 ++ ((r.feed chunk now).2.feedAll rest).1,
        ((r.feed chunk now).2.feedAll rest).2) := rfl

/-- Chunks that come later are taken up where the earlier ones left off. -/
theorem feedAll_append (r : Reassembler) (earlier later : List (Bytes × Time)) :
    r.feedAll (earlier ++ later) =
      ((r.feedAll earlier).1 ++ ((r.feedAll earlier).2.feedAll later).1,
        ((r.feedAll earlier).2.feedAll later).2) := by
  induction earlier generalizing r with
  | nil => rfl
  | cons call rest ih =>
    obtain ⟨chunk, now⟩ := call
    rw [List.cons_append, feedAll_cons, feedAll_cons, ih, List.append_assoc]

@[simp] theorem framing_feedAll (r : Reassembler) (calls : List (Bytes × Time)) :
    (r.feedAll calls).2.framing = r.framing := by
  induction calls generalizing r with
  | nil => rfl
  | cons call rest ih => rw [feedAll_cons, ih, framing_feed]

@[simp] theorem snapshot_feedAll (r : Reassembler) (calls : List (Bytes × Time)) :
    (r.feedAll calls).2.snapshot = r.snapshot := by
  induction calls generalizing r with
  | nil => rfl
  | cons call rest ih => rw [feedAll_cons, ih, snapshot_feed]

end Reassembler

/-- The frames that a reassembler of the channel finds in the calls, with the given snapshot. -/
def RxFraming.framesOf (rx : RxFraming) (s : Option Json) (calls : List (Bytes × Time)) :
    List Frame :=
  ((Reassembler.fresh rx s).feedAll calls).1

/-- That reassembler after the calls. -/
def RxFraming.after (rx : RxFraming) (s : Option Json) (calls : List (Bytes × Time)) :
    Reassembler :=
  ((Reassembler.fresh rx s).feedAll calls).2

namespace RxFraming

theorem framesOf_append (rx : RxFraming) (s : Option Json) (earlier later : List (Bytes × Time)) :
    rx.framesOf s (earlier ++ later) =
      rx.framesOf s earlier ++ ((rx.after s earlier).feedAll later).1 := by
  rw [framesOf, Reassembler.feedAll_append]
  rfl

theorem after_append (rx : RxFraming) (s : Option Json) (earlier later : List (Bytes × Time)) :
    rx.after s (earlier ++ later) = ((rx.after s earlier).feedAll later).2 := by
  rw [after, Reassembler.feedAll_append]
  rfl

theorem framesOf_snoc (rx : RxFraming) (s : Option Json) (calls : List (Bytes × Time))
    (chunk : Bytes) (now : Time) :
    rx.framesOf s (calls ++ [(chunk, now)]) =
      rx.framesOf s calls ++ ((rx.after s calls).feed chunk now).1 := by
  rw [framesOf_append, Reassembler.feedAll_cons, Reassembler.feedAll_nil, List.append_nil]

theorem after_snoc (rx : RxFraming) (s : Option Json) (calls : List (Bytes × Time))
    (chunk : Bytes) (now : Time) :
    rx.after s (calls ++ [(chunk, now)]) = ((rx.after s calls).feed chunk now).2 := by
  rw [after_append, Reassembler.feedAll_cons, Reassembler.feedAll_nil]

@[simp] theorem framing_after (rx : RxFraming) (s : Option Json) (calls : List (Bytes × Time)) :
    (rx.after s calls).framing = rx := Reassembler.framing_feedAll _ calls

@[simp] theorem snapshot_after (rx : RxFraming) (s : Option Json) (calls : List (Bytes × Time)) :
    (rx.after s calls).snapshot = s := Reassembler.snapshot_feedAll _ calls

end RxFraming

/-! ## Snapshots that make no difference -/

/-- Whatever is buffered, the same becomes of it with either snapshot. -/
def RxFraming.Alike (rx : RxFraming) (s t : Option Json) : Prop :=
  ∀ buffer : Bytes, rx.extract s buffer = rx.extract t buffer

theorem RxFraming.Alike.refl (rx : RxFraming) (s : Option Json) : rx.Alike s s := fun _ => rfl

/-- Only scripts look at the snapshot. -/
theorem RxFraming.alike_of_not_script {rx : RxFraming} (h : rx.checksum.isScript = false)
    (s t : Option Json) : rx.Alike s t := by
  have hverify : rx.verifies s = rx.verifies t := by
    funext candidate
    cases hc : rx.checksum with
    | named a => simp only [verifies, hc, Checksum.verify, Checksum.compute]
    | script expression width evaluate => rw [hc] at h; cases h
  have hstep : rx.plainStep s = rx.plainStep t := by
    funext buffer
    simp only [plainStep, plainEnd, shortestFrame?, hverify]
  intro buffer
  rw [extract_eq_scanWith, extract_eq_scanWith, hstep]

namespace Reassembler

/-- A reassembler that is told something else, but nothing that matters, goes on as before. -/
theorem feed_setSnapshot (r : Reassembler) {s : Option Json} (h : r.framing.Alike s r.snapshot)
    (chunk : Bytes) (now : Time) :
    (r.setSnapshot s).feed chunk now =
      ((r.feed chunk now).1, (r.feed chunk now).2.setSnapshot s) := by
  have hextract := h (r.kept now ++ chunk)
  show ((r.framing.extract s (r.kept now ++ chunk)).1,
    { r.setSnapshot s with
      pending := (r.framing.extract s (r.kept now ++ chunk)).2, lastArrival := some now }) = _
  rw [hextract]
  rfl

theorem feedAll_setSnapshot (r : Reassembler) {s : Option Json} (h : r.framing.Alike s r.snapshot)
    (calls : List (Bytes × Time)) :
    (r.setSnapshot s).feedAll calls = ((r.feedAll calls).1, (r.feedAll calls).2.setSnapshot s) := by
  induction calls generalizing r with
  | nil => rfl
  | cons call rest ih =>
    obtain ⟨chunk, now⟩ := call
    simp only [feedAll_cons, feed_setSnapshot r h, ih (r.feed chunk now).2 h]

end Reassembler
end Fieldbus
