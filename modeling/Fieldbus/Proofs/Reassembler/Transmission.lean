import Fieldbus.Proofs.Channel.Resolve
import Fieldbus.Proofs.Reassembler.Chunking

/-!
# What is sent is received

Where both sides of a channel wrap frames alike, a reassembler undoes what `TxFraming.frame` does:
`feedAll_session`.  The commands may have noise around them, as long as no byte of the noise may
begin a frame, and they may arrive in chunks of any size.

A frame does not say how long it is, so not every command can be told from the bytes around it;
`ChannelProfile.Legible` says which can.  On the way to the theorem:

* `verifies_frame` — the bytes of a command verify: the two sides agree on where the checksum stands
  and on what it is.
* `plainStep_wire` — a legible command at the head of a buffer is emitted, whatever comes behind it.
* `extract_noise`, `extract_wire`, `extract_session` — noise is passed over, and a session is taken
  apart command by command.
-/

set_option autoImplicit false

namespace Fieldbus

/-! ## Sessions

What is asked of a command is what the receiving side will look at: that its length is admitted,
that it is accepted where a frame may begin, and that no shorter part of it passes for a frame.  The
last cannot be seen from the framing alone, as data may look like anything. -/

/-- A command on the wire. -/
structure Transmission where
  data : Bytes
  /-- The bytes that are sent: the data, wrapped. -/
  wire : Bytes
  /-- The bytes behind it that belong to no command. -/
  noise : Bytes

/-- What is received of some commands when there is noise in front of them. -/
def session (lead : Bytes) (sent : List Transmission) : Bytes :=
  lead ++ sent.flatMap fun t => t.wire ++ t.noise

/-- No frame may begin with any of the bytes. -/
def RxFraming.IsNoise (rx : RxFraming) (bytes : Bytes) : Prop :=
  ∀ b ∈ bytes, rx.isStartByte b = false

/-- A frame of these bytes ends where they end: they have the fixed length, or a length that is
admitted and no part of them looks like a shorter frame. -/
def RxFraming.EndsRightly (rx : RxFraming) (snapshot : Option Json) (data wire : Bytes) : Prop :=
  match rx.delimiter with
  | .fixedLength length => wire.length = length
  | _ =>
    data ≠ [] ∧ wire.length ≤ maxCandidateLength ∧
      (rx.delimiter = .footer → ∀ least ∈ rx.minLength, least ≤ wire.length) ∧
        ∀ n < wire.length, rx.AdmitsLength n → rx.verifies snapshot (wire.take n) = false

namespace ChannelProfile

/-- Both sides of the channel wrap frames alike. -/
structure IsMirrored (profile : ChannelProfile) : Prop where
  header : profile.tx.header = profile.rx.header
  footer : profile.tx.footer = profile.rx.footer
  checksum : profile.tx.checksum = profile.rx.checksum

/-- The command can be told from what comes before and behind it. -/
structure Legible (profile : ChannelProfile) (snapshot : Option Json) (t : Transmission) :
    Prop where
  framed : profile.tx.frame t.data snapshot = .ok t.wire
  start : ∃ b ∈ t.wire.head?, profile.rx.isStartByte b = true
  ends : profile.rx.EndsRightly snapshot t.data t.wire
  noise : profile.rx.IsNoise t.noise

variable {profile : ChannelProfile} {snapshot : Option Json}

/-- The parts of a command on the wire, as the receiving side names them. -/
theorem IsMirrored.exists_of_frame (h : profile.IsMirrored) {data wire : Bytes}
    (hframe : profile.tx.frame data snapshot = .ok wire) :
    ∃ check : Bytes,
      profile.rx.checksum.compute profile.rx.header data snapshot = .ok check ∧
        check.length = profile.rx.checksum.length ∧
          wire = profile.rx.header ++ data ++ check ++ profile.rx.footer := by
  rw [TxFraming.frame, h.header, h.footer, h.checksum] at hframe
  cases hcheck : profile.rx.checksum.compute profile.rx.header data snapshot with
  | error e => rw [hcheck] at hframe; cases hframe
  | ok check =>
    rw [hcheck] at hframe
    cases hframe
    exact ⟨check, rfl, Checksum.length_of_compute hcheck, rfl⟩

end ChannelProfile

namespace RxFraming

variable {rx : RxFraming} {snapshot : Option Json}

/-! ## A command verifies -/

/-- Taken apart, a frame yields the parts it was put together from. -/
theorem parts_append {data check : Bytes} (hcheck : check.length = rx.checksum.length) :
    rx.parts (rx.header ++ data ++ check ++ rx.footer) = (rx.header, data, check) := by
  have hbody : (rx.header ++ data ++ check ++ rx.footer).length - rx.footer.length =
      (rx.header ++ data ++ check).length := by
    rw [List.length_append, Nat.add_sub_cancel]
  have hdata : (rx.header ++ data ++ check).length - rx.checksum.length =
      (rx.header ++ data).length := by
    rw [List.length_append, hcheck, Nat.add_sub_cancel]
  simp only [parts, hbody, hdata]
  refine Prod.ext ?_ (Prod.ext ?_ ?_)
  · simp
  · rw [List.append_assoc, List.take_left, List.drop_left]
  · rw [List.take_left, List.drop_left]

/-- **A command verifies**, if it has data. -/
theorem verifies_frame {data check : Bytes} (hdata : data ≠ [])
    (hcheck : rx.checksum.compute rx.header data snapshot = .ok check) :
    rx.verifies snapshot (rx.header ++ data ++ check ++ rx.footer) = true := by
  have hlen := Checksum.length_of_compute hcheck
  have hpos := List.length_pos_iff.2 hdata
  have hwrapped : rx.isWrapped (rx.header ++ data ++ check ++ rx.footer) = true := by
    rw [isWrapped, Bool.and_eq_true]
    constructor
    · simp only [overhead, List.length_append, hlen, decide_eq_true_eq]
      omega
    · rw [List.length_append, Nat.add_sub_cancel, List.drop_left, beq_self_eq_true]
  simp only [verifies, parts_append hlen, hwrapped, Checksum.verify, hcheck, beq_self_eq_true,
    Bool.and_self]

/-! ## A command at the head of the buffer -/

theorem canBegin_of_header {wire : Bytes} (rest : Bytes)
    (hstart : ∃ b ∈ wire.head?, rx.isStartByte b = true) (hheader : rx.header <+: wire) :
    rx.canBegin (wire ++ rest) = true := by
  obtain ⟨b, hb, hstartb⟩ := hstart
  have hne : wire ≠ [] := by
    rintro rfl
    cases hb
  refine canBegin_iff.2 ⟨?_, contradictsHeader_eq_false.2 (Or.inl ?_)⟩
  · rw [head?_append hne, Option.mem_def.1 hb]
    exact hstartb
  · exact hheader.trans (List.prefix_append wire rest)

/-- The end of a command is found where it is, and bytes behind it have no part in that. -/
theorem plainEnd_wire {data wire : Bytes} (rest : Bytes)
    (hends : rx.EndsRightly snapshot data wire) (hoverhead : rx.overhead < wire.length)
    (hverifies : rx.verifies snapshot wire = true) :
    rx.plainEnd snapshot (wire ++ rest) = .emit wire.length := by
  have htake : (wire ++ rest).take wire.length = wire := List.take_left
  unfold EndsRightly at hends
  rcases fixed_or_marked rx with ⟨length, hfixed⟩ | hmarked
  · simp only [hfixed] at hends
    subst hends
    rw [plainEnd_of_fixed hfixed, if_neg (by rw [List.length_append]; omega), htake,
      if_pos hverifies]
  · have hmarkedEnd : wire.length ≤ maxCandidateLength ∧
        (rx.delimiter = .footer → ∀ least ∈ rx.minLength, least ≤ wire.length) ∧
          ∀ n < wire.length, rx.AdmitsLength n → rx.verifies snapshot (wire.take n) = false := by
      split at hends
      · rename_i length hfixed
        exact absurd hfixed (hmarked length)
      · exact hends.2
    obtain ⟨hmax, hmin, hshorter⟩ := hmarkedEnd
    have hshortest : rx.shortestFrame? snapshot (wire ++ rest) = some wire.length := by
      refine shortestFrame?_eq_some.2 ⟨⟨⟨hoverhead, hmax, hmin⟩, ?_⟩, ?_, fun n hn hadmits => ?_⟩
      · rw [htake]; exact hverifies
      · rw [List.length_append]; omega
      · rw [List.take_append_of_le_length (Nat.le_of_lt hn)]
        exact hshorter n hn hadmits
    rw [plainEnd_of_marked hmarked, hshortest]

/-- **A legible command is emitted**, whatever comes behind it. -/
theorem plainStep_wire {profile : ChannelProfile} (hmirrored : profile.IsMirrored)
    (hroom : ∀ length, profile.rx.delimiter = .fixedLength length →
      profile.rx.overhead < length)
    {t : Transmission} (ht : profile.Legible snapshot t) (rest : Bytes) :
    profile.rx.plainStep snapshot (t.wire ++ rest) = .emit t.wire.length := by
  obtain ⟨check, hcheck, hlen, hwire⟩ := hmirrored.exists_of_frame ht.framed
  have hdata : t.data ≠ [] := by
    have hends := ht.ends
    unfold EndsRightly at hends
    split at hends
    · -- the fixed length leaves room for data, so there is some
      rename_i length hfixed
      have hlt := hroom length hfixed
      rw [← hends, hwire, overhead] at hlt
      simp only [List.length_append, hlen] at hlt
      exact List.length_pos_iff.1 (by omega)
    · exact hends.1
  have hverifies : profile.rx.verifies snapshot t.wire = true :=
    hwire ▸ verifies_frame hdata hcheck
  have hheader : profile.rx.header <+: t.wire :=
    ⟨t.data ++ check ++ profile.rx.footer, by rw [hwire]; simp⟩
  rw [plainStep_of_canBegin (canBegin_of_header rest ht.start hheader),
    if_neg (by have := hheader.length_le; rw [List.length_append]; omega)]
  exact plainEnd_wire rest ht.ends (lt_length_of_verifies hverifies) hverifies

/-! ## A session, taken apart -/

/-- Noise at the head of a buffer is passed over. -/
theorem extract_noise {noise : Bytes} (h : rx.IsNoise noise) (rest : Bytes) :
    rx.extract snapshot (noise ++ rest) = rx.extract snapshot rest := by
  simp only [extract_eq_scanWith]
  induction noise with
  | nil => rfl
  | cons b noise ih =>
    have hbegin : rx.canBegin (b :: noise ++ rest) = false := by
      rw [canBegin, List.cons_append, List.head?_cons, Option.any_some, h b List.mem_cons_self,
        Bool.false_and]
    rw [scanWith_skip (plainStep_of_not_canBegin hbegin) Nat.one_pos, List.cons_append,
      List.drop_one, List.tail_cons, ih fun c hc => h c (List.mem_cons_of_mem b hc)]

/-- A command at the head of a buffer is the next frame. -/
theorem extract_wire {wire rest : Bytes} (hne : wire ≠ [])
    (h : rx.plainStep snapshot (wire ++ rest) = .emit wire.length) :
    rx.extract snapshot (wire ++ rest) =
      (Frame.ofBytes wire rx.header.length :: (rx.extract snapshot rest).1,
        (rx.extract snapshot rest).2) := by
  simp only [extract_eq_scanWith]
  rw [scanWith_emit (by simp [hne]) h (List.length_pos_iff.2 hne), List.take_left, List.drop_left]

/-- **A session is taken apart command by command**, and nothing is left of it. -/
theorem extract_session {profile : ChannelProfile} (hmirrored : profile.IsMirrored)
    (hroom : ∀ length, profile.rx.delimiter = .fixedLength length →
      profile.rx.overhead < length)
    {lead : Bytes} (hlead : profile.rx.IsNoise lead) {sent : List Transmission}
    (hsent : ∀ t ∈ sent, profile.Legible snapshot t) :
    profile.rx.extract snapshot (session lead sent) =
      (sent.map fun t => Frame.ofBytes t.wire profile.rx.header.length, []) := by
  rw [session, extract_noise hlead]
  induction sent with
  | nil => rfl
  | cons t sent ih =>
    have ht := hsent t List.mem_cons_self
    have hne : t.wire ≠ [] := by
      obtain ⟨b, hb, -⟩ := ht.start
      intro hnil
      rw [hnil] at hb
      cases hb
    rw [List.flatMap_cons, List.append_assoc,
      extract_wire hne (plainStep_wire hmirrored hroom ht _), extract_noise ht.noise,
      ih fun u hu => hsent u (List.mem_cons_of_mem t hu), List.map_cons]

end RxFraming

namespace Reassembler

/-- **What is sent is received.**  When both sides of a channel wrap frames alike, and scripts are
told the same on both, then a reassembler that keeps nothing takes legible commands with noise
around them apart again, in whatever chunks they come, as long as no pause between the chunks is too
long.  It finds a frame for each command, in order, with the data, the checksum and the footer as
its payload; and then it keeps nothing again. -/
theorem feedAll_session {config : ChannelConfig} {evaluator : Option Evaluator}
    {profile : ChannelProfile} (hresolve : config.resolve evaluator = .ok profile)
    (hmirrored : profile.IsMirrored) (r : Reassembler) (hframing : r.framing = profile.rx)
    (hpending : r.pending = []) (snapshot : Option Json)
    (htold : profile.rx.checksum.isScript = true → r.snapshot = snapshot)
    (lead : Bytes) (hlead : profile.rx.IsNoise lead) (sent : List Transmission)
    (hsent : ∀ t ∈ sent, profile.Legible snapshot t)
    (calls : List (Bytes × Time)) (hcalls : joined calls = session lead sent)
    (hchain : calls.IsChain fun earlier later => profile.rx.isGap earlier later = false) :
    List.Forall₂
        (fun (frame : Frame) (t : Transmission) =>
          frame.bytes = t.wire ∧
            ∃ check : Bytes,
              profile.tx.checksum.compute profile.tx.header t.data snapshot = .ok check ∧
                frame.payload = t.data ++ check ++ profile.tx.footer)
        (r.feedAll calls).1 sent ∧
      (r.feedAll calls).2.pending = [] := by
  have hroom : ∀ length, profile.rx.delimiter = .fixedLength length →
      profile.rx.overhead < length := fun length =>
    ChannelConfig.overhead_lt_of_resolve hresolve
  have halike : profile.rx.Alike r.snapshot snapshot := by
    cases hscript : profile.rx.checksum.isScript with
    | true => rw [htold hscript]; exact .refl _ _
    | false => exact RxFraming.alike_of_not_script hscript _ _
  -- the calls are as good as one
  have hfeed : ((r.feedAll calls).1, (r.feedAll calls).2.pending) =
      profile.rx.extract snapshot (joined calls) := by
    cases calls with
    | nil => rw [feedAll_nil, hpending]; rfl
    | cons call rest =>
      have hkept : r.kept call.2 = [] := by
        rw [kept, hpending, ite_self]
      rw [feedAll_of_isChain r call rest (hframing ▸ hchain), hkept, List.nil_append, hframing,
        halike]
  rw [hcalls, RxFraming.extract_session hmirrored hroom hlead hsent] at hfeed
  obtain ⟨hframes, hleft⟩ := Prod.mk.inj hfeed
  refine ⟨?_, hleft⟩
  rw [hframes, List.forall₂_map_left_iff, List.forall₂_same]
  intro t ht
  obtain ⟨check, hcheck, -, hwire⟩ := hmirrored.exists_of_frame (hsent t ht).framed
  refine ⟨rfl, check, ?_, ?_⟩
  · rw [hmirrored.checksum, hmirrored.header]; exact hcheck
  · rw [Frame.payload_ofBytes, hwire, hmirrored.footer]; simp

/-- Two commands in four chunks.  The data of the second one holds a header and a footer, and the
checksum of the first one ends like a footer. -/
theorem feedAll_session_of_two_commands :
    let config : ChannelConfig :=
      { rxHeader := [0xF7], rxFooter := [0xEE], rxChecksum2 := some (.named "xor_add"),
        rxMinLength := some 6, txHeader := [0xF7], txFooter := [0xEE],
        txChecksum2 := some (.named "xor_add") }
    let rx : RxFraming :=
      { header := [0xF7], footer := [0xEE], checksum := .named .xorAdd, delimiter := .footer,
        minLength := some 6, maxLength := none, timeout := 10, startBytes := none }
    let tx : TxFraming :=
      { header := [0xF7], footer := [0xEE], checksum := .named .xorAdd, delay := 50 }
    let sent : List Transmission :=
      [{ data := [0x01, 0x02], wire := [0xF7, 0x01, 0x02, 0xF4, 0xEE, 0xEE], noise := [0xEE] },
        { data := [0xF7, 0xEE], wire := [0xF7, 0xF7, 0xEE, 0xEE, 0xCA, 0xEE], noise := [0x01] }]
    let calls : List (Bytes × Time) :=
      [([0x00, 0xEE, 0xF7, 0x01], 0), ([0x02, 0xF4, 0xEE], 10_000_000), ([], 15_000_000),
        ([0xEE, 0xEE, 0xF7, 0xF7, 0xEE, 0xEE, 0xCA, 0xEE, 0x01], 20_000_000)]
    let r : Reassembler := { framing := rx }
    config.resolve none = .ok ⟨rx, tx⟩ ∧
      (ChannelProfile.mk rx tx).IsMirrored ∧
      (∀ t ∈ sent, (ChannelProfile.mk rx tx).Legible none t) ∧
      joined calls = session [0x00, 0xEE] sent ∧
      calls.IsChain (fun earlier later => rx.isGap earlier later = false) ∧
      List.Forall₂
          (fun (frame : Frame) (t : Transmission) =>
            frame.bytes = t.wire ∧
              ∃ check : Bytes,
                tx.checksum.compute tx.header t.data none = .ok check ∧
                  frame.payload = t.data ++ check ++ tx.footer)
          (r.feedAll calls).1 sent ∧
        (r.feedAll calls).2.pending = [] := by
  intro config rx tx sent calls r
  have hresolve : config.resolve none = .ok ⟨rx, tx⟩ := rfl
  have hmirrored : (ChannelProfile.mk rx tx).IsMirrored := ⟨rfl, rfl, rfl⟩
  have hlegible : ∀ t ∈ sent, (ChannelProfile.mk rx tx).Legible none t := by
    intro t ht
    rcases List.mem_pair.1 ht with rfl | rfl
    · exact ⟨rfl, ⟨0xF7, rfl, rfl⟩, ⟨by decide, by decide, by decide, by decide⟩,
        fun b hb => by rw [List.mem_singleton.1 hb]; rfl⟩
    · exact ⟨rfl, ⟨0xF7, rfl, rfl⟩, ⟨by decide, by decide, by decide, by decide⟩,
        fun b hb => by rw [List.mem_singleton.1 hb]; rfl⟩
  have hlead : rx.IsNoise [0x00, 0xEE] := by
    intro b hb
    rcases List.mem_pair.1 hb with rfl | rfl <;> rfl
  have hchain : calls.IsChain fun earlier later => rx.isGap earlier later = false := by decide
  exact ⟨hresolve, hmirrored, hlegible, rfl, hchain,
    feedAll_session hresolve hmirrored r rfl rfl none (fun _ => rfl) _ hlead sent hlegible calls rfl
      hchain⟩

end Reassembler
end Fieldbus
