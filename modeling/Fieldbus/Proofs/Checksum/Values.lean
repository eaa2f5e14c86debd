import Fieldbus.Proofs.Channel.Usable
import Fieldbus.Proofs.Checksum.Corruption
import Fieldbus.Proofs.Reassembler.Candidate

/-!
# What a checksum amounts to

A sum is gathered in a register of eight or of thirty-two bits and wraps around while it is
gathered.  What is left of it in the end is what a sum over all natural numbers would leave, since
256 divides the size of either register.

* `Bytes.total`, `Bytes.parity` — the sum and the exclusive or of bytes, as natural numbers.
* `toNat_foldl_wrapping` — a register that wraps around keeps the sum modulo its size.
* `Algorithm.formula`, `Algorithm.toNat_compute` — what each algorithm yields, without registers.
* `Checksum.Takes` — how many bytes a checksum takes: announced, computed, cut out of a candidate
  and counted in the least length of a frame.
* `Checksum.resolve_documented` — the main theorem.
-/

set_option autoImplicit false

namespace Fieldbus

/-! ## Registers

One lemma for both sizes of register: gathering in a register that wraps around is gathering in the
natural numbers, modulo the size.  An exclusive or has no carry and needs no modulus. -/

/-- The sum of the bytes. -/
def Bytes.total (bytes : Bytes) : Nat := bytes.foldr (fun b sum => b.toNat + sum) 0

/-- The exclusive or of the bytes. -/
def Bytes.parity (bytes : Bytes) : Nat := bytes.foldr (fun b x => b.toNat ^^^ x) 0

section

open Bytes (total parity)

/-- **A register that wraps around keeps the sum modulo its size.** -/
theorem toNat_foldl_wrapping {α : Type} (value : α → Nat) {gather : α → UInt8 → α} {size : Nat}
    (hgather : ∀ x b, value (gather x b) = (value x + b.toNat) % size) (bytes : Bytes) (start : α)
    (hstart : value start < size) :
    value (bytes.foldl gather start) = (value start + total bytes) % size := by
  induction bytes generalizing start with
  | nil => exact (Nat.mod_eq_of_lt hstart).symm
  | cons b rest ih =>
    have hpos : 0 < size := Nat.lt_of_le_of_lt (Nat.zero_le _) hstart
    have hnext : value (gather start b) < size := hgather start b ▸ Nat.mod_lt _ hpos
    rw [List.foldl_cons, ih _ hnext, hgather, Nat.mod_add_mod, Nat.add_assoc]
    rfl

theorem toNat_sum (bytes : Bytes) : (Bytes.sum bytes).toNat = total bytes % 256 := by
  have hfold := toNat_foldl_wrapping UInt8.toNat UInt8.toNat_add bytes 0 (by decide)
  rwa [UInt8.toNat_zero, Nat.zero_add] at hfold

/-- Nothing wraps around in an exclusive or. -/
theorem toNat_xor (bytes : Bytes) : (Bytes.xor bytes).toNat = parity bytes := by
  induction bytes with
  | nil => rfl
  | cons b rest ih =>
    rw [Bytes.xor, List.foldl_cons, foldl_xor, UInt8.zero_xor, UInt8.toNat_xor, ih]
    rfl

end

/-! ## Algorithms -/

namespace Algorithm

open Bytes (total parity)

/-- What an algorithm yields, over the natural numbers. -/
def formula (a : Algorithm) (header data : Bytes) : List Nat :=
  let all := header ++ data
  match a with
  | add => [total all % 256]
  | xor => [parity all]
  | addNoHeader => [total data % 256]
  | xorNoHeader => [parity data]
  | vendorRx => [0xB0 ^^^ parity data ^^^ if data.head?.any (·.toNat < 0x7C) then 0x80 else 0]
  | vendorTx => [parity data ^^^ 0x80]
  | none => []
  | xorAdd => [parity all, (total all + parity all) % 256]

/-- The pair of `xorAdd` is gathered in one pass, its sum in thirty-two bits. -/
theorem toNat_xorAddBytes (bytes : Bytes) :
    (xorAddBytes bytes).map UInt8.toNat =
      [parity bytes, (total bytes + parity bytes) % 256] := by
  let gather (acc : UInt32 × UInt8) (b : UInt8) : UInt32 × UInt8 :=
    (acc.1 + UInt32.ofNat b.toNat, acc.2 ^^^ b)
  have hsum : (bytes.foldl gather (0, 0)).1.toNat = total bytes % 2 ^ 32 := by
    have hgather (acc : UInt32 × UInt8) (b : UInt8) :
        (gather acc b).1.toNat = (acc.1.toNat + b.toNat) % 2 ^ 32 := by
      simp [gather]
    have hfold := toNat_foldl_wrapping (fun acc : UInt32 × UInt8 => acc.1.toNat) hgather bytes (0, 0)
      (by decide)
    rwa [UInt32.toNat_zero, Nat.zero_add] at hfold
  have hxor : (bytes.foldl gather (0, 0)).2.toNat = parity bytes := by
    have hsnd : (bytes.foldl gather (0, 0)).2 = Bytes.xor bytes :=
      (List.foldl_hom Prod.snd fun _ _ => rfl).symm
    rw [hsnd, toNat_xor]
  have hpair : xorAddBytes bytes =
      [(bytes.foldl gather (0, 0)).2,
        UInt8.ofNat ((bytes.foldl gather (0, 0)).1 +
          UInt32.ofNat (bytes.foldl gather (0, 0)).2.toNat).toNat] := rfl
  simp only [hpair, List.map_cons, List.map_nil, UInt8.toNat_ofNat', UInt32.toNat_add,
    UInt32.toNat_ofNat', hsum, hxor]
  congr 2
  omega

/-- The top bit is flipped when the first byte of the data is low. -/
theorem toNat_compute_vendorRx (header data : Bytes) :
    (vendorRx.compute header data).map UInt8.toNat = vendorRx.formula header data := by
  cases data with
  | nil => rfl
  | cons first rest =>
    have hparity : parity (first :: rest) = first.toNat ^^^ parity rest := rfl
    have hlow : first < 0x7C ↔ first.toNat < 0x7C := UInt8.lt_iff_toNat_lt
    rw [compute_vendorRx_cons, formula, hparity, List.map_singleton, UInt8.toNat_xor,
      UInt8.toNat_xor, toNat_xor, turned]
    simp only [hlow, List.head?_cons, Option.any_some, decide_eq_true_eq]
    split
    · rw [UInt8.toNat_xor]
      ac_rfl
    · rw [Nat.xor_zero, Nat.xor_assoc]
      rfl

/-- **Registers make no difference to what an algorithm yields.** -/
theorem toNat_compute (a : Algorithm) (header data : Bytes) :
    (a.compute header data).map UInt8.toNat = a.formula header data := by
  cases a with
  | add => exact congrArg ([·]) (toNat_sum _)
  | xor => exact congrArg ([·]) (toNat_xor _)
  | addNoHeader => exact congrArg ([·]) (toNat_sum _)
  | xorNoHeader => exact congrArg ([·]) (toNat_xor _)
  | vendorRx => exact toNat_compute_vendorRx header data
  | vendorTx =>
    rw [compute, formula, List.map_singleton, UInt8.toNat_xor, toNat_xor]
    rfl
  | none => rfl
  | xorAdd => exact toNat_xorAddBytes _

end Algorithm

/-! ## Lengths -/

/-- The checksum takes `n` bytes, wherever they are counted. -/
structure Checksum.Takes (checksum : Checksum) (n : Nat) : Prop where
  /-- So many are announced: those of its width, or none if there is no checksum. -/
  announced : checksum.length = n
  ofWidth : n = if checksum.isAbsent then 0 else checksum.width.bytes
  /-- So many are there when it can be computed. -/
  computed : ∀ (header data bytes : Bytes) (snapshot : Option Json),
    checksum.compute header data snapshot = .ok bytes → bytes.length = n
  /-- So many are cut out of a candidate, between its data and its footer. -/
  cut : ∀ (rx : RxFraming) (candidate : Bytes), rx.checksum = checksum →
    rx.isWrapped candidate = true →
      ∃ header data check : Bytes, rx.parts candidate = (header, data, check) ∧
        candidate = header ++ data ++ check ++ rx.footer ∧ header.length = rx.header.length ∧
        data ≠ [] ∧ check.length = n
  /-- So many are counted in the least length that all frames of a channel may have. -/
  counted : ∀ (config : ChannelConfig) (length : Nat), config.rxLength = some length →
    config.delimiter checksum =
      let minimum := config.rxHeader.length + n + config.rxFooter.length + 1
      if length < minimum then .error (.lengthTooSmall length minimum)
      else .ok (.fixedLength length)

namespace Checksum

/-- However a checksum has come about, there is one count of its bytes. -/
theorem takes_length (checksum : Checksum) : checksum.Takes checksum.length where
  announced := rfl
  ofWidth := by
    cases checksum with
    | named a => cases a <;> rfl
    | script expression width evaluate => rfl
  computed _ _ _ _ h := length_of_compute h
  cut _ _ hchecksum hwrapped := hchecksum ▸ RxFraming.exists_parts hwrapped
  counted config length hlength := by
    rw [ChannelConfig.delimiter, hlength]

/-- A name stands for an algorithm, if anything comes of it. -/
theorem exists_of_resolve_named {name : String} {slot : ChecksumWidth}
    {evaluator : Option Evaluator} {checksum : Checksum}
    (h : resolve (.named name) slot evaluator = .ok checksum) :
    ∃ a : Algorithm, a.IsCalled name ∧ checksum = .named a := by
  simp only [resolve] at h
  split at h
  · cases h
  · rename_i a hname
    split at h
    · cases h
    · cases h
      exact ⟨a, Algorithm.ofName?_eq_some_iff.1 hname, rfl⟩

/-- **A checksum has the length that is announced, and the value that is documented.**  A checksum
that has been made of a setting takes as many bytes as its slot, or none if the setting says so: as
announced, as computed of whatever header and data with whatever script, as cut out of a candidate,
and as counted in the least length of a frame.  That of an algorithm can always be computed and is
what its formula says, of data of any length. -/
theorem resolve_documented {setting : ChecksumSetting} {slot : ChecksumWidth}
    {evaluator : Option Evaluator} {checksum : Checksum}
    (h : resolve setting slot evaluator = .ok checksum) :
    checksum.Takes (ChecksumSlot.length ⟨setting, slot⟩) ∧
      ∀ name, setting = .named name → ∃ a : Algorithm, a.IsCalled name ∧
        ∀ (header data : Bytes) (snapshot : Option Json), ∃ bytes,
          checksum.compute header data snapshot = .ok bytes ∧
            bytes.map UInt8.toNat = a.formula header data := by
  have hlength : checksum.length = ChecksumSlot.length ⟨setting, slot⟩ :=
    ChecksumSlot.length_of_resolve h
  refine ⟨hlength ▸ checksum.takes_length, ?_⟩
  rintro name rfl
  obtain ⟨a, hname, rfl⟩ := exists_of_resolve_named h
  exact ⟨a, hname, fun header data _ => ⟨_, rfl, a.toNat_compute header data⟩⟩

/-- Three hundred bytes, whose sum fits into no register of eight bits. -/
theorem resolve_documented_of_long_data :
    let data : Bytes := List.replicate 300 0xFF
    resolve (.named "xor_add") .two none = .ok (.named .xorAdd) ∧
      (named .xorAdd).Takes 2 ∧
      ∃ bytes, (named .xorAdd).compute [0xF7] data none = .ok bytes ∧
        bytes.map UInt8.toNat = [0xF7, (0xF7 + 300 * 0xFF + 0xF7) % 256] := by
  intro data
  have hresolve : resolve (.named "xor_add") .two none = .ok (.named .xorAdd) := rfl
  obtain ⟨htakes, hvalue⟩ := resolve_documented hresolve
  obtain ⟨a, hname, hcompute⟩ := hvalue _ rfl
  obtain ⟨bytes, hbytes, hformula⟩ := hcompute [0xF7] data none
  obtain rfl : a = .xorAdd :=
    Option.some.inj ((Algorithm.ofName?_eq_some_iff.2 hname).symm.trans (by decide))
  refine ⟨hresolve, htakes, bytes, hbytes, hformula.trans ?_⟩
  decide +kernel

end Checksum
end Fieldbus
