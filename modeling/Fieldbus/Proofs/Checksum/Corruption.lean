import Fieldbus.Checksum.Basic
import Mathlib.Data.FinEnum

/-!
# Corrupted bytes

On the way a byte is replaced by another one, and the frame still carries the checksum of what was
sent.  This file says which algorithms notice it.

Sums and exclusive ors run over their bytes in steps that lose nothing: from what comes out of a
step and the byte, what went in can be told, and the other way round.  So two runs that part at one
byte never meet again (`foldl_set_ne`), and every byte that is covered counts.

`vendorRx` is an exclusive or as well, but it looks at the first byte of the data once more, and
turns the top bit of the checksum when that byte is low.  This makes up for a corruption that turns
the top bit of a low byte (`turned_eq_iff`), and for no other one.

* `Notices` — a function of bytes whose result changes whenever one of them is replaced.
* `Algorithm.coversHeader`, `Algorithm.Overlooks` — the corruptions that an algorithm misses.
* `Checksum.verify_corrupted` — the main theorem: it misses those and no others.

## How it is proved

A checksum is computed over header and data, but it is easier to think of it as a function of one
list.  A replaced byte of the header is then a replaced byte of a list with the data behind it, and
a replaced byte of the data is one of a list with the header in front (`Notices.inFront`,
`Notices.behind`).  For the pair of `xorAdd` it is enough that one of the two bytes notices, and the
exclusive or does.

`vendorRx` has to be taken apart: what it does with the first byte of the data is a function of that
byte alone (`turned`), and behind it the data are gathered as always.  So a corruption goes
unnoticed exactly if it is of that first byte and `turned` does not tell the two bytes apart.
-/

set_option autoImplicit false

namespace Fieldbus

open Function (Injective)

/-! ## Functions that notice every byte -/

/-- The result is another one whenever a byte is replaced by another one. -/
def Notices {α : Type} (f : Bytes → α) : Prop :=
  ∀ (bytes : Bytes) (i : Nat) (hi : i < bytes.length) (c : UInt8),
    c ≠ bytes[i] → f (bytes.set i c) ≠ f bytes

namespace Notices

variable {α β : Type} {f : Bytes → α}

theorem map (h : Notices f) {g : α → β} (hg : Injective g) : Notices fun bytes => g (f bytes) :=
  fun bytes i hi c hc heq => h bytes i hi c hc (hg heq)

/-- A function notices every byte if some part of its result does. -/
theorem of_part (part : α → β) (h : Notices fun bytes => part (f bytes)) : Notices f :=
  fun bytes i hi c hc heq => h bytes i hi c hc (congrArg part heq)

theorem inFront (h : Notices f) (data : Bytes) : Notices fun header => f (header ++ data) := by
  intro header i hi c hc
  have hset := List.set_append_left (t := data) i c hi
  have hall : i < (header ++ data).length := by
    rw [List.length_append]
    omega
  have hb : (header ++ data)[i] = header[i] := List.getElem_append_left hi
  simp only [← hset]
  exact h (header ++ data) i hall c (hb ▸ hc)

theorem behind (h : Notices f) (header : Bytes) : Notices fun data => f (header ++ data) := by
  intro data i hi c hc
  have hset := List.set_append_right (s := header) (t := data) (header.length + i) c
    (Nat.le_add_right _ _)
  have hall : header.length + i < (header ++ data).length := by
    rw [List.length_append]
    omega
  have hb : (header ++ data)[header.length + i] = data[i] := by
    rw [List.getElem_append_right (Nat.le_add_right _ _)]
    simp only [Nat.add_sub_cancel_left]
  rw [Nat.add_sub_cancel_left] at hset
  simp only [← hset]
  exact h (header ++ data) (header.length + i) hall c (hb ▸ hc)

end Notices

/-! ## Two runs that part at one byte

The gathering step is injective in either argument.  Injective in the byte, it sets the two runs
apart where the byte was replaced; injective in what has been gathered, it keeps them apart from
there on. -/

section

variable {f : UInt8 → UInt8 → UInt8}

/-- Runs over the same bytes stay apart. -/
theorem foldl_injective (hgathered : ∀ b, Injective (f · b)) (bytes : Bytes) :
    Injective (bytes.foldl f) := by
  induction bytes with
  | nil => exact fun x y h => h
  | cons b rest ih => exact fun x y h => hgathered b (ih h)

/-- **Runs that part at one byte never meet again.** -/
theorem foldl_set_ne (hgathered : ∀ b, Injective (f · b)) (hbyte : ∀ x, Injective (f x))
    (start : UInt8) : Notices (List.foldl f start) := by
  intro bytes
  induction bytes generalizing start with
  | nil => exact fun i hi => absurd hi (Nat.not_lt_zero i)
  | cons b rest ih =>
    intro i hi c hc
    cases i with
    | zero => exact fun h => hc (hbyte start (foldl_injective hgathered rest h))
    | succ i => exact ih (f start b) i (Nat.lt_of_succ_lt_succ hi) c hc

end

theorem notices_sum : Notices Bytes.sum :=
  foldl_set_ne (fun b _ _ h => (UInt8.add_left_inj b).1 h)
    (fun x _ _ h => (UInt8.add_right_inj x).1 h) 0

theorem notices_xor : Notices Bytes.xor :=
  foldl_set_ne (fun b _ _ h => (UInt8.xor_left_inj b).1 h)
    (fun x _ _ h => (UInt8.xor_right_inj x).1 h) 0

theorem foldl_xor (start : UInt8) (bytes : Bytes) :
    bytes.foldl (· ^^^ ·) start = start ^^^ Bytes.xor bytes := by
  have hassoc := @List.foldl_assoc UInt8 (· ^^^ ·) _ bytes start 0
  rwa [UInt8.xor_zero] at hassoc

namespace Algorithm

/-- The first byte of the pair is the exclusive or. -/
theorem head?_xorAddBytes (bytes : Bytes) : (xorAddBytes bytes).head? = some (Bytes.xor bytes) := by
  rw [Bytes.xor]
  exact congrArg some (List.foldl_hom Prod.snd fun _ _ => rfl).symm

theorem notices_xorAddBytes : Notices xorAddBytes := by
  refine .of_part List.head? ?_
  simp only [head?_xorAddBytes]
  exact notices_xor.map (Option.some_injective _)

/-! ## The first byte and `vendorRx` -/

/-- What the first byte of the data brings to the checksum of `vendorRx`. -/
def turned (b : UInt8) : UInt8 := if b < 0x7C then b ^^^ 0x80 else b

theorem compute_vendorRx_cons (header : Bytes) (b : UInt8) (rest : Bytes) :
    vendorRx.compute header (b :: rest) = [0xB0 ^^^ turned b ^^^ Bytes.xor rest] := by
  simp only [compute, List.foldl_cons, foldl_xor, turned]
  split
  · ac_rfl
  · rfl

/-- **What `vendorRx` does not tell apart**: two bytes that differ in the top bit alone, if the one
without it is low. -/
theorem turned_eq_iff {b c : UInt8} (h : c ≠ b) :
    turned c = turned b ↔ b ^^^ c = 0x80 ∧ b &&& 0x7F < 0x7C := by
  have htop : b ^^^ c = 0x80 ↔ c = b ^^^ 0x80 := by
    rw [← UInt8.xor_right_inj b, ← UInt8.xor_assoc, UInt8.xor_self, UInt8.zero_xor]
  have hturned : turned c = turned b → c = b ^^^ 0x80 := by
    intro heq
    -- if both bytes were turned, or neither, they would be equal
    simp only [turned] at heq
    split at heq <;> split at heq
    · exact absurd ((UInt8.xor_left_inj _).1 heq) h
    · rw [← heq, UInt8.xor_assoc, UInt8.xor_self, UInt8.xor_zero]
    · exact heq
    · exact absurd heq h
  -- both bytes of such a pair have the same seven bits, and it is these that count
  have hlow : ∀ b : UInt8, turned (b ^^^ 0x80) = turned b ↔ b &&& 0x7F < 0x7C := by
    decide +kernel
  rw [htop]
  refine ⟨fun heq => ?_, fun ⟨htop, hb⟩ => htop ▸ (hlow b).2 hb⟩
  obtain rfl := hturned heq
  exact ⟨rfl, (hlow b).1 heq⟩

/-! ## What goes unnoticed -/

/-- Does the checksum cover the header? -/
def coversHeader : Algorithm → Bool
  | add => true
  | xor => true
  | xorAdd => true
  | _ => false

/-- The corruptions of the data that go unnoticed: the byte `b` at place `i` is replaced by `c`. -/
def Overlooks (a : Algorithm) (i : Nat) (b c : UInt8) : Prop :=
  match a with
  | none => True
  | vendorRx => i = 0 ∧ b ^^^ c = 0x80 ∧ b &&& 0x7F < 0x7C
  | _ => False

theorem compute_of_not_coversHeader {a : Algorithm} (h : a.coversHeader = false)
    (header header' data : Bytes) : a.compute header data = a.compute header' data := by
  cases a with
  | add => cases h
  | xor => cases h
  | xorAdd => cases h
  | _ => rfl

theorem notices_header {a : Algorithm} (h : a.coversHeader = true) (data : Bytes) :
    Notices fun header => a.compute header data := by
  cases a with
  | add => exact (notices_sum.inFront data).map List.singleton_injective
  | xor => exact (notices_xor.inFront data).map List.singleton_injective
  | xorAdd => exact notices_xorAddBytes.inFront data
  | _ => cases h

/-- Behind the first byte of the data `vendorRx` is an exclusive or like any other. -/
theorem notices_rest (header : Bytes) (b : UInt8) :
    Notices fun rest => vendorRx.compute header (b :: rest) := by
  simp only [compute_vendorRx_cons]
  exact notices_xor.map fun x y h => (UInt8.xor_right_inj _).1 (List.singleton_injective h)

theorem notices_data {a : Algorithm} (hnone : a ≠ none) (hvendor : a ≠ vendorRx) (header : Bytes) :
    Notices (a.compute header) := by
  cases a with
  | add => exact (notices_sum.behind header).map List.singleton_injective
  | xor => exact (notices_xor.behind header).map List.singleton_injective
  | addNoHeader => exact notices_sum.map List.singleton_injective
  | xorNoHeader => exact notices_xor.map List.singleton_injective
  | vendorRx => exact absurd rfl hvendor
  | vendorTx =>
    exact notices_xor.map fun x y h => (UInt8.xor_left_inj _).1 (List.singleton_injective h)
  | none => exact absurd rfl hnone
  | xorAdd => exact notices_xorAddBytes.behind header

section

variable {c : UInt8}

/-- A corrupted header. -/
theorem compute_set_header (a : Algorithm) (data : Bytes) {header : Bytes} {i : Nat}
    (hi : i < header.length) (hc : c ≠ header[i]) :
    a.compute (header.set i c) data = a.compute header data ↔ a.coversHeader = false := by
  refine ⟨fun heq => ?_, fun h => compute_of_not_coversHeader h _ _ data⟩
  by_contra h
  exact notices_header (Bool.eq_true_of_not_eq_false h) data header i hi c hc heq

/-- Corrupted data. -/
theorem compute_set_data (a : Algorithm) (header : Bytes) {data : Bytes} {i : Nat}
    (hi : i < data.length) (hc : c ≠ data[i]) :
    a.compute header (data.set i c) = a.compute header data ↔ a.Overlooks i data[i] c := by
  by_cases hnone : a = none
  · subst hnone
    exact iff_of_true rfl trivial
  by_cases hvendor : a = vendorRx
  · subst hvendor
    obtain ⟨b, rest, rfl⟩ :=
      List.exists_cons_of_ne_nil (List.ne_nil_of_length_pos (Nat.zero_lt_of_lt hi))
    cases i with
    | zero =>
      rw [List.set_cons_zero, compute_vendorRx_cons, compute_vendorRx_cons, List.singleton_inj,
        UInt8.xor_left_inj, UInt8.xor_right_inj]
      exact (turned_eq_iff hc).trans (and_iff_right rfl).symm
    | succ i =>
      have hrest := notices_rest header b rest i (Nat.lt_of_succ_lt_succ hi) c hc
      exact iff_of_false hrest fun h => Nat.succ_ne_zero i h.1
  · refine iff_of_false (notices_data hnone hvendor header data i hi c hc) fun h => ?_
    cases a with
    | none => exact hnone rfl
    | vendorRx => exact hvendor rfl
    | _ => exact h

end

end Algorithm

namespace Checksum

open Algorithm (compute_set_header compute_set_data)

theorem verify_named (a : Algorithm) (header data expected : Bytes) (snapshot : Option Json) :
    (named a).verify header data expected snapshot = true ↔ a.compute header data = expected := by
  rw [verify_eq_true_iff, compute, Except.ok.injEq]

/-- **A corrupted byte is noticed.**  One byte of the header or of the data is replaced by another
one.  If the algorithm covers it, the checksum changes, so what was sent no longer verifies.  The
one exception is the first byte of the data under `vendorRx`: there the checksum stays as it is if
exactly the top bit is turned and the other seven bits are below `0x7C`, and only then. -/
theorem verify_corrupted (a : Algorithm) (header data : Bytes) (snapshot : Option Json)
    (c : UInt8) :
    (∀ (i : Nat) (hi : i < header.length), c ≠ header[i] →
      (a.compute (header.set i c) data = a.compute header data ↔ a.coversHeader = false) ∧
        ((named a).verify (header.set i c) data (a.compute header data) snapshot = true ↔
          a.coversHeader = false)) ∧
      ∀ (i : Nat) (hi : i < data.length), c ≠ data[i] →
        (a.compute header (data.set i c) = a.compute header data ↔ a.Overlooks i data[i] c) ∧
          ((named a).verify header (data.set i c) (a.compute header data) snapshot = true ↔
            a.Overlooks i data[i] c) := by
  refine ⟨fun i hi hc => ?_, fun i hi hc => ?_⟩
  · rw [verify_named]
    exact ⟨compute_set_header a data hi hc, compute_set_header a data hi hc⟩
  · rw [verify_named]
    exact ⟨compute_set_data a header hi hc, compute_set_data a header hi hc⟩

/-- The top bit of a byte is turned.  At the first byte of the data `vendorRx` overlooks it, at the
second one it does not; and in the header `xorAdd` does not. -/
theorem verify_corrupted_of_top_bit :
    let header : Bytes := [0xB0]
    let data : Bytes := [0x10, 0x7F]
    (0 < header.length ∧ (0x30 : UInt8) ≠ header[0]) ∧
      (0 < data.length ∧ (0x90 : UInt8) ≠ data[0]) ∧ (1 < data.length ∧ (0xFF : UInt8) ≠ data[1]) ∧
      (named .vendorRx).verify [0xB0] [0x90, 0x7F] (Algorithm.vendorRx.compute header data) none ∧
      ¬(named .vendorRx).verify [0xB0] [0x10, 0xFF] (Algorithm.vendorRx.compute header data) none ∧
      ¬(named .xorAdd).verify [0x30] [0x10, 0x7F] (Algorithm.xorAdd.compute header data) none := by
  intro header data
  have hfirst := (verify_corrupted .vendorRx header data none 0x90).2 0 (by decide) (by decide)
  have hsecond := (verify_corrupted .vendorRx header data none 0xFF).2 1 (by decide) (by decide)
  have hheader := (verify_corrupted .xorAdd header data none 0x30).1 0 (by decide) (by decide)
  refine ⟨by decide, by decide, by decide, ?_, ?_, ?_⟩
  · exact hfirst.2.2 ⟨rfl, by decide, by decide⟩
  · exact fun h => Nat.one_ne_zero (hsecond.2.1 h).1
  · exact fun h => Bool.noConfusion (hheader.2.1 h)

end Checksum
end Fieldbus
