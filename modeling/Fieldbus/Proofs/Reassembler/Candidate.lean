import Fieldbus.Reassembler.Step

/-!
# Candidates

What it means that a candidate verifies, and which candidates `RxFraming.step` tries.

* `exists_parts` — a candidate with room for them falls into header, data, checksum and footer.
* `exists_of_verifies` reads the four parts of a frame off a candidate that verifies, with the
  checksum of the first two in the third.
* `lt_length_of_verifies` — such a candidate is longer than everything around its data.
* `mem_lengthsFromTo` — the lengths that are tried are all of those between two bounds.
-/

set_option autoImplicit false

namespace Fieldbus
namespace RxFraming

variable {rx : RxFraming} {snapshot : Option Json}

/-! ## Candidates that verify -/

theorem isWrapped_of_verifies {candidate : Bytes} (h : rx.verifies snapshot candidate = true) :
    rx.overhead + 1 ≤ candidate.length ∧
      candidate.drop (candidate.length - rx.footer.length) = rx.footer := by
  simp only [verifies, isWrapped, Bool.and_eq_true, decide_eq_true_eq, beq_iff_eq] at h
  exact h.1

/-- A candidate that verifies holds at least one byte of data. -/
theorem lt_length_of_verifies {candidate : Bytes} (h : rx.verifies snapshot candidate = true) :
    rx.overhead < candidate.length :=
  (isWrapped_of_verifies h).1

theorem pos_of_verifies_take {buffer : Bytes} {n : Nat}
    (h : rx.verifies snapshot (buffer.take n) = true) : rx.overhead < n ∧ n ≠ 0 := by
  have hlt := lt_length_of_verifies h
  rw [List.length_take] at hlt
  omega

theorem take_eq_take_append_drop (bytes : Bytes) {i j : Nat} (h : i ≤ j) :
    bytes.take j = bytes.take i ++ (bytes.take j).drop i := by
  have hsplit := List.take_append_drop i (bytes.take j)
  rw [List.take_take, Nat.min_eq_left h] at hsplit
  exact hsplit.symm

/-- **A candidate with room for them falls into its parts.**  The checksum is looked for between the
data and the footer. -/
theorem exists_parts {candidate : Bytes} (h : rx.isWrapped candidate = true) :
    ∃ header data check : Bytes, rx.parts candidate = (header, data, check) ∧
      candidate = header ++ data ++ check ++ rx.footer ∧ header.length = rx.header.length ∧
      data ≠ [] ∧ check.length = rx.checksum.length := by
  simp only [isWrapped, Bool.and_eq_true, decide_eq_true_eq, beq_iff_eq] at h
  obtain ⟨hlen, hfooter⟩ := h
  rw [overhead] at hlen
  let bodyEnd := candidate.length - rx.footer.length
  let dataEnd := bodyEnd - rx.checksum.length
  have hbody : candidate = candidate.take bodyEnd ++ rx.footer := by
    rw [← hfooter, List.take_append_drop]
  have hdata := take_eq_take_append_drop candidate (show dataEnd ≤ bodyEnd from Nat.sub_le _ _)
  have hheader := take_eq_take_append_drop candidate (show rx.header.length ≤ dataEnd by omega)
  refine ⟨_, _, _, rfl, ?_, ?_, ?_, ?_⟩
  · rw [← hheader, ← hdata, ← hbody]
  · rw [List.length_take]
    omega
  · rw [Ne, ← List.length_eq_zero_iff, List.length_drop, List.length_take]
    omega
  · rw [List.length_drop, List.length_take]
    omega

/-- **The parts of a candidate that verifies.**  Behind as many bytes as the header has come data,
the checksum of both, and the footer. -/
theorem exists_of_verifies {candidate : Bytes} (h : rx.verifies snapshot candidate = true) :
    ∃ data check : Bytes,
      candidate = candidate.take rx.header.length ++ data ++ check ++ rx.footer ∧ data ≠ [] ∧
        check.length = rx.checksum.length ∧
        rx.checksum.verify (candidate.take rx.header.length) data check snapshot = true := by
  rw [verifies, Bool.and_eq_true] at h
  obtain ⟨hwrapped, hverify⟩ := h
  obtain ⟨header, data, check, hparts, happend, -, hdata, hcheck⟩ := exists_parts hwrapped
  have hheader : candidate.take rx.header.length = header := congrArg Prod.fst hparts
  rw [hparts] at hverify
  rw [hheader]
  exact ⟨data, check, happend, hdata, hcheck, hverify⟩

/-! ## The candidates of a step -/

theorem mem_lengthsFromTo {least greatest n : Nat} :
    n ∈ lengthsFromTo least greatest ↔ least ≤ n ∧ n ≤ greatest := by
  rw [lengthsFromTo, List.mem_range'_1]
  omega

end RxFraming
end Fieldbus
