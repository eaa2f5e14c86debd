import Fieldbus.Proofs.Binary64.Whole
import Fieldbus.Proofs.Reassembler.Frames

/-!
# Answers of scripts

A script may answer with any document, or not at all.  This file says which answers are a checksum,
without a word about how they are taken apart, and that with any other outcome nothing is verified,
sent or received.

* `Json.IsByte` — the document is a number and its value is the byte, in whatever form it stands.
* `Spells`, `ScriptOutcome.Yields` — the answers that fill a slot, and the bytes they fill it with.
* `Checksum.answeredBytes_eq_ok_iff` — exactly those answers are accepted.
* `RxFraming.yields_of_mem_extract` — a frame carries the bytes that the script answered with.
* `Checksum.script_fails_closed` — the main theorem.
-/

set_option autoImplicit false

namespace Fieldbus

/-! ## Answers that are accepted

A number may stand in a document in several forms, and its value is what counts.  `Spells` says in
terms of values which documents are the bytes of a slot; how they are read is then compared with it,
one byte first and then the document. -/

/-- The value of the number is this integer; `4` and `4.0` have the same value. -/
def JsonNumber.IsInteger (number : JsonNumber) (n : Int) : Prop :=
  match number with
  | .integer value => value = n
  | .real x => x.toUnits? = some (n * Binary64.unitsInOne)

/-- The document is a number, and its value is the byte. -/
def Json.IsByte (document : Json) (b : UInt8) : Prop :=
  ∃ number : JsonNumber, document = .number number ∧ number.IsInteger b.toNat

/-- The document spells the bytes of a slot: a number for one, an array of two numbers for two. -/
inductive Spells : ChecksumWidth → Json → Bytes → Prop
  | one {document : Json} {b : UInt8} : document.IsByte b → Spells .one document [b]
  | two {first second : Json} {a b : UInt8} :
    first.IsByte a → second.IsByte b → Spells .two (.array [first, second]) [a, b]

/-- The evaluation has ended with an answer that spells the bytes. -/
def ScriptOutcome.Yields (outcome : ScriptOutcome) (width : ChecksumWidth) (bytes : Bytes) : Prop :=
  ∃ document : Json, outcome = .answer document ∧ Spells width document bytes

theorem Json.isByte_number {number : JsonNumber} {b : UInt8} :
    (Json.number number).IsByte b ↔ number.IsInteger b.toNat := by
  refine ⟨?_, fun h => ⟨number, rfl, h⟩⟩
  rintro ⟨same, heq, h⟩
  cases heq
  exact h

namespace Checksum

/-- The integers that are bytes. -/
theorem ofNat_toNat_eq_iff {n : Int} {b : UInt8} :
    (0 ≤ n ∧ n ≤ 255) ∧ UInt8.ofNat n.toNat = b ↔ n = b.toNat := by
  have hb := b.toNat_lt
  rw [← UInt8.toNat_inj, UInt8.toNat_ofNat']
  omega

theorem answeredByte?_eq_some_iff {document : Json} {b : UInt8} :
    answeredByte? document = some b ↔ document.IsByte b := by
  cases document with
  | number number =>
    rw [Json.isByte_number]
    cases number with
    | integer n =>
      rw [answeredByte?, Option.ite_none_right_eq_some, Option.some.injEq, ofNat_toNat_eq_iff]
      rfl
    | real x =>
      rw [JsonNumber.IsInteger, Binary64.toUnits?_eq_some_iff, answeredByte?]
      cases x.toInt? with
      | none => simp
      | some n =>
        simp only [Option.ite_none_right_eq_some, Option.some.injEq, and_assoc]
        rw [← ofNat_toNat_eq_iff, and_assoc]
  | _ =>
    refine iff_of_false (fun h => ?_) ?_
    · cases h
    · rintro ⟨number, heq, -⟩
      cases heq

theorem answeredBytes_eq_ok_iff {width : ChecksumWidth} {document : Json} {bytes : Bytes} :
    answeredBytes width document = .ok bytes ↔ Spells width document bytes := by
  cases width with
  | one =>
    rw [answeredBytes]
    refine ⟨fun h => ?_, fun h => ?_⟩
    · split at h
      · rename_i b hb
        cases h
        exact .one (answeredByte?_eq_some_iff.1 hb)
      · cases h
    · cases h with
      | one hb => rw [answeredByte?_eq_some_iff.2 hb]
  | two =>
    refine ⟨fun h => ?_, fun h => ?_⟩
    · simp only [answeredBytes] at h
      split at h
      · split at h
        · rename_i a b ha hb
          cases h
          exact .two (answeredByte?_eq_some_iff.1 ha) (answeredByte?_eq_some_iff.1 hb)
        · cases h
      · cases h
    · cases h with
      | two ha hb =>
        simp only [answeredBytes, answeredByte?_eq_some_iff.2 ha, answeredByte?_eq_some_iff.2 hb]

section

variable {expression : String} {width : ChecksumWidth} {evaluate : Evaluator}
  {header data bytes : Bytes} {snapshot : Option Json}

/-- **A script yields a checksum if its answer spells one**, and only then. -/
theorem compute_script_eq_ok_iff :
    (script expression width evaluate).compute header data snapshot = .ok bytes ↔
      (evaluate expression ⟨header ++ data, snapshot⟩).Yields width bytes := by
  simp only [compute, ScriptOutcome.Yields, ← answeredBytes_eq_ok_iff]
  split <;> simp [*]

/-- Otherwise there is an error. -/
theorem exists_compute_script_eq_error
    (h : ¬∃ bytes, (evaluate expression ⟨header ++ data, snapshot⟩).Yields width bytes) :
    ∃ e, (script expression width evaluate).compute header data snapshot = .error e := by
  cases hcompute : (script expression width evaluate).compute header data snapshot with
  | ok bytes => exact absurd ⟨bytes, compute_script_eq_ok_iff.1 hcompute⟩ h
  | error e => exact ⟨e, rfl⟩

end

end Checksum

/-! ## Frames

A frame can be cut into header, data, checksum and footer in one way only, as the lengths of all but
the data are given.  So what a frame carries in the place of the checksum is what was computed over
the rest. -/

/-- Header, data and checksum of a frame can be told from each other. -/
theorem eq_and_eq_of_parts {header footer data other check check' : Bytes}
    (h : header ++ data ++ check ++ footer = header ++ other ++ check' ++ footer)
    (hlength : check.length = check'.length) : data = other ∧ check = check' := by
  obtain ⟨hdata, hcheck⟩ := List.append_inj' (List.append_cancel_right h) hlength
  exact ⟨List.append_cancel_left hdata, hcheck⟩

/-- **A frame carries the bytes that the script answered with.** -/
theorem RxFraming.yields_of_mem_extract {rx : RxFraming} {expression : String}
    {width : ChecksumWidth} {evaluate : Evaluator}
    (hscript : rx.checksum = .script expression width evaluate) {snapshot : Option Json}
    {buffer : Bytes} {frame : Frame} (hframe : frame ∈ (rx.extract snapshot buffer).1)
    {data check : Bytes} (hparts : frame.bytes = rx.header ++ data ++ check ++ rx.footer)
    (hcheck : check.length = width.bytes) :
    (evaluate expression ⟨rx.header ++ data, snapshot⟩).Yields width check := by
  obtain ⟨data', check', hparts', -, -, hlength, hverify⟩ := (isFrame_of_mem_extract hframe).parts
  rw [hscript] at hlength hverify
  obtain ⟨rfl, rfl⟩ := eq_and_eq_of_parts (hparts.symm.trans hparts') (hcheck.trans hlength.symm)
  exact Checksum.compute_script_eq_ok_iff.1 (Checksum.verify_eq_true_iff.1 hverify)

namespace Checksum

/-- **A script fails closed.**  The bytes that verify are those that the answer spells: for a slot
of one byte a number whose value is an integer from 0 to 255, for a slot of two bytes an array of
two such numbers.  With any other answer, or with none, the checksum cannot be computed, nothing is
verified, no frame with these data can be sent, and none is received. -/
theorem script_fails_closed (expression : String) (width : ChecksumWidth) (evaluate : Evaluator)
    (header data : Bytes) (snapshot : Option Json) :
    let checksum := script expression width evaluate
    let outcome := evaluate expression ⟨header ++ data, snapshot⟩
    (∀ expected, checksum.verify header data expected snapshot = true ↔
        outcome.Yields width expected) ∧
      ((¬∃ bytes, outcome.Yields width bytes) →
        (∃ e, checksum.compute header data snapshot = .error e ∧
          ∀ tx : TxFraming, tx.checksum = checksum → tx.header = header →
            tx.frame data snapshot = .error e) ∧
        (∀ expected, checksum.verify header data expected snapshot = false) ∧
        ∀ r : Reassembler, r.framing.checksum = checksum → r.framing.header = header →
          r.snapshot = snapshot → ∀ (chunk : Bytes) (now : Time), ∀ frame ∈ (r.feed chunk now).1,
            ∀ check : Bytes, check.length = checksum.length →
              frame.bytes ≠ header ++ data ++ check ++ r.framing.footer) := by
  intro checksum outcome
  have hverify (expected : Bytes) : checksum.verify header data expected snapshot = true ↔
      outcome.Yields width expected := verify_eq_true_iff.trans compute_script_eq_ok_iff
  refine ⟨hverify, fun hnone => ⟨?_, ?_, ?_⟩⟩
  · obtain ⟨e, he⟩ := exists_compute_script_eq_error hnone
    refine ⟨e, he, fun tx hchecksum hheader => ?_⟩
    rw [TxFraming.frame, hchecksum, hheader, he]
  · intro expected
    exact Bool.eq_false_iff.2 fun h => hnone ⟨expected, (hverify expected).1 h⟩
  · rintro r hchecksum rfl rfl chunk now frame hframe check hlength hparts
    exact hnone ⟨check, RxFraming.yields_of_mem_extract hchecksum hframe hparts hlength⟩

/-- A script that answers `16.0` for two bytes and `0.5` for three.  The first is a checksum; with
the second one no frame with these data is sent or received. -/
theorem script_fails_closed_of_half :
    let evaluate : Evaluator := fun _ input =>
      .answer (.number (.real (match input.data with | [_, _] => 16 | _ => .half)))
    let checksum := script "mean" .one evaluate
    let rx : RxFraming :=
      { header := [0xAA], footer := [], checksum, delimiter := .checksum, minLength := none,
        maxLength := none, timeout := 10, startBytes := none }
    let r : Reassembler := { framing := rx, pending := [0xAA, 0x01] }
    checksum.verify [0xAA] [0x01] [0x10] none = true ∧
      (¬∃ bytes, (evaluate "mean" ⟨[0xAA] ++ [0x01, 0x02], none⟩).Yields .one bytes) ∧
      checksum.verify [0xAA] [0x01, 0x02] [0x00] none = false ∧
      ∀ frame ∈ (r.feed [0x02, 0x00] 0).1, frame.bytes ≠ [0xAA, 0x01, 0x02, 0x00] := by
  intro evaluate checksum rx r
  have hbyte : answeredByte? (.number (.real 16)) = some 0x10 := by decide +kernel
  have hhalf (b : UInt8) : answeredByte? (.number (.real .half)) ≠ some b := by
    rw [show answeredByte? (.number (.real .half)) = none by decide +kernel]
    exact nofun
  have hnone : ¬∃ bytes, (evaluate "mean" ⟨[0xAA] ++ [0x01, 0x02], none⟩).Yields .one bytes := by
    rintro ⟨bytes, document, hanswer, hspells⟩
    cases hanswer
    cases hspells with
    | one hb => exact hhalf _ (answeredByte?_eq_some_iff.2 hb)
  obtain ⟨hverify, -⟩ := script_fails_closed "mean" .one evaluate [0xAA] [0x01] none
  obtain ⟨-, hfails⟩ := script_fails_closed "mean" .one evaluate [0xAA] [0x01, 0x02] none
  obtain ⟨-, hrefused, hlost⟩ := hfails hnone
  have hyields : (evaluate "mean" ⟨[0xAA] ++ [0x01], none⟩).Yields .one [0x10] :=
    ⟨.number (.real 16), rfl, .one (answeredByte?_eq_some_iff.1 hbyte)⟩
  refine ⟨(hverify [0x10]).2 hyields, hnone, hrefused [0x00], fun frame hframe => ?_⟩
  exact hlost r rfl rfl rfl [0x02, 0x00] 0 frame hframe [0x00] rfl

end Checksum
end Fieldbus
