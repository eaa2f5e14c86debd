import Fieldbus.Entity.Decoder
import Mathlib.Algebra.Group.Nat.Defs

/-!
# How commands are built

A command goes through three hands: its argument is encoded, put into the template, and the data
that comes of it is wrapped for the channel.  Each of them may have to give up.  Here it is said
what comes of a command as a whole, without a word about how the bytes are moved.

* `IsFilledIn` — the data that comes of a template and an argument; `overwrite` makes it, and there
  is no other (`isFilledIn_iff`).
* `CommandSchema.LacksArgument`, `CommandSchema.HasData` — the first two steps: there is no data
  because of the argument, or this is the data.
* `TxFraming.Overflows`, `EntitySchema.Overflows`, `EntitySchema.Declines` — the reasons why there
  is no frame.
* `EntitySchema.buildCommand_verdict` — the main theorem.

## Too many bytes

No list of bytes is longer than `CommandSchema.greatestLength`, and asking for a longer one makes
the decoder panic.  Three lists are asked for, one after the other: the data, if the argument stands
beyond the template; what a script is shown, which is header and data; and the frame.  The first one
that would be too long decides, so no checksum is computed of data that cannot be, and no script is
asked about what cannot be shown to it.  An offset is only a number in a description: it does not
take a long list to ask for one.

## The verdict

There are three outcomes of building a command.  It panics, because there would be too many bytes or
because the script does; nothing comes of it, for a reason in `Declines`; or there is a frame, of
which header, data, checksum and footer are known.  Each outcome is described by a condition on the
description, the argument and the script, and not by how far the steps have come.  The conditions
exclude each other and leave nothing out, which is why each of them is stated as an equivalence.

An argument whose end is no offset at all is a case of its own (`not_always_declined`).
-/

set_option autoImplicit false

namespace Fieldbus

/-! ## Arguments in templates

What is meant by filling in is said index by index, and this determines the bytes.  How they are
moved, and that the template may have to be made longer first, does not come up again after
`isFilledIn_iff`. -/

/-- What comes of a template when an argument is put into it at an offset: as many bytes as both of
them take, beside the argument those of the template, and zeros where the template has ended. -/
structure IsFilledIn (template : Bytes) (offset : Nat) (argument data : Bytes) : Prop where
  length : data.length = max template.length (offset + argument.length)
  inside : ∀ i < argument.length, data[offset + i]? = argument[i]?
  beside : ∀ i < data.length, i < offset ∨ offset + argument.length ≤ i →
    data[i]? = some (template[i]?.getD 0)

section

variable {template argument data : Bytes} {offset : Nat}

/-- The bytes of the argument and those beside it are all the bytes there are. -/
theorem IsFilledIn.unique (h : IsFilledIn template offset argument data) {other : Bytes}
    (hother : IsFilledIn template offset argument other) : data = other := by
  have hlength : data.length = other.length := h.length.trans hother.length.symm
  refine List.ext_getElem? fun i => ?_
  by_cases hi : i < data.length
  · by_cases hbeside : i < offset ∨ offset + argument.length ≤ i
    · rw [h.beside i hi hbeside, hother.beside i (hlength ▸ hi) hbeside]
    · obtain ⟨j, rfl⟩ := Nat.exists_eq_add_of_le (show offset ≤ i by omega)
      rw [h.inside j (by omega), hother.inside j (by omega)]
  · rw [List.getElem?_eq_none (by omega), List.getElem?_eq_none (by omega)]

theorem length_overwrite (template : Bytes) (offset : Nat) (argument : Bytes) :
    (overwrite template offset argument).length =
      max template.length (offset + argument.length) := by
  simp only [overwrite, List.length_append, List.length_take, List.length_replicate,
    List.length_drop]
  omega

/-- Up to the offset stands the template, filled up with zeros. -/
theorem getElem?_overwrite (template : Bytes) (offset : Nat) (argument : Bytes) (i : Nat) :
    (overwrite template offset argument)[i]? =
      if i < offset then some (template[i]?.getD 0)
      else if i < offset + argument.length then argument[i - offset]?
      else template[i]? := by
  have hfront : (template.take offset ++ List.replicate (offset - template.length) 0).length =
      offset := by
    simp only [List.length_append, List.length_take, List.length_replicate]
    omega
  rw [overwrite, List.append_assoc _ argument, List.getElem?_append, hfront]
  by_cases hbefore : i < offset
  · rw [if_pos hbefore, if_pos hbefore, List.getElem?_append, List.length_take]
    by_cases hi : i < template.length
    · rw [if_pos (by omega), List.getElem?_take_of_lt hbefore, List.getElem?_eq_getElem hi,
        Option.getD_some]
    · rw [if_neg (by omega), List.getElem?_replicate, if_pos (by omega),
        List.getElem?_eq_none (by omega), Option.getD_none]
  · rw [if_neg hbefore, if_neg hbefore, List.getElem?_append]
    by_cases hin : i < offset + argument.length
    · rw [if_pos (by omega), if_pos hin]
    · rw [if_neg (by omega), if_neg hin, List.getElem?_drop]
      congr 1
      omega

theorem isFilledIn_overwrite (template : Bytes) (offset : Nat) (argument : Bytes) :
    IsFilledIn template offset argument (overwrite template offset argument) where
  length := length_overwrite template offset argument
  inside i hi := by
    rw [getElem?_overwrite, if_neg (by omega), if_pos (by omega), Nat.add_sub_cancel_left]
  beside i hi hbeside := by
    rw [length_overwrite] at hi
    rw [getElem?_overwrite]
    by_cases hbefore : i < offset
    · rw [if_pos hbefore]
    · have hin : i < template.length := by omega
      rw [if_neg hbefore, if_neg (by omega), List.getElem?_eq_getElem hin, Option.getD_some]

/-- **Filling in an argument is overwriting the template.** -/
theorem isFilledIn_iff :
    IsFilledIn template offset argument data ↔ data = overwrite template offset argument :=
  ⟨fun h => h.unique (isFilledIn_overwrite template offset argument),
    fun h => h ▸ isFilledIn_overwrite template offset argument⟩

end

/-! ## The data of a command

The program first looks whether the end of the argument is too far behind, and only then fills it
in.  The length of the data can be told in advance, so that this is a question about the data that
there would be. -/

namespace CommandSchema

/-- The place of the argument in the data. -/
def argumentOffset (c : CommandSchema) : Nat := c.valueOffset.getD c.data.length

/-- The bytes of the argument, if the command takes one and one is given. -/
def argument? (c : CommandSchema) (value : Option Value) : Option Bytes :=
  c.value.bind fun encoding => value.map encoding.encode

/-- The command takes an argument, but none is given, or one that has no bytes. -/
def LacksArgument (c : CommandSchema) (value : Option Value) : Prop :=
  c.value.isSome ∧ ∀ argument ∈ c.argument? value, argument = []

/-- The data of a command: the template as it is, if the command takes no argument, else with the
bytes of the argument filled in. -/
inductive HasData (c : CommandSchema) (value : Option Value) : Bytes → Prop
  | plain (htakes : c.value = none) : HasData c value c.data
  | filled {argument data : Bytes} (hargument : c.argument? value = some argument)
      (hbytes : argument ≠ []) (hfilled : IsFilledIn c.data c.argumentOffset argument data) :
      HasData c value data

/-- More bytes than there can be, because of the place of the argument. -/
def IsTooLong (c : CommandSchema) (data : Bytes) : Prop :=
  c.data.length < data.length ∧ greatestLength < data.length

instance (c : CommandSchema) (data : Bytes) : Decidable (c.IsTooLong data) :=
  inferInstanceAs (Decidable (_ ∧ _))

variable {c : CommandSchema} {value : Option Value} {data : Bytes}

theorem HasData.not_lacksArgument (h : c.HasData value data) : ¬c.LacksArgument value := by
  rintro ⟨htakes, hnone⟩
  cases h with
  | plain hplain => simp [hplain] at htakes
  | filled hargument hbytes hfilled => exact hbytes (hnone _ hargument)

/-- A command has one data at most. -/
theorem HasData.unique (h : c.HasData value data) {other : Bytes}
    (hother : c.HasData value other) : data = other := by
  cases h with
  | plain htakes =>
    cases hother with
    | plain => rfl
    | filled hargument => simp [argument?, htakes] at hargument
  | filled hargument _ hfilled =>
    cases hother with
    | plain htakes => simp [argument?, htakes] at hargument
    | filled hargument' _ hfilled' =>
      obtain rfl := Option.some.inj (hargument.symm.trans hargument')
      exact hfilled.unique hfilled'

/-- An argument whose end is an offset is refused where the data would be too long. -/
theorem overrun?_eq {argument : Bytes} (hfilled : IsFilledIn c.data c.argumentOffset argument data)
    (hend : c.argumentOffset + argument.length < 2 ^ 64) :
    c.overrun? (c.argumentOffset + argument.length) =
      if c.IsTooLong data then some "capacity overflow" else none := by
  -- beyond the template the data ends with the argument
  have hlong : c.IsTooLong data ↔
      greatestLength < c.argumentOffset + argument.length ∧
        c.data.length < c.argumentOffset + argument.length := by
    rw [IsTooLong, hfilled.length]
    omega
  rw [overrun?, if_neg (by rw [Json.sizeLimit]; omega)]
  simp only [hlong]

theorem argument?_eq_some_iff {argument : Bytes} :
    c.argument? value = some argument ↔
      ∃ encoding v, c.value = some encoding ∧ value = some v ∧ encoding.encode v = argument := by
  simp [argument?, Option.bind_eq_some_iff]

theorem dataFor_of_argument {argument : Bytes} (hargument : c.argument? value = some argument)
    (hbytes : argument ≠ []) :
    c.dataFor value =
      match c.overrun? (c.argumentOffset + argument.length) with
      | some text => .panicked (some text)
      | none => .returned (some (overwrite c.data c.argumentOffset argument)) := by
  obtain ⟨encoding, v, htakes, rfl, rfl⟩ := argument?_eq_some_iff.1 hargument
  unfold dataFor
  rw [htakes]
  exact if_neg (mt List.isEmpty_iff.1 hbytes)

theorem dataFor_of_lacksArgument (h : c.LacksArgument value) :
    c.dataFor value = .returned none := by
  obtain ⟨htakes, hnone⟩ := h
  obtain ⟨encoding, htakes⟩ := Option.isSome_iff_exists.1 htakes
  cases value with
  | none => simp only [dataFor, htakes]
  | some v =>
    have hempty := hnone _ (argument?_eq_some_iff.2 ⟨encoding, v, htakes, rfl, rfl⟩)
    simp [dataFor, htakes, hempty]

/-- **What comes of the template and the argument**, if the end of the argument is an offset at all:
the data, unless it would be too long. -/
theorem HasData.dataFor_eq (h : c.HasData value data)
    (hend : ∀ argument ∈ c.argument? value, c.argumentOffset + argument.length < 2 ^ 64) :
    c.dataFor value =
      if c.IsTooLong data then .panicked (some "capacity overflow") else .returned (some data) := by
  cases h with
  | plain htakes =>
    have hlong : ¬c.IsTooLong c.data := fun h => Nat.lt_irrefl _ h.1
    simp only [dataFor, htakes, if_neg hlong]
  | filled hargument hbytes hfilled =>
    rw [dataFor_of_argument hargument hbytes, overrun?_eq hfilled (hend _ hargument),
      ← isFilledIn_iff.1 hfilled]
    by_cases hlong : c.IsTooLong data
    · rw [if_pos hlong, if_pos hlong]
    · rw [if_neg hlong, if_neg hlong]

/-- There is data, if the argument is not lacking. -/
theorem lacksArgument_or_exists_hasData (c : CommandSchema) (value : Option Value) :
    c.LacksArgument value ∨ ∃ data, c.HasData value data := by
  by_cases htakes : c.value = none
  · exact .inr ⟨c.data, .plain htakes⟩
  · by_cases hargument : ∃ argument, c.argument? value = some argument ∧ argument ≠ []
    · obtain ⟨argument, hargument, hbytes⟩ := hargument
      exact .inr ⟨_, .filled hargument hbytes (isFilledIn_overwrite _ _ _)⟩
    · refine .inl ⟨Option.isSome_iff_ne_none.2 htakes, fun argument hmem => ?_⟩
      exact Decidable.not_not.1 fun hbytes => hargument ⟨argument, hmem, hbytes⟩

end CommandSchema

/-! ## Wrapping

The parts of a frame may each be short enough and the frame still too long.  A script sees header
and data before there is a frame, so it is not asked at all where these two are too long already. -/

/-- Around this data more bytes would be needed in one list than there can be: for what a script is
shown, or for the frame. -/
def TxFraming.Overflows (tx : TxFraming) (snapshot : Option Json) (data : Bytes) : Prop :=
  (tx.checksum.isScript = true ∧ CommandSchema.greatestLength < (tx.header ++ data).length) ∨
    ∃ check, tx.checksum.compute tx.header data snapshot = .ok check ∧
      CommandSchema.greatestLength < (tx.header ++ data ++ check ++ tx.footer).length

/-- A script is shown a part of the frame, so if there is a checksum, only the frame matters. -/
theorem TxFraming.overflows_iff_of_compute {tx : TxFraming} {snapshot : Option Json}
    {data check : Bytes} (hcheck : tx.checksum.compute tx.header data snapshot = .ok check) :
    tx.Overflows snapshot data ↔
      CommandSchema.greatestLength < (tx.header ++ data ++ check ++ tx.footer).length := by
  constructor
  · rintro (⟨-, hlong⟩ | ⟨check', hcheck', hlong⟩)
    · simp only [List.length_append] at hlong ⊢
      omega
    · obtain rfl : check = check' := Except.ok.inj (hcheck.symm.trans hcheck')
      exact hlong
  · exact fun hlong => .inr ⟨check, hcheck, hlong⟩

namespace EntitySchema

variable {tx : TxFraming} {snapshot : Option Json} {data : Bytes}

/-- Data around which too much would be needed is not wrapped, whatever the checksum. -/
theorem wrap_of_overflows (h : tx.Overflows snapshot data) :
    wrap tx snapshot data = .panicked (some "capacity overflow") := by
  rw [wrap]
  split
  · rfl
  · rename_i hshown
    rw [← List.length_append] at hshown
    obtain ⟨check, hcheck, hlong⟩ := h.resolve_left hshown
    simp only [TxFraming.frame, hcheck, if_pos hlong]

section

variable (hroom : ¬tx.Overflows snapshot data)
include hroom

/-- Any other data is wrapped, unless there is no checksum. -/
theorem wrap_of_not_overflows :
    wrap tx snapshot data =
      match tx.checksum.compute tx.header data snapshot with
      | .ok check => .returned (some (tx.header ++ data ++ check ++ tx.footer))
      | .error (.crashed text) => .panicked (some text)
      | .error _ => .returned none := by
  have hshown : ¬(tx.checksum.isScript = true ∧
      CommandSchema.greatestLength < tx.header.length + data.length) := by
    rw [← List.length_append]
    exact fun h => hroom (.inl h)
  rw [wrap, if_neg hshown, TxFraming.frame]
  cases hcheck : tx.checksum.compute tx.header data snapshot with
  | ok check => exact if_neg (mt (TxFraming.overflows_iff_of_compute hcheck).2 hroom)
  | error error => cases error <;> rfl

theorem wrap_eq_some_iff {frame : Bytes} :
    wrap tx snapshot data = .returned (some frame) ↔
      ∃ check, tx.checksum.compute tx.header data snapshot = .ok check ∧
        frame = tx.header ++ data ++ check ++ tx.footer := by
  rw [wrap_of_not_overflows hroom]
  cases tx.checksum.compute tx.header data snapshot with
  | ok check => simp [eq_comm]
  | error error => cases error <;> simp

theorem wrap_eq_none_iff :
    wrap tx snapshot data = .returned none ↔
      ∃ error, tx.checksum.compute tx.header data snapshot = .error error ∧
        ∀ text, error ≠ .crashed text := by
  rw [wrap_of_not_overflows hroom]
  cases tx.checksum.compute tx.header data snapshot with
  | ok check => simp
  | error error => cases error <;> simp

theorem wrap_eq_panicked_iff {text : Option String} :
    wrap tx snapshot data = .panicked text ↔
      ∃ cause, tx.checksum.compute tx.header data snapshot = .error (.crashed cause) ∧
        text = some cause := by
  rw [wrap_of_not_overflows hroom]
  cases tx.checksum.compute tx.header data snapshot with
  | ok check => simp
  | error error => cases error <;> simp [eq_comm]

end

/-! ## Commands -/

/-- The command has data, but it is too long itself, or there is no room for what is to be made of
it. -/
def Overflows (schema : EntitySchema) (tx : TxFraming) (command : String) (value : Option Value)
    (snapshot : Option Json) : Prop :=
  ∃ c data, KeyMap.find? schema.commands command = some c ∧ c.HasData value data ∧
    (c.IsTooLong data ∨ tx.Overflows snapshot data)

/-- Why a command has no frame: the entity does not have the command; the command lacks its
argument; or the checksum over its data cannot be computed. -/
inductive Declines (schema : EntitySchema) (tx : TxFraming) (command : String)
    (value : Option Value) (snapshot : Option Json) : Prop
  | undeclared (hcommand : KeyMap.find? schema.commands command = none)
  | lacking {c : CommandSchema} (hcommand : KeyMap.find? schema.commands command = some c)
      (hlacks : c.LacksArgument value)
  | uncomputable {c : CommandSchema} {data : Bytes} {error : ChecksumError}
      (hcommand : KeyMap.find? schema.commands command = some c) (hdata : c.HasData value data)
      (herror : tx.checksum.compute tx.header data snapshot = .error error)
      (hcrash : ∀ text, error ≠ .crashed text)

variable {schema : EntitySchema} {command : String} {value : Option Value}

/-- A command without data is declined, and a command with data is wrapped unless there would be too
much of it. -/
theorem build_cases (tx : TxFraming) (snapshot : Option Json)
    (hend : ∀ c, KeyMap.find? schema.commands command = some c →
      ∀ argument ∈ c.argument? value, c.argumentOffset + argument.length < 2 ^ 64) :
    (schema.build tx command value snapshot = .returned none ∧
        schema.Declines tx command value snapshot ∧
        ∀ c data, KeyMap.find? schema.commands command = some c → ¬c.HasData value data) ∨
      ∃ c data, KeyMap.find? schema.commands command = some c ∧ c.HasData value data ∧
        schema.build tx command value snapshot =
          if c.IsTooLong data then .panicked (some "capacity overflow")
          else wrap tx snapshot data := by
  cases hcommand : KeyMap.find? schema.commands command with
  | none =>
    refine .inl ⟨by simp only [build, hcommand], .undeclared hcommand, ?_⟩
    intro c data hsome
    cases hsome
  | some c =>
    rcases c.lacksArgument_or_exists_hasData value with hlacks | ⟨data, hdata⟩
    · refine .inl ⟨by simp only [build, hcommand, CommandSchema.dataFor_of_lacksArgument hlacks],
        .lacking hcommand hlacks, ?_⟩
      rintro c data ⟨⟩ hdata
      exact hdata.not_lacksArgument hlacks
    · refine .inr ⟨c, data, rfl, hdata, ?_⟩
      simp only [build, hcommand, hdata.dataFor_eq (hend c hcommand)]
      by_cases hlong : c.IsTooLong data
      · simp only [if_pos hlong]
      · simp only [if_neg hlong]

/-- There is only one command of a name, and one data of it. -/
theorem exists_hasData_iff {c : CommandSchema} {data : Bytes}
    (hcommand : KeyMap.find? schema.commands command = some c) (hdata : c.HasData value data)
    {p : CommandSchema → Bytes → Prop} :
    (∃ c data, KeyMap.find? schema.commands command = some c ∧ c.HasData value data ∧ p c data) ↔
      p c data := by
  refine ⟨?_, fun h => ⟨c, data, hcommand, hdata, h⟩⟩
  rintro ⟨c', data', hcommand', hdata', h⟩
  obtain rfl := Option.some.inj (hcommand.symm.trans hcommand')
  rwa [hdata.unique hdata']

theorem overflows_iff {c : CommandSchema} {data : Bytes}
    (hcommand : KeyMap.find? schema.commands command = some c) (hdata : c.HasData value data) :
    schema.Overflows tx command value snapshot ↔ c.IsTooLong data ∨ tx.Overflows snapshot data :=
  exists_hasData_iff hcommand hdata
    (p := fun c data => c.IsTooLong data ∨ tx.Overflows snapshot data)

theorem Declines.exists_error {c : CommandSchema} {data : Bytes}
    (hcommand : KeyMap.find? schema.commands command = some c) (hdata : c.HasData value data)
    (h : schema.Declines tx command value snapshot) :
    ∃ error, tx.checksum.compute tx.header data snapshot = .error error ∧
      ∀ text, error ≠ .crashed text := by
  cases h with
  | undeclared hnone =>
    rw [hcommand] at hnone
    cases hnone
  | lacking hcommand' hlacks =>
    obtain rfl := Option.some.inj (hcommand.symm.trans hcommand')
    exact absurd hlacks hdata.not_lacksArgument
  | uncomputable hcommand' hdata' herror hcrash =>
    obtain rfl := Option.some.inj (hcommand.symm.trans hcommand')
    rw [hdata.unique hdata']
    exact ⟨_, herror, hcrash⟩

section

variable
  (hend : ∀ c, KeyMap.find? schema.commands command = some c →
    ∀ argument ∈ c.argument? value, c.argumentOffset + argument.length < 2 ^ 64)
include hend

theorem build_of_overflows (h : schema.Overflows tx command value snapshot) :
    schema.build tx command value snapshot = .panicked (some "capacity overflow") := by
  rcases build_cases tx snapshot hend with ⟨-, -, hno⟩ | ⟨c, data, hcommand, hdata, hbuild⟩
  · obtain ⟨c, data, hcommand, hdata, -⟩ := h
    exact absurd hdata (hno c data hcommand)
  · rw [hbuild]
    rcases (overflows_iff hcommand hdata).1 h with hlong | hroom
    · rw [if_pos hlong]
    · rw [wrap_of_overflows hroom, ite_self]

variable (hfits : ¬schema.Overflows tx command value snapshot)
include hfits

/-- A command is declined for want of data, or there is room for its data and for the frame around
it. -/
theorem build_of_not_overflows :
    (schema.build tx command value snapshot = .returned none ∧
        schema.Declines tx command value snapshot ∧
        ∀ c data, KeyMap.find? schema.commands command = some c → ¬c.HasData value data) ∨
      ∃ c data, KeyMap.find? schema.commands command = some c ∧ c.HasData value data ∧
        ¬tx.Overflows snapshot data ∧
        schema.build tx command value snapshot = wrap tx snapshot data := by
  refine (build_cases tx snapshot hend).imp_right ?_
  rintro ⟨c, data, hcommand, hdata, hbuild⟩
  have hroom := mt (overflows_iff hcommand hdata).2 hfits
  rw [if_neg fun hlong => hroom (.inl hlong)] at hbuild
  exact ⟨c, data, hcommand, hdata, fun hframe => hroom (.inr hframe), hbuild⟩

theorem build_eq_none_iff :
    schema.build tx command value snapshot = .returned none ↔
      schema.Declines tx command value snapshot := by
  rcases build_of_not_overflows hend hfits with
    ⟨hnone, hdeclines, -⟩ | ⟨c, data, hcommand, hdata, hroom, hbuild⟩
  · exact iff_of_true hnone hdeclines
  · rw [hbuild, wrap_eq_none_iff hroom]
    refine ⟨?_, fun h => h.exists_error hcommand hdata⟩
    rintro ⟨error, herror, hcrash⟩
    exact .uncomputable hcommand hdata herror hcrash

theorem build_eq_some_iff {frame : Bytes} :
    schema.build tx command value snapshot = .returned (some frame) ↔
      ∃ c data, KeyMap.find? schema.commands command = some c ∧ c.HasData value data ∧
        ∃ check, tx.checksum.compute tx.header data snapshot = .ok check ∧
          frame = tx.header ++ data ++ check ++ tx.footer := by
  rcases build_of_not_overflows hend hfits with
    ⟨hnone, -, hno⟩ | ⟨c, data, hcommand, hdata, hroom, hbuild⟩
  · refine iff_of_false (by simp [hnone]) ?_
    rintro ⟨c, data, hcommand, hdata, -⟩
    exact hno c data hcommand hdata
  · rw [hbuild, wrap_eq_some_iff hroom, exists_hasData_iff hcommand hdata]

theorem build_eq_panicked_iff {text : Option String} :
    schema.build tx command value snapshot = .panicked text ↔
      ∃ c data, KeyMap.find? schema.commands command = some c ∧ c.HasData value data ∧
        ∃ cause, tx.checksum.compute tx.header data snapshot = .error (.crashed cause) ∧
          text = some cause := by
  rcases build_of_not_overflows hend hfits with
    ⟨hnone, -, hno⟩ | ⟨c, data, hcommand, hdata, hroom, hbuild⟩
  · refine iff_of_false (by simp [hnone]) ?_
    rintro ⟨c, data, hcommand, hdata, -⟩
    exact hno c data hcommand hdata
  · rw [hbuild, wrap_eq_panicked_iff hroom, exists_hasData_iff hcommand hdata]

end

/-- **Commands are built exactly.**  Let the argument of a command, if it takes one, end at an
offset.  If the data, or what a script is shown of it, or the frame would be longer than any list of
bytes, the decoder panics.  Otherwise there is no frame if and only if the entity does not have the
command, or the command lacks its argument, or the checksum cannot be computed; the frame, where
there is one, is the data with the header in front of it, and the checksum of both and the footer
behind it; and nothing but a crash of the script makes the decoder panic. -/
theorem buildCommand_verdict {decoder : Decoder} (hresolve : schema.resolve tx = .ok decoder)
    (command : String) (value : Option Value) (snapshot : Option Json)
    (hend : ∀ c, KeyMap.find? schema.commands command = some c →
      ∀ argument ∈ c.argument? value, c.argumentOffset + argument.length < 2 ^ 64) :
    (schema.Overflows tx command value snapshot →
      decoder.buildCommand command value snapshot = .panicked (some "capacity overflow")) ∧
      (¬schema.Overflows tx command value snapshot →
        (decoder.buildCommand command value snapshot = .returned none ↔
          schema.Declines tx command value snapshot) ∧
        (∀ frame, decoder.buildCommand command value snapshot = .returned (some frame) ↔
          ∃ c data, KeyMap.find? schema.commands command = some c ∧ c.HasData value data ∧
            ∃ check, tx.checksum.compute tx.header data snapshot = .ok check ∧
              frame = tx.header ++ data ++ check ++ tx.footer) ∧
        ∀ text, decoder.buildCommand command value snapshot = .panicked text ↔
          ∃ c data, KeyMap.find? schema.commands command = some c ∧ c.HasData value data ∧
            ∃ cause, tx.checksum.compute tx.header data snapshot = .error (.crashed cause) ∧
              text = some cause) := by
  obtain rfl := eq_decoder_of_resolve hresolve
  exact ⟨build_of_overflows hend, fun hfits => ⟨build_eq_none_iff hend hfits,
    fun _ => build_eq_some_iff hend hfits, fun _ => build_eq_panicked_iff hend hfits⟩⟩

/-- An argument behind the end of its template: the gap is filled with zeros.  The argument can
stand so far behind that the data is as long as can be, but then no frame has room for it. -/
theorem buildCommand_verdict_of_gap :
    let label : CommandSchema :=
      { data := [0x50, 0x01], value := some { kind := .text }, valueOffset := some 4 }
    let margin : CommandSchema := { label with valueOffset := some 0x7FFFFFFFFFFFFFFE }
    let schema : EntitySchema :=
      { id := "panel", state := { data := [0x40] }
        commands := [("label", label), ("margin", margin)] }
    let tx : TxFraming :=
      { header := [0xF7], footer := [0xEE], checksum := .named .add, delay := 50 }
    let decoder := schema.decoder tx
    schema.resolve tx = .ok decoder ∧
      (label.argument? (some (.text "Hi")) = some [0x48, 0x69] ∧
        label.argumentOffset + 2 < 2 ^ 64 ∧
        ¬schema.Overflows tx "label" (some (.text "Hi")) none ∧
        decoder.buildCommand "label" (some (.text "Hi")) none =
          .returned (some [0xF7, 0x50, 0x01, 0, 0, 0x48, 0x69, 0xF9, 0xEE])) ∧
      margin.argument? (some (.text "x")) = some [0x78] ∧
        margin.argumentOffset + 1 < 2 ^ 64 ∧
        schema.Overflows tx "margin" (some (.text "x")) none ∧
        decoder.buildCommand "margin" (some (.text "x")) none =
          .panicked (some "capacity overflow") := by
  intro label margin schema tx decoder
  have hresolve : schema.resolve tx = .ok decoder := rfl
  refine ⟨hresolve, ?_, ?_⟩
  · have hcommand : KeyMap.find? schema.commands "label" = some label := rfl
    have hargument : label.argument? (some (.text "Hi")) = some [0x48, 0x69] := by decide
    have hend : ∀ c, KeyMap.find? schema.commands "label" = some c →
        ∀ argument ∈ c.argument? (some (.text "Hi")),
          c.argumentOffset + argument.length < 2 ^ 64 := by
      intro c hc argument hmem
      obtain rfl : label = c := Option.some.inj (hcommand.symm.trans hc)
      obtain rfl := Option.some.inj (hargument.symm.trans hmem)
      decide
    have hdata : label.HasData (some (.text "Hi")) [0x50, 0x01, 0, 0, 0x48, 0x69] :=
      .filled hargument (by decide) (isFilledIn_iff.2 rfl)
    have hcheck : tx.checksum.compute tx.header [0x50, 0x01, 0, 0, 0x48, 0x69] none =
        .ok [0xF9] := rfl
    have hfits : ¬schema.Overflows tx "label" (some (.text "Hi")) none := by
      intro h
      rcases (overflows_iff hcommand hdata).1 h with hlong | hroom
      · exact absurd hlong (by decide)
      · exact absurd ((TxFraming.overflows_iff_of_compute hcheck).1 hroom) (by decide)
    obtain ⟨-, hverdict⟩ := buildCommand_verdict hresolve "label" (some (.text "Hi")) none hend
    obtain ⟨-, hframes, -⟩ := hverdict hfits
    exact ⟨hargument, by decide, hfits,
      (hframes _).2 ⟨label, _, hcommand, hdata, [0xF9], hcheck, rfl⟩⟩
  · have hcommand : KeyMap.find? schema.commands "margin" = some margin := rfl
    have hargument : margin.argument? (some (.text "x")) = some [0x78] := by decide
    have hend : ∀ c, KeyMap.find? schema.commands "margin" = some c →
        ∀ argument ∈ c.argument? (some (.text "x")),
          c.argumentOffset + argument.length < 2 ^ 64 := by
      intro c hc argument hmem
      obtain rfl : margin = c := Option.some.inj (hcommand.symm.trans hc)
      obtain rfl := Option.some.inj (hargument.symm.trans hmem)
      decide
    have hoverflows : schema.Overflows tx "margin" (some (.text "x")) none := by
      have hfilled := isFilledIn_overwrite margin.data margin.argumentOffset [0x78]
      refine ⟨margin, _, hcommand, .filled hargument (by decide) hfilled, .inr ?_⟩
      refine (TxFraming.overflows_iff_of_compute rfl).2 ?_
      rw [List.length_append, List.length_append, List.length_append, hfilled.length]
      show 0x7FFFFFFFFFFFFFFF < 1 + 0x7FFFFFFFFFFFFFFF + 1 + 1
      decide
    obtain ⟨hpanics, -⟩ := buildCommand_verdict hresolve "margin" (some (.text "x")) none hend
    exact ⟨hargument, by decide, hoverflows, hpanics hoverflows⟩

/-- No frame is to be built here, because the checksum cannot be computed over any data; but the
argument would end at `2 ^ 63`, and the decoder panics before the checksum is asked for. -/
theorem not_always_declined :
    let label : CommandSchema :=
      { data := [0x01], value := some { kind := .text }, valueOffset := some 0x7FFFFFFFFFFFFFFF }
    let schema : EntitySchema :=
      { id := "panel", state := { data := [0x01] }, commands := [("label", label)] }
    let tx : TxFraming :=
      { header := [], footer := [], delay := 50,
        checksum := .script "const:x" .one fun _ _ => .failed "bad constant" }
    let decoder := schema.decoder tx
    let value : Value := .text "x"
    schema.resolve tx = .ok decoder ∧ label.argument? (some value) = some [0x78] ∧
      label.argumentOffset + 1 < 2 ^ 64 ∧
      ¬(decoder.buildCommand "label" (some value) none = .returned none ↔
        schema.Declines tx "label" (some value) none) := by
  intro label schema tx decoder value
  have hcommand : KeyMap.find? schema.commands "label" = some label := rfl
  have hargument : label.argument? (some value) = some [0x78] := by decide
  have hdeclines : schema.Declines tx "label" (some value) none :=
    .uncomputable hcommand (.filled hargument (by decide) (isFilledIn_overwrite _ _ _)) rfl nofun
  have hbuild : decoder.buildCommand "label" (some value) none =
      .panicked (some "capacity overflow") := rfl
  refine ⟨rfl, hargument, by decide, fun hclaim => ?_⟩
  have hnone := hclaim.2 hdeclines
  rw [hbuild] at hnone
  cases hnone

end EntitySchema
end Fieldbus
