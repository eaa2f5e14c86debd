import Fieldbus.Proofs.Channel.Resolve

/-!
# Which descriptions can be used

`ChannelConfig.resolve` goes through a description step by step.  Here it is said what it looks for,
without a word about the steps: `IsUsable` lists what must be true of a description, and `Refuses`
which of these conditions is the first that is not, and how that is told.

* `Algorithm.IsCalled` — the names of an algorithm.
* `ChecksumSlot` — the setting of a side that counts, with `Resolves` and `Fails`.
* `IsUsable`, `Refuses` — the conditions on a description, and their order.
* `EndsFrames` — what says where a frame ends, of a channel that has been made.
* `resolve_verdict` — the main theorem: the usable descriptions are accepted, the others are refused
  for the first reason there is, and in an accepted one something says where a frame ends.

## Which setting counts

A checksum has a slot of one byte and one of two bytes on either side.  If both are set the one of
two bytes counts, and the other is not even looked at, so it may hold a name that nobody knows.  The
receiving side is resolved before the transmitting one, and both before the bounds and the length
are looked at; this is the order of the reasons.

A name that stands for no checksum at all is allowed in either slot.  It takes no bytes, so a
channel whose frames have neither a length nor a footer cannot be made with it.
-/

set_option autoImplicit false

namespace Fieldbus

/-! ## Steps that may fail

Resolving is a chain of steps.  It succeeds if each of them does, and it fails as the first one that
fails.  These two lemmas take such a chain apart, so that no step need be opened further below. -/

theorem bind_eq_error_iff {ε α β : Type} {x : Except ε α} {f : α → Except ε β} {e : ε} :
    x >>= f = .error e ↔ x = .error e ∨ ∃ a, x = .ok a ∧ f a = .error e := by
  cases x with
  | error e' => simp [bind, Except.bind]
  | ok a => simp [bind, Except.bind]

theorem exists_bind_eq_ok_iff {ε α β : Type} {x : Except ε α} {f : α → Except ε β} :
    (∃ b, x >>= f = .ok b) ↔ ∃ a, x = .ok a ∧ ∃ b, f a = .ok b := by
  cases x with
  | error e => simp [bind, Except.bind]
  | ok a => simp [bind, Except.bind]

/-! ## Names of algorithms -/

namespace Algorithm

/-- The algorithm has this name, or this second name. -/
def IsCalled (a : Algorithm) (name : String) : Prop := a.name = name ∨ (name, a) ∈ aliases

/-- **Each name finds the algorithm that is called by it.** -/
theorem ofName?_eq_some_iff {name : String} {a : Algorithm} :
    ofName? name = some a ↔ a.IsCalled name := by
  refine ⟨fun h => ?_, fun h => ?_⟩
  · obtain ⟨before, after, hsplit, -⟩ := List.lookup_eq_some_iff.1 h
    have hmem : (name, a) ∈ all.map (fun a => (a.name, a)) ++ aliases := by
      rw [hsplit]
      exact List.mem_append_right _ List.mem_cons_self
    rcases List.mem_append.1 hmem with hmem | hmem
    · obtain ⟨a', -, heq⟩ := List.mem_map.1 hmem
      obtain ⟨hname, rfl⟩ := Prod.mk.inj heq
      exact .inl hname
    · exact .inr hmem
  · rcases h with rfl | h
    · cases a <;> decide
    · simp only [aliases, List.mem_cons, Prod.mk.injEq, List.not_mem_nil, or_false] at h
      rcases h with ⟨rfl, rfl⟩ | ⟨rfl, rfl⟩ <;> decide

theorem ofName?_eq_none_iff {name : String} :
    ofName? name = .none ↔ ∀ a : Algorithm, ¬a.IsCalled name := by
  simp only [← ofName?_eq_some_iff, Option.eq_none_iff_forall_ne_some, ne_eq]

/-- `none` has no second name, and shares its name with no other algorithm. -/
theorem IsCalled.eq_none_iff {name : String} {a : Algorithm} (h : a.IsCalled name) :
    name = none.name ↔ a = none := by
  refine ⟨fun hname => ?_, fun hnone => ?_⟩
  · rw [hname] at h
    exact Option.some.inj ((ofName?_eq_some_iff.2 h).symm.trans (by decide))
  · rw [hnone] at h
    exact h.elim Eq.symm fun h => by simp [aliases] at h

/-- Every other algorithm fills the slot it belongs into. -/
theorem length_eq_of_ne_none {a : Algorithm} (h : a ≠ none) : a.length = a.width.bytes := by
  cases a with
  | none => exact absurd rfl h
  | _ => rfl

end Algorithm

/-- A checksum without bytes is none. -/
theorem Checksum.isAbsent_iff (checksum : Checksum) :
    checksum.isAbsent = true ↔ checksum.length = 0 := by
  cases checksum with
  | named a => cases a <;> decide
  | script expression width evaluate => cases width <;> simp [isAbsent, length, ChecksumWidth.bytes]

/-- A checksum takes two bytes at most. -/
theorem Checksum.length_le_two (checksum : Checksum) : checksum.length ≤ 2 := by
  cases checksum with
  | named a => cases a <;> decide
  | script expression width evaluate => cases width <;> simp [length, ChecksumWidth.bytes]

/-! ## Slots

What may be wrong with a slot is listed with a case for each error, and what must be true of it is
stated without any.  That the two exclude each other, and leave nothing out, follows from the two
descriptions of `resolve`. -/

/-- A checksum setting, and the slot in which it stands. -/
structure ChecksumSlot where
  setting : ChecksumSetting
  width : ChecksumWidth

namespace ChecksumSlot

/-- The setting of a side that counts: the one in the slot of two bytes, else the one in the slot
of one byte, if there is any. -/
def ofSide (one two : Option ChecksumSetting) : Option ChecksumSlot :=
  (two.map (⟨·, .two⟩)).or (one.map (⟨·, .one⟩))

/-- A checksum can be made of the slot: an algorithm is called by the name and fits into the slot,
where no checksum fits into either; and a script has somebody to evaluate it. -/
def Resolves (evaluator : Option Evaluator) (slot : ChecksumSlot) : Prop :=
  match slot.setting with
  | .named name => ∃ a : Algorithm, a.IsCalled name ∧ (a = .none ∨ a.width = slot.width)
  | .script _ => evaluator.isSome

/-- What may be wrong with a slot. -/
inductive Fails (evaluator : Option Evaluator) : ChecksumSlot → ConfigError → Prop
  | unknown {name : String} {width : ChecksumWidth} (hname : ∀ a : Algorithm, ¬a.IsCalled name) :
      Fails evaluator ⟨.named name, width⟩ (.unknownChecksum name)
  | misplaced {a : Algorithm} {name : String} {width : ChecksumWidth} (hname : a.IsCalled name)
      (hnone : a ≠ .none) (hwidth : a.width ≠ width) :
      Fails evaluator ⟨.named name, width⟩ (.checksumWidth a.name width.bytes a.width.bytes)
  | unaided {expression : String} {width : ChecksumWidth} (haid : evaluator = none) :
      Fails evaluator ⟨.script expression, width⟩ .missingEvaluator

/-- How many bytes of a frame the checksum of the slot takes. -/
def length (slot : ChecksumSlot) : Nat :=
  if slot.setting = .named Algorithm.none.name then 0 else slot.width.bytes

variable {evaluator : Option Evaluator} {slot : ChecksumSlot}

/-- **What comes of a slot.** -/
theorem exists_resolve_eq_ok_iff :
    (∃ checksum, Checksum.resolve slot.setting slot.width evaluator = .ok checksum) ↔
      slot.Resolves evaluator := by
  obtain ⟨setting, width⟩ := slot
  cases setting with
  | named name =>
    simp only [Checksum.resolve, Resolves, ← Algorithm.ofName?_eq_some_iff]
    cases Algorithm.ofName? name with
    | none => simp
    | some a => by_cases hnone : a = .none <;> by_cases hwidth : a.width = width <;> simp [*]
  | script expression => cases evaluator <;> simp [Checksum.resolve, Resolves]

/-- **What is told of a slot of which nothing comes.** -/
theorem resolve_eq_error_iff {error : ConfigError} :
    Checksum.resolve slot.setting slot.width evaluator = .error error ↔
      slot.Fails evaluator error := by
  obtain ⟨setting, width⟩ := slot
  refine ⟨fun h => ?_, fun h => ?_⟩
  · cases setting with
    | named name =>
      simp only [Checksum.resolve] at h
      split at h
      · rename_i hname
        cases h
        exact .unknown (Algorithm.ofName?_eq_none_iff.1 hname)
      · rename_i a hname
        split at h
        · rename_i hfits
          cases h
          exact .misplaced (Algorithm.ofName?_eq_some_iff.1 hname) hfits.1 hfits.2
        · cases h
    | script expression =>
      cases evaluator with
      | none =>
        cases h
        exact .unaided rfl
      | some evaluate => cases h
  · cases h with
    | unknown hname => simp only [Checksum.resolve, Algorithm.ofName?_eq_none_iff.2 hname]
    | misplaced hname hnone hwidth =>
      simp only [Checksum.resolve, Algorithm.ofName?_eq_some_iff.2 hname]
      exact if_pos ⟨hnone, hwidth⟩
    | unaided haid => rw [haid, Checksum.resolve]

/-- The checksum takes as many bytes as its slot says. -/
theorem length_of_resolve {checksum : Checksum}
    (h : Checksum.resolve slot.setting slot.width evaluator = .ok checksum) :
    checksum.length = slot.length := by
  obtain ⟨setting, width⟩ := slot
  cases setting with
  | named name =>
    simp only [Checksum.resolve] at h
    split at h
    · cases h
    · rename_i a hname
      split at h
      · cases h
      · rename_i hfits
        cases h
        have hcalled := (Algorithm.ofName?_eq_some_iff.1 hname).eq_none_iff
        simp only [length, ChecksumSetting.named.injEq, hcalled]
        split
        · rename_i hnone
          rw [hnone]
          rfl
        · rename_i hnone
          rw [Checksum.length, Algorithm.length_eq_of_ne_none hnone,
            Decidable.not_not.1 fun hwidth => hfits ⟨hnone, hwidth⟩]
  | script expression =>
    cases evaluator with
    | none => cases h
    | some evaluate => cases h; rfl

end ChecksumSlot

/-! ## Sides -/

namespace ChannelConfig

section

variable {one two : Option ChecksumSetting} {evaluator : Option Evaluator}

/-- One slot counts; if none is set, there is no checksum. -/
theorem resolveSide_eq (one two : Option ChecksumSetting) (evaluator : Option Evaluator) :
    resolveSide one two evaluator =
      (ChecksumSlot.ofSide one two).elim (.ok .absent)
        fun slot => Checksum.resolve slot.setting slot.width evaluator := by
  cases two <;> cases one <;> rfl

theorem exists_resolveSide_eq_ok_iff :
    (∃ checksum, resolveSide one two evaluator = .ok checksum) ↔
      ∀ slot ∈ ChecksumSlot.ofSide one two, slot.Resolves evaluator := by
  rw [resolveSide_eq]
  cases ChecksumSlot.ofSide one two with
  | none => simp
  | some slot => simpa using ChecksumSlot.exists_resolve_eq_ok_iff

theorem resolveSide_eq_error_iff {error : ConfigError} :
    resolveSide one two evaluator = .error error ↔
      ∃ slot ∈ ChecksumSlot.ofSide one two, slot.Fails evaluator error := by
  rw [resolveSide_eq]
  cases ChecksumSlot.ofSide one two with
  | none => simp
  | some slot => simpa using ChecksumSlot.resolve_eq_error_iff

theorem length_of_resolveSide {checksum : Checksum}
    (h : resolveSide one two evaluator = .ok checksum) :
    checksum.length = (ChecksumSlot.ofSide one two).elim 0 ChecksumSlot.length := by
  rw [resolveSide_eq] at h
  cases hslot : ChecksumSlot.ofSide one two with
  | none =>
    rw [hslot] at h
    cases h
    rfl
  | some slot =>
    rw [hslot] at h
    exact ChecksumSlot.length_of_resolve h

end

/-! ## Descriptions

The conditions on a description do not mention profiles, only lengths, names and what stands in
which slot.  The order in which they are looked at appears in `Refuses` alone: each case asks for
all the conditions in front of it. -/

/-- The checksum setting of the receiving side that counts. -/
def rxSlot (config : ChannelConfig) : Option ChecksumSlot :=
  ChecksumSlot.ofSide config.rxChecksum config.rxChecksum2

/-- The checksum setting of the transmitting side that counts. -/
def txSlot (config : ChannelConfig) : Option ChecksumSlot :=
  ChecksumSlot.ofSide config.txChecksum config.txChecksum2

/-- How many bytes of a received frame the checksum takes. -/
def rxChecksumLength (config : ChannelConfig) : Nat := config.rxSlot.elim 0 ChecksumSlot.length

/-- The least length of a received frame: header, checksum and footer, and a byte of data. -/
def rxMinimum (config : ChannelConfig) : Nat :=
  config.rxHeader.length + config.rxChecksumLength + config.rxFooter.length + 1

variable (config : ChannelConfig) (evaluator : Option Evaluator)

/-- The bounds on the length of a frame do not exclude each other. -/
def BoundsAgree : Prop :=
  ∀ least ∈ config.rxMinLength, ∀ greatest ∈ config.rxMaxLength, least ≤ greatest

/-- Something says where a received frame ends: a length that is large enough, or without a length
a footer or a checksum. -/
def IsDelimited : Prop :=
  match config.rxLength with
  | some length => config.rxMinimum ≤ length
  | none => config.rxFooter ≠ [] ∨ config.rxChecksumLength ≠ 0

/-- A checksum can be made of the setting of the receiving side, if there is one. -/
def RxResolves : Prop := ∀ slot ∈ config.rxSlot, slot.Resolves evaluator

/-- A checksum can be made of the setting of the transmitting side, if there is one. -/
def TxResolves : Prop := ∀ slot ∈ config.txSlot, slot.Resolves evaluator

/-- A description of which a channel can be made. -/
structure IsUsable : Prop where
  rx : config.RxResolves evaluator
  tx : config.TxResolves evaluator
  bounds : config.BoundsAgree
  delimited : config.IsDelimited

/-- The first of these conditions that does not hold, and how that is told. -/
inductive Refuses : ConfigError → Prop
  | rx {slot : ChecksumSlot} {error : ConfigError} (hslot : slot ∈ config.rxSlot)
      (hfails : slot.Fails evaluator error) : Refuses error
  | tx (hrx : config.RxResolves evaluator) {slot : ChecksumSlot} {error : ConfigError}
      (hslot : slot ∈ config.txSlot) (hfails : slot.Fails evaluator error) : Refuses error
  | bounds (hrx : config.RxResolves evaluator) (htx : config.TxResolves evaluator)
      {least greatest : Nat} (hleast : config.rxMinLength = some least)
      (hgreatest : config.rxMaxLength = some greatest) (hlt : greatest < least) :
      Refuses (.invalidBounds least greatest)
  | tooShort (hrx : config.RxResolves evaluator) (htx : config.TxResolves evaluator)
      (hbounds : config.BoundsAgree) {length : Nat} (hlength : config.rxLength = some length)
      (hlt : length < config.rxMinimum) : Refuses (.lengthTooSmall length config.rxMinimum)
  | endless (hrx : config.RxResolves evaluator) (htx : config.TxResolves evaluator)
      (hbounds : config.BoundsAgree) (hlength : config.rxLength = none)
      (hfooter : config.rxFooter = []) (hchecksum : config.rxChecksumLength = 0) :
      Refuses .unframeable

/-- What says where a frame ends, the length of every frame being given or not; and that each of
these can say so. -/
inductive EndsFrames (length? : Option Nat) (rx : RxFraming) : Prop
  | fixedLength {length : Nat} (hlength : length? = some length)
      (hdelimiter : rx.delimiter = .fixedLength length) (hroom : rx.overhead < length)
  | footer (hlength : length? = none) (hdelimiter : rx.delimiter = .footer)
      (hfooter : rx.footer ≠ [])
  | checksum (hlength : length? = none) (hdelimiter : rx.delimiter = .checksum)
      (hfooter : rx.footer = [])
      (hchecksum : rx.checksum.length = 1 ∨ rx.checksum.length = 2)

variable {config evaluator}

theorem checkBounds_eq_ok_iff : config.checkBounds = .ok () ↔ config.BoundsAgree := by
  unfold checkBounds BoundsAgree
  cases config.rxMinLength with
  | none => simp
  | some least =>
    cases config.rxMaxLength with
    | none => simp
    | some greatest =>
      by_cases h : greatest < least
      · simp [h]
      · simp [h, Nat.not_lt.mp h]

theorem checkBounds_eq_error_iff {error : ConfigError} :
    config.checkBounds = .error error ↔
      ∃ least greatest, config.rxMinLength = some least ∧ config.rxMaxLength = some greatest ∧
        greatest < least ∧ error = .invalidBounds least greatest := by
  unfold checkBounds
  cases config.rxMinLength with
  | none => simp
  | some least =>
    cases config.rxMaxLength with
    | none => simp
    | some greatest => by_cases h : greatest < least <;> simp [h, eq_comm]

section

variable {checksum : Checksum} (hchecksum : checksum.length = config.rxChecksumLength)
include hchecksum

/-- A length goes before a footer, and a footer before a checksum. -/
theorem delimiter_eq :
    config.delimiter checksum =
      match config.rxLength with
      | some length =>
        if length < config.rxMinimum then .error (.lengthTooSmall length config.rxMinimum)
        else .ok (.fixedLength length)
      | none =>
        if config.rxFooter ≠ [] then .ok .footer
        else if config.rxChecksumLength ≠ 0 then .ok .checksum
        else .error .unframeable := by
  have habsent : checksum.isAbsent = decide (config.rxChecksumLength = 0) := by
    rw [Bool.eq_iff_iff, checksum.isAbsent_iff, hchecksum, decide_eq_true_eq]
  rw [delimiter, hchecksum]
  cases config.rxLength with
  | none => simp [habsent]
  | some length => rfl

theorem exists_delimiter_eq_ok_iff :
    (∃ delimiter, config.delimiter checksum = .ok delimiter) ↔ config.IsDelimited := by
  rw [delimiter_eq hchecksum, IsDelimited]
  cases config.rxLength with
  | none =>
    by_cases hfooter : config.rxFooter = [] <;>
      by_cases hnone : config.rxChecksumLength = 0 <;> simp [hfooter, hnone]
  | some length =>
    by_cases hlt : length < config.rxMinimum
    · simp [hlt]
    · simp [hlt, Nat.not_lt.mp hlt]

theorem delimiter_eq_error_iff {error : ConfigError} :
    config.delimiter checksum = .error error ↔
      (∃ length, config.rxLength = some length ∧ length < config.rxMinimum ∧
          error = .lengthTooSmall length config.rxMinimum) ∨
        config.rxLength = none ∧ config.rxFooter = [] ∧ config.rxChecksumLength = 0 ∧
          error = .unframeable := by
  rw [delimiter_eq hchecksum]
  cases config.rxLength with
  | none =>
    by_cases hfooter : config.rxFooter = [] <;>
      by_cases hnone : config.rxChecksumLength = 0 <;> simp [hfooter, hnone, @eq_comm _ error]
  | some length =>
    by_cases hlt : length < config.rxMinimum <;> simp [hlt, @eq_comm _ error]

end

/-! ## The verdict -/

/-- **A channel can be made of the usable descriptions, and of no others.** -/
theorem exists_resolve_eq_ok_iff :
    (∃ profile, config.resolve evaluator = .ok profile) ↔ config.IsUsable evaluator := by
  unfold resolve
  simp only [exists_bind_eq_ok_iff]
  refine ⟨?_, ?_⟩
  · rintro ⟨rxChecksum, hrx, txChecksum, htx, _, hbounds, delimiter, hdelimiter, -⟩
    exact ⟨exists_resolveSide_eq_ok_iff.1 ⟨rxChecksum, hrx⟩,
      exists_resolveSide_eq_ok_iff.1 ⟨txChecksum, htx⟩, checkBounds_eq_ok_iff.1 hbounds,
      (exists_delimiter_eq_ok_iff (length_of_resolveSide hrx)).1 ⟨delimiter, hdelimiter⟩⟩
  · rintro ⟨hrx, htx, hbounds, hdelimited⟩
    obtain ⟨rxChecksum, hrx⟩ := exists_resolveSide_eq_ok_iff.2 hrx
    obtain ⟨txChecksum, htx⟩ := exists_resolveSide_eq_ok_iff.2 htx
    obtain ⟨delimiter, hdelimiter⟩ :=
      (exists_delimiter_eq_ok_iff (length_of_resolveSide hrx)).2 hdelimited
    exact ⟨rxChecksum, hrx, txChecksum, htx, (), checkBounds_eq_ok_iff.2 hbounds, delimiter,
      hdelimiter, _, rfl⟩

/-- When all else is in order, resolving fails as the search for the end of a frame does. -/
theorem resolve_eq_error_of_delimiter (hrx : config.RxResolves evaluator)
    (htx : config.TxResolves evaluator) (hbounds : config.BoundsAgree) {error : ConfigError}
    (hdelimiter : ∀ checksum : Checksum, checksum.length = config.rxChecksumLength →
      config.delimiter checksum = .error error) : config.resolve evaluator = .error error := by
  obtain ⟨rxChecksum, hrx⟩ := exists_resolveSide_eq_ok_iff.2 hrx
  obtain ⟨txChecksum, htx⟩ := exists_resolveSide_eq_ok_iff.2 htx
  simp only [resolve, bind_eq_error_iff]
  exact .inr ⟨rxChecksum, hrx, .inr ⟨txChecksum, htx, .inr ⟨(), checkBounds_eq_ok_iff.2 hbounds,
    .inl (hdelimiter rxChecksum (length_of_resolveSide hrx))⟩⟩⟩

theorem Refuses.resolve_eq {error : ConfigError} (h : config.Refuses evaluator error) :
    config.resolve evaluator = .error error := by
  cases h with
  | rx hslot hfails =>
    simp only [resolve, bind_eq_error_iff]
    exact .inl (resolveSide_eq_error_iff.2 ⟨_, hslot, hfails⟩)
  | tx hrx hslot hfails =>
    obtain ⟨rxChecksum, hrx⟩ := exists_resolveSide_eq_ok_iff.2 hrx
    simp only [resolve, bind_eq_error_iff]
    exact .inr ⟨rxChecksum, hrx, .inl (resolveSide_eq_error_iff.2 ⟨_, hslot, hfails⟩)⟩
  | bounds hrx htx hleast hgreatest hlt =>
    obtain ⟨rxChecksum, hrx⟩ := exists_resolveSide_eq_ok_iff.2 hrx
    obtain ⟨txChecksum, htx⟩ := exists_resolveSide_eq_ok_iff.2 htx
    have hbounds := checkBounds_eq_error_iff.2 ⟨_, _, hleast, hgreatest, hlt, rfl⟩
    simp only [resolve, bind_eq_error_iff]
    exact .inr ⟨rxChecksum, hrx, .inr ⟨txChecksum, htx, .inl hbounds⟩⟩
  | tooShort hrx htx hbounds hlength hlt =>
    refine resolve_eq_error_of_delimiter hrx htx hbounds fun checksum hchecksum => ?_
    exact (delimiter_eq_error_iff hchecksum).2 (.inl ⟨_, hlength, hlt, rfl⟩)
  | endless hrx htx hbounds hlength hfooter hnone =>
    refine resolve_eq_error_of_delimiter hrx htx hbounds fun checksum hchecksum => ?_
    exact (delimiter_eq_error_iff hchecksum).2 (.inr ⟨hlength, hfooter, hnone, rfl⟩)

theorem refuses_of_resolve_eq_error {error : ConfigError}
    (h : config.resolve evaluator = .error error) : config.Refuses evaluator error := by
  simp only [resolve, bind_eq_error_iff] at h
  rcases h with hrx | ⟨rxChecksum, hrx, h⟩
  · obtain ⟨slot, hslot, hfails⟩ := resolveSide_eq_error_iff.1 hrx
    exact .rx hslot hfails
  have hrxResolves := exists_resolveSide_eq_ok_iff.1 ⟨rxChecksum, hrx⟩
  rcases h with htx | ⟨txChecksum, htx, h⟩
  · obtain ⟨slot, hslot, hfails⟩ := resolveSide_eq_error_iff.1 htx
    exact .tx hrxResolves hslot hfails
  have htxResolves := exists_resolveSide_eq_ok_iff.1 ⟨txChecksum, htx⟩
  rcases h with hbounds | ⟨_, hbounds, h⟩
  · obtain ⟨least, greatest, hleast, hgreatest, hlt, rfl⟩ := checkBounds_eq_error_iff.1 hbounds
    exact .bounds hrxResolves htxResolves hleast hgreatest hlt
  have hagree := checkBounds_eq_ok_iff.1 hbounds
  rcases h with hdelimiter | ⟨delimiter, -, h⟩
  · rcases (delimiter_eq_error_iff (length_of_resolveSide hrx)).1 hdelimiter with
      ⟨length, hlength, hlt, rfl⟩ | ⟨hlength, hfooter, hnone, rfl⟩
    · exact .tooShort hrxResolves htxResolves hagree hlength hlt
    · exact .endless hrxResolves htxResolves hagree hlength hfooter hnone
  · -- the last step makes the channel, and cannot fail
    cases h

/-- **A frame of an accepted description ends somewhere.** -/
theorem endsFrames_of_resolve {profile : ChannelProfile}
    (h : config.resolve evaluator = .ok profile) :
    EndsFrames config.rxLength profile.rx := by
  obtain ⟨hrx, -, -, hdelimiter, -, hfooter⟩ := resolve_eq_ok h
  have hchecksum := length_of_resolveSide hrx
  rw [delimiter_eq hchecksum] at hdelimiter
  cases hlength : config.rxLength with
  | some length =>
    have hfixed : profile.rx.delimiter = .fixedLength length := by
      by_cases hlt : length < config.rxMinimum
      · simp [hlength, hlt] at hdelimiter
      · simpa [hlength, hlt, eq_comm] using hdelimiter
    exact .fixedLength rfl hfixed (overhead_lt_of_resolve h hfixed)
  | none =>
    by_cases hempty : config.rxFooter = []
    · by_cases hnone : config.rxChecksumLength = 0
      · simp [hlength, hempty, hnone] at hdelimiter
      · refine .checksum rfl ?_ (hfooter.trans hempty) ?_
        · simpa [hlength, hempty, hnone, eq_comm] using hdelimiter
        · have hle := profile.rx.checksum.length_le_two
          rw [rxChecksumLength, rxSlot, ← hchecksum] at hnone
          omega
    · refine .footer rfl ?_ (hfooter ▸ hempty)
      simpa [hlength, hempty, eq_comm] using hdelimiter

/-- **Resolving accepts the usable descriptions, and no others.**  A description is accepted if and
only if both of its checksum settings that count resolve, the bounds on the length of a frame agree,
and something says where a frame ends.  Otherwise the first of these conditions that does not hold
is told.  The channel of an accepted description has its header, its footer and a checksum of the
length of the slot that counts, and it ends a frame by the length given, which leaves room for a
byte of data, or without one by a footer that is not empty, or without that by a checksum of one or
two bytes. -/
theorem resolve_verdict (config : ChannelConfig) (evaluator : Option Evaluator) :
    ((∃ profile, config.resolve evaluator = .ok profile) ↔ config.IsUsable evaluator) ∧
      (∀ error, config.resolve evaluator = .error error ↔ config.Refuses evaluator error) ∧
      ∀ profile, config.resolve evaluator = .ok profile →
        profile.rx.header = config.rxHeader ∧ profile.rx.footer = config.rxFooter ∧
          profile.rx.checksum.length = config.rxChecksumLength ∧
          EndsFrames config.rxLength profile.rx := by
  refine ⟨exists_resolve_eq_ok_iff, fun error => ⟨refuses_of_resolve_eq_error, Refuses.resolve_eq⟩,
    fun profile h => ?_⟩
  obtain ⟨hrx, -, -, -, hheader, hfooter⟩ := resolve_eq_ok h
  exact ⟨hheader, hfooter, length_of_resolveSide hrx, endsFrames_of_resolve h⟩

/-- The slot of two bytes counts, so the name in the other one is not even looked up; and `none`
does not say where a frame ends. -/
example :
    (ChannelConfig.resolve
        { rxChecksum := some (.named "nonsense"), rxChecksum2 := some (.named "xor_add") }
        none).toOption.map (·.rx.delimiter) = some .checksum ∧
      (ChannelConfig.resolve { rxChecksum2 := some (.named "none") } none).toOption.isNone := by
  decide

end ChannelConfig
end Fieldbus
