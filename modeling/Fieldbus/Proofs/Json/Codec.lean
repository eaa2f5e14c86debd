import Fieldbus.Json.Record
import Fieldbus.Proofs.Binary64.Whole

/-!
# Writing and reading again

A value that is written down as a document should be read back as it was.  A `Json.Codec` is a way
of writing and reading one kind of values that can be relied on in this: what it writes it reads,
what it reads it can write again, and it does not mind the differences between documents that mean
the same to it.  Which differences these are depends on the kind, `Codec.Restated` says so.

A codec is made of others in the way its documents are.  Here are those of plain values, of lists,
of optional values and of maps; those of records are in `Proofs.Json.Fields`.
-/

set_option autoImplicit false

namespace Fieldbus
namespace Json

/-! ## Documents -/

/-- Every number in the document is one that documents hold. -/
inductive Sound : Json → Prop
  | null : Sound null
  | bool (value : Bool) : Sound (bool value)
  | integer {value : Int} (hleast : JsonNumber.leastInteger ≤ value)
      (hgreatest : value ≤ JsonNumber.greatestInteger) : Sound (number (.integer value))
  | real {value : Binary64} (h : value.isFinite = true) : Sound (number (.real value))
  | string (value : String) : Sound (string value)
  | array {items : List Json} (h : ∀ item ∈ items, Sound item) : Sound (array items)
  | object {members : List (String × Json)} (h : ∀ member ∈ members, Sound member.2) :
      Sound (object members)

theorem sound_nat {n : Nat} (h : n ≤ sizeLimit) : Sound (nat n) := by
  have hlimit : (n : Int) ≤ JsonNumber.greatestInteger := Int.ofNat_le.2 h
  exact .integer (Int.le_trans (by decide) (Int.natCast_nonneg n)) hlimit

theorem Sound.items {items : List Json} (h : Sound (Json.array items)) :
    ∀ item ∈ items, Sound item := by
  cases h with
  | array h => exact h

theorem Sound.members {members : List (String × Json)} (h : Sound (Json.object members)) :
    ∀ member ∈ members, Sound member.2 := by
  cases h with
  | object h => exact h

/-! ## Codecs

A codec has the two functions, and what is known about them.  The values that fit are those that can
be written: a number may be too large for a document, and a map has no name twice.  Which other
words there are is left to each codec, since a number has none and a record has many. -/

/-- A way of writing and reading values that fit. -/
structure Codec (α : Type) where
  read : Json → Option α
  write : α → Json
  Fits : α → Prop
  /-- The second document says the same as the first one in other words. -/
  Restated : Json → Json → Prop
  read_write : ∀ {a : α}, Fits a → read (write a) = some a
  sound_write : ∀ {a : α}, Fits a → (write a).Sound
  fits_of_read : ∀ {document : Json} {a : α}, document.Sound → read document = some a → Fits a
  read_restated : ∀ {document document' : Json}, Restated document document' →
    read document' = read document

namespace Codec

/-- No value is written as `null`. -/
def NeverNull {α : Type} (codec : Codec α) : Prop := ∀ {a : α}, codec.Fits a → codec.write a ≠ null

/-! ### Plain values -/

/-- Natural numbers up to a limit. -/
def natUpTo (limit : Nat) (hlimit : limit ≤ sizeLimit) : Codec Nat where
  read := natUpTo? limit
  write := nat
  Fits n := n ≤ limit
  Restated _ _ := False
  read_write {n} h := by
    have hbounds : 0 ≤ (n : Int) ∧ (n : Int) ≤ limit := ⟨Int.natCast_nonneg n, Int.ofNat_le.2 h⟩
    show (if 0 ≤ (n : Int) ∧ (n : Int) ≤ limit then some (n : Int).toNat else none) = some n
    rw [if_pos hbounds, Int.toNat_natCast]
  sound_write h := sound_nat (Nat.le_trans h hlimit)
  fits_of_read {document n} _ hread := by
    unfold natUpTo? at hread
    split at hread
    · obtain ⟨⟨-, hle⟩, hn⟩ := Option.ite_none_right_eq_some.1 hread
      rw [← Option.some.inj hn]
      omega
    · cases hread
  read_restated h := h.elim

/-- Sizes, offsets and counts. -/
def size : Codec Nat := natUpTo sizeLimit (Nat.le_refl _)

/-- Bytes. -/
def byte : Codec UInt8 where
  read := byte?
  write b := nat b.toNat
  Fits _ := True
  Restated _ _ := False
  read_write {b} _ := by
    have hread := (natUpTo 255 (by decide)).read_write (Nat.le_of_lt_succ b.toNat_lt)
    show (natUpTo? 255 (nat b.toNat)).map UInt8.ofNat = some b
    rw [show natUpTo? 255 (nat b.toNat) = some b.toNat from hread, Option.map_some,
      UInt8.ofNat_toNat]
  sound_write {b} _ := sound_nat (Nat.le_trans (Nat.le_of_lt b.toNat_lt) (by decide))
  fits_of_read _ _ := trivial
  read_restated h := h.elim

/-- Truth values. -/
def bool : Codec Bool where
  read := bool?
  write := Json.bool
  Fits _ := True
  Restated _ _ := False
  read_write _ := rfl
  sound_write _ := .bool _
  fits_of_read _ _ := trivial
  read_restated h := h.elim

/-- Texts. -/
def string : Codec String where
  read := string?
  write := Json.string
  Fits _ := True
  Restated _ _ := False
  read_write _ := rfl
  sound_write _ := .string _
  fits_of_read _ _ := trivial
  read_restated h := h.elim

/-- Names out of a list. -/
def name {α : Type} (names : List (String × α)) (write : α → String)
    (hnames : ∀ a, names.lookup (write a) = some a) : Codec α where
  read := name? names
  write a := .string (write a)
  Fits _ := True
  Restated _ _ := False
  read_write {a} _ := hnames a
  sound_write _ := .string _
  fits_of_read _ _ := trivial
  read_restated h := h.elim

/-- Finite doubles. -/
def real : Codec Binary64 where
  read := real?
  write := Json.real
  Fits x := x.isFinite = true
  Restated _ _ := False
  read_write h := by
    rw [Json.real, if_pos h]
    rfl
  sound_write h := by
    rw [Json.real, if_pos h]
    exact .real h
  fits_of_read {document x} hsound hread := by
    cases hsound with
    | integer hleast hgreatest =>
      rw [← Option.some.inj hread]
      refine Binary64.isFinite_ofInt ?_
      simp only [JsonNumber.leastInteger, JsonNumber.greatestInteger] at hleast hgreatest
      omega
    | real h =>
      rw [← Option.some.inj hread]
      exact h
    | _ => cases hread
  read_restated h := h.elim

end Codec

/-! ### Lists and maps -/

section MapM

variable {α β : Type} {read : β → Option α}

/-- What was written entry by entry is read entry by entry. -/
theorem mapM_write {write : α → β} {values : List α}
    (h : ∀ a ∈ values, read (write a) = some a) : (values.map write).mapM read = some values := by
  induction values with
  | nil => rfl
  | cons a rest ih =>
    obtain ⟨hfirst, hrest⟩ := List.forall_mem_cons.1 h
    rw [List.map_cons, List.mapM_cons, hfirst, ih hrest]
    rfl

/-- Every value was read from an entry. -/
theorem exists_of_mem_mapM {entries : List β} {values : List α}
    (h : entries.mapM read = some values) :
    ∀ a ∈ values, ∃ entry ∈ entries, read entry = some a := by
  induction entries generalizing values with
  | nil =>
    obtain rfl : [] = values := Option.some.inj h
    exact fun a ha => absurd ha List.not_mem_nil
  | cons entry rest ih =>
    rw [List.mapM_cons] at h
    obtain ⟨a, hfirst, h⟩ := Option.bind_eq_some_iff.1 h
    obtain ⟨more, hmore, h⟩ := Option.bind_eq_some_iff.1 h
    obtain rfl : a :: more = values := Option.some.inj h
    refine List.forall_mem_cons.2 ⟨⟨entry, List.mem_cons_self, hfirst⟩, fun b hb => ?_⟩
    obtain ⟨entry', hentry', hread⟩ := ih hmore b hb
    exact ⟨entry', List.mem_cons_of_mem _ hentry', hread⟩

/-- One entry is replaced by another one that reads the same. -/
theorem mapM_replace {entry entry' : β} (h : read entry' = read entry) (front back : List β) :
    (front ++ entry' :: back).mapM read = (front ++ entry :: back).mapM read := by
  rw [List.mapM_append, List.mapM_append, List.mapM_cons, List.mapM_cons, h]

end MapM

namespace Codec

/-- Lists of bytes. -/
def bytes : Codec (List UInt8) where
  read := bytes?
  write := ofBytes
  Fits _ := True
  Restated _ _ := False
  read_write _ := mapM_write fun _ _ => byte.read_write trivial
  sound_write {values} _ := by
    refine .array fun item hitem => ?_
    obtain ⟨b, -, rfl⟩ := List.mem_map.1 hitem
    exact byte.sound_write trivial
  fits_of_read _ _ := trivial
  read_restated h := h.elim

theorem neverNull_size : size.NeverNull := fun _ h => by cases h

theorem neverNull_bytes : bytes.NeverNull := fun _ h => by cases h

theorem neverNull_string : string.NeverNull := fun _ h => by cases h

theorem neverNull_real : real.NeverNull := by
  intro x hfits h
  have hwrite : real.write x = number (.real x) := if_pos hfits
  rw [hwrite] at h
  cases h

variable {α : Type} (codec : Codec α)

/-- A member is read. -/
def readEntry (member : String × Json) : Option (String × α) :=
  (codec.read member.2).map fun a => (member.1, a)

/-- A member is written. -/
def writeEntry (entry : String × α) : String × Json := (entry.1, codec.write entry.2)

theorem map?_object (members : List (String × Json)) :
    map? codec.read (object members) = (members.mapM codec.readEntry).map KeyMap.ofList := rfl

/-- The value of a member is said in other words. -/
inductive MapRestated : Json → Json → Prop
  | member {front back : List (String × Json)} {name : String} {value value' : Json}
      (h : codec.Restated value value') :
      MapRestated (object (front ++ (name, value) :: back))
        (object (front ++ (name, value') :: back))

/-- Maps, whose names are chosen freely. -/
def map : Codec (KeyMap α) where
  read := map? codec.read
  write entries := object (entries.map codec.writeEntry)
  Fits entries := KeyMap.Sorted entries ∧ ∀ entry ∈ entries, codec.Fits entry.2
  Restated := codec.MapRestated
  read_write {entries} h := by
    have hentries : (entries.map codec.writeEntry).mapM codec.readEntry = some entries :=
      mapM_write fun entry hentry => by
        rw [readEntry, writeEntry, codec.read_write (h.2 entry hentry)]
        rfl
    rw [map?_object, hentries, Option.map_some, h.1.ofList_eq]
  sound_write {entries} h := by
    refine .object fun member hmember => ?_
    obtain ⟨entry, hentry, rfl⟩ := List.mem_map.1 hmember
    exact codec.sound_write (h.2 entry hentry)
  fits_of_read {document entries} hsound hread := by
    cases document with
    | object members =>
      rw [map?_object] at hread
      obtain ⟨values, hvalues, rfl⟩ := Option.map_eq_some_iff.1 hread
      refine ⟨KeyMap.sorted_ofList values, fun entry hentry => ?_⟩
      obtain ⟨member, hmember, hvalue⟩ :=
        exists_of_mem_mapM hvalues entry (KeyMap.mem_of_mem_ofList hentry)
      obtain ⟨a, ha, rfl⟩ := Option.map_eq_some_iff.1 hvalue
      exact codec.fits_of_read (hsound.members member hmember) ha
    | _ => cases hread
  read_restated h := by
    cases h with
    | member h =>
      rw [map?_object, map?_object, mapM_replace]
      rw [readEntry, readEntry, codec.read_restated h]

theorem fits_map_nil : codec.map.Fits [] :=
  ⟨.nil, fun _ hentry => absurd hentry List.not_mem_nil⟩

/-! ### Optional values

An optional value is written as itself or as `null`.  So a codec that writes some value as `null`
has no optional one, or else the two could not be told apart. -/

/-- A value that is there is said in other words. -/
inductive OptionalRestated : Json → Json → Prop
  | some {document document' : Json} (hnull : document ≠ null) (hnull' : document' ≠ null)
      (h : codec.Restated document document') : OptionalRestated document document'

theorem optional?_of_ne_null {read : Json → Option α} {document : Json} (h : document ≠ null) :
    optional? read document = (read document).map some := by
  cases document with
  | null => exact absurd rfl h
  | _ => rfl

/-- Optional values, none being written as `null`. -/
def optional (hnull : codec.NeverNull) : Codec (Option α) where
  read := optional? codec.read
  write := ofOption codec.write
  Fits a := ∀ b ∈ a, codec.Fits b
  Restated := codec.OptionalRestated
  read_write {a} h := by
    cases a with
    | none => rfl
    | some b =>
      have hb : codec.Fits b := h b rfl
      show optional? codec.read (codec.write b) = _
      rw [optional?_of_ne_null (hnull hb), codec.read_write hb]
      rfl
  sound_write {a} h := by
    cases a with
    | none => exact .null
    | some b => exact codec.sound_write (h b rfl)
  fits_of_read {document a} hsound hread := by
    rintro b rfl
    by_cases hdocument : document = null
    · subst hdocument
      cases hread
    · rw [optional?_of_ne_null hdocument] at hread
      obtain ⟨b', hvalue, hb'⟩ := Option.map_eq_some_iff.1 hread
      obtain rfl := Option.some.inj hb'
      exact codec.fits_of_read hsound hvalue
  read_restated h := by
    cases h with
    | some hnull hnull' h =>
      rw [optional?_of_ne_null hnull, optional?_of_ne_null hnull', codec.read_restated h]

end Codec
end Json
end Fieldbus
