import Fieldbus.Proofs.Json.Codec
import Mathlib.Data.List.Nodup

/-!
# Codecs of records

A record is written as an object with a member for every field, and read field by field.  A table of
`Slot`s says for each field how it is called, how it is written, what it is when it is missing, and
where it stands in the value.  If a reader reads the fields of such a table and puts them together
(`Record.Assembles`), then all that is to be known about the codec of the record follows from the
codecs of the fields: `Codec.record`.

`Record.Restated` says in what other words a record may be written: members that are no fields may
stand in it, and what may be missing need not be there.
-/

set_option autoImplicit false

namespace Fieldbus
namespace Json

/-- The values of the members with the name. -/
def valuesOf (name : String) (members : List (String × Json)) : List Json :=
  (members.filter fun member => member.1 = name).map Prod.snd

section ValuesOf

variable {name name' : String} {value : Json} {front back : List (String × Json)}

theorem valuesOf_insert :
    valuesOf name (front ++ (name, value) :: back) =
      valuesOf name front ++ value :: valuesOf name back := by
  simp [valuesOf]

theorem valuesOf_insert_of_ne (h : name' ≠ name) :
    valuesOf name (front ++ (name', value) :: back) = valuesOf name (front ++ back) := by
  simp [valuesOf, h]

theorem valuesOf_of_absent {members : List (String × Json)} (h : name ∉ members.map Prod.fst) :
    valuesOf name members = [] := by
  rw [valuesOf, List.map_eq_nil_iff, List.filter_eq_nil_iff]
  exact fun member hmember hname =>
    h (of_decide_eq_true hname ▸ List.mem_map_of_mem hmember)

/-- The only member with a name. -/
theorem valuesOf_insert_of_absent (h : name ∉ (front ++ back).map Prod.fst) :
    valuesOf name (front ++ (name, value) :: back) = [value] := by
  rw [List.map_append, List.mem_append, not_or] at h
  rw [valuesOf_insert, valuesOf_of_absent h.1, valuesOf_of_absent h.2]
  rfl

end ValuesOf

/-! ## Slots

A slot is all that the codec of a record needs to know of one field.  What a field is read as
depends on the members with its name: there is one, or none, and then it is what the slot says, or
there are several, and then it is refused. -/

/-- A field of records that hold values of type `α`. -/
structure Slot (α : Type) where
  name : String
  Content : Type
  codec : Codec Content
  /-- What the field is when it is missing, if it may be. -/
  missing : Option Content
  fits_missing : ∀ {c : Content}, missing = some c → codec.Fits c
  get : α → Content

namespace Slot

variable {α β : Type}

/-- A field that has to be present. -/
@[reducible] def required (name : String) (codec : Codec β) (get : α → β) : Slot α where
  name
  Content := β
  codec
  missing := none
  fits_missing h := by cases h
  get

/-- A field with a default. -/
@[reducible] def defaulted (name : String) (default : β) (codec : Codec β)
    (hfits : codec.Fits default) (get : α → β) : Slot α where
  name
  Content := β
  codec
  missing := some default
  fits_missing h := Option.some.inj h ▸ hfits
  get

/-- A field that may be absent or `null`. -/
@[reducible] def optional (name : String) (codec : Codec β) (hnull : codec.NeverNull)
    (get : α → Option β) : Slot α where
  name
  Content := Option β
  codec := codec.optional hnull
  missing := some none
  fits_missing h := by
    obtain rfl := Option.some.inj h
    exact fun b hb => by cases hb
  get

/-- What the field is read as, if the members with its name have these values. -/
def settle (s : Slot α) : List Json → Option s.Content
  | [] => s.missing
  | [value] => s.codec.read value
  | _ => none

/-- What the field is read as, standing first in a record. -/
def find (s : Slot α) : Record → Option s.Content
  | .named members => s.settle (valuesOf s.name members)
  | .listed items => s.settle (items.take 1)

theorem settle_replace (s : Slot α) {value value' : Json} (h : s.codec.Restated value value')
    (front back : List Json) :
    s.settle (front ++ value' :: back) = s.settle (front ++ value :: back) := by
  cases front with
  | nil =>
    cases back with
    | nil => exact s.codec.read_restated h
    | cons => rfl
  | cons _ front => cases front <;> rfl

theorem fits_of_settle {s : Slot α} {values : List Json} {c : s.Content}
    (hsound : ∀ value ∈ values, value.Sound) (h : s.settle values = some c) : s.codec.Fits c := by
  unfold settle at h
  split at h
  · exact s.fits_missing h
  · exact s.codec.fits_of_read (hsound _ List.mem_cons_self) h
  · cases h

end Slot

/-! ## Reading records

Readers of records are written as programs, field after field.  `Assembles` follows such a program
along the table of slots, and notes of the value what each field says of it, until in the end all is
known.  From there on the program is forgotten and the table remains. -/

namespace Record

variable {α : Type}

/-- The record behind its first field. -/
def behind : Record → Record
  | named members => named members
  | listed items => listed items.tail

theorem run_field (s : Slot α) (r : Record) :
    (field s.name s.missing s.codec.read).run r = (s.find r).map fun c => (c, r.behind) := by
  cases r with
  | named members =>
    show field s.name s.missing s.codec.read (named members) = _
    rw [field, Slot.find, valuesOf]
    cases members.filter fun member => member.1 = s.name with
    | nil => rfl
    | cons first rest => cases rest <;> rfl
  | listed items => cases items <;> rfl

theorem run_field_bind (s : Slot α) (next : s.Content → Reader α) (r : Record) :
    (field s.name s.missing s.codec.read >>= next).run r =
      (s.find r).bind fun c => (next c).run r.behind := by
  rw [StateT.run_bind, run_field]
  cases s.find r <;> rfl

/-- The reader reads the fields in the slots and puts together the value of which all this is
known. -/
inductive Assembles : List (Slot α) → Reader α → (α → Prop) → Prop
  | done {a : α} {known : α → Prop} (h : ∀ x, known x ↔ x = a) : Assembles [] (pure a) known
  | field {s : Slot α} {slots : List (Slot α)} {next : s.Content → Reader α} {known : α → Prop}
      (h : ∀ c, Assembles slots (next c) fun x => known x ∧ s.get x = c) :
      Assembles (s :: slots) (Record.field s.name s.missing s.codec.read >>= next) known

/-- The fields of the record are those of the value. -/
def Holds : List (Slot α) → Record → α → Prop
  | [], _, _ => True
  | s :: slots, r, a => s.find r = some (s.get a) ∧ Holds slots r.behind a

/-- The record behind all its fields. -/
def behindAll : List (Slot α) → Record → Record
  | [], r => r
  | _ :: slots, r => behindAll slots r.behind

variable {slots : List (Slot α)} {p : Reader α} {known : α → Prop}

/-- **What is read is what the fields say.** -/
theorem Assembles.run_eq_some (h : Assembles slots p known) {r rest : Record} {a : α} :
    p.run r = some (a, rest) ↔ known a ∧ Holds slots r a ∧ rest = r.behindAll slots := by
  induction h generalizing r with
  | done h =>
    rw [h, Holds, true_and]
    constructor
    · intro hrun
      obtain ⟨ha, hrest⟩ := Prod.mk.inj (Option.some.inj hrun)
      exact ⟨ha.symm, hrest.symm⟩
    · rintro ⟨rfl, rfl⟩
      rfl
  | field h ih =>
    rename_i s slots next known
    rw [run_field_bind, Option.bind_eq_some_iff]
    simp only [ih]
    constructor
    · rintro ⟨c, hfind, ⟨hknown, rfl⟩, hholds, hrest⟩
      exact ⟨hknown, ⟨hfind, hholds⟩, hrest⟩
    · rintro ⟨hknown, ⟨hfind, hholds⟩, hrest⟩
      exact ⟨s.get a, hfind, ⟨hknown, rfl⟩, hholds, hrest⟩

/-- The value that has been read, if the record is used up. -/
def conclude : α × Record → Option α := fun (a, rest) => if rest.isUsedUp then some a else none

theorem read_eq (p : Reader α) (document : Json) :
    read p document = (ofJson? document).bind fun r => (p.run r).bind conclude := rfl

/-- The value of a record put into other words. -/
theorem read_map {β : Type} (f : α → β) (p : Reader α) (document : Json) :
    read (StateT.map f p) document = (read p document).map f := by
  rw [read_eq, read_eq, Option.map_bind]
  congr 1
  funext r
  show ((p.run r).bind fun x => some (f x.1, x.2)).bind conclude =
    ((p.run r).bind conclude).map f
  cases p.run r with
  | none => rfl
  | some x =>
    obtain ⟨a, rest⟩ := x
    show (if rest.isUsedUp then some (f a) else none) =
      (if rest.isUsedUp then some a else none).map f
    split <;> rfl

theorem Assembles.read_eq_some (h : Assembles slots p fun _ => True) {document : Json} {a : α} :
    read p document = some a ↔
      ∃ r, ofJson? document = some r ∧ Holds slots r a ∧ (r.behindAll slots).isUsedUp = true := by
  rw [read_eq, Option.bind_eq_some_iff]
  refine exists_congr fun r => and_congr_right fun _ => ?_
  rw [Option.bind_eq_some_iff]
  constructor
  · rintro ⟨⟨a', rest⟩, hrun, hconclude⟩
    obtain ⟨-, hholds, rfl⟩ := h.run_eq_some.1 hrun
    obtain ⟨hused, ha⟩ := Option.ite_none_right_eq_some.1 hconclude
    obtain rfl := Option.some.inj ha
    exact ⟨hholds, hused⟩
  · rintro ⟨hholds, hused⟩
    exact ⟨(a, _), h.run_eq_some.2 ⟨trivial, hholds, rfl⟩, if_pos hused⟩

/-! ## Writing records -/

/-- The members of the record of a value. -/
def membersOf (slots : List (Slot α)) (a : α) : List (String × Json) :=
  slots.map fun s => (s.name, s.codec.write (s.get a))

@[simp] theorem behindAll_named (slots : List (Slot α)) (members : List (String × Json)) :
    (named members).behindAll slots = named members := by
  induction slots with
  | nil => rfl
  | cons s slots ih => exact ih

theorem holds_named {members : List (String × Json)} {a : α} :
    Holds slots (named members) a ↔
      ∀ s ∈ slots, s.find (named members) = some (s.get a) := by
  induction slots with
  | nil => exact ⟨fun _ s hs => absurd hs List.not_mem_nil, fun _ => trivial⟩
  | cons s slots ih => rw [Holds, List.forall_mem_cons, ← ih]; rfl

/-- Of the members of an object that has been written, every name is one's own. -/
theorem valuesOf_ofList {entries : List (String × Json)} (h : (entries.map Prod.fst).Nodup)
    {name : String} {value : Json} (hmem : (name, value) ∈ entries) :
    valuesOf name (KeyMap.ofList entries) = [value] := by
  rw [valuesOf, (KeyMap.sorted_ofList entries).filter_eq, KeyMap.find?_ofList_of_mem h hmem]
  rfl

/-- **A record that has been written is read.** -/
theorem Assembles.read_write (h : Assembles slots p fun _ => True)
    (hnames : (slots.map Slot.name).Nodup) {a : α}
    (hfits : ∀ s ∈ slots, s.codec.Fits (s.get a)) :
    read p (ofMembers (membersOf slots a)) = some a := by
  have hnodup : ((membersOf slots a).map Prod.fst).Nodup := by
    rw [membersOf, List.map_map]
    exact hnames
  refine h.read_eq_some.2 ⟨_, rfl, holds_named.2 fun s hs => ?_, by rw [behindAll_named]; rfl⟩
  rw [Slot.find, valuesOf_ofList hnodup (List.mem_map_of_mem hs)]
  exact s.codec.read_write (hfits s hs)

theorem sound_ofMembers {a : α} (hfits : ∀ s ∈ slots, s.codec.Fits (s.get a)) :
    (ofMembers (membersOf slots a)).Sound := by
  refine .object fun member hmember => ?_
  obtain ⟨s, hs, rfl⟩ := List.mem_map.1 (KeyMap.mem_of_mem_ofList hmember)
  exact s.codec.sound_write (hfits s hs)

/-! ## What has been read fits -/

/-- The values in the record are sound. -/
def IsSound : Record → Prop
  | named members => ∀ member ∈ members, member.2.Sound
  | listed items => ∀ item ∈ items, item.Sound

theorem isSound_ofJson? {document : Json} {r : Record} (hsound : document.Sound)
    (h : ofJson? document = some r) : r.IsSound := by
  cases document with
  | object members =>
    obtain rfl := Option.some.inj h
    exact hsound.members
  | array items =>
    obtain rfl := Option.some.inj h
    exact hsound.items
  | _ => cases h

theorem IsSound.behind {r : Record} (h : r.IsSound) : r.behind.IsSound := by
  cases r with
  | named members => exact h
  | listed items => exact fun item hitem => h item (List.mem_of_mem_tail hitem)

theorem IsSound.fits_of_find {r : Record} (h : r.IsSound) {s : Slot α} {c : s.Content}
    (hfind : s.find r = some c) : s.codec.Fits c := by
  cases r with
  | named members =>
    refine Slot.fits_of_settle (fun value hvalue => ?_) hfind
    obtain ⟨member, hmember, rfl⟩ := List.mem_map.1 hvalue
    exact h member (List.mem_filter.1 hmember).1
  | listed items =>
    exact Slot.fits_of_settle (fun value hvalue => h value (List.mem_of_mem_take hvalue)) hfind

theorem fits_of_holds {r : Record} (h : r.IsSound) {a : α} (hholds : Holds slots r a) :
    ∀ s ∈ slots, s.codec.Fits (s.get a) := by
  induction slots generalizing r with
  | nil => exact fun s hs => absurd hs List.not_mem_nil
  | cons s slots ih =>
    exact List.forall_mem_cons.2 ⟨h.fits_of_find hholds.1, ih h.behind hholds.2⟩

/-! ## Other words

Two records are read alike if every field of the table is read alike in both.  Each way of saying a
record in other words changes the members of one name at most, and not what the field of that name
is read as. -/

/-- The fields of the two records are the same. -/
def SameFor : List (Slot α) → Record → Record → Prop
  | [], r, r' => r'.isUsedUp = r.isUsedUp
  | s :: slots, r, r' => s.find r' = s.find r ∧ SameFor slots r.behind r'.behind

theorem Assembles.read_congr (h : Assembles slots p known) {r r' : Record}
    (hsame : SameFor slots r r') : (p.run r').bind conclude = (p.run r).bind conclude := by
  induction h generalizing r r' with
  | done h =>
    rename_i a known
    show (if r'.isUsedUp then some a else none) = if r.isUsedUp then some a else none
    rw [show r'.isUsedUp = r.isUsedUp from hsame]
  | field h ih =>
    rename_i s slots next known
    rw [run_field_bind, run_field_bind, hsame.1]
    cases s.find r with
    | none => rfl
    | some c => exact ih c hsame.2

theorem sameFor_named {members members' : List (String × Json)}
    (h : ∀ s ∈ slots, s.find (named members') = s.find (named members)) :
    SameFor slots (named members) (named members') := by
  induction slots with
  | nil => rfl
  | cons s slots ih =>
    obtain ⟨hfirst, hrest⟩ := List.forall_mem_cons.1 h
    exact ⟨hfirst, ih hrest⟩

theorem SameFor.refl (slots : List (Slot α)) (r : Record) : SameFor slots r r := by
  induction slots generalizing r with
  | nil => rfl
  | cons s slots ih => exact ⟨rfl, ih r.behind⟩

/-- Of a listed record one item is said in other words. -/
theorem sameFor_listed {front back : List Json} {item item' : Json}
    (h : ∀ s, slots[front.length]? = some s → s.codec.Restated item item') :
    SameFor slots (listed (front ++ item :: back)) (listed (front ++ item' :: back)) := by
  induction slots generalizing front with
  | nil => cases front <;> rfl
  | cons s slots ih =>
    cases front with
    | nil => exact ⟨s.codec.read_restated (h s rfl), .refl slots _⟩
    | cons first front => exact ⟨rfl, ih fun s' hs' => h s' hs'⟩

/-- The second document is the first one in other words, as a record with these fields. -/
inductive Restated (slots : List (Slot α)) : Json → Json → Prop
  /-- A member that is no field is added. -/
  | added {front back : List (String × Json)} {name : String} {value : Json}
      (hname : name ∉ slots.map Slot.name) :
      Restated slots (object (front ++ back)) (object (front ++ (name, value) :: back))
  /-- A field that is what it would be without being there is left out. -/
  | omitted {front back : List (String × Json)} {s : Slot α} {value : Json} {c : s.Content}
      (hs : s ∈ slots) (hmissing : s.missing = some c) (hvalue : s.codec.read value = some c)
      (hother : s.name ∉ (front ++ back).map Prod.fst) :
      Restated slots (object (front ++ (s.name, value) :: back)) (object (front ++ back))
  /-- An optional field that is missing is written as `null`. -/
  | nulled {front back : List (String × Json)} {s : Slot α} {c : s.Content}
      (hs : s ∈ slots) (hmissing : s.missing = some c) (hnull : s.codec.read null = some c)
      (habsent : s.name ∉ (front ++ back).map Prod.fst) :
      Restated slots (object (front ++ back)) (object (front ++ (s.name, null) :: back))
  /-- The value of a field is said in other words. -/
  | member {front back : List (String × Json)} {s : Slot α} {value value' : Json} (hs : s ∈ slots)
      (h : s.codec.Restated value value') :
      Restated slots (object (front ++ (s.name, value) :: back))
        (object (front ++ (s.name, value') :: back))
  /-- The value of a field is said in other words, and the record is a list. -/
  | item {front back : List Json} {s : Slot α} {value value' : Json}
      (hs : slots[front.length]? = some s) (h : s.codec.Restated value value') :
      Restated slots (array (front ++ value :: back)) (array (front ++ value' :: back))

/-- No two fields have the same name. -/
theorem slot_eq_of_name_eq (hnames : (slots.map Slot.name).Nodup) {s s' : Slot α} (hs : s ∈ slots)
    (hs' : s' ∈ slots) (h : s.name = s'.name) : s = s' :=
  List.inj_on_of_nodup_map hnames hs hs' h

/-- It makes no difference whether a field is there, if it would be the same without. -/
theorem find_insert_missing (hnames : (slots.map Slot.name).Nodup)
    {front back : List (String × Json)} {s : Slot α} {value : Json} {c : s.Content} (hs : s ∈ slots)
    (hmissing : s.missing = some c) (hvalue : s.codec.read value = some c)
    (habsent : s.name ∉ (front ++ back).map Prod.fst) {s' : Slot α} (hs' : s' ∈ slots) :
    s'.find (named (front ++ (s.name, value) :: back)) = s'.find (named (front ++ back)) := by
  by_cases hname : s.name = s'.name
  · obtain rfl := slot_eq_of_name_eq hnames hs hs' hname
    rw [Slot.find, Slot.find, valuesOf_insert_of_absent habsent, valuesOf_of_absent habsent]
    exact hvalue.trans hmissing.symm
  · rw [Slot.find, Slot.find, valuesOf_insert_of_ne hname]

/-- **In other words the same is read.** -/
theorem Assembles.read_restated (h : Assembles slots p known)
    (hnames : (slots.map Slot.name).Nodup) {document document' : Json}
    (hrestated : Restated slots document document') : read p document' = read p document := by
  cases hrestated with
  | added hname =>
    refine h.read_congr (sameFor_named fun s hs => ?_)
    rw [Slot.find, Slot.find, valuesOf_insert_of_ne]
    rintro rfl
    exact hname (List.mem_map_of_mem hs)
  | omitted hs hmissing hvalue hother =>
    exact h.read_congr (sameFor_named fun s' hs' =>
      (find_insert_missing hnames hs hmissing hvalue hother hs').symm)
  | nulled hs hmissing hnull habsent =>
    exact h.read_congr (sameFor_named fun s' hs' =>
      find_insert_missing hnames hs hmissing hnull habsent hs')
  | member hs hvalue =>
    rename_i front back s value value'
    refine h.read_congr (sameFor_named fun s' hs' => ?_)
    by_cases hname : s.name = s'.name
    · obtain rfl := slot_eq_of_name_eq hnames hs hs' hname
      rw [Slot.find, Slot.find, valuesOf_insert, valuesOf_insert, s.settle_replace hvalue]
    · rw [Slot.find, Slot.find, valuesOf_insert_of_ne hname, valuesOf_insert_of_ne hname]
  | item hs hvalue =>
    refine h.read_congr (sameFor_listed fun s' hs' => ?_)
    obtain rfl := Option.some.inj (hs.symm.trans hs')
    exact hvalue

end Record

/-- The codec of a record, if its reader puts the value together from the fields, and if the value
is written field by field. -/
def Codec.record {α : Type} (read : Json → Option α) (write : α → Json) (Fits : α → Prop)
    (slots : List (Slot α)) {p : Record.Reader α} (hread : read = Record.read p)
    (hassembles : Record.Assembles slots p fun _ => True)
    (hwrite : ∀ a, write a = ofMembers (Record.membersOf slots a))
    (hnames : (slots.map Slot.name).Nodup)
    (hfits : ∀ a, Fits a ↔ ∀ s ∈ slots, s.codec.Fits (s.get a)) : Codec α where
  read
  write
  Fits
  Restated := Record.Restated slots
  read_write {a} h := by
    rw [hread, hwrite]
    exact hassembles.read_write hnames ((hfits a).1 h)
  sound_write {a} h := by
    rw [hwrite]
    exact Record.sound_ofMembers ((hfits a).1 h)
  fits_of_read {document a} hsound h := by
    rw [hread] at h
    obtain ⟨r, hr, hholds, -⟩ := hassembles.read_eq_some.1 h
    exact (hfits a).2 (Record.fits_of_holds (Record.isSound_ofJson? hsound hr) hholds)
  read_restated h := by
    rw [hread]
    exact hassembles.read_restated hnames h

end Json
end Fieldbus
