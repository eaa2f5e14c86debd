/-!
# Maps ordered by name

Fields, flags, commands, channels and the members of a document are named, and whatever is listed
is listed in the order of the names.  A `KeyMap` is the list itself, kept sorted: equality of maps
is equality of lists, and printing a map in order needs no further step.

`find?_insert_self` and `find?_insert_of_ne` say what an insertion does to every look-up, for any
list of entries; `Sorted.insert` keeps the order.
-/

set_option autoImplicit false

namespace Fieldbus

/-- Entries in increasing order of their names. -/
abbrev KeyMap (α : Type) := List (String × α)

namespace KeyMap

variable {α : Type}

/-- The map with the entry for `k` set to `v`. -/
def insert (k : String) (v : α) : List (String × α) → List (String × α)
  | [] => [(k, v)]
  | (k', v') :: rest =>
    if k = k' then (k, v) :: rest
    else if k < k' then (k, v) :: (k', v') :: rest
    else (k', v') :: insert k v rest

/-- The value stored under a name. -/
def find? (m : List (String × α)) (k : String) : Option α := m.lookup k

/-- Is there an entry under this name? -/
def contains (m : List (String × α)) (k : String) : Bool := (find? m k).isSome

/-- The map with all entries of `updates` set, from left to right. -/
def merge (m updates : List (String × α)) : List (String × α) :=
  updates.foldl (fun acc entry => insert entry.1 entry.2 acc) m

/-- The map of a list of entries; of two entries with one name the later one stays. -/
def ofList (entries : List (String × α)) : List (String × α) := merge [] entries

/-! ## Look-ups after a change -/

@[simp] theorem find?_nil (k : String) : find? ([] : List (String × α)) k = none := rfl

theorem find?_cons (k k' : String) (v : α) (m : List (String × α)) :
    find? ((k', v) :: m) k = if k = k' then some v else find? m k := by
  unfold find?
  rw [List.lookup_cons]
  by_cases h : k = k'
  · simp [h]
  · simp [h, beq_eq_false_iff_ne.2 h]

/-- The inserted value is found. -/
@[simp] theorem find?_insert_self (k : String) (v : α) (m : List (String × α)) :
    find? (insert k v m) k = some v := by
  induction m with
  | nil => simp [insert, find?_cons]
  | cons entry rest ih =>
    obtain ⟨k', v'⟩ := entry
    rw [insert]
    split
    · simp [find?_cons]
    · rename_i hne
      split
      · simp [find?_cons]
      · simp [find?_cons, hne, ih]

/-- Every other name keeps its value. -/
theorem find?_insert_of_ne {k k' : String} (h : k' ≠ k) (v : α) (m : List (String × α)) :
    find? (insert k v m) k' = find? m k' := by
  induction m with
  | nil => simp [insert, find?_cons, h]
  | cons entry rest ih =>
    obtain ⟨k₁, v₁⟩ := entry
    rw [insert]
    split
    · rename_i heq
      subst heq
      simp [find?_cons, h]
    · split
      · simp [find?_cons, h]
      · simp [find?_cons, ih]

theorem find?_append (m m' : List (String × α)) (k : String) :
    find? (m ++ m') k = (find? m k).or (find? m' k) := List.lookup_append

/-- After a merge the last update of a name is found, or else what was there before. -/
theorem find?_merge (m updates : List (String × α)) (k : String) :
    find? (merge m updates) k = (find? updates.reverse k).or (find? m k) := by
  induction updates generalizing m with
  | nil => rfl
  | cons entry rest ih =>
    have hrest : find? (merge m (entry :: rest)) k = _ := ih (insert entry.1 entry.2 m)
    rw [hrest, List.reverse_cons, find?_append, Option.or_assoc, find?_cons]
    by_cases h : k = entry.1
    · subst h
      simp
    · simp [h, find?_insert_of_ne h]

/-! ## Order -/

/-- The names increase strictly; so no name occurs twice. -/
def Sorted (m : List (String × α)) : Prop := m.Pairwise fun a b => a.1 < b.1

theorem fst_of_mem_insert {k : String} {v : α} {m : List (String × α)} {entry : String × α}
    (h : entry ∈ insert k v m) : entry = (k, v) ∨ entry ∈ m := by
  induction m with
  | nil => exact Or.inl (List.mem_singleton.1 h)
  | cons first rest ih =>
    obtain ⟨k₁, v₁⟩ := first
    rw [insert] at h
    split at h
    · rcases List.mem_cons.1 h with h | h
      · exact Or.inl h
      · exact Or.inr (List.mem_cons_of_mem _ h)
    · split at h
      · exact List.mem_cons.1 h
      · rcases List.mem_cons.1 h with rfl | h
        · exact Or.inr List.mem_cons_self
        · exact (ih h).imp id (List.mem_cons_of_mem _)

/-- Insertion keeps the order. -/
theorem Sorted.insert {m : List (String × α)} (h : Sorted m) (k : String) (v : α) :
    Sorted (KeyMap.insert k v m) := by
  induction m with
  | nil => exact List.pairwise_singleton _ _
  | cons first rest ih =>
    obtain ⟨k₁, v₁⟩ := first
    have hrest : Sorted rest := (List.pairwise_cons.1 h).2
    have hfirst := (List.pairwise_cons.1 h).1
    rw [KeyMap.insert]
    split
    · rename_i heq
      subst heq
      exact List.pairwise_cons.2 ⟨hfirst, hrest⟩
    · rename_i hne
      split
      · rename_i hlt
        refine List.pairwise_cons.2 ⟨fun entry hentry => ?_, h⟩
        rcases List.mem_cons.1 hentry with rfl | hentry
        · exact hlt
        · exact String.lt_trans hlt (hfirst entry hentry)
      · rename_i hge
        refine List.pairwise_cons.2 ⟨fun entry hentry => ?_, ih hrest⟩
        rcases fst_of_mem_insert hentry with rfl | hentry
        · exact Std.lt_of_le_of_ne (String.not_lt.1 hge) (Ne.symm hne)
        · exact hfirst entry hentry

/-- An entry with the greatest name goes to the end. -/
theorem insert_of_forall_lt {k : String} {m : List (String × α)} (h : ∀ entry ∈ m, entry.1 < k)
    (v : α) : KeyMap.insert k v m = m ++ [(k, v)] := by
  induction m with
  | nil => rfl
  | cons first rest ih =>
    obtain ⟨hfirst, hrest⟩ := List.forall_mem_cons.1 h
    have hne : k ≠ first.1 := fun heq => String.lt_irrefl k (heq.symm ▸ hfirst)
    rw [KeyMap.insert, if_neg hne, if_neg (String.lt_asymm hfirst), ih hrest, List.cons_append]

theorem merge_of_sorted {m updates : List (String × α)} (h : Sorted (m ++ updates)) :
    KeyMap.merge m updates = m ++ updates := by
  induction updates generalizing m with
  | nil => exact (List.append_nil m).symm
  | cons entry rest ih =>
    have hlast : ∀ earlier ∈ m, earlier.1 < entry.1 := fun earlier hearlier =>
      (List.pairwise_append.1 h).2.2 earlier hearlier entry List.mem_cons_self
    have hall : m ++ entry :: rest = m ++ [entry] ++ rest := by simp
    rw [hall] at h ⊢
    have hmerge : KeyMap.merge m (entry :: rest) =
        KeyMap.merge (KeyMap.insert entry.1 entry.2 m) rest := rfl
    rw [hmerge, insert_of_forall_lt hlast]
    exact ih h

/-- A list in order is its own map. -/
theorem Sorted.ofList_eq {m : List (String × α)} (h : Sorted m) : ofList m = m :=
  merge_of_sorted (m := []) h

theorem mem_of_mem_merge {m updates : List (String × α)} {entry : String × α}
    (h : entry ∈ KeyMap.merge m updates) : entry ∈ m ∨ entry ∈ updates := by
  induction updates generalizing m with
  | nil => exact .inl h
  | cons first rest ih =>
    rcases ih h with hm | hrest
    · exact (fst_of_mem_insert hm).elim (fun heq => .inr (List.mem_cons.2 (.inl heq))) .inl
    · exact .inr (List.mem_cons_of_mem _ hrest)

theorem mem_of_mem_ofList {entries : List (String × α)} {entry : String × α}
    (h : entry ∈ ofList entries) : entry ∈ entries :=
  (mem_of_mem_merge h).resolve_left List.not_mem_nil

theorem Sorted.merge {m : List (String × α)} (h : Sorted m) (updates : List (String × α)) :
    Sorted (KeyMap.merge m updates) := by
  induction updates generalizing m with
  | nil => exact h
  | cons entry rest ih => exact ih (h.insert entry.1 entry.2)

theorem sorted_ofList (entries : List (String × α)) : Sorted (ofList entries) :=
  Sorted.merge (m := []) .nil entries

/-- The entries with a name are those that are found. -/
theorem Sorted.filter_eq {m : List (String × α)} (h : Sorted m) (k : String) :
    (m.filter fun entry => entry.1 = k) = (find? m k).toList.map fun v => (k, v) := by
  induction m with
  | nil => rfl
  | cons first rest ih =>
    obtain ⟨k', v⟩ := first
    obtain ⟨hfirst, hrest⟩ := List.pairwise_cons.1 h
    rw [find?_cons]
    by_cases heq : k = k'
    · subst heq
      have hothers : (rest.filter fun entry => entry.1 = k) = [] :=
        List.filter_eq_nil_iff.2 fun entry hentry hsame =>
          String.lt_irrefl k (of_decide_eq_true hsame ▸ hfirst entry hentry)
      simp [hothers]
    · simp [heq, Ne.symm heq, ih hrest]

/-- Where no name occurs twice, every entry is found. -/
theorem find?_of_mem {m : List (String × α)} (h : (m.map Prod.fst).Nodup) {k : String} {v : α}
    (hmem : (k, v) ∈ m) : find? m k = some v := by
  induction m with
  | nil => cases hmem
  | cons first rest ih =>
    obtain ⟨k', v'⟩ := first
    obtain ⟨hfirst, hrest⟩ := List.nodup_cons.1 h
    rw [find?_cons]
    rcases List.mem_cons.1 hmem with heq | hlater
    · obtain ⟨rfl, rfl⟩ := Prod.mk.inj heq
      exact if_pos rfl
    · have hne : k ≠ k' := by
        rintro rfl
        exact hfirst (List.mem_map.2 ⟨(k, v), hlater, rfl⟩)
      rw [if_neg hne]
      exact ih hrest hlater

/-- Where no name occurs twice, every entry is found in the map of the list. -/
theorem find?_ofList_of_mem {entries : List (String × α)} (h : (entries.map Prod.fst).Nodup)
    {k : String} {v : α} (hmem : (k, v) ∈ entries) : find? (ofList entries) k = some v := by
  have hreverse : (entries.reverse.map Prod.fst).Nodup := by
    rw [List.map_reverse]
    exact List.pairwise_reverse.2 (List.Pairwise.imp Ne.symm h)
  rw [ofList, find?_merge, find?_of_mem hreverse (List.mem_reverse.2 hmem)]
  rfl

end KeyMap
end Fieldbus
