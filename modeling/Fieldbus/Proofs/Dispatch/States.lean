import Fieldbus.Proofs.Dispatch.Snapshots

/-!
# The state of an entity is what was reported of it

Whoever hears the events of a dispatcher can keep the state of the entities without asking for it.
The fields that were reported under the name of an entity, on whatever channel and by whatever
decoders, are merged in the order in which they were told, each new value in place of the old one.
Nothing else changes the state: not a decoder that fails, nor a frame that is dropped or that nobody
recognises, nor a command.

* `Event.report?`, `reportsOf` — what is reported of an entity.
* `find?_foldl_amend` — the states that the events tell of (`statesOf`), for one entity.
* `run_state` — the state of an entity in any run.
-/

set_option autoImplicit false

namespace Fieldbus

/-! ## Reports

Merging is done field by field, the later value first.  So the merged reports depend on their order,
but not on how they are put into brackets: what was known before a run may stand in for all reports
before it. -/

/-- The fields that the event reports of the entity. -/
def Event.report? (entity : String) : Event → Option Fields
  | .stateUpdate _ entity' fields => if entity' = entity then some fields else none
  | _ => none

/-- All that the events report of the entity, in order. -/
def reportsOf (entity : String) (events : List Event) : List Fields :=
  events.filterMap (Event.report? entity)

/-- The state of an entity after one more report. -/
def reported (state : Option Fields) (fields : Fields) : Option Fields :=
  some (KeyMap.merge (state.getD []) fields)

/-- The first report makes the state, and the others are merged into it. -/
theorem foldl_reported (state : Option Fields) (reports : List Fields) :
    reports.foldl reported state =
      if reports.isEmpty then state else some (reports.foldl KeyMap.merge (state.getD [])) := by
  induction reports generalizing state with
  | nil => rfl
  | cons fields rest ih =>
    rw [List.foldl_cons, ih]
    cases rest <;> rfl

/-- Reports that are merged one after another are as good as one. -/
theorem foldl_merge (state : Fields) (reports : List Fields) :
    reports.foldl KeyMap.merge state = KeyMap.merge state reports.flatten :=
  List.foldl_flatten.symm

/-! ## The states that the events tell of -/

theorem find?_amend (states : KeyMap Fields) (event : Event) (entity : String) :
    KeyMap.find? (event.amend states) entity =
      (event.report? entity).toList.foldl reported (KeyMap.find? states entity) := by
  cases event with
  | stateUpdate channel entity' fields =>
    rw [Event.amend, Event.report?, mergeState]
    by_cases h : entity' = entity
    · subst h
      rw [KeyMap.find?_insert_self, if_pos rfl]
      rfl
    · rw [KeyMap.find?_insert_of_ne (Ne.symm h), if_neg h]
      rfl
  | unmatchedFrame channel frame => rfl
  | entityError channel entity' message => rfl
  | commandAcked channel entity' command => rfl
  | commandTimedOut channel entity' command => rfl

/-- **Each entity is told of apart from the others.** -/
theorem find?_foldl_amend (states : KeyMap Fields) (events : List Event) (entity : String) :
    KeyMap.find? (events.foldl Event.amend states) entity =
      (reportsOf entity events).foldl reported (KeyMap.find? states entity) := by
  induction events generalizing states with
  | nil => rfl
  | cons event rest ih =>
    rw [List.foldl_cons, ih, find?_amend, reportsOf, reportsOf]
    cases h : event.report? entity with
    | none => rw [List.filterMap_cons_none h]; rfl
    | some fields => rw [List.filterMap_cons_some h]; rfl

/-! ## Dispatchers -/

namespace Dispatcher

theorem informed_run (occurrences : List Occurrence) :
    (({} : Dispatcher).run occurrences).2.Informed (({} : Dispatcher).run occurrences).1 := by
  have hnew : ({} : Dispatcher).Informed [] := by
    refine ⟨rfl, fun name channel hsome => ?_, fun name hnone event he => ?_⟩
    · cases hsome
    · cases he
  exact hnew.run occurrences

/-- What happens changes the state of an entity by what is reported of it meanwhile. -/
theorem Informed.state_perform {d : Dispatcher} {events : List Event} (h : d.Informed events)
    (o : Occurrence) (entity : String) :
    (d.perform o).dispatcher.state entity =
      (reportsOf entity (d.perform o).events).foldl reported (d.state entity) := by
  have hafter : (d.perform o).dispatcher.states = statesOf (events ++ (d.perform o).events) :=
    (h.perform o).states
  rw [state, hafter, statesOf_append, ← h.states, find?_foldl_amend, state]

/-- **The events determine the state.**  Whatever happens to a new dispatcher, with whatever
decoders: there is a state of an entity exactly if one was reported, and then it is all reports of
the entity, on whatever channel, merged in the order in which they were told.  So the fields stand
in the order of their names, and the value of a field is the last one that was reported.  Whatever
happens next changes the state by the reports that are told of it, and by nothing else. -/
theorem run_state (occurrences : List Occurrence) (entity : String) :
    let d := (({} : Dispatcher).run occurrences).2
    let reports := reportsOf entity (({} : Dispatcher).run occurrences).1
    d.state entity = (if reports.isEmpty then none else some (reports.foldl KeyMap.merge [])) ∧
      KeyMap.Sorted (reports.foldl KeyMap.merge []) ∧
      (∀ field, KeyMap.find? (reports.foldl KeyMap.merge []) field =
        KeyMap.find? reports.flatten.reverse field) ∧
      ∀ o : Occurrence, (d.perform o).dispatcher.state entity =
        (reportsOf entity (d.perform o).events).foldl reported (d.state entity) := by
  intro d reports
  have hinformed := informed_run occurrences
  have hstate : d.state entity = reports.foldl reported none := by
    rw [state, hinformed.states, statesOf, find?_foldl_amend]
    rfl
  refine ⟨?_, ?_, fun field => ?_, fun o => hinformed.state_perform o entity⟩
  · rw [hstate, foldl_reported]
    rfl
  · rw [foldl_merge]
    exact KeyMap.Sorted.merge .nil reports.flatten
  · rw [foldl_merge, KeyMap.find?_merge, KeyMap.find?_nil, Option.or_none]

end Dispatcher
end Fieldbus
