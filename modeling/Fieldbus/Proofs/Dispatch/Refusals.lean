import Fieldbus.Proofs.Dispatch.Effect

/-!
# What is refused leaves no trace

An operation of a dispatcher may be refused: the channel is unknown, or there is one of this name
already, a description cannot be resolved, an entity is unknown, or its decoder cannot build the
command, or fails.  `Dispatcher.Refuses` lists the reasons.  Whatever the reason, nothing has been
done and nothing is told, although sending a command takes a while to find out, and although
receiving and taking commands give up overdue expectations on the way.

* `refuses_iff` — there is a reason exactly if the operation ends in this error.
* `perform_eq_refuse` — an operation that ends in an error has done nothing else.
* `refused_changes_nothing` — both, and that a run may leave out what is refused.
-/

set_option autoImplicit false

namespace Fieldbus

/-! ## Reasons

The reasons are stated without looking at what an operation does: names that are known or not, and
what a decoder makes of a command.  They exclude one another, because an entity is looked for first,
then the channel, and the command is built last. -/

namespace Occurrence

/-- The name of the channel that is to be added, if its description can be resolved. -/
def added? : Occurrence → Option String
  | .addChannel name _ => some name
  | .addChannelConfig name config evaluator =>
    if (config.resolve evaluator).isOk then some name else none
  | .addOffloadedChannel name _ _ _ => some name
  | _ => none

/-- The name of the channel on which something is received, queued or taken. -/
def used? : Occurrence → Option String
  | .feed name _ _ _ _ => some name
  | .poll name _ _ _ => some name
  | .flush name _ _ _ => some name
  | .enqueue name _ _ => some name
  | .next name _ => some name
  | _ => none

end Occurrence

namespace Dispatcher

/-- Why an occurrence is refused. -/
inductive Refuses (d : Dispatcher) : Occurrence → DispatchError → Prop
  /-- There is a channel of this name already. -/
  | duplicate {o : Occurrence} {name : String} {channel : Channel} (hadded : o.added? = some name)
      (hchannel : d.channel? name = some channel) : Refuses d o (.duplicateChannel name)
  | unresolved {config : ChannelConfig} {evaluator : Option Evaluator} {cause : ConfigError}
      (name : String) (hresolve : config.resolve evaluator = .error cause) :
      Refuses d (.addChannelConfig name config evaluator) (.config cause)
  /-- There is no such channel to be used. -/
  | missing {o : Occurrence} {name : String} (hused : o.used? = some name)
      (hmissing : d.channel? name = none) : Refuses d o (.unknownChannel name)
  /-- There is no decoder for the entity, whatever the channel. -/
  | unknownEntity {entity : String} {mood : Mood} (name command : String) (value : Option Value)
      (priority : Priority) (now : Time) (hdecoder : (d.sway mood).decoder? entity = none) :
      Refuses d (.send name entity command value priority now mood) (.unknownEntity entity)
  /-- There is no channel to send on. -/
  | nowhere {name entity : String} {mood : Mood} {decoder : Decoder} (command : String)
      (value : Option Value) (priority : Priority) (now : Time)
      (hdecoder : (d.sway mood).decoder? entity = some decoder)
      (hmissing : d.channel? name = none) :
      Refuses d (.send name entity command value priority now mood) (.unknownChannel name)
  /-- The entity does not have the command, or it cannot be built. -/
  | unbuildable {name entity command : String} {value : Option Value} {mood : Mood}
      {decoder : Decoder} {channel : Channel} (priority : Priority) (now : Time)
      (hdecoder : (d.sway mood).decoder? entity = some decoder)
      (hchannel : d.channel? name = some channel)
      (hbuild : decoder.buildCommand command value (d.sendSnapshot channel) = .returned none) :
      Refuses d (.send name entity command value priority now mood)
        (.unknownCommand entity command)
  /-- The decoder panicked over the command. -/
  | panicked {name entity command : String} {value : Option Value} {mood : Mood}
      {decoder : Decoder} {channel : Channel} {text : Option String} (priority : Priority)
      (now : Time) (hdecoder : (d.sway mood).decoder? entity = some decoder)
      (hchannel : d.channel? name = some channel)
      (hbuild : decoder.buildCommand command value (d.sendSnapshot channel) = .panicked text) :
      Refuses d (.send name entity command value priority now mood)
        (.decoder entity (Call.panicMessage text))

variable {d : Dispatcher} {o : Occurrence} {error : DispatchError}

/-! ## What is refused -/

/-- **What ends in an error has done nothing else.** -/
theorem perform_eq_refuse (h : (d.perform o).result = .error error) :
    d.perform o = d.refuse error := by
  have heffect := d.effect_perform o
  generalize d.perform o = r at heffect h ⊢
  cases heffect with
  | refused error' =>
    obtain rfl : error' = error := Except.error.inj h
    rfl
  | received now hearings hchannel hframes =>
    rw [dispatchAmid_eq] at h
    cases h
  | _ => cases h

/-! ## The reasons are the only ones -/

theorem result_map_eq_error {α β : Type} {f : α → β} {r : Response α} :
    (r.map f).result = .error error ↔ r.result = .error error := by
  rw [Response.map]
  cases r.result <;> simp [Except.map]

theorem insertChannel_eq_error {name : String} {channel : Channel} :
    (d.insertChannel name channel).result = .error error ↔
      (∃ channel', d.channel? name = some channel') ∧ error = .duplicateChannel name := by
  rw [insertChannel, KeyMap.contains, ← Option.isSome_iff_exists, channel?]
  split
  · rename_i h
    simp [refuse, h, eq_comm]
  · rename_i h
    simp [h]

theorem receive_eq_error {name : String} {take : Receiver → List Frame × Receiver} {now : Time}
    {hearings : List Hearing} : (d.receive name take now hearings).result = .error error ↔
      d.channel? name = none ∧ error = .unknownChannel name := by
  rw [receive]
  cases d.channel? name with
  | none => simp [refuse, eq_comm]
  | some channel => simp [dispatchAmid_eq]

theorem decoder?_id {entity : String} {decoder : Decoder}
    (h : d.decoder? entity = some decoder) : decoder.id = entity := by
  simpa using List.find?_some h

/-- A command is not built if its decoder does not build it, or fails. -/
theorem build_eq_error {channel : Channel} {decoder : Decoder} {command : String}
    {value : Option Value} : d.build channel decoder command value = .error error ↔
      decoder.buildCommand command value (d.sendSnapshot channel) = .returned none ∧
          error = .unknownCommand decoder.id command ∨
        ∃ text, decoder.buildCommand command value (d.sendSnapshot channel) = .panicked text ∧
          error = .decoder decoder.id (Call.panicMessage text) := by
  rw [build]
  rcases decoder.buildCommand command value (d.sendSnapshot channel) with (- | frame) | text
  · simp [Call.guardedValue, eq_comm]
  · simp [Call.guardedValue]
  · simp [Call.guardedValue, eq_comm]

theorem enqueue_eq_error {name : String} {command : Bytes} {priority : Priority} :
    (d.enqueue name command priority).result = .error error ↔
      d.channel? name = none ∧ error = .unknownChannel name := by
  rw [enqueue]
  cases d.channel? name with
  | none => simp [refuse, eq_comm]
  | some channel => simp

theorem next_eq_error {name : String} {now : Time} :
    (d.next name now).result = .error error ↔
      d.channel? name = none ∧ error = .unknownChannel name := by
  rw [next]
  cases d.channel? name with
  | none => simp [refuse, eq_comm]
  | some channel => simp

/-- Sending fails for want of a decoder, of a channel, or of a frame, in this order. -/
theorem sendAmid_eq_error {name entity command : String} {value : Option Value}
    {priority : Priority} {now : Time} {mood : Mood} :
    (d.sendAmid name entity command value priority now mood).result = .error error ↔
      (d.sway mood).decoder? entity = none ∧ error = .unknownEntity entity ∨
        ∃ decoder, (d.sway mood).decoder? entity = some decoder ∧
          (d.channel? name = none ∧ error = .unknownChannel name ∨
            ∃ channel, d.channel? name = some channel ∧
              (d.sway mood).build channel decoder command value = .error error) := by
  rw [sendAmid, send]
  cases (d.sway mood).decoder? entity with
  | none => simp [refuse, eq_comm]
  | some decoder =>
    have hsame : (d.sway mood).channel? name = d.channel? name := rfl
    rw [hsame]
    cases d.channel? name with
    | none => simp [refuse, eq_comm]
    | some channel => cases hbuild : (d.sway mood).build channel decoder command value <;>
        simp [refuse, hbuild]

theorem refuses_of_error (h : (d.perform o).result = .error error) : d.Refuses o error := by
  cases o with
  | register decoder => cases h
  | addChannel name profile =>
    obtain ⟨⟨channel, hchannel⟩, rfl⟩ := insertChannel_eq_error.1 (result_map_eq_error.1 h)
    exact .duplicate rfl hchannel
  | addChannelConfig name config evaluator =>
    rw [perform, result_map_eq_error, addChannelConfig] at h
    cases hresolve : config.resolve evaluator with
    | error cause =>
      rw [hresolve] at h
      cases h
      exact .unresolved name hresolve
    | ok profile =>
      rw [hresolve] at h
      obtain ⟨⟨channel, hchannel⟩, rfl⟩ := insertChannel_eq_error.1 h
      exact .duplicate (by simp [Occurrence.added?, hresolve, Except.isOk, Except.toBool]) hchannel
  | addOffloadedChannel name profile config aided =>
    obtain ⟨⟨channel, hchannel⟩, rfl⟩ := insertChannel_eq_error.1 (result_map_eq_error.1 h)
    exact .duplicate rfl hchannel
  | feed name bytes now meanwhile hearings =>
    obtain ⟨hmissing, rfl⟩ := receive_eq_error.1 (result_map_eq_error.1 h)
    exact .missing rfl hmissing
  | poll name now meanwhile hearings =>
    obtain ⟨hmissing, rfl⟩ := receive_eq_error.1 (result_map_eq_error.1 h)
    exact .missing rfl hmissing
  | flush name now meanwhile hearings =>
    obtain ⟨hmissing, rfl⟩ := receive_eq_error.1 (result_map_eq_error.1 h)
    exact .missing rfl hmissing
  | enqueue name command priority =>
    obtain ⟨hmissing, rfl⟩ := enqueue_eq_error.1 (result_map_eq_error.1 h)
    exact .missing rfl hmissing
  | send name entity command value priority now mood =>
    rcases sendAmid_eq_error.1 (result_map_eq_error.1 h) with
      ⟨hnone, rfl⟩ | ⟨decoder, hdecoder, ⟨hmissing, rfl⟩ | ⟨channel, hchannel, hbuild⟩⟩
    · exact .unknownEntity name command value priority now hnone
    · exact .nowhere command value priority now hdecoder hmissing
    · obtain rfl := decoder?_id hdecoder
      rcases build_eq_error.1 hbuild with ⟨hnone, rfl⟩ | ⟨text, hpanic, rfl⟩
      · exact .unbuildable priority now hdecoder hchannel hnone
      · exact .panicked priority now hdecoder hchannel hpanic
  | next name now =>
    obtain ⟨hmissing, rfl⟩ := next_eq_error.1 (result_map_eq_error.1 h)
    exact .missing rfl hmissing
  | setAckTimeout timeout => cases h
  | work name move => cases h

theorem error_of_duplicate {name : String} {channel : Channel} (hadded : o.added? = some name)
    (hchannel : d.channel? name = some channel) :
    (d.perform o).result = .error (.duplicateChannel name) := by
  have hinsert (channel' : Channel) :
      (d.insertChannel name channel').result = .error (.duplicateChannel name) :=
    insertChannel_eq_error.2 ⟨⟨channel, hchannel⟩, rfl⟩
  cases o with
  | addChannel name' profile =>
    cases hadded
    exact result_map_eq_error.2 (hinsert _)
  | addChannelConfig name' config evaluator =>
    rw [perform, result_map_eq_error, addChannelConfig]
    cases hresolve : config.resolve evaluator with
    | error cause => simp [Occurrence.added?, hresolve, Except.isOk, Except.toBool] at hadded
    | ok profile =>
      obtain ⟨-, hname⟩ := Option.ite_none_right_eq_some.1 hadded
      cases hname
      exact hinsert _
  | addOffloadedChannel name' profile config aided =>
    cases hadded
    exact result_map_eq_error.2 (hinsert _)
  | _ => cases hadded

theorem error_of_missing {name : String} (hused : o.used? = some name)
    (hmissing : d.channel? name = none) :
    (d.perform o).result = .error (.unknownChannel name) := by
  cases o with
  | feed name' bytes now meanwhile hearings =>
    cases hused
    exact result_map_eq_error.2 (receive_eq_error.2 ⟨hmissing, rfl⟩)
  | poll name' now meanwhile hearings =>
    cases hused
    exact result_map_eq_error.2 (receive_eq_error.2 ⟨hmissing, rfl⟩)
  | flush name' now meanwhile hearings =>
    cases hused
    exact result_map_eq_error.2 (receive_eq_error.2 ⟨hmissing, rfl⟩)
  | enqueue name' command priority =>
    cases hused
    exact result_map_eq_error.2 (enqueue_eq_error.2 ⟨hmissing, rfl⟩)
  | next name' now =>
    cases hused
    exact result_map_eq_error.2 (next_eq_error.2 ⟨hmissing, rfl⟩)
  | _ => cases hused

/-- **An occurrence ends in an error exactly if there is a reason for it.** -/
theorem refuses_iff : d.Refuses o error ↔ (d.perform o).result = .error error := by
  refine ⟨fun h => ?_, refuses_of_error⟩
  cases h with
  | duplicate hadded hchannel => exact error_of_duplicate hadded hchannel
  | unresolved name hresolve =>
    rw [perform, addChannelConfig, hresolve]
    rfl
  | missing hused hmissing => exact error_of_missing hused hmissing
  | unknownEntity name command value priority now hnone =>
    exact result_map_eq_error.2 (sendAmid_eq_error.2 (.inl ⟨hnone, rfl⟩))
  | nowhere command value priority now hdecoder hmissing =>
    exact result_map_eq_error.2 (sendAmid_eq_error.2 (.inr ⟨_, hdecoder, .inl ⟨hmissing, rfl⟩⟩))
  | unbuildable priority now hdecoder hchannel hnone =>
    obtain rfl := decoder?_id hdecoder
    exact result_map_eq_error.2 (sendAmid_eq_error.2 (.inr ⟨_, hdecoder, .inr
      ⟨_, hchannel, build_eq_error.2 (.inl ⟨hnone, rfl⟩)⟩⟩))
  | panicked priority now hdecoder hchannel hpanic =>
    obtain rfl := decoder?_id hdecoder
    exact result_map_eq_error.2 (sendAmid_eq_error.2 (.inr ⟨_, hdecoder, .inr
      ⟨_, hchannel, build_eq_error.2 (.inr ⟨_, hpanic, rfl⟩)⟩⟩))

/-- **What is refused leaves no trace.**  If an occurrence ends in an error, there is a reason for
that error and for no other one; the dispatcher is what it was (its channels with what they have
received, queued and sent, and the acknowledgements they wait for; its decoders; the state of the
entities), nothing is told, and whatever comes next happens as if nothing had been asked. -/
theorem refused_changes_nothing (d : Dispatcher) (o : Occurrence) (error : DispatchError)
    (h : (d.perform o).result = .error error) :
    (∀ reason, d.Refuses o reason ↔ reason = error) ∧
      (d.perform o).dispatcher = d ∧ (d.perform o).events = [] ∧
      ∀ later : List Occurrence, d.run (o :: later) = d.run later := by
  refine ⟨fun reason => ?_, ?_, ?_, fun later => ?_⟩
  · rw [refuses_iff, h, Except.error.injEq, eq_comm]
  · rw [perform_eq_refuse h]
    rfl
  · rw [perform_eq_refuse h]
    rfl
  · rw [run_cons, perform_eq_refuse h]
    rfl

/-! ### A siren without a relay -/

/-- The siren can be tested, but it panics over every other command. -/
def sirenDecoder : Decoder where
  id := "siren"
  stateProxy := none
  matchesFrame _ := .returned (.ok false)
  parse _ := .returned (.ok none)
  buildCommand command _ _ :=
    if command = "test" then .returned (some [0x05]) else .panicked (some "no relay")
  expectsAck _ := .returned true
  matchesAck _ _ := .returned false

/-- The siren is being tested. -/
def sirenTest : List Occurrence :=
  [.register sirenDecoder,
    .addChannelConfig "hall" { rxHeader := [0xF2], rxLength := some 3 } none,
    .send "hall" "siren" "test" none .low 0 .calm]

/-- When the siren is turned on, the test goes on waiting, in the queue and for its
acknowledgement. -/
theorem refused_changes_nothing_of_panic :
    let d := (({} : Dispatcher).run sirenTest).2
    let o := Occurrence.send "hall" "siren" "on" none .high 1 .calm
    (d.perform o).result = .error (.decoder "siren" (Call.panicMessage (some "no relay"))) ∧
      (d.perform o).dispatcher = d ∧ (d.perform o).events = [] ∧
      (d.perform o).dispatcher.pendingCommands "hall" = 1 ∧
      (d.perform o).dispatcher.pendingAcks "hall" = 1 := by
  intro d o
  obtain ⟨-, hsame, hmute, -⟩ := refused_changes_nothing d o _ rfl
  rw [hsame]
  exact ⟨rfl, rfl, hmute, rfl, rfl⟩

end Dispatcher
end Fieldbus
