import Fieldbus.Proofs.Dispatch.Effect
import Fieldbus.Proofs.Queue.Pacing

/-!
# Each channel has a queue of its own

The commands of a channel wait in its queue, and whoever hands a command to a dispatcher, or takes
one from it, makes a call on that queue: `Dispatcher.queueCall?` says which.  Nothing else that can
happen to a dispatcher touches the queue, so a queue in use goes through exactly these calls
(`Dispatcher.queue?_run`), and what is known about the calls on a queue (`CommandQueue.Lawful`) is
known about every channel.

* `queue?_perform` — one occurrence makes at most one call on the queue of a channel.
* `queue?_of_queueCall?` — the caller hears what the queue answers.
* `run_queue` — the order and the pace of commands, and that nothing else disturbs them.
-/

set_option autoImplicit false

namespace Fieldbus

/-- The answer of a queue is passed on. -/
def Answer.ofQueue : QueueAnswer → Answer
  | .wasEmpty answer => .wasEmpty answer
  | .command bytes => .command bytes

namespace Dispatcher

/-! ## The calls on a queue

Whether an occurrence makes a call on a queue is not seen from the occurrence alone: a command that
is sent is pushed only if it could be built.  If it is refused, the queue has not been touched. -/

/-- The queue of a channel. -/
def queue? (d : Dispatcher) (name : String) : Option CommandQueue :=
  (d.channel? name).map Channel.queue

/-- The frame of a command for an entity, if it can be built for the channel. -/
def frame? (d : Dispatcher) (name entity command : String) (value : Option Value) : Option Bytes :=
  match d.decoder? entity, d.channel? name with
  | some decoder, some channel => (d.build channel decoder command value).toOption
  | _, _ => none

/-- What an occurrence asks of the queue of a channel, unless it is refused.  A command is pushed to
it, ready-made or just built, or the transport asks for one. -/
def asks? (d : Dispatcher) (name : String) : Occurrence → Option QueueCall
  | .enqueue name' command priority => if name' = name then some (.push command priority) else none
  | .send name' entity command value priority _ mood =>
    if name' = name then
      ((d.sway mood).frame? name' entity command value).map (.push · priority)
    else none
  | .next name' now => if name' = name then some (.pop now) else none
  | _ => none

/-- The call that an occurrence makes on the queue of a channel. -/
def queueCall? (d : Dispatcher) (name : String) (o : Occurrence) : Option QueueCall :=
  if (d.perform o).result.isOk then d.asks? name o else none

/-- What a run asks of the queue of a channel. -/
def queueCalls (d : Dispatcher) (name : String) : List Occurrence → List QueueCall
  | [] => []
  | o :: rest => (d.queueCall? name o).toList ++ (d.perform o).dispatcher.queueCalls name rest

variable {d : Dispatcher} {name : String} {q : CommandQueue}

theorem queue?_setChannel (d : Dispatcher) (name name' : String) (channel : Channel) :
    (d.setChannel name channel).queue? name' =
      if name' = name then some channel.queue else d.queue? name' := by
  rw [queue?, channel?_setChannel]
  by_cases h : name' = name <;> simp [h, queue?]

/-- A channel goes on with the queue that it has. -/
theorem queue?_setChannel_of_eq {channel : Channel} (hchannel : d.channel? name = some channel)
    (channel' : Channel) (hqueue : channel'.queue = channel.queue) (name' : String) :
    (d.setChannel name channel').queue? name' = d.queue? name' := by
  rw [queue?_setChannel]
  by_cases h : name' = name
  · subst h
    simp [queue?, hchannel, hqueue]
  · simp [h]

/-! ## What leaves the queues alone -/

theorem queue_dispatchFrameAmid (name : String) (decoders : List Decoder) (hearing : Hearing)
    (states : KeyMap Fields) (channel : Channel) (frame : Frame) :
    (dispatchFrameAmid name decoders hearing states channel frame).2.2.queue = channel.queue := by
  unfold dispatchFrameAmid
  split <;> rfl

theorem queue_dispatchFramesAmid (name : String) (decoders : List Decoder)
    (hearings : List Hearing) (frames : List Frame) (states : KeyMap Fields) (channel : Channel) :
    (dispatchFramesAmid name decoders hearings frames states channel).2.2.queue =
      channel.queue := by
  induction frames generalizing hearings states channel with
  | nil => rfl
  | cons frame rest ih =>
    simp only [dispatchFramesAmid_cons]
    rw [ih, queue_dispatchFrameAmid]

theorem queue?_dispatchAmid {channel : Channel} (hchannel : d.channel? name = some channel)
    (channel' : Channel) (hqueue : channel'.queue = channel.queue) (frames : List Frame)
    (now : Time) (hearings : List Hearing) (name' : String) :
    (d.dispatchAmid name channel' frames now hearings).dispatcher.queue? name' =
      d.queue? name' := by
  rw [dispatchAmid_eq]
  refine queue?_setChannel_of_eq (d := { d with states := _ }) hchannel _ ?_ name'
  rw [queue_dispatchFramesAmid]
  exact hqueue

/-! ## One occurrence -/

/-- A command that is queued, sent or taken is a call on the queue of its channel, and the caller
hears what the queue answers. -/
theorem queue?_of_queueCall? {o : Occurrence} {call : QueueCall} (hq : d.queue? name = some q)
    (hcall : d.queueCall? name o = some call) :
    (d.perform o).result = .ok (.ofQueue (q.step (Time.ofMillis q.delay) call).answer) ∧
      (d.perform o).dispatcher.queue? name = some (q.step (Time.ofMillis q.delay) call).after := by
  obtain ⟨channel, hchannel, rfl⟩ := Option.map_eq_some_iff.1 hq
  obtain ⟨hok, hcall⟩ := Option.ite_none_right_eq_some.1 hcall
  cases o with
  | enqueue name' command priority =>
    obtain ⟨rfl, hpush⟩ := Option.ite_none_right_eq_some.1 hcall
    cases hpush
    simp [perform, enqueue, hchannel, Response.map, queue?_setChannel, CommandQueue.step,
      Answer.ofQueue, Except.map]
  | send name' entity command value priority now mood =>
    obtain ⟨rfl, hpush⟩ := Option.ite_none_right_eq_some.1 hcall
    rw [perform, sendAmid] at hok ⊢
    rcases (d.sway mood).send_cases name' entity command value priority now with
      ⟨error, hsend⟩ | ⟨decoder, channel', frame, hdecoder, hchannel', hbuild, hsend⟩
    · rw [hsend] at hok
      cases hok
    · obtain rfl : channel = channel' := Option.some.inj (hchannel.symm.trans hchannel')
      obtain ⟨frame', hframe, rfl⟩ := Option.map_eq_some_iff.1 hpush
      simp only [frame?, hdecoder, hchannel', hbuild, Except.toOption, Option.some.injEq] at hframe
      subst hframe
      rw [hsend]
      exact ⟨rfl, (queue?_setChannel d name' name' _).trans (if_pos rfl)⟩
  | next name' now =>
    obtain ⟨rfl, hpop⟩ := Option.ite_none_right_eq_some.1 hcall
    cases hpop
    simp [perform, next, hchannel, Response.map, queue?_setChannel, CommandQueue.step,
      CommandQueue.pop, Answer.ofQueue, Except.map]
  | _ => cases hcall

/-- **Nothing else touches the queue of a channel.** -/
theorem queue?_of_queueCall?_eq_none {o : Occurrence} (hq : d.queue? name = some q)
    (hcall : d.queueCall? name o = none) : (d.perform o).dispatcher.queue? name = some q := by
  rw [← hq]
  have heffect := d.effect_perform o
  rw [queueCall?] at hcall
  generalize d.perform o = r at heffect hcall ⊢
  cases heffect with
  | refused error => rfl
  | registered decoder => rfl
  | timed timeout => rfl
  | @added _ name' profile receiver hnew hfresh =>
    refine (queue?_setChannel d name' name _).trans (if_neg ?_)
    rintro rfl
    simp [queue?, hnew] at hq
  | received now hearings hchannel hframes =>
    refine queue?_dispatchAmid hchannel _ ?_ _ now hearings name
    rfl
  | @queued name' channel command priority hchannel =>
    refine (queue?_setChannel d name' name _).trans (if_neg ?_)
    rintro rfl
    simp [Except.isOk, Except.toBool, asks?] at hcall
  | @sent name' entity command value channel decoder frame priority now mood hdecoder hchannel
      hbuild =>
    refine (queue?_setChannel d name' name _).trans (if_neg ?_)
    rintro rfl
    have hchannel' : (d.sway mood).channel? name = some channel := hchannel
    simp [Except.isOk, Except.toBool, asks?, frame?, hdecoder, hchannel', hbuild,
      Except.toOption] at hcall
  | taken name' channel now hchannel =>
    refine (queue?_setChannel d name' name _).trans (if_neg ?_)
    rintro rfl
    simp [Except.isOk, Except.toBool, asks?] at hcall
  | idle move hmissing => rfl
  | moved move hchannel =>
    refine queue?_setChannel_of_eq hchannel _ ?_ name
    rfl

theorem queue?_perform (o : Occurrence) (hq : d.queue? name = some q) :
    (d.perform o).dispatcher.queue? name =
      some (q.afterAll (Time.ofMillis q.delay) (d.queueCall? name o).toList) := by
  cases hcall : d.queueCall? name o with
  | none => exact queue?_of_queueCall?_eq_none hq hcall
  | some call => exact (queue?_of_queueCall? hq hcall).2

/-! ## New channels -/

/-- A channel that is not there has no queue to be called. -/
theorem queueCall?_of_missing (o : Occurrence) (hmissing : d.channel? name = none) :
    d.queueCall? name o = none := by
  rw [queueCall?, ite_eq_right_iff]
  intro hok
  cases o with
  | enqueue name' command priority =>
    refine if_neg ?_
    rintro rfl
    simp [perform, enqueue, hmissing, refuse, Response.map, Except.isOk, Except.toBool,
      Except.map] at hok
  | send name' entity command value priority now mood =>
    rw [asks?, ite_eq_right_iff]
    rintro rfl
    have hmissing' : (d.sway mood).channel? name' = none := hmissing
    cases hdecoder : (d.sway mood).decoder? entity <;> simp [frame?, hdecoder, hmissing']
  | next name' now =>
    refine if_neg ?_
    rintro rfl
    simp [perform, next, hmissing, refuse, Response.map, Except.isOk, Except.toBool,
      Except.map] at hok
  | _ => rfl

/-- A channel that is there does not become another one. -/
theorem queue?_setChannel_of_missing {name' : String} {channel : Channel}
    (hchannel : d.channel? name' = some channel) (channel' : Channel)
    (hmissing : d.channel? name = none) : (d.setChannel name' channel').queue? name = none := by
  refine (queue?_setChannel d name' name channel').trans ((if_neg ?_).trans ?_)
  · rintro rfl
    simp [hchannel] at hmissing
  · simp [queue?, hmissing]

/-- A channel that was not there before has a new queue. -/
theorem eq_new_of_missing {o : Occurrence} (hmissing : d.channel? name = none)
    (hq : (d.perform o).dispatcher.queue? name = some q) : q = { delay := q.delay } := by
  have hnone : d.queue? name = none := by simp [queue?, hmissing]
  have habsurd {d' : Dispatcher} (hd' : d'.queue? name = none) (hq' : d'.queue? name = some q) :
      q = { delay := q.delay } := by
    rw [hd'] at hq'
    cases hq'
  have heffect := d.effect_perform o
  generalize d.perform o = r at heffect hq
  cases heffect with
  | @added _ name' profile receiver hnew hfresh =>
    rw [become, queue?_setChannel] at hq
    by_cases h : name = name'
    · rw [if_pos h] at hq
      cases hq
      rfl
    · rw [if_neg h] at hq
      exact habsurd hnone hq
  | refused error => exact habsurd hnone hq
  | registered decoder => exact habsurd hnone hq
  | timed timeout => exact habsurd hnone hq
  | received now hearings hchannel hframes =>
    refine habsurd ?_ hq
    exact (queue?_dispatchAmid hchannel _ (by rfl) _ now hearings name).trans hnone
  | queued command priority hchannel =>
    exact habsurd (queue?_setChannel_of_missing hchannel _ hmissing) hq
  | sent priority now mood hdecoder hchannel hbuild =>
    exact habsurd (queue?_setChannel_of_missing hchannel _ hmissing) hq
  | taken name' channel now hchannel =>
    exact habsurd (queue?_setChannel_of_missing hchannel _ hmissing) hq
  | idle move hmissing' => exact habsurd hnone hq
  | moved move hchannel =>
    exact habsurd (queue?_setChannel_of_missing hchannel _ hmissing) hq

/-! ## Runs -/

/-- A queue in use goes through the calls that are made on it, and nothing else. -/
theorem queue?_run (occurrences : List Occurrence) (hq : d.queue? name = some q) :
    (d.run occurrences).2.queue? name =
      some (q.afterAll (Time.ofMillis q.delay) (d.queueCalls name occurrences)) := by
  induction occurrences generalizing d q with
  | nil => exact hq
  | cons o rest ih =>
    rw [run_cons, queueCalls, CommandQueue.afterAll_append]
    rw [ih (queue?_perform o hq), CommandQueue.delay_afterAll]

/-- **A queue that is new in a run goes through all calls that are made on its channel.** -/
theorem eq_afterAll_of_missing (occurrences : List Occurrence) (hmissing : d.channel? name = none)
    (hq : (d.run occurrences).2.queue? name = some q) :
    q = ({ delay := q.delay } : CommandQueue).afterAll (Time.ofMillis q.delay)
      (d.queueCalls name occurrences) := by
  induction occurrences generalizing d with
  | nil => simp [run, queue?, hmissing] at hq
  | cons o rest ih =>
    rw [queueCalls, queueCall?_of_missing o hmissing, Option.toList_none, List.nil_append]
    rw [run_cons] at hq
    cases hnext : (d.perform o).dispatcher.channel? name with
    | none => exact ih hnext hq
    | some channel =>
      have hnew : (d.perform o).dispatcher.queue? name = some channel.queue := by
        simp [queue?, hnext]
      have hrun := queue?_run rest hnew
      rw [hq, eq_new_of_missing hmissing hnew] at hrun
      rw [Option.some.inj hrun, CommandQueue.delay_afterAll]

/-- **Order and pace of commands.**  Whatever the pause, and whatever calls are made on a queue that
was empty at first, at any times: the queue is lawful.  Whatever happens to a new dispatcher, the
queue of a channel has gone through the calls that were made by queueing, sending and taking
commands on that channel, and so it is lawful, with the delay of the channel as the pause.  The
callers hear what the queue answers, and everything else leaves it as it is. -/
theorem run_queue :
    (∀ (pause delay : Nat) (calls : List QueueCall),
      (({ delay } : CommandQueue).afterAll pause calls).Lawful pause
        (({ delay } : CommandQueue).steps pause calls)) ∧
      ∀ (occurrences : List Occurrence) (name : String) (q : CommandQueue),
        (({} : Dispatcher).run occurrences).2.queue? name = some q →
          let calls := ({} : Dispatcher).queueCalls name occurrences
          let pause := Time.ofMillis q.delay
          q = ({ delay := q.delay } : CommandQueue).afterAll pause calls ∧
            q.Lawful pause (({ delay := q.delay } : CommandQueue).steps pause calls) ∧
            ∀ o : Occurrence,
              let d := (({} : Dispatcher).run occurrences).2
              (∀ call, d.queueCall? name o = some call →
                (d.perform o).result = .ok (.ofQueue (q.step pause call).answer) ∧
                  (d.perform o).dispatcher.queue? name = some (q.step pause call).after) ∧
              (d.queueCall? name o = none → (d.perform o).dispatcher.queue? name = some q) := by
  refine ⟨fun pause delay calls => CommandQueue.lawful_steps pause delay calls, ?_⟩
  intro occurrences name q hq calls pause
  have hcalls : q = ({ delay := q.delay } : CommandQueue).afterAll pause calls :=
    eq_afterAll_of_missing occurrences rfl hq
  have hlawful := CommandQueue.lawful_steps pause q.delay calls
  rw [← hcalls] at hlawful
  exact ⟨hcalls, hlawful, fun o => ⟨fun call hcall => queue?_of_queueCall? hq hcall,
    fun hcall => queue?_of_queueCall?_eq_none hq hcall⟩⟩

/-! ### Two priorities -/

/-- A command of low priority waits behind one of high priority, which is sent at once.  Then the
transport asks too early, and once more when the clock has been set back. -/
def twoPriorities : List Occurrence :=
  [.addChannelConfig "hall" { rxHeader := [0xF2], rxLength := some 3 } none,
    .enqueue "hall" [1] .low,
    .enqueue "hall" [2] .high,
    .next "hall" 0,
    .next "hall" 49_999_999,
    .next "hall" (-1)]

/-- The other command is handed out when the pause of 50 milliseconds is over. -/
theorem run_queue_of_two_priorities :
    let d := (({} : Dispatcher).run twoPriorities).2
    ∃ q, d.queue? "hall" = some q ∧ q.line .low = [[1]] ∧
      q.Lawful 50_000_000 (({ delay := 50 } : CommandQueue).steps 50_000_000
        (({} : Dispatcher).queueCalls "hall" twoPriorities)) ∧
      d.queueCall? "hall" (.next "hall" 50_000_000) = some (.pop 50_000_000) ∧
      (d.perform (.next "hall" 50_000_000)).result = .ok (.command (some [1])) ∧
      d.queueCall? "hall" (.setAckTimeout 0) = none ∧
      (d.perform (.setAckTimeout 0)).dispatcher.queue? "hall" = some q := by
  intro d
  obtain ⟨-, hlawful, hnext⟩ := run_queue.2 twoPriorities "hall" _ rfl
  exact ⟨_, rfl, rfl, hlawful, rfl, ((hnext (.next "hall" 50_000_000)).1 _ rfl).1, rfl,
    (hnext (.setAckTimeout 0)).2 rfl⟩

end Dispatcher
end Fieldbus
