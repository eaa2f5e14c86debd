import Fieldbus.Queue
import Mathlib.Data.List.Chain

/-!
# Order and pace of a queue

A queue is pushed to and popped from in any order, and at any times; the clock may even be set back.
What its users can rely on is said by `Lawful`, about what has happened so far (a list of
`QueueStep`s) and about what the next call will do.

## What is here

* `CommandQueue.step`, `CommandQueue.steps`, `CommandQueue.afterAll` — calls on a queue, with the
  queue before and after each of them.  How long the pause between two commands has to be is given
  apart, in the unit of the times, so that it need not be a number of milliseconds.
* `CommandQueue.popAfter_cases` — what a pop can do, said once.
* `CommandQueue.popped_append_line` — of each priority, what was handed out and what still waits
  is what was pushed.
* `CommandQueue.isChain_sentAt`, `CommandQueue.getLast?_sentAt` — the times at which commands were
  handed out are a pause apart, and the queue remembers the last of them.
* `CommandQueue.lawful_steps` — a new queue is lawful after any calls.
-/

set_option autoImplicit false

namespace Fieldbus

/-! ## Calls -/

/-- What is asked of a queue. -/
inductive QueueCall where
  | push (command : Bytes) (priority : Priority)
  | pop (now : Time)

/-- What the caller hears. -/
inductive QueueAnswer where
  /-- Was nothing queued before? -/
  | wasEmpty (answer : Bool)
  /-- The command that is handed out, if there is one. -/
  | command (bytes : Option Bytes)

/-- A call on a queue, with the queue before and after it. -/
structure QueueStep where
  before : CommandQueue
  call : QueueCall
  answer : QueueAnswer
  after : CommandQueue

namespace CommandQueue

/-- The commands of a priority that wait. -/
def line (q : CommandQueue) : Priority → List Bytes
  | .high => q.high
  | .low => q.low

/-- A call is made, where two commands have to be a pause apart. -/
def step (q : CommandQueue) (pause : Nat) (call : QueueCall) : QueueStep :=
  match call with
  | .push command priority =>
    { before := q, call, answer := .wasEmpty q.isEmpty, after := q.push command priority }
  | .pop now =>
    let (command, rest) := q.popAfter pause now
    { before := q, call, answer := .command command, after := rest }

/-- Calls are made one after another. -/
def steps (q : CommandQueue) (pause : Nat) : List QueueCall → List QueueStep
  | [] => []
  | call :: rest => q.step pause call :: (q.step pause call).after.steps pause rest

/-- The queue after calls were made. -/
def afterAll (q : CommandQueue) (pause : Nat) (calls : List QueueCall) : CommandQueue :=
  calls.foldl (fun q call => (q.step pause call).after) q

end CommandQueue

namespace QueueStep

/-- What the call added to the commands of a priority. -/
def pushed (priority : Priority) (s : QueueStep) : List Bytes :=
  match s.call with
  | .push command priority' => if priority' = priority then [command] else []
  | .pop _ => []

/-- What the call handed out of the commands of a priority: the answer, if that is the command which
these have lost at their front. -/
def popped (priority : Priority) (s : QueueStep) : List Bytes :=
  match s.answer with
  | .command (some command) =>
    if s.before.line priority = command :: s.after.line priority then [command] else []
  | _ => []

/-- When the call handed out a command. -/
def sentAt? (s : QueueStep) : Option Time :=
  match s.call, s.answer with
  | .pop now, .command (some _) => some now
  | _, _ => none

end QueueStep

/-! ## The law -/

/-- What holds of a queue on which `steps` have been made, two commands having to be a pause
apart. -/
structure CommandQueue.Lawful (q : CommandQueue) (pause : Nat) (steps : List QueueStep) : Prop where
  /-- What was handed out and what still waits is what was pushed, in the order of the pushes. -/
  inOrder : ∀ priority,
    steps.flatMap (·.popped priority) ++ q.line priority = steps.flatMap (·.pushed priority)
  /-- Commands are handed out a pause apart. -/
  paced : (steps.filterMap QueueStep.sentAt?).IsChain fun s t => pause ≤ Time.elapsed s t
  /-- The next push tells whether all that was pushed has been handed out. -/
  wasEmpty : ∀ command priority, (q.step pause (.push command priority)).answer = .wasEmpty true ↔
    ∀ priority', steps.flatMap (·.popped priority') = steps.flatMap (·.pushed priority')
  /-- The next pop hands out nothing exactly if nothing waits, or if the last command was handed out
  less than a pause ago. -/
  heldBack : ∀ now, (q.step pause (.pop now)).answer = .command none ↔
    q.toList = [] ∨
      ∃ last ∈ (steps.filterMap QueueStep.sentAt?).getLast?, Time.elapsed last now < pause
  /-- If it hands out nothing, it changes nothing. -/
  unchanged : ∀ now, (q.step pause (.pop now)).answer = .command none →
    (q.step pause (.pop now)).after = q
  /-- If it hands out a command, that is the first one of high priority, or there is none of high
  priority and it is the first one of low priority; the others go on waiting. -/
  highFirst : ∀ now command, (q.step pause (.pop now)).answer = .command (some command) →
    q.line .high = command :: (q.step pause (.pop now)).after.line .high ∧
        (q.step pause (.pop now)).after.line .low = q.line .low ∨
      q.line .high = [] ∧ (q.step pause (.pop now)).after.line .high = [] ∧
        q.line .low = command :: (q.step pause (.pop now)).after.line .low

namespace CommandQueue

variable (q : CommandQueue) (pause : Nat)

/-! ## One call

A pop does one of two things: nothing, or it hands out the first command of a priority.  All that is
said about the next call follows from `popAfter_cases`, which also says when it does which.  A clock
that was set back makes the last command seem to have gone out just now. -/

/-- The queue after the first command of a priority has been handed out, `rest` being those behind
it. -/
def sent (priority : Priority) (rest : List Bytes) (now : Time) : CommandQueue :=
  match priority with
  | .high => { q with high := rest, lastSent := some now }
  | .low => { q with low := rest, lastSent := some now }

theorem line_sent (priority priority' : Priority) (rest : List Bytes) (now : Time) :
    (q.sent priority rest now).line priority' =
      if priority = priority' then rest else q.line priority' := by
  cases priority <;> cases priority' <;> rfl

theorem lastSent_sent (priority : Priority) (rest : List Bytes) (now : Time) :
    (q.sent priority rest now).lastSent = some now := by
  cases priority <;> rfl

theorem line_push (command : Bytes) (priority priority' : Priority) :
    (q.push command priority).line priority' =
      q.line priority' ++ if priority = priority' then [command] else [] := by
  cases priority <;> cases priority' <;> simp [push, line]

theorem lastSent_push (command : Bytes) (priority : Priority) :
    (q.push command priority).lastSent = q.lastSent := by
  cases priority <;> rfl

theorem toList_eq_nil_iff : q.toList = [] ↔ ∀ priority, q.line priority = [] := by
  rw [toList, List.append_eq_nil_iff]
  refine ⟨fun h priority => ?_, fun h => ⟨h .high, h .low⟩⟩
  cases priority with
  | high => exact h.1
  | low => exact h.2

theorem isHeldBack_iff (now : Time) :
    q.isHeldBack pause now = true ↔ ∃ last ∈ q.lastSent, Time.elapsed last now < pause := by
  simp [isHeldBack, Option.any_eq_true]

/-- **What a pop can do.**  Nothing, if nothing waits or if it is too early; or else it hands out
the first command of a priority, of low priority only if there is none of high priority. -/
theorem popAfter_cases (now : Time) :
    (q.toList = [] ∨ q.isHeldBack pause now = true) ∧ q.popAfter pause now = (none, q) ∨
      ∃ priority command rest, q.isHeldBack pause now = false ∧
        q.line priority = command :: rest ∧ (priority = .low → q.line .high = []) ∧
          q.popAfter pause now = (some command, q.sent priority rest now) := by
  unfold popAfter
  by_cases hheld : q.isHeldBack pause now = true
  · exact .inl ⟨.inr hheld, if_pos hheld⟩
  · rw [if_neg hheld]
    split
    · rename_i command rest hhigh
      exact .inr ⟨.high, command, rest, Bool.eq_false_iff.2 hheld, hhigh, nofun, rfl⟩
    · rename_i command rest hhigh hlow
      exact .inr ⟨.low, command, rest, Bool.eq_false_iff.2 hheld, hlow, fun _ => hhigh, rfl⟩
    · rename_i hhigh hlow
      exact .inl ⟨.inl (by rw [toList, hhigh, hlow]; rfl), rfl⟩

theorem answer_push_iff (command : Bytes) (priority : Priority) :
    (q.step pause (.push command priority)).answer = .wasEmpty true ↔
      ∀ priority', q.line priority' = [] := by
  simp only [step, QueueAnswer.wasEmpty.injEq, isEmpty_iff, toList_eq_nil_iff]

theorem answer_pop_iff (now : Time) :
    (q.step pause (.pop now)).answer = .command none ↔
      q.toList = [] ∨ ∃ last ∈ q.lastSent, Time.elapsed last now < pause := by
  rw [step, ← isHeldBack_iff]
  rcases q.popAfter_cases pause now with
    ⟨hnone, hpop⟩ | ⟨priority, command, rest, hheld, hline, -, hpop⟩
  · simp [hpop, hnone]
  · have hwaits : q.toList ≠ [] := by
      intro hnil
      simp [q.toList_eq_nil_iff.1 hnil priority] at hline
    simp [hpop, hheld, hwaits]

theorem after_pop_of_none {now : Time} (h : (q.step pause (.pop now)).answer = .command none) :
    (q.step pause (.pop now)).after = q := by
  simp only [step, QueueAnswer.command.injEq] at h ⊢
  exact popAfter_eq_self h

theorem line_after_pop {now : Time} {command : Bytes}
    (h : (q.step pause (.pop now)).answer = .command (some command)) :
    q.line .high = command :: (q.step pause (.pop now)).after.line .high ∧
        (q.step pause (.pop now)).after.line .low = q.line .low ∨
      q.line .high = [] ∧ (q.step pause (.pop now)).after.line .high = [] ∧
        q.line .low = command :: (q.step pause (.pop now)).after.line .low := by
  rw [step] at h ⊢
  rcases q.popAfter_cases pause now with
    ⟨-, hpop⟩ | ⟨priority, command', rest, -, hline, hlow, hpop⟩
  · simp [hpop] at h
  · simp only [hpop, QueueAnswer.command.injEq, Option.some.injEq] at h ⊢
    subst h
    cases priority with
    | high => exact .inl ⟨hline, rfl⟩
    | low => exact .inr ⟨hlow rfl, hlow rfl, hline⟩

/-- What a call hands out and leaves waiting is what waited and what it adds. -/
theorem popped_append_line_step (call : QueueCall) (priority : Priority) :
    (q.step pause call).popped priority ++ (q.step pause call).after.line priority =
      q.line priority ++ (q.step pause call).pushed priority := by
  cases call with
  | push command priority' => exact q.line_push command priority' priority
  | pop now =>
    rw [step]
    rcases q.popAfter_cases pause now with
      ⟨-, hpop⟩ | ⟨priority', command, rest, -, hline, -, hpop⟩
    · simp [hpop, QueueStep.popped, QueueStep.pushed]
    · simp only [hpop, QueueStep.popped, QueueStep.pushed, line_sent, List.append_nil]
      by_cases h : priority' = priority
      · subst h
        simp [hline]
      · -- the other commands have not lost one: no list is its own tail
        simp [h]

/-- The queue remembers when it hands out a command, and it never does so too early. -/
theorem lastSent_step (call : QueueCall) :
    (q.step pause call).sentAt? = none ∧ (q.step pause call).after.lastSent = q.lastSent ∨
      ∃ now, (q.step pause call).sentAt? = some now ∧
        (q.step pause call).after.lastSent = some now ∧
          ∀ last ∈ q.lastSent, pause ≤ Time.elapsed last now := by
  cases call with
  | push command priority => exact .inl ⟨rfl, q.lastSent_push command priority⟩
  | pop now =>
    rw [step]
    rcases q.popAfter_cases pause now with
      ⟨-, hpop⟩ | ⟨priority, command, rest, hheld, -, -, hpop⟩
    · simp [hpop, QueueStep.sentAt?]
    · refine .inr ⟨now, by simp [hpop, QueueStep.sentAt?], by simp [hpop, lastSent_sent], ?_⟩
      intro last hlast
      by_contra hearly
      have hnever := (q.isHeldBack_iff pause now).2 ⟨last, hlast, by omega⟩
      simp [hheld] at hnever

theorem delay_step (call : QueueCall) : (q.step pause call).after.delay = q.delay := by
  cases call with
  | push command priority => cases priority <;> rfl
  | pop now =>
    rw [step]
    rcases q.popAfter_cases pause now with ⟨-, hpop⟩ | ⟨priority, command, rest, -, -, -, hpop⟩
    · rw [hpop]
    · rw [hpop]
      cases priority <;> rfl

/-! ## Many calls

Both laws about many calls are inductions on the calls with the queue left free: that nothing is
lost, because it holds for each call and both sides are appended to, and that commands are a pause
apart, because the queue remembers the last time and compares with it alone. -/

@[simp] theorem afterAll_nil : q.afterAll pause [] = q := rfl

theorem afterAll_cons (call : QueueCall) (rest : List QueueCall) :
    q.afterAll pause (call :: rest) = (q.step pause call).after.afterAll pause rest := rfl

theorem afterAll_append (earlier later : List QueueCall) :
    q.afterAll pause (earlier ++ later) = (q.afterAll pause earlier).afterAll pause later :=
  List.foldl_append

theorem delay_afterAll (calls : List QueueCall) : (q.afterAll pause calls).delay = q.delay := by
  induction calls generalizing q with
  | nil => rfl
  | cons call rest ih => rw [afterAll_cons, ih, delay_step]

/-- **Nothing is lost, and no command overtakes another of its priority.** -/
theorem popped_append_line (calls : List QueueCall) (priority : Priority) :
    (q.steps pause calls).flatMap (·.popped priority) ++ (q.afterAll pause calls).line priority =
      q.line priority ++ (q.steps pause calls).flatMap (·.pushed priority) := by
  induction calls generalizing q with
  | nil => simp [steps]
  | cons call rest ih =>
    simp only [steps, List.flatMap_cons, afterAll_cons]
    rw [List.append_assoc, ih, ← List.append_assoc, popped_append_line_step, List.append_assoc]

/-- **Commands are handed out a pause apart**, also from the last one before these calls. -/
theorem isChain_sentAt (calls : List QueueCall) :
    (q.lastSent.toList ++ (q.steps pause calls).filterMap QueueStep.sentAt?).IsChain
      fun s t => pause ≤ Time.elapsed s t := by
  induction calls generalizing q with
  | nil => cases h : q.lastSent <;> simp [steps]
  | cons call rest ih =>
    have hrest := ih (q.step pause call).after
    rw [steps]
    rcases q.lastSent_step pause call with ⟨hnone, hlast⟩ | ⟨now, hsome, hlast, hpause⟩
    · rw [List.filterMap_cons_none hnone, ← hlast]
      exact hrest
    · rw [hlast] at hrest
      rw [List.filterMap_cons_some hsome]
      cases h : q.lastSent with
      | none => exact hrest
      | some last => exact hrest.cons_cons (hpause last h)

/-- The queue remembers when it last handed out a command. -/
theorem getLast?_sentAt (calls : List QueueCall) :
    (q.lastSent.toList ++ (q.steps pause calls).filterMap QueueStep.sentAt?).getLast? =
      (q.afterAll pause calls).lastSent := by
  induction calls generalizing q with
  | nil => cases h : q.lastSent <;> simp [steps, h]
  | cons call rest ih =>
    rw [afterAll_cons, ← ih, steps]
    rcases q.lastSent_step pause call with ⟨hnone, hlast⟩ | ⟨now, hsome, hlast, -⟩
    · rw [List.filterMap_cons_none hnone, hlast]
    · rw [List.filterMap_cons_some hsome, hlast]
      cases q.lastSent <;> simp

/-- **A queue that was empty at first is lawful after any calls**, whatever the pause. -/
theorem lawful_steps (delay : Nat) (calls : List QueueCall) :
    (({ delay } : CommandQueue).afterAll pause calls).Lawful pause
      (({ delay } : CommandQueue).steps pause calls) := by
  have horder := ({ delay } : CommandQueue).popped_append_line pause calls
  have hpaced := ({ delay } : CommandQueue).isChain_sentAt pause calls
  have hlast := ({ delay } : CommandQueue).getLast?_sentAt pause calls
  have hnew (priority : Priority) : ({ delay } : CommandQueue).line priority = [] := by
    cases priority <;> rfl
  simp only [hnew, Option.toList_none, List.nil_append] at horder hpaced hlast
  refine ⟨horder, hpaced, fun command priority => ?_, fun now => ?_,
    fun now => after_pop_of_none _ pause, fun now command => line_after_pop _ pause⟩
  · rw [answer_push_iff]
    simp only [← horder, List.self_eq_append_right]
  · rw [answer_pop_iff, hlast]

end CommandQueue
end Fieldbus
