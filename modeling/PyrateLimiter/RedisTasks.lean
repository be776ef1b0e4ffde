/-
Tasks of one event loop that await acquires over an asynchronous Redis bucket.

A task runs undisturbed from one reply to the next request.  `failing_rate` is
one field that every put reply overwrites, and `waiting` reads it twice: before
it asks for the bound item and again after the answer has come, when another
task's put may have been admitted in between.
-/

import PyrateLimiter.Foundations.TransitionSystem
import PyrateLimiter.Limiter
import PyrateLimiter.RedisBucket

namespace PyrateLimiter

open Foundations.SortedSets
open Foundations.TransitionSystem

/-- Where a task is in `try_acquire`: between a request and its execution by the
server, between that and the reply, or asleep.  `first` marks the put that is
followed by `_delay_waiter`. -/
inductive TaskPhase where
  | idle
  | putSent (item : RateItem) (first : Bool)
  | putReplied (item : RateItem) (first : Bool) (failingRate : Option Rate)
  | rangeSent (item : RateItem) (index : Int)
  | rangeReplied (item : RateItem) (receivedItems : List (String × Int))
  | sleeping (item : RateItem) (sleepMs : Int)
  | finished (verdict : Verdict)
  deriving DecidableEq

namespace TaskPhase

def afterDelay (bufferMs : Nat) (item : RateItem) (delay : Int) : TaskPhase :=
  match delayToSleepMs bufferMs delay with
  | none => .finished (.returned false)
  | some sleepMs => .sleeping item sleepMs

def afterWaitingStart (bufferMs : Nat) (item : RateItem) : Except PyError Waiting → TaskPhase
  | .error raised => .finished (.raised raised)
  | .ok (.ready milliseconds) => afterDelay bufferMs item milliseconds
  | .ok (.peek index) => .rangeSent item index

def afterWaitingFinish (bufferMs : Nat) (item : RateItem) : Except PyError Int → TaskPhase
  | .error raised => .finished (.raised raised)
  | .ok delay => afterDelay bufferMs item delay

def afterPutReply (bufferMs : Nat) (item : RateItem) (first : Bool) (failingRate : Option Rate) :
    TaskPhase :=
  if failingRate.isNone then .finished (.returned true)
  else
    match first, failingRate with
    -- The assertion of `_delay_waiter`, on the field as it was just stored.
    | true, none => .finished (.raised (.assertionError ""))
    | _, _ => afterWaitingStart bufferMs item (waitingStart failingRate item)

end TaskPhase

inductive TaskAction (Task : Type) where
  | call (task : Task) (item : RateItem)
  | runScript (task : Task) (id : String)
  | receivePut (task : Task)
  | runRange (task : Task)
  | receiveRange (task : Task)
  | wake (task : Task)
  | othersChange (set : RedisSet)

structure EventLoop (Task : Type) where
  bucket : RedisBucket
  set : RedisSet
  phase : Task → TaskPhase
  received : List Bool

namespace EventLoop

variable {Task : Type}

def start (rates : RateList) (set : RedisSet) : EventLoop Task :=
  { bucket := { rates := rates, failingRate := none }
    set := set
    phase := fun _ => .idle
    received := [] }

def CallsReturn (system : EventLoop Task) : Prop :=
  ∀ task verdict, system.phase task = .finished verdict →
    ∃ acquired, verdict = .returned acquired

/-- A bound item that arrives finds the last put reply to be a refusal. -/
def RefusalLast (system : EventLoop Task) : TaskAction Task → Prop
  | .receiveRange task => ∀ item receivedItems,
      system.phase task = .rangeReplied item receivedItems → receivedItems ≠ [] →
        system.received.getLast? ≠ some true
  | _ => True

variable [DecidableEq Task]

def move (system : EventLoop Task) (task : Task) (phase : TaskPhase) : EventLoop Task :=
  { system with phase := Function.update system.phase task phase }

/-- One step of a task, of the server for a task, or of other clients and the
leaker on the set. -/
def step (bufferMs : Nat) (system : EventLoop Task) : TaskAction Task → Option (EventLoop Task)
  | .call task item =>
      match system.phase task with
      | .idle | .finished _ =>
          if 1 ≤ item.weight then some (system.move task (.putSent item true)) else none
      | _ => none
  | .runScript task id =>
      match system.phase task with
      | .putSent item first => do
          let (failingRate, set) ←
            RedisBucket.checkAndInsert system.bucket.rates system.set item id
          some { system.move task (.putReplied item first failingRate) with set := set }
      | _ => none
  | .receivePut task =>
      match system.phase task with
      | .putReplied item first failingRate =>
          some
            { system.move task (TaskPhase.afterPutReply bufferMs item first failingRate) with
              bucket := { system.bucket with failingRate := failingRate }
              received := system.received ++ [failingRate.isNone] }
      | _ => none
  | .runRange task =>
      match system.phase task with
      | .rangeSent item index =>
          some (system.move task (.rangeReplied item (RedisBucket.zrange system.set index)))
      | _ => none
  | .receiveRange task =>
      match system.phase task with
      | .rangeReplied item receivedItems =>
          some (system.move task (TaskPhase.afterWaitingFinish bufferMs item
            (waitingFinish system.bucket.failingRate item
              (RedisBucket.handleItems receivedItems))))
      | _ => none
  | .wake task =>
      match system.phase task with
      | .sleeping item sleepMs => some (system.move task (.putSent (item.delay sleepMs) false))
      | _ => none
  | .othersChange set => some { system with set := set }

end EventLoop

/-- What is known of a task: weights are positive, and a task that waits for a
bound item has received the refusal of its put. -/
def TaskPhase.Sound (received : List Bool) : TaskPhase → Prop
  | .idle => True
  | .putSent item _ | .putReplied item _ _ | .sleeping item _ => 1 ≤ item.weight
  | .rangeSent item _ | .rangeReplied item _ => 1 ≤ item.weight ∧ received ≠ []
  | .finished verdict => ∃ acquired, verdict = .returned acquired

namespace TaskPhase

theorem Sound.append {received : List Bool} {phase : TaskPhase} (sound : phase.Sound received)
    (later : List Bool) : phase.Sound (received ++ later) := by
  cases phase with
  | rangeSent item index => exact ⟨sound.1, List.append_ne_nil_of_left_ne_nil sound.2 later⟩
  | rangeReplied item items => exact ⟨sound.1, List.append_ne_nil_of_left_ne_nil sound.2 later⟩
  | _ => exact sound

theorem sound_afterDelay (bufferMs : Nat) {item : RateItem} {received : List Bool}
    (positive : 1 ≤ item.weight) (delay : Int) :
    (afterDelay bufferMs item delay).Sound received := by
  unfold afterDelay
  cases delayToSleepMs bufferMs delay with
  | none => exact ⟨false, rfl⟩
  | some sleepMs => exact positive

theorem sound_afterPutReply {bufferMs : Nat} {item : RateItem} {received : List Bool}
    (positive : 1 ≤ item.weight) (replied : received ≠ []) (first : Bool)
    (failingRate : Option Rate) :
    (afterPutReply bufferMs item first failingRate).Sound received := by
  have weighty : ¬item.weight ≤ 0 := by omega
  unfold afterPutReply
  cases failingRate with
  | none => exact ⟨true, rfl⟩
  | some rate =>
      have proceeds : (afterWaitingStart bufferMs item (waitingStart (some rate) item)).Sound
          received := by
        unfold waitingStart
        simp only [if_neg weighty]
        by_cases heavy : rate.limit < item.weight
        · rw [if_pos heavy]
          exact sound_afterDelay bufferMs positive (-1)
        · rw [if_neg heavy]
          exact ⟨positive, replied⟩
      cases first <;> exact proceeds

theorem sound_afterWaitingFinish {bufferMs : Nat} {item : RateItem} {received : List Bool}
    (positive : 1 ≤ item.weight) (failingRate : Option Rate)
    (receivedItems : List (String × Int)) :
    (afterWaitingFinish bufferMs item
        (waitingFinish failingRate item (RedisBucket.handleItems receivedItems))).Sound received ↔
      (receivedItems ≠ [] → failingRate.isNone = false) := by
  cases receivedItems with
  | nil =>
      have proceeds : (afterDelay bufferMs item 0).Sound received :=
        sound_afterDelay bufferMs positive 0
      exact ⟨fun _sound absent => absurd rfl absent, fun _present => proceeds⟩
  | cons entry rest =>
      cases failingRate with
      | none =>
          constructor
          · rintro ⟨acquired, impossible⟩
            cases impossible
          · intro present
            cases present (List.cons_ne_nil entry rest)
      | some rate =>
          constructor
          · intro _sound _present
            rfl
          · intro _present
            exact sound_afterDelay bufferMs positive _

end TaskPhase

namespace EventLoop

variable {Task : Type}

structure TaskInvariant (system : EventLoop Task) : Prop where
  failing : system.bucket.failingRate.isNone = system.received.getLast?.getD true
  sound : ∀ task, (system.phase task).Sound system.received

namespace TaskInvariant

variable {before after : EventLoop Task}

theorem start (rates : RateList) (set : RedisSet) :
    TaskInvariant (EventLoop.start rates set : EventLoop Task) where
  failing := rfl
  sound := fun _task => trivial

theorem callsReturn (invariant : TaskInvariant before) : before.CallsReturn := by
  intro task verdict ended
  have known := invariant.sound task
  rw [ended] at known
  exact known

/-- At a task that waits for its bound item, the failing rate is still there if
the last reply was a refusal. -/
theorem failing_iff (invariant : TaskInvariant before) {task : Task} {item : RateItem}
    {receivedItems : List (String × Int)}
    (current : before.phase task = .rangeReplied item receivedItems) :
    before.bucket.failingRate.isNone = false ↔ before.received.getLast? ≠ some true := by
  have known := invariant.sound task
  rw [current] at known
  rw [invariant.failing]
  cases last : before.received.getLast? with
  | none => exact absurd (List.getLast?_eq_none_iff.mp last) known.2
  | some admitted => cases admitted <;> simp

variable [DecidableEq Task]

theorem moved (invariant : TaskInvariant before) {task : Task} {phase : TaskPhase}
    (sameFailing : after.bucket.failingRate = before.bucket.failingRate)
    (sameReceived : after.received = before.received)
    (updated : after.phase = Function.update before.phase task phase)
    (sound : phase.Sound before.received) : TaskInvariant after where
  failing := by rw [sameFailing, sameReceived]; exact invariant.failing
  sound := by
    rw [sameReceived, updated, Function.forall_update_iff before.phase
      (fun _other phase => phase.Sound before.received)]
    exact ⟨sound, fun other _different => invariant.sound other⟩

theorem step {bufferMs : Nat} {action : TaskAction Task} (invariant : TaskInvariant before)
    (last : before.RefusalLast action) (taken : before.step bufferMs action = some after) :
    TaskInvariant after := by
  cases action with
  | call task item =>
      simp only [EventLoop.step] at taken
      split at taken
      · split at taken
        · rename_i positive
          cases taken
          exact invariant.moved rfl rfl rfl positive
        · cases taken
      · split at taken
        · rename_i positive
          cases taken
          exact invariant.moved rfl rfl rfl positive
        · cases taken
      · cases taken
  | runScript task id =>
      simp only [EventLoop.step] at taken
      split at taken
      · rename_i item first current
        have known := invariant.sound task
        rw [current] at known
        rw [RedisBucket.checkAndInsert_eq] at taken
        cases taken
        exact invariant.moved rfl rfl rfl known
      · cases taken
  | receivePut task =>
      simp only [EventLoop.step] at taken
      split at taken
      · rename_i item first failingRate current
        have known := invariant.sound task
        rw [current] at known
        cases taken
        exact
          { failing := by
              simp only [List.getLast?_append, List.getLast?_singleton, Option.some_or,
                Option.getD_some]
            sound := by
              change ∀ other, (Function.update before.phase task
                (TaskPhase.afterPutReply bufferMs item first failingRate) other).Sound
                  (before.received ++ [failingRate.isNone])
              rw [Function.forall_update_iff before.phase
                (fun _other phase =>
                  phase.Sound (before.received ++ [failingRate.isNone]))]
              refine ⟨TaskPhase.sound_afterPutReply known ?_ first failingRate, ?_⟩
              · exact List.append_ne_nil_of_right_ne_nil _ (List.cons_ne_nil _ _)
              · exact fun other _different => (invariant.sound other).append _ }
      · cases taken
  | runRange task =>
      simp only [EventLoop.step] at taken
      split at taken
      · rename_i item index current
        have known := invariant.sound task
        rw [current] at known
        cases taken
        exact invariant.moved rfl rfl rfl known
      · cases taken
  | receiveRange task =>
      simp only [EventLoop.step] at taken
      split at taken
      · rename_i item receivedItems current
        have known := invariant.sound task
        rw [current] at known
        cases taken
        refine invariant.moved rfl rfl rfl ?_
        rw [TaskPhase.sound_afterWaitingFinish known.1, invariant.failing_iff current]
        exact last item receivedItems current
      · cases taken
  | wake task =>
      simp only [EventLoop.step] at taken
      split at taken
      · rename_i item sleepMs current
        have known := invariant.sound task
        rw [current] at known
        cases taken
        exact invariant.moved rfl rfl rfl known
      · cases taken
  | othersChange set =>
      cases taken
      exact
        { failing := invariant.failing
          sound := invariant.sound }

/-- A bound item that arrives after an admission ends its task in an error. -/
theorem not_callsReturn_of_admission {bufferMs : Nat} {action : TaskAction Task}
    (invariant : TaskInvariant before) (stale : ¬before.RefusalLast action)
    (taken : before.step bufferMs action = some after) : ¬after.CallsReturn := by
  cases action with
  | receiveRange task =>
      simp only [RefusalLast, not_forall] at stale
      obtain ⟨item, receivedItems, current, present, admission⟩ := stale
      have none : before.bucket.failingRate.isNone ≠ false :=
        fun still => admission ((invariant.failing_iff current).mp still)
      simp only [EventLoop.step, current] at taken
      cases taken
      intro returns
      have known := invariant.sound task
      rw [current] at known
      obtain ⟨entry, rest, rfl⟩ := List.exists_cons_of_ne_nil present
      cases failing : before.bucket.failingRate with
      | some rate => exact none (by rw [failing]; rfl)
      | none =>
          obtain ⟨acquired, impossible⟩ := returns task (.raised (.assertionError "")) (by
            simp only [move, Function.update_self, failing]
            rfl)
          cases impossible
  | _ => exact absurd trivial stale

end TaskInvariant

end EventLoop

/-- No call of a task raises exactly as long as every bound item that arrives
finds the last put reply to be a refusal. -/
theorem tasks_return_iff {Task : Type} [DecidableEq Task] (bufferMs : Nat) (rates : RateList)
    (set : RedisSet) (actions : List (TaskAction Task)) :
    Always (EventLoop.step bufferMs) EventLoop.CallsReturn (EventLoop.start rates set) actions ↔
      StepsMeet (EventLoop.step bufferMs) EventLoop.RefusalLast (EventLoop.start rates set)
        actions :=
  always_iff_stepsMeet
    (fun _before invariant => EventLoop.TaskInvariant.callsReturn invariant)
    (fun _before _action _after invariant last taken => invariant.step last taken)
    (fun _before _action _after invariant stale taken =>
      invariant.not_callsReturn_of_admission stale taken)
    (EventLoop.TaskInvariant.start rates set) actions

inductive TwoTasks where
  | heavy
  | light
  deriving DecidableEq

/-- The heavy task is refused and asks for its bound item; before the answer comes
the put of the light task is admitted. -/
def admittedMeanwhile : List (TaskAction TwoTasks) :=
  [.call .heavy ⟨"heavy", 0, 2⟩, .runScript .heavy "a", .receivePut .heavy,
    .call .light ⟨"light", 0, 1⟩, .runScript .light "b", .receivePut .light,
    .runRange .heavy, .receiveRange .heavy]

theorem admittedMeanwhile_raises :
    (exec (EventLoop.step 50) (EventLoop.start twoIn100ThreeIn1000
        (SortedSet.empty.add "stored" 0)) admittedMeanwhile).map (fun final => final.phase .heavy) =
      some (.finished (.raised (.assertionError ""))) ∧
    ¬Always (EventLoop.step 50) EventLoop.CallsReturn (EventLoop.start twoIn100ThreeIn1000
      (SortedSet.empty.add "stored" 0)) admittedMeanwhile := by
  have ran : (exec (EventLoop.step 50) (EventLoop.start twoIn100ThreeIn1000
      (SortedSet.empty.add "stored" 0)) admittedMeanwhile).map (fun final => final.phase .heavy) =
        some (.finished (.raised (.assertionError ""))) := by
    decide
  refine ⟨ran, ?_⟩
  intro always
  obtain ⟨final, run, ended⟩ := Option.map_eq_some_iff.mp ran
  obtain ⟨acquired, impossible⟩ := always.reached run .heavy _ ended
  cases impossible

end PyrateLimiter
