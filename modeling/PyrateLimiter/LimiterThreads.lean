/-
Threads that share one limiter over an in-memory bucket, with the background leaker.

A call of `try_acquire` is cut where another thread or the leaker can get in
between: the limiter lock is taken, the clock is read, the item is put, the wait
is computed, the lock is released, and after the sleep the lock is taken again
for the next put.  The leaker reads the clock and leaks in two steps of its own,
without the limiter lock.  A timeout can end a call wherever it does not hold
the lock.
-/

import PyrateLimiter.AdmittedHistory
import PyrateLimiter.Foundations.ExclusiveLock
import PyrateLimiter.Foundations.TransitionSystem
import PyrateLimiter.Limiter

namespace PyrateLimiter

open Foundations

structure Request where
  name : String
  weight : Int
  blocking : Bool
  deriving DecidableEq, Repr

inductive Phase where
  | idle
  | entered (request : Request)
  | stamped (item : RateItem) (blocking : Bool)
  | refused (item : RateItem)
  | planned (item : RateItem) (waitMs : Int)
  | leaving (verdict : Verdict)
  | sleeping (item : RateItem) (sleepMs : Int) (wakeAt : Int)
  | resumed (item : RateItem)
  | finished (verdict : Verdict)

def Phase.holds : Phase → Bool
  | .entered _ | .stamped _ _ | .refused _ | .planned _ _ | .leaving _ | .resumed _ => true
  | .idle | .sleeping _ _ _ | .finished _ => false

/-- The put a lock holder is about to make, and whether a refusal makes it wait. -/
def Phase.pending : Phase → Option (RateItem × Bool)
  | .stamped item blocking => some (item, blocking)
  | .resumed item => some (item, true)
  | _ => none

theorem Phase.holds_of_pending {phase : Phase} {item : RateItem} {blocking : Bool}
    (current : phase.pending = some (item, blocking)) : phase.holds = true := by
  cases phase with
  | stamped item blocking => rfl
  | resumed item => rfl
  | _ => cases current

def Request.enter (request : Request) (now : Int) : Phase :=
  if request.weight < 0 then
    .leaving (.raised (.assertionError "item's weight must be >= 0"))
  else if request.weight = 0 then .leaving (.returned true)
  else .stamped (wrapItem now request.name request.weight) request.blocking

def Phase.afterPut (item : RateItem) (acquired blocking : Bool) : Phase :=
  if acquired then .leaving (.returned true)
  else if blocking then .refused item
  else .leaving (.returned false)

def Phase.afterWaiting (item : RateItem) (answer : Except PyError Int) : Phase :=
  match answer with
  | .error raised => .leaving (.raised raised)
  | .ok waitMs => .planned item waitMs

/-- The phase after the lock is released with a wait computed: the sleep lasts at
least until the planned time. -/
def Phase.afterPlanning (bufferMs : Nat) (clock : Int) (item : RateItem) (waitMs : Int) : Phase :=
  match delayToSleepMs bufferMs waitMs with
  | none => .finished (.returned false)
  | some sleepMs => .sleeping item sleepMs (clock + sleepMs)

theorem Phase.afterPlanning_outside (bufferMs : Nat) (clock : Int) (item : RateItem)
    (waitMs : Int) : (Phase.afterPlanning bufferMs clock item waitMs).holds = false := by
  unfold Phase.afterPlanning
  cases delayToSleepMs bufferMs waitMs <;> rfl

/-- No call of the thread is under way. -/
def Phase.away : Phase → Bool
  | .idle | .finished _ => true
  | _ => false

theorem Request.enter_cases (request : Request) (now : Int) :
    (∃ verdict, request.enter now = .leaving verdict) ∨
      ∃ item blocking, request.enter now = .stamped item blocking := by
  unfold Request.enter
  split
  · exact Or.inl ⟨_, rfl⟩
  · split
    · exact Or.inl ⟨_, rfl⟩
    · exact Or.inr ⟨_, _, rfl⟩

theorem Phase.holds_of_away {phase : Phase} (away : phase.away = true) : phase.holds = false := by
  cases phase with
  | idle => rfl
  | finished verdict => rfl
  | _ => cases away

theorem Phase.afterPut_cases (item : RateItem) (acquired blocking : Bool) :
    (∃ verdict, Phase.afterPut item acquired blocking = .leaving verdict) ∨
      Phase.afterPut item acquired blocking = .refused item := by
  unfold Phase.afterPut
  split
  · exact Or.inl ⟨_, rfl⟩
  · split
    · exact Or.inr rfl
    · exact Or.inl ⟨_, rfl⟩

inductive Action (Thread : Type) where
  | tick (now : Int)
  | acquireLock (thread : Thread) (request : Request)
  | failLock (thread : Thread)
  | wrapItem (thread : Thread)
  | put (thread : Thread)
  | computeWait (thread : Thread)
  | releaseLock (thread : Thread)
  | resume (thread : Thread)
  | timeOut (thread : Thread)
  | leakerNow
  | leakerLeak
  deriving DecidableEq, Repr

structure System (Thread : Type) where
  clock : Int
  bucket : InMemoryBucket
  holder : Option Thread
  phase : Thread → Phase
  leaker : Option Int
  /-- The items admitted so far, which the bucket may have leaked. -/
  admitted : List RateItem

namespace System

variable {Thread : Type}

def start (rates : RateList) (clock : Int) : System Thread :=
  { clock := clock
    bucket := InMemoryBucket.empty rates
    holder := none
    phase := fun _ => .idle
    leaker := none
    admitted := [] }

/-- Only the holder of the limiter lock is inside a locked section. -/
def Exclusive (system : System Thread) : Prop :=
  ExclusiveLock.Exclusive Phase.holds system.phase system.holder

variable [DecidableEq Thread]

def move (system : System Thread) (thread : Thread) (phase : Phase) : System Thread :=
  { system with phase := Function.update system.phase thread phase }

/-- One atomic step of a thread, of the leaker or of the clock. -/
def step (bufferMs : Nat) (system : System Thread) : Action Thread → Option (System Thread)
  | .tick now => if system.clock ≤ now then some { system with clock := now } else none
  | .acquireLock thread request =>
      match system.phase thread, system.holder with
      | .idle, none | .finished _, none =>
          some { system.move thread (.entered request) with holder := some thread }
      | _, _ => none
  | .failLock thread =>
      match system.phase thread with
      | .idle | .finished _ => some (system.move thread (.finished (.returned false)))
      | _ => none
  | .wrapItem thread =>
      match system.phase thread with
      | .entered request => some (system.move thread (request.enter system.clock))
      | _ => none
  | .put thread =>
      match (system.phase thread).pending with
      | some (item, blocking) =>
          let (acquired, bucket) := system.bucket.put item
          some
            { system.move thread (Phase.afterPut item acquired blocking) with
              bucket := bucket
              admitted := if acquired then system.admitted ++ [item] else system.admitted }
      | none => none
  | .computeWait thread =>
      match system.phase thread with
      | .refused item =>
          some (system.move thread (Phase.afterWaiting item (system.bucket.waiting item)))
      | _ => none
  | .releaseLock thread =>
      match system.phase thread with
      | .leaving verdict =>
          some { system.move thread (.finished verdict) with holder := none }
      | .planned item waitMs =>
          some
            { system.move thread (Phase.afterPlanning bufferMs system.clock item waitMs) with
              holder := none }
      | _ => none
  | .resume thread =>
      match system.phase thread, system.holder with
      | .sleeping item sleepMs wakeAt, none =>
          if wakeAt ≤ system.clock then
            some
              { system.move thread (.resumed (item.delay sleepMs)) with holder := some thread }
          else none
      | _, _ => none
  | .timeOut thread =>
      match system.phase thread with
      | .sleeping _ _ _ => some (system.move thread (.finished (.returned false)))
      | _ => none
  | .leakerNow => some { system with leaker := some system.clock }
  | .leakerLeak =>
      match system.leaker with
      | some now => some { system with bucket := (system.bucket.leak now).2, leaker := none }
      | none => none

/-! ### What a step can do -/

inductive Taken (bufferMs : Nat) (before : System Thread) :
    Action Thread → System Thread → Prop
  | tick (now : Int) (later : before.clock ≤ now) :
      Taken bufferMs before (.tick now) { before with clock := now }
  | acquireLock (thread : Thread) (request : Request)
      (outside : (before.phase thread).holds = false) (free : before.holder = none) :
      Taken bufferMs before (.acquireLock thread request)
        { before.move thread (.entered request) with holder := some thread }
  | failLock (thread : Thread) (outside : (before.phase thread).holds = false) :
      Taken bufferMs before (.failLock thread) (before.move thread (.finished (.returned false)))
  | wrapItem (thread : Thread) (request : Request)
      (current : before.phase thread = .entered request) :
      Taken bufferMs before (.wrapItem thread) (before.move thread (request.enter before.clock))
  | put (thread : Thread) (item : RateItem) (blocking : Bool)
      (current : (before.phase thread).pending = some (item, blocking)) :
      Taken bufferMs before (.put thread)
        { before.move thread (Phase.afterPut item (before.bucket.put item).1 blocking) with
          bucket := (before.bucket.put item).2
          admitted :=
            if (before.bucket.put item).1 then before.admitted ++ [item] else before.admitted }
  | computeWait (thread : Thread) (item : RateItem)
      (current : before.phase thread = .refused item) :
      Taken bufferMs before (.computeWait thread)
        (before.move thread (Phase.afterWaiting item (before.bucket.waiting item)))
  | leave (thread : Thread) (verdict : Verdict)
      (current : before.phase thread = .leaving verdict) :
      Taken bufferMs before (.releaseLock thread)
        { before.move thread (.finished verdict) with holder := none }
  | plan (thread : Thread) (item : RateItem) (waitMs : Int)
      (current : before.phase thread = .planned item waitMs) :
      Taken bufferMs before (.releaseLock thread)
        { before.move thread (Phase.afterPlanning bufferMs before.clock item waitMs) with
          holder := none }
  | resume (thread : Thread) (item : RateItem) (sleepMs wakeAt : Int)
      (current : before.phase thread = .sleeping item sleepMs wakeAt)
      (free : before.holder = none) (awake : wakeAt ≤ before.clock) :
      Taken bufferMs before (.resume thread)
        { before.move thread (.resumed (item.delay sleepMs)) with holder := some thread }
  | timeOut (thread : Thread) (outside : (before.phase thread).holds = false) :
      Taken bufferMs before (.timeOut thread) (before.move thread (.finished (.returned false)))
  | leakerNow : Taken bufferMs before .leakerNow { before with leaker := some before.clock }
  | leakerLeak (now : Int) (reading : before.leaker = some now) :
      Taken bufferMs before .leakerLeak
        { before with bucket := (before.bucket.leak now).2, leaker := none }

theorem step_cases {bufferMs : Nat} {before after : System Thread} {action : Action Thread}
    (taken : before.step bufferMs action = some after) :
    Taken bufferMs before action after := by
  cases action with
  | tick now =>
      simp only [step] at taken
      split at taken
      · rename_i later
        cases taken
        exact .tick now later
      · cases taken
  | acquireLock thread request =>
      simp only [step] at taken
      split at taken
      · rename_i idle free
        cases taken
        exact .acquireLock thread request (by rw [idle]; rfl) free
      · rename_i finished free
        cases taken
        exact .acquireLock thread request (by rw [finished]; rfl) free
      · cases taken
  | failLock thread =>
      simp only [step] at taken
      split at taken
      · rename_i idle
        cases taken
        exact .failLock thread (by rw [idle]; rfl)
      · rename_i finished
        cases taken
        exact .failLock thread (by rw [finished]; rfl)
      · cases taken
  | wrapItem thread =>
      simp only [step] at taken
      split at taken
      · rename_i request current
        cases taken
        exact .wrapItem thread request current
      · cases taken
  | put thread =>
      simp only [step] at taken
      split at taken
      · rename_i item blocking current
        cases taken
        exact .put thread item blocking current
      · cases taken
  | computeWait thread =>
      simp only [step] at taken
      split at taken
      · rename_i item current
        cases taken
        exact .computeWait thread item current
      · cases taken
  | releaseLock thread =>
      simp only [step] at taken
      split at taken
      · rename_i verdict current
        cases taken
        exact .leave thread verdict current
      · rename_i item waitMs current
        cases taken
        exact .plan thread item waitMs current
      · cases taken
  | resume thread =>
      simp only [step] at taken
      split at taken
      · rename_i item sleepMs wakeAt current free
        split at taken
        · rename_i awake
          cases taken
          exact .resume thread item sleepMs wakeAt current free awake
        · cases taken
      · cases taken
  | timeOut thread =>
      simp only [step] at taken
      split at taken
      · rename_i current
        cases taken
        exact .timeOut thread (by rw [current]; rfl)
      · cases taken
  | leakerNow =>
      cases taken
      exact .leakerNow
  | leakerLeak =>
      simp only [step] at taken
      split at taken
      · rename_i now reading
        cases taken
        exact .leakerLeak now reading
      · cases taken

theorem Exclusive.step {bufferMs : Nat} {before after : System Thread} {action : Action Thread}
    (exclusive : before.Exclusive) (taken : before.step bufferMs action = some after) :
    after.Exclusive := by
  cases step_cases taken with
  | tick now later => exact exclusive
  | acquireLock thread request outside free => exact exclusive.acquire free thread _
  | failLock thread outside => exact exclusive.move (fun impossible => by cases impossible)
  | wrapItem thread request current =>
      exact exclusive.move (fun _ => exclusive thread (by rw [current]; rfl))
  | put thread item blocking current =>
      exact exclusive.move (fun _ => exclusive thread (Phase.holds_of_pending current))
  | computeWait thread item current =>
      exact exclusive.move (fun _ => exclusive thread (by rw [current]; rfl))
  | leave thread verdict current => exact exclusive.release (by rw [current]; rfl) rfl
  | plan thread item waitMs current =>
      exact exclusive.release (by rw [current]; rfl)
        (Phase.afterPlanning_outside bufferMs before.clock item waitMs)
  | resume thread item sleepMs wakeAt current free awake => exact exclusive.acquire free thread _
  | timeOut thread outside => exact exclusive.move (fun impossible => by cases impossible)
  | leakerNow => exact exclusive
  | leakerLeak now reading => exact exclusive

end System

end PyrateLimiter
