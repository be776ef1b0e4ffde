/-
Coroutines that share one limiter over an in-memory bucket, on one thread.

A call of `try_acquire_async` queues up at the asyncio lock of its loop and keeps
the lock while it sleeps, so that no other call of the loop puts an item before
it has an answer.  The call is cut where the loop, the clock or the leaker can
get in between: the leaker is a thread of its own.  A timeout can end a call
that waits for the lock or sleeps.
-/

import Mathlib.Data.Fintype.Option
import PyrateLimiter.AsyncLocks
import PyrateLimiter.LimiterThreads

namespace PyrateLimiter

open Foundations.FairLocks
open Foundations.TransitionSystem

/-- The calls are numbered in the order in which they come to the lock. -/
structure LoopSystem (Coroutine Loop : Type) where
  thread : LoopThread Coroutine Loop
  clock : Int
  bucket : InMemoryBucket
  /-- What the coroutine's current call asks for. -/
  request : Coroutine → Request
  phase : Coroutine → Phase
  leaker : Option Int
  calls : Nat
  turn : Coroutine → Nat
  /-- The refused puts of the coroutine's current call. -/
  refusals : Coroutine → Nat
  admitted : List RateItem
  /-- The numbers of the calls that the items were admitted for. -/
  served : List Nat

inductive LoopSystemAction (Coroutine Loop : Type) where
  | tick (now : Int)
  | runLoop (loop : Loop)
  | call (coroutine : Coroutine) (request : Request)
  | enter (coroutine : Coroutine)
  | giveUp (coroutine : Coroutine)
  | wrapItem (coroutine : Coroutine)
  | put (coroutine : Coroutine)
  | computeWait (coroutine : Coroutine)
  | sleep (coroutine : Coroutine)
  | wake (coroutine : Coroutine)
  | timeOut (coroutine : Coroutine)
  | leave (coroutine : Coroutine)
  | leakerNow
  | leakerLeak

namespace LoopSystem

variable {Coroutine Loop : Type}

def start (rates : RateList) (clock : Int) : LoopSystem Coroutine Loop :=
  { thread := .start
    clock := clock
    bucket := InMemoryBucket.empty rates
    request := fun _ => ⟨"pyrate", 1, true⟩
    phase := fun _ => .idle
    leaker := none
    calls := 0
    turn := fun _ => 0
    refusals := fun _ => 0
    admitted := []
    served := [] }

section Steps

variable [DecidableEq Coroutine] [DecidableEq Loop]

def move (system : LoopSystem Coroutine Loop) (coroutine : Coroutine) (phase : Phase) :
    LoopSystem Coroutine Loop :=
  { system with phase := Function.update system.phase coroutine phase }

/-- A call has come to the lock, and has taken it or waits for its turn. -/
def called (system : LoopSystem Coroutine Loop) (coroutine : Coroutine) (request : Request)
    (thread : LoopThread Coroutine Loop) : LoopSystem Coroutine Loop :=
  { system.move coroutine
      (if (thread.locks.place coroutine).isInside then .entered request else .idle) with
    thread := thread
    request := Function.update system.request coroutine request
    calls := system.calls + 1
    turn := Function.update system.turn coroutine system.calls
    refusals := Function.update system.refusals coroutine 0 }

/-- The put of a coroutine, the first one of its call or one after a sleep. -/
def recorded (system : LoopSystem Coroutine Loop) (coroutine : Coroutine) (item : RateItem)
    (blocking : Bool) : LoopSystem Coroutine Loop :=
  let (acquired, bucket) := system.bucket.put item
  { system.move coroutine (Phase.afterPut item acquired blocking) with
    bucket := bucket
    refusals :=
      if acquired then system.refusals
      else Function.update system.refusals coroutine (system.refusals coroutine + 1)
    admitted := if acquired then system.admitted ++ [item] else system.admitted
    served := if acquired then system.served ++ [system.turn coroutine] else system.served }

variable (loopOf : Coroutine → Loop)

/-- A coroutine does something while its own loop runs. -/
def whileRunning (system : LoopSystem Coroutine Loop) (coroutine : Coroutine)
    (next : LoopSystem Coroutine Loop) : Option (LoopSystem Coroutine Loop) :=
  if system.thread.running = some (loopOf coroutine) then some next else none

/-- One atomic step of a coroutine, of the leaker or of the clock. -/
def step (bufferMs : Nat) (system : LoopSystem Coroutine Loop) :
    LoopSystemAction Coroutine Loop → Option (LoopSystem Coroutine Loop)
  | .tick now => if system.clock ≤ now then some { system with clock := now } else none
  | .runLoop loop =>
      (system.thread.step loopOf (.runLoop loop)).map
        (fun thread => { system with thread := thread })
  | .call coroutine request =>
      if request.weight = 0 then
        if system.thread.locks.place coroutine = .outside then
          system.whileRunning loopOf coroutine
            (system.move coroutine (.finished (.returned true)))
        else none
      else (system.thread.step loopOf (.enter coroutine)).map (system.called coroutine request)
  | .enter coroutine =>
      (system.thread.step loopOf (.resume coroutine)).map
        (fun thread =>
          { system.move coroutine (.entered (system.request coroutine)) with thread := thread })
  | .giveUp coroutine =>
      (system.thread.step loopOf (.cancel coroutine)).map
        (fun thread =>
          { system.move coroutine (.finished (.returned false)) with thread := thread })
  | .wrapItem coroutine =>
      match system.phase coroutine with
      | .entered request =>
          system.whileRunning loopOf coroutine
            (system.move coroutine (request.enter system.clock))
      | _ => none
  | .put coroutine =>
      match (system.phase coroutine).pending with
      | some (item, blocking) =>
          system.whileRunning loopOf coroutine (system.recorded coroutine item blocking)
      | none => none
  | .computeWait coroutine =>
      match system.phase coroutine with
      | .refused item =>
          system.whileRunning loopOf coroutine
            (system.move coroutine (Phase.afterWaiting item (system.bucket.waiting item)))
      | _ => none
  | .sleep coroutine =>
      match system.phase coroutine with
      | .planned item waitMs =>
          system.whileRunning loopOf coroutine
            (system.move coroutine (Phase.afterPlanning bufferMs system.clock item waitMs))
      | _ => none
  | .wake coroutine =>
      match system.phase coroutine with
      | .sleeping item sleepMs wakeAt =>
          if wakeAt ≤ system.clock then
            system.whileRunning loopOf coroutine
              (system.move coroutine (.resumed (item.delay sleepMs)))
          else none
      | _ => none
  | .timeOut coroutine =>
      match system.phase coroutine with
      | .sleeping _ _ _ =>
          system.whileRunning loopOf coroutine
            (system.move coroutine (.finished (.returned false)))
      | _ => none
  | .leave coroutine =>
      match system.phase coroutine with
      | .leaving verdict | .finished verdict =>
          (system.thread.step loopOf (.leave coroutine)).map
            (fun thread =>
              { system.move coroutine (.finished verdict) with thread := thread })
      | _ => none
  | .leakerNow => some { system with leaker := some system.clock }
  | .leakerLeak =>
      match system.leaker with
      | some now => some { system with bucket := (system.bucket.leak now).2, leaker := none }
      | none => none

end Steps

/-! ### What a step can do -/

variable [DecidableEq Coroutine] [DecidableEq Loop]

inductive Taken (loopOf : Coroutine → Loop) (bufferMs : Nat)
    (before : LoopSystem Coroutine Loop) :
    LoopSystemAction Coroutine Loop → LoopSystem Coroutine Loop → Prop
  | tick (now : Int) (later : before.clock ≤ now) :
      Taken loopOf bufferMs before (.tick now) { before with clock := now }
  | runLoop (loop : Loop) :
      Taken loopOf bufferMs before (.runLoop loop)
        { before with thread := { before.thread with running := some loop } }
  | passBy (coroutine : Coroutine) (request : Request) (weightless : request.weight = 0)
      (outside : before.thread.locks.place coroutine = .outside) :
      Taken loopOf bufferMs before (.call coroutine request)
        (before.move coroutine (.finished (.returned true)))
  | call (coroutine : Coroutine) (request : Request) (thread : LoopThread Coroutine Loop)
      (weighty : request.weight ≠ 0)
      (moved : before.thread.step loopOf (.enter coroutine) = some thread) :
      Taken loopOf bufferMs before (.call coroutine request)
        (before.called coroutine request thread)
  | enter (coroutine : Coroutine) (thread : LoopThread Coroutine Loop)
      (moved : before.thread.step loopOf (.resume coroutine) = some thread) :
      Taken loopOf bufferMs before (.enter coroutine)
        { before.move coroutine (.entered (before.request coroutine)) with thread := thread }
  | giveUp (coroutine : Coroutine) (thread : LoopThread Coroutine Loop)
      (moved : before.thread.step loopOf (.cancel coroutine) = some thread) :
      Taken loopOf bufferMs before (.giveUp coroutine)
        { before.move coroutine (.finished (.returned false)) with thread := thread }
  | wrapItem (coroutine : Coroutine) (request : Request)
      (current : before.phase coroutine = .entered request) :
      Taken loopOf bufferMs before (.wrapItem coroutine)
        (before.move coroutine (request.enter before.clock))
  | put (coroutine : Coroutine) (item : RateItem) (blocking : Bool)
      (current : (before.phase coroutine).pending = some (item, blocking)) :
      Taken loopOf bufferMs before (.put coroutine) (before.recorded coroutine item blocking)
  | computeWait (coroutine : Coroutine) (item : RateItem)
      (current : before.phase coroutine = .refused item) :
      Taken loopOf bufferMs before (.computeWait coroutine)
        (before.move coroutine (Phase.afterWaiting item (before.bucket.waiting item)))
  | sleep (coroutine : Coroutine) (item : RateItem) (waitMs : Int)
      (current : before.phase coroutine = .planned item waitMs) :
      Taken loopOf bufferMs before (.sleep coroutine)
        (before.move coroutine (Phase.afterPlanning bufferMs before.clock item waitMs))
  | wake (coroutine : Coroutine) (item : RateItem) (sleepMs wakeAt : Int)
      (current : before.phase coroutine = .sleeping item sleepMs wakeAt)
      (awake : wakeAt ≤ before.clock) :
      Taken loopOf bufferMs before (.wake coroutine)
        (before.move coroutine (.resumed (item.delay sleepMs)))
  | timeOut (coroutine : Coroutine) (item : RateItem) (sleepMs wakeAt : Int)
      (current : before.phase coroutine = .sleeping item sleepMs wakeAt) :
      Taken loopOf bufferMs before (.timeOut coroutine)
        (before.move coroutine (.finished (.returned false)))
  | leave (coroutine : Coroutine) (verdict : Verdict) (thread : LoopThread Coroutine Loop)
      (ending : before.phase coroutine = .leaving verdict ∨
        before.phase coroutine = .finished verdict)
      (moved : before.thread.step loopOf (.leave coroutine) = some thread) :
      Taken loopOf bufferMs before (.leave coroutine)
        { before.move coroutine (.finished verdict) with thread := thread }
  | leakerNow : Taken loopOf bufferMs before .leakerNow { before with leaker := some before.clock }
  | leakerLeak (now : Int) (reading : before.leaker = some now) :
      Taken loopOf bufferMs before .leakerLeak
        { before with bucket := (before.bucket.leak now).2, leaker := none }

variable {loopOf : Coroutine → Loop}

omit [DecidableEq Coroutine] in
theorem whileRunning_eq {system next after : LoopSystem Coroutine Loop} {coroutine : Coroutine}
    (taken : system.whileRunning loopOf coroutine next = some after) : after = next := by
  unfold whileRunning at taken
  split at taken
  · exact (Option.some.inj taken).symm
  · cases taken

theorem step_cases {bufferMs : Nat} {before after : LoopSystem Coroutine Loop}
    {action : LoopSystemAction Coroutine Loop}
    (taken : before.step loopOf bufferMs action = some after) :
    Taken loopOf bufferMs before action after := by
  cases action with
  | tick now =>
      simp only [step] at taken
      split at taken
      · rename_i later
        cases taken
        exact .tick now later
      · cases taken
  | runLoop loop =>
      cases taken
      exact .runLoop loop
  | call coroutine request =>
      simp only [step] at taken
      split at taken
      · rename_i weightless
        split at taken
        · rename_i outside
          rw [whileRunning_eq taken]
          exact .passBy coroutine request weightless outside
        · cases taken
      · rename_i weighty
        obtain ⟨thread, moved, rfl⟩ := Option.map_eq_some_iff.mp taken
        exact .call coroutine request thread weighty moved
  | enter coroutine =>
      obtain ⟨thread, moved, rfl⟩ := Option.map_eq_some_iff.mp taken
      exact .enter coroutine thread moved
  | giveUp coroutine =>
      obtain ⟨thread, moved, rfl⟩ := Option.map_eq_some_iff.mp taken
      exact .giveUp coroutine thread moved
  | wrapItem coroutine =>
      simp only [step] at taken
      split at taken
      · rename_i request current
        rw [whileRunning_eq taken]
        exact .wrapItem coroutine request current
      · cases taken
  | put coroutine =>
      simp only [step] at taken
      split at taken
      · rename_i item blocking current
        rw [whileRunning_eq taken]
        exact .put coroutine item blocking current
      · cases taken
  | computeWait coroutine =>
      simp only [step] at taken
      split at taken
      · rename_i item current
        rw [whileRunning_eq taken]
        exact .computeWait coroutine item current
      · cases taken
  | sleep coroutine =>
      simp only [step] at taken
      split at taken
      · rename_i item waitMs current
        rw [whileRunning_eq taken]
        exact .sleep coroutine item waitMs current
      · cases taken
  | wake coroutine =>
      simp only [step] at taken
      split at taken
      · rename_i item sleepMs wakeAt current
        split at taken
        · rename_i awake
          rw [whileRunning_eq taken]
          exact .wake coroutine item sleepMs wakeAt current awake
        · cases taken
      · cases taken
  | timeOut coroutine =>
      simp only [step] at taken
      split at taken
      · rename_i item sleepMs wakeAt current
        rw [whileRunning_eq taken]
        exact .timeOut coroutine item sleepMs wakeAt current
      · cases taken
  | leave coroutine =>
      simp only [step] at taken
      split at taken
      · rename_i verdict current
        obtain ⟨thread, moved, rfl⟩ := Option.map_eq_some_iff.mp taken
        exact .leave coroutine verdict thread (Or.inl current) moved
      · rename_i verdict current
        obtain ⟨thread, moved, rfl⟩ := Option.map_eq_some_iff.mp taken
        exact .leave coroutine verdict thread (Or.inr current) moved
      · cases taken
  | leakerNow =>
      cases taken
      exact .leakerNow
  | leakerLeak =>
      simp only [step] at taken
      split at taken
      · rename_i now reading
        cases taken
        exact .leakerLeak now reading
      · cases taken

end LoopSystem

/-! ### One loop at a time -/

/-- The call is over but for its way out of the lock. -/
def Phase.ended : Phase → Bool
  | .leaving _ | .finished _ => true
  | _ => false

theorem Phase.ended_of_pending {phase : Phase} {item : RateItem} {blocking : Bool}
    (current : phase.pending = some (item, blocking)) :
    phase.ended = false ∧ phase.away = false := by
  cases phase with
  | stamped item blocking => exact ⟨rfl, rfl⟩
  | resumed item => exact ⟨rfl, rfl⟩
  | _ => cases current

namespace LoopThread

variable {Coroutine Loop : Type} [DecidableEq Coroutine] [DecidableEq Loop]
  {loopOf : Coroutine → Loop} {thread after : LoopThread Coroutine Loop} {coroutine : Coroutine}

/-- The lock that the thread remembers is that of every call that is at one. -/
def OnlyRemembered (loopOf : Coroutine → Loop) (thread : LoopThread Coroutine Loop) : Prop :=
  ∀ coroutine, thread.locks.place coroutine ≠ .outside →
    thread.asyncLock.map Prod.snd = some (loopOf coroutine)

theorem step_enter (taken : thread.step loopOf (.enter coroutine) = some after) :
    thread.locks.place coroutine = .outside ∧
      ∃ lock, after.asyncLock = some (lock, loopOf coroutine) ∧
        after.locks = thread.locks.acquire lock coroutine := by
  simp only [step] at taken
  split at taken
  · rename_i ready
    refine ⟨ready.2, ?_⟩
    rcases getAsyncLock_cases thread (loopOf coroutine) with
      ⟨lock, cached, same⟩ | ⟨_uncached, made⟩
    · rw [same] at taken
      cases taken
      exact ⟨lock, cached, rfl⟩
    · rw [made] at taken
      cases taken
      exact ⟨thread.made, rfl, rfl⟩
  · cases taken

theorem step_resume (taken : thread.step loopOf (.resume coroutine) = some after) :
    ∃ locks, thread.locks.resume coroutine = some locks ∧
      after = { thread with locks := locks } := by
  simp only [step] at taken
  split at taken
  · obtain ⟨locks, resumed, rfl⟩ := Option.map_eq_some_iff.mp taken
    exact ⟨locks, resumed, rfl⟩
  · cases taken

theorem step_leave (taken : thread.step loopOf (.leave coroutine) = some after) :
    ∃ locks, thread.locks.release coroutine = some locks ∧
      after = { thread with locks := locks } := by
  simp only [step] at taken
  split at taken
  · obtain ⟨locks, released, rfl⟩ := Option.map_eq_some_iff.mp taken
    exact ⟨locks, released, rfl⟩
  · cases taken

theorem step_cancel (taken : thread.step loopOf (.cancel coroutine) = some after) :
    ∃ locks, thread.locks.cancel coroutine = some locks ∧
      after = { thread with locks := locks } := by
  simp only [step] at taken
  split at taken
  · obtain ⟨locks, cancelled, rfl⟩ := Option.map_eq_some_iff.mp taken
    exact ⟨locks, cancelled, rfl⟩
  · cases taken

namespace OnlyRemembered

omit [DecidableEq Coroutine] [DecidableEq Loop] in
theorem remembers (only : thread.OnlyRemembered loopOf) (loop : Loop) :
    thread.Remembers loopOf loop := by
  by_cases idle : ∀ other, loopOf other = loop → thread.locks.place other = .outside
  · exact Or.inr idle
  · obtain ⟨other, busy⟩ := not_forall.mp idle
    obtain ⟨own, located⟩ := Classical.not_imp.mp busy
    exact Or.inl (by rw [only other located, own])

omit [DecidableEq Coroutine] [DecidableEq Loop] in
theorem entersRemembered (only : thread.OnlyRemembered loopOf)
    (action : LoopAction Coroutine Loop) : thread.EntersRemembered loopOf action := by
  cases action with
  | enter coroutine => exact only.remembers (loopOf coroutine)
  | _ => trivial

omit [DecidableEq Loop] in
/-- A coroutine that was at a lock moves there or goes out. -/
theorem set (only : thread.OnlyRemembered loopOf) {lock : Nat} {current : FairLock Coroutine}
    {place : Place Nat} (located : thread.locks.place coroutine ≠ .outside) :
    OnlyRemembered loopOf
      { thread with locks := thread.locks.set lock current coroutine place } := by
  intro other otherAt
  by_cases moved : other = coroutine
  · rw [moved]
    exact only coroutine located
  · change Function.update thread.locks.place coroutine place other ≠ _ at otherAt
    rw [Function.update_of_ne moved] at otherAt
    exact only other otherAt

end OnlyRemembered

end LoopThread

namespace LoopSystem

variable {Coroutine Loop : Type}

/-- A call comes when no call of another loop is at a lock. -/
def EntersAlone (loopOf : Coroutine → Loop) (system : LoopSystem Coroutine Loop) :
    LoopSystemAction Coroutine Loop → Prop
  | .call coroutine _ => ∀ other, system.thread.locks.place other ≠ .outside →
      loopOf other = loopOf coroutine
  | _ => True

instance EntersAlone.decidable [Fintype Coroutine] [DecidableEq Loop]
    (loopOf : Coroutine → Loop) (system : LoopSystem Coroutine Loop) :
    ∀ action, Decidable (system.EntersAlone loopOf action)
  | .call coroutine _ =>
      inferInstanceAs (Decidable (∀ other, system.thread.locks.place other ≠ .outside →
        loopOf other = loopOf coroutine))
  | .tick _ | .runLoop _ | .enter _ | .giveUp _ | .wrapItem _ | .put _ | .computeWait _
  | .sleep _ | .wake _ | .timeOut _ | .leave _ | .leakerNow | .leakerLeak => .isTrue trivial

/-- The items have been admitted in the order in which their calls came to the lock, and
none of them before a call that came earlier and has no answer yet. -/
structure ServedInTurn (system : LoopSystem Coroutine Loop) : Prop where
  served : system.served.Pairwise (fun first second => first < second)
  awaiting : ∀ coroutine, system.thread.locks.place coroutine ≠ .outside →
    (system.phase coroutine).ended = false →
      ∀ call, call ∈ system.served → call < system.turn coroutine

structure InOrder (loopOf : Coroutine → Loop) (system : LoopSystem Coroutine Loop) : Prop where
  one : system.thread.OneLockPerLoop loopOf
  only : system.thread.OnlyRemembered loopOf
  inTurn : system.thread.locks.InTurn system.turn
  numbered : ∀ coroutine, system.thread.locks.place coroutine ≠ .outside →
    system.turn coroutine < system.calls
  counted : ∀ call, call ∈ system.served → call < system.calls
  sorted : system.served.Pairwise (fun first second => first < second)
  ahead : ∀ coroutine lock, system.thread.locks.place coroutine = .waiting lock →
    ∀ call, call ∈ system.served → call < system.turn coroutine
  opened : ∀ coroutine lock, system.thread.locks.place coroutine = .inside lock →
    (system.phase coroutine).ended = false →
      ∀ call, call ∈ system.served → call < system.turn coroutine
  busy : ∀ coroutine, (system.phase coroutine).away = false →
    (system.thread.locks.place coroutine).isInside = true

namespace InOrder

variable {loopOf : Coroutine → Loop} {before after : LoopSystem Coroutine Loop}
  {coroutine : Coroutine}

theorem start (rates : RateList) (clock : Int) :
    InOrder loopOf (LoopSystem.start rates clock : LoopSystem Coroutine Loop) where
  one := .start
  only := fun _coroutine located => absurd rfl located
  inTurn := .initial
  numbered := fun _coroutine located => absurd rfl located
  counted := fun _call impossible => by cases impossible
  sorted := .nil
  ahead := fun _coroutine _lock impossible => by cases impossible
  opened := fun _coroutine _lock impossible => by cases impossible
  busy := fun _coroutine impossible => by cases impossible

theorem sameLock (inOrder : before.InOrder loopOf) {other : Coroutine} {lock otherLock : Nat}
    (located : (before.thread.locks.place coroutine).lock? = some lock)
    (otherAt : (before.thread.locks.place other).lock? = some otherLock) : lock = otherLock := by
  have first := inOrder.only coroutine (by intro out; rw [out] at located; cases located)
  have second := inOrder.only other (by intro out; rw [out] at otherAt; cases otherAt)
  rw [first] at second
  exact (inOrder.one.paired coroutine other lock otherLock located otherAt).mp
    (Option.some.inj second)

/-- Whoever is inside is alone there, whatever its loop. -/
theorem alone (inOrder : before.InOrder loopOf) {other : Coroutine}
    (inside : (before.thread.locks.place coroutine).isInside = true)
    (otherInside : (before.thread.locks.place other).isInside = true) : coroutine = other := by
  obtain ⟨lock, here⟩ := Place.isInside_iff.mp inside
  obtain ⟨otherLock, there⟩ := Place.isInside_iff.mp otherInside
  have same := inOrder.sameLock (by rw [here]; rfl) (by rw [there]; rfl)
  rw [← same] at there
  exact (inOrder.one.consistent lock).alone coroutine other here there

theorem servedInTurn (inOrder : before.InOrder loopOf) : before.ServedInTurn where
  served := inOrder.sorted
  awaiting := by
    intro coroutine located going
    cases place : before.thread.locks.place coroutine with
    | outside => exact absurd place located
    | waiting lock => exact inOrder.ahead coroutine lock place
    | inside lock => exact inOrder.opened coroutine lock place going

variable [DecidableEq Coroutine]

/-- The coroutine inside goes on to another phase. -/
theorem moved (inOrder : before.InOrder loopOf) {phase : Phase}
    (inside : (before.thread.locks.place coroutine).isInside = true)
    (unended : (before.phase coroutine).ended = false)
    (thread : after.thread = before.thread) (calls : after.calls = before.calls)
    (turn : after.turn = before.turn) (served : after.served = before.served)
    (updated : after.phase = Function.update before.phase coroutine phase) :
    after.InOrder loopOf where
  one := by rw [thread]; exact inOrder.one
  only := by rw [thread]; exact inOrder.only
  inTurn := by rw [thread, turn]; exact inOrder.inTurn
  numbered := by rw [thread, turn, calls]; exact inOrder.numbered
  counted := by rw [served, calls]; exact inOrder.counted
  sorted := by rw [served]; exact inOrder.sorted
  ahead := by rw [thread, served, turn]; exact inOrder.ahead
  opened := by
    rw [thread, served, turn, updated]
    intro other lock otherInside going
    by_cases same : other = coroutine
    · subst same
      exact inOrder.opened other lock otherInside unended
    · rw [Function.update_of_ne same] at going
      exact inOrder.opened other lock otherInside going
  busy := by
    rw [thread, updated]
    intro other going
    by_cases same : other = coroutine
    · rw [same]
      exact inside
    · rw [Function.update_of_ne same] at going
      exact inOrder.busy other going

/-- An admitted put ends the call inside, whose turn is before that of all that wait. -/
theorem admitted (inOrder : before.InOrder loopOf) {verdict : Verdict}
    (inside : (before.thread.locks.place coroutine).isInside = true)
    (unended : (before.phase coroutine).ended = false)
    (thread : after.thread = before.thread) (calls : after.calls = before.calls)
    (turn : after.turn = before.turn)
    (served : after.served = before.served ++ [before.turn coroutine])
    (updated : after.phase = Function.update before.phase coroutine (.leaving verdict)) :
    after.InOrder loopOf := by
  obtain ⟨lock, here⟩ := Place.isInside_iff.mp inside
  have newest := inOrder.opened coroutine lock here unended
  exact
    { one := by rw [thread]; exact inOrder.one
      only := by rw [thread]; exact inOrder.only
      inTurn := by rw [thread, turn]; exact inOrder.inTurn
      numbered := by rw [thread, turn, calls]; exact inOrder.numbered
      counted := by
        rw [served, calls]
        intro call member
        rcases List.mem_append.mp member with old | new
        · exact inOrder.counted call old
        · rw [List.mem_singleton.mp new]
          exact inOrder.numbered coroutine (by rw [here]; exact Place.outside_ne_inside.symm)
      sorted := by
        rw [served, List.pairwise_append]
        refine ⟨inOrder.sorted, List.pairwise_singleton _ _, ?_⟩
        intro call member last new
        rw [List.mem_singleton.mp new]
        exact newest call member
      ahead := by
        rw [thread, served, turn]
        intro other otherLock waits call member
        rcases List.mem_append.mp member with old | new
        · exact inOrder.ahead other otherLock waits call old
        · rw [List.mem_singleton.mp new]
          have located : (before.thread.locks.place coroutine).lock? = some lock := by
            rw [here]
            rfl
          have same := inOrder.sameLock located
            (show (before.thread.locks.place other).lock? = some otherLock by rw [waits]; rfl)
          rw [← same] at waits
          exact inOrder.inTurn.entered lock coroutine other here
            (((inOrder.one.consistent lock).queue other).mpr waits)
      opened := by
        rw [thread, updated]
        intro other otherLock otherInside going
        have same : other = coroutine := inOrder.alone (by rw [otherInside]; rfl) inside
        rw [same, Function.update_self] at going
        cases going
      busy := by
        rw [thread, updated]
        intro other going
        by_cases same : other = coroutine
        · rw [same]
          exact inside
        · rw [Function.update_of_ne same] at going
          exact inOrder.busy other going }

/-- A coroutine that is at a lock enters it or goes out. -/
theorem turned (inOrder : before.InOrder loopOf) {lock : Nat} {current : FairLock Coroutine}
    {place : Place Nat} {phase : Phase}
    (located : before.thread.locks.place coroutine ≠ .outside)
    (one : LoopThread.OneLockPerLoop loopOf
      { before.thread with locks := before.thread.locks.set lock current coroutine place })
    (inTurn : (before.thread.locks.set lock current coroutine place).InTurn before.turn)
    (unqueued : ∀ other, place ≠ .waiting other)
    (newest : place.isInside = true →
      ∀ call, call ∈ before.served → call < before.turn coroutine)
    (entered : phase.away = false → place.isInside = true) :
    InOrder loopOf
      { before.move coroutine phase with
        thread :=
          { before.thread with
            locks := before.thread.locks.set lock current coroutine place } } where
  one := one
  only := inOrder.only.set located
  inTurn := inTurn
  numbered := by
    intro other otherAt
    change Function.update before.thread.locks.place coroutine place other ≠ _ at otherAt
    by_cases same : other = coroutine
    · rw [same]
      exact inOrder.numbered coroutine located
    · rw [Function.update_of_ne same] at otherAt
      exact inOrder.numbered other otherAt
  counted := inOrder.counted
  sorted := inOrder.sorted
  ahead := by
    intro other otherLock waits
    change Function.update before.thread.locks.place coroutine place other = _ at waits
    by_cases same : other = coroutine
    · rw [same, Function.update_self] at waits
      exact absurd waits (unqueued otherLock)
    · rw [Function.update_of_ne same] at waits
      exact inOrder.ahead other otherLock waits
  opened := by
    intro other otherLock otherInside going
    change Function.update before.thread.locks.place coroutine place other = _ at otherInside
    change (Function.update before.phase coroutine phase other).ended = false at going
    by_cases same : other = coroutine
    · subst same
      rw [Function.update_self] at otherInside
      exact newest (by rw [otherInside]; rfl)
    · rw [Function.update_of_ne same] at otherInside going
      exact inOrder.opened other otherLock otherInside going
  busy := by
    intro other going
    change (Function.update before.phase coroutine phase other).away = false at going
    change (Function.update before.thread.locks.place coroutine place other).isInside = true
    by_cases same : other = coroutine
    · subst same
      rw [Function.update_self] at going ⊢
      exact entered going
    · rw [Function.update_of_ne same] at going ⊢
      exact inOrder.busy other going

variable [DecidableEq Loop]

/-- A call comes to the lock with a number higher than all before it. -/
theorem called (inOrder : before.InOrder loopOf) {request : Request}
    {thread : LoopThread Coroutine Loop}
    (lone : ∀ other, before.thread.locks.place other ≠ .outside →
      loopOf other = loopOf coroutine)
    (moved : before.thread.step loopOf (.enter coroutine) = some thread) :
    (before.called coroutine request thread).InOrder loopOf := by
  obtain ⟨outside, lock, cached, acquired⟩ := LoopThread.step_enter moved
  have one := inOrder.one.step (inOrder.only.entersRemembered _) moved
  have placed : thread.locks.place coroutine = .inside lock ∨
      thread.locks.place coroutine = .waiting lock := by
    rw [acquired]
    rcases before.thread.locks.acquire_cases lock coroutine with
      ⟨_free, _unawaited, granted⟩ | queued
    · rw [granted]
      exact Or.inl (Function.update_self _ _ _)
    · rw [queued]
      exact Or.inr (Function.update_self _ _ _)
  have kept : ∀ other, other ≠ coroutine →
      thread.locks.place other = before.thread.locks.place other := by
    intro other apart
    rw [acquired]
    exact Locks.place_acquire_of_ne apart
  refine ⟨one, ?_, ?_, ?_, ?_, inOrder.sorted, ?_, ?_, ?_⟩
  · intro other otherAt
    change thread.asyncLock.map Prod.snd = _
    rw [cached]
    by_cases same : other = coroutine
    · rw [same]
      rfl
    · change thread.locks.place other ≠ _ at otherAt
      rw [kept other same] at otherAt
      exact congrArg some (lone other otherAt).symm
  · change thread.locks.InTurn (Function.update before.turn coroutine before.calls)
    rw [acquired]
    refine inOrder.inTurn.acquire inOrder.one.consistent outside ?_
    intro other _apart otherAt
    exact inOrder.numbered other (by intro out; rw [out] at otherAt; cases otherAt)
  · intro other otherAt
    change Function.update before.turn coroutine before.calls other < before.calls + 1
    by_cases same : other = coroutine
    · rw [same, Function.update_self]
      exact Nat.lt_succ_self before.calls
    · change thread.locks.place other ≠ _ at otherAt
      rw [kept other same] at otherAt
      rw [Function.update_of_ne same]
      exact Nat.lt_succ_of_lt (inOrder.numbered other otherAt)
  · intro call member
    exact Nat.lt_succ_of_lt (inOrder.counted call member)
  · intro other otherLock waits call member
    change call < Function.update before.turn coroutine before.calls other
    by_cases same : other = coroutine
    · rw [same, Function.update_self]
      exact inOrder.counted call member
    · change thread.locks.place other = _ at waits
      rw [kept other same] at waits
      rw [Function.update_of_ne same]
      exact inOrder.ahead other otherLock waits call member
  · intro other otherLock otherInside going call member
    change call < Function.update before.turn coroutine before.calls other
    by_cases same : other = coroutine
    · rw [same, Function.update_self]
      exact inOrder.counted call member
    · change thread.locks.place other = _ at otherInside
      change (Function.update before.phase coroutine _ other).ended = false at going
      rw [Function.update_of_ne same] at going ⊢
      rw [kept other same] at otherInside
      exact inOrder.opened other otherLock otherInside going call member
  · intro other going
    change (Function.update before.phase coroutine _ other).away = false at going
    change (thread.locks.place other).isInside = true
    by_cases same : other = coroutine
    · subst same
      rw [Function.update_self] at going
      rcases placed with entered | waits
      · rw [entered]
        rfl
      · rw [waits] at going
        cases going
    · rw [Function.update_of_ne same] at going
      rw [kept other same]
      exact inOrder.busy other going

theorem step {bufferMs : Nat} {action : LoopSystemAction Coroutine Loop}
    (inOrder : before.InOrder loopOf) (lone : before.EntersAlone loopOf action)
    (taken : before.step loopOf bufferMs action = some after) : after.InOrder loopOf := by
  cases step_cases taken with
  | tick now later => exact { inOrder with }
  | runLoop loop =>
      obtain ⟨consistent, unmade, remembered, paired, current⟩ := inOrder.one
      exact
        { inOrder with
          one := ⟨consistent, unmade, remembered, paired, current⟩
          only := inOrder.only }
  | passBy coroutine request weightless outside =>
      refine { inOrder with opened := ?_, busy := ?_ }
      · intro other lock otherInside going
        change (Function.update before.phase coroutine _ other).ended = false at going
        have apart : other ≠ coroutine := by
          intro same
          rw [same, Function.update_self] at going
          cases going
        rw [Function.update_of_ne apart] at going
        exact inOrder.opened other lock otherInside going
      · intro other going
        change (Function.update before.phase coroutine _ other).away = false at going
        have apart : other ≠ coroutine := by
          intro same
          rw [same, Function.update_self] at going
          cases going
        rw [Function.update_of_ne apart] at going
        exact inOrder.busy other going
  | call coroutine request thread weighty moved => exact inOrder.called lone moved
  | enter coroutine thread moved =>
      have one := inOrder.one.step (inOrder.only.entersRemembered _) moved
      obtain ⟨locks, resumed, rfl⟩ := LoopThread.step_resume moved
      have inTurn := inOrder.inTurn.resume resumed
      obtain ⟨lock, rest, waits, _free, _queue, rfl⟩ := Locks.resume_cases resumed
      refine inOrder.turned (by rw [waits]; exact Place.outside_ne_waiting.symm) one inTurn
        (fun other impossible => by cases impossible) ?_ (fun _going => rfl)
      intro _inside
      exact inOrder.ahead coroutine lock waits
  | giveUp coroutine thread moved =>
      have one := inOrder.one.step (inOrder.only.entersRemembered _) moved
      obtain ⟨locks, cancelled, rfl⟩ := LoopThread.step_cancel moved
      have inTurn := inOrder.inTurn.cancel cancelled
      obtain ⟨lock, waits, rfl⟩ := Locks.cancel_cases cancelled
      exact inOrder.turned (by rw [waits]; exact Place.outside_ne_waiting.symm) one inTurn
        (fun other impossible => by cases impossible) (fun impossible => by cases impossible)
        (fun impossible => by cases impossible)
  | wrapItem coroutine request current =>
      exact inOrder.moved (inOrder.busy coroutine (by rw [current]; rfl)) (by rw [current]; rfl)
        rfl rfl rfl rfl rfl
  | put coroutine item blocking current =>
      obtain ⟨unended, going⟩ := Phase.ended_of_pending current
      have inside := inOrder.busy coroutine going
      cases acquired : (before.bucket.put item).1 with
      | true =>
          have updated : (before.recorded coroutine item blocking).phase =
              Function.update before.phase coroutine (.leaving (.returned true)) := by
            simp only [recorded, acquired]
            rfl
          refine inOrder.admitted inside unended rfl rfl rfl ?_ updated
          simp only [recorded, acquired, if_true]
      | false =>
          refine inOrder.moved inside unended rfl rfl rfl ?_ rfl
          simp only [recorded, acquired, Bool.false_eq_true, if_false]
  | computeWait coroutine item current =>
      exact inOrder.moved (inOrder.busy coroutine (by rw [current]; rfl)) (by rw [current]; rfl)
        rfl rfl rfl rfl rfl
  | sleep coroutine item waitMs current =>
      exact inOrder.moved (inOrder.busy coroutine (by rw [current]; rfl)) (by rw [current]; rfl)
        rfl rfl rfl rfl rfl
  | wake coroutine item sleepMs wakeAt current awake =>
      exact inOrder.moved (inOrder.busy coroutine (by rw [current]; rfl)) (by rw [current]; rfl)
        rfl rfl rfl rfl rfl
  | timeOut coroutine item sleepMs wakeAt current =>
      exact inOrder.moved (inOrder.busy coroutine (by rw [current]; rfl)) (by rw [current]; rfl)
        rfl rfl rfl rfl rfl
  | leave coroutine verdict thread ending moved =>
      have one := inOrder.one.step (inOrder.only.entersRemembered _) moved
      obtain ⟨locks, released, rfl⟩ := LoopThread.step_leave moved
      have inTurn := inOrder.inTurn.release released
      obtain ⟨lock, entered, rfl⟩ := Locks.release_cases released
      exact inOrder.turned (by rw [entered]; exact Place.outside_ne_inside.symm) one inTurn
        (fun other impossible => by cases impossible) (fun impossible => by cases impossible)
        (fun impossible => by cases impossible)
  | leakerNow => exact { inOrder with }
  | leakerLeak now reading => exact { inOrder with }

end InOrder

theorem always_inOrder [DecidableEq Coroutine] [DecidableEq Loop] (loopOf : Coroutine → Loop)
    (bufferMs : Nat) (rates : RateList) (clock : Int)
    (actions : List (LoopSystemAction Coroutine Loop))
    (lone : StepsMeet (step loopOf bufferMs) (EntersAlone loopOf) (start rates clock) actions) :
    Always (step loopOf bufferMs) (InOrder loopOf) (start rates clock) actions :=
  Always.of_invariant (fun _before _action _after inOrder alone taken =>
    inOrder.step alone taken) (InOrder.start rates clock) lone

end LoopSystem

/-- Calls of `try_acquire_async` are served in the order in which they come to the asyncio
lock, whatever they ask for, however long they wait and whichever of them time out, as long
as only one loop at a time has calls under way. -/
theorem async_calls_served_in_turn {Coroutine Loop : Type} [DecidableEq Coroutine]
    [DecidableEq Loop] (loopOf : Coroutine → Loop) (bufferMs : Nat) (rates : RateList)
    (clock : Int) (actions : List (LoopSystemAction Coroutine Loop))
    (lone : StepsMeet (LoopSystem.step loopOf bufferMs) (LoopSystem.EntersAlone loopOf)
      (LoopSystem.start rates clock) actions) :
    Always (LoopSystem.step loopOf bufferMs) LoopSystem.ServedInTurn
      (LoopSystem.start rates clock) actions :=
  (LoopSystem.always_inOrder loopOf bufferMs rates clock actions lone).imp
    (fun _system inOrder => inOrder.servedInTurn)

/-- The second call is refused at 0 and plans to wake at 101, but the loop wakes it at 150.
The third waits for the lock until then.  The last call is made under another loop. -/
def lateWake : List (LoopSystemAction (Option Bool) Bool) :=
  [.runLoop true,
    .call (some false) ⟨"first", 3, true⟩, .wrapItem (some false), .put (some false),
    .leave (some false),
    .call (some true) ⟨"second", 1, true⟩, .wrapItem (some true), .put (some true),
    .call (some false) ⟨"third", 1, true⟩, .leakerNow,
    .computeWait (some true), .sleep (some true), .tick 150, .wake (some true),
    .put (some true), .leakerLeak, .leave (some true),
    .enter (some false), .wrapItem (some false), .put (some false), .leave (some false),
    .tick 205, .runLoop false, .call none ⟨"fourth", 1, false⟩, .wrapItem none, .put none]

theorem async_calls_served_in_turn_lateWake :
    (exec (LoopSystem.step Option.isSome 0) (LoopSystem.start threeRequestsIn100 0)
        lateWake).map (fun final => (final.served, final.bucket.stamps)) =
      some ([0, 1, 2, 3], [0, 0, 0, 101, 150, 205]) ∧
      Always (LoopSystem.step Option.isSome 0) LoopSystem.ServedInTurn
        (LoopSystem.start threeRequestsIn100 0) lateWake :=
  ⟨by decide, async_calls_served_in_turn Option.isSome 0 threeRequestsIn100 0 lateWake
    (by decide)⟩

end PyrateLimiter
