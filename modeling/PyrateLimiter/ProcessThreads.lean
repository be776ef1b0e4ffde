/-
Processes whose threads wait on limiters over one multiprocess bucket.

Each process has a limiter, a bucket object with a failing rate, and a leaker of its own.
They share the items and the lock of the bucket, which every limiter that is made from the
bucket takes in front of its thread lock, so that all limiters have one lock.  A leaker
needs that lock as well: no leak comes between a refused put and the wait computed for it,
and the wait is exact.
-/

import PyrateLimiter.RetryProgress

namespace PyrateLimiter

open Foundations.ExclusiveLock
open Foundations.TransitionSystem
open Foundations.WindowLog

def Action.thread? {Thread : Type} : Action Thread → Option Thread
  | .acquireLock thread _ | .failLock thread | .wrapItem thread | .put thread
  | .computeWait thread | .releaseLock thread | .resume thread | .timeOut thread => some thread
  | .tick _ | .leakerNow | .leakerLeak => none

/-- What a process does. -/
structure ProcessAction (Thread Process : Type) where
  process : Process
  action : Action Thread
  deriving DecidableEq, Repr

structure Processes (Thread Process : Type) where
  /-- The monotonic clock is one for all processes. -/
  clock : Int
  items : List RateItem
  failingRate : Process → Option Rate
  /-- The thread that has the lock of the bucket. -/
  holder : Option Thread
  phase : Thread → Phase
  leaker : Process → Option Int

namespace Processes

variable {Thread Process : Type}

def start (clock : Int) : Processes Thread Process :=
  { clock := clock
    items := []
    failingRate := fun _ => none
    holder := none
    phase := fun _ => .idle
    leaker := fun _ => none }

def stamps (processes : Processes Thread Process) : List Int :=
  processes.items.map RateItem.timestamp

/-- What all processes share, with a failing rate and a leaker of one of them. -/
def shared (rates : RateList) (processes : Processes Thread Process) (failingRate : Option Rate)
    (leaker : Option Int) : System Thread :=
  { clock := processes.clock
    bucket :=
      { rates := rates
        items := processes.items
        failingRate := failingRate }
    holder := processes.holder
    phase := processes.phase
    leaker := leaker
    admitted := [] }

def seenBy (rates : RateList) (processes : Processes Thread Process) (process : Process) :
    System Thread :=
  processes.shared rates (processes.failingRate process) (processes.leaker process)

/-- A thread runs in its own process, and a leaker waits for the lock of the bucket. -/
def CanRun (processOf : Thread → Process) (processes : Processes Thread Process)
    (action : ProcessAction Thread Process) : Prop :=
  (∀ thread, thread ∈ action.action.thread? → processOf thread = action.process) ∧
    (action.action = .leakerLeak → processes.holder = none)

variable [DecidableEq Thread] [DecidableEq Process]

instance (processOf : Thread → Process) (processes : Processes Thread Process)
    (action : ProcessAction Thread Process) : Decidable (processes.CanRun processOf action) :=
  inferInstanceAs (Decidable (_ ∧ _))

/-- The failing rate and the leaker are the process's own, all else is everybody's. -/
def adopt (processes : Processes Thread Process) (process : Process) (seen : System Thread) :
    Processes Thread Process :=
  { clock := seen.clock
    items := seen.bucket.items
    failingRate := Function.update processes.failingRate process seen.bucket.failingRate
    holder := seen.holder
    phase := seen.phase
    leaker := Function.update processes.leaker process seen.leaker }

def step (bufferMs : Nat) (rates : RateList) (processOf : Thread → Process)
    (processes : Processes Thread Process) (action : ProcessAction Thread Process) :
    Option (Processes Thread Process) :=
  if processes.CanRun processOf action then
    ((processes.seenBy rates action.process).step bufferMs action.action).map
      (processes.adopt action.process)
  else none

theorem step_cases {bufferMs : Nat} {rates : RateList} {processOf : Thread → Process}
    {before after : Processes Thread Process} {action : ProcessAction Thread Process}
    (taken : before.step bufferMs rates processOf action = some after) :
    before.CanRun processOf action ∧
      ∃ seen, (before.seenBy rates action.process).step bufferMs action.action = some seen ∧
        after = before.adopt action.process seen := by
  unfold step at taken
  split at taken
  · rename_i able
    obtain ⟨seen, moved, same⟩ := Option.map_eq_some_iff.mp taken
    exact ⟨able, seen, moved, same.symm⟩
  · cases taken

/-! ### The shared items -/

structure RecordsKept (rates : RateList) (processes : Processes Thread Process) : Prop where
  sorted : processes.stamps.Pairwise (· ≤ ·)
  within : ∀ rate, rate ∈ rates → ∀ finish,
    (countBetween processes.stamps (finish - rate.interval) finish : Int) ≤ rate.limit

/-- A retry that finds room carries a stamp no older than those that any process recorded. -/
def FreshRetry (rates : RateList) (processes : Processes Thread Process)
    (action : ProcessAction Thread Process) : Prop :=
  (processes.seenBy rates action.process).FreshRetry action.action

instance (rates : RateList) (processes : Processes Thread Process)
    (action : ProcessAction Thread Process) : Decidable (processes.FreshRetry rates action) :=
  inferInstanceAs (Decidable ((processes.seenBy rates action.process).FreshRetry action.action))

/-- The wait is the least one after which the rate that refuses the item has room, or the
answer for what never fits. -/
def WaitExact (rates : RateList) (log : List Int) (item : RateItem) (waitMs : Int) : Prop :=
  ∃ rate, rates.refusing log item.timestamp item.weight = some rate ∧
    (rate.limit < item.weight ∧ waitMs = -1 ∨
      0 < waitMs ∧ ∀ later, 0 ≤ later →
        ((countSince log (item.timestamp + later - rate.interval) : Int) + item.weight ≤
          rate.limit ↔ waitMs ≤ later))

/-- Every wait that a thread has computed is exact for the items as they are. -/
def WaitsExact (rates : RateList) (processes : Processes Thread Process) : Prop :=
  ∀ thread item waitMs, processes.phase thread = .planned item waitMs →
    WaitExact rates processes.stamps item waitMs

end Processes

/-! ### What a run keeps -/

/-- What a refused call and a planned one know of the shared items and of the failing rate
of their process. -/
def Phase.Answers (rates : RateList) (log : List Int) (failingRate : Option Rate) : Phase → Prop
  | .refused item =>
      ∃ rate, failingRate = some rate ∧
        rates.refusing log item.timestamp item.weight = some rate
  | .planned item waitMs => Processes.WaitExact rates log item waitMs
  | _ => True

theorem Phase.answers_outside {rates : RateList} {log : List Int} {failingRate : Option Rate}
    {phase : Phase} (outside : phase.holds = false) : phase.Answers rates log failingRate := by
  cases phase with
  | idle => trivial
  | sleeping item sleepMs wakeAt => trivial
  | finished verdict => trivial
  | _ => cases outside

theorem Phase.answers_enter {rates : RateList} {log : List Int} {failingRate : Option Rate}
    (request : Request) (now : Int) : (request.enter now).Answers rates log failingRate := by
  rcases request.enter_cases now with ⟨verdict, entered⟩ | ⟨item, blocking, entered⟩
  · rw [entered]
    trivial
  · rw [entered]
    trivial

/-- The wait computed for a refused call. -/
theorem Phase.answers_afterWaiting {rates : RateList} {bucket : InMemoryBucket} {item : RateItem}
    (sorted : bucket.Sorted) (positive : 1 ≤ item.weight)
    (refused : (Phase.refused item).Answers rates bucket.stamps bucket.failingRate) :
    (Phase.afterWaiting item (bucket.waiting item)).Answers rates bucket.stamps
      bucket.failingRate := by
  obtain ⟨rate, failing, refusing⟩ := refused
  by_cases heavy : rate.limit < item.weight
  · rw [InMemoryBucket.waiting_of_heavy failing positive heavy]
    exact ⟨rate, refusing, Or.inl ⟨heavy, rfl⟩⟩
  · obtain ⟨waitMs, answered, least⟩ :=
      InMemoryBucket.waiting_spec sorted item failing positive (Int.not_lt.mp heavy)
    rw [answered]
    refine ⟨rate, refusing, Or.inr ⟨?_, least⟩⟩
    have full := (RateList.refusing_spec refusing).1
    have atOnce := least 0 (Int.le_refl 0)
    rw [Int.add_zero] at atOnce
    omega

namespace Processes

variable {Thread Process : Type} {rates : RateList} {processOf : Thread → Process}

structure ProcessInvariant (rates : RateList) (processOf : Thread → Process)
    (processes : Processes Thread Process) : Prop where
  records : (processes.shared rates none none).RetryInvariant rates
  answers : ∀ thread, (processes.phase thread).Answers rates processes.stamps
    (processes.failingRate (processOf thread))

namespace ProcessInvariant

theorem start (clock : Int) :
    ProcessInvariant rates processOf (Processes.start clock : Processes Thread Process) where
  records := System.RetryInvariant.start clock
  answers := fun _thread => trivial

/-- The records are those that every process sees. -/
theorem seenBy {processes : Processes Thread Process}
    (invariant : ProcessInvariant rates processOf processes) (process : Process) :
    (processes.seenBy rates process).RetryInvariant rates where
  exclusive := invariant.records.exclusive
  rates_eq := rfl
  sorted := invariant.records.sorted
  within := invariant.records.within
  past := invariant.records.past
  sound := invariant.records.sound

theorem recordsKept {processes : Processes Thread Process}
    (invariant : ProcessInvariant rates processOf processes) : processes.RecordsKept rates where
  sorted := invariant.records.sorted
  within := RateList.forall_windows.mp invariant.records.within

theorem waitsExact {processes : Processes Thread Process}
    (invariant : ProcessInvariant rates processOf processes) : processes.WaitsExact rates := by
  intro thread item waitMs current
  have known := invariant.answers thread
  rw [current] at known
  exact known

variable [DecidableEq Process] {before : Processes Thread Process} {process : Process}
  {seen : System Thread}

theorem adopt (records : seen.RetryInvariant rates)
    (answers : ∀ thread, (seen.phase thread).Answers rates seen.bucket.stamps
      (Function.update before.failingRate process seen.bucket.failingRate (processOf thread))) :
    ProcessInvariant rates processOf (before.adopt process seen) where
  records :=
    { exclusive := records.exclusive
      rates_eq := rfl
      sorted := records.sorted
      within := records.within
      past := records.past
      sound := records.sound }
  answers := answers

theorem update_failingRate (before : Processes Thread Process) (process : Process) :
    Function.update before.failingRate process
      (before.seenBy rates process).bucket.failingRate = before.failingRate :=
  Function.update_eq_self process before.failingRate

/-- A step that leaves the items and the failing rate alone. -/
theorem kept (invariant : ProcessInvariant rates processOf before)
    (records : seen.RetryInvariant rates)
    (sameBucket : seen.bucket = (before.seenBy rates process).bucket)
    (samePhase : seen.phase = before.phase) :
    ProcessInvariant rates processOf (before.adopt process seen) := by
  apply adopt records
  intro thread
  rw [sameBucket, samePhase, update_failingRate]
  exact invariant.answers thread

variable [DecidableEq Thread]

/-- Such a step of a thread. -/
theorem moved (invariant : ProcessInvariant rates processOf before) {thread : Thread}
    {phase : Phase} (own : processOf thread = process) (records : seen.RetryInvariant rates)
    (sameBucket : seen.bucket = (before.seenBy rates process).bucket)
    (updated : seen.phase = Function.update before.phase thread phase)
    (known : phase.Answers rates before.stamps (before.failingRate process)) :
    ProcessInvariant rates processOf (before.adopt process seen) := by
  apply adopt records
  rw [sameBucket, update_failingRate, updated, Function.forall_update_iff before.phase
    (fun other phase => phase.Answers rates (before.seenBy rates process).bucket.stamps
      (before.failingRate (processOf other)))]
  refine ⟨?_, fun other _different => invariant.answers other⟩
  rw [own]
  exact known

/-- A put changes the items and the failing rate while all others are outside. -/
theorem put (invariant : ProcessInvariant rates processOf before) {thread : Thread}
    {item : RateItem} {blocking : Bool} (own : processOf thread = process)
    (current : (before.phase thread).pending = some (item, blocking))
    (records : seen.RetryInvariant rates)
    (bucket : seen.bucket = ((before.seenBy rates process).bucket.put item).2)
    (updated : seen.phase = Function.update before.phase thread
      (Phase.afterPut item ((before.seenBy rates process).bucket.put item).1 blocking)) :
    ProcessInvariant rates processOf (before.adopt process seen) := by
  apply adopt records
  rw [updated, Function.forall_update_iff before.phase
    (fun other phase => phase.Answers rates seen.bucket.stamps
      (Function.update before.failingRate process seen.bucket.failingRate (processOf other)))]
  refine ⟨?_, ?_⟩
  · have records := invariant.seenBy process
    obtain ⟨positive, _past⟩ := (records.sound thread).pending current
    rcases InMemoryBucket.put_cases records.sorted item positive with
      ⟨_room, outcome⟩ | ⟨rate, refusing, outcome⟩
    · rw [outcome]
      trivial
    · rw [bucket, outcome, own, Function.update_self]
      cases blocking with
      | false => trivial
      | true => exact ⟨rate, rfl, refusing⟩
  · intro other different
    exact Phase.answers_outside
      (invariant.records.exclusive.outside (Phase.holds_of_pending current) different)

theorem step {bufferMs : Nat} {after : Processes Thread Process}
    {action : ProcessAction Thread Process} (invariant : ProcessInvariant rates processOf before)
    (fresh : before.FreshRetry rates action)
    (taken : before.step bufferMs rates processOf action = some after) :
    ProcessInvariant rates processOf after := by
  obtain ⟨⟨own, leaking⟩, seen, ran, rfl⟩ := step_cases taken
  have records := (invariant.seenBy action.process).step fresh ran
  obtain ⟨process, action⟩ := action
  cases System.step_cases ran with
  | tick now later => exact invariant.kept records rfl rfl
  | acquireLock thread request outside free =>
      exact invariant.moved (own thread rfl) records rfl rfl trivial
  | failLock thread outside =>
      exact invariant.moved (own thread rfl) records rfl rfl trivial
  | wrapItem thread request current =>
      exact invariant.moved (own thread rfl) records rfl rfl (Phase.answers_enter request _)
  | put thread item blocking current =>
      exact invariant.put (own thread rfl) current records rfl rfl
  | computeWait thread item current =>
      have refused : before.phase thread = .refused item := current
      have known := invariant.answers thread
      rw [own thread rfl, refused] at known
      have sound := (invariant.seenBy process).sound thread
      rw [current] at sound
      exact invariant.moved (own thread rfl) records rfl rfl
        (Phase.answers_afterWaiting (invariant.seenBy process).sorted sound.1 known)
  | leave thread verdict current =>
      exact invariant.moved (own thread rfl) records rfl rfl trivial
  | plan thread item waitMs current =>
      exact invariant.moved (own thread rfl) records rfl rfl
        (Phase.answers_outside (Phase.afterPlanning_outside bufferMs _ item waitMs))
  | resume thread item sleepMs wakeAt current free awake =>
      exact invariant.moved (own thread rfl) records rfl rfl trivial
  | timeOut thread outside =>
      exact invariant.moved (own thread rfl) records rfl rfl trivial
  | leakerNow => exact invariant.kept records rfl rfl
  | leakerLeak now reading =>
      apply adopt records
      intro thread
      exact Phase.answers_outside
        (invariant.records.exclusive.all_outside (leaking rfl) thread)

/-- A retry that finds room behind a recorded unit is recorded out of order. -/
theorem not_recordsKept_of_late {bufferMs : Nat} {after : Processes Thread Process}
    {action : ProcessAction Thread Process} (invariant : ProcessInvariant rates processOf before)
    (late : ¬before.FreshRetry rates action)
    (taken : before.step bufferMs rates processOf action = some after) :
    ¬after.RecordsKept rates := by
  obtain ⟨_able, seen, ran, rfl⟩ := step_cases taken
  intro kept
  exact (invariant.seenBy action.process).not_recordsKept_of_late late ran
    ⟨kept.sorted, kept.within⟩

end ProcessInvariant

end Processes

/-- Processes whose threads wait on limiters over one multiprocess bucket keep the shared
items sorted and every window within its limit exactly as long as no retry that finds room
comes after a later stamp that any of them has recorded. -/
theorem processes_keep_records_iff {Thread Process : Type} [DecidableEq Thread]
    [DecidableEq Process] (bufferMs : Nat) (rates : RateList) (processOf : Thread → Process)
    (clock : Int) (actions : List (ProcessAction Thread Process)) :
    Always (Processes.step bufferMs rates processOf) (Processes.RecordsKept rates)
        (Processes.start clock) actions ↔
      StepsMeet (Processes.step bufferMs rates processOf) (Processes.FreshRetry rates)
        (Processes.start clock) actions :=
  always_iff_stepsMeet
    (fun _before invariant => Processes.ProcessInvariant.recordsKept invariant)
    (fun _before _action _after invariant fresh taken => invariant.step fresh taken)
    (fun _before _action _after invariant late taken =>
      invariant.not_recordsKept_of_late late taken)
    (Processes.ProcessInvariant.start clock) actions

/-- So long, whatever the other processes and all leakers do, each wait that is computed
with the failing rate of one process is exact for the items of all. -/
theorem processes_waits_exact {Thread Process : Type} [DecidableEq Thread]
    [DecidableEq Process] (bufferMs : Nat) (rates : RateList) (processOf : Thread → Process)
    (clock : Int) (actions : List (ProcessAction Thread Process))
    (fresh : StepsMeet (Processes.step bufferMs rates processOf) (Processes.FreshRetry rates)
      (Processes.start clock) actions) :
    Always (Processes.step bufferMs rates processOf) (Processes.WaitsExact rates)
      (Processes.start clock) actions :=
  (Always.of_invariant (fun _before _action _after invariant fresh taken =>
    Processes.ProcessInvariant.step invariant fresh taken)
    (Processes.ProcessInvariant.start clock) fresh).imp
    (fun _processes invariant => invariant.waitsExact)

/-- The second process is refused by the shorter rate, and after its retry by the longer
one.  The leakers of both processes read the clock before, and leak behind it. -/
def retryInProcess : List (ProcessAction ℕ Bool) :=
  [⟨false, .acquireLock 0 ⟨"first", 2, true⟩⟩, ⟨false, .wrapItem 0⟩, ⟨false, .put 0⟩,
    ⟨false, .releaseLock 0⟩, ⟨true, .leakerNow⟩,
    ⟨true, .acquireLock 1 ⟨"second", 2, true⟩⟩, ⟨true, .wrapItem 1⟩, ⟨true, .put 1⟩,
    ⟨false, .leakerNow⟩, ⟨true, .computeWait 1⟩, ⟨true, .releaseLock 1⟩,
    ⟨true, .leakerLeak⟩, ⟨false, .tick 101⟩, ⟨true, .resume 1⟩, ⟨true, .put 1⟩,
    ⟨true, .computeWait 1⟩, ⟨true, .releaseLock 1⟩, ⟨false, .leakerLeak⟩, ⟨true, .tick 1001⟩,
    ⟨true, .resume 1⟩, ⟨true, .put 1⟩, ⟨true, .releaseLock 1⟩]

theorem processes_waits_exact_retryInProcess :
    (exec (Processes.step 0 twoIn100ThreeIn1000 (fun thread => decide (0 < thread)))
        (Processes.start 0) retryInProcess).map (fun final => final.stamps) =
      some [0, 0, 1001, 1001] ∧
      Always (Processes.step 0 twoIn100ThreeIn1000 (fun thread => decide (0 < thread)))
        (Processes.WaitsExact twoIn100ThreeIn1000) (Processes.start 0) retryInProcess :=
  ⟨by decide, processes_waits_exact 0 twoIn100ThreeIn1000 (fun thread => decide (0 < thread)) 0
    retryInProcess (by decide)⟩

end PyrateLimiter
