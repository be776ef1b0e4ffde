/-
The task that leaks the asynchronous buckets of a leaker.

The leaker keeps a reference to the task and makes a task only where it has none.
Disposing of the last bucket cancels the task and clears the reference.  The task
can also end with the shutdown of its event loop, or with a `RuntimeError` that its
loop catches, and then the reference stays, to a task that is done.  Every bucket
that is scheduled from then on is left to that task, until the registry is empty.
-/

import PyrateLimiter.BucketFactory
import PyrateLimiter.Foundations.TransitionSystem

namespace PyrateLimiter

open Foundations.TransitionSystem

structure LeakTask (Loop : Type) where
  loop : Loop
  done : Bool
  deriving DecidableEq, Repr

/-- The shutdown of a loop cancels the tasks that are pending on it. -/
def LeakTask.shutDown {Loop : Type} [DecidableEq Loop] (task : LeakTask Loop) (loop : Loop) :
    LeakTask Loop :=
  if task.loop = loop then { task with done := true } else task

theorem LeakTask.shutDown_pending {Loop : Type} [DecidableEq Loop] {task : LeakTask Loop}
    {loop : Loop} (pending : (task.shutDown loop).done = false) :
    task.loop ≠ loop ∧ task.shutDown loop = task := by
  unfold shutDown at pending ⊢
  split at pending
  · cases pending
  · rename_i elsewhere
    exact ⟨elsewhere, if_neg elsewhere⟩

theorem LeakTask.shutDown_done {Loop : Type} [DecidableEq Loop] {task : LeakTask Loop}
    (done : task.done = true) (loop : Loop) : (task.shutDown loop).done = true := by
  unfold shutDown
  split
  · rfl
  · exact done

inductive LeakTaskAction (Loop Bucket : Type) where
  | startLoop (loop : Loop)
  | shutDownLoop (loop : Loop)
  | scheduleLeak (loop : Loop) (newBucket : Bucket)
  | dispose (loop : Loop) (bucket : Bucket)
  | testGuard
  | raiseRuntimeError
  deriving DecidableEq, Repr

structure AsyncLeaker (Loop Bucket : Type) where
  running : Loop → Bool
  asyncBuckets : List Bucket
  aioLeakTask : Option (LeakTask Loop)
  /-- The bucket whose `schedule_leak` was the last step. -/
  scheduled : Option Bucket

namespace AsyncLeaker

variable {Loop Bucket : Type}

def start : AsyncLeaker Loop Bucket :=
  { running := fun _ => false
    asyncBuckets := []
    aioLeakTask := none
    scheduled := none }

/-- Called from a coroutine of the loop. -/
def leakAsync (leaker : AsyncLeaker Loop Bucket) (loop : Loop) : AsyncLeaker Loop Bucket :=
  if !leaker.asyncBuckets.isEmpty && leaker.aioLeakTask.isNone then
    { leaker with aioLeakTask := some { loop := loop, done := false } }
  else leaker

/-- The scheduled bucket is in the registry, which a task that is not done iterates over. -/
def Served (leaker : AsyncLeaker Loop Bucket) : Prop :=
  ∀ bucket, leaker.scheduled = some bucket →
    bucket ∈ leaker.asyncBuckets ∧
      ∃ task, leaker.aioLeakTask = some task ∧ task.done = false

variable [DecidableEq Bucket]

def register (leaker : AsyncLeaker Loop Bucket) (newBucket : Bucket) : AsyncLeaker Loop Bucket :=
  { leaker with asyncBuckets := registerIn leaker.asyncBuckets newBucket }

/-- The cancelled task of an empty registry is forgotten with the reference to it. -/
def deregister (leaker : AsyncLeaker Loop Bucket) (bucket : Bucket) : AsyncLeaker Loop Bucket :=
  if bucket ∈ leaker.asyncBuckets then
    let asyncBuckets := leaker.asyncBuckets.erase bucket
    { leaker with
      asyncBuckets := asyncBuckets
      aioLeakTask := if asyncBuckets.isEmpty then none else leaker.aioLeakTask }
  else leaker

variable [DecidableEq Loop]

/-- One step of a loop, of a call that is made from a running loop, or of the leak task.  The
dictionary of the asynchronous buckets is one object for all tasks of the leaker. -/
def step (leaker : AsyncLeaker Loop Bucket) :
    LeakTaskAction Loop Bucket → Option (AsyncLeaker Loop Bucket)
  | .startLoop loop =>
      some
        { leaker with
          running := Function.update leaker.running loop true
          scheduled := none }
  | .shutDownLoop loop =>
      some
        { leaker with
          running := Function.update leaker.running loop false
          aioLeakTask := leaker.aioLeakTask.map (fun task => task.shutDown loop)
          scheduled := none }
  | .scheduleLeak loop newBucket =>
      if leaker.running loop then
        some { (leaker.register newBucket).leakAsync loop with scheduled := some newBucket }
      else none
  | .dispose loop bucket =>
      if leaker.running loop then some { leaker.deregister bucket with scheduled := none }
      else none
  | .testGuard =>
      match leaker.aioLeakTask with
      | some { loop := loop, done := false } =>
          -- With a bucket in the registry the task leaks, sleeps and comes back here.
          some
            { leaker with
              aioLeakTask := some { loop := loop, done := leaker.asyncBuckets.isEmpty }
              scheduled := none }
      | _ => none
  | .raiseRuntimeError =>
      match leaker.aioLeakTask with
      | some { loop := loop, done := false } =>
          some
            { leaker with
              aioLeakTask := some { loop := loop, done := true }
              scheduled := none }
      | _ => none

/-- `schedule_leak` finds no reference, or one to a task that is not done. -/
def FreshReference (leaker : AsyncLeaker Loop Bucket) : LeakTaskAction Loop Bucket → Prop
  | .scheduleLeak _ _ => ∀ task, leaker.aioLeakTask = some task → task.done = false
  | _ => True

end AsyncLeaker

/-! ### What one step does -/

namespace AsyncLeaker

variable {Loop Bucket : Type} [DecidableEq Bucket]

theorem registerIn_ne_nil (buckets : List Bucket) (bucket : Bucket) :
    registerIn buckets bucket ≠ [] :=
  List.ne_nil_of_mem (mem_registerIn.mpr (Or.inr rfl))

/-- After `schedule_leak` the reference is the one from before, or to a new task. -/
theorem leakAsync_register (leaker : AsyncLeaker Loop Bucket) (newBucket : Bucket) (loop : Loop) :
    (leaker.register newBucket).leakAsync loop =
      { leaker.register newBucket with
        aioLeakTask := some (leaker.aioLeakTask.getD { loop := loop, done := false }) } := by
  have occupied : (registerIn leaker.asyncBuckets newBucket).isEmpty = false :=
    List.isEmpty_eq_false_iff.mpr (registerIn_ne_nil leaker.asyncBuckets newBucket)
  unfold leakAsync
  cases present : leaker.aioLeakTask <;> simp [register, present, occupied]

variable [DecidableEq Loop]

inductive Taken (before : AsyncLeaker Loop Bucket) :
    LeakTaskAction Loop Bucket → AsyncLeaker Loop Bucket → Prop
  | startLoop (loop : Loop) :
      Taken before (.startLoop loop)
        { before with
          running := Function.update before.running loop true
          scheduled := none }
  | shutDownLoop (loop : Loop) :
      Taken before (.shutDownLoop loop)
        { before with
          running := Function.update before.running loop false
          aioLeakTask := before.aioLeakTask.map (fun task => task.shutDown loop)
          scheduled := none }
  | scheduleLeak (loop : Loop) (newBucket : Bucket) (running : before.running loop = true) :
      Taken before (.scheduleLeak loop newBucket)
        { before.register newBucket with
          aioLeakTask := some (before.aioLeakTask.getD { loop := loop, done := false })
          scheduled := some newBucket }
  | dispose (loop : Loop) (bucket : Bucket) :
      Taken before (.dispose loop bucket) { before.deregister bucket with scheduled := none }
  | testGuard (loop : Loop)
      (present : before.aioLeakTask = some { loop := loop, done := false }) :
      Taken before .testGuard
        { before with
          aioLeakTask := some { loop := loop, done := before.asyncBuckets.isEmpty }
          scheduled := none }
  | raiseRuntimeError (loop : Loop)
      (present : before.aioLeakTask = some { loop := loop, done := false }) :
      Taken before .raiseRuntimeError
        { before with
          aioLeakTask := some { loop := loop, done := true }
          scheduled := none }

theorem step_cases {before after : AsyncLeaker Loop Bucket}
    {action : LeakTaskAction Loop Bucket} (taken : before.step action = some after) :
    Taken before action after := by
  cases action with
  | startLoop loop =>
      cases taken
      exact .startLoop loop
  | shutDownLoop loop =>
      cases taken
      exact .shutDownLoop loop
  | scheduleLeak loop newBucket =>
      simp only [step, leakAsync_register] at taken
      split at taken
      · rename_i running
        cases taken
        exact .scheduleLeak loop newBucket running
      · cases taken
  | dispose loop bucket =>
      simp only [step] at taken
      split at taken
      · cases taken
        exact .dispose loop bucket
      · cases taken
  | testGuard =>
      simp only [step] at taken
      split at taken
      · rename_i loop present
        cases taken
        exact .testGuard loop present
      · cases taken
  | raiseRuntimeError =>
      simp only [step] at taken
      split at taken
      · rename_i loop present
        cases taken
        exact .raiseRuntimeError loop present
      · cases taken

end AsyncLeaker

/-! ### The registry and the reference are those of the factory -/

namespace AsyncLeaker

variable {Loop Bucket : Type}

/-- The leaker as the factory sees it: of the task it reads only whether there is one. -/
def toLeaker (leaker : AsyncLeaker Loop Bucket) : Leaker Bucket :=
  { syncBuckets := []
    asyncBuckets := leaker.asyncBuckets
    aioLeakTask := leaker.aioLeakTask.isSome }

def factoryCall : LeakTaskAction Loop Bucket → Option (FactoryCall Bucket)
  | .scheduleLeak _ newBucket => some (.scheduleLeak newBucket true)
  | .dispose _ bucket => some (.dispose bucket)
  | .startLoop _ | .shutDownLoop _ | .testGuard | .raiseRuntimeError => none

theorem toLeaker_leakAsync (leaker : AsyncLeaker Loop Bucket) (loop : Loop) :
    (leaker.toLeaker.leakAsync true).2 = (leaker.leakAsync loop).toLeaker := by
  unfold Leaker.leakAsync leakAsync
  cases present : leaker.aioLeakTask with
  | none =>
      cases empty : leaker.asyncBuckets.isEmpty <;> simp [toLeaker, present, empty]
  | some task => simp [toLeaker, present]

variable [DecidableEq Bucket]

theorem toLeaker_deregister (leaker : AsyncLeaker Loop Bucket) (bucket : Bucket) :
    (leaker.toLeaker.deregister bucket).2 = (leaker.deregister bucket).toLeaker := by
  unfold Leaker.deregister deregister
  by_cases registered : bucket ∈ leaker.asyncBuckets
  · cases empty : (leaker.asyncBuckets.erase bucket).isEmpty <;>
      simp [toLeaker, registered, empty]
  · simp [toLeaker, registered]

variable [DecidableEq Loop] {traits : BucketTraits Bucket}

theorem step_mirrors (ratesSet : ∀ bucket, traits.ratesSet bucket = true)
    (side : ∀ bucket, traits.side bucket = .ok true) {factory : BucketFactory Bucket}
    {before after : AsyncLeaker Loop Bucket} (mirrors : factory.currentLeaker = before.toLeaker)
    {action : LeakTaskAction Loop Bucket} (taken : before.step action = some after) :
    ((factoryCall action).elim factory (factory.call traits)).currentLeaker = after.toLeaker := by
  cases step_cases taken with
  | startLoop loop => exact mirrors
  | shutDownLoop loop =>
      refine mirrors.trans ?_
      simp only [toLeaker, Option.isSome_map]
  | scheduleLeak loop newBucket running =>
      have registered : factory.currentLeaker.register traits newBucket =
          .ok (before.register newBucket).toLeaker := by
        rw [mirrors, Leaker.register, side newBucket]
        rfl
      refine (BucketFactory.currentLeaker_scheduleLeak (ratesSet newBucket) registered true).trans ?_
      rw [toLeaker_leakAsync (before.register newBucket) loop, leakAsync_register]
      rfl
  | dispose loop bucket =>
      refine (BucketFactory.currentLeaker_dispose traits factory bucket).trans ?_
      rw [mirrors]
      exact toLeaker_deregister before bucket
  | testGuard loop present =>
      refine mirrors.trans ?_
      simp only [toLeaker, present, Option.isSome_some]
  | raiseRuntimeError loop present =>
      refine mirrors.trans ?_
      simp only [toLeaker, present, Option.isSome_some]

theorem run_mirrors (ratesSet : ∀ bucket, traits.ratesSet bucket = true)
    (side : ∀ bucket, traits.side bucket = .ok true) {actions : List (LeakTaskAction Loop Bucket)}
    {final : AsyncLeaker Loop Bucket} (run : exec step start actions = some final) :
    (BucketFactory.run traits (actions.filterMap factoryCall)).currentLeaker =
      final.toLeaker := by
  have empty : (BucketFactory.empty : BucketFactory Bucket).currentLeaker =
      (start : AsyncLeaker Loop Bucket).toLeaker := rfl
  exact simulated_exec
    (fun (factory : BucketFactory Bucket) (leaker : AsyncLeaker Loop Bucket) =>
      factory.currentLeaker = leaker.toLeaker)
    (fun _factory _before _action _after mirrors _any taken =>
      step_mirrors ratesSet side mirrors taken) empty (fun _action _member => trivial) run

end AsyncLeaker

/-! ### When a scheduled bucket is served -/

namespace AsyncLeaker

variable {Loop Bucket : Type}

/-- There is a reference exactly while there is a bucket, and a task that is not done is
pending on a loop that runs. -/
structure Referenced (leaker : AsyncLeaker Loop Bucket) : Prop where
  occupied : leaker.aioLeakTask = none ↔ leaker.asyncBuckets = []
  pending : ∀ task, leaker.aioLeakTask = some task → task.done = false →
    leaker.running task.loop = true

theorem Referenced.of_task {leaker : AsyncLeaker Loop Bucket} {task : LeakTask Loop}
    (present : leaker.aioLeakTask = some task) (occupied : leaker.asyncBuckets ≠ [])
    (pending : task.done = false → leaker.running task.loop = true) : Referenced leaker where
  occupied := by
    rw [present]
    constructor
    · intro impossible
      cases impossible
    · intro empty
      exact absurd empty occupied
  pending := by
    intro other same
    rw [present] at same
    cases same
    exact pending

theorem Referenced.of_empty {leaker : AsyncLeaker Loop Bucket}
    (none : leaker.aioLeakTask = none) (empty : leaker.asyncBuckets = []) :
    Referenced leaker where
  occupied := ⟨fun _none => empty, fun _empty => none⟩
  pending := by
    intro task present
    rw [none] at present
    cases present

theorem Referenced.ne_nil {leaker : AsyncLeaker Loop Bucket} (referenced : Referenced leaker)
    {task : LeakTask Loop} (present : leaker.aioLeakTask = some task) :
    leaker.asyncBuckets ≠ [] := by
  intro empty
  rw [referenced.occupied.mpr empty] at present
  cases present

/-- The reference is to a task that has ended. -/
def Stale (leaker : AsyncLeaker Loop Bucket) : Prop :=
  ∃ task, leaker.aioLeakTask = some task ∧ task.done = true

variable [DecidableEq Bucket]

variable {before after : AsyncLeaker Loop Bucket}

theorem Referenced.deregister (referenced : Referenced before) (bucket : Bucket) :
    Referenced (before.deregister bucket) := by
  unfold AsyncLeaker.deregister
  split
  · rename_i registered
    by_cases empty : before.asyncBuckets.erase bucket = []
    · exact .of_empty (by simp only [empty, List.isEmpty_nil, if_true]) empty
    · have kept : (before.asyncBuckets.erase bucket).isEmpty = false :=
        List.isEmpty_eq_false_iff.mpr empty
      cases present : before.aioLeakTask with
      | none =>
          exact absurd (referenced.occupied.mp present) (List.ne_nil_of_mem registered)
      | some task =>
          exact .of_task (by simp only [kept, Bool.false_eq_true, if_false]) empty
            (referenced.pending task present)
  · exact referenced

variable [DecidableEq Loop] {action : LeakTaskAction Loop Bucket}

theorem Referenced.step (referenced : Referenced before)
    (taken : before.step action = some after) : Referenced after := by
  cases step_cases taken with
  | startLoop loop =>
      refine ⟨referenced.occupied, ?_⟩
      intro task present pending
      simp only [Function.update_apply]
      split
      · rfl
      · exact referenced.pending task present pending
  | shutDownLoop loop =>
      cases present : before.aioLeakTask with
      | none => exact .of_empty rfl (referenced.occupied.mp present)
      | some task =>
          have ended : (some task).map (fun task => task.shutDown loop) =
              some (task.shutDown loop) := rfl
          refine .of_task ended (referenced.ne_nil present) ?_
          intro pending
          obtain ⟨elsewhere, same⟩ := LeakTask.shutDown_pending pending
          rw [same] at pending ⊢
          simp only [Function.update_of_ne elsewhere]
          exact referenced.pending task present pending
  | scheduleLeak loop newBucket running =>
      refine .of_task rfl (registerIn_ne_nil before.asyncBuckets newBucket) ?_
      cases present : before.aioLeakTask with
      | none => exact fun _pending => running
      | some task => exact referenced.pending task present
  | dispose loop bucket =>
      have left := referenced.deregister bucket
      exact ⟨left.occupied, left.pending⟩
  | testGuard loop present =>
      have running := referenced.pending { loop := loop, done := false } present rfl
      exact .of_task rfl (referenced.ne_nil present) (fun _pending => running)
  | raiseRuntimeError loop present =>
      exact .of_task rfl (referenced.ne_nil present) (fun impossible => by cases impossible)

theorem referenced_always (actions : List (LeakTaskAction Loop Bucket)) :
    Always step Referenced start actions :=
  Always.of_preserved (fun _before _action _after referenced taken => referenced.step taken)
    (.of_empty rfl rfl) actions

/-- A stale reference stays until the last bucket is disposed. -/
theorem Stale.step (stale : before.Stale) (taken : before.step action = some after)
    (occupied : after.asyncBuckets ≠ []) : after.Stale := by
  obtain ⟨task, present, done⟩ := stale
  cases step_cases taken with
  | startLoop loop => exact ⟨task, present, done⟩
  | shutDownLoop loop =>
      exact ⟨task.shutDown loop, by simp only [present, Option.map_some],
        LeakTask.shutDown_done done loop⟩
  | scheduleLeak loop newBucket running =>
      exact ⟨task, by simp only [present, Option.getD_some], done⟩
  | dispose loop bucket =>
      unfold AsyncLeaker.deregister at occupied ⊢
      split at occupied
      · rename_i registered
        refine ⟨task, ?_, done⟩
        simp only [if_pos registered]
        rw [if_neg (by simpa using occupied)]
        exact present
      · rename_i absent
        rw [if_neg absent]
        exact ⟨task, present, done⟩
  | testGuard loop pending =>
      rw [present] at pending
      cases pending
      cases done
  | raiseRuntimeError loop pending =>
      rw [present] at pending
      cases pending
      cases done

theorem stale_while_occupied {leaker : AsyncLeaker Loop Bucket} (stale : leaker.Stale)
    {actions : List (LeakTaskAction Loop Bucket)}
    (occupied : Always AsyncLeaker.step (fun leaker => leaker.asyncBuckets ≠ []) leaker actions) :
    Always AsyncLeaker.step Stale leaker actions := by
  induction actions generalizing leaker with
  | nil => exact stale
  | cons action rest ih =>
      refine ⟨stale, ?_⟩
      intro next taken
      have later := occupied.2 next taken
      exact ih (stale.step taken later.initial) later

/-- The one step that leaves a scheduled bucket behind is the call that scheduled it. -/
theorem step_scheduled {bucket : Bucket} (taken : before.step action = some after)
    (scheduled : after.scheduled = some bucket) :
    ∃ loop, action = .scheduleLeak loop bucket ∧
      after =
        { before.register bucket with
          aioLeakTask := some (before.aioLeakTask.getD { loop := loop, done := false })
          scheduled := some bucket } := by
  cases step_cases taken with
  | scheduleLeak loop newBucket running =>
      cases scheduled
      exact ⟨loop, rfl, rfl⟩
  | startLoop loop => cases scheduled
  | shutDownLoop loop => cases scheduled
  | dispose loop bucket => cases scheduled
  | testGuard loop present => cases scheduled
  | raiseRuntimeError loop present => cases scheduled

theorem Served.step (fresh : before.FreshReference action)
    (taken : before.step action = some after) : after.Served := by
  intro bucket scheduled
  obtain ⟨loop, rfl, rfl⟩ := step_scheduled taken scheduled
  refine ⟨mem_registerIn.mpr (Or.inr rfl), _, rfl, ?_⟩
  cases present : before.aioLeakTask with
  | none => rfl
  | some task => exact fresh task present

/-- A call that finds a reference to a task that is done makes no other task. -/
theorem unserved_of_stale (stale : ¬before.FreshReference action)
    (taken : before.step action = some after) : ¬after.Served := by
  cases step_cases taken with
  | scheduleLeak loop newBucket running =>
      simp only [FreshReference, not_forall] at stale
      obtain ⟨task, present, done⟩ := stale
      intro served
      obtain ⟨_registered, current, reference, pending⟩ := served newBucket rfl
      simp only [present, Option.getD_some, Option.some.injEq] at reference
      rw [reference] at done
      exact done pending
  | startLoop loop => exact absurd trivial stale
  | shutDownLoop loop => exact absurd trivial stale
  | dispose loop bucket => exact absurd trivial stale
  | testGuard loop present => exact absurd trivial stale
  | raiseRuntimeError loop present => exact absurd trivial stale

end AsyncLeaker

/-- In a run every scheduled bucket gets a task that is not done exactly if no call of
`schedule_leak` finds a reference to a task that is. -/
theorem scheduled_bucket_served_iff {Loop Bucket : Type} [DecidableEq Loop] [DecidableEq Bucket]
    (actions : List (LeakTaskAction Loop Bucket)) :
    Always AsyncLeaker.step AsyncLeaker.Served AsyncLeaker.start actions ↔
      StepsMeet AsyncLeaker.step AsyncLeaker.FreshReference AsyncLeaker.start actions := by
  have start : AsyncLeaker.Served (.start : AsyncLeaker Loop Bucket) :=
    fun _bucket impossible => by cases impossible
  apply always_iff_stepsMeet (fun _leaker served => served) _ _ start
  · intro before action after _served fresh taken
    exact AsyncLeaker.Served.step fresh taken
  · intro before action after _served stale taken
    exact AsyncLeaker.unserved_of_stale stale taken

/-- The loop of the task is shut down, and another one schedules the next bucket. -/
def secondLoop : List (LeakTaskAction Bool Bool) :=
  [.startLoop false, .scheduleLeak false false, .shutDownLoop false, .startLoop true,
    .scheduleLeak true true]

theorem secondLoop_unserved :
    (exec AsyncLeaker.step AsyncLeaker.start secondLoop).map
        (fun final => (final.asyncBuckets, final.aioLeakTask, final.scheduled)) =
          some ([false, true], some { loop := false, done := true }, some true) ∧
      ¬Always AsyncLeaker.step AsyncLeaker.Served AsyncLeaker.start secondLoop := by
  have ran : (exec AsyncLeaker.step AsyncLeaker.start secondLoop).map
      (fun final => (final.asyncBuckets, final.aioLeakTask, final.scheduled)) =
        some ([false, true], some { loop := false, done := true }, some true) := by decide
  refine ⟨ran, ?_⟩
  obtain ⟨final, run, shape⟩ := Option.map_eq_some_iff.mp ran
  simp only [Prod.mk.injEq] at shape
  obtain ⟨_registry, reference, scheduled⟩ := shape
  intro always
  have served := always.reached run
  obtain ⟨_member, task, current, pending⟩ := served true scheduled
  rw [reference] at current
  cases current
  cases pending

end PyrateLimiter
