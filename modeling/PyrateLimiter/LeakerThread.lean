/-
The worker thread of a leaker, and the calls that register buckets with it.

`schedule_leak` registers a bucket and then asks for the worker: a thread that is
alive is left alone, otherwise a new one is started.  The worker leaks until it
finds the registry empty, leaves its loop, and its thread ends some time later.
Nothing orders these steps.  A bucket that is registered after the worker's last
look at the registry can find the thread alive, although it will not leak again.
-/

import PyrateLimiter.BucketFactory
import PyrateLimiter.Foundations.TransitionSystem

namespace PyrateLimiter

open Foundations.TransitionSystem

/-- Where a worker thread is, from `Thread.start` to its end. -/
inductive WorkerPhase (Bucket : Type) where
  | starting
  | testing
  | leaking (rest : List Bucket)
  | sleeping
  | left
  | dead
  deriving DecidableEq, Repr

namespace WorkerPhase

variable {Bucket : Type}

def isAlive : WorkerPhase Bucket → Bool
  | .dead => false
  | _ => true

/-- The worker has not left its leak loop yet. -/
def inLoop : WorkerPhase Bucket → Bool
  | .starting | .testing | .leaking _ | .sleeping => true
  | .left | .dead => false

/-- The next atomic step of `_run` and of `_leak`.  The assertion of `_run` ends a thread
that finds the registry empty before the loop. -/
def next (stopEvent : Bool) (syncBuckets : List Bucket) : WorkerPhase Bucket → WorkerPhase Bucket
  | .starting => if syncBuckets.isEmpty then .left else .testing
  | .testing => if !stopEvent && !syncBuckets.isEmpty then .leaking syncBuckets else .left
  | .leaking (_ :: rest) => .leaking rest
  | .leaking [] => .sleeping
  | .sleeping => .testing
  | .left | .dead => .dead

theorem inLoop_next {stopEvent : Bool} {syncBuckets : List Bucket} {phase : WorkerPhase Bucket}
    (running : stopEvent = false) (occupied : syncBuckets ≠ []) (inside : phase.inLoop = true) :
    (phase.next stopEvent syncBuckets).inLoop = true := by
  have nonempty : syncBuckets.isEmpty = false := List.isEmpty_eq_false_iff.mpr occupied
  cases phase with
  | starting =>
      simp only [next, nonempty]
      rfl
  | testing =>
      simp only [next, running, nonempty]
      rfl
  | leaking rest => cases rest <;> rfl
  | sleeping => rfl
  | left => cases inside
  | dead => cases inside

end WorkerPhase

/-- Where a call of `schedule_leak` is.  It is `kept` as long as its bucket has not been
disposed since the call registered it. -/
inductive ScheduleCall (Bucket : Type) where
  | idle
  | registered (bucket : Bucket) (kept : Bool)
  | starting (bucket : Bucket) (kept : Bool)
  deriving DecidableEq, Repr

namespace ScheduleCall

variable {Bucket : Type}

def keeps : ScheduleCall Bucket → Option Bucket
  | .registered bucket true | .starting bucket true => some bucket
  | _ => none

def abandoned : ScheduleCall Bucket → ScheduleCall Bucket
  | .idle => .idle
  | .registered bucket _ => .registered bucket false
  | .starting bucket _ => .starting bucket false

theorem keeps_abandoned (call : ScheduleCall Bucket) : call.abandoned.keeps = none := by
  cases call <;> rfl

variable [DecidableEq Bucket]

def disposed (bucket : Bucket) (call : ScheduleCall Bucket) : ScheduleCall Bucket :=
  if call.keeps = some bucket then call.abandoned else call

theorem keeps_of_disposed {bucket kept : Bucket} {call : ScheduleCall Bucket}
    (keeping : (call.disposed bucket).keeps = some kept) :
    kept ≠ bucket ∧ call.keeps = some kept := by
  unfold disposed at keeping
  split at keeping
  · rw [keeps_abandoned] at keeping
    cases keeping
  · rename_i other
    refine ⟨?_, keeping⟩
    rintro rfl
    exact other keeping

end ScheduleCall

inductive LeakerAction (Caller Bucket : Type) where
  | register (caller : Caller) (bucket : Bucket)
  | testAlive (caller : Caller)
  | startThread (caller : Caller)
  | dispose (bucket : Bucket)
  | close
  | work (thread : Nat)
  deriving DecidableEq, Repr

/-- A leaker with the threads it has started, the newest one last. -/
structure ThreadedLeaker (Caller Bucket : Type) where
  syncBuckets : List Bucket
  stopEvent : Bool
  threads : List (WorkerPhase Bucket)
  call : Caller → ScheduleCall Bucket
  /-- The buckets whose `schedule_leak` has returned since they were last disposed. -/
  settled : List Bucket

namespace ThreadedLeaker

variable {Caller Bucket : Type}

def start : ThreadedLeaker Caller Bucket :=
  { syncBuckets := []
    stopEvent := false
    threads := []
    call := fun _ => .idle
    settled := [] }

/-- `self._thread` is the newest thread, if there is one. -/
def isAlive (leaker : ThreadedLeaker Caller Bucket) : Bool :=
  match leaker.threads.getLast? with
  | some thread => thread.isAlive
  | none => false

/-- Where a scheduled bucket is neither disposed nor closed, some worker is still in its
leak loop. -/
def Tended (leaker : ThreadedLeaker Caller Bucket) : Prop :=
  leaker.settled ≠ [] → ∃ thread, thread ∈ leaker.threads ∧ thread.inLoop = true

variable [DecidableEq Caller]

def move (leaker : ThreadedLeaker Caller Bucket) (caller : Caller) (call : ScheduleCall Bucket) :
    ThreadedLeaker Caller Bucket :=
  { leaker with call := Function.update leaker.call caller call }

/-- `schedule_leak` returns. -/
def returned (leaker : ThreadedLeaker Caller Bucket) (caller : Caller) :
    ThreadedLeaker Caller Bucket :=
  { leaker.move caller .idle with
    settled :=
      match (leaker.call caller).keeps with
      | some bucket => bucket :: leaker.settled
      | none => leaker.settled }

variable [DecidableEq Bucket]

/-- One atomic step of a call or of a worker.  The factory drops a leaker that it closes, so
no call reaches it afterwards. -/
def step (leaker : ThreadedLeaker Caller Bucket) :
    LeakerAction Caller Bucket → Option (ThreadedLeaker Caller Bucket)
  | .register caller bucket =>
      match leaker.call caller, leaker.stopEvent with
      | .idle, false =>
          some
            { leaker.move caller (.registered bucket true) with
              syncBuckets := registerIn leaker.syncBuckets bucket }
      | _, _ => none
  | .testAlive caller =>
      match leaker.call caller with
      | .registered bucket kept =>
          if !leaker.syncBuckets.isEmpty && !leaker.isAlive then
            some (leaker.move caller (.starting bucket kept))
          else some (leaker.returned caller)
      | _ => none
  | .startThread caller =>
      match leaker.call caller with
      | .starting _ _ =>
          some
            { leaker.returned caller with
              stopEvent := false
              threads := leaker.threads ++ [.starting] }
      | _ => none
  | .dispose bucket =>
      some
        { leaker with
          syncBuckets := leaker.syncBuckets.erase bucket
          call := fun caller => (leaker.call caller).disposed bucket
          settled := leaker.settled.filter (fun settled => settled ≠ bucket) }
  | .close =>
      some
        { leaker with
          syncBuckets := []
          stopEvent := true
          call := fun _ => .idle
          settled := [] }
  | .work index =>
      match leaker.threads[index]? with
      | some thread =>
          some
            { leaker with
              threads := leaker.threads.set index
                (thread.next leaker.stopEvent leaker.syncBuckets) }
      | none => none

/-! ### What a step can do -/

inductive Taken (before : ThreadedLeaker Caller Bucket) :
    LeakerAction Caller Bucket → ThreadedLeaker Caller Bucket → Prop
  | register (caller : Caller) (bucket : Bucket) (running : before.stopEvent = false) :
      Taken before (.register caller bucket)
        { before.move caller (.registered bucket true) with
          syncBuckets := registerIn before.syncBuckets bucket }
  | needThread (caller : Caller) (bucket : Bucket) (kept : Bool)
      (current : before.call caller = .registered bucket kept) :
      Taken before (.testAlive caller) (before.move caller (.starting bucket kept))
  | keepThread (caller : Caller) (bucket : Bucket) (kept : Bool)
      (current : before.call caller = .registered bucket kept)
      (alive : before.syncBuckets ≠ [] → before.isAlive = true) :
      Taken before (.testAlive caller) (before.returned caller)
  | startThread (caller : Caller) (bucket : Bucket) (kept : Bool)
      (current : before.call caller = .starting bucket kept) :
      Taken before (.startThread caller)
        { before.returned caller with
          stopEvent := false
          threads := before.threads ++ [.starting] }
  | dispose (bucket : Bucket) :
      Taken before (.dispose bucket)
        { before with
          syncBuckets := before.syncBuckets.erase bucket
          call := fun caller => (before.call caller).disposed bucket
          settled := before.settled.filter (fun settled => settled ≠ bucket) }
  | close :
      Taken before .close
        { before with
          syncBuckets := []
          stopEvent := true
          call := fun _ => .idle
          settled := [] }
  | work (index : Nat) (thread : WorkerPhase Bucket)
      (present : before.threads[index]? = some thread) :
      Taken before (.work index)
        { before with
          threads := before.threads.set index
            (thread.next before.stopEvent before.syncBuckets) }

theorem step_cases {before after : ThreadedLeaker Caller Bucket}
    {action : LeakerAction Caller Bucket} (taken : before.step action = some after) :
    Taken before action after := by
  cases action with
  | register caller bucket =>
      simp only [step] at taken
      split at taken
      · rename_i running
        cases taken
        exact .register caller bucket running
      · cases taken
  | testAlive caller =>
      simp only [step] at taken
      split at taken
      · rename_i bucket kept current
        split at taken
        · cases taken
          exact .needThread caller bucket kept current
        · rename_i found
          cases taken
          refine .keepThread caller bucket kept current ?_
          intro occupied
          have nonempty : before.syncBuckets.isEmpty = false :=
            List.isEmpty_eq_false_iff.mpr occupied
          simpa [nonempty] using found
      · cases taken
  | startThread caller =>
      simp only [step] at taken
      split at taken
      · rename_i bucket kept current
        cases taken
        exact .startThread caller bucket kept current
      · cases taken
  | dispose bucket =>
      cases taken
      exact .dispose bucket
  | close =>
      cases taken
      exact .close
  | work index =>
      simp only [step] at taken
      split at taken
      · rename_i thread present
        cases taken
        exact .work index thread present
      · cases taken

end ThreadedLeaker

/-! ### The registry is the one of the factory -/

namespace ThreadedLeaker

variable {Caller Bucket : Type}

/-- The leaker as the factory sees it. -/
def toLeaker (leaker : ThreadedLeaker Caller Bucket) : Leaker Bucket :=
  { Leaker.init with syncBuckets := leaker.syncBuckets }

/-- The call of the factory whose effect on the registry a step has. -/
def factoryCall : LeakerAction Caller Bucket → Option (FactoryCall Bucket)
  | .register _ bucket => some (.scheduleLeak bucket false)
  | .dispose bucket => some (.dispose bucket)
  | .testAlive _ | .startThread _ | .close | .work _ => none

variable [DecidableEq Caller] [DecidableEq Bucket] {traits : BucketTraits Bucket}

theorem step_mirrors (ratesSet : ∀ bucket, traits.ratesSet bucket = true)
    (side : ∀ bucket, traits.side bucket = .ok false) {factory : BucketFactory Bucket}
    {before after : ThreadedLeaker Caller Bucket} (mirrors : factory.currentLeaker = before.toLeaker)
    {action : LeakerAction Caller Bucket} (opened : action ≠ .close)
    (taken : before.step action = some after) :
    ((factoryCall action).elim factory (factory.call traits)).currentLeaker = after.toLeaker := by
  cases step_cases taken with
  | register caller bucket running =>
      have registered : factory.currentLeaker.register traits bucket =
          .ok { Leaker.init with syncBuckets := registerIn before.syncBuckets bucket } := by
        rw [mirrors, Leaker.register, side bucket]
        rfl
      exact BucketFactory.currentLeaker_scheduleLeak (ratesSet bucket) registered false
  | needThread caller bucket kept current => exact mirrors
  | keepThread caller bucket kept current alive => exact mirrors
  | startThread caller bucket kept current => exact mirrors
  | dispose bucket =>
      refine (BucketFactory.currentLeaker_dispose traits factory bucket).trans ?_
      rw [mirrors, Leaker.deregister]
      split
      · rfl
      · rename_i absent
        simp only [toLeaker] at absent ⊢
        rw [List.erase_of_not_mem absent]
        rfl
  | close => exact absurd rfl opened
  | work index thread present => exact mirrors

/-- As long as the leaker is not closed, its registry is the one that the calls of the
factory leave, whatever the workers do in between. -/
theorem run_mirrors (ratesSet : ∀ bucket, traits.ratesSet bucket = true)
    (side : ∀ bucket, traits.side bucket = .ok false)
    {actions : List (LeakerAction Caller Bucket)}
    (opened : ∀ action, action ∈ actions → action ≠ .close) {final : ThreadedLeaker Caller Bucket}
    (run : exec step start actions = some final) :
    (BucketFactory.run traits (actions.filterMap factoryCall)).currentLeaker =
      final.toLeaker := by
  have empty : (BucketFactory.empty : BucketFactory Bucket).currentLeaker =
      (start : ThreadedLeaker Caller Bucket).toLeaker := rfl
  exact simulated_exec
    (fun (factory : BucketFactory Bucket) (leaker : ThreadedLeaker Caller Bucket) =>
      factory.currentLeaker = leaker.toLeaker)
    (fun _factory _before _action _after mirrors opened taken =>
      step_mirrors ratesSet side mirrors opened taken) empty opened run

end ThreadedLeaker

/-! ### When a worker is left for every scheduled bucket -/

namespace ThreadedLeaker

variable {Caller Bucket : Type}

/-- A call whose bucket is still registered does not take a thread for its worker that
has left the loop: if it finds a thread alive, some worker is still in its loop. -/
def FindsWorker (leaker : ThreadedLeaker Caller Bucket) : LeakerAction Caller Bucket → Prop
  | .testAlive caller => ∀ bucket, leaker.call caller = .registered bucket true →
      leaker.isAlive = true → ∃ thread, thread ∈ leaker.threads ∧ thread.inLoop = true
  | _ => True

/-- The buckets that the calls and the ghost list stand for are in the registry, which a
closed leaker keeps empty. -/
structure Registry (leaker : ThreadedLeaker Caller Bucket) : Prop where
  settled : ∀ bucket, bucket ∈ leaker.settled → bucket ∈ leaker.syncBuckets
  kept : ∀ caller bucket, (leaker.call caller).keeps = some bucket →
    bucket ∈ leaker.syncBuckets
  running : leaker.syncBuckets ≠ [] → leaker.stopEvent = false

namespace Registry

variable {before after : ThreadedLeaker Caller Bucket}

theorem start : Registry (ThreadedLeaker.start : ThreadedLeaker Caller Bucket) where
  settled := fun _bucket impossible => by cases impossible
  kept := fun _caller _bucket impossible => by cases impossible
  running := fun _occupied => rfl

theorem occupied (registry : Registry before) (tending : before.settled ≠ []) :
    before.syncBuckets ≠ [] := by
  obtain ⟨bucket, settled⟩ := List.exists_mem_of_ne_nil before.settled tending
  exact List.ne_nil_of_mem (registry.settled bucket settled)

variable [DecidableEq Caller]

/-- A call that goes on and keeps no other bucket than before. -/
theorem move (registry : Registry before) (caller : Caller) {call : ScheduleCall Bucket}
    (keeps : ∀ bucket, call.keeps = some bucket → bucket ∈ before.syncBuckets) :
    Registry (before.move caller call) where
  settled := registry.settled
  kept := by
    change ∀ other bucket, (Function.update before.call caller call other).keeps =
      some bucket → bucket ∈ before.syncBuckets
    rw [Function.forall_update_iff before.call (fun _other call => ∀ bucket,
      call.keeps = some bucket → bucket ∈ before.syncBuckets)]
    exact ⟨keeps, fun other _different => registry.kept other⟩
  running := registry.running

theorem returned (registry : Registry before) (caller : Caller) :
    Registry (before.returned caller) := by
  have moved : Registry (before.move caller .idle) :=
    registry.move caller (fun _bucket impossible => by cases impossible)
  exact
    { moved with
      settled := by
        simp only [ThreadedLeaker.returned]
        split
        · rename_i own keeping
          intro bucket member
          rcases List.mem_cons.mp member with rfl | old
          · exact registry.kept caller bucket keeping
          · exact registry.settled bucket old
        · exact registry.settled }

variable [DecidableEq Bucket]

theorem step {action : LeakerAction Caller Bucket} (registry : Registry before)
    (taken : before.step action = some after) : Registry after := by
  cases step_cases taken with
  | register caller bucket running =>
      have grown : ∀ other, other ∈ before.syncBuckets →
          other ∈ registerIn before.syncBuckets bucket :=
        fun other old => mem_registerIn.mpr (Or.inl old)
      exact
        { settled := fun other member => grown other (registry.settled other member)
          kept := by
            change ∀ other kept, (Function.update before.call caller
              (.registered bucket true) other).keeps = some kept → _
            rw [Function.forall_update_iff before.call (fun _other call => ∀ kept,
              call.keeps = some kept → kept ∈ registerIn before.syncBuckets bucket)]
            refine ⟨?_, fun other _different kept keeping =>
              grown kept (registry.kept other kept keeping)⟩
            intro kept keeping
            cases keeping
            exact mem_registerIn.mpr (Or.inr rfl)
          running := fun _occupied => running }
  | needThread caller bucket kept current =>
      apply registry.move
      intro own keeping
      apply registry.kept caller
      rw [current]
      cases kept with
      | true => exact keeping
      | false => cases keeping
  | keepThread caller bucket kept current alive => exact registry.returned caller
  | startThread caller bucket kept current =>
      exact { registry.returned caller with running := fun _occupied => rfl }
  | dispose bucket =>
      exact
        { settled := by
            intro other member
            obtain ⟨old, different⟩ := List.mem_filter.mp member
            exact (List.mem_erase_of_ne (of_decide_eq_true different)).mpr
              (registry.settled other old)
          kept := by
            intro caller other keeping
            obtain ⟨different, keeping⟩ := ScheduleCall.keeps_of_disposed keeping
            exact (List.mem_erase_of_ne different).mpr (registry.kept caller other keeping)
          running := by
            intro occupied
            apply registry.running
            intro empty
            exact occupied (by simp only [empty, List.erase_nil]) }
  | close =>
      exact
        { settled := fun _bucket impossible => by cases impossible
          kept := fun _caller _bucket impossible => by cases impossible
          running := fun occupied => absurd rfl occupied }
  | work index thread present => exact { registry with }

end Registry

theorem exists_inLoop_set {threads : List (WorkerPhase Bucket)} {index : Nat}
    {old new : WorkerPhase Bucket} (present : threads[index]? = some old)
    (stays : old.inLoop = true → new.inLoop = true)
    (some : ∃ thread, thread ∈ threads ∧ thread.inLoop = true) :
    ∃ thread, thread ∈ threads.set index new ∧ thread.inLoop = true := by
  obtain ⟨thread, member, inside⟩ := some
  obtain ⟨position, found⟩ := List.mem_iff_getElem?.mp member
  by_cases same : index = position
  · subst position
    have both : old = thread := Option.some.inj (present.symm.trans found)
    refine ⟨new, List.mem_iff_getElem?.mpr ⟨index, ?_⟩, stays (both ▸ inside)⟩
    exact List.getElem?_set_self (List.getElem?_eq_some_iff.mp present).choose
  · refine ⟨thread, List.mem_iff_getElem?.mpr ⟨position, ?_⟩, inside⟩
    rw [List.getElem?_set_ne same]
    exact found

variable [DecidableEq Caller] [DecidableEq Bucket] {before after : ThreadedLeaker Caller Bucket}
  {action : LeakerAction Caller Bucket}

theorem Tended.step (tended : before.Tended) (registry : Registry before)
    (finds : before.FindsWorker action) (taken : before.step action = some after) :
    after.Tended := by
  cases step_cases taken with
  | register caller bucket running => exact tended
  | needThread caller bucket kept current => exact tended
  | keepThread caller bucket kept current alive =>
      cases kept with
      | false =>
          intro settled
          apply tended
          simpa only [returned, current, ScheduleCall.keeps] using settled
      | true =>
          intro _settled
          have registered := registry.kept caller bucket (by rw [current]; rfl)
          exact finds bucket current (alive (List.ne_nil_of_mem registered))
  | startThread caller bucket kept current =>
      intro _settled
      exact ⟨.starting, List.mem_append_right _ (List.mem_singleton.mpr rfl), rfl⟩
  | dispose bucket =>
      intro settled
      apply tended
      intro none
      simp only [none, List.filter_nil] at settled
      exact settled rfl
  | close =>
      intro settled
      exact absurd rfl settled
  | work index thread present =>
      intro settled
      have occupied := registry.occupied settled
      exact exists_inLoop_set present
        (WorkerPhase.inLoop_next (registry.running occupied) occupied) (tended settled)

/-- A call that takes a thread outside the loop for its worker settles its bucket with none. -/
theorem untended_of_unseen (unseen : ¬before.FindsWorker action)
    (taken : before.step action = some after) : ¬after.Tended := by
  cases action with
  | testAlive caller =>
      simp only [FindsWorker, not_forall] at unseen
      obtain ⟨bucket, current, alive, none⟩ := unseen
      simp only [ThreadedLeaker.step, current, alive, Bool.not_true, Bool.and_false,
        Bool.false_eq_true, if_false] at taken
      cases taken
      intro tended
      apply none
      apply tended
      simp only [returned, current, ScheduleCall.keeps]
      exact List.cons_ne_nil _ _
  | register caller bucket => exact absurd trivial unseen
  | startThread caller => exact absurd trivial unseen
  | dispose bucket => exact absurd trivial unseen
  | close => exact absurd trivial unseen
  | work index => exact absurd trivial unseen

structure Tending (leaker : ThreadedLeaker Caller Bucket) : Prop where
  registry : Registry leaker
  tended : leaker.Tended

end ThreadedLeaker

/-- In a run every scheduled bucket has a worker in its loop exactly if no call takes the
thread of a worker that has left the loop for one that still leaks. -/
theorem scheduled_buckets_tended_iff {Caller Bucket : Type} [DecidableEq Caller]
    [DecidableEq Bucket] (actions : List (LeakerAction Caller Bucket)) :
    Always ThreadedLeaker.step ThreadedLeaker.Tended ThreadedLeaker.start actions ↔
      StepsMeet ThreadedLeaker.step ThreadedLeaker.FindsWorker ThreadedLeaker.start actions := by
  have start : ThreadedLeaker.Tending (.start : ThreadedLeaker Caller Bucket) :=
    { registry := .start
      tended := fun impossible => absurd rfl impossible }
  apply always_iff_stepsMeet (fun _leaker tending => tending.tended) _ _ start
  · intro before action after tending finds taken
    exact
      { registry := tending.registry.step taken
        tended := tending.tended.step tending.registry finds taken }
  · intro before action after _tending unseen taken
    exact ThreadedLeaker.untended_of_unseen unseen taken

/-- The worker finds the registry empty and leaves its loop; the next bucket is registered
before its thread has ended. -/
def lateBucket : List (LeakerAction Unit Bool) :=
  [.register () false, .testAlive (), .startThread (), .work 0, .dispose false, .work 0,
    .register () true, .testAlive (), .work 0]

theorem lateBucket_untended :
    (exec ThreadedLeaker.step ThreadedLeaker.start lateBucket).map
        (fun final => (final.threads, final.syncBuckets, final.settled)) =
          some ([.dead], [true], [true]) ∧
      ¬Always ThreadedLeaker.step ThreadedLeaker.Tended ThreadedLeaker.start lateBucket := by
  have ran : (exec ThreadedLeaker.step ThreadedLeaker.start lateBucket).map
      (fun final => (final.threads, final.syncBuckets, final.settled)) =
        some ([.dead], [true], [true]) := by decide
  refine ⟨ran, ?_⟩
  obtain ⟨final, run, shape⟩ := Option.map_eq_some_iff.mp ran
  simp only [Prod.mk.injEq] at shape
  obtain ⟨threads, _registry, settled⟩ := shape
  intro always
  have tended := always.reached run
  obtain ⟨thread, member, inside⟩ := tended (by rw [settled]; exact List.cons_ne_nil _ _)
  rw [threads, List.mem_singleton] at member
  rw [member] at inside
  cases inside

end PyrateLimiter
