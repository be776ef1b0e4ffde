/-
The locks that limiters, buckets and the leaker take.

A limiter has a thread lock, in front of which it takes the lock of the bucket it was
made from, if that bucket has one to offer.  The methods of a bucket take its lock once
more, and those of a multiprocess bucket twice.  A limiter that was unpickled, or that
was made from a factory, from rates or from a wrapper, takes its thread lock alone, and
the lock of the bucket inside it.  Both orders occur at one bucket, but never on the
thread lock of one limiter, and no use of these locks ends in a deadlock.
-/

import PyrateLimiter.CombinedLock
import PyrateLimiter.Foundations.LockOrder

namespace PyrateLimiter

open Foundations.LockOrder
open Foundations.TransitionSystem

/-! ### The operations of a combined lock -/

section Combined

variable {Lock : Type}

def LockEvent.operation : LockEvent Lock → Option (Operation Lock)
  | .acquire { lock := lock, outcome := .ok true, .. } => some (.acquire lock)
  | .acquire _ => none
  | .body => some .work
  | .release lock => some (.release lock)

def operations (events : List (LockEvent Lock)) : List (Operation Lock) :=
  events.filterMap LockEvent.operation

theorem operations_of_acquiring {trace : List (LockEvent Lock)} (quiet : bodies trace = 0)
    (unreleased : released trace = []) : operations trace = (acquired trace).map .acquire := by
  induction trace with
  | nil => rfl
  | cons event rest ih =>
      have apart := bodies_append [event] rest
      have kept := released_append [event] rest
      rw [List.singleton_append] at apart kept
      rw [quiet] at apart
      rw [unreleased] at kept
      have later := ih (by omega) (List.append_eq_nil_iff.mp kept.symm).2
      cases event with
      | acquire attempt =>
          obtain ⟨lock, call, outcome, finished⟩ := attempt
          unfold operations acquired at later ⊢
          rcases outcome with raised | granted
          · exact later
          · cases granted with
            | false => exact later
            | true => exact congrArg (List.cons (Operation.acquire lock)) later
      | body =>
          have ran : bodies [(LockEvent.body : LockEvent Lock)] = 1 := rfl
          omega
      | release lock => cases (List.append_eq_nil_iff.mp kept.symm).1

theorem operations_releases (locks : List Lock) :
    operations (locks.map LockEvent.release) = locks.map .release := by
  unfold operations
  rw [List.filterMap_map]
  exact congrFun List.filterMap_eq_map' locks

variable [DecidableEq Lock] (behaviour : LockBehaviour Lock) (blocking : Bool) (timeout : ℚ)

theorem acquireEach_prefix (deadline : Option ℚ) (locks acquiredLocks : List Lock)
    (world : LockWorld Lock) :
    ∃ taken, taken <+: locks ∧
      (acquireEach behaviour blocking timeout deadline locks acquiredLocks world).2.1 =
        acquiredLocks ++ taken := by
  induction locks generalizing acquiredLocks world with
  | nil => exact ⟨[], List.prefix_rfl, (List.append_nil _).symm⟩
  | cons lock rest ih =>
      simp only [acquireEach]
      have none_taken : ∃ taken, taken <+: lock :: rest ∧ acquiredLocks = acquiredLocks ++ taken :=
        ⟨[], List.nil_prefix, (List.append_nil _).symm⟩
      split
      · exact none_taken
      · split
        · exact none_taken
        · exact none_taken
        · rename_i next _granted
          obtain ⟨taken, part, same⟩ := ih (acquiredLocks ++ [lock]) next
          refine ⟨lock :: taken, (List.prefix_cons_inj lock).mpr part, ?_⟩
          rw [same, List.append_assoc]
          rfl

/-- The releases after the acquires of a trace and a middle. -/
theorem Acquiring.operations_closed {before after final : LockWorld Lock}
    {trace middle : List (LockEvent Lock)} (acquiring : Acquiring before after trace)
    (fresh : before.events = [])
    (shape : final.events = after.events ++ middle ++
      (acquired trace).reverse.map LockEvent.release) :
    operations final.events = withLocks (acquired trace) (operations middle) := by
  rw [withLocks_eq, shape, acquiring.events, fresh, List.nil_append]
  unfold operations
  rw [List.filterMap_append, List.filterMap_append]
  exact congrArg₂ _
    (congrArg₂ _ (operations_of_acquiring acquiring.quiet acquiring.unreleased) rfl)
    (operations_releases _)

theorem combinedLock_single_operations (lock : Lock) (body : Body) {before : LockWorld Lock}
    (fresh : before.events = []) :
    operations (combinedLock behaviour blocking timeout (.single lock) body before).2.events =
        withLocks [lock] [.work] ∨
      operations (combinedLock behaviour blocking timeout (.single lock) body before).2.events =
        [] := by
  have step := before.acquiring_acquire behaviour lock (.single blocking timeout)
  cases acquireAt : before.acquire behaviour lock (.single blocking timeout) with
  | mk outcome next =>
      have tried : (before.tried behaviour lock (.single blocking timeout)).outcome = outcome :=
        congrArg Prod.fst acquireAt
      rw [acquireAt] at step
      simp only [combinedLock, acquireAt]
      by_cases granted : outcome = .ok true
      · subst granted
        left
        have taken := acquired_granted tried
        have shape : ((next.run body).release lock).events =
            next.events ++ [.body] ++
              (acquired [.acquire (before.tried behaviour lock
                (.single blocking timeout))]).reverse.map LockEvent.release := by
          rw [taken]
          rfl
        have run := step.operations_closed fresh shape
        rw [taken] at run
        exact run
      · right
        have untaken := acquired_failed (by rw [tried]; exact granted)
        have shape : next.events = next.events ++ [] ++
            (acquired [.acquire (before.tried behaviour lock
              (.single blocking timeout))]).reverse.map LockEvent.release := by
          rw [untaken]
          simp
        have run := step.operations_closed fresh shape
        rw [untaken] at run
        rcases outcome with raised | accepted
        · exact run
        · cases accepted with
          | false => exact run
          | true => exact absurd rfl granted

theorem combinedLock_each_operations (locks : List Lock) (body : Body) {before : LockWorld Lock}
    (fresh : before.events = []) :
    ∃ taken, taken <+: locks ∧
      (operations (combinedLock behaviour blocking timeout (.each locks) body before).2.events =
          withLocks locks [.work] ∨
        operations (combinedLock behaviour blocking timeout (.each locks) body before).2.events =
          withLocks taken []) := by
  simp only [combinedLock]
  generalize chosen :
    (if blocking = true ∧ timeout ≠ -1 then some (before.monotonic + timeout) else none) =
      deadline
  obtain ⟨trace, acquiring, held, ended⟩ :=
    acquireEach_ended (deadline_ready chosen) locks [] before
  obtain ⟨taken, part, same⟩ :=
    acquireEach_prefix behaviour blocking timeout deadline locks [] before
  rw [held, List.nil_append, List.nil_append] at same
  rw [List.nil_append] at held
  refine ⟨taken, part, ?_⟩
  cases loop : acquireEach behaviour blocking timeout deadline locks [] before with
  | mk result rest =>
      obtain ⟨acquiredLocks, world⟩ := rest
      rw [loop] at acquiring held ended
      change acquiredLocks = acquired trace at held
      subst held
      cases result with
      | error raised =>
          right
          have shape : (world.releaseEach (acquired trace).reverse).events =
              world.events ++ [] ++ (acquired trace).reverse.map LockEvent.release := by
            rw [LockWorld.events_releaseEach, List.append_nil]
          rw [← same]
          exact acquiring.operations_closed fresh shape
      | ok done =>
          cases done
          left
          cases ended with
          | granted all complete =>
              have shape : ((world.run body).releaseEach (acquired trace).reverse).events =
                  world.events ++ [.body] ++
                    (acquired trace).reverse.map LockEvent.release := by
                rw [LockWorld.events_releaseEach]
                rfl
              refine (acquiring.operations_closed fresh shape).trans ?_
              rw [complete]
              rfl

/-- A use of the combined lock takes and gives back locks as `withLocks` does: all of them
around the body, or the first ones around nothing. -/
theorem combinedLock_operations (locks : Locks Lock) (body : Body) {before : LockWorld Lock}
    (fresh : before.events = []) :
    ∃ taken, taken <+: locks.toList ∧
      (operations (combinedLock behaviour blocking timeout locks body before).2.events =
          withLocks locks.toList [.work] ∨
        operations (combinedLock behaviour blocking timeout locks body before).2.events =
          withLocks taken []) := by
  cases locks with
  | single lock =>
      exact ⟨[], List.nil_prefix,
        combinedLock_single_operations behaviour blocking timeout lock body fresh⟩
  | each locks => exact combinedLock_each_operations behaviour blocking timeout locks body fresh

end Combined

/-! ### Buckets -/

/-- The thread lock of a limiter, or a lock that guards the data of buckets. -/
inductive SharedLock (Limiter Guard : Type) where
  | limiter (limiter : Limiter)
  | guard (guard : Guard)
  deriving DecidableEq

/-- `given` says whether the bucket was made with a lock of the caller. -/
inductive GuardedKind where
  | inMemory
  | multiprocess
  | sqlite (given : Bool)
  deriving DecidableEq, Repr

/-- Buckets may have one guard between them: a file lock, or the lock of several processes. -/
structure GuardedBucket (Guard : Type) where
  kind : GuardedKind
  guard : Guard

/-- How `waiting` goes: without a peek, or with a peek at no items or at some. -/
inductive WaitingPath where
  | unpeeked
  | empty
  | counted
  deriving DecidableEq, Repr

namespace GuardedBucket

variable {Limiter Guard : Type}

def limiterLock (bucket : GuardedBucket Guard) : Option Guard :=
  match bucket.kind with
  | .inMemory | .sqlite false => none
  | .multiprocess | .sqlite true => some bucket.guard

/-- `with` the lock of the bucket. -/
def guarded (bucket : GuardedBucket Guard) (body : List (Operation (SharedLock Limiter Guard))) :
    List (Operation (SharedLock Limiter Guard)) :=
  withLock (.guard bucket.guard) body

/-- A method that a multiprocess bucket wraps once more. -/
def rewrapped (bucket : GuardedBucket Guard) : List (Operation (SharedLock Limiter Guard)) :=
  match bucket.kind with
  | .multiprocess => bucket.guarded (bucket.guarded [.work])
  | .inMemory | .sqlite _ => bucket.guarded [.work]

def put (bucket : GuardedBucket Guard) : List (Operation (SharedLock Limiter Guard)) :=
  bucket.rewrapped

def leak (bucket : GuardedBucket Guard) : List (Operation (SharedLock Limiter Guard)) :=
  bucket.rewrapped

def flush (bucket : GuardedBucket Guard) : List (Operation (SharedLock Limiter Guard)) :=
  bucket.guarded [.work]

def count (bucket : GuardedBucket Guard) : List (Operation (SharedLock Limiter Guard)) :=
  bucket.guarded [.work]

/-- The list in memory counts its items inside the peek. -/
def peek (bucket : GuardedBucket Guard) (counts : Bool) :
    List (Operation (SharedLock Limiter Guard)) :=
  match bucket.kind with
  | .inMemory | .multiprocess => bucket.guarded (.work :: if counts then bucket.count else [])
  | .sqlite _ => bucket.guarded [.work]

def waiting (bucket : GuardedBucket Guard) : WaitingPath →
    List (Operation (SharedLock Limiter Guard))
  | .unpeeked => []
  | .empty => bucket.peek false
  | .counted => bucket.peek true

def close (bucket : GuardedBucket Guard) : List (Operation (SharedLock Limiter Guard)) :=
  match bucket.kind with
  | .sqlite _ => bucket.guarded [.work]
  | .inMemory | .multiprocess => []

end GuardedBucket

/-! ### Limiters -/

/-- How a limiter was made. -/
inductive LimiterSource (Guard : Type) where
  | bucket (bucket : GuardedBucket Guard)
  | asyncWrapper (bucket : GuardedBucket Guard)
  | factory
  | setState

namespace LimiterSource

variable {Limiter Guard : Type}

/-- `self.lock`. -/
def lock (source : LimiterSource Guard) (limiter : Limiter) : Locks (SharedLock Limiter Guard) :=
  match source with
  | .bucket only =>
      match only.limiterLock with
      | some guard => .each [.guard guard, .limiter limiter]
      | none => .single (.limiter limiter)
  | .asyncWrapper _ | .factory | .setState => .single (.limiter limiter)

/-- The bucket that the factory answers with, unless its methods only make coroutines.  A
factory of one bucket answers with it, and any other with the one that it routes to. -/
def get (source : LimiterSource Guard) (routed : GuardedBucket Guard) :
    Option (GuardedBucket Guard) :=
  match source with
  | .bucket only => some only
  | .asyncWrapper _ => none
  | .factory | .setState => some routed

def fronted (source : LimiterSource Guard) : Bool :=
  match source with
  | .bucket only => only.limiterLock.isSome
  | .asyncWrapper _ | .factory | .setState => false

theorem lock_cases (source : LimiterSource Guard) (limiter : Limiter) :
    (source.fronted = false ∧ source.lock limiter = .single (.limiter limiter)) ∨
      ∃ only, source = .bucket only ∧ source.fronted = true ∧
        source.lock limiter = .each [.guard only.guard, .limiter limiter] := by
  cases source with
  | bucket only =>
      obtain ⟨kind, guard⟩ := only
      rcases kind with _ | _ | _ | _
      · exact Or.inl ⟨rfl, rfl⟩
      · exact Or.inr ⟨_, rfl, rfl, rfl⟩
      · exact Or.inl ⟨rfl, rfl⟩
      · exact Or.inr ⟨_, rfl, rfl, rfl⟩
  | asyncWrapper wrapped => exact Or.inl ⟨rfl, rfl⟩
  | factory => exact Or.inl ⟨rfl, rfl⟩
  | setState => exact Or.inl ⟨rfl, rfl⟩

end LimiterSource

/-- One use of the locks, from taking the first to giving it back.  In the locked section of
a limiter nothing is put for a weightless item or an awaitable one, and a refused put is
followed by `waiting`. -/
inductive LockUse (Limiter Guard : Type) where
  | tryAcquire (limiter : Limiter) (routed : Option (GuardedBucket Guard))
      (refused : Option WaitingPath)
  | retry (limiter : Limiter) (routed : GuardedBucket Guard) (refused : Option WaitingPath)
  | put (bucket : GuardedBucket Guard)
  | waiting (bucket : GuardedBucket Guard) (path : WaitingPath)
  | leak (bucket : GuardedBucket Guard)
  | flush (bucket : GuardedBucket Guard)
  | count (bucket : GuardedBucket Guard)
  | peek (bucket : GuardedBucket Guard) (counts : Bool)
  | close (bucket : GuardedBucket Guard)

namespace LockUse

variable {Limiter Guard : Type}

def putAndWait (bucket : GuardedBucket Guard) (refused : Option WaitingPath) :
    List (Operation (SharedLock Limiter Guard)) :=
  bucket.put ++ (refused.map bucket.waiting).getD []

def operations (source : Limiter → LimiterSource Guard) :
    LockUse Limiter Guard → List (Operation (SharedLock Limiter Guard))
  | .tryAcquire limiter routed refused =>
      withLocks ((source limiter).lock limiter).toList
        (.work :: match routed.bind (source limiter).get with
          | some bucket => putAndWait bucket refused
          | none => [])
  | .retry limiter routed refused =>
      withLocks ((source limiter).lock limiter).toList
        (match (source limiter).get routed with
          | some bucket => putAndWait bucket refused
          | none => [])
  | .put bucket => bucket.put
  | .waiting bucket path => bucket.waiting path
  | .leak bucket => bucket.leak
  | .flush bucket => bucket.flush
  | .count bucket => bucket.count
  | .peek bucket counts => bucket.peek counts
  | .close bucket => bucket.close

end LockUse

/-! ### The order of the locks -/

/-- The thread lock of a limiter that takes the lock of its bucket first comes after all locks
of buckets, and that of any other limiter before them. -/
def lockRank {Limiter Guard : Type} (source : Limiter → LimiterSource Guard) :
    SharedLock Limiter Guard → ℕ
  | .guard _ => 1
  | .limiter limiter => if (source limiter).fronted then 2 else 0

section Order

variable {Limiter Guard : Type} {source : Limiter → LimiterSource Guard}

theorem lockRank_le (lock : SharedLock Limiter Guard) : lockRank source lock ≤ 2 := by
  unfold lockRank
  split
  · exact Nat.le_succ 1
  · split
    · exact Nat.le_refl 2
    · exact Nat.zero_le 2

variable [DecidableEq Limiter] [DecidableEq Guard] {held : List (SharedLock Limiter Guard)}

/-- The locks that are held leave room for the lock of the bucket. -/
def BelowGuard (source : Limiter → LimiterSource Guard) (held : List (SharedLock Limiter Guard))
    (bucket : GuardedBucket Guard) : Prop :=
  .guard bucket.guard ∈ held ∨ ∀ other, other ∈ held → lockRank source other < 1

namespace GuardedBucket

variable {bucket : GuardedBucket Guard}

theorem balanced_guarded (below : BelowGuard source held bucket)
    {body : List (Operation (SharedLock Limiter Guard))}
    (inner : Balanced (lockRank source) (.guard bucket.guard :: held) body) :
    Balanced (lockRank source) held (bucket.guarded body) :=
  Balanced.withLock below inner

theorem balanced_rewrapped (below : BelowGuard source held bucket) :
    Balanced (lockRank source) held (bucket.rewrapped : List (Operation (SharedLock _ _))) := by
  unfold rewrapped
  split
  · exact balanced_guarded below (balanced_guarded (Or.inl List.mem_cons_self) Balanced.work)
  · exact balanced_guarded below Balanced.work
  · exact balanced_guarded below Balanced.work

theorem balanced_peek (below : BelowGuard source held bucket) (counts : Bool) :
    Balanced (lockRank source) held (bucket.peek counts) := by
  have counted : Balanced (lockRank source) (.guard bucket.guard :: held)
      (.work :: if counts then bucket.count else []) := by
    refine Balanced.work.append ?_
    cases counts with
    | false => exact Balanced.nil
    | true => exact balanced_guarded (Or.inl List.mem_cons_self) Balanced.work
  unfold peek
  split
  · exact balanced_guarded below counted
  · exact balanced_guarded below counted
  · exact balanced_guarded below Balanced.work

theorem balanced_waiting (below : BelowGuard source held bucket) (path : WaitingPath) :
    Balanced (lockRank source) held (bucket.waiting path) := by
  cases path with
  | unpeeked => exact Balanced.nil
  | empty => exact balanced_peek below false
  | counted => exact balanced_peek below true

theorem balanced_close (below : BelowGuard source held bucket) :
    Balanced (lockRank source) held (bucket.close : List (Operation (SharedLock _ _))) := by
  unfold close
  split
  · exact balanced_guarded below Balanced.work
  · exact Balanced.nil
  · exact Balanced.nil

end GuardedBucket

theorem LockUse.balanced_putAndWait {bucket : GuardedBucket Guard}
    (below : BelowGuard source held bucket) (refused : Option WaitingPath) :
    Balanced (lockRank source) held (putAndWait bucket refused) := by
  refine (GuardedBucket.balanced_rewrapped below).append ?_
  cases refused with
  | none => exact Balanced.nil
  | some path => exact GuardedBucket.balanced_waiting below path

omit [DecidableEq Limiter] [DecidableEq Guard] in
/-- Inside the locks of a limiter, the lock of the bucket that it puts into can be taken. -/
theorem LimiterSource.belowGuard (limiter : Limiter) {routed bucket : GuardedBucket Guard}
    (got : (source limiter).get routed = some bucket) :
    BelowGuard source (((source limiter).lock limiter).toList.reverse ++ []) bucket := by
  rcases (source limiter).lock_cases limiter with
    ⟨unfronted, alone⟩ | ⟨only, made, _fronted, both⟩
  · right
    rw [alone]
    intro other member
    rw [List.mem_singleton.mp member]
    simp only [lockRank, unfronted]
    exact Nat.zero_lt_one
  · left
    rw [made] at got
    cases got
    rw [both]
    exact List.mem_cons_of_mem _ List.mem_cons_self

theorem LimiterSource.balanced_locks (limiter : Limiter)
    {body : List (Operation (SharedLock Limiter Guard))}
    (inner : Balanced (lockRank source) (((source limiter).lock limiter).toList.reverse ++ [])
      body) :
    Balanced (lockRank source) []
      (withLocks ((source limiter).lock limiter).toList body) := by
  refine Balanced.withLocks ?_ inner (fun _lock _member _other impossible => by cases impossible)
  rcases (source limiter).lock_cases limiter with
    ⟨_unfronted, alone⟩ | ⟨only, _made, fronted, both⟩
  · rw [alone]
    exact List.pairwise_singleton _ _
  · rw [both]
    refine List.pairwise_pair.mpr ?_
    simp only [lockRank, fronted]
    exact Nat.lt_succ_self 1

theorem LockUse.ordered (use : LockUse Limiter Guard) :
    Ordered (lockRank source) [] (use.operations source) := by
  have free : ∀ bucket : GuardedBucket Guard, BelowGuard source [] bucket :=
    fun _bucket => Or.inr (fun _other impossible => by cases impossible)
  apply Balanced.ordered
  cases use with
  | tryAcquire limiter routed refused =>
      refine LimiterSource.balanced_locks limiter (Balanced.work.append ?_)
      cases got : routed.bind (source limiter).get with
      | none => exact Balanced.nil
      | some bucket =>
          obtain ⟨chosen, _routed, same⟩ := Option.bind_eq_some_iff.mp got
          exact balanced_putAndWait (LimiterSource.belowGuard limiter same) refused
  | retry limiter routed refused =>
      refine LimiterSource.balanced_locks limiter ?_
      cases got : (source limiter).get routed with
      | none => exact Balanced.nil
      | some bucket => exact balanced_putAndWait (LimiterSource.belowGuard limiter got) refused
  | put bucket => exact GuardedBucket.balanced_rewrapped (free bucket)
  | waiting bucket path => exact GuardedBucket.balanced_waiting (free bucket) path
  | leak bucket => exact GuardedBucket.balanced_rewrapped (free bucket)
  | flush bucket => exact GuardedBucket.balanced_guarded (free bucket) Balanced.work
  | count bucket => exact GuardedBucket.balanced_guarded (free bucket) Balanced.work
  | peek bucket counts => exact GuardedBucket.balanced_peek (free bucket) counts
  | close bucket => exact GuardedBucket.balanced_close (free bucket)

end Order

/-! ### Threads -/

/-- A thread starts a use, goes on with it, or leaves it by an exception or a timeout. -/
inductive LockAction (Thread Limiter Guard : Type) where
  | enter (thread : Thread) (use : LockUse Limiter Guard)
  | advance (thread : Thread)
  | unwind (thread : Thread)

section Threads

variable {Thread Limiter Guard : Type} (source : Limiter → LimiterSource Guard)

def LockAction.move : LockAction Thread Limiter Guard → Move Thread (SharedLock Limiter Guard)
  | .enter thread use => .enter thread (use.operations source)
  | .advance thread => .advance thread
  | .unwind thread => .abandon thread

variable [DecidableEq Thread] [DecidableEq Limiter] [DecidableEq Guard]

def lockStep (threads : Workers Thread (SharedLock Limiter Guard))
    (action : LockAction Thread Limiter Guard) :
    Option (Workers Thread (SharedLock Limiter Guard)) :=
  threads.step (action.move source)

/-- No deadlock: whoever waits for a lock waits, directly or through others, for a thread
that can go on, and all uses can be gone through to their end. -/
structure DeadlockFree (threads : Workers Thread (SharedLock Limiter Guard)) : Prop where
  waits : ∀ thread, (threads.worker thread).todo ≠ [] →
    ∃ runner, Relation.ReflTransGen threads.WaitsFor thread runner ∧ threads.CanAdvance runner
  ends : ∃ (order : List Thread) (final : Workers Thread (SharedLock Limiter Guard)),
    exec (lockStep source) threads (order.map .advance) = some final ∧ Quiet final

theorem exec_advances (order : List Thread)
    (threads : Workers Thread (SharedLock Limiter Guard)) :
    exec (lockStep source) threads (order.map .advance) =
      exec Workers.step threads (order.map .advance) := by
  induction order generalizing threads with
  | nil => rfl
  | cons thread rest ih =>
      simp only [List.map_cons, exec, lockStep, LockAction.move]
      cases threads.step (.advance thread) with
      | none => rfl
      | some next => exact ih next

/-- Whatever limiters, made in whatever ways, share whatever buckets, and whatever threads use
them, in no state of any run is there a deadlock. -/
theorem lock_uses_deadlock_free (actions : List (LockAction Thread Limiter Guard)) :
    Always (lockStep source) (DeadlockFree source) Workers.start actions := by
  have safe : Always (lockStep source) (Safe (lockRank source))
      (Workers.start : Workers Thread (SharedLock Limiter Guard)) actions := by
    refine Always.of_preserved ?_ Safe.start actions
    intro threads action next safe taken
    refine safe.step ?_ taken
    cases action with
    | enter thread use => exact use.ordered
    | advance thread => trivial
    | unwind thread => trivial
  refine safe.imp (fun threads safe => ⟨fun thread busy => ?_, ?_⟩)
  · exact safe.reaches_runner lockRank_le busy
  · obtain ⟨order, final, run, quiet⟩ := safe.drains lockRank_le
    exact ⟨order, final, (exec_advances source order threads).trans run, quiet⟩

end Threads

end PyrateLimiter
