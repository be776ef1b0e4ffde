/-
Processes that share the items of a multiprocess bucket.

A non-blocking acquire tries the locks of its limiter in turn, reads the clock,
puts, and gives the locks back in the opposite order.  At an async bucket the put
only makes a coroutine, which puts when it is awaited, after the locks are given
back.  The put itself takes the lock of the bucket, which the limiter may have in
front of its thread lock already.  Whether it has depends on how the limiter was
made, and that decides whether the shared list stays in order.
-/

import PyrateLimiter.Foundations.ExclusiveLock
import PyrateLimiter.Foundations.TransitionSystem
import PyrateLimiter.Limiter

namespace PyrateLimiter

open Foundations.ExclusiveLock
open Foundations.TransitionSystem
open Foundations.WindowLog

inductive LimiterLock where
  | mpLock
  | threadLock
  deriving DecidableEq, Repr

/-- The bucket that a limiter is given. -/
inductive SharedBucket where
  | multiprocess
  | asyncWrapper
  deriving DecidableEq, Repr

def SharedBucket.isAsync : SharedBucket → Bool
  | .multiprocess => false
  | .asyncWrapper => true

/-- The wrapper has no `limiter_lock` of its own and answers with the default. -/
def SharedBucket.limiterLock : SharedBucket → Option LimiterLock
  | .multiprocess => some .mpLock
  | .asyncWrapper => none

/-- How a process came by its limiter: from the constructor, or by unpickling another. -/
inductive LimiterBuild where
  | init (bucket : SharedBucket)
  | setState (pickled : LimiterBuild)
  deriving DecidableEq, Repr

namespace LimiterBuild

def bucket : LimiterBuild → SharedBucket
  | .init bucket => bucket
  | .setState pickled => pickled.bucket

/-- `self.lock`, in the order in which it is taken. -/
def lock : LimiterBuild → List LimiterLock
  | .init bucket => bucket.limiterLock.toList ++ [.threadLock]
  | .setState _ => [.threadLock]

def frontsMpLock (build : LimiterBuild) : Bool := build.lock.contains .mpLock

def isAsync (build : LimiterBuild) : Bool := build.bucket.isAsync

theorem frontsMpLock_iff {build : LimiterBuild} :
    build.frontsMpLock = true ↔ build = .init .multiprocess := by
  cases build with
  | init bucket => cases bucket <;> decide
  | setState pickled =>
      constructor
      · intro impossible
        cases impossible
      · intro impossible
        cases impossible

theorem isAsync_of_frontsMpLock {build : LimiterBuild} (fronts : build.frontsMpLock = true) :
    build.isAsync = false := by
  rw [frontsMpLock_iff.mp fronts]
  rfl

end LimiterBuild

/-- Who acquires through which limiter.  One caller makes one acquire at a time: it is a
thread, or a coroutine that a thread has not awaited yet. -/
structure Deployment (Caller Limiter : Type) where
  rates : RateList
  limiter : Caller → Limiter
  build : Limiter → LimiterBuild

namespace Deployment

variable {Caller Limiter : Type}

def frontsMpLock (deployment : Deployment Caller Limiter) (caller : Caller) : Bool :=
  (deployment.build (deployment.limiter caller)).frontsMpLock

def isAsync (deployment : Deployment Caller Limiter) (caller : Caller) : Bool :=
  (deployment.build (deployment.limiter caller)).isAsync

/-- Of two callers each one holds a lock that the other needs from its reading of the
clock to its put: the lock of the bucket, or a thread lock that both share. -/
def Serialized (deployment : Deployment Caller Limiter) : Prop :=
  ∀ caller other, caller ≠ other →
    deployment.frontsMpLock caller = true ∨
      (deployment.limiter caller = deployment.limiter other ∧ deployment.isAsync caller = false)

end Deployment

/-- Where an acquire is.  `mp` says whether it took the lock of the bucket in front of the
thread lock, and a coroutine carries the item that it is to put. -/
inductive MpPhase where
  | idle
  | locking (mp : Bool) (name : String) (weight : Int)
  | entered (mp : Bool) (name : String) (weight : Int)
  | stamped (mp : Bool) (item : RateItem)
  | leaving (mp : Bool) (coroutine : Option RateItem)
  | unlocked (coroutine : Option RateItem)
  | pending (item : RateItem)
  deriving DecidableEq, Repr

namespace MpPhase

def holdsMp : MpPhase → Bool
  | .locking mp _ _ | .entered mp _ _ | .stamped mp _ | .leaving mp _ => mp
  | .unlocked _ => true
  | .idle | .pending _ => false

def holdsThread : MpPhase → Bool
  | .entered _ _ _ | .stamped _ _ | .leaving _ _ => true
  | .idle | .locking _ _ _ | .unlocked _ | .pending _ => false

/-- The item that has its stamp and is not put yet. -/
def carried : MpPhase → Option RateItem
  | .stamped _ item | .pending item => some item
  | .leaving _ coroutine | .unlocked coroutine => coroutine
  | .idle | .locking _ _ _ | .entered _ _ _ => none

/-- The phase after the last lock: the call has returned its answer or its coroutine. -/
def returned : Option RateItem → MpPhase
  | none => .idle
  | some item => .pending item

def afterThreadLock (mp : Bool) (coroutine : Option RateItem) : MpPhase :=
  if mp then .unlocked coroutine else returned coroutine

/-- A negative weight fails an assertion and a weightless item is let through. -/
def stamp (mp : Bool) (now : Int) (name : String) (weight : Int) : MpPhase :=
  if weight ≤ 0 then .leaving mp none else .stamped mp (wrapItem now name weight)

@[simp] theorem carried_returned (coroutine : Option RateItem) :
    (returned coroutine).carried = coroutine := by
  cases coroutine <;> rfl

@[simp] theorem carried_afterThreadLock (mp : Bool) (coroutine : Option RateItem) :
    (afterThreadLock mp coroutine).carried = coroutine := by
  cases mp
  · exact carried_returned coroutine
  · rfl

@[simp] theorem holdsMp_returned (coroutine : Option RateItem) :
    (returned coroutine).holdsMp = false := by
  cases coroutine <;> rfl

@[simp] theorem holdsMp_afterThreadLock (mp : Bool) (coroutine : Option RateItem) :
    (afterThreadLock mp coroutine).holdsMp = mp := by
  cases mp
  · exact holdsMp_returned coroutine
  · rfl

@[simp] theorem holdsThread_returned (coroutine : Option RateItem) :
    (returned coroutine).holdsThread = false := by
  cases coroutine <;> rfl

@[simp] theorem holdsThread_afterThreadLock (mp : Bool) (coroutine : Option RateItem) :
    (afterThreadLock mp coroutine).holdsThread = false := by
  cases mp
  · exact holdsThread_returned coroutine
  · rfl

@[simp] theorem holdsMp_stamp (mp : Bool) (now : Int) (name : String) (weight : Int) :
    (stamp mp now name weight).holdsMp = mp := by
  unfold stamp
  split <;> rfl

theorem carried_stamp {mp : Bool} {now weight : Int} {name : String} {item : RateItem}
    (carrying : (stamp mp now name weight).carried = some item) :
    1 ≤ item.weight ∧ item.timestamp = now := by
  unfold stamp at carrying
  split at carrying
  · cases carrying
  · cases carrying
    refine ⟨?_, rfl⟩
    simp only [wrapItem]
    omega

/-- What the limiter of the caller allows a phase to be. -/
def Fits (fronts isAsync : Bool) : MpPhase → Prop
  | .idle => True
  | .locking mp _ _ | .entered mp _ _ | .stamped mp _ => mp = fronts
  | .leaving mp coroutine => mp = fronts ∧ (coroutine.isSome = true → isAsync = true)
  | .unlocked coroutine => coroutine.isSome = true → isAsync = true
  | .pending _ => isAsync = true

theorem fits_returned {fronts isAsync : Bool} {coroutine : Option RateItem}
    (async : coroutine.isSome = true → isAsync = true) :
    (returned coroutine).Fits fronts isAsync := by
  cases coroutine with
  | none => trivial
  | some item => exact async rfl

theorem fits_afterThreadLock {fronts isAsync mp : Bool} {coroutine : Option RateItem}
    (async : coroutine.isSome = true → isAsync = true) :
    (afterThreadLock mp coroutine).Fits fronts isAsync := by
  cases mp with
  | false => exact fits_returned async
  | true => exact async

theorem fits_stamp {fronts isAsync mp : Bool} (same : mp = fronts) (now : Int) (name : String)
    (weight : Int) : (stamp mp now name weight).Fits fronts isAsync := by
  unfold stamp
  split
  · exact ⟨same, fun impossible => by cases impossible⟩
  · exact same

/-- Without a coroutine an item is put before any lock is given back. -/
theorem Fits.stamped {fronts : Bool} {phase : MpPhase} {item : RateItem}
    (fits : phase.Fits fronts false) (carrying : phase.carried = some item) :
    phase.holdsMp = fronts ∧ phase.holdsThread = true := by
  cases phase with
  | stamped mp carried => exact ⟨fits, rfl⟩
  | leaving mp coroutine =>
      simp only [carried] at carrying
      rw [carrying] at fits
      exact absurd (fits.2 rfl) Bool.false_ne_true
  | unlocked coroutine =>
      simp only [carried] at carrying
      rw [carrying] at fits
      exact absurd (fits rfl) Bool.false_ne_true
  | pending carried => exact absurd fits Bool.false_ne_true
  | _ => cases carrying

end MpPhase

inductive MpAction (Caller : Type) where
  | tick (now : Int)
  | enter (caller : Caller) (name : String) (weight : Int)
  | lockThread (caller : Caller)
  | wrapItem (caller : Caller)
  | put (caller : Caller)
  | unlockThread (caller : Caller)
  | unlockMp (caller : Caller)
  | awaitPut (caller : Caller)
  | leak (now : Int)
  deriving DecidableEq, Repr

structure ProcessPool (Caller Limiter : Type) where
  clock : Int
  items : List RateItem
  mpHolder : Option Caller
  threadHolder : Limiter → Option Caller
  phase : Caller → MpPhase

namespace ProcessPool

variable {Caller Limiter : Type}

def start (clock : Int) : ProcessPool Caller Limiter :=
  { clock := clock
    items := []
    mpHolder := none
    threadHolder := fun _ => none
    phase := fun _ => .idle }

/-- The bucket object of a process.  Its failing rate is its own, and a call that does
not wait never reads it. -/
def bucket (rates : RateList) (pool : ProcessPool Caller Limiter) : InMemoryBucket :=
  { rates := rates
    items := pool.items
    failingRate := none }

def Sorted (rates : RateList) (pool : ProcessPool Caller Limiter) : Prop :=
  (pool.bucket rates).Sorted

instance (rates : RateList) (pool : ProcessPool Caller Limiter) : Decidable (pool.Sorted rates) :=
  inferInstanceAs (Decidable (pool.bucket rates).Sorted)

variable [DecidableEq Caller] [DecidableEq Limiter]

def move (pool : ProcessPool Caller Limiter) (caller : Caller) (phase : MpPhase) :
    ProcessPool Caller Limiter :=
  { pool with phase := Function.update pool.phase caller phase }

/-- `with self.mp_lock` does not wait: the lock is free, or the caller has it already. -/
def mpOpen (pool : ProcessPool Caller Limiter) (caller : Caller) : Prop :=
  pool.mpHolder = none ∨ pool.mpHolder = some caller

instance (pool : ProcessPool Caller Limiter) (caller : Caller) : Decidable (pool.mpOpen caller) :=
  inferInstanceAs (Decidable (_ ∨ _))

def record (rates : RateList) (pool : ProcessPool Caller Limiter) (item : RateItem) :
    ProcessPool Caller Limiter :=
  { pool with items := ((pool.bucket rates).put item).2.items }

/-- One atomic step of a caller, of a leaker or of the clock.  A lock that is taken ends
the acquire, which gives back the lock it took before. -/
def step (deployment : Deployment Caller Limiter) (pool : ProcessPool Caller Limiter) :
    MpAction Caller → Option (ProcessPool Caller Limiter)
  | .tick now => if pool.clock ≤ now then some { pool with clock := now } else none
  | .enter caller name weight =>
      match pool.phase caller, deployment.frontsMpLock caller, pool.mpHolder with
      | .idle, false, _ => some (pool.move caller (.locking false name weight))
      | .idle, true, none =>
          some { pool.move caller (.locking true name weight) with mpHolder := some caller }
      | .idle, true, some _ => some pool
      | _, _, _ => none
  | .lockThread caller =>
      match pool.phase caller, pool.threadHolder (deployment.limiter caller) with
      | .locking mp name weight, none =>
          some
            { pool.move caller (.entered mp name weight) with
              threadHolder :=
                Function.update pool.threadHolder (deployment.limiter caller) (some caller) }
      | .locking mp _ _, some _ =>
          some
            { pool.move caller .idle with
              mpHolder := if mp then none else pool.mpHolder }
      | _, _ => none
  | .wrapItem caller =>
      match pool.phase caller with
      | .entered mp name weight => some (pool.move caller (.stamp mp pool.clock name weight))
      | _ => none
  | .put caller =>
      match pool.phase caller with
      | .stamped mp item =>
          if deployment.isAsync caller then some (pool.move caller (.leaving mp (some item)))
          else if pool.mpOpen caller then
            some ((pool.record deployment.rates item).move caller (.leaving mp none))
          else none
      | _ => none
  | .unlockThread caller =>
      match pool.phase caller with
      | .leaving mp coroutine =>
          some
            { pool.move caller (.afterThreadLock mp coroutine) with
              threadHolder :=
                Function.update pool.threadHolder (deployment.limiter caller) none }
      | _ => none
  | .unlockMp caller =>
      match pool.phase caller with
      | .unlocked coroutine =>
          some { pool.move caller (.returned coroutine) with mpHolder := none }
      | _ => none
  | .awaitPut caller =>
      match pool.phase caller with
      | .pending item =>
          if pool.mpOpen caller then
            some ((pool.record deployment.rates item).move caller .idle)
          else none
      | _ => none
  | .leak now =>
      if pool.mpHolder = none ∧ now ≤ pool.clock then
        some { pool with items := ((pool.bucket deployment.rates).leak now).2.items }
      else none

/-! ### What a step can do -/

inductive Taken (deployment : Deployment Caller Limiter) (before : ProcessPool Caller Limiter) :
    MpAction Caller → ProcessPool Caller Limiter → Prop
  | tick (now : Int) (later : before.clock ≤ now) :
      Taken deployment before (.tick now) { before with clock := now }
  | enter (caller : Caller) (name : String) (weight : Int)
      (plain : deployment.frontsMpLock caller = false) :
      Taken deployment before (.enter caller name weight)
        (before.move caller (.locking false name weight))
  | lockMp (caller : Caller) (name : String) (weight : Int)
      (fronts : deployment.frontsMpLock caller = true) (free : before.mpHolder = none) :
      Taken deployment before (.enter caller name weight)
        { before.move caller (.locking true name weight) with mpHolder := some caller }
  | failMp (caller : Caller) (name : String) (weight : Int) :
      Taken deployment before (.enter caller name weight) before
  | lockThread (caller : Caller) (mp : Bool) (name : String) (weight : Int)
      (current : before.phase caller = .locking mp name weight)
      (free : before.threadHolder (deployment.limiter caller) = none) :
      Taken deployment before (.lockThread caller)
        { before.move caller (.entered mp name weight) with
          threadHolder :=
            Function.update before.threadHolder (deployment.limiter caller) (some caller) }
  | failThread (caller : Caller) (mp : Bool) (name : String) (weight : Int)
      (current : before.phase caller = .locking mp name weight) :
      Taken deployment before (.lockThread caller)
        { before.move caller .idle with mpHolder := if mp then none else before.mpHolder }
  | wrapItem (caller : Caller) (mp : Bool) (name : String) (weight : Int)
      (current : before.phase caller = .entered mp name weight) :
      Taken deployment before (.wrapItem caller)
        (before.move caller (.stamp mp before.clock name weight))
  | makeCoroutine (caller : Caller) (mp : Bool) (item : RateItem)
      (current : before.phase caller = .stamped mp item)
      (async : deployment.isAsync caller = true) :
      Taken deployment before (.put caller) (before.move caller (.leaving mp (some item)))
  | put (caller : Caller) (mp : Bool) (item : RateItem)
      (current : before.phase caller = .stamped mp item) (opened : before.mpOpen caller) :
      Taken deployment before (.put caller)
        ((before.record deployment.rates item).move caller (.leaving mp none))
  | unlockThread (caller : Caller) (mp : Bool) (coroutine : Option RateItem)
      (current : before.phase caller = .leaving mp coroutine) :
      Taken deployment before (.unlockThread caller)
        { before.move caller (.afterThreadLock mp coroutine) with
          threadHolder :=
            Function.update before.threadHolder (deployment.limiter caller) none }
  | unlockMp (caller : Caller) (coroutine : Option RateItem)
      (current : before.phase caller = .unlocked coroutine) :
      Taken deployment before (.unlockMp caller)
        { before.move caller (.returned coroutine) with mpHolder := none }
  | awaitPut (caller : Caller) (item : RateItem)
      (current : before.phase caller = .pending item) (opened : before.mpOpen caller) :
      Taken deployment before (.awaitPut caller)
        ((before.record deployment.rates item).move caller .idle)
  | leak (now : Int) :
      Taken deployment before (.leak now)
        { before with items := ((before.bucket deployment.rates).leak now).2.items }

theorem step_cases {deployment : Deployment Caller Limiter}
    {before after : ProcessPool Caller Limiter} {action : MpAction Caller}
    (taken : before.step deployment action = some after) : Taken deployment before action after := by
  cases action with
  | tick now =>
      simp only [step] at taken
      split at taken
      · rename_i later
        cases taken
        exact .tick now later
      · cases taken
  | enter caller name weight =>
      simp only [step] at taken
      split at taken
      · rename_i plain
        cases taken
        exact .enter caller name weight plain
      · rename_i fronts free
        cases taken
        exact .lockMp caller name weight fronts free
      · cases taken
        exact .failMp caller name weight
      · cases taken
  | lockThread caller =>
      simp only [step] at taken
      split at taken
      · rename_i mp name weight current free
        cases taken
        exact .lockThread caller mp name weight current free
      · rename_i mp name weight holder current held
        cases taken
        exact .failThread caller mp name weight current
      · cases taken
  | wrapItem caller =>
      simp only [step] at taken
      split at taken
      · rename_i mp name weight current
        cases taken
        exact .wrapItem caller mp name weight current
      · cases taken
  | put caller =>
      simp only [step] at taken
      split at taken
      · rename_i mp item current
        split at taken
        · rename_i async
          cases taken
          exact .makeCoroutine caller mp item current async
        · split at taken
          · rename_i opened
            cases taken
            exact .put caller mp item current opened
          · cases taken
      · cases taken
  | unlockThread caller =>
      simp only [step] at taken
      split at taken
      · rename_i mp coroutine current
        cases taken
        exact .unlockThread caller mp coroutine current
      · cases taken
  | unlockMp caller =>
      simp only [step] at taken
      split at taken
      · rename_i coroutine current
        cases taken
        exact .unlockMp caller coroutine current
      · cases taken
  | awaitPut caller =>
      simp only [step] at taken
      split at taken
      · rename_i item current
        split at taken
        · rename_i opened
          cases taken
          exact .awaitPut caller item current opened
        · cases taken
      · cases taken
  | leak now =>
      simp only [step] at taken
      split at taken
      · cases taken
        exact .leak now
      · cases taken

end ProcessPool

/-! ### Why the list stays sorted -/

namespace ProcessPool

variable {Caller Limiter : Type}

/-- What is known of an item from its stamp to its put. -/
structure Carries (deployment : Deployment Caller Limiter) (clock : Int) (log : List Int)
    (item : RateItem) : Prop where
  positive : 1 ≤ item.weight
  past : item.timestamp ≤ clock
  newest : deployment.Serialized → ∀ old, old ∈ log → old ≤ item.timestamp

structure InOrder (deployment : Deployment Caller Limiter) (pool : ProcessPool Caller Limiter) :
    Prop where
  mp : Exclusive MpPhase.holdsMp pool.phase pool.mpHolder
  thread : EachExclusive deployment.limiter MpPhase.holdsThread pool.phase pool.threadHolder
  fits : ∀ caller,
    (pool.phase caller).Fits (deployment.frontsMpLock caller) (deployment.isAsync caller)
  sorted : pool.Sorted deployment.rates
  past : ∀ stamp, stamp ∈ (pool.bucket deployment.rates).stamps → stamp ≤ pool.clock
  carries : ∀ caller item, (pool.phase caller).carried = some item →
    Carries deployment pool.clock (pool.bucket deployment.rates).stamps item

namespace InOrder

variable {deployment : Deployment Caller Limiter} {before after : ProcessPool Caller Limiter}

theorem start (deployment : Deployment Caller Limiter) (clock : Int) :
    InOrder deployment (ProcessPool.start clock) where
  mp := fun _caller impossible => by cases impossible
  thread := fun _caller impossible => by cases impossible
  fits := fun _caller => trivial
  sorted := .nil
  past := fun _stamp impossible => by cases impossible
  carries := fun _caller _item impossible => by cases impossible

variable [DecidableEq Caller]

/-- While a caller can put, no serialized caller besides it has an item to put. -/
theorem alone (inOrder : InOrder deployment before) (serialized : deployment.Serialized)
    {caller other : Caller} {item coming : RateItem}
    (current : (before.phase caller).carried = some item) (opened : before.mpOpen caller)
    (carrying : (before.phase other).carried = some coming) : other = caller := by
  by_contra different
  have otherFits := inOrder.fits other
  rcases serialized other caller different with fronts | ⟨shared, sync⟩
  · have sync : deployment.isAsync other = false :=
      LimiterBuild.isAsync_of_frontsMpLock fronts
    rw [fronts, sync] at otherFits
    have held := inOrder.mp other (otherFits.stamped carrying).1
    rcases opened with free | own
    · rw [held] at free
      cases free
    · rw [held] at own
      exact different (Option.some.inj own)
  · have callerFits := inOrder.fits caller
    have sameSync : deployment.isAsync caller = false := by
      unfold Deployment.isAsync at sync ⊢
      rw [← shared]
      exact sync
    rw [sync] at otherFits
    rw [sameSync] at callerFits
    exact different (inOrder.thread.same shared (otherFits.stamped carrying).2
      (callerFits.stamped current).2)

theorem moved (inOrder : InOrder deployment before) {caller : Caller} {next : MpPhase}
    (sameClock : after.clock = before.clock) (sameItems : after.items = before.items)
    (updated : after.phase = Function.update before.phase caller next)
    (mp : Exclusive MpPhase.holdsMp after.phase after.mpHolder)
    (thread : EachExclusive deployment.limiter MpPhase.holdsThread after.phase after.threadHolder)
    (fits : next.Fits (deployment.frontsMpLock caller) (deployment.isAsync caller))
    (carries : ∀ item, next.carried = some item →
      Carries deployment before.clock (before.bucket deployment.rates).stamps item) :
    InOrder deployment after := by
  have sameBucket : after.bucket deployment.rates = before.bucket deployment.rates := by
    unfold bucket
    rw [sameItems]
  exact
    { mp := mp
      thread := thread
      fits := by
        rw [updated, Function.forall_update_iff before.phase (fun other phase =>
          phase.Fits (deployment.frontsMpLock other) (deployment.isAsync other))]
        exact ⟨fits, fun other _different => inOrder.fits other⟩
      sorted := by
        unfold Sorted
        rw [sameBucket]
        exact inOrder.sorted
      past := by
        rw [sameBucket, sameClock]
        exact inOrder.past
      carries := by
        rw [updated, sameBucket, sameClock, Function.forall_update_iff before.phase
          (fun _other phase => ∀ item, phase.carried = some item →
            Carries deployment before.clock (before.bucket deployment.rates).stamps item)]
        exact ⟨carries, fun other _different => inOrder.carries other⟩ }

theorem recorded (inOrder : InOrder deployment before)
    (safe : deployment.rates.first.limit = 1 ∨ deployment.Serialized)
    {caller : Caller} {item : RateItem} {next : MpPhase}
    (current : (before.phase caller).carried = some item) (opened : before.mpOpen caller)
    (done : next.carried = none)
    (mp : next.holdsMp = true → (before.phase caller).holdsMp = true)
    (thread : next.holdsThread = true → (before.phase caller).holdsThread = true)
    (fits : next.Fits (deployment.frontsMpLock caller) (deployment.isAsync caller)) :
    InOrder deployment ((before.record deployment.rates item).move caller next) := by
  have known := inOrder.carries caller item current
  obtain ⟨added, grown, own⟩ := (before.bucket deployment.rates).put_stamps item
  exact
    { mp := inOrder.mp.move (fun inside => inOrder.mp caller (mp inside))
      thread := inOrder.thread.move (fun inside => inOrder.thread caller (thread inside))
      fits := by
        change ∀ other, (Function.update before.phase caller next other).Fits
          (deployment.frontsMpLock other) (deployment.isAsync other)
        rw [Function.forall_update_iff before.phase (fun other phase =>
          phase.Fits (deployment.frontsMpLock other) (deployment.isAsync other))]
        exact ⟨fits, fun other _different => inOrder.fits other⟩
      sorted := inOrder.sorted.put known.positive (safe.imp_right known.newest)
      past := by
        change ∀ stamp, stamp ∈ ((before.bucket deployment.rates).put item).2.stamps →
          stamp ≤ before.clock
        rw [grown]
        intro stamp member
        rcases List.mem_append.mp member with old | new
        · exact inOrder.past stamp old
        · rw [own stamp new]
          exact known.past
      carries := by
        change ∀ other coming, (Function.update before.phase caller next other).carried =
          some coming → Carries deployment before.clock
            ((before.bucket deployment.rates).put item).2.stamps coming
        rw [Function.forall_update_iff before.phase (fun _other phase => ∀ coming,
          phase.carried = some coming → Carries deployment before.clock
            ((before.bucket deployment.rates).put item).2.stamps coming)]
        refine ⟨?_, ?_⟩
        · intro coming impossible
          rw [done] at impossible
          cases impossible
        · intro other different coming carrying
          have theirs := inOrder.carries other coming carrying
          exact
            { positive := theirs.positive
              past := theirs.past
              newest := fun serialized =>
                absurd (inOrder.alone serialized current opened carrying) different } }

variable [DecidableEq Limiter]

theorem step (inOrder : InOrder deployment before)
    (safe : deployment.rates.first.limit = 1 ∨ deployment.Serialized) {action : MpAction Caller}
    (taken : before.step deployment action = some after) : InOrder deployment after := by
  cases step_cases taken with
  | tick now later =>
      exact
        { inOrder with
          past := fun stamp member => Int.le_trans (inOrder.past stamp member) later
          carries := fun caller item carrying =>
            { inOrder.carries caller item carrying with
              past := Int.le_trans (inOrder.carries caller item carrying).past later } }
  | enter caller name weight plain =>
      exact inOrder.moved rfl rfl rfl (inOrder.mp.move (fun impossible => by cases impossible))
        (inOrder.thread.move (fun impossible => by cases impossible)) plain.symm
        (fun _item impossible => by cases impossible)
  | lockMp caller name weight fronts free =>
      exact inOrder.moved rfl rfl rfl (inOrder.mp.acquire free caller _)
        (inOrder.thread.move (fun impossible => by cases impossible)) fronts.symm
        (fun _item impossible => by cases impossible)
  | failMp caller name weight => exact inOrder
  | lockThread caller mp name weight current free =>
      have fits := inOrder.fits caller
      have held := inOrder.mp caller
      rw [current] at fits held
      exact inOrder.moved rfl rfl rfl (inOrder.mp.move held) (inOrder.thread.acquire free _) fits
        (fun _item impossible => by cases impossible)
  | failThread caller mp name weight current =>
      have released : Exclusive MpPhase.holdsMp (Function.update before.phase caller .idle)
          (if mp then none else before.mpHolder) := by
        cases mp with
        | false => exact inOrder.mp.move (fun impossible => by cases impossible)
        | true => exact inOrder.mp.release (by rw [current]; rfl) rfl
      exact inOrder.moved rfl rfl rfl released
        (inOrder.thread.move (fun impossible => by cases impossible)) trivial
        (fun _item impossible => by cases impossible)
  | wrapItem caller mp name weight current =>
      have fits := inOrder.fits caller
      have held := inOrder.mp caller
      rw [current] at fits held
      refine inOrder.moved rfl rfl rfl (inOrder.mp.move ?_) (inOrder.thread.move ?_)
        (MpPhase.fits_stamp fits before.clock name weight) ?_
      · rw [MpPhase.holdsMp_stamp]
        exact held
      · intro _inside
        exact inOrder.thread caller (by rw [current]; rfl)
      · intro item carrying
        obtain ⟨positive, stamped⟩ := MpPhase.carried_stamp carrying
        exact
          { positive := positive
            past := Int.le_of_eq stamped
            newest := fun _serialized old member => by
              rw [stamped]
              exact inOrder.past old member }
  | makeCoroutine caller mp item current async =>
      have fits := inOrder.fits caller
      have held := inOrder.mp caller
      have known := inOrder.carries caller item (by rw [current]; rfl)
      rw [current] at fits held
      refine inOrder.moved rfl rfl rfl (inOrder.mp.move held) (inOrder.thread.move ?_)
        ⟨fits, fun _made => async⟩ ?_
      · intro _inside
        exact inOrder.thread caller (by rw [current]; rfl)
      · intro coming carrying
        cases carrying
        exact known
  | put caller mp item current opened =>
      have fits := inOrder.fits caller
      rw [current] at fits
      exact inOrder.recorded safe (by rw [current]; rfl) opened rfl
        (fun inside => by rw [current]; exact inside) (fun _inside => by rw [current]; rfl)
        ⟨fits, fun impossible => by cases impossible⟩
  | unlockThread caller mp coroutine current =>
      have fits := inOrder.fits caller
      have held := inOrder.mp caller
      have known := inOrder.carries caller
      rw [current] at fits held known
      refine inOrder.moved rfl rfl rfl (inOrder.mp.move ?_)
        (inOrder.thread.release (by rw [current]; rfl) (MpPhase.holdsThread_afterThreadLock mp _))
        (MpPhase.fits_afterThreadLock fits.2) ?_
      · rw [MpPhase.holdsMp_afterThreadLock]
        exact held
      · intro item carrying
        rw [MpPhase.carried_afterThreadLock] at carrying
        exact known item carrying
  | unlockMp caller coroutine current =>
      have fits := inOrder.fits caller
      have known := inOrder.carries caller
      rw [current] at fits known
      refine inOrder.moved rfl rfl rfl
        (inOrder.mp.release (by rw [current]; rfl) (MpPhase.holdsMp_returned coroutine))
        (inOrder.thread.move ?_) (MpPhase.fits_returned fits) ?_
      · rw [MpPhase.holdsThread_returned]
        intro impossible
        cases impossible
      · intro item carrying
        rw [MpPhase.carried_returned] at carrying
        exact known item carrying
  | awaitPut caller item current opened =>
      exact inOrder.recorded safe (by rw [current]; rfl) opened rfl
        (fun impossible => by cases impossible) (fun impossible => by cases impossible) trivial
  | leak now =>
      obtain ⟨forgotten, split, _expired⟩ := InMemoryBucket.leak_splits inOrder.sorted now
      have kept : ∀ stamp, stamp ∈ ((before.bucket deployment.rates).leak now).2.stamps →
          stamp ∈ (before.bucket deployment.rates).stamps := by
        intro stamp member
        rw [split]
        exact List.mem_append_right forgotten member
      have sorted := inOrder.sorted
      unfold Sorted InMemoryBucket.Sorted at sorted
      rw [split] at sorted
      exact
        { inOrder with
          sorted := (List.pairwise_append.mp sorted).2.1
          past := fun stamp member => inOrder.past stamp (kept stamp member)
          carries := fun caller item carrying =>
            { inOrder.carries caller item carrying with
              newest := fun serialized old member =>
                (inOrder.carries caller item carrying).newest serialized old (kept old member) } }

end InOrder

end ProcessPool

/-! ### How the order is lost -/

namespace ProcessPool

variable {Caller Limiter : Type}

theorem items_record {rates : RateList} {pool : ProcessPool Caller Limiter} {item : RateItem}
    (sorted : pool.Sorted rates) (positive : 1 ≤ item.weight)
    (fits : (pool.items.length : Int) + item.weight ≤ rates.first.limit) :
    (pool.record rates item).items = pool.items ++ List.replicate item.weight.toNat item :=
  InMemoryBucket.put_of_fits sorted positive fits

variable [DecidableEq Caller] [DecidableEq Limiter]

/-- An acquire that nothing comes in between. -/
def acquire (deployment : Deployment Caller Limiter) (caller : Caller) : List (MpAction Caller) :=
  [.enter caller "request" 1, .lockThread caller, .wrapItem caller, .put caller,
    .unlockThread caller] ++
  (if deployment.frontsMpLock caller then [.unlockMp caller] else []) ++
  if deployment.isAsync caller then [.awaitPut caller] else []

/-- The part of an acquire, without the lock of the bucket, up to where another caller can
come in between: the item has its stamp, and before a coroutine the lock is given back. -/
def stampOnly (deployment : Deployment Caller Limiter) (caller : Caller) :
    List (MpAction Caller) :=
  [.enter caller "request" 1, .lockThread caller, .wrapItem caller] ++
  if deployment.isAsync caller then [.put caller, .unlockThread caller] else []

def putOnly (deployment : Deployment Caller Limiter) (caller : Caller) : MpAction Caller :=
  if deployment.isAsync caller then .awaitPut caller else .put caller

/-- The other caller acquires between the stamp of the caller and its put. -/
def overtake (deployment : Deployment Caller Limiter) (caller other : Caller) :
    List (MpAction Caller) :=
  stampOnly deployment caller ++
    (.tick 1 :: acquire deployment other ++ [putOnly deployment caller])

def overtakable (deployment : Deployment Caller Limiter) (caller : Caller) (item : RateItem) :
    MpPhase :=
  if deployment.isAsync caller then .pending item else .stamped false item

/-- The pool after `stampOnly`. -/
def stampedPool (deployment : Deployment Caller Limiter) (caller : Caller) (item : RateItem) :
    ProcessPool Caller Limiter :=
  { clock := item.timestamp
    items := []
    mpHolder := none
    threadHolder :=
      if deployment.isAsync caller then fun _ => none
      else Function.update (fun _ => none) (deployment.limiter caller) (some caller)
    phase := Function.update (fun _ => .idle) caller (overtakable deployment caller item) }

theorem exec_acquire (deployment : Deployment Caller Limiter) {pool : ProcessPool Caller Limiter}
    {caller : Caller} (idle : pool.phase caller = .idle) (mpFree : pool.mpHolder = none)
    (threadFree : pool.threadHolder (deployment.limiter caller) = none) :
    exec (step deployment) pool (acquire deployment caller) =
      some (pool.record deployment.rates (wrapItem pool.clock "request" 1)) := by
  obtain ⟨clock, items, mpHolder, threadHolder, phase⟩ := pool
  simp only at idle mpFree threadFree
  subst mpFree
  have samePhase : Function.update phase caller .idle = phase := by
    rw [← idle, Function.update_eq_self]
  have sameThread : Function.update threadHolder (deployment.limiter caller) none =
      threadHolder := by
    rw [← threadFree, Function.update_eq_self]
  cases fronts : deployment.frontsMpLock caller with
  | true =>
      have sync : deployment.isAsync caller = false :=
        LimiterBuild.isAsync_of_frontsMpLock fronts
      simp [acquire, fronts, sync, exec, step, move, record, bucket, mpOpen, idle, threadFree,
        MpPhase.stamp, MpPhase.afterThreadLock, MpPhase.returned, samePhase, sameThread]
  | false =>
      cases async : deployment.isAsync caller <;>
        simp [acquire, fronts, async, exec, step, move, record, bucket, mpOpen, idle, threadFree,
          MpPhase.stamp, MpPhase.afterThreadLock, MpPhase.returned, samePhase, sameThread]

theorem exec_stampOnly {deployment : Deployment Caller Limiter} {caller : Caller}
    (plain : deployment.frontsMpLock caller = false) :
    exec (step deployment) (start 0) (stampOnly deployment caller) =
      some (stampedPool deployment caller (wrapItem 0 "request" 1)) := by
  cases async : deployment.isAsync caller with
  | true =>
      simp [stampOnly, stampedPool, overtakable, exec, step, start, move, plain, async,
        MpPhase.stamp, MpPhase.afterThreadLock, MpPhase.returned, wrapItem]
  | false =>
      simp [stampOnly, stampedPool, overtakable, exec, step, start, move, plain, async,
        MpPhase.stamp, wrapItem]

theorem stampedPool_free {deployment : Deployment Caller Limiter} {caller other : Caller}
    (apart : deployment.limiter caller = deployment.limiter other →
      deployment.isAsync caller = true) (item : RateItem) :
    (stampedPool deployment caller item).threadHolder (deployment.limiter other) = none := by
  simp only [stampedPool]
  split
  · rfl
  · rename_i sync
    exact Function.update_of_ne (fun same => sync (apart same.symm)) _ _

theorem items_putOnly {deployment : Deployment Caller Limiter} {caller : Caller} {item : RateItem}
    {pool : ProcessPool Caller Limiter} (opened : pool.mpOpen caller)
    (current : pool.phase caller = overtakable deployment caller item) :
    (exec (step deployment) pool [putOnly deployment caller]).map ProcessPool.items =
      some (pool.record deployment.rates item).items := by
  unfold overtakable at current
  cases async : deployment.isAsync caller with
  | true =>
      rw [async, if_pos rfl] at current
      simp only [exec, putOnly, async, if_true, step, current, if_pos opened]
      rfl
  | false =>
      rw [async, if_neg Bool.false_ne_true] at current
      simp only [exec, putOnly, async, Bool.false_eq_true, if_false, step, current,
        if_pos opened]
      rfl

theorem items_overtake {deployment : Deployment Caller Limiter} {caller other : Caller}
    (different : caller ≠ other) (plain : deployment.frontsMpLock caller = false)
    (apart : deployment.limiter caller = deployment.limiter other →
      deployment.isAsync caller = true) (fits : 2 ≤ deployment.rates.first.limit) :
    (exec (step deployment) (start 0) (overtake deployment caller other)).map
        ProcessPool.items =
      some [wrapItem 1 "request" 1, wrapItem 0 "request" 1] := by
  let early := wrapItem 0 "request" 1
  let late := wrapItem 1 "request" 1
  let pool : ProcessPool Caller Limiter :=
    { stampedPool deployment caller early with clock := 1 }
  have idle : pool.phase other = .idle := by
    simp only [pool, stampedPool, Function.update_of_ne different.symm]
  have acquired := exec_acquire deployment idle rfl (stampedPool_free apart early)
  have first : (pool.record deployment.rates late).items = [late] := by
    have empty : pool.Sorted deployment.rates := .nil
    apply items_record empty (Int.le_refl 1)
    change (0 : Int) + 1 ≤ deployment.rates.first.limit
    omega
  have second : ((pool.record deployment.rates late).record deployment.rates early).items =
      [late, early] := by
    have single : (pool.record deployment.rates late).Sorted deployment.rates := by
      unfold Sorted InMemoryBucket.Sorted InMemoryBucket.stamps bucket
      rw [first]
      exact List.pairwise_singleton _ _
    have space : ((pool.record deployment.rates late).items.length : Int) + early.weight ≤
        deployment.rates.first.limit := by
      rw [first]
      exact fits
    rw [items_record single (Int.le_refl 1) space, first]
    rfl
  have current : (pool.record deployment.rates late).phase caller =
      overtakable deployment caller early := by
    simp only [record, pool, stampedPool, Function.update_self]
  rw [overtake, exec_append, exec_stampOnly plain]
  change (exec (step deployment) pool
    (acquire deployment other ++ [putOnly deployment caller])).map ProcessPool.items = _
  rw [exec_append, acquired, ← second]
  exact items_putOnly (Or.inl rfl) current

end ProcessPool

/-- The shared list stays sorted in every run exactly where the limiters keep two callers
apart, or where no window ever holds a second unit. -/
theorem shared_items_stay_sorted_iff {Caller Limiter : Type} [DecidableEq Caller]
    [DecidableEq Limiter] (deployment : Deployment Caller Limiter) :
    (∀ clock actions, Always (ProcessPool.step deployment)
      (ProcessPool.Sorted deployment.rates) (ProcessPool.start clock) actions) ↔
      deployment.rates.first.limit = 1 ∨ deployment.Serialized := by
  constructor
  · intro always
    refine or_iff_not_imp_left.mpr ?_
    intro several caller other different
    apply Classical.byContradiction
    intro exposed
    obtain ⟨plain, shared⟩ := not_or.mp exposed
    have positive := deployment.rates.first.limit_pos
    have ran := ProcessPool.items_overtake different (Bool.eq_false_of_not_eq_true plain)
      (fun same => Bool.eq_true_of_not_eq_false (fun sync => shared ⟨same, sync⟩)) (by omega)
    obtain ⟨final, run, items⟩ := Option.map_eq_some_iff.mp ran
    have everywhere := always 0 (ProcessPool.overtake deployment caller other)
    have sorted := everywhere.reached run
    unfold ProcessPool.Sorted ProcessPool.bucket InMemoryBucket.Sorted InMemoryBucket.stamps
      at sorted
    rw [items] at sorted
    have ordered : (1 : Int) ≤ 0 := (List.pairwise_cons.mp sorted).1 0 List.mem_cons_self
    omega
  · intro safe clock actions
    exact (Always.of_preserved
      (fun _before _action _after inOrder taken => inOrder.step safe taken)
      (ProcessPool.InOrder.start deployment clock) actions).imp (fun _pool inOrder => inOrder.sorted)

/-- Two processes that were each sent a pickled limiter. -/
def pickledLimiters : Deployment Bool Bool :=
  { rates := threeRequestsIn100
    limiter := id
    build := fun _ => .setState (.init .multiprocess) }

theorem pickledLimiters_lose_order :
    (exec (ProcessPool.step pickledLimiters) (ProcessPool.start 0)
        (ProcessPool.overtake pickledLimiters false true)).map
          (fun final => final.items.map RateItem.timestamp) = some [1, 0] ∧
      ¬Always (ProcessPool.step pickledLimiters) (ProcessPool.Sorted pickledLimiters.rates)
        (ProcessPool.start 0) (ProcessPool.overtake pickledLimiters false true) := by
  have ran : (exec (ProcessPool.step pickledLimiters) (ProcessPool.start 0)
      (ProcessPool.overtake pickledLimiters false true)).map
        (fun final => final.items.map RateItem.timestamp) = some [1, 0] := by decide
  refine ⟨ran, ?_⟩
  obtain ⟨final, run, stamps⟩ := Option.map_eq_some_iff.mp ran
  intro always
  have sorted := always.reached run
  unfold ProcessPool.Sorted InMemoryBucket.Sorted InMemoryBucket.stamps ProcessPool.bucket
    at sorted
  simp only at sorted
  rw [stamps] at sorted
  revert sorted
  decide

end PyrateLimiter
