/-
The bucket factory, its leaker's registries and what closing them releases.

Buckets are registered under their identity in one of two dictionaries of the
leaker, by `schedule_leak`, and leave them by `dispose`.  Closing drops the
leaker first and asks for the registered buckets afterwards, so it never finds
one.  The worker thread and the leak task themselves are not part of this model;
of the task only its presence is kept, which registration and disposal read.
-/

import PyrateLimiter.Rate

namespace PyrateLimiter

/-- What the factory asks of a bucket object.  `leakProbe` is whether `leak(0)`
returns a coroutine. -/
structure BucketTraits (Bucket : Type) where
  ratesSet : Bucket → Bool
  isAsync : Bucket → Option Bool
  leakProbe : Bucket → Except PyError Bool
  close : Bucket → Except PyError Unit

/-- Whether a bucket is asynchronous: as it declares, else as its `leak(0)` behaves. -/
def BucketTraits.side {Bucket : Type} (traits : BucketTraits Bucket) (bucket : Bucket) :
    Except PyError Bool :=
  match traits.isAsync bucket with
  | some isAsync => .ok isAsync
  | none => traits.leakProbe bucket

structure Leaker (Bucket : Type) where
  syncBuckets : List Bucket
  asyncBuckets : List Bucket
  aioLeakTask : Bool
  deriving DecidableEq, Repr

structure BucketFactory (Bucket : Type) where
  leaker : Option (Leaker Bucket)
  deriving DecidableEq, Repr

variable {Bucket : Type}

structure Limiter (Bucket : Type) where
  bucketFactory : BucketFactory Bucket
  deriving DecidableEq, Repr

def Leaker.init : Leaker Bucket :=
  { syncBuckets := []
    asyncBuckets := []
    aioLeakTask := false }

def Leaker.leakAsync (leaker : Leaker Bucket) (loopRunning : Bool) :
    Except PyError Unit × Leaker Bucket :=
  if !leaker.asyncBuckets.isEmpty && !leaker.aioLeakTask then
    if loopRunning then (.ok (), { leaker with aioLeakTask := true })
    else (.error (.runtimeError "no running event loop"), leaker)
  else (.ok (), leaker)

namespace BucketFactory

def empty : BucketFactory Bucket := { leaker := none }

def getBuckets (factory : BucketFactory Bucket) : List Bucket :=
  match factory.leaker with
  | none => []
  | some leaker => leaker.syncBuckets ++ leaker.asyncBuckets

/-- The loop of `close`: the buckets whose `close` it calls.  What a call raises
is logged and the loop goes on. -/
def closeEach (traits : BucketTraits Bucket) : List Bucket → List Bucket
  | [] => []
  | bucket :: rest =>
      match traits.close bucket with
      | .ok () => bucket :: closeEach traits rest
      | .error _ => bucket :: closeEach traits rest

/-- `close`: the factory afterwards and the buckets it closed.  The registries
that closing the leaker clears are reachable only through the leaker. -/
def close (traits : BucketTraits Bucket) (factory : BucketFactory Bucket) :
    BucketFactory Bucket × List Bucket :=
  let factory : BucketFactory Bucket :=
    match factory.leaker with
    | some _ => { factory with leaker := none }
    | none => factory
  (factory, closeEach traits factory.getBuckets)

/-- By the time the loop asks for the buckets, the leaker is gone. -/
theorem close_eq (traits : BucketTraits Bucket) (factory : BucketFactory Bucket) :
    factory.close traits = ({ leaker := none }, []) := by
  obtain ⟨leaker⟩ := factory
  cases leaker <;> rfl

end BucketFactory

def Limiter.close (traits : BucketTraits Bucket) (limiter : Limiter Bucket) :
    Limiter Bucket × List Bucket :=
  let (bucketFactory, closed) := limiter.bucketFactory.close traits
  ({ limiter with bucketFactory := bucketFactory }, closed)

def Limiter.exit (traits : BucketTraits Bucket) (limiter : Limiter Bucket) :
    Limiter Bucket × List Bucket := limiter.close traits

variable [DecidableEq Bucket]

/-- Assignment to a dictionary that is keyed by the identity of its values. -/
def registerIn (buckets : List Bucket) (bucket : Bucket) : List Bucket :=
  if bucket ∈ buckets then buckets else buckets ++ [bucket]

theorem mem_registerIn {buckets : List Bucket} {bucket other : Bucket} :
    other ∈ registerIn buckets bucket ↔ other ∈ buckets ∨ other = bucket := by
  unfold registerIn
  split
  · rename_i present
    constructor
    · exact Or.inl
    · rintro (old | rfl)
      · exact old
      · exact present
  · rw [List.mem_append, List.mem_singleton]

namespace Leaker

def register (traits : BucketTraits Bucket) (leaker : Leaker Bucket) (bucket : Bucket) :
    Except PyError (Leaker Bucket) :=
  match traits.side bucket with
  | .error raised => .error raised
  | .ok true => .ok { leaker with asyncBuckets := registerIn leaker.asyncBuckets bucket }
  | .ok false => .ok { leaker with syncBuckets := registerIn leaker.syncBuckets bucket }

def deregister (leaker : Leaker Bucket) (bucket : Bucket) : Bool × Leaker Bucket :=
  if bucket ∈ leaker.syncBuckets then
    (true, { leaker with syncBuckets := leaker.syncBuckets.erase bucket })
  else if bucket ∈ leaker.asyncBuckets then
    let asyncBuckets := leaker.asyncBuckets.erase bucket
    (true,
      { leaker with
        asyncBuckets := asyncBuckets
        aioLeakTask := leaker.aioLeakTask && !asyncBuckets.isEmpty })
  else (false, leaker)

end Leaker

namespace BucketFactory

/-- `schedule_leak`, with the state it leaves also when it raises. -/
def scheduleLeak (traits : BucketTraits Bucket) (factory : BucketFactory Bucket)
    (newBucket : Bucket) (loopRunning : Bool) : Except PyError Unit × BucketFactory Bucket :=
  if traits.ratesSet newBucket then
    let leaker := factory.leaker.getD Leaker.init
    match leaker.register traits newBucket with
    | .error raised => (.error raised, { leaker := some leaker })
    | .ok registered =>
        let (outcome, scheduled) := registered.leakAsync loopRunning
        (outcome, { leaker := some scheduled })
  else (.error (.assertionError "Bucket rates are not set"), factory)

def dispose (factory : BucketFactory Bucket) (bucket : Bucket) : Bool × BucketFactory Bucket :=
  match factory.leaker with
  | none => (false, factory)
  | some leaker =>
      let (found, leaker) := leaker.deregister bucket
      (found, { leaker := some leaker })

end BucketFactory

/-- The calls that change the registries; `create` schedules the bucket it has
constructed. -/
inductive FactoryCall (Bucket : Type) where
  | scheduleLeak (newBucket : Bucket) (loopRunning : Bool)
  | dispose (bucket : Bucket)
  deriving DecidableEq, Repr

namespace BucketFactory

def call (traits : BucketTraits Bucket) (factory : BucketFactory Bucket) :
    FactoryCall Bucket → BucketFactory Bucket
  | .scheduleLeak newBucket loopRunning => (factory.scheduleLeak traits newBucket loopRunning).2
  | .dispose bucket => (factory.dispose bucket).2

def run (traits : BucketTraits Bucket) (calls : List (FactoryCall Bucket)) :
    BucketFactory Bucket :=
  calls.foldl (call traits) empty

/-- The leaker of a factory, or the one that its first call would make. -/
def currentLeaker (factory : BucketFactory Bucket) : Leaker Bucket :=
  factory.leaker.getD Leaker.init

theorem currentLeaker_scheduleLeak {traits : BucketTraits Bucket} {factory : BucketFactory Bucket}
    {newBucket : Bucket} {registered : Leaker Bucket} (ratesSet : traits.ratesSet newBucket = true)
    (outcome : factory.currentLeaker.register traits newBucket = .ok registered)
    (loopRunning : Bool) :
    (factory.call traits (.scheduleLeak newBucket loopRunning)).currentLeaker =
      (registered.leakAsync loopRunning).2 := by
  unfold currentLeaker at outcome
  simp only [call, scheduleLeak, ratesSet, if_true, outcome]
  rfl

theorem currentLeaker_dispose (traits : BucketTraits Bucket) (factory : BucketFactory Bucket)
    (bucket : Bucket) :
    (factory.call traits (.dispose bucket)).currentLeaker =
      (factory.currentLeaker.deregister bucket).2 := by
  obtain ⟨leaker⟩ := factory
  cases leaker <;> rfl

/-- The registered buckets were closed once each, and none is left. -/
structure Releases (registered : List Bucket) (after : BucketFactory Bucket)
    (closed : List Bucket) : Prop where
  once : ∀ bucket, bucket ∈ registered → closed.count bucket = 1
  forgets : after.getBuckets = []

end BucketFactory

/-! ### What closing releases -/

/-- Closing, as a factory or through its limiter, releases every registered
bucket exactly when no bucket is registered any more. -/
theorem close_releases_iff (traits : BucketTraits Bucket) (calls : List (FactoryCall Bucket)) :
    let factory := BucketFactory.run traits calls
    let limiter : Limiter Bucket := { bucketFactory := factory }
    (BucketFactory.Releases factory.getBuckets (factory.close traits).1
        (factory.close traits).2 ↔ factory.getBuckets = []) ∧
      (BucketFactory.Releases factory.getBuckets (limiter.exit traits).1.bucketFactory
        (limiter.exit traits).2 ↔ factory.getBuckets = []) := by
  intro factory limiter
  have exactly : BucketFactory.Releases factory.getBuckets (factory.close traits).1
      (factory.close traits).2 ↔ factory.getBuckets = [] := by
    rw [BucketFactory.close_eq]
    constructor
    · intro releases
      apply List.eq_nil_iff_forall_not_mem.mpr
      intro bucket registered
      have closed := releases.once bucket registered
      rw [List.count_nil] at closed
      cases closed
    · intro none
      refine ⟨?_, rfl⟩
      intro bucket registered
      rw [none] at registered
      cases registered
  exact ⟨exactly, exactly⟩

def syncTraits : BucketTraits Nat :=
  { ratesSet := fun _ => true
    isAsync := fun _ => some false
    leakProbe := fun _ => .ok false
    close := fun _ => .ok () }

/-- Leaving the context of a limiter never closes its one bucket. -/
theorem close_releases_nothing :
    let factory := BucketFactory.run syncTraits [.scheduleLeak 0 false]
    let limiter : Limiter Nat := { bucketFactory := factory }
    factory.getBuckets = [0] ∧ (limiter.exit syncTraits).2 = [] ∧
      ¬BucketFactory.Releases factory.getBuckets (factory.close syncTraits).1
        (factory.close syncTraits).2 := by
  refine ⟨by decide, by decide, ?_⟩
  intro releases
  exact absurd (releases.once 0 (by decide)) (by decide)

end PyrateLimiter
