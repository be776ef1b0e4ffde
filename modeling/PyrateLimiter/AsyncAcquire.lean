/-
The acquire path over a bucket whose `put` answers with a coroutine.

A coroutine does nothing until it is awaited, and `_handle_async_result` looks
at the deadline before it awaits.  So over such a bucket even the first put
comes after a test of the deadline, while over a synchronous bucket it comes
before every one of them.
-/

import Mathlib.Tactic.Linarith
import PyrateLimiter.Limiter
import PyrateLimiter.RedisBucket

namespace PyrateLimiter

open Foundations.SortedSets

/-! ### Coroutines -/

abbrev Coroutine (Bucket : Type) := World Bucket → Option (World Bucket × Verdict)

section Coroutines

variable {Bucket : Type} (ops : BucketOps Bucket) (bufferMs : Nat) (deadline : Option ℚ)

/-- `_handle_async_result` on a coroutine.  A deadline that has passed closes it
unstarted; a sleep inside it never ends later than the deadline. -/
def awaitResult (coroutine : Coroutine Bucket) : Coroutine Bucket := fun world =>
  if ∃ limit ∈ deadline, limit - world.monotonic ≤ 0 then
    some (world, .raised (.timeoutError ""))
  else coroutine world

def putCoroutine (item : RateItem) : Coroutine Bucket := fun world =>
  let (acquire, world) := world.put ops item
  some (world, .returned acquire)

/-- The coroutine `_handle_async` of `_delay_waiter`, on delays that are
coroutines themselves: each is awaited in the turn that sleeps for it. -/
def delayCoroutine : Nat → RateItem → Coroutine Bucket
  | 0, _ => fun _ => none
  | turns + 1, item => fun world =>
      if ∃ limit ∈ deadline, (limit - world.monotonic) * 1000 ≤ 0 then
        some (world, .raised (.timeoutError ""))
      else
        match ops.waiting world.bucket item with
        | .error raised => some (world, .raised raised)
        | .ok delay =>
            match delayToSleepMs bufferMs delay with
            | none => some (world, .returned false)
            | some sleepMs =>
                match planDelayStep deadline world.monotonic sleepMs with
                | .error raised => some (world, .raised raised)
                | .ok (seconds, timedOut) =>
                    let world := world.sleep seconds
                    if timedOut then some (world, .raised (.timeoutError ""))
                    else
                      let item := item.delay sleepMs
                      let (acquire, world) := world.put ops item
                      if acquire then some (world, .returned true)
                      else delayCoroutine turns item world

/-- `_wait_after_async_put`. -/
def waitAfterAsyncPut (turns : Nat) (item : RateItem) (blocking : Bool) : Coroutine Bucket :=
  fun world => do
    match ← awaitResult deadline (putCoroutine ops item) world with
    | (world, .raised raised) => some (world, .raised raised)
    | (world, .returned true) => some (world, .returned true)
    | (world, .returned false) =>
        match ops.failingRate world.bucket with
        | none => some (world, .raised (.assertionError ""))
        | some _ =>
            if !blocking then some (world, .returned false)
            else awaitResult deadline (delayCoroutine ops bufferMs deadline turns item) world

end Coroutines

/-! ### The two entry points -/

section Awaited

variable {Bucket : Type} (ops : BucketOps Bucket) (bufferMs turns : Nat) (world : World Bucket)
  (now : Int) (name : String) (weight : Int) (blocking : Bool) (timeout : ℚ)

/-- Awaiting what `_try_acquire` hands back, with the limiter lock free. -/
def tryAcquireInnerAwaited : Option (World Bucket × Verdict) :=
  let deadline := if timeout = -1 then none else some (world.monotonic + timeout)
  if weight < 0 then
    some (world, .raised (.assertionError "item's weight must be >= 0"))
  else if weight = 0 then some (world, .returned true)
  else
    awaitResult deadline
      (waitAfterAsyncPut ops bufferMs deadline turns (wrapItem now name weight) blocking) world

def tryAcquireAwaited : Option (World Bucket × Verdict) :=
  match checkArguments blocking timeout with
  | some raised => some (world, .raised raised)
  | none => do
      let (world, verdict) ←
        tryAcquireInnerAwaited ops bufferMs turns world now name weight blocking timeout
      pure (world, verdict.catchTimeout)

/-- `try_acquire_async`, with the event loop's lock free.  The `wait_for` around a
positive timeout ends no earlier than the deadline of the call. -/
def tryAcquireAsyncAwaited : Option (World Bucket × Verdict) :=
  if weight = 0 then some (world, .returned true)
  else tryAcquireAwaited ops bufferMs turns world now name weight blocking timeout

end Awaited

inductive BucketKind where
  | sync
  | async
  deriving DecidableEq, Repr

inductive EntryPoint where
  | tryAcquire
  | tryAcquireAsync
  deriving DecidableEq, Repr

/-- A call of either entry point, awaited if it has to be, on a limiter over a
bucket of either kind. -/
def EntryPoint.acquire {Bucket : Type} (kind : BucketKind) (ops : BucketOps Bucket)
    (bufferMs turns : Nat) (world : World Bucket) (now : Int) (name : String) (weight : Int)
    (blocking : Bool) (timeout : ℚ) : EntryPoint → Option (World Bucket × Verdict)
  | .tryAcquire =>
      match kind with
      | .sync => PyrateLimiter.tryAcquire ops bufferMs turns world now name weight blocking timeout
      | .async => tryAcquireAwaited ops bufferMs turns world now name weight blocking timeout
  | .tryAcquireAsync =>
      match kind with
      | .sync =>
          PyrateLimiter.tryAcquireAsync ops bufferMs turns world now name weight blocking timeout
      | .async => tryAcquireAsyncAwaited ops bufferMs turns world now name weight blocking timeout

/-! ### The Redis bucket behind a limiter -/

/-- A Redis bucket, the set its server holds under its key, and the ids that
`id_generator` gives out one after the other. -/
structure RedisStore where
  bucket : RedisBucket
  set : RedisSet
  ids : Nat → String
  drawn : Nat

namespace RedisStore

theorem put_isSome (store : RedisStore) (item : RateItem) :
    (store.bucket.put store.set item (store.ids store.drawn)).isSome = true := by
  rw [RedisBucket.put_eq]
  rfl

def put (store : RedisStore) (item : RateItem) : Bool × RedisStore :=
  let (acquired, bucket, set) :=
    (store.bucket.put store.set item (store.ids store.drawn)).get (store.put_isSome item)
  (acquired, { store with bucket := bucket, set := set, drawn := store.drawn + 1 })

def waiting (store : RedisStore) (item : RateItem) : Except PyError Int :=
  PyrateLimiter.waiting store.bucket.failingRate (store.bucket.peek store.set) item

def ops : BucketOps RedisStore :=
  { failingRate := fun store => store.bucket.failingRate
    put := put
    waiting := waiting }

/-- The units of the item are in the set, under the id drawn for this put. -/
def Records (before after : RedisStore) (item : RateItem) : Prop :=
  ∀ unit, unit ∈ RedisBucket.newMembers item (before.ids before.drawn) → unit ∈ after.set.entries

theorem put_admitted {store : RedisStore} {item : RateItem}
    (admitted : (store.put item).1 = true) : store.Records (store.put item).2 item := by
  intro unit member
  simp only [put, RedisBucket.put_eq, Option.get_some] at admitted ⊢
  split at admitted
  · cases admitted
  · exact RedisBucket.mem_addAll_newMembers store.set item _ member

end RedisStore

/-! ### An admissible item -/

section Admitted

variable {Bucket : Type} {ops : BucketOps Bucket} {bufferMs turns : Nat} {world : World Bucket}
  {now : Int} {name : String} {weight : Int} {timeout : ℚ}

theorem deadline_of_nonneg (unhurried : 0 ≤ timeout) :
    (if timeout = -1 then none else some (world.monotonic + timeout)) =
      some (world.monotonic + timeout) := by
  rw [if_neg (by linarith)]

theorem checkArguments_of_nonneg (unhurried : 0 ≤ timeout) :
    checkArguments true timeout = none := by
  unfold checkArguments
  rw [if_neg (fun wrong => absurd wrong.1 (not_lt.mpr unhurried))]
  rfl

/-- The first put runs at once on a synchronous bucket, at any deadline. -/
theorem tryAcquireInner_of_admitted (forceAsync : Bool) (positive : 1 ≤ weight)
    (admitted : (ops.put world.bucket (wrapItem now name weight)).1 = true) :
    tryAcquireInner ops bufferMs turns world now name weight true timeout forceAsync =
      some ((world.put ops (wrapItem now name weight)).2, .finished (.returned true)) := by
  have put : (world.put ops (wrapItem now name weight)).1 = true := admitted
  unfold tryAcquireInner acquireItem
  rw [if_neg (by omega), if_neg (by omega)]
  simp only [put, if_true]

/-- The first put on an asynchronous bucket runs only before the deadline. -/
theorem tryAcquireInnerAwaited_of_admitted (positive : 1 ≤ weight) (unhurried : 0 ≤ timeout)
    (admitted : (ops.put world.bucket (wrapItem now name weight)).1 = true) :
    tryAcquireInnerAwaited ops bufferMs turns world now name weight true timeout =
      if timeout = 0 then some (world, .raised (.timeoutError ""))
      else some ((world.put ops (wrapItem now name weight)).2, .returned true) := by
  have put : (world.put ops (wrapItem now name weight)).1 = true := admitted
  have expired : (world.monotonic + timeout - world.monotonic ≤ 0) ↔ timeout = 0 := by
    rw [add_sub_cancel_left]
    exact ⟨fun spent => le_antisymm spent unhurried, fun zero => zero.le⟩
  unfold tryAcquireInnerAwaited
  rw [if_neg (by omega), if_neg (by omega), deadline_of_nonneg unhurried]
  simp only [awaitResult, waitAfterAsyncPut, putCoroutine, Option.mem_some_iff, exists_eq_left',
    expired]
  split
  · rfl
  · simp only [put, Option.bind_eq_bind, Option.bind_some]

/-- What each entry point makes of an item that its put would admit. -/
theorem acquire_of_admitted (kind : BucketKind) (entry : EntryPoint) (nonneg : 0 ≤ weight)
    (unhurried : 0 ≤ timeout)
    (admitted : (ops.put world.bucket (wrapItem now name weight)).1 = true) :
    entry.acquire kind ops bufferMs turns world now name weight true timeout =
      some
        (if weight = 0 then (world, .returned true)
        else if kind = .async ∧ timeout = 0 then (world, .returned false)
        else ((world.put ops (wrapItem now name weight)).2, .returned true)) := by
  have checked := checkArguments_of_nonneg unhurried
  by_cases weightless : weight = 0
  · rw [if_pos weightless]
    subst weightless
    cases kind <;> cases entry <;>
      simp [EntryPoint.acquire, tryAcquire, tryAcquireAsync, tryAcquireAwaited,
        tryAcquireAsyncAwaited, checked, tryAcquireInner, tryAcquireInnerAwaited,
        handleAsyncResult, Verdict.catchTimeout]
  · have positive : 1 ≤ weight := by omega
    rw [if_neg weightless]
    cases kind with
    | sync =>
        rw [if_neg (fun both => by cases both.1)]
        cases entry <;>
          simp only [EntryPoint.acquire, tryAcquire, tryAcquireAsync, checked, if_neg weightless,
            tryAcquireInner_of_admitted _ positive admitted] <;> rfl
    | async =>
        simp only [true_and]
        have awaited : tryAcquireAwaited ops bufferMs turns world now name weight true timeout =
            some
              (if timeout = 0 then (world, .returned false)
              else ((world.put ops (wrapItem now name weight)).2, .returned true)) := by
          simp only [tryAcquireAwaited, checked,
            tryAcquireInnerAwaited_of_admitted positive unhurried admitted]
          split <;> rfl
        cases entry with
        | tryAcquire => exact awaited
        | tryAcquireAsync =>
            simp only [EntryPoint.acquire, tryAcquireAsyncAwaited, if_neg weightless, awaited]

end Admitted

/-- The call resolves to `True` and its units are recorded. -/
def Grants {Bucket : Type} (records : Bucket → Bucket → Prop) (world : World Bucket)
    (outcome : Option (World Bucket × Verdict)) : Prop :=
  ∃ final, outcome = some (final, .returned true) ∧ records world.bucket final.bucket

theorem grants_of_admitted_iff {Bucket : Type} {ops : BucketOps Bucket} {bufferMs turns : Nat}
    {world : World Bucket} {now : Int} {name : String} {weight : Int} {timeout : ℚ}
    {records : Bucket → Bucket → Prop} (kind : BucketKind) (entry : EntryPoint)
    (nonneg : 0 ≤ weight) (unhurried : 0 ≤ timeout)
    (admitted : (ops.put world.bucket (wrapItem now name weight)).1 = true)
    (weightless : weight = 0 → records world.bucket world.bucket)
    (recorded : records world.bucket (ops.put world.bucket (wrapItem now name weight)).2) :
    Grants records world
        (entry.acquire kind ops bufferMs turns world now name weight true timeout) ↔
      weight = 0 ∨ kind = .sync ∨ 0 < timeout := by
  unfold Grants
  rw [acquire_of_admitted kind entry nonneg unhurried admitted]
  by_cases zero : weight = 0
  · rw [if_pos zero]
    exact ⟨fun _granted => Or.inl zero, fun _condition => ⟨world, rfl, weightless zero⟩⟩
  · rw [if_neg zero]
    by_cases spent : kind = .async ∧ timeout = 0
    · rw [if_pos spent]
      constructor
      · rintro ⟨final, impossible, _⟩
        cases impossible
      · rintro (absent | sync | left)
        · exact absurd absent zero
        · rw [spent.1] at sync
          cases sync
        · exact absurd spent.2 left.ne'
    · rw [if_neg spent]
      have granted : Grants records world
          (some ((world.put ops (wrapItem now name weight)).2, .returned true)) :=
        ⟨_, rfl, recorded⟩
      refine ⟨fun _granted => Or.inr ?_, fun _condition => granted⟩
      cases kind with
      | sync => exact Or.inl rfl
      | async =>
          exact Or.inr (lt_of_le_of_ne unhurried (fun zero => spent ⟨rfl, zero.symm⟩))

/-- An item that its put would admit is granted and recorded, exactly unless it is
put on an asynchronous bucket with a timeout of zero. -/
theorem admissible_granted_iff (entry : EntryPoint) (bufferMs turns : Nat) (now : Int)
    (name : String) (weight : Int) (timeout : ℚ) (nonneg : 0 ≤ weight) (unhurried : 0 ≤ timeout) :
    (∀ (kind : BucketKind) (world : World InMemoryBucket),
      (world.bucket.put (wrapItem now name weight)).1 = true →
        (Grants (fun before after => after.items = before.items ++
              List.replicate weight.toNat (wrapItem now name weight)) world
            (entry.acquire kind InMemoryBucket.ops bufferMs turns world now name weight true
              timeout) ↔
          weight = 0 ∨ kind = .sync ∨ 0 < timeout)) ∧
      ∀ world : World RedisStore, (world.bucket.put (wrapItem now name weight)).1 = true →
        (Grants (fun before after => before.Records after (wrapItem now name weight)) world
            (entry.acquire .async RedisStore.ops bufferMs turns world now name weight true
              timeout) ↔
          weight = 0 ∨ 0 < timeout) := by
  constructor
  · intro kind world admitted
    apply grants_of_admitted_iff kind entry nonneg unhurried admitted
    · intro zero
      rw [zero]
      exact (List.append_nil _).symm
    · exact InMemoryBucket.put_admitted nonneg admitted
  · intro world admitted
    have granted : Grants (fun before after => before.Records after (wrapItem now name weight))
        world (entry.acquire .async RedisStore.ops bufferMs turns world now name weight true
          timeout) ↔ weight = 0 ∨ BucketKind.async = .sync ∨ 0 < timeout := by
      apply grants_of_admitted_iff .async entry nonneg unhurried admitted
      · intro zero unit member
        subst zero
        cases member
      · exact RedisStore.put_admitted admitted
    simpa using granted

def freshWorld : World InMemoryBucket := World.start (InMemoryBucket.empty oneRequestIn100) 0

theorem admissible_granted_in_half_a_second :
    (freshWorld.bucket.put (wrapItem 0 "key" 1)).1 = true ∧
      Grants (fun before after => after.items = before.items ++
          List.replicate (1 : Int).toNat (wrapItem 0 "key" 1)) freshWorld
        (EntryPoint.tryAcquireAsync.acquire .async InMemoryBucket.ops 50 1 freshWorld 0 "key" 1 true
          (1 / 2)) := by
  have admitted : (freshWorld.bucket.put (wrapItem 0 "key" 1)).1 = true := by decide
  have exact := (admissible_granted_iff .tryAcquireAsync 50 1 0 "key" 1 (1 / 2) (by decide)
    (by norm_num)).1 .async freshWorld admitted
  exact ⟨admitted, exact.mpr (Or.inr (Or.inr (by norm_num)))⟩

/-- With a timeout of zero the put of an empty bucket never runs. -/
theorem admissible_refused_without_time :
    (freshWorld.bucket.put (wrapItem 0 "key" 1)).1 = true ∧
      EntryPoint.tryAcquireAsync.acquire .async InMemoryBucket.ops 50 1 freshWorld 0 "key" 1 true 0 =
        some (freshWorld, .returned false) ∧
      ¬Grants (fun before after => after.items = before.items ++
          List.replicate (1 : Int).toNat (wrapItem 0 "key" 1)) freshWorld
        (EntryPoint.tryAcquireAsync.acquire .async InMemoryBucket.ops 50 1 freshWorld 0 "key" 1 true
          0) := by
  have refused : EntryPoint.tryAcquireAsync.acquire .async InMemoryBucket.ops 50 1 freshWorld 0
      "key" 1 true 0 = some (freshWorld, .returned false) := by
    rw [acquire_of_admitted .async .tryAcquireAsync (by decide) (le_refl 0) (by decide)]
    rfl
  refine ⟨by decide, refused, ?_⟩
  rintro ⟨final, granted, _⟩
  rw [refused] at granted
  cases granted

end PyrateLimiter
