/-
The wrappers that `as_decorator` puts around a function.

Both wrappers compute the result of the acquire and go on to the body of the
function whatever it is.  An acquire that blocks ends with `True` as long as the
weight fits into the smallest limit; a heavier one ends with `False` at once and
the body runs without a recorded unit.  A run is a sequence of wrapped calls,
with other callers and the leaker between them.
-/

import PyrateLimiter.AdmittedHistory
import PyrateLimiter.BlockingRetry
import PyrateLimiter.Foundations.TransitionSystem

namespace PyrateLimiter

open Foundations.Bisect
open Foundations.TransitionSystem

inductive WrappedCall where
  | executesBody
  | raised (error : PyError)
  deriving DecidableEq, Repr

inductive Wrapper where
  | sync
  | async
  deriving DecidableEq, Repr

section Wrappers

variable {Bucket : Type} (ops : BucketOps Bucket) (bufferMs turns : Nat)

/-- The wrapper of a plain function, over a bucket that is not asynchronous. -/
def syncWrapper (world : World Bucket) (now : Int) (name : String) (weight : Int) :
    Option (World Bucket × WrappedCall) := do
  let (world, result) ←
    tryAcquireInner ops bufferMs turns world now name weight true (-1) false
  match result with
  | .finished (.returned _) => some (world, .executesBody)
  | .finished (.raised (.timeoutError _)) => some (world, .executesBody)
  | .finished (.raised raised) => some (world, .raised raised)
  | .awaitable _ _ _ =>
      some (world, .raised (.runtimeError "Can't use async bucket with sync decorator"))

/-- The wrapper of a coroutine function. -/
def asyncWrapper (world : World Bucket) (now : Int) (name : String) (weight : Int) :
    Option (World Bucket × WrappedCall) := do
  let (world, verdict) ← tryAcquireAsync ops bufferMs turns world now name weight true (-1)
  match verdict with
  | .returned _ => some (world, .executesBody)
  | .raised raised => some (world, .raised raised)

def Wrapper.call (wrapper : Wrapper) (world : World Bucket) (now : Int) (name : String)
    (weight : Int) : Option (World Bucket × WrappedCall) :=
  match wrapper with
  | .sync => syncWrapper ops bufferMs turns world now name weight
  | .async => asyncWrapper ops bufferMs turns world now name weight

theorem Wrapper.call_of_returned (wrapper : Wrapper)
    (names : ∀ bucket item, (ops.put bucket item).1 = false →
      (ops.failingRate (ops.put bucket item).2).isSome = true)
    {world final : World Bucket} {now : Int} {name : String} {weight : Int} {acquired : Bool}
    (positive : 1 ≤ weight)
    (ended : acquireItem ops bufferMs turns world (wrapItem now name weight) true false none =
      some (final, .finished (.returned acquired))) :
    wrapper.call ops bufferMs turns world now name weight = some (final, .executesBody) := by
  have notNegative : ¬weight < 0 := by omega
  have notZero : ¬weight = 0 := by omega
  cases wrapper with
  | sync =>
      simp only [call, syncWrapper, tryAcquireInner, if_true, if_neg notNegative, if_neg notZero,
        ended]
      rfl
  | async =>
      have awaited := handleAsyncResult_acquireItem ops bufferMs turns names world
        (wrapItem now name weight)
      rw [ended] at awaited
      have allowed : checkArguments true (-1) = none := by
        unfold checkArguments
        rw [if_neg (by simp), if_neg (by simp)]
      simp only [call, asyncWrapper, tryAcquireAsync, tryAcquireInner, allowed, if_true,
        if_neg notNegative, if_neg notZero]
      cases started : acquireItem ops bufferMs turns world (wrapItem now name weight)
          true true none with
      | none =>
          rw [started] at awaited
          cases awaited
      | some result =>
          rw [started] at awaited
          simp only [Option.bind_some] at awaited
          simp only [Option.bind_eq_bind, Option.bind_some, awaited]
          rfl

end Wrappers

namespace InMemoryBucket

theorem put_of_heavy (bucket : InMemoryBucket) (item : RateItem)
    (heavy : bucket.rates.first.limit < item.weight) :
    bucket.put item = (false, { bucket with failingRate := some bucket.rates.first }) := by
  obtain ⟨head, tail, shape⟩ := List.exists_cons_of_ne_nil bucket.rates.ne_nil
  have firstAt : bucket.rates.first = head := by
    simp only [RateList.first, shape, List.head_cons]
  rw [firstAt] at heavy ⊢
  have positive := head.limit_pos
  have below := bisectLeft_le_length RateItem.timestamp bucket.items
    (item.timestamp - head.interval)
  unfold put
  rw [if_neg (by omega), shape]
  simp only [findFailingRate]
  rw [if_neg (by omega), if_pos (by omega)]

/-- A wrapped call of a weight beyond the smallest limit runs the body at once,
and nothing is recorded. -/
theorem wrapper_call_of_heavy (wrapper : Wrapper) (bufferMs turns : Nat)
    (world : World InMemoryBucket) (now : Int) (name : String) (weight : Int)
    (heavy : world.bucket.rates.first.limit < weight) :
    ∃ final, wrapper.call ops bufferMs (turns + 1) world now name weight =
        some (final, .executesBody) ∧
      final.bucket = { world.bucket with failingRate := some world.bucket.rates.first } ∧
      final.monotonic = world.monotonic ∧
      admittedItems final.events = admittedItems world.events := by
  have positive : 1 ≤ weight := by
    have limitPositive := world.bucket.rates.first.limit_pos
    omega
  let refusedBucket : InMemoryBucket :=
    { world.bucket with failingRate := some world.bucket.rates.first }
  have refused : ops.put world.bucket (wrapItem now name weight) = (false, refusedBucket) :=
    put_of_heavy world.bucket (wrapItem now name weight) heavy
  have answered : ops.waiting refusedBucket (wrapItem now name weight) = .ok (-1) :=
    waiting_of_heavy rfl positive heavy
  let final : World InMemoryBucket :=
    { world with
      bucket := refusedBucket
      events := world.events ++ [.put (wrapItem now name weight) false refusedBucket] }
  have ended : acquireItem ops bufferMs (turns + 1) world (wrapItem now name weight)
      true false none = some (final, .finished (.returned false)) := by
    unfold acquireItem World.put
    simp only [refused, answered, Bool.false_eq_true, if_false, Bool.not_true]
    rfl
  refine ⟨final, wrapper.call_of_returned ops bufferMs (turns + 1) ops_names positive ended,
    rfl, rfl, ?_⟩
  · simp only [final, admittedItems, List.filterMap_append, List.filterMap_cons,
      List.filterMap_nil, List.append_nil]

theorem wrapper_call_of_fits (wrapper : Wrapper) (bufferMs : Nat) (world : World InMemoryBucket)
    (now : Int) (name : String) (weight : Int) (sorted : world.bucket.Sorted)
    (positive : 1 ≤ weight) (fits : weight ≤ world.bucket.rates.first.limit) :
    ∃ final events failing stamp,
      wrapper.call ops bufferMs world.bucket.rates.toList.length world now name weight =
        some (final, .executesBody) ∧
      EndsAdmitted bufferMs world final (wrapItem now name weight) events failing stamp := by
  obtain ⟨final, events, failing, stamp, ended, ends, _slept, _few⟩ :=
    acquireItem_ends bufferMs world.bucket.rates.toList.length world (wrapItem now name weight)
      sorted positive fits (Nat.le_refl _)
  exact ⟨final, events, failing, stamp,
    wrapper.call_of_returned ops bufferMs _ ops_names positive ended, ends⟩

section Ends

variable {bufferMs : Nat} {world final : World InMemoryBucket} {item : RateItem}
    {events : List (Event InMemoryBucket)} {failing : List Rate} {stamp : Int}

theorem EndsAdmitted.put_eq (ends : EndsAdmitted bufferMs world final item events failing stamp)
    (sorted : world.bucket.Sorted) (positive : 1 ≤ item.weight) :
    world.bucket.put { item with timestamp := stamp } = (true, final.bucket) := by
  rcases put_cases sorted { item with timestamp := stamp } positive with
    ⟨_room, outcome⟩ | ⟨rate, refused, _outcome⟩
  · rw [outcome, ends.bucket_eq]
    rfl
  · have none := RateList.refusing_eq_none_iff.mpr ends.room
    simp only [none] at refused
    cases refused

theorem EndsAdmitted.recorded_count
    (ends : EndsAdmitted bufferMs world final item events failing stamp)
    (positive : 1 ≤ item.weight) : final.bucket.count - world.bucket.count = item.weight := by
  let recordedItem : RateItem := { item with timestamp := stamp }
  have added : (unitsOf recordedItem).length = item.weight.toNat := by
    rw [← List.length_map RateItem.timestamp, stamps_unitsOf recordedItem positive,
      List.length_replicate]
  have grown : final.bucket.items.length =
      world.bucket.items.length + (unitsOf recordedItem).length := by
    rw [ends.bucket_eq]
    exact List.length_append
  simp only [count]
  omega

end Ends

end InMemoryBucket

/-! ### Runs of wrapped calls -/

/-- One execution of the body: the units its call added to the bucket and the
items its puts admitted. -/
structure Execution where
  recorded : Int
  admitted : List RateItem
  deriving DecidableEq, Repr

structure Decorated where
  clock : Int
  bucket : InMemoryBucket
  /-- The items admitted so far, which the bucket may have leaked. -/
  admitted : List RateItem
  executions : List Execution

/-- A wrapped call that returns at `finish`, or what happens between the calls. -/
inductive DecoratedAction where
  | call (finish : Int)
  | otherPut (name : String) (weight : Int)
  | leak (now : Int)
  | tick (now : Int)
  deriving DecidableEq, Repr

namespace Decorated

def start (rates : RateList) (clock : Int) : Decorated :=
  { clock := clock
    bucket := InMemoryBucket.empty rates
    admitted := []
    executions := [] }

def called (state : Decorated) (finish : Int) (final : World InMemoryBucket)
    (ended : WrappedCall) : Decorated :=
  { clock := finish
    bucket := final.bucket
    admitted := state.admitted ++ admittedItems final.events
    executions :=
      match ended with
      | .executesBody =>
          state.executions ++
            [{ recorded := final.bucket.count - state.bucket.count
               admitted := admittedItems final.events }]
      | .raised _ => state.executions }

def step (bufferMs : Nat) (wrapper : Wrapper) (name : String) (weight : Int)
    (state : Decorated) : DecoratedAction → Option Decorated
  | .call finish => do
      let (final, ended) ←
        wrapper.call InMemoryBucket.ops bufferMs state.bucket.rates.toList.length
          (World.start state.bucket 0) state.clock name weight
      if final.monotonic * 1000 ≤ ((finish - state.clock : Int) : ℚ) then
        some (state.called finish final ended)
      else none
  | .otherPut otherName otherWeight =>
      if 1 ≤ otherWeight then
        let item := wrapItem state.clock otherName otherWeight
        let (acquired, bucket) := state.bucket.put item
        some
          { state with
            bucket := bucket
            admitted := if acquired then state.admitted ++ [item] else state.admitted }
      else none
  | .leak now =>
      if now ≤ state.clock then some { state with bucket := (state.bucket.leak now).2 } else none
  | .tick now => if state.clock ≤ now then some { state with clock := now } else none

theorem step_call {bufferMs : Nat} {wrapper : Wrapper} {name : String} {weight : Int}
    {state : Decorated} {finish : Int} {final : World InMemoryBucket} {result : WrappedCall}
    (ended : wrapper.call InMemoryBucket.ops bufferMs state.bucket.rates.toList.length
      (World.start state.bucket 0) state.clock name weight = some (final, result)) :
    state.step bufferMs wrapper name weight (.call finish) =
      if final.monotonic * 1000 ≤ ((finish - state.clock : Int) : ℚ) then
        some (state.called finish final result)
      else none := by
  unfold step
  rw [ended]
  rfl

def bodiesBetween (executions : List Execution) (start finish : Int) : Nat :=
  executions.countP (fun execution => execution.admitted.any
    (fun item => start ≤ item.timestamp ∧ item.timestamp ≤ finish))

/-- Every execution was paid for, and the executions keep every limit. -/
structure BodiesPaid (rates : RateList) (weight : Int) (state : Decorated) : Prop where
  paid : ∀ execution, execution ∈ state.executions → execution.recorded = weight
  within : ∀ rate, rate ∈ rates → ∀ finish,
    (bodiesBetween state.executions (finish - rate.interval) finish : Int) * weight ≤ rate.limit

structure PaidInvariant (rates : RateList) (weight : Int) (state : Decorated) : Prop where
  rates_eq : state.bucket.rates = rates
  traces : Traces state.bucket state.admitted (fun stamp => state.clock ≤ stamp)
  paid : ∀ execution, execution ∈ state.executions →
    execution.recorded = weight ∧ ∃ item, execution.admitted = [item] ∧ item.weight = weight
  among : (state.executions.flatMap Execution.admitted).Sublist state.admitted

theorem bodiesBetween_mul {executions : List Execution} {weight : Int}
    (paid : ∀ execution, execution ∈ executions →
      ∃ item, execution.admitted = [item] ∧ item.weight = weight) (start finish : Int) :
    (bodiesBetween executions start finish : Int) * weight =
      weightBetween (executions.flatMap Execution.admitted) start finish := by
  induction executions with
  | nil => exact Int.zero_mul weight
  | cons execution rest ih =>
      obtain ⟨item, single, weighs⟩ := paid execution List.mem_cons_self
      have tail := ih (fun other member => paid other (List.mem_cons_of_mem execution member))
      unfold bodiesBetween weightBetween totalWeight at tail ⊢
      rw [List.flatMap_cons, single, List.singleton_append, List.countP_cons, List.filter_cons,
        single]
      simp only [List.any_cons, List.any_nil, Bool.or_false]
      cases decide (start ≤ item.timestamp ∧ item.timestamp ≤ finish) with
      | true =>
          simp only [if_true, List.map_cons, List.sum_cons]
          push_cast
          rw [Int.add_mul, tail, weighs, Int.one_mul, Int.add_comm]
      | false =>
          simp only [Bool.false_eq_true, if_false, Nat.add_zero]
          exact tail

namespace PaidInvariant

variable {rates : RateList} {weight : Int} {before after : Decorated}

theorem start (clock : Int) : PaidInvariant rates weight (Decorated.start rates clock) where
  rates_eq := rfl
  traces := Traces.empty rates
  paid := fun _execution impossible => by cases impossible
  among := List.Sublist.refl _

theorem bodiesPaid (invariant : PaidInvariant rates weight before) :
    BodiesPaid rates weight before where
  paid := fun execution member => (invariant.paid execution member).1
  within := by
    intro rate member finish
    rw [bodiesBetween_mul (fun execution present => (invariant.paid execution present).2)]
    refine Int.le_trans
      (weightBetween_le_of_sublist invariant.among invariant.traces.weighty _ _) ?_
    apply invariant.traces.weightBetween_le
    rw [invariant.rates_eq]
    exact member

theorem call (invariant : PaidInvariant rates weight before) {bufferMs : Nat}
    {wrapper : Wrapper} {name : String} {finish : Int} (positive : 1 ≤ weight)
    (fits : weight ≤ rates.first.limit)
    (taken : before.step bufferMs wrapper name weight (.call finish) = some after) :
    PaidInvariant rates weight after := by
  have sorted := invariant.traces.bucket_sorted
  have fitsNow : weight ≤ before.bucket.rates.first.limit := by
    rw [invariant.rates_eq]
    exact fits
  obtain ⟨final, events, failing, stamp, ended, ends⟩ :=
    InMemoryBucket.wrapper_call_of_fits wrapper bufferMs (World.start before.bucket 0)
      before.clock name weight sorted positive fitsNow
  rw [step_call ended] at taken
  split at taken
  · rename_i awake
    cases taken
    let item : RateItem := { wrapItem before.clock name weight with timestamp := stamp }
    have reached : before.clock ≤ stamp := ends.reached
    have passed : stamp ≤ finish := by
      have slept : final.monotonic = 0 + ((stamp - before.clock : Int) : ℚ) / 1000 :=
        ends.slept_eq
      rw [slept, zero_add, div_mul_cancel₀ _ (by norm_num)] at awake
      have integers : stamp - before.clock ≤ finish - before.clock := by exact_mod_cast awake
      omega
    have trace : final.events = events := ends.events_eq
    have admitted : admittedItems final.events = [item] := by
      rw [trace]
      exact ends.admitted_eq
    have outcome : before.bucket.put item = (true, final.bucket) := ends.put_eq sorted positive
    have traced : Traces (before.bucket.put item).2
        (if (before.bucket.put item).1 then before.admitted ++ [item] else before.admitted)
        (fun other => finish ≤ other) :=
      invariant.traces.put positive reached
        (fun other coming => ⟨by omega, Int.le_trans passed coming⟩)
    rw [outcome] at traced
    exact
      { rates_eq := by
          change final.bucket.rates = rates
          rw [ends.bucket_eq]
          exact invariant.rates_eq
        traces := by
          simp only [called, admitted]
          exact traced
        paid := by
          intro execution member
          simp only [called, admitted] at member
          rcases List.mem_append.mp member with old | new
          · exact invariant.paid execution old
          · rw [List.mem_singleton.mp new]
            exact ⟨ends.recorded_count positive, item, rfl, rfl⟩
        among := by
          simp only [called, admitted, List.flatMap_append, List.flatMap_cons,
            List.flatMap_nil, List.append_nil]
          exact invariant.among.append (List.Sublist.refl _) }
  · cases taken

theorem step {bufferMs : Nat} {wrapper : Wrapper} {name : String} {action : DecoratedAction}
    (invariant : PaidInvariant rates weight before) (positive : 1 ≤ weight)
    (fits : weight ≤ rates.first.limit)
    (taken : before.step bufferMs wrapper name weight action = some after) :
    PaidInvariant rates weight after := by
  cases action with
  | call finish => exact invariant.call positive fits taken
  | otherPut otherName otherWeight =>
      simp only [Decorated.step] at taken
      split at taken
      · rename_i weighty
        cases taken
        let item := wrapItem before.clock otherName otherWeight
        have traced : Traces (before.bucket.put item).2
            (if (before.bucket.put item).1 then before.admitted ++ [item] else before.admitted)
            (fun stamp => before.clock ≤ stamp) :=
          invariant.traces.put weighty (Int.le_refl _) (fun _stamp coming => ⟨coming, coming⟩)
        exact
          { rates_eq := by
              change (before.bucket.put item).2.rates = rates
              rw [InMemoryBucket.put_rates]
              exact invariant.rates_eq
            traces := traced
            paid := invariant.paid
            among := by
              change List.Sublist _
                (if (before.bucket.put item).1 then before.admitted ++ [item] else before.admitted)
              split
              · exact invariant.among.trans (List.sublist_append_left _ _)
              · exact invariant.among }
      · cases taken
  | leak now =>
      simp only [Decorated.step] at taken
      split at taken
      · rename_i past
        cases taken
        exact
          { invariant with
            rates_eq := by
              change (before.bucket.leak now).2.rates = rates
              rw [InMemoryBucket.leak_rates]
              exact invariant.rates_eq
            traces := invariant.traces.leak_of_le
              (fun _stamp coming => Int.le_trans past coming) }
      · cases taken
  | tick now =>
      simp only [Decorated.step] at taken
      split at taken
      · rename_i later
        cases taken
        exact
          { invariant with
            traces := invariant.traces.narrow
              (fun _stamp coming => Int.le_trans later coming) }
      · cases taken

end PaidInvariant

theorem step_call_of_heavy (bufferMs : Nat) (wrapper : Wrapper) (name : String) {weight : Int}
    {state : Decorated} (heavy : state.bucket.rates.first.limit < weight) :
    ∃ after, state.step bufferMs wrapper name weight (.call state.clock) = some after ∧
      { recorded := 0, admitted := [] } ∈ after.executions := by
  obtain ⟨turns, atLeastOne⟩ := Nat.exists_eq_succ_of_ne_zero
    (fun empty => state.bucket.rates.ne_nil (List.eq_nil_of_length_eq_zero empty))
  obtain ⟨final, ended, bucket, still, admitted⟩ :=
    InMemoryBucket.wrapper_call_of_heavy wrapper bufferMs turns (World.start state.bucket 0)
      state.clock name weight heavy
  rw [← Nat.succ_eq_add_one, ← atLeastOne] at ended
  have awake : final.monotonic * 1000 ≤ ((state.clock - state.clock : Int) : ℚ) := by
    have unmoved : final.monotonic = 0 := still
    rw [unmoved, zero_mul, Int.sub_self, Int.cast_zero]
  have nothing : final.bucket.count - state.bucket.count = 0 := by
    rw [bucket]
    exact Int.sub_self _
  refine ⟨state.called state.clock final .executesBody, ?_, ?_⟩
  · rw [step_call ended, if_pos awake]
  · have admittedNone : admittedItems final.events = [] := admitted
    simp only [called, nothing, admittedNone]
    exact List.mem_append_right _ List.mem_cons_self

end Decorated

/-- The bodies of a wrapped function are paid for in every run exactly when its
weight fits into the smallest limit. -/
theorem decorated_bodies_paid_iff (rates : RateList) (weight : Int) (positive : 1 ≤ weight)
    (wrapper : Wrapper) (name : String) (bufferMs : Nat) (clock : Int) :
    (∀ actions, Always (Decorated.step bufferMs wrapper name weight)
      (Decorated.BodiesPaid rates weight) (Decorated.start rates clock) actions) ↔
        weight ≤ rates.first.limit := by
  constructor
  · intro always
    apply Int.not_lt.mp
    intro heavy
    obtain ⟨after, taken, unpaid⟩ :=
      Decorated.step_call_of_heavy bufferMs wrapper name
        (show (Decorated.start rates clock).bucket.rates.first.limit < weight from heavy)
    have paid := ((always [.call clock]).2 after taken).paid _ unpaid
    simp only at paid
    omega
  · intro fits actions
    have kept : Always (Decorated.step bufferMs wrapper name weight)
        (Decorated.PaidInvariant rates weight) (Decorated.start rates clock) actions :=
      Always.of_preserved
        (fun _before _action _after invariant taken => invariant.step positive fits taken)
        (Decorated.PaidInvariant.start clock) actions
    exact kept.imp (fun _state invariant => invariant.bodiesPaid)

theorem decorated_bodies_paid_iff_one :
    (∀ actions, Always (Decorated.step 50 .async "ratelimiter" 1)
      (Decorated.BodiesPaid oneRequestIn100 1) (Decorated.start oneRequestIn100 0) actions) ↔
        1 ≤ oneRequestIn100.first.limit :=
  decorated_bodies_paid_iff oneRequestIn100 1 (by decide) .async "ratelimiter" 50 0

/-- Two units never fit into a limit of one, and both wrappers run the body
without recording any. -/
theorem decorated_weight_two_unpaid :
    (∃ after, (Decorated.start oneRequestIn100 0).step 50 .sync "ratelimiter" 2 (.call 0) =
      some after ∧ { recorded := 0, admitted := [] } ∈ after.executions) ∧
    ∀ wrapper, ¬Always (Decorated.step 50 wrapper "ratelimiter" 2)
      (Decorated.BodiesPaid oneRequestIn100 2) (Decorated.start oneRequestIn100 0)
      [.call 0] := by
  have heavy : (Decorated.start oneRequestIn100 0).bucket.rates.first.limit < 2 := by decide
  refine ⟨Decorated.step_call_of_heavy 50 .sync "ratelimiter" heavy, ?_⟩
  intro wrapper always
  obtain ⟨after, taken, unpaid⟩ :=
    Decorated.step_call_of_heavy 50 wrapper "ratelimiter" heavy
  have paid := (always.2 after taken).paid _ unpaid
  exact absurd paid (by decide)

end PyrateLimiter
