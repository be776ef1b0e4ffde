/-
One blocking acquire over the Postgres bucket.

A put that is not granted the table lock names the first rate as the failing one
although its window may have room.  The bound item is then older than that
window, the wait is negative, and one negative value is the answer for an item
that can never fit.
-/

import PyrateLimiter.Foundations.OrderBy
import PyrateLimiter.Foundations.TransitionSystem
import PyrateLimiter.Limiter
import PyrateLimiter.PostgresBucket

namespace PyrateLimiter

open Foundations.OrderBy
open Foundations.TransitionSystem
open Foundations.WindowLog

structure PostgresBucket where
  rates : RateList
  table : List Row
  failingRate : Option Rate

/-- The instant of `TO_TIMESTAMP` at a whole number of milliseconds, in UTC. -/
def utcInstant (milliseconds : Int) : Int := milliseconds * 1000

namespace PostgresBucket

section Statements

variable (toTimestamp : Int → Int)

/-- The whole of `put`, whose transaction is granted the table lock or not. -/
def put (bucket : PostgresBucket) (item : RateItem) (lockGranted : Bool) :
    Except PyError Bool × PostgresBucket :=
  if item.weight = 0 then (.ok true, bucket)
  else if !lockGranted then (.ok false, { bucket with failingRate := some bucket.rates.first })
  else
    match admitDecision bucket.rates.toList
        (countWindows toTimestamp bucket.table bucket.rates item.timestamp) item.weight with
    | .error raised => (.error raised, bucket)
    | .ok decision =>
        if !decision.allowed then (.ok false, { bucket with failingRate := decision.failingRate })
        else
          match insertRows toTimestamp item with
          | .error raised => (.error raised, { bucket with failingRate := none })
          | .ok rows =>
              (.ok true, { bucket with failingRate := none, table := bucket.table ++ rows })

end Statements

/-- `int(extract(epoch FROM item_timestamp) * 1000)` of a stored instant. -/
def epochMs (instant : Int) : Int := instant.tdiv 1000

/-- `PEEK`: the row at an offset in descending order of timestamps. -/
def peek (bucket : PostgresBucket) (index : Int) : Option RateItem :=
  ((orderByDesc Row.itemTimestamp bucket.table)[index.toNat]?).map
    (fun row =>
      { name := row.name
        timestamp := epochMs row.itemTimestamp
        weight := row.weight })

def waiting (bucket : PostgresBucket) (item : RateItem) : Except PyError Int :=
  PyrateLimiter.waiting bucket.failingRate bucket.peek item

/-- Fewer rows above the peeked one than at or above an instant: it is there too. -/
theorem le_timestamp_of_peek {bucket : PostgresBucket} {index stamp : Int} {bound : RateItem}
    (peeked : bucket.peek index = some bound)
    (deep : index.toNat < bucket.table.countP (fun row => stamp * 1000 ≤ row.itemTimestamp)) :
    stamp ≤ bound.timestamp := by
  obtain ⟨row, found, rfl⟩ := Option.map_eq_some_iff.mp peeked
  obtain ⟨inside, rfl⟩ := List.getElem?_eq_some_iff.mp found
  rw [← (orderByDesc_perm Row.itemTimestamp bucket.table).countP_eq] at deep
  have within := (lt_countP_iff (stamp * 1000)
    (orderByDesc_sorted Row.itemTimestamp bucket.table) inside).mp deep
  exact Int.le_tdiv_of_mul_le (by decide) within

/-- A put that answers `False` leaves one of the bucket's rates as the failing one,
and its window is full if the counts were taken at all. -/
theorem put_refused {toTimestamp : Int → Int} {bucket : PostgresBucket} {item : RateItem}
    {lockGranted : Bool} (refused : (bucket.put toTimestamp item lockGranted).1 = .ok false) :
    ∃ rate, rate ∈ bucket.rates ∧
      (bucket.put toTimestamp item lockGranted).2 = { bucket with failingRate := some rate } ∧
      (lockGranted = true → rate.limit -
        countWindow toTimestamp bucket.table item.timestamp rate.interval < item.weight) := by
  unfold put at refused ⊢
  split at refused
  · cases refused
  · rename_i weighty
    rw [if_neg weighty]
    split at refused
    · rename_i contended
      rw [if_pos contended]
      refine ⟨bucket.rates.first, bucket.rates.first_mem, rfl, ?_⟩
      intro granted
      rw [granted] at contended
      cases contended
    · rename_i granted
      rw [if_neg granted]
      rw [admitDecision_countWindows] at refused ⊢
      simp only [] at refused ⊢
      split at refused
      · rename_i denied
        rw [if_pos denied]
        cases found : bucket.rates.toList.find? (fun rate => rate.limit -
            countWindow toTimestamp bucket.table item.timestamp rate.interval < item.weight) with
        | none =>
            rw [found] at denied
            cases denied
        | some rate =>
            exact ⟨rate, List.mem_of_find?_eq_some found, rfl,
              fun _counted => by simpa using List.find?_some found⟩
      · split at refused <;> cases refused

theorem insertRows_ok {toTimestamp : Int → Int} {item : RateItem} {rows : List Row}
    (inserted : insertRows toTimestamp item = .ok rows) :
    rows = List.replicate item.weight.toNat (unitRow toTimestamp item) := by
  unfold insertRows at inserted
  split at inserted
  · cases inserted
  · cases inserted
    rfl

/-- A put that answers `True` has inserted one row for each unit. -/
theorem put_admitted {toTimestamp : Int → Int} {bucket : PostgresBucket} {item : RateItem}
    {lockGranted : Bool} (admitted : (bucket.put toTimestamp item lockGranted).1 = .ok true) :
    (bucket.put toTimestamp item lockGranted).2.table =
        bucket.table ++ List.replicate item.weight.toNat (unitRow toTimestamp item) ∧
      (item.weight ≠ 0 → (bucket.put toTimestamp item lockGranted).2.failingRate = none) := by
  unfold put at admitted ⊢
  split at admitted
  · rename_i weightless
    rw [if_pos weightless, weightless]
    exact ⟨(List.append_nil _).symm, fun weighty => absurd rfl weighty⟩
  · rename_i weighty
    rw [if_neg weighty]
    split at admitted
    · cases admitted
    · rename_i granted
      rw [if_neg granted]
      split at admitted
      · cases admitted
      · split at admitted
        · cases admitted
        · rename_i allowed
          simp only [if_neg allowed]
          split at admitted
          · cases admitted
          · rename_i rows inserted
            rw [insertRows_ok inserted]
            exact ⟨rfl, fun _weighty => rfl⟩

/-- What `waiting` answers for an item that the failing rate could hold. -/
theorem waiting_of_light {bucket : PostgresBucket} {item : RateItem} {rate : Rate}
    (failing : bucket.failingRate = some rate) (positive : 1 ≤ item.weight)
    (light : item.weight ≤ rate.limit) :
    bucket.waiting item =
      .ok
        (match bucket.peek (rate.limit - item.weight) with
        | none => 0
        | some bound => bound.timestamp - (item.timestamp - rate.interval) + 1) := by
  have weighty : ¬item.weight ≤ 0 := by omega
  have fits : ¬rate.limit < item.weight := by omega
  have started : bucket.waiting item =
      waitingFinish (some rate) item (bucket.peek (rate.limit - item.weight)) := by
    simp only [waiting, PyrateLimiter.waiting, waitingStart, failing, if_neg weighty, if_neg fits]
    rfl
  rw [started]
  cases bucket.peek (rate.limit - item.weight) <;> rfl

end PostgresBucket

/-! ### The blocking call -/

/-- Where the call is: about to put, about to ask for the wait after a refusal,
asleep with the limiter lock free, or back. -/
inductive CallPhase where
  | putting (item : RateItem)
  | refused (item : RateItem)
  | sleeping (item : RateItem) (sleepMs : Int)
  | finished (verdict : Verdict)
  deriving DecidableEq

structure PostgresCall where
  bucket : PostgresBucket
  phase : CallPhase

inductive CallAction where
  | put (lockGranted : Bool)
  | computeWait
  | wake
  | othersChange (table : List Row)

namespace PostgresCall

def start (bucket : PostgresBucket) (item : RateItem) : PostgresCall :=
  { bucket := bucket
    phase := .putting item }

/-- One step of `_try_acquire` and `_blocking_retry_sync` without a deadline, or of
other clients on the table.  Between a put and its `waiting` the limiter lock
keeps the other threads of the process from the failing rate. -/
def step (toTimestamp : Int → Int) (bufferMs : Nat) (call : PostgresCall) :
    CallAction → Option PostgresCall
  | .put lockGranted =>
      match call.phase with
      | .putting item =>
          let (acquire, bucket) := call.bucket.put toTimestamp item lockGranted
          match acquire with
          | .error raised => some { bucket := bucket, phase := .finished (.raised raised) }
          | .ok true => some { bucket := bucket, phase := .finished (.returned true) }
          | .ok false => some { bucket := bucket, phase := .refused item }
      | _ => none
  | .computeWait =>
      match call.phase with
      | .refused item =>
          match call.bucket.waiting item with
          | .error raised => some { call with phase := .finished (.raised raised) }
          | .ok waitMs =>
              match delayToSleepMs bufferMs waitMs with
              | none => some { call with phase := .finished (.returned false) }
              | some sleepMs => some { call with phase := .sleeping item sleepMs }
      | _ => none
  | .wake =>
      match call.phase with
      | .sleeping item sleepMs => some { call with phase := .putting (item.delay sleepMs) }
      | _ => none
  | .othersChange table => some { call with bucket := { call.bucket with table := table } }

/-- The call has not answered `False` unless the weight exceeds a rate's limit. -/
def FalseOnlyIfHeavy (weight : Int) (call : PostgresCall) : Prop :=
  call.phase = .finished (.returned false) → ∃ rate, rate ∈ call.bucket.rates ∧ rate.limit < weight

/-- A wait that is computed for an item that can fit starts from a bound item that
does not lie two milliseconds before the window of the failing rate. -/
def BoundApart (call : PostgresCall) : CallAction → Prop
  | .computeWait => ∀ item rate bound, call.phase = .refused item →
      call.bucket.failingRate = some rate →
        call.bucket.peek (rate.limit - item.weight) = some bound →
          (∃ other, other ∈ call.bucket.rates ∧ other.limit < item.weight) ∨
            bound.timestamp ≠ item.timestamp - rate.interval - 2
  | _ => True

end PostgresCall

def CallPhase.Carries (weight : Int) : CallPhase → Prop
  | .putting item | .refused item | .sleeping item _ => item.weight = weight
  | .finished _ => True

namespace PostgresCall

/-- A call in flight carries an item of its weight, and after a refusal the bucket
names one of its rates. -/
structure Invariant (weight : Int) (call : PostgresCall) : Prop where
  carries : call.phase.Carries weight
  failing : ∀ item, call.phase = .refused item →
    ∃ rate, rate ∈ call.bucket.rates ∧ call.bucket.failingRate = some rate
  falseOnly : call.FalseOnlyIfHeavy weight

section Steps

variable {toTimestamp : Int → Int} {bufferMs : Nat} {weight : Int} {before after : PostgresCall}

theorem Invariant.of_phase (carries : after.phase.Carries weight)
    (unrefused : ∀ item, after.phase ≠ .refused item)
    (unanswered : after.phase ≠ .finished (.returned false)) : Invariant weight after where
  carries := carries
  failing := fun item refused => absurd refused (unrefused item)
  falseOnly := fun answered => absurd answered unanswered

theorem Invariant.start (bucket : PostgresBucket) (item : RateItem) :
    Invariant item.weight (PostgresCall.start bucket item) :=
  .of_phase rfl (fun _ impossible => by cases impossible) (fun impossible => by cases impossible)

theorem Invariant.computeWait {item : RateItem} (positive : 1 ≤ weight)
    (invariant : Invariant weight before) (current : before.phase = .refused item)
    (apart : before.BoundApart .computeWait)
    (taken : before.step toTimestamp bufferMs .computeWait = some after) :
    Invariant weight after := by
  have carried : item.weight = weight := by
    have known := invariant.carries
    rw [current] at known
    exact known
  obtain ⟨rate, member, failing⟩ := invariant.failing item current
  subst carried
  have sentinel : ∀ waitMs, before.bucket.waiting item = .ok waitMs → waitMs = -1 →
      ∃ other, other ∈ before.bucket.rates ∧ other.limit < item.weight := by
    intro waitMs answered never
    by_cases light : item.weight ≤ rate.limit
    · rw [PostgresBucket.waiting_of_light failing positive light] at answered
      cases peeked : before.bucket.peek (rate.limit - item.weight) with
      | none =>
          rw [peeked] at answered
          cases answered
          cases never
      | some bound =>
          rw [peeked] at answered
          simp only [Except.ok.injEq] at answered
          rcases apart item rate bound current failing peeked with heavy | different
          · exact heavy
          · omega
    · exact ⟨rate, member, by omega⟩
  simp only [step, current] at taken
  split at taken
  · cases taken
    exact .of_phase trivial (fun _ impossible => by cases impossible)
      (fun impossible => by cases impossible)
  · rename_i waitMs answered
    unfold delayToSleepMs at taken
    by_cases never : waitMs = -1
    · rw [if_pos never] at taken
      cases taken
      exact
        { carries := trivial
          failing := fun _ impossible => by cases impossible
          falseOnly := fun _answered => sentinel waitMs answered never }
    · rw [if_neg never] at taken
      cases taken
      exact .of_phase rfl (fun _ impossible => by cases impossible)
        (fun impossible => by cases impossible)

theorem Invariant.step {action : CallAction} (positive : 1 ≤ weight)
    (invariant : Invariant weight before) (apart : before.BoundApart action)
    (taken : before.step toTimestamp bufferMs action = some after) : Invariant weight after := by
  have carries := invariant.carries
  cases action with
  | put lockGranted =>
      simp only [PostgresCall.step] at taken
      split at taken
      · rename_i item current
        rw [current] at carries
        split at taken
        · cases taken
          exact .of_phase trivial (fun _ impossible => by cases impossible)
            (fun impossible => by cases impossible)
        · cases taken
          exact .of_phase trivial (fun _ impossible => by cases impossible)
            (fun impossible => by cases impossible)
        · rename_i refused
          cases taken
          obtain ⟨rate, member, left, _⟩ := PostgresBucket.put_refused refused
          exact
            { carries := carries
              failing := fun _item _current => ⟨rate, by rw [left]; exact member, by rw [left]⟩
              falseOnly := fun impossible => by cases impossible }
      · cases taken
  | computeWait =>
      cases current : before.phase with
      | refused item => exact invariant.computeWait positive current apart taken
      | _ =>
          simp only [PostgresCall.step, current] at taken
          cases taken
  | wake =>
      simp only [PostgresCall.step] at taken
      split at taken
      · rename_i item sleepMs current
        rw [current] at carries
        cases taken
        exact .of_phase carries (fun _ impossible => by cases impossible)
          (fun impossible => by cases impossible)
      · cases taken
  | othersChange table =>
      cases taken
      exact
        { carries := carries
          failing := invariant.failing
          falseOnly := invariant.falseOnly }

/-- A wait that comes out as the sentinel ends the call with `False`. -/
theorem Invariant.false_of_collision {action : CallAction} (positive : 1 ≤ weight)
    (invariant : Invariant weight before) (collision : ¬before.BoundApart action)
    (taken : before.step toTimestamp bufferMs action = some after) :
    ¬after.FalseOnlyIfHeavy weight := by
  cases action with
  | computeWait =>
      simp only [BoundApart, not_forall, not_or, not_not] at collision
      obtain ⟨item, rate, bound, current, failing, peeked, noneHeavy, same⟩ := collision
      have carried : item.weight = weight := by
        have known := invariant.carries
        rw [current] at known
        exact known
      subst carried
      obtain ⟨named, member, failingNamed⟩ := invariant.failing item current
      have sameRate : named = rate := by
        rw [failing] at failingNamed
        exact (Option.some.inj failingNamed).symm
      rw [sameRate] at member
      have light : item.weight ≤ rate.limit :=
        Int.not_lt.mp (fun heavy => noneHeavy ⟨rate, member, heavy⟩)
      have answered : before.bucket.waiting item = .ok (-1) := by
        rw [PostgresBucket.waiting_of_light failing positive light, peeked]
        congr 1
        simp only []
        omega
      simp only [PostgresCall.step, current, answered] at taken
      cases taken
      exact fun falseOnly => noneHeavy (falseOnly rfl)
  | _ => exact absurd trivial collision

end Steps

/-- After a refusal that the counts decided, and while the table is as it was, the
bound item lies inside the window of the failing rate. -/
theorem boundApart_of_granted {bucket : PostgresBucket} {item : RateItem}
    (refused : (bucket.put utcInstant item true).1 = .ok false) :
    BoundApart
      { bucket := (bucket.put utcInstant item true).2
        phase := .refused item } .computeWait := by
  obtain ⟨rate, member, left, full⟩ := PostgresBucket.put_refused refused
  rw [left]
  intro _item _rate bound current failing peeked
  cases current
  cases failing
  by_cases light : item.weight ≤ rate.limit
  · -- More rows are in the window than its rate leaves room for, so the bound item is.
    have counted : rate.limit - (bucket.table.countP (fun row =>
        item.timestamp * 1000 - rate.interval * 1000 ≤ row.itemTimestamp) : Int) < item.weight :=
      full rfl
    rw [← Int.sub_mul] at counted
    have deep : (rate.limit - item.weight).toNat < bucket.table.countP (fun row =>
        (item.timestamp - rate.interval) * 1000 ≤ row.itemTimestamp) := by
      omega
    have reached := PostgresBucket.le_timestamp_of_peek peeked deep
    exact Or.inr (by omega)
  · exact Or.inl ⟨rate, member, by omega⟩

end PostgresCall

/-- A blocking call answers `False` only to an item that is heavier than some
rate's limit, exactly as long as no wait comes out as the sentinel by accident. -/
theorem postgres_false_only_if_heavy_iff (toTimestamp : Int → Int) (bufferMs : Nat)
    (bucket : PostgresBucket) (item : RateItem) (positive : 1 ≤ item.weight)
    (actions : List CallAction) :
    Always (PostgresCall.step toTimestamp bufferMs) (PostgresCall.FalseOnlyIfHeavy item.weight)
        (PostgresCall.start bucket item) actions ↔
      StepsMeet (PostgresCall.step toTimestamp bufferMs) PostgresCall.BoundApart
        (PostgresCall.start bucket item) actions :=
  always_iff_stepsMeet
    (fun _call invariant => PostgresCall.Invariant.falseOnly invariant)
    (fun _before _action _after invariant apart taken => invariant.step positive apart taken)
    (fun _before _action _after invariant collision taken =>
      invariant.false_of_collision positive collision taken)
    (PostgresCall.Invariant.start bucket item) actions

/-- A call that comes when one row is stored. -/
def afterStored (elapsed : Int) : PostgresCall :=
  PostgresCall.start
    { rates := oneRequestIn100
      table := [⟨"stored", 1, 1700000000000000⟩]
      failingRate := none }
    ⟨"key", 1700000000000 + elapsed, 1⟩

def contendedOnce : List CallAction := [.put false, .computeWait, .wake, .put true]

theorem postgres_false_only_if_heavy_contended :
    (exec (PostgresCall.step utcInstant 50) (afterStored 101) contendedOnce).map
        PostgresCall.phase = some (.finished (.returned true)) ∧
      Always (PostgresCall.step utcInstant 50) (PostgresCall.FalseOnlyIfHeavy 1)
        (afterStored 101) contendedOnce := by
  refine ⟨rfl, ?_⟩
  refine (postgres_false_only_if_heavy_iff utcInstant 50 (afterStored 101).bucket
    ⟨"key", 1700000000101, 1⟩ (by decide) contendedOnce).mpr ?_
  rintro refused ⟨⟩
  refine ⟨trivial, ?_⟩
  rintro asleep ⟨⟩
  refine ⟨?_, fun _awake _taken => ⟨trivial, fun _final _put => ⟨trivial, trivial⟩⟩⟩
  rintro item rate bound ⟨⟩ ⟨⟩ ⟨⟩
  exact Or.inr (by decide)

/-- A refused lock ends the call for good when the stored row is an interval and two
milliseconds old. -/
theorem contended_put_answers_false :
    (exec (PostgresCall.step utcInstant 50) (afterStored 102)
        [.put false, .computeWait]).map PostgresCall.phase =
      some (.finished (.returned false)) ∧
    ¬Always (PostgresCall.step utcInstant 50) (PostgresCall.FalseOnlyIfHeavy 1)
      (afterStored 102) [.put false, .computeWait] := by
  have ran : (exec (PostgresCall.step utcInstant 50) (afterStored 102)
      [.put false, .computeWait]).map
        (fun final => (final.phase, final.bucket.rates.toList.map Rate.limit)) =
      some (.finished (.returned false), [1]) := by
    decide
  obtain ⟨final, run, ended⟩ := Option.map_eq_some_iff.mp ran
  obtain ⟨answered, limits⟩ := Prod.mk.inj ended
  refine ⟨by rw [run, Option.map_some, answered], ?_⟩
  intro always
  obtain ⟨rate, member, heavy⟩ := always.reached run answered
  have limit : rate.limit ∈ final.bucket.rates.toList.map Rate.limit := List.mem_map_of_mem member
  rw [limits, List.mem_singleton] at limit
  omega

end PyrateLimiter
