/-
A single caller in real time.

The bucket decides on recorded stamps, and what the limiter promises about the moments
at which calls return is a statement about another clock.  Time passes between any two
steps of a call: a first put is stamped with an earlier reading of the clock, and a retry
is recorded at its planned wake-up time however long it sleeps.  The two clocks agree as
long as the put that admits a call can still count every call that has returned within an
interval before it returns itself.
-/

import PyrateLimiter.DeadlineBudget
import PyrateLimiter.Foundations.TransitionSystem
import PyrateLimiter.InMemoryBucket

namespace PyrateLimiter

open Foundations.TransitionSystem
open Foundations.WindowLog

/-- A call that returned `True`: when it returned, the stamp that it is recorded with, and
its weight. -/
structure Return where
  time : ℚ
  stamp : Int
  weight : Int

/-- The total weight of the calls that returned in a span of real time. -/
def returnedBetween (returned : List Return) (start finish : ℚ) : Int :=
  ((returned.filter (fun entry => start ≤ entry.time ∧ entry.time ≤ finish)).map
    Return.weight).sum

/-- Where the caller's call is. -/
inductive CallerPhase where
  | idle
  | entered (name : String) (weight : Int)
  | stamped (item : RateItem)
  | refused (item : RateItem)
  | planned (item : RateItem) (waitMs : Int)
  | sleeping (item : RateItem) (sleepMs : Int) (wakeAt : ℚ)
  | resumed (item : RateItem)
  | admitted (item : RateItem) (putAt : Int)
  | weightless

/-- The item that is about to be put. -/
def CallerPhase.pending : CallerPhase → Option RateItem
  | .stamped item | .resumed item => some item
  | _ => none

inductive CallerAction where
  | pass (time : ℚ)
  | tryAcquire (name : String) (weight : Int)
  | wrapItem
  | put
  | computeWait
  | sleep
  | wake
  | returnTrue
  | leak (currentTimestamp : Int)

/-- Real time in milliseconds, and a limiter whose one caller blocks. -/
structure Caller where
  time : ℚ
  bucket : InMemoryBucket
  phase : CallerPhase
  returned : List Return

namespace Caller

def start (rates : RateList) (time : ℚ) : Caller :=
  { time := time
    bucket := InMemoryBucket.empty rates
    phase := .idle
    returned := [] }

/-- `bucket.now()`. -/
def now (caller : Caller) : Int := ⌊caller.time⌋

/-- The assertion on the weight, and the calls that are let through without an item. -/
def enter (name : String) (weight : Int) : CallerPhase :=
  if weight < 0 then .idle
  else if weight = 0 then .weightless
  else .entered name weight

def afterWaiting (item : RateItem) (answer : Except PyError Int) : CallerPhase :=
  match answer with
  | .error _ => .idle
  | .ok waitMs => .planned item waitMs

/-- A sleep lasts at least as long as requested. -/
def afterPlanning (bufferMs : Nat) (time : ℚ) (item : RateItem) (waitMs : Int) : CallerPhase :=
  match delayToSleepMs bufferMs waitMs with
  | none => .idle
  | some sleepMs => .sleeping item sleepMs (time + (sleepMs : ℚ))

/-- One step of the caller; time passes between them, and the leaker may leak with an
earlier reading of the clock. -/
def step (bufferMs : Nat) (caller : Caller) : CallerAction → Option Caller
  | .pass time => if caller.time ≤ time then some { caller with time := time } else none
  | .tryAcquire name weight =>
      match caller.phase with
      | .idle => some { caller with phase := enter name weight }
      | _ => none
  | .wrapItem =>
      match caller.phase with
      | .entered name weight =>
          some { caller with phase := .stamped (PyrateLimiter.wrapItem caller.now name weight) }
      | _ => none
  | .put =>
      match caller.phase.pending with
      | some item =>
          let (acquired, bucket) := caller.bucket.put item
          some
            { caller with
              bucket := bucket
              phase := if acquired then .admitted item caller.now else .refused item }
      | none => none
  | .computeWait =>
      match caller.phase with
      | .refused item =>
          some { caller with phase := afterWaiting item (caller.bucket.waiting item) }
      | _ => none
  | .sleep =>
      match caller.phase with
      | .planned item waitMs =>
          some { caller with phase := afterPlanning bufferMs caller.time item waitMs }
      | _ => none
  | .wake =>
      match caller.phase with
      | .sleeping item sleepMs wakeAt =>
          if wakeAt ≤ caller.time then
            some { caller with phase := .resumed (item.delay sleepMs) }
          else none
      | _ => none
  | .returnTrue =>
      match caller.phase with
      | .admitted item _ =>
          some
            { caller with
              phase := .idle
              returned := caller.returned ++
                [{ time := caller.time, stamp := item.timestamp, weight := item.weight }] }
      | .weightless =>
          some
            { caller with
              phase := .idle
              returned := caller.returned ++
                [{ time := caller.time, stamp := caller.now, weight := 0 }] }
      | _ => none
  | .leak currentTimestamp =>
      if currentTimestamp ≤ caller.now then
        some { caller with bucket := (caller.bucket.leak currentTimestamp).2 }
      else none

/-- In every span of an interval, the calls that returned `True` weigh at most the
limit. -/
def RealWindowsKept (rates : RateList) (caller : Caller) : Prop :=
  ∀ rate, rate ∈ rates → ∀ finish : ℚ,
    returnedBetween caller.returned (finish - (rate.interval : ℚ)) finish ≤ rate.limit

/-- When a call returns `True`, each one that returned within an interval before has a stamp
within that interval before the put that admitted the call. -/
def StillCounted (caller : Caller) : CallerAction → Prop
  | .returnTrue =>
      match caller.phase with
      | .admitted _ putAt =>
          ∀ rate, rate ∈ caller.bucket.rates.toList → ∀ entry, entry ∈ caller.returned →
            caller.time - (rate.interval : ℚ) ≤ entry.time → putAt - rate.interval ≤ entry.stamp
      | _ => True
  | _ => True

instance : ∀ (caller : Caller) (action : CallerAction), Decidable (caller.StillCounted action)
  | ⟨time, bucket, .admitted _ putAt, returned⟩, .returnTrue =>
      inferInstanceAs (Decidable (∀ rate, rate ∈ bucket.rates.toList →
        ∀ entry, entry ∈ returned →
          time - (rate.interval : ℚ) ≤ entry.time → putAt - rate.interval ≤ entry.stamp))
  | ⟨_, _, .idle, _⟩, .returnTrue | ⟨_, _, .entered _ _, _⟩, .returnTrue
  | ⟨_, _, .stamped _, _⟩, .returnTrue | ⟨_, _, .refused _, _⟩, .returnTrue
  | ⟨_, _, .planned _ _, _⟩, .returnTrue | ⟨_, _, .sleeping _ _ _, _⟩, .returnTrue
  | ⟨_, _, .resumed _, _⟩, .returnTrue | ⟨_, _, .weightless, _⟩, .returnTrue
  | _, .pass _ | _, .tryAcquire _ _ | _, .wrapItem | _, .put | _, .computeWait | _, .sleep
  | _, .wake | _, .leak _ => .isTrue trivial

end Caller

/-! ### The two clocks -/

/-- The total weight of the calls recorded from a stamp on. -/
def returnedSince (returned : List Return) (start : Int) : Int :=
  ((returned.filter (fun entry => start ≤ entry.stamp)).map Return.weight).sum

theorem returnedBetween_append (returned : List Return) (last : Return) (start finish : ℚ) :
    returnedBetween (returned ++ [last]) start finish =
      returnedBetween returned start finish +
        if start ≤ last.time ∧ last.time ≤ finish then last.weight else 0 := by
  unfold returnedBetween
  rw [List.filter_append, List.map_append, List.sum_append]
  by_cases inside : start ≤ last.time ∧ last.time ≤ finish
  · rw [if_pos inside, List.filter_cons_of_pos (by simpa using inside)]
    simp
  · rw [if_neg inside, List.filter_cons_of_neg (by simpa using inside)]
    simp

theorem returnedSince_append (returned : List Return) (last : Return) (start : Int) :
    returnedSince (returned ++ [last]) start =
      returnedSince returned start + if start ≤ last.stamp then last.weight else 0 := by
  unfold returnedSince
  rw [List.filter_append, List.map_append, List.sum_append]
  by_cases inside : start ≤ last.stamp
  · rw [if_pos inside, List.filter_cons_of_pos (by simpa using inside)]
    simp
  · rw [if_neg inside, List.filter_cons_of_neg (by simpa using inside)]
    simp

/-- Where every call of a span of real time is recorded from a stamp on. -/
theorem returnedBetween_le {returned : List Return} {start finish : ℚ} {bound : Int}
    (nonneg : ∀ entry, entry ∈ returned → 0 ≤ entry.weight)
    (recorded : ∀ entry, entry ∈ returned → start ≤ entry.time → bound ≤ entry.stamp) :
    returnedBetween returned start finish ≤ returnedSince returned bound := by
  induction returned with
  | nil => exact Int.le_refl 0
  | cons entry rest ih =>
      have later := ih (fun other member => nonneg other (List.mem_cons_of_mem entry member))
        (fun other member => recorded other (List.mem_cons_of_mem entry member))
      have light := nonneg entry List.mem_cons_self
      have here := recorded entry List.mem_cons_self
      simp only [returnedBetween, returnedSince, List.filter_cons] at later ⊢
      by_cases inside : start ≤ entry.time ∧ entry.time ≤ finish
      · rw [if_pos (by simpa using inside), if_pos (by simpa using here inside.1)]
        simp only [List.map_cons, List.sum_cons]
        omega
      · rw [if_neg (by simpa using inside)]
        split
        · simp only [List.map_cons, List.sum_cons]
          omega
        · exact later

namespace CallerPhase

/-- The units that the phase has recorded from a stamp on and not returned yet. -/
def recordedSince (start : Int) : CallerPhase → Int
  | .admitted item _ => if start ≤ item.timestamp then item.weight else 0
  | _ => 0

/-- The call has recorded nothing yet. -/
def Unrecorded : CallerPhase → Prop
  | .admitted _ _ => False
  | _ => True

/-- The item of a call is not from the future and stamped after all that is recorded. -/
def Behind (log : List Int) (now : Int) : CallerPhase → Prop
  | .stamped item | .refused item | .planned item _ | .resumed item =>
      1 ≤ item.weight ∧ item.timestamp ≤ now ∧ ∀ stamp, stamp ∈ log → stamp ≤ item.timestamp
  | .sleeping item sleepMs wakeAt =>
      1 ≤ item.weight ∧ item.timestamp + sleepMs ≤ ⌊wakeAt⌋ ∧
        ∀ stamp, stamp ∈ log → stamp ≤ item.timestamp + sleepMs
  | .entered _ weight => 1 ≤ weight
  | .admitted item _ => 1 ≤ item.weight
  | .idle | .weightless => True

variable {log : List Int} {now : Int} {phase : CallerPhase}

theorem Unrecorded.recordedSince (unrecorded : phase.Unrecorded) (start : Int) :
    phase.recordedSince start = 0 := by
  cases phase with
  | admitted item putAt => exact unrecorded.elim
  | _ => rfl

theorem Unrecorded.of_pending {item : RateItem} (current : phase.pending = some item) :
    phase.Unrecorded := by
  cases phase with
  | admitted admitted putAt => cases current
  | _ => trivial

theorem Behind.mono {reached : Int} {kept : List Int} (behind : phase.Behind log now)
    (later : now ≤ reached) (part : ∀ stamp, stamp ∈ kept → stamp ∈ log) :
    phase.Behind kept reached := by
  have fewer : ∀ bound, (∀ stamp, stamp ∈ log → stamp ≤ bound) →
      ∀ stamp, stamp ∈ kept → stamp ≤ bound :=
    fun _bound newest stamp old => newest stamp (part stamp old)
  cases phase with
  | stamped item => exact ⟨behind.1, Int.le_trans behind.2.1 later, fewer _ behind.2.2⟩
  | refused item => exact ⟨behind.1, Int.le_trans behind.2.1 later, fewer _ behind.2.2⟩
  | planned item waitMs => exact ⟨behind.1, Int.le_trans behind.2.1 later, fewer _ behind.2.2⟩
  | resumed item => exact ⟨behind.1, Int.le_trans behind.2.1 later, fewer _ behind.2.2⟩
  | sleeping item sleepMs wakeAt => exact ⟨behind.1, behind.2.1, fewer _ behind.2.2⟩
  | _ => exact behind

theorem Behind.pending {item : RateItem} (behind : phase.Behind log now)
    (current : phase.pending = some item) :
    1 ≤ item.weight ∧ item.timestamp ≤ now ∧ ∀ stamp, stamp ∈ log → stamp ≤ item.timestamp := by
  cases phase with
  | stamped stamped =>
      cases current
      exact behind
  | resumed resumed =>
      cases current
      exact behind
  | _ => cases current

end CallerPhase

namespace Caller

variable {log : List Int} {now : Int}

theorem enter_unrecorded (name : String) (weight : Int) : (enter name weight).Unrecorded := by
  unfold enter
  split
  · trivial
  · split <;> trivial

theorem enter_behind (name : String) (weight : Int) : (enter name weight).Behind log now := by
  unfold enter
  split
  · trivial
  · split
    · trivial
    · simp only [CallerPhase.Behind]
      omega

theorem afterWaiting_unrecorded (item : RateItem) (answer : Except PyError Int) :
    (afterWaiting item answer).Unrecorded := by
  cases answer <;> trivial

theorem afterWaiting_behind {item : RateItem} (answer : Except PyError Int)
    (behind : (CallerPhase.refused item).Behind log now) :
    (afterWaiting item answer).Behind log now := by
  cases answer with
  | error raised => trivial
  | ok waitMs => exact behind

theorem afterPlanning_unrecorded (bufferMs : Nat) (time : ℚ) (item : RateItem) (waitMs : Int) :
    (afterPlanning bufferMs time item waitMs).Unrecorded := by
  unfold afterPlanning
  split <;> trivial

theorem afterPlanning_behind {bufferMs : Nat} {time : ℚ} {item : RateItem} {waitMs : Int}
    (behind : (CallerPhase.planned item waitMs).Behind log ⌊time⌋) :
    (afterPlanning bufferMs time item waitMs).Behind log ⌊time⌋ := by
  unfold afterPlanning
  cases slept : delayToSleepMs bufferMs waitMs with
  | none => trivial
  | some sleepMs =>
      have nonneg := buffer_le_delayToSleepMs slept
      refine ⟨behind.1, ?_, ?_⟩
      · rw [Int.floor_add_intCast]
        exact Int.add_le_add_right behind.2.1 sleepMs
      · intro stamp member
        have earlier := behind.2.2 stamp member
        omega

/-- What no later leak can forget and what has been returned or recorded agree, and an
admitted call fits beside all that its put could count. -/
structure Accounted (rates : RateList) (caller : Caller) : Prop where
  rates_eq : caller.bucket.rates = rates
  sorted : caller.bucket.Sorted
  past : ∀ stamp, stamp ∈ caller.bucket.stamps → stamp ≤ caller.now
  behind : caller.phase.Behind caller.bucket.stamps caller.now
  nonneg : ∀ entry, entry ∈ caller.returned → 0 ≤ entry.weight
  counted : ∀ start, leakBound rates caller.now ≤ start →
    returnedSince caller.returned start + caller.phase.recordedSince start ≤
      countSince caller.bucket.stamps start
  fits : ∀ item putAt, caller.phase = .admitted item putAt → ∀ rate, rate ∈ rates →
    returnedSince caller.returned (putAt - rate.interval) + item.weight ≤ rate.limit
  kept : caller.RealWindowsKept rates

namespace Accounted

variable {rates : RateList} {before after : Caller}

theorem start (rates : RateList) (time : ℚ) : Accounted rates (Caller.start rates time) where
  rates_eq := rfl
  sorted := .nil
  past := fun _stamp impossible => by cases impossible
  behind := trivial
  nonneg := fun _entry impossible => by cases impossible
  counted := fun _start _bounded => Int.le_refl 0
  fits := fun _item _putAt impossible => by cases impossible
  kept := fun rate _member _finish => Int.le_of_lt rate.limit_pos

/-- The call goes on to another phase in which it has not recorded anything yet. -/
theorem moved (accounted : Accounted rates before) {phase : CallerPhase}
    (unrecorded : before.phase.Unrecorded) (still : phase.Unrecorded)
    (behind : phase.Behind before.bucket.stamps before.now) :
    Accounted rates { before with phase := phase } where
  rates_eq := accounted.rates_eq
  sorted := accounted.sorted
  past := accounted.past
  behind := behind
  nonneg := accounted.nonneg
  counted := by
    intro start bounded
    have earlier := accounted.counted start bounded
    rw [unrecorded.recordedSince] at earlier
    rw [still.recordedSince]
    exact earlier
  fits := by
    intro item putAt recorded
    change phase = .admitted item putAt at recorded
    rw [recorded] at still
    exact still.elim
  kept := accounted.kept

theorem pass (accounted : Accounted rates before) {time : ℚ} (later : before.time ≤ time) :
    Accounted rates { before with time := time } where
  rates_eq := accounted.rates_eq
  sorted := accounted.sorted
  past := fun stamp member => Int.le_trans (accounted.past stamp member) (Int.floor_le_floor later)
  behind := accounted.behind.mono (Int.floor_le_floor later) (fun _stamp member => member)
  nonneg := accounted.nonneg
  counted := by
    intro start bounded
    refine accounted.counted start (Int.le_trans ?_ bounded)
    exact Int.sub_le_sub_right (Int.floor_le_floor later) _
  fits := accounted.fits
  kept := accounted.kept

/-- A leak forgets no stamp from the bound of the present on. -/
theorem leak (accounted : Accounted rates before) {currentTimestamp : Int}
    (past : currentTimestamp ≤ before.now) :
    Accounted rates { before with bucket := (before.bucket.leak currentTimestamp).2 } := by
  obtain ⟨forgotten, split, below⟩ :=
    InMemoryBucket.leak_splits accounted.sorted currentTimestamp
  have part : (before.bucket.leak currentTimestamp).2.stamps.Sublist before.bucket.stamps := by
    rw [split]
    exact List.sublist_append_right _ _
  refine
    { rates_eq := (InMemoryBucket.leak_rates _ _).trans accounted.rates_eq
      sorted := accounted.sorted.sublist part
      past := fun stamp member => accounted.past stamp (part.subset member)
      behind := accounted.behind.mono (Int.le_refl _) (fun stamp member => part.subset member)
      nonneg := accounted.nonneg
      counted := ?_
      fits := accounted.fits
      kept := accounted.kept }
  intro start bounded
  have earlier := accounted.counted start bounded
  rw [split, countSince_append, countSince_eq_zero, Nat.zero_add] at earlier
  · exact earlier
  · intro old member
    have gone := below old member
    rw [accounted.rates_eq] at gone
    unfold leakBound at gone bounded
    change currentTimestamp ≤ ⌊before.time⌋ at past
    simp only [Caller.now] at bounded
    omega

/-- A put is admitted beside all that it counts, and it counts what no leak has forgotten. -/
theorem put (accounted : Accounted rates before) {item : RateItem}
    (current : before.phase.pending = some item) :
    Accounted rates
      { before with
        bucket := (before.bucket.put item).2
        phase :=
          if (before.bucket.put item).1 then .admitted item before.now else .refused item } := by
  obtain ⟨positive, past, newest⟩ := accounted.behind.pending current
  have unrecorded := CallerPhase.Unrecorded.of_pending current
  rcases InMemoryBucket.put_cases accounted.sorted item positive with
    ⟨room, outcome⟩ | ⟨rate, refusing, outcome⟩
  · have grown : (before.bucket.put item).2.stamps =
        before.bucket.stamps ++ List.replicate item.weight.toNat item.timestamp := by
      rw [outcome, InMemoryBucket.stamps, InMemoryBucket.stamps, List.map_append,
        InMemoryBucket.stamps_unitsOf item positive]
    rw [accounted.rates_eq] at room
    rw [if_pos (congrArg Prod.fst outcome)]
    exact
      { rates_eq := (InMemoryBucket.put_rates _ _).trans accounted.rates_eq
        sorted := by
          unfold InMemoryBucket.Sorted
          rw [grown]
          exact sorted_append_replicate accounted.sorted newest item.weight.toNat
        past := by
          intro stamp member
          rw [grown] at member
          rcases List.mem_append.mp member with old | new
          · exact accounted.past stamp old
          · rw [List.eq_of_mem_replicate new]
            exact past
        behind := positive
        nonneg := accounted.nonneg
        counted := by
          intro start bounded
          have earlier := accounted.counted start bounded
          rw [unrecorded.recordedSince] at earlier
          rw [grown, countSince_append, CallerPhase.recordedSince]
          by_cases inside : start ≤ item.timestamp
          · rw [if_pos inside, countSince_replicate_of_le _ inside]
            push_cast
            omega
          · rw [if_neg inside]
            push_cast
            omega
        fits := by
          rintro other putAt ⟨⟩ rate member
          have wide := rates.interval_le_last rate member
          have earlier := accounted.counted (before.now - rate.interval) (by
            unfold leakBound
            omega)
          rw [unrecorded.recordedSince] at earlier
          have fits : (countSince before.bucket.stamps (item.timestamp - rate.interval) : Int) +
              item.weight ≤ rate.limit := RateList.forall_windows.mp room rate member
          have counted := countSince_antitone before.bucket.stamps
            (Int.sub_le_sub_right past rate.interval)
          simp only []
          omega
        kept := accounted.kept }
  · have sameStamps : (before.bucket.put item).2.stamps = before.bucket.stamps := by
      rw [outcome]
      rfl
    rw [if_neg (by rw [outcome]; exact Bool.false_ne_true)]
    exact
      { rates_eq := (InMemoryBucket.put_rates _ _).trans accounted.rates_eq
        sorted := by
          unfold InMemoryBucket.Sorted
          rw [sameStamps]
          exact accounted.sorted
        past := by rw [sameStamps]; exact accounted.past
        behind := by
          rw [sameStamps]
          exact ⟨positive, past, newest⟩
        nonneg := accounted.nonneg
        counted := by
          intro start bounded
          have earlier := accounted.counted start bounded
          rw [unrecorded.recordedSince] at earlier
          rw [sameStamps]
          exact earlier
        fits := fun _item _putAt impossible => by cases impossible
        kept := accounted.kept }

/-- A return whose put could still count every call that returned within an interval. -/
theorem returned (accounted : Accounted rates before) {item : RateItem} {putAt : Int}
    (current : before.phase = .admitted item putAt) (counted : before.StillCounted .returnTrue) :
    Accounted rates
      { before with
        phase := .idle
        returned := before.returned ++
          [{ time := before.time, stamp := item.timestamp, weight := item.weight }] } := by
  have positive := accounted.behind
  rw [current] at positive
  have weighty : 1 ≤ item.weight := positive
  simp only [StillCounted, current] at counted
  refine
    { rates_eq := accounted.rates_eq
      sorted := accounted.sorted
      past := accounted.past
      behind := trivial
      nonneg := ?_
      counted := ?_
      fits := fun _item _putAt impossible => by cases impossible
      kept := ?_ }
  · intro entry member
    rcases List.mem_append.mp member with old | new
    · exact accounted.nonneg entry old
    · rw [List.mem_singleton.mp new]
      exact Int.le_trans Int.one_nonneg weighty
  · intro start bounded
    have earlier := accounted.counted start bounded
    rw [current] at earlier
    rw [returnedSince_append]
    simp only [CallerPhase.recordedSince] at earlier ⊢
    omega
  · intro rate member finish
    have earlier := accounted.kept rate member finish
    rw [returnedBetween_append]
    by_cases inside : finish - (rate.interval : ℚ) ≤ before.time ∧ before.time ≤ finish
    · -- The span ends after the return, so what lies in it was still counted by the put.
      rw [if_pos inside]
      have seen : returnedBetween before.returned (finish - (rate.interval : ℚ)) finish ≤
          returnedSince before.returned (putAt - rate.interval) := by
        apply returnedBetween_le accounted.nonneg
        intro entry present recent
        apply counted rate (by rw [accounted.rates_eq]; exact member) entry present
        linarith [inside.2]
      have fits := accounted.fits item putAt current rate member
      simp only []
      omega
    · rw [if_neg inside, Int.add_zero]
      exact earlier

theorem returnedWeightless (accounted : Accounted rates before)
    (current : before.phase = .weightless) :
    Accounted rates
      { before with
        phase := .idle
        returned := before.returned ++
          [{ time := before.time, stamp := before.now, weight := 0 }] } := by
  refine
    { rates_eq := accounted.rates_eq
      sorted := accounted.sorted
      past := accounted.past
      behind := trivial
      nonneg := ?_
      counted := ?_
      fits := fun _item _putAt impossible => by cases impossible
      kept := ?_ }
  · intro entry member
    rcases List.mem_append.mp member with old | new
    · exact accounted.nonneg entry old
    · rw [List.mem_singleton.mp new]
  · intro start bounded
    have earlier := accounted.counted start bounded
    rw [current] at earlier
    rw [returnedSince_append, ite_self, Int.add_zero]
    exact earlier
  · intro rate member finish
    rw [returnedBetween_append, ite_self, Int.add_zero]
    exact accounted.kept rate member finish

theorem step {bufferMs : Nat} {action : CallerAction} (accounted : Accounted rates before)
    (counted : before.StillCounted action) (taken : before.step bufferMs action = some after) :
    Accounted rates after := by
  cases action with
  | pass time =>
      simp only [Caller.step] at taken
      split at taken
      · rename_i later
        cases taken
        exact accounted.pass later
      · cases taken
  | tryAcquire name weight =>
      simp only [Caller.step] at taken
      split at taken
      · rename_i idle
        cases taken
        have unrecorded : before.phase.Unrecorded := by rw [idle]; trivial
        exact accounted.moved unrecorded (enter_unrecorded name weight) (enter_behind name weight)
      · cases taken
  | wrapItem =>
      simp only [Caller.step] at taken
      split at taken
      · rename_i name weight entered
        cases taken
        have unrecorded : before.phase.Unrecorded := by rw [entered]; trivial
        have positive := accounted.behind
        rw [entered] at positive
        exact accounted.moved unrecorded trivial ⟨positive, Int.le_refl _, accounted.past⟩
      · cases taken
  | put =>
      simp only [Caller.step] at taken
      split at taken
      · rename_i item current
        cases taken
        exact accounted.put current
      · cases taken
  | computeWait =>
      simp only [Caller.step] at taken
      split at taken
      · rename_i item refused
        cases taken
        have unrecorded : before.phase.Unrecorded := by rw [refused]; trivial
        have behind := accounted.behind
        rw [refused] at behind
        exact accounted.moved unrecorded (afterWaiting_unrecorded item _)
          (afterWaiting_behind _ behind)
      · cases taken
  | sleep =>
      simp only [Caller.step] at taken
      split at taken
      · rename_i item waitMs planned
        cases taken
        have unrecorded : before.phase.Unrecorded := by rw [planned]; trivial
        have behind := accounted.behind
        rw [planned] at behind
        exact accounted.moved unrecorded (afterPlanning_unrecorded bufferMs before.time item waitMs)
          (afterPlanning_behind behind)
      · cases taken
  | wake =>
      simp only [Caller.step] at taken
      split at taken
      · rename_i item sleepMs wakeAt asleep
        split at taken
        · rename_i awake
          cases taken
          have unrecorded : before.phase.Unrecorded := by rw [asleep]; trivial
          have behind := accounted.behind
          rw [asleep] at behind
          exact accounted.moved unrecorded trivial
            ⟨behind.1, Int.le_trans behind.2.1 (Int.floor_le_floor awake), behind.2.2⟩
        · cases taken
      · cases taken
  | returnTrue =>
      simp only [Caller.step] at taken
      split at taken
      · rename_i item putAt current
        cases taken
        exact accounted.returned current counted
      · rename_i current
        cases taken
        exact accounted.returnedWeightless current
      · cases taken
  | leak currentTimestamp =>
      simp only [Caller.step] at taken
      split at taken
      · rename_i past
        cases taken
        exact accounted.leak past
      · cases taken

end Accounted

end Caller

/-- A single caller keeps every window of real time within its limit as long as the put of
each call that returns `True` could count whatever had returned within an interval before. -/
theorem caller_keeps_real_windows (bufferMs : Nat) (rates : RateList) (time : ℚ)
    (actions : List CallerAction)
    (counted : StepsMeet (Caller.step bufferMs) Caller.StillCounted (Caller.start rates time)
      actions) :
    Always (Caller.step bufferMs) (Caller.RealWindowsKept rates) (Caller.start rates time)
      actions :=
  (Always.of_invariant
    (fun _before _action _after accounted counted taken =>
      Caller.Accounted.step accounted counted taken)
    (Caller.Accounted.start rates time) counted).imp
      (fun _caller accounted => accounted.kept)

/-- The second call is stamped half a millisecond after it begins, oversleeps by nine
milliseconds, and returns one after its put.  A third call has room beside it, and leaks
come between. -/
def lateRetryInRealTime : List CallerAction :=
  [.tryAcquire "first" 2, .wrapItem, .put, .returnTrue,
    .pass 30, .tryAcquire "second" 2, .pass (61 / 2), .wrapItem, .put, .leak 30, .computeWait,
    .sleep, .pass (221 / 2), .wake, .leak 110, .put, .pass (223 / 2), .returnTrue,
    .tryAcquire "third" 1, .wrapItem, .put, .pass 112, .returnTrue]

theorem caller_keeps_real_windows_lateRetry :
    (exec (Caller.step 0) (Caller.start threeRequestsIn100 0) lateRetryInRealTime).map
        (fun final => final.returned.map (fun entry => (entry.time, entry.stamp))) =
      some [(0, 0), (223 / 2, 101), (112, 111)] ∧
      Always (Caller.step 0) (Caller.RealWindowsKept threeRequestsIn100)
        (Caller.start threeRequestsIn100 0) lateRetryInRealTime :=
  ⟨by decide +kernel, caller_keeps_real_windows 0 threeRequestsIn100 0 lateRetryInRealTime
    (by decide +kernel)⟩

/-- The second call plans to sleep 151 milliseconds and sleeps a second; a third call
follows at once. -/
def oversleeping : List CallerAction :=
  [.tryAcquire "first" 1, .wrapItem, .put, .returnTrue,
    .tryAcquire "second" 1, .wrapItem, .put, .computeWait, .sleep, .pass 1000, .wake, .put,
    .returnTrue, .tryAcquire "third" 1, .wrapItem, .put, .returnTrue]

theorem oversleeping_overfills_window :
    (exec (Caller.step 50) (Caller.start oneRequestIn100 0) oversleeping).map
        (fun final => returnedBetween final.returned 900 1000) = some 2 ∧
      ¬Always (Caller.step 50) (Caller.RealWindowsKept oneRequestIn100)
        (Caller.start oneRequestIn100 0) oversleeping := by
  have ran : (exec (Caller.step 50) (Caller.start oneRequestIn100 0) oversleeping).map
      (fun final => returnedBetween final.returned 900 1000) = some 2 := by
    decide +kernel
  refine ⟨ran, ?_⟩
  obtain ⟨final, run, counted⟩ := Option.map_eq_some_iff.mp ran
  intro always
  have kept := always.reached run oneRequestIn100.first oneRequestIn100.first_mem 1000
  have interval : (1000 : ℚ) - (oneRequestIn100.first.interval : ℚ) = 900 := by
    norm_num [oneRequestIn100, RateList.first]
  have limit : oneRequestIn100.first.limit = 1 := rfl
  rw [interval, counted, limit] at kept
  omega

end PyrateLimiter
