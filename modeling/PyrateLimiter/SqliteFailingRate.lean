/-
The failing rate that a SQLite bucket names.

A refused put names the rate that refused it and a flush clears the name, but a put
that is admitted leaves it as it was.  The run below keeps beside the bucket the rate
that the name ought to be.  The other buckets clear it when they admit.
-/

import PyrateLimiter.Foundations.TransitionSystem
import PyrateLimiter.PostgresWaiting
import PyrateLimiter.RedisBucket
import PyrateLimiter.SqliteBucket

namespace PyrateLimiter

open Foundations.TransitionSystem
open Foundations.WindowLog

def SqliteBucket.waiting (bucket : SqliteBucket) (item : RateItem) : Except PyError Int :=
  PyrateLimiter.waiting bucket.failingRate bucket.peek item

theorem waiting_of_none (peek : Int → Option RateItem) (item : RateItem) :
    waiting none peek item = .ok 0 := rfl

inductive SqliteCall where
  | put (item : RateItem)
  | leak (now : Int)
  | flush
  deriving DecidableEq, Repr

structure SqliteRun where
  bucket : SqliteBucket
  /-- The rate that refused the most recent put, unless a flush came after it. -/
  refusedBy : Option Rate
  /-- The most recent put or flush was a put that was admitted. -/
  admitted : Bool

namespace SqliteRun

def start (rates : RateList) (rows : List SqliteRow) : SqliteRun :=
  { bucket := { rates := rates, rows := rows, failingRate := none }
    refusedBy := none
    admitted := false }

/-- Which rate refuses a put is read off the windows, not off the bucket. -/
def step (run : SqliteRun) : SqliteCall → Option SqliteRun
  | .put item =>
      let (acquired, bucket) := run.bucket.put item
      match acquired with
      | .error _ => some { run with bucket := bucket }
      | .ok true => some { bucket := bucket, refusedBy := none, admitted := true }
      | .ok false =>
          some
            { bucket := bucket
              refusedBy :=
                run.bucket.rates.refusing run.bucket.stamps item.timestamp item.weight
              admitted := false }
  | .leak now => some { run with bucket := (run.bucket.leak now).2 }
  | .flush => some { bucket := run.bucket.flush, refusedBy := none, admitted := false }

/-- The failing rate is the one of the most recent put or flush, and nobody is told to
wait after a put that was admitted. -/
structure Current (run : SqliteRun) : Prop where
  names : run.bucket.failingRate = run.refusedBy
  ready : run.admitted = true → ∀ item, run.bucket.waiting item = .ok 0

/-- Where a put finds room, no rate is named from before. -/
def AdmitsUnnamed (run : SqliteRun) : SqliteCall → Prop
  | .put item =>
      Room run.bucket.rates.windows run.bucket.stamps item.timestamp item.weight →
        run.bucket.failingRate = none
  | .leak _ | .flush => True

/-- The name is the one kept beside the bucket, and after an admission there is none. -/
structure Invariant (run : SqliteRun) : Prop where
  names : run.bucket.failingRate = run.refusedBy
  cleared : run.admitted = true → run.refusedBy = none

theorem Invariant.current {run : SqliteRun} (invariant : Invariant run) : Current run where
  names := invariant.names
  ready := by
    intro admitted item
    unfold SqliteBucket.waiting
    rw [invariant.names, invariant.cleared admitted]
    exact waiting_of_none _ item

variable {before after : SqliteRun}

/-- What a put does to a run: it is refused and named so, or admitted with the name left. -/
theorem step_put {item : RateItem} (taken : before.step (.put item) = some after) :
    (∃ rate, before.bucket.rates.refusing before.bucket.stamps item.timestamp item.weight =
        some rate ∧
      after =
        { bucket := { before.bucket with failingRate := some rate }
          refusedBy := some rate
          admitted := false }) ∨
    Room before.bucket.rates.windows before.bucket.stamps item.timestamp item.weight ∧
      after.bucket.failingRate = before.bucket.failingRate ∧ after.refusedBy = none ∧
      after.admitted = true := by
  simp only [step, SqliteBucket.put_eq] at taken
  cases refused :
      before.bucket.rates.refusing before.bucket.stamps item.timestamp item.weight with
  | some rate =>
      rw [refused] at taken
      cases taken
      exact Or.inl ⟨rate, rfl, rfl⟩
  | none =>
      rw [refused] at taken
      cases taken
      exact Or.inr ⟨RateList.refusing_eq_none_iff.mp refused, rfl, rfl, rfl⟩

theorem Invariant.step {call : SqliteCall} (invariant : Invariant before)
    (unnamed : before.AdmitsUnnamed call) (taken : before.step call = some after) :
    Invariant after := by
  cases call with
  | put item =>
      rcases step_put taken with ⟨rate, _refused, rfl⟩ | ⟨room, kept, cleared, _admitted⟩
      · exact ⟨rfl, fun impossible => by cases impossible⟩
      · refine ⟨?_, fun _admitted => cleared⟩
        rw [kept, cleared]
        exact unnamed room
  | leak now =>
      cases taken
      exact ⟨invariant.names, invariant.cleared⟩
  | flush =>
      cases taken
      exact ⟨rfl, fun impossible => by cases impossible⟩

/-- A put that is admitted while a rate is named leaves the name. -/
theorem stale_of_named {call : SqliteCall} (named : ¬before.AdmitsUnnamed call)
    (taken : before.step call = some after) : ¬Current after := by
  cases call with
  | put item =>
      simp only [AdmitsUnnamed, Classical.not_imp] at named
      obtain ⟨room, failing⟩ := named
      rcases step_put taken with ⟨rate, refused, _after⟩ | ⟨_room, kept, cleared, _admitted⟩
      · rw [RateList.refusing_eq_none_iff.mpr room] at refused
        cases refused
      · intro current
        have same := current.names
        rw [kept, cleared] at same
        exact failing same
  | leak now => exact absurd trivial named
  | flush => exact absurd trivial named

end SqliteRun

/-- In a run from any table the failing rate is current after every operation exactly if
every put that finds room comes while no rate is named. -/
theorem failingRate_current_iff (rates : RateList) (rows : List SqliteRow)
    (calls : List SqliteCall) :
    Always SqliteRun.step SqliteRun.Current (SqliteRun.start rates rows) calls ↔
      StepsMeet SqliteRun.step SqliteRun.AdmitsUnnamed (SqliteRun.start rates rows) calls := by
  have start : SqliteRun.Invariant (SqliteRun.start rates rows) :=
    ⟨rfl, fun impossible => by cases impossible⟩
  have sound : ∀ run, SqliteRun.Invariant run → SqliteRun.Current run :=
    fun _run invariant => invariant.current
  apply always_iff_stepsMeet sound _ _ start
  · intro before call after invariant unnamed taken
    exact invariant.step unnamed taken
  · intro before call after _invariant named taken
    exact SqliteRun.stale_of_named named taken

/-- One unit is put and another refused, the first is leaked, and the second admitted. -/
def refusedThenAdmitted : List SqliteCall :=
  [.put ⟨"a", 0, 1⟩, .put ⟨"b", 50, 1⟩, .leak 150, .put ⟨"b", 150, 1⟩]

theorem refusedThenAdmitted_named :
    (exec SqliteRun.step (SqliteRun.start oneRequestIn100 []) refusedThenAdmitted).map
        (fun run => (run.admitted, run.bucket.failingRate.isSome, run.refusedBy)) =
      some (true, true, none) ∧
    (exec SqliteRun.step (SqliteRun.start oneRequestIn100 []) refusedThenAdmitted).map
        (fun run => run.bucket.waiting ⟨"c", 150, 1⟩) = some (.ok 101) ∧
    ¬Always SqliteRun.step SqliteRun.Current (SqliteRun.start oneRequestIn100 [])
      refusedThenAdmitted := by
  have ran : (exec SqliteRun.step (SqliteRun.start oneRequestIn100 []) refusedThenAdmitted).map
      (fun run => (run.admitted, run.bucket.failingRate.isSome, run.refusedBy)) =
        some (true, true, none) := by decide
  refine ⟨ran, by decide, ?_⟩
  obtain ⟨final, run, shape⟩ := Option.map_eq_some_iff.mp ran
  simp only [Prod.mk.injEq] at shape
  obtain ⟨_admitted, named, unrefused⟩ := shape
  intro always
  have same := (always.reached run).names
  rw [same, unrefused] at named
  cases named

/-! ### The other buckets -/

theorem InMemoryBucket.waiting_of_admitted {bucket : InMemoryBucket} {item : RateItem}
    (positive : 1 ≤ item.weight) (admitted : (bucket.put item).1 = true) (other : RateItem) :
    (bucket.put item).2.waiting other = .ok 0 := by
  have cleared : (bucket.put item).2.failingRate = none := by
    unfold put at admitted ⊢
    split
    · rename_i weightless
      omega
    · rename_i weighty
      rw [if_neg weighty] at admitted
      simp only [] at admitted ⊢
      split at admitted
      · cases admitted
      · rfl
  unfold waiting
  rw [cleared]
  exact waiting_of_none _ other

theorem PostgresBucket.waiting_of_admitted {toTimestamp : Int → Int} {bucket : PostgresBucket}
    {item : RateItem} {lockGranted : Bool} (positive : 1 ≤ item.weight)
    (admitted : (bucket.put toTimestamp item lockGranted).1 = .ok true) (other : RateItem) :
    (bucket.put toTimestamp item lockGranted).2.waiting other = .ok 0 := by
  have cleared := (put_admitted admitted).2 (by omega)
  unfold waiting
  rw [cleared]
  exact waiting_of_none _ other

theorem RedisBucket.waiting_of_admitted {bucket after : RedisBucket} {set kept : RedisSet}
    {item : RateItem} {id : String}
    (admitted : bucket.put set item id = some (true, after, kept)) (other : RateItem) :
    PyrateLimiter.waiting after.failingRate (after.peek kept) other = .ok 0 := by
  rw [put_eq] at admitted
  split at admitted
  · cases admitted
  · cases admitted
    exact waiting_of_none _ other

end PyrateLimiter
