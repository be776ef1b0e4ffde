/-
The SQLite bucket.

The table holds one row for each unit.  A put counts every window in one query,
whose rows come back in ascending order of their first column, and leaves the
decision to the shared algorithm.  A leak counts the rows below the bound and
then deletes that many of the oldest rows.
-/

import Mathlib.Data.List.Dedup
import PyrateLimiter.Bucket
import PyrateLimiter.Foundations.OrderBy

namespace PyrateLimiter

open Foundations.OrderBy
open Foundations.WindowLog

/-- A row of the bucket table, with the row id that SQLite gives it. -/
structure SqliteRow where
  rowid : Nat
  name : String
  itemTimestamp : Int
  deriving DecidableEq, Repr

structure SqliteBucket where
  rates : RateList
  rows : List SqliteRow
  failingRate : Option Rate

namespace SqliteBucket

def empty (rates : RateList) : SqliteBucket :=
  { rates := rates
    rows := []
    failingRate := none }

/-- `COUNT_BEFORE_INSERT` for one rate. -/
def countBeforeInsert (rows : List SqliteRow) (currentTimestamp : Int) (rate : Rate) : Int × Int :=
  (rate.interval,
    (rows.countP (fun row => currentTimestamp - rate.interval ≤ row.itemTimestamp) : Nat))

/-- A `UNION` drops repeated rows and orders the others by their first column. -/
def union (rows : List (Int × Int)) : List (Int × Int) := orderBy Prod.fst rows.dedup

/-- The result of the query that `_build_full_count_query` composes. -/
def fullCount (bucket : SqliteBucket) (currentTimestamp : Int) : List (Int × Int) :=
  match bucket.rates.toList.map (countBeforeInsert bucket.rows currentTimestamp) with
  | [] => []
  | [row] => [row]
  | row :: other :: rest => union (row :: other :: rest)

/-- The loop of `put` that lines the counts up with the rates. -/
def alignCounts : List (Int × Int) → List Rate → Except PyError (List Int)
  | [], [] => .ok []
  | (interval, count) :: rows, rate :: rates =>
      if interval = rate.interval then do
        let counts ← alignCounts rows rates
        .ok (count :: counts)
      else .error (.assertionError "")
  | _ :: _, [] => .error (.valueError "zip() argument 2 is shorter than argument 1")
  | [], _ :: _ => .error (.valueError "zip() argument 2 is longer than argument 1")

def nextRowid (rows : List SqliteRow) : Nat := (rows.map SqliteRow.rowid).foldr max 0 + 1

/-- `PUT_ITEM`, executed for as many rows as are left to insert. -/
def insertRows (item : RateItem) : Nat → List SqliteRow → List SqliteRow
  | 0, rows => rows
  | units + 1, rows =>
      insertRows item units
        (rows ++
          [{ rowid := nextRowid rows
             name := item.name
             itemTimestamp := item.timestamp }])

def put (bucket : SqliteBucket) (item : RateItem) : Except PyError Bool × SqliteBucket :=
  let decided := do
    let counts ← alignCounts (bucket.fullCount item.timestamp) bucket.rates.toList
    admitDecision bucket.rates.toList counts item.weight
  match decided with
  | .error raised => (.error raised, bucket)
  | .ok decision =>
      if decision.allowed then
        (.ok true, { bucket with rows := insertRows item item.weight.toNat bucket.rows })
      else (.ok false, { bucket with failingRate := decision.failingRate })

/-- `COUNT_BEFORE_LEAK`, then `LEAK` of as many of the oldest rows. -/
def leak (bucket : SqliteBucket) (currentTimestamp : Int) : Int × SqliteBucket :=
  let lowerBound := leakBound bucket.rates currentTimestamp
  let count := bucket.rows.countP (fun row => row.itemTimestamp < lowerBound)
  let oldest := ((orderBy SqliteRow.itemTimestamp bucket.rows).take count).map SqliteRow.rowid
  (count, { bucket with rows := bucket.rows.filter (fun row => row.rowid ∉ oldest) })

def flush (bucket : SqliteBucket) : SqliteBucket :=
  { bucket with
    rows := []
    failingRate := none }

def count (bucket : SqliteBucket) : Int := bucket.rows.length

/-- `PEEK`; the item is built with the default weight. -/
def peek (bucket : SqliteBucket) (index : Int) : Option RateItem :=
  ((orderByDesc SqliteRow.itemTimestamp bucket.rows)[index.toNat]?).map
    (fun row => { name := row.name, timestamp := row.itemTimestamp, weight := 1 })

def stamps (bucket : SqliteBucket) : List Int := bucket.rows.map SqliteRow.itemTimestamp

/-! ### What the statements do -/

theorem alignCounts_map (rates : List Rate) (count : Rate → Int) :
    alignCounts (rates.map (fun rate => (rate.interval, count rate))) rates =
      .ok (rates.map count) := by
  induction rates with
  | nil => rfl
  | cons rate rest ih =>
      simp only [List.map_cons, alignCounts, if_true, ih]
      rfl

/-- Intervals increase strictly, so the rows of the union are one for each rate,
in the order of the rates. -/
theorem union_map (rates : RateList) (count : Rate → Int) :
    union (rates.toList.map (fun rate => (rate.interval, count rate))) =
      rates.toList.map (fun rate => (rate.interval, count rate)) := by
  have increasing : (rates.toList.map (fun rate => (rate.interval, count rate))).Pairwise
      (fun left right => left.1 < right.1) :=
    List.pairwise_map.mpr (rates.pairwise.imp (fun both => both.1))
  have distinct : (rates.toList.map (fun rate => (rate.interval, count rate))).Nodup := by
    apply increasing.imp
    intro left right smaller same
    rw [same] at smaller
    exact absurd smaller (Int.lt_irrefl _)
  unfold union orderBy
  rw [distinct.dedup]
  exact (increasing.imp (fun smaller => Int.le_of_lt smaller)).insertionSort_eq

theorem fullCount_eq (bucket : SqliteBucket) (currentTimestamp : Int) :
    bucket.fullCount currentTimestamp =
      bucket.rates.toList.map (fun rate =>
        (rate.interval, (countSince bucket.stamps (currentTimestamp - rate.interval) : Int))) := by
  have counted : countBeforeInsert bucket.rows currentTimestamp = fun rate =>
      (rate.interval, (countSince bucket.stamps (currentTimestamp - rate.interval) : Int)) := by
    funext rate
    unfold countBeforeInsert countSince stamps
    rw [List.countP_map]
    rfl
  have ordered := union_map bucket.rates
    (fun rate => (countSince bucket.stamps (currentTimestamp - rate.interval) : Int))
  unfold fullCount
  rw [counted]
  split
  · rename_i shape
    rw [shape]
  · rename_i row shape
    rw [shape]
  · rename_i row other rest shape
    rw [← shape]
    exact ordered

theorem stamps_insertRows (item : RateItem) (units : Nat) (rows : List SqliteRow) :
    (insertRows item units rows).map SqliteRow.itemTimestamp =
      rows.map SqliteRow.itemTimestamp ++ List.replicate units item.timestamp := by
  induction units generalizing rows with
  | zero => exact (List.append_nil _).symm
  | succ units ih =>
      simp only [insertRows, ih, List.map_append, List.map_cons, List.map_nil,
        List.append_assoc, List.replicate_succ, List.singleton_append]

theorem lt_nextRowid {rows : List SqliteRow} {row : SqliteRow} (member : row ∈ rows) :
    row.rowid < nextRowid rows := by
  unfold nextRowid
  induction rows with
  | nil => cases member
  | cons first rest ih =>
      simp only [List.map_cons, List.foldr_cons]
      rcases List.mem_cons.mp member with same | remaining
      · rw [same]
        omega
      · have later := ih remaining
        omega

theorem nodup_insertRows (item : RateItem) (units : Nat) {rows : List SqliteRow}
    (distinct : (rows.map SqliteRow.rowid).Nodup) :
    ((insertRows item units rows).map SqliteRow.rowid).Nodup := by
  induction units generalizing rows with
  | zero => exact distinct
  | succ units ih =>
      apply ih
      rw [List.map_append]
      refine List.nodup_append.mpr ⟨distinct, List.nodup_singleton _, ?_⟩
      intro old present new member same
      obtain ⟨row, rowMember, rfl⟩ := List.mem_map.mp present
      have newest : new = nextRowid rows := List.mem_singleton.mp member
      have earlier := lt_nextRowid rowMember
      omega

theorem decision_eq (bucket : SqliteBucket) (item : RateItem) :
    (do
      let counts ← alignCounts (bucket.fullCount item.timestamp) bucket.rates.toList
      admitDecision bucket.rates.toList counts item.weight) =
      .ok
        { failingRate := bucket.rates.refusing bucket.stamps item.timestamp item.weight } := by
  rw [fullCount_eq, alignCounts_map bucket.rates.toList
    (fun rate => (countSince bucket.stamps (item.timestamp - rate.interval) : Int))]
  exact bucket.rates.admit_counts bucket.stamps item.timestamp item.weight

/-- The put decides by the counts of the windows and adds one row for each unit. -/
theorem put_eq (bucket : SqliteBucket) (item : RateItem) :
    bucket.put item =
      match bucket.rates.refusing bucket.stamps item.timestamp item.weight with
      | some rate => (.ok false, { bucket with failingRate := some rate })
      | none => (.ok true, { bucket with rows := insertRows item item.weight.toNat bucket.rows }) := by
  unfold put
  rw [decision_eq]
  cases bucket.rates.refusing bucket.stamps item.timestamp item.weight <;> rfl

/-- The oldest rows, as many as lie below the bound, are the rows below the bound. -/
theorem leak_eq {bucket : SqliteBucket} (distinct : (bucket.rows.map SqliteRow.rowid).Nodup)
    (now : Int) :
    bucket.leak now =
      (((bucket.rows.countP
          (fun row => row.itemTimestamp < leakBound bucket.rates now) : Nat) : Int),
        { bucket with
          rows := bucket.rows.filter
            (fun row => leakBound bucket.rates now ≤ row.itemTimestamp) }) := by
  have oldest := take_orderBy_perm SqliteRow.itemTimestamp bucket.rows (leakBound bucket.rates now)
  unfold leak
  simp only []
  congr 2
  apply List.filter_congr
  intro row member
  rw [decide_eq_decide, (oldest.map SqliteRow.rowid).mem_iff, List.mem_map]
  constructor
  · intro kept
    apply Int.not_lt.mp
    intro below
    exact kept ⟨row, List.mem_filter.mpr ⟨member, decide_eq_true below⟩, rfl⟩
  · rintro reached ⟨other, otherMember, same⟩
    obtain ⟨present, below⟩ := List.mem_filter.mp otherMember
    rw [List.inj_on_of_nodup_map distinct present member same] at below
    exact absurd reached (Int.not_le.mpr (of_decide_eq_true below))

/-- In a table filled in clock order the peeked row is counted from the newest. -/
theorem peek_timestamp {bucket : SqliteBucket} (sorted : bucket.stamps.Pairwise (· ≤ ·))
    (index : Int) :
    (bucket.peek index).map RateItem.timestamp = bucket.stamps.reverse[index.toNat]? := by
  have reversed : (orderByDesc SqliteRow.itemTimestamp bucket.rows).map SqliteRow.itemTimestamp =
      bucket.stamps.reverse := map_orderByDesc sorted
  unfold peek
  rw [← reversed, List.getElem?_map, Option.map_map]
  rfl

end SqliteBucket

end PyrateLimiter
