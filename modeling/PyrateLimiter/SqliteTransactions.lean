/-
The statements of the SQLite bucket on its connection.

Every operation that writes ends with a commit, and none rolls back.  A put inserts
the units of an item one by one, so an exception from one of its statements or from
its commit leaves the units inserted so far in the open transaction.  Every later
operation counts them, and the next commit of any of them makes them permanent.  No other
connection works on the file here: one would notice the transaction that stays open also
where it holds no row.
-/

import PyrateLimiter.BucketEquivalence
import PyrateLimiter.Foundations.Transactions

namespace PyrateLimiter

open Foundations.OrderBy
open Foundations.Transactions
open Foundations.WindowLog

structure SqliteStore where
  rates : RateList
  connection : Connection (List SqliteRow)
  failingRate : Option Rate

namespace SqliteStore

/-- The bucket as its own connection sees it. -/
def bucket (store : SqliteStore) : SqliteBucket :=
  { rates := store.rates
    rows := store.connection.table
    failingRate := store.failingRate }

/-- `PUT_ITEM` for one row. -/
def insertRow (item : RateItem) (rows : List SqliteRow) : List SqliteRow :=
  rows ++
    [{ rowid := SqliteBucket.nextRowid rows
       name := item.name
       itemTimestamp := item.timestamp }]

/-- `put`, whose database work fails at a given point if at all. -/
def put (store : SqliteStore) (item : RateItem) (failure : Option (Failure PyError)) :
    Except PyError Bool × SqliteStore :=
  let decided := do
    let counts ← SqliteBucket.alignCounts (store.bucket.fullCount item.timestamp)
      store.rates.toList
    admitDecision store.rates.toList counts item.weight
  match decided with
  | .error raised => (.error raised, store)
  | .ok decision =>
      if decision.allowed then
        let (done, connection) :=
          store.connection.work (List.replicate item.weight.toNat (insertRow item)) failure
        (done.map (fun _ => true), { store with connection := connection })
      else (.ok false, { store with failingRate := decision.failingRate })

def leak (store : SqliteStore) (currentTimestamp : Int) (failure : Option (Failure PyError)) :
    Except PyError Int × SqliteStore :=
  let lowerBound := leakBound store.rates currentTimestamp
  let rows := store.connection.table
  let count := rows.countP (fun row => row.itemTimestamp < lowerBound)
  let delete := fun rows : List SqliteRow =>
    let oldest := ((orderBy SqliteRow.itemTimestamp rows).take count).map SqliteRow.rowid
    rows.filter (fun row => row.rowid ∉ oldest)
  let (done, connection) := store.connection.work [delete] failure
  (done.map (fun _ => (count : Int)), { store with connection := connection })

def flush (store : SqliteStore) (failure : Option (Failure PyError)) :
    Except PyError Unit × SqliteStore :=
  let (done, connection) := store.connection.work [fun _rows => []] failure
  match done with
  | .ok _ => (.ok (), { store with connection := connection, failingRate := none })
  | .error raised => (.error raised, { store with connection := connection })

/-- One request; a failing read raises and changes nothing. -/
def answer (store : SqliteStore) (failure : Option (Failure PyError)) :
    BucketRequest → Except PyError BucketAnswer × SqliteStore
  | .put item => ((store.put item failure).1.map .put, (store.put item failure).2)
  | .leak now => ((store.leak now failure).1.map .leak, (store.leak now failure).2)
  | .flush => ((store.flush failure).1.map (fun _ => .flush), (store.flush failure).2)
  | .count =>
      match failure with
      | none => (.ok (.count store.bucket.count), store)
      | some failure => (.error failure.raised, store)
  | .peek index =>
      match failure with
      | none => (.ok (.peek ((store.bucket.peek index).map RateItem.timestamp)), store)
      | some failure => (.error failure.raised, store)

/-- What can be observed of one request: its answer, and the rows that are committed and
the failing rate that is named after it. -/
structure Observation where
  answer : Except PyError BucketAnswer
  committed : List SqliteRow
  failingRate : Option Rate

def observe (store : SqliteStore) :
    List (BucketRequest × Option (Failure PyError)) → List Observation
  | [] => []
  | (request, failure) :: rest =>
      let (answer, after) := store.answer failure request
      { answer := answer
        committed := after.connection.committed
        failingRate := after.failingRate } :: after.observe rest

/-- No later operations, failing ones among them, tell the two stores apart. -/
def LeftAsItWas (before after : SqliteStore) : Prop :=
  before.connection.committed = after.connection.committed ∧
    ∀ requests, before.observe requests = after.observe requests

/-! ### Without a failure -/

theorem changed_insertRow (item : RateItem) (units : Nat) (rows : List SqliteRow) :
    Connection.changed (List.replicate units (insertRow item)) rows =
      SqliteBucket.insertRows item units rows := by
  induction units generalizing rows with
  | zero => rfl
  | succ units ih => exact ih (insertRow item rows)

/-- A put is refused by a rate and does no work, or works through the inserts. -/
theorem put_eq (store : SqliteStore) (item : RateItem) (failure : Option (Failure PyError)) :
    store.put item failure =
      match store.rates.refusing store.bucket.stamps item.timestamp item.weight with
      | some rate => (.ok false, { store with failingRate := some rate })
      | none =>
          let worked :=
            store.connection.work (List.replicate item.weight.toNat (insertRow item)) failure
          (worked.1.map (fun _ => true), { store with connection := worked.2 }) := by
  have sameRates : store.bucket.rates = store.rates := rfl
  have decided := SqliteBucket.decision_eq store.bucket item
  rw [sameRates] at decided
  unfold put
  rw [decided]
  cases store.rates.refusing store.bucket.stamps item.timestamp item.weight <;> rfl

/-- Requests whose work is done are those of the bucket that the connection sees. -/
theorem answer_done (store : SqliteStore) (request : BucketRequest) :
    (store.answer none request).1 = (store.bucket.answer request).1 ∧
      (store.answer none request).2.bucket = (store.bucket.answer request).2 := by
  cases request with
  | put item =>
      have sameRates : store.bucket.rates = store.rates := rfl
      simp only [answer, SqliteBucket.answer, put_eq, SqliteBucket.put_eq, sameRates]
      cases store.rates.refusing store.bucket.stamps item.timestamp item.weight with
      | some rate => exact ⟨rfl, rfl⟩
      | none =>
          simp only [Connection.work_done, changed_insertRow]
          exact ⟨rfl, rfl⟩
  | leak now =>
      simp only [answer, leak, Connection.work_done]
      exact ⟨rfl, rfl⟩
  | flush =>
      simp only [answer, flush, Connection.work_done]
      exact ⟨rfl, rfl⟩
  | count => exact ⟨rfl, rfl⟩
  | peek index => exact ⟨rfl, rfl⟩

/-! ### Stores that cannot be told apart -/

structure Alike (first second : SqliteStore) : Prop where
  rates_eq : first.rates = second.rates
  connection : first.connection.Alike second.connection
  failingRate_eq : first.failingRate = second.failingRate

variable {first second : SqliteStore}

theorem Alike.bucket_eq (alike : Alike first second) : first.bucket = second.bucket := by
  unfold bucket
  rw [alike.rates_eq, alike.connection.table_eq, alike.failingRate_eq]

theorem Alike.answer (alike : Alike first second) (failure : Option (Failure PyError))
    (request : BucketRequest) :
    (first.answer failure request).1 = (second.answer failure request).1 ∧
      Alike (first.answer failure request).2 (second.answer failure request).2 := by
  have same := alike.bucket_eq
  cases request with
  | put item =>
      obtain ⟨done, after⟩ :=
        alike.connection.work (List.replicate item.weight.toNat (insertRow item)) failure
      simp only [SqliteStore.answer, put_eq, alike.rates_eq, same]
      cases second.rates.refusing second.bucket.stamps item.timestamp item.weight with
      | some rate => exact ⟨rfl, rfl, alike.connection, rfl⟩
      | none =>
          simp only [done]
          exact ⟨trivial, rfl, after, alike.failingRate_eq⟩
  | leak now =>
      simp only [SqliteStore.answer, leak, alike.rates_eq, alike.connection.table_eq]
      obtain ⟨done, after⟩ := alike.connection.work _ failure
      exact ⟨by rw [done], rfl, after, alike.failingRate_eq⟩
  | flush =>
      obtain ⟨done, after⟩ := alike.connection.work [fun _rows => []] failure
      simp only [SqliteStore.answer, flush, done]
      cases (second.connection.work [fun _rows => []] failure).1 with
      | ok _ => exact ⟨rfl, alike.rates_eq, after, rfl⟩
      | error raised => exact ⟨rfl, alike.rates_eq, after, alike.failingRate_eq⟩
  | count =>
      cases failure with
      | none => exact ⟨by simp only [SqliteStore.answer, same], alike⟩
      | some failure => exact ⟨rfl, alike⟩
  | peek index =>
      cases failure with
      | none => exact ⟨by simp only [SqliteStore.answer, same], alike⟩
      | some failure => exact ⟨rfl, alike⟩

theorem Alike.observe (alike : Alike first second)
    (requests : List (BucketRequest × Option (Failure PyError))) :
    first.observe requests = second.observe requests := by
  induction requests generalizing first second with
  | nil => rfl
  | cons entry rest ih =>
      obtain ⟨request, failure⟩ := entry
      obtain ⟨answered, after⟩ := alike.answer failure request
      simp only [SqliteStore.observe]
      rw [answered, after.connection.committed_eq, after.failingRate_eq, ih after]

theorem Alike.leftAsItWas (alike : Alike first second) : LeftAsItWas first second :=
  ⟨alike.connection.committed_eq, alike.observe⟩

/-- A count tells two stores apart whose connections see unequally many rows. -/
theorem not_leftAsItWas_of_length
    (different : first.connection.table.length ≠ second.connection.table.length) :
    ¬LeftAsItWas first second := by
  rintro ⟨_committed, same⟩
  have counted := same [(.count, none)]
  simp only [SqliteStore.observe, SqliteStore.answer, List.cons.injEq, Observation.mk.injEq,
    Except.ok.injEq, BucketAnswer.count.injEq, SqliteBucket.count] at counted
  exact different (Int.ofNat_inj.mp counted.1.1)

/-! ### A put that fails -/

/-- The inserts that a put has executed when it fails. -/
def insertsBefore (item : RateItem) : FailurePoint → Nat
  | .statement index => index
  | .commit => item.weight.toNat

theorem ranBefore_inserts {item : RateItem} {point : FailurePoint}
    (reached : ∀ index, point = .statement index → (index : Int) < item.weight) :
    Connection.ranBefore (List.replicate item.weight.toNat (insertRow item)) point =
      some (List.replicate (insertsBefore item point) (insertRow item)) := by
  cases point with
  | statement index =>
      have early := reached index rfl
      have inside : index < (List.replicate item.weight.toNat (insertRow item)).length := by
        rw [List.length_replicate]
        omega
      simp only [Connection.ranBefore, if_pos inside, List.take_replicate, insertsBefore]
      rw [Nat.min_eq_left (by omega)]
  | commit => rfl

theorem length_insertRows (item : RateItem) (units : Nat) (rows : List SqliteRow) :
    (SqliteBucket.insertRows item units rows).length = rows.length + units := by
  have lengths := congrArg List.length (SqliteBucket.stamps_insertRows item units rows)
  rw [List.length_map, List.length_append, List.length_map, List.length_replicate] at lengths
  exact lengths

/-- A put that is admitted and fails keeps its inserts in the open transaction. -/
theorem put_failed {store : SqliteStore} {item : RateItem}
    (admitted : (store.put item none).1 = .ok true) {failure : Failure PyError}
    (reached : ∀ index, failure.point = .statement index → (index : Int) < item.weight) :
    ∃ connection,
      store.put item (some failure) =
        (.error failure.raised, { store with connection := connection }) ∧
      connection.committed = store.connection.committed ∧
      connection.table =
        SqliteBucket.insertRows item (insertsBefore item failure.point) store.connection.table := by
  rw [put_eq] at admitted ⊢
  cases refused : store.rates.refusing store.bucket.stamps item.timestamp item.weight with
  | some rate =>
      rw [refused] at admitted
      cases admitted
  | none =>
      obtain ⟨raised, committed, table⟩ :=
        Connection.work_failed store.connection (ranBefore_inserts reached)
      rw [changed_insertRow] at table
      refine ⟨_, ?_, committed, table⟩
      simp only [raised]
      rfl

end SqliteStore

/-- A put of an item that would be admitted raises where its work fails, and leaves the
bucket as it was exactly if it fails at its first insert. -/
theorem failed_put_leaves_iff (store : SqliteStore) (item : RateItem) (positive : 1 ≤ item.weight)
    (admitted : (store.put item none).1 = .ok true) (failure : Failure PyError)
    (reached : ∀ index, failure.point = .statement index → (index : Int) < item.weight) :
    (store.put item (some failure)).1 = .error failure.raised ∧
      (store.LeftAsItWas (store.put item (some failure)).2 ↔
        failure.point = .statement 0) := by
  obtain ⟨connection, outcome, committed, table⟩ := SqliteStore.put_failed admitted reached
  rw [outcome]
  refine ⟨rfl, ?_, ?_⟩
  · intro left
    by_contra later
    refine SqliteStore.not_leftAsItWas_of_length ?_ left
    have inserted : 0 < SqliteStore.insertsBefore item failure.point := by
      unfold SqliteStore.insertsBefore
      split
      · rename_i index here
        rw [here] at later
        exact Nat.pos_of_ne_zero (fun first => later (by rw [first]))
      · omega
    simp only [table, SqliteStore.length_insertRows]
    omega
  · intro first
    rw [first] at table
    apply SqliteStore.Alike.leftAsItWas
    exact ⟨rfl, ⟨committed.symm, table.symm⟩, rfl⟩

/-- A connection to an empty table. -/
def emptyStore : SqliteStore :=
  { rates := threeRequestsIn100
    connection := { committed := [], pending := none }
    failingRate := none }

def lockedAt (point : FailurePoint) : Failure PyError :=
  { point := point
    raised := .databaseError "database is locked" }

theorem failed_put_leaves_first :
    (emptyStore.put ⟨"key", 0, 2⟩ (some (lockedAt (.statement 0)))).1 =
        .error (.databaseError "database is locked") ∧
      (emptyStore.LeftAsItWas (emptyStore.put ⟨"key", 0, 2⟩ (some (lockedAt (.statement 0)))).2 ↔
        (lockedAt (.statement 0)).point = .statement 0) :=
  failed_put_leaves_iff emptyStore ⟨"key", 0, 2⟩ (by decide) (by decide)
    (lockedAt (.statement 0)) (by intro index same; cases same; decide)

/-- The put of two units fails at its second insert.  The first one is counted, and the
commit of a leak that finds nothing to remove makes it permanent. -/
theorem second_insert_leaves_row :
    (emptyStore.put ⟨"key", 0, 2⟩ (some (lockedAt (.statement 1)))).1 =
        .error (.databaseError "database is locked") ∧
      ((emptyStore.put ⟨"key", 0, 2⟩ (some (lockedAt (.statement 1)))).2.observe
          [(.count, none), (.leak 0, none)]).map
        (fun observed => (observed.answer.toOption, observed.committed.length)) =
          [(some (.count 1), 0), (some (.leak 0), 1)] ∧
      ¬emptyStore.LeftAsItWas
        (emptyStore.put ⟨"key", 0, 2⟩ (some (lockedAt (.statement 1)))).2 := by
  refine ⟨by decide, by decide, ?_⟩
  apply SqliteStore.not_leftAsItWas_of_length
  decide

end PyrateLimiter
