/-
What a put stores in the Postgres table, and what a peek reads back.

The weight of an item goes through the counts, through the series of rows and into
a column of its own, which is a `SMALLINT`.  The timestamp is written through
`TO_TIMESTAMP` into a column without time zone, which keeps the local time of the
session, and is read back as a number of seconds as if that time were UTC.
-/

import PyrateLimiter.PostgresWaiting

namespace PyrateLimiter

open Foundations.OrderBy
open Foundations.WindowLog

namespace PostgresBucket

variable {toTimestamp : Int → Int} {bucket : PostgresBucket} {item : RateItem}

/-! ### The weight -/

/-- A put that is granted the table lock answers what the shared algorithm decides on
the counts of the rows, and inserts one row for each unit or none. -/
def FollowsAdmit (toTimestamp : Int → Int) (bucket : PostgresBucket) (item : RateItem) : Prop :=
  ∃ decision,
    admitDecision bucket.rates.toList
        (countWindows toTimestamp bucket.table bucket.rates item.timestamp) item.weight =
      .ok decision ∧
    (bucket.put toTimestamp item true).1 = .ok decision.allowed ∧
    (bucket.put toTimestamp item true).2.table =
      if decision.allowed then
        bucket.table ++ List.replicate item.weight.toNat (unitRow toTimestamp item)
      else bucket.table

/-- A put with the table lock, by the decision and by the width of the weight column. -/
theorem put_granted (positive : 1 ≤ item.weight) {decision : Decision}
    (decided : admitDecision bucket.rates.toList
      (countWindows toTimestamp bucket.table bucket.rates item.timestamp) item.weight =
        .ok decision) :
    bucket.put toTimestamp item true =
      if decision.allowed then
        if isSmallint item.weight then
          (.ok true,
            { bucket with
              failingRate := none
              table :=
                bucket.table ++ List.replicate item.weight.toNat (unitRow toTimestamp item) })
        else
          (.error (.databaseError "smallint out of range"), { bucket with failingRate := none })
      else (.ok false, { bucket with failingRate := decision.failingRate }) := by
  have weighty : ¬item.weight = 0 := by omega
  have counted : 0 < item.weight := by omega
  unfold put insertRows
  simp only [if_neg weighty, decided, Bool.not_true, Bool.false_eq_true, if_false]
  cases decision.allowed with
  | false => rfl
  | true => cases isSmallint item.weight <;> simp [counted]

theorem followsAdmit_of_refused (positive : 1 ≤ item.weight) {decision : Decision}
    (decided : admitDecision bucket.rates.toList
      (countWindows toTimestamp bucket.table bucket.rates item.timestamp) item.weight =
        .ok decision)
    (refused : decision.allowed = false) : bucket.FollowsAdmit toTimestamp item := by
  refine ⟨decision, decided, ?_⟩
  rw [put_granted positive decided, refused]
  exact ⟨rfl, rfl⟩

theorem followsAdmit_of_allowed_iff (positive : 1 ≤ item.weight) {decision : Decision}
    (decided : admitDecision bucket.rates.toList
      (countWindows toTimestamp bucket.table bucket.rates item.timestamp) item.weight =
        .ok decision)
    (allowed : decision.allowed = true) :
    bucket.FollowsAdmit toTimestamp item ↔ isSmallint item.weight = true := by
  unfold FollowsAdmit
  rw [put_granted positive decided, allowed]
  simp only [if_true]
  constructor
  · rintro ⟨same, decidedSame, verdict, _table⟩
    rw [decided] at decidedSame
    cases decidedSame
    by_cases small : isSmallint item.weight = true
    · exact small
    · rw [if_neg small] at verdict
      cases verdict
  · intro small
    refine ⟨decision, decided, ?_⟩
    rw [if_pos small, allowed]
    exact ⟨rfl, rfl⟩

end PostgresBucket

/-- An uncontended put follows the shared algorithm exactly if the weight fits the
column that it is stored in, or some window has no room for it. -/
theorem postgres_put_follows_admit_iff (toTimestamp : Int → Int) (bucket : PostgresBucket)
    (item : RateItem) (positive : 1 ≤ item.weight) :
    bucket.FollowsAdmit toTimestamp item ↔
      item.weight ≤ 32767 ∨
        ¬Room bucket.rates.instantWindows (PostgresBucket.instants bucket.table)
          (toTimestamp item.timestamp) item.weight := by
  obtain ⟨decision, decided⟩ : ∃ decision,
      admitDecision bucket.rates.toList
          (PostgresBucket.countWindows toTimestamp bucket.table bucket.rates item.timestamp)
          item.weight = .ok decision :=
    ⟨_, PostgresBucket.admitDecision_countWindows toTimestamp _ _ _ _⟩
  have room_iff := PostgresBucket.admit_countWindows decided
  cases allowed : decision.allowed with
  | false =>
      rw [allowed] at room_iff
      have full : ¬Room bucket.rates.instantWindows (PostgresBucket.instants bucket.table)
          (toTimestamp item.timestamp) item.weight := fun room => by
        cases room_iff.mpr room
      exact ⟨fun _follows => Or.inr full, fun _condition =>
        PostgresBucket.followsAdmit_of_refused positive decided allowed⟩
  | true =>
      rw [PostgresBucket.followsAdmit_of_allowed_iff positive decided allowed]
      have room := room_iff.mp allowed
      simp only [isSmallint, decide_eq_true_eq]
      constructor
      · exact fun small => Or.inl small.2
      · rintro (light | full)
        · exact ⟨by omega, light⟩
        · exact absurd room full

def emptyTable : PostgresBucket :=
  { rates := fortyThousandIn100
    table := []
    failingRate := none }

theorem postgres_put_follows_admit_three :
    emptyTable.FollowsAdmit utcInstant ⟨"key", 0, 3⟩ ↔
      (3 : Int) ≤ 32767 ∨
        ¬Room emptyTable.rates.instantWindows (PostgresBucket.instants emptyTable.table)
          (utcInstant 0) 3 :=
  postgres_put_follows_admit_iff utcInstant emptyTable ⟨"key", 0, 3⟩ (by decide)

/-- There is room for 32768 units, but no place for the number. -/
theorem wide_weight_raises :
    (emptyTable.put utcInstant ⟨"key", 0, 32768⟩ true).1 =
        .error (.databaseError "smallint out of range") ∧
      ¬emptyTable.FollowsAdmit utcInstant ⟨"key", 0, 32768⟩ := by
  have raised : (emptyTable.put utcInstant ⟨"key", 0, 32768⟩ true).1 =
      .error (.databaseError "smallint out of range") := rfl
  refine ⟨raised, ?_⟩
  rintro ⟨decision, _decided, answered, _table⟩
  rw [raised] at answered
  cases answered

/-! ### The timestamp -/

/-- What a column without time zone keeps of `TO_TIMESTAMP` at a whole number of
milliseconds: the local time of a session that is `offset` seconds ahead of UTC. -/
def localInstant (offset milliseconds : Int) : Int := utcInstant milliseconds + offset * 1000000

theorem epochMs_localInstant (offset milliseconds : Int) :
    PostgresBucket.epochMs (localInstant offset milliseconds) = milliseconds + offset * 1000 := by
  have whole : localInstant offset milliseconds = (milliseconds + offset * 1000) * 1000 := by
    unfold localInstant utcInstant
    omega
  unfold PostgresBucket.epochMs
  rw [whole]
  exact Int.mul_tdiv_cancel _ (by decide)

namespace PostgresBucket

variable {bucket : PostgresBucket} {item : RateItem}

/-- The newest of the rows is the one that a peek at the first index reads. -/
theorem peek_zero {row : Row} (member : row ∈ bucket.table)
    (newest : ∀ other, other ∈ bucket.table → other.itemTimestamp ≤ row.itemTimestamp) :
    (bucket.peek 0).map RateItem.timestamp = some (epochMs row.itemTimestamp) := by
  unfold peek
  cases shape : orderByDesc Row.itemTimestamp bucket.table with
  | nil =>
      have empty := (orderByDesc_perm Row.itemTimestamp bucket.table).length_eq
      rw [shape] at empty
      rw [List.eq_nil_of_length_eq_zero empty.symm] at member
      cases member
  | cons first rest =>
      obtain ⟨firstMember, largest⟩ := head_orderByDesc shape
      have same : first.itemTimestamp = row.itemTimestamp :=
        Int.le_antisymm (newest first firstMember) (largest row member)
      change some (epochMs first.itemTimestamp) = _
      rw [same]

theorem peek_zero_eq_iff {timestamp : Int} :
    (bucket.peek 0).map RateItem.timestamp = some timestamp ↔
      ∃ row, row ∈ bucket.table ∧
        (∀ other, other ∈ bucket.table → other.itemTimestamp ≤ row.itemTimestamp) ∧
        epochMs row.itemTimestamp = timestamp := by
  constructor
  · intro answered
    cases shape : orderByDesc Row.itemTimestamp bucket.table with
    | nil =>
        unfold peek at answered
        rw [shape] at answered
        cases answered
    | cons first rest =>
        obtain ⟨member, largest⟩ := head_orderByDesc shape
        rw [peek_zero member largest] at answered
        exact ⟨first, member, largest, Option.some.inj answered⟩
  · rintro ⟨row, member, newest, rfl⟩
    exact peek_zero member newest

end PostgresBucket

/-- After a put that answers `True`, on a table without a later row, a peek reads the
timestamp of the item exactly if the session's time zone is at no offset from UTC.  An
item without units stores no row, and then the newest row decides. -/
theorem peek_reads_put_iff (offset : Int) (bucket : PostgresBucket) (item : RateItem)
    (lockGranted : Bool)
    (latest : ∀ row, row ∈ bucket.table →
      row.itemTimestamp ≤ localInstant offset item.timestamp)
    (admitted : (bucket.put (localInstant offset) item lockGranted).1 = .ok true) :
    ((bucket.put (localInstant offset) item lockGranted).2.peek 0).map RateItem.timestamp =
        some item.timestamp ↔
      if 1 ≤ item.weight then offset = 0
      else ∃ row, row ∈ bucket.table ∧
        (∀ other, other ∈ bucket.table → other.itemTimestamp ≤ row.itemTimestamp) ∧
        PostgresBucket.epochMs row.itemTimestamp = item.timestamp := by
  have stored := (PostgresBucket.put_admitted admitted).1
  split
  · rename_i positive
    have present : PostgresBucket.unitRow (localInstant offset) item ∈
        (bucket.put (localInstant offset) item lockGranted).2.table := by
      rw [stored]
      exact List.mem_append_right _ (List.mem_replicate.mpr ⟨by omega, rfl⟩)
    have newest : ∀ other,
        other ∈ (bucket.put (localInstant offset) item lockGranted).2.table →
          other.itemTimestamp ≤
            (PostgresBucket.unitRow (localInstant offset) item).itemTimestamp := by
      rw [stored]
      intro other member
      rcases List.mem_append.mp member with old | new
      · exact latest other old
      · rw [List.eq_of_mem_replicate new]
    rw [PostgresBucket.peek_zero present newest]
    have read : PostgresBucket.epochMs
        (PostgresBucket.unitRow (localInstant offset) item).itemTimestamp =
          item.timestamp + offset * 1000 := epochMs_localInstant offset item.timestamp
    rw [read, Option.some.injEq]
    omega
  · rename_i weightless
    have unchanged : item.weight.toNat = 0 := by omega
    rw [unchanged, List.replicate_zero, List.append_nil] at stored
    rw [PostgresBucket.peek_zero_eq_iff, stored]

theorem peek_reads_put_in_utc :
    ((emptyTable.put (localInstant 0) ⟨"key", 1000, 1⟩ true).2.peek 0).map RateItem.timestamp =
        some 1000 ↔
      if (1 : Int) ≤ 1 then (0 : Int) = 0
      else ∃ row, row ∈ emptyTable.table ∧
        (∀ other, other ∈ emptyTable.table → other.itemTimestamp ≤ row.itemTimestamp) ∧
        PostgresBucket.epochMs row.itemTimestamp = 1000 :=
  peek_reads_put_iff 0 emptyTable ⟨"key", 1000, 1⟩ true
    (by intro _row impossible; cases impossible) rfl

/-- In a session two hours ahead of UTC the peeked item is two hours late. -/
theorem peek_two_hours_late :
    (emptyTable.put (localInstant 7200) ⟨"key", 1000, 1⟩ true).1 = .ok true ∧
      ((emptyTable.put (localInstant 7200) ⟨"key", 1000, 1⟩ true).2.peek 0).map
        RateItem.timestamp = some 7201000 ∧
      ¬((emptyTable.put (localInstant 7200) ⟨"key", 1000, 1⟩ true).2.peek 0).map
        RateItem.timestamp = some 1000 := by
  refine ⟨rfl, by decide, by decide⟩

end PyrateLimiter
