/-
The statements of the Postgres bucket.

Every unit of weight is a row.  A row is kept by the instant its timestamp
stands for, in microseconds; how an item's timestamp becomes that instant, by a
division in floating point and `TO_TIMESTAMP`, is a parameter of which nothing
is assumed, since stored rows and window bounds go through it alike.
-/

import PyrateLimiter.Bucket

namespace PyrateLimiter

open Foundations.WindowLog

structure Row where
  name : String
  weight : Int
  itemTimestamp : Int
  deriving DecidableEq, Repr

/-- Where a rate's window lies among the instants of rows. -/
def Rate.instantWindow (rate : Rate) : Window Int :=
  { capacity := rate.limit
    span := rate.interval * 1000 }

def RateList.instantWindows (rates : RateList) : List (Window Int) :=
  rates.toList.map Rate.instantWindow

def isSmallint (value : Int) : Bool := decide (-32768 ≤ value ∧ value ≤ 32767)

namespace PostgresBucket

variable (toTimestamp : Int → Int)

/-- One field of the window query: `COUNT(*) FILTER (WHERE ...)` for a rate. -/
def countWindow (table : List Row) (timestamp interval : Int) : Int :=
  (table.countP
    (fun row => toTimestamp timestamp - interval * 1000 ≤ row.itemTimestamp) : Nat)

/-- The window query, with one field for each rate. -/
def countWindows (table : List Row) (rates : RateList) (timestamp : Int) : List Int :=
  rates.toList.map (fun rate => countWindow toTimestamp table timestamp rate.interval)

def unitRow (item : RateItem) : Row :=
  { name := item.name
    weight := item.weight
    itemTimestamp := toTimestamp item.timestamp }

/-- `PUT`: the rows it inserts, unless the weight does not fit its column. -/
def insertRows (item : RateItem) : Except PyError (List Row) :=
  if 0 < item.weight ∧ isSmallint item.weight = false then
    .error (.databaseError "smallint out of range")
  else .ok (List.replicate item.weight.toNat (unitRow toTimestamp item))

def instants (table : List Row) : List Int := table.map Row.itemTimestamp

theorem countWindow_eq (table : List Row) (timestamp interval : Int) :
    countWindow toTimestamp table timestamp interval =
      (countSince (instants table) (toTimestamp timestamp - interval * 1000) : Int) := by
  unfold countWindow countSince instants
  rw [List.countP_map]
  rfl

/-- The decision on the window query is the first rate whose window is full. -/
theorem admitDecision_countWindows (table : List Row) (rates : RateList) (timestamp weight : Int) :
    admitDecision rates.toList (countWindows toTimestamp table rates timestamp) weight =
      .ok
        { failingRate := rates.toList.find?
            (fun rate =>
              rate.limit - countWindow toTimestamp table timestamp rate.interval < weight) } :=
  admit_map rates.toList _ weight

variable {toTimestamp}

/-- The decision on the window query is whether every window has room. -/
theorem admit_countWindows {rates : RateList} {table : List Row} {item : RateItem}
    {decision : Decision}
    (decided : admitDecision rates.toList (countWindows toTimestamp table rates item.timestamp)
      item.weight = .ok decision) :
    decision.allowed = true ↔
      Room rates.instantWindows (instants table) (toTimestamp item.timestamp) item.weight := by
  rw [admitDecision_countWindows] at decided
  cases decided
  unfold Decision.allowed Room RateList.instantWindows
  rw [Option.isNone_iff_eq_none, List.find?_eq_none, List.forall_mem_map]
  constructor
  · intro spacious rate member
    have fits := spacious rate member
    rw [decide_eq_true_eq, countWindow_eq] at fits
    simp only [Rate.instantWindow]
    omega
  · intro room rate member
    have fits := room rate member
    simp only [Rate.instantWindow] at fits
    rw [decide_eq_true_eq, countWindow_eq]
    omega

theorem instants_unitRows (units : Nat) (item : RateItem) :
    instants (List.replicate units (unitRow toTimestamp item)) =
      List.replicate units (toTimestamp item.timestamp) :=
  List.map_replicate

theorem within_nil (rates : RateList) : Within rates.instantWindows ([] : List Int) := by
  apply Within.nil
  unfold RateList.instantWindows
  rw [List.forall_mem_map]
  intro rate _member
  exact Int.le_of_lt rate.limit_pos

end PostgresBucket

end PyrateLimiter
