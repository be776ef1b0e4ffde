/-
What every bucket shares: the sliding-window-log decision, the leak bound and
the waiting time of a refused item.

The decision is made rate by rate on counts that the storage supplies.  Its
meaning is stated on the window log of the recorded units, so a backend is
correct as soon as its counts are.
-/

import PyrateLimiter.Foundations.WindowLog
import PyrateLimiter.Rate

namespace PyrateLimiter

open Foundations.WindowLog

/-! ### The sliding-window-log algorithm -/

/-- The outcome of an admit check: no failing rate means admitted. -/
structure Decision where
  failingRate : Option Rate
  deriving DecidableEq, Repr

def Decision.allowed (decision : Decision) : Bool := decision.failingRate.isNone

/-- `SlidingWindowLog.admit`; the zip of rates and counts is strict. -/
def admitDecision : List Rate → List Int → Int → Except PyError Decision
  | [], [], _ => .ok { failingRate := none }
  | rate :: rates, count :: counts, weight =>
      if rate.limit - count < weight then .ok { failingRate := some rate }
      else admitDecision rates counts weight
  | _ :: _, [], _ => .error (.valueError "zip() argument 2 is shorter than argument 1")
  | [], _ :: _, _ => .error (.valueError "zip() argument 2 is longer than argument 1")

/-- `SlidingWindowLog.leak_bound`: what is older is outside every window. -/
def leakBound (rates : RateList) (now : Int) : Int := now - rates.last.interval

/-! ### Waiting -/

/-- How far `AbstractBucket.waiting` gets before it needs the bound item: an
immediate answer, or the index to peek at. -/
inductive Waiting where
  | ready (milliseconds : Int)
  | peek (index : Int)
  deriving DecidableEq, Repr

/-- The part of `waiting` up to the call of `peek`. -/
def waitingStart (failingRate : Option Rate) (item : RateItem) : Except PyError Waiting :=
  match failingRate with
  | none => .ok (.ready 0)
  | some rate =>
      if item.weight ≤ 0 then .error (.assertionError "Item's weight must > 0")
      else if rate.limit < item.weight then .ok (.ready (-1))
      else .ok (.peek (rate.limit - item.weight))

/-- `_calc_waiting`.  The failing rate is read again here, after the peek. -/
def calcWaiting (failingRate : Option Rate) (item innerBoundItem : RateItem) :
    Except PyError Int :=
  match failingRate with
  | none => .error (.assertionError "")
  | some rate =>
      let lowerTimeBound := item.timestamp - rate.interval
      let upperTimeBound := innerBoundItem.timestamp
      .ok (upperTimeBound - lowerTimeBound + 1)

/-- The part of `waiting` from the result of `peek` on. -/
def waitingFinish (failingRate : Option Rate) (item : RateItem) (boundItem : Option RateItem) :
    Except PyError Int :=
  match boundItem with
  | none => .ok 0
  | some innerBoundItem => calcWaiting failingRate item innerBoundItem

/-- `AbstractBucket.waiting` on a bucket whose `peek` answers at once. -/
def waiting (failingRate : Option Rate) (peek : Int → Option RateItem) (item : RateItem) :
    Except PyError Int := do
  match ← waitingStart failingRate item with
  | .ready milliseconds => .ok milliseconds
  | .peek index => waitingFinish failingRate item (peek index)

/-! ### Rates as windows -/

def Rate.window (rate : Rate) : Window Int :=
  { capacity := rate.limit
    span := rate.interval }

def RateList.windows (rates : RateList) : List (Window Int) := rates.toList.map Rate.window

theorem RateList.mem_windows {rates : RateList} {window : Window Int} :
    window ∈ rates.windows ↔ ∃ rate, rate ∈ rates ∧ rate.window = window :=
  List.mem_map

theorem RateList.forall_windows {rates : RateList} {property : Window Int → Prop} :
    (∀ window, window ∈ rates.windows → property window) ↔
      ∀ rate, rate ∈ rates → property rate.window := by
  constructor
  · intro all rate member
    exact all _ (RateList.mem_windows.mpr ⟨rate, member, rfl⟩)
  · intro all window member
    obtain ⟨rate, rateMember, rfl⟩ := RateList.mem_windows.mp member
    exact all rate rateMember

theorem RateList.within_nil (rates : RateList) : Within rates.windows ([] : List Int) := by
  apply Within.nil
  rw [RateList.forall_windows]
  intro rate _member
  exact Int.le_of_lt rate.limit_pos

def Rate.overfull (log : List Int) (stamp weight : Int) (rate : Rate) : Bool :=
  rate.limit - (countSince log (stamp - rate.interval) : Int) < weight

/-- The rate a put at `stamp` is refused by, if any: the first overfull one. -/
def RateList.refusing (rates : RateList) (log : List Int) (stamp weight : Int) : Option Rate :=
  rates.toList.find? (Rate.overfull log stamp weight)

theorem RateList.refusing_eq_none_iff {rates : RateList} {log : List Int} {stamp weight : Int} :
    rates.refusing log stamp weight = none ↔ Room rates.windows log stamp weight := by
  unfold RateList.refusing Room
  rw [List.find?_eq_none, RateList.forall_windows]
  constructor
  · intro none rate member
    have fits := none rate member
    simp only [Rate.overfull, decide_eq_true_eq] at fits
    simp only [Rate.window]
    omega
  · intro room rate member
    have fits := room rate member
    simp only [Rate.window] at fits
    simp only [Rate.overfull, decide_eq_true_eq]
    omega

theorem RateList.refusing_mem {rates : RateList} {log : List Int} {stamp weight : Int}
    {rate : Rate} (refused : rates.refusing log stamp weight = some rate) : rate ∈ rates :=
  List.mem_of_find?_eq_some refused

/-- The refusing rate has no room, and every rate with a shorter interval has. -/
theorem RateList.refusing_spec {rates : RateList} {log : List Int} {stamp weight : Int}
    {rate : Rate} (refused : rates.refusing log stamp weight = some rate) :
    rate.limit < (countSince log (stamp - rate.interval) : Int) + weight ∧
      ∀ shorter, shorter ∈ rates → shorter.interval < rate.interval →
        (countSince log (stamp - shorter.interval) : Int) + weight ≤ shorter.limit := by
  obtain ⟨full, before, after, split, earlier⟩ := List.find?_eq_some_iff_append.mp refused
  simp only [Rate.overfull, decide_eq_true_eq] at full
  refine ⟨by omega, ?_⟩
  intro shorter member narrower
  have ordered := rates.pairwise
  rw [← RateList.mem_toList, split] at member
  rw [split] at ordered
  obtain ⟨_, tailOrdered, _⟩ := List.pairwise_append.mp ordered
  rcases List.mem_append.mp member with early | late
  · have fits := earlier shorter early
    simp only [Rate.overfull, Bool.not_eq_true', decide_eq_false_iff_not] at fits
    omega
  · -- Rates from the refusing one on have at least its interval.
    rcases List.mem_cons.mp late with same | wider
    · rw [same] at narrower
      exact absurd narrower (Int.lt_irrefl _)
    · have step := (List.pairwise_cons.mp tailOrdered).1 shorter wider
      omega

theorem admit_map (rates : List Rate) (count : Rate → Int) (weight : Int) :
    admitDecision rates (rates.map count) weight =
      .ok { failingRate := rates.find? (fun rate => rate.limit - count rate < weight) } := by
  induction rates with
  | nil => rfl
  | cons rate rest ih =>
      simp only [List.map_cons, admitDecision, List.find?_cons]
      by_cases full : rate.limit - count rate < weight
      · simp only [if_pos full, decide_eq_true full]
      · simp only [if_neg full, decide_eq_false full]
        exact ih

/-- On the counts of the windows the decision is the refusing rate. -/
theorem RateList.admit_counts (rates : RateList) (log : List Int) (stamp weight : Int) :
    admitDecision rates.toList
        (rates.toList.map (fun rate => (countSince log (stamp - rate.interval) : Int))) weight =
      .ok { failingRate := rates.refusing log stamp weight } :=
  admit_map rates.toList _ weight

end PyrateLimiter
