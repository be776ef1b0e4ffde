/-
Rates, rate items and the rate list contract shared by every bucket.

A rate list reaches a bucket only through the `rates` setter, which sorts it by
interval and then validates it.  The accepted lists form a type of their own:
the backends rely on the order of intervals when they leak and on the order of
limits when they admit, and both orders are read off an accepted list here once.
-/

import Mathlib.Algebra.Order.Field.Rat
import Mathlib.Data.List.Pairwise
import Mathlib.Data.List.Sort

namespace PyrateLimiter

/-- The exceptions the modelled code raises, with their texts. -/
inductive PyError where
  | assertionError (message : String)
  | databaseError (message : String)
  | overflowError (message : String)
  | runtimeError (message : String)
  | timeoutError (message : String)
  | valueError (message : String)
  deriving DecidableEq, Repr

/-! ### True division of integers -/

/-- A nonnegative double, `mantissa * 2 ^ exponent`. -/
structure Double where
  mantissa : Nat
  exponent : Int
  deriving DecidableEq, Repr

def Double.lt (left right : Double) : Bool :=
  left.mantissa * 2 ^ (left.exponent - right.exponent).toNat <
    right.mantissa * 2 ^ (right.exponent - left.exponent).toNat

def divideHalfEven (numerator denominator : Nat) : Nat :=
  let quotient := numerator / denominator
  let remainder := numerator % denominator
  if 2 * remainder < denominator then quotient
  else if denominator < 2 * remainder then quotient + 1
  else quotient + quotient % 2

def binaryExponent (numerator denominator : Nat) : Int :=
  let guess : Int := (Nat.log2 numerator : Int) - (Nat.log2 denominator : Int)
  if denominator * 2 ^ guess.toNat ≤ numerator * 2 ^ (-guess).toNat then guess else guess - 1

/-- Python's `/` on positive integers: the double nearest to the exact quotient,
or the `OverflowError` raised when that quotient exceeds every double. -/
def trueDiv (numerator denominator : Nat) : Except PyError Double :=
  let exponent := max (binaryExponent numerator denominator - 52) (-1074)
  let mantissa :=
    divideHalfEven (numerator * 2 ^ (-exponent).toNat) (denominator * 2 ^ exponent.toNat)
  if 971 < exponent ∨ exponent = 971 ∧ mantissa = 2 ^ 53 then
    .error (.overflowError "integer division result too large for a float")
  else .ok { mantissa := mantissa, exponent := exponent }

/-! ### Rates and items -/

/-- `limit` requests within `interval` milliseconds.  A request count and a
length of time are natural numbers and the constructor asserts both to be
truthy, so both are positive. -/
structure Rate where
  limit : Int
  interval : Int
  limit_pos : 0 < limit
  interval_pos : 0 < interval
  deriving DecidableEq, Repr

/-- `Rate.__init__`, with the interval already converted to an integer. -/
def Rate.init (limit interval : Nat) : Except PyError Rate :=
  if hInterval : interval = 0 then .error (.assertionError "")
  else if hLimit : limit = 0 then .error (.assertionError "")
  else .ok
    { limit := limit
      interval := interval
      limit_pos := by omega
      interval_pos := by omega }

def Rate.repr (rate : Rate) : String :=
  "limit=" ++ toString rate.limit ++ "/" ++ toString rate.interval

def Rate.density (rate : Rate) : Except PyError Double :=
  trueDiv rate.limit.toNat rate.interval.toNat

structure RateItem where
  name : String
  timestamp : Int
  weight : Int
  deriving DecidableEq, Repr

def RateItem.delay (item : RateItem) (milliseconds : Int) : RateItem :=
  { item with timestamp := item.timestamp + milliseconds }

@[simp] theorem RateItem.delay_timestamp (item : RateItem) (milliseconds : Int) :
    (item.delay milliseconds).timestamp = item.timestamp + milliseconds := rfl

@[simp] theorem RateItem.delay_weight (item : RateItem) (milliseconds : Int) :
    (item.delay milliseconds).weight = item.weight := rfl

/-! ### Validation of a rate list -/

/-- The adjacent-pair checks of `validate_rate_list`, left to right.  Computing
a density may overflow, and the exception then leaves the loop. -/
def validateRateList : List Rate → Except PyError Bool
  | [] => .ok false
  | [_] => .ok true
  | prevRate :: currentRate :: rest =>
      if currentRate.interval ≤ prevRate.interval then .ok false
      else if currentRate.limit ≤ prevRate.limit then .ok false
      else do
        let currentDensity ← currentRate.density
        let prevDensity ← prevRate.density
        if prevDensity.lt currentDensity then .ok false
        else validateRateList (currentRate :: rest)

def reprRates (rates : List Rate) : String :=
  "[" ++ ", ".intercalate (rates.map Rate.repr) ++ "]"

def enforceRateList (rates : List Rate) : Except PyError Unit := do
  if ← validateRateList rates then .ok ()
  else .error (.valueError
    ("Invalid rate list: rates must be non-empty and ordered by strictly " ++
      "increasing interval, with strictly increasing limits and non-increasing " ++
      "density (limit/interval). Got: " ++ reprRates rates))

/-- A rate list that passed validation, the only kind a bucket stores. -/
structure RateList where
  toList : List Rate
  enforced : enforceRateList toList = .ok ()

/-- The `rates` setter: a stable sort by interval, then validation. -/
def setRates (value : List Rate) : Except PyError RateList :=
  let ordered := value.insertionSort (fun left right => left.interval ≤ right.interval)
  match enforced : enforceRateList ordered with
  | .ok () => .ok { toList := ordered, enforced := enforced }
  | .error raised => .error raised

def oneRequestIn100 : RateList :=
  { toList := [{ limit := 1, interval := 100, limit_pos := by decide, interval_pos := by decide }]
    enforced := by decide }

def threeRequestsIn100 : RateList :=
  { toList := [{ limit := 3, interval := 100, limit_pos := by decide, interval_pos := by decide }]
    enforced := by decide }

def fortyThousandIn100 : RateList :=
  { toList :=
      [{ limit := 40000, interval := 100, limit_pos := by decide, interval_pos := by decide }]
    enforced := by decide }

def twoIn100ThreeIn1000 : RateList :=
  { toList :=
      [{ limit := 2, interval := 100, limit_pos := by decide, interval_pos := by decide },
        { limit := 3, interval := 1000, limit_pos := by decide, interval_pos := by decide }]
    enforced := by decide }

instance : Membership Rate RateList where
  mem rates rate := rate ∈ rates.toList

theorem RateList.mem_toList {rates : RateList} {rate : Rate} :
    rate ∈ rates.toList ↔ rate ∈ rates := Iff.rfl

/-- Only the verdict `True` keeps the exception of `enforce_rate_list` away. -/
theorem ok_true_of_enforced {verdict : Except PyError Bool} {illFormed : PyError}
    (enforced : (do if ← verdict then .ok () else .error illFormed) =
      (.ok () : Except PyError Unit)) : verdict = .ok true := by
  cases verdict with
  | error raised => cases enforced
  | ok verdict =>
      cases verdict with
      | true => rfl
      | false => cases enforced

/-- Past the density check both divisions returned and the loop goes on. -/
theorem ok_true_of_compared {δ : Type} {current prev : Except PyError δ}
    {denser : δ → δ → Bool} {remaining : Except PyError Bool}
    (compared : (do
      let currentDensity ← current
      let prevDensity ← prev
      if denser prevDensity currentDensity then .ok false else remaining) = .ok true) :
    remaining = .ok true := by
  cases current with
  | error raised => cases compared
  | ok currentDensity =>
      cases prev with
      | error raised => cases compared
      | ok prevDensity =>
          simp only [bind, Except.bind] at compared
          split at compared
          · cases compared
          · exact compared

/-- What the checks on one adjacent pair leave when the whole list is accepted. -/
theorem ok_true_of_checked {δ : Type} {tooNarrow tooSmall : Prop} [Decidable tooNarrow]
    [Decidable tooSmall] {current prev : Except PyError δ} {denser : δ → δ → Bool}
    {remaining : Except PyError Bool}
    (checked : (if tooNarrow then .ok false else if tooSmall then .ok false else do
      let currentDensity ← current
      let prevDensity ← prev
      if denser prevDensity currentDensity then .ok false else remaining) = .ok true) :
    ¬tooNarrow ∧ ¬tooSmall ∧ remaining = .ok true := by
  split at checked
  · cases checked
  · rename_i wider
    split at checked
    · cases checked
    · rename_i larger
      exact ⟨wider, larger, ok_true_of_compared checked⟩

theorem validateRateList_of_enforced {rates : List Rate}
    (enforced : enforceRateList rates = .ok ()) : validateRateList rates = .ok true :=
  ok_true_of_enforced enforced

theorem validateRateList_cons {prevRate currentRate : Rate} {rest : List Rate}
    (validated : validateRateList (prevRate :: currentRate :: rest) = .ok true) :
    prevRate.interval < currentRate.interval ∧ prevRate.limit < currentRate.limit ∧
      validateRateList (currentRate :: rest) = .ok true := by
  unfold validateRateList at validated
  obtain ⟨wider, larger, tailValid⟩ := ok_true_of_checked validated
  exact ⟨Int.not_le.mp wider, Int.not_le.mp larger, tailValid⟩

theorem validateRateList_pairwise {rates : List Rate}
    (validated : validateRateList rates = .ok true) :
    rates.Pairwise (fun left right =>
      left.interval < right.interval ∧ left.limit < right.limit) := by
  induction rates with
  | nil => exact .nil
  | cons prevRate tail ih =>
      cases tail with
      | nil => exact List.pairwise_singleton _ _
      | cons currentRate rest =>
          obtain ⟨wider, larger, tailValid⟩ := validateRateList_cons validated
          have tailOrdered := ih tailValid
          refine List.pairwise_cons.mpr ⟨?_, tailOrdered⟩
          intro later member
          rcases List.mem_cons.mp member with same | remaining
          · subst later
            exact ⟨wider, larger⟩
          · have step := (List.pairwise_cons.mp tailOrdered).1 later remaining
            exact ⟨Int.lt_trans wider step.1, Int.lt_trans larger step.2⟩

theorem RateList.pairwise (rates : RateList) :
    rates.toList.Pairwise (fun left right =>
      left.interval < right.interval ∧ left.limit < right.limit) :=
  validateRateList_pairwise (validateRateList_of_enforced rates.enforced)

theorem RateList.ne_nil (rates : RateList) : rates.toList ≠ [] := by
  intro empty
  have validated := validateRateList_of_enforced rates.enforced
  rw [empty] at validated
  cases validated

/-- `rates[0]`, the rate of the narrowest window and of the smallest limit. -/
def RateList.first (rates : RateList) : Rate := rates.toList.head rates.ne_nil

/-- `rates[-1]`, the rate of the widest window and of the largest limit. -/
def RateList.last (rates : RateList) : Rate := rates.toList.getLast rates.ne_nil

theorem RateList.first_mem (rates : RateList) : rates.first ∈ rates :=
  List.head_mem rates.ne_nil

theorem RateList.last_mem (rates : RateList) : rates.last ∈ rates :=
  List.getLast_mem rates.ne_nil

theorem RateList.first_limit_le (rates : RateList) (rate : Rate) (member : rate ∈ rates) :
    rates.first.limit ≤ rate.limit := by
  have ordered : rates.toList.Pairwise (fun left right => left.limit ≤ right.limit) :=
    rates.pairwise.imp (fun both => Int.le_of_lt both.2)
  exact ordered.rel_head_of_rel_head_head member (Int.le_refl _)

theorem RateList.eq_of_interval_eq {rates : RateList} {left right : Rate}
    (leftMember : left ∈ rates) (rightMember : right ∈ rates)
    (same : left.interval = right.interval) : left = right := by
  have distinct : (rates.toList.map Rate.interval).Nodup :=
    List.pairwise_map.mpr (rates.pairwise.imp (fun both => Int.ne_of_lt both.1))
  exact List.inj_on_of_nodup_map distinct leftMember rightMember same

/-- Every window is contained in the one that leaking is measured by. -/
theorem RateList.interval_le_last (rates : RateList) (rate : Rate) (member : rate ∈ rates) :
    rate.interval ≤ rates.last.interval := by
  have ordered : rates.toList.Pairwise (fun left right => left.interval ≤ right.interval) :=
    rates.pairwise.imp (fun both => Int.le_of_lt both.1)
  exact ordered.rel_getLast_of_rel_getLast_getLast member (Int.le_refl _)

end PyrateLimiter
