/-
The rates setter over every rate that can be built.

`Rate.__init__` asserts its two numbers to be truthy, so a negative limit or a
negative interval reaches the setter too.  Rates are signed here, and a bucket
keeps whichever list it stored last.  The positive rates of the other modules
are the signed rates without a sign, and their setter is this one.
-/

import PyrateLimiter.Foundations.OrderBy
import PyrateLimiter.Rate

namespace PyrateLimiter

open Foundations.OrderBy

structure SignedDouble where
  mantissa : Int
  exponent : Int
  deriving DecidableEq, Repr

def SignedDouble.lt (left right : SignedDouble) : Bool :=
  left.mantissa * 2 ^ (left.exponent - right.exponent).toNat <
    right.mantissa * 2 ^ (right.exponent - left.exponent).toNat

/-- Python's `/` on integers divides the absolute values and puts the sign back. -/
def signedTrueDiv (numerator denominator : Int) : Except PyError SignedDouble := do
  let quotient ← trueDiv numerator.natAbs denominator.natAbs
  .ok
    { mantissa := numerator.sign * denominator.sign * quotient.mantissa
      exponent := quotient.exponent }

structure SignedRate where
  limit : Int
  interval : Int
  interval_truthy : interval ≠ 0
  limit_truthy : limit ≠ 0
  deriving DecidableEq, Repr

namespace SignedRate

/-- `Rate.__init__`, with the interval already converted to an integer. -/
def init (limit interval : Int) : Except PyError SignedRate :=
  if hInterval : interval = 0 then .error (.assertionError "")
  else if hLimit : limit = 0 then .error (.assertionError "")
  else .ok
    { limit := limit
      interval := interval
      interval_truthy := hInterval
      limit_truthy := hLimit }

/-- The constructor builds every rate of this type. -/
theorem init_eq (rate : SignedRate) : init rate.limit rate.interval = .ok rate := by
  simp only [init, rate.interval_truthy, rate.limit_truthy, dite_false]

def repr (rate : SignedRate) : String :=
  "limit=" ++ toString rate.limit ++ "/" ++ toString rate.interval

def density (rate : SignedRate) : Except PyError SignedDouble :=
  signedTrueDiv rate.limit rate.interval

def validateRateList : List SignedRate → Except PyError Bool
  | [] => .ok false
  | [_] => .ok true
  | prevRate :: currentRate :: rest =>
      if currentRate.interval ≤ prevRate.interval then .ok false
      else if currentRate.limit ≤ prevRate.limit then .ok false
      else do
        let currentDensity ← currentRate.density
        let prevDensity ← prevRate.density
        if prevDensity.lt currentDensity then .ok false
        else validateRateList (currentRate :: rest)

def reprRates (rates : List SignedRate) : String :=
  "[" ++ ", ".intercalate (rates.map repr) ++ "]"

def enforceRateList (rates : List SignedRate) : Except PyError Unit := do
  if ← validateRateList rates then .ok ()
  else .error (.valueError
    ("Invalid rate list: rates must be non-empty and ordered by strictly " ++
      "increasing interval, with strictly increasing limits and non-increasing " ++
      "density (limit/interval). Got: " ++ reprRates rates))

end SignedRate

/-- The part of a bucket that the rates property reads and writes: `_rates`,
which has no value before the first assignment that succeeds. -/
structure AbstractBucket where
  storedRates : Option (List SignedRate)
  deriving DecidableEq, Repr

namespace AbstractBucket

def new : AbstractBucket := { storedRates := none }

/-- The setter `rates`.  An exception leaves before the assignment to `_rates`. -/
def setRates (bucket : AbstractBucket) (value : List SignedRate) :
    Except PyError Unit × AbstractBucket :=
  let ordered := orderBy SignedRate.interval value
  match SignedRate.enforceRateList ordered with
  | .error raised => (.error raised, bucket)
  | .ok () => (.ok (), { storedRates := some ordered })

/-- The bucket left by a run of assignments, each of which may have raised. -/
def afterAssignments (values : List (List SignedRate)) : AbstractBucket :=
  values.foldl (fun bucket value => (bucket.setRates value).2) new

end AbstractBucket

/-! ### What a stored list guarantees -/

/-- The order that `leak` and `put` rely on. -/
structure OrderedRates (rates : List SignedRate) : Prop where
  nonempty : rates ≠ []
  wider : rates.Pairwise (fun left right => left.interval < right.interval)
  larger : rates.Pairwise (fun left right => left.limit < right.limit)
  /-- `rates[-1]` has the widest interval. -/
  widest : ∀ rate, rate ∈ rates → rate.interval ≤ (rates.getLast nonempty).interval
  /-- A length below one limit is below all later ones. -/
  belowLater : ∀ earlier rate later, rates = earlier ++ rate :: later →
    ∀ length : Int, length < rate.limit → ∀ next, next ∈ later → length < next.limit

namespace SignedRate

theorem validateRateList_cons {prevRate currentRate : SignedRate} {rest : List SignedRate}
    (validated : validateRateList (prevRate :: currentRate :: rest) = .ok true) :
    prevRate.interval < currentRate.interval ∧ prevRate.limit < currentRate.limit ∧
      validateRateList (currentRate :: rest) = .ok true := by
  unfold validateRateList at validated
  obtain ⟨wider, larger, tailValid⟩ := ok_true_of_checked validated
  exact ⟨Int.not_le.mp wider, Int.not_le.mp larger, tailValid⟩

/-- Each rate is compared with its neighbour only; the order of intervals and
the order of limits are transitive, the rest of the check is not needed. -/
theorem validateRateList_isChain {rates : List SignedRate}
    (validated : validateRateList rates = .ok true) :
    rates.IsChain (fun left right => left.interval < right.interval) ∧
      rates.IsChain (fun left right => left.limit < right.limit) := by
  induction rates with
  | nil => cases validated
  | cons prevRate tail ih =>
      cases tail with
      | nil => exact ⟨.singleton prevRate, .singleton prevRate⟩
      | cons currentRate rest =>
          obtain ⟨wider, larger, tailValid⟩ := validateRateList_cons validated
          obtain ⟨tailWider, tailLarger⟩ := ih tailValid
          exact ⟨.cons_cons wider tailWider, .cons_cons larger tailLarger⟩

theorem orderedRates_of_enforced {rates : List SignedRate}
    (enforced : enforceRateList rates = .ok ()) : OrderedRates rates := by
  have validated : validateRateList rates = .ok true := ok_true_of_enforced enforced
  obtain ⟨widerChain, largerChain⟩ := validateRateList_isChain validated
  have _widerTrans : IsTrans SignedRate (fun left right => left.interval < right.interval) :=
    ⟨fun _ _ _ first second => Int.lt_trans first second⟩
  have _largerTrans : IsTrans SignedRate (fun left right => left.limit < right.limit) :=
    ⟨fun _ _ _ first second => Int.lt_trans first second⟩
  have wider := widerChain.pairwise
  have larger := largerChain.pairwise
  have nonempty : rates ≠ [] := by
    intro empty
    subst empty
    cases validated
  refine
    { nonempty := nonempty
      wider := wider
      larger := larger
      widest := ?_
      belowLater := ?_ }
  · intro rate member
    have narrower : rates.Pairwise (fun left right => left.interval ≤ right.interval) :=
      wider.imp Int.le_of_lt
    exact narrower.rel_getLast_of_rel_getLast_getLast member (Int.le_refl _)
  · intro earlier rate later shape length below next member
    rw [shape] at larger
    have onward := (List.pairwise_cons.mp (List.pairwise_append.mp larger).2.1).1 next member
    exact Int.lt_trans below onward

end SignedRate

theorem OrderedRates.interval_nodup {rates : List SignedRate} (ordered : OrderedRates rates) :
    (rates.map SignedRate.interval).Nodup :=
  List.pairwise_map.mpr (ordered.wider.imp Int.ne_of_lt)

namespace AbstractBucket

/-- The list alone decides: an assignment raises and changes nothing, or it
stores the sorted list whatever was stored before. -/
theorem setRates_cases (value : List SignedRate) :
    (∃ raised, ∀ bucket : AbstractBucket, bucket.setRates value = (.error raised, bucket)) ∨
    OrderedRates (orderBy SignedRate.interval value) ∧
      ∀ bucket : AbstractBucket, bucket.setRates value =
        (.ok (), { storedRates := some (orderBy SignedRate.interval value) }) := by
  cases enforced : SignedRate.enforceRateList (orderBy SignedRate.interval value) with
  | error raised =>
      refine Or.inl ⟨raised, ?_⟩
      intro bucket
      simp only [setRates, enforced]
  | ok checked =>
      refine Or.inr ⟨SignedRate.orderedRates_of_enforced enforced, ?_⟩
      intro bucket
      simp only [setRates, enforced]

/-- Equal intervals are refused, so an accepted list has one sorted order. -/
theorem orderBy_eq_of_accepted {value permuted : List SignedRate} (same : value.Perm permuted)
    (accepted : OrderedRates (orderBy SignedRate.interval value)) :
    orderBy SignedRate.interval value = orderBy SignedRate.interval permuted := by
  have rows := orderBy_perm SignedRate.interval value
  exact orderBy_eq_of_perm same
    ((rows.map SignedRate.interval).nodup_iff.mp accepted.interval_nodup)

theorem setRates_of_perm {value permuted : List SignedRate} (same : value.Perm permuted)
    (accepted : OrderedRates (orderBy SignedRate.interval value)) (bucket : AbstractBucket) :
    bucket.setRates permuted = bucket.setRates value := by
  simp only [setRates, orderBy_eq_of_accepted same accepted]

theorem stored_orderedRates_step {bucket : AbstractBucket}
    (stored : ∀ rates, bucket.storedRates = some rates → OrderedRates rates)
    (value : List SignedRate) :
    ∀ rates, (bucket.setRates value).2.storedRates = some rates → OrderedRates rates := by
  intro rates kept
  rcases setRates_cases value with ⟨raised, raises⟩ | ⟨accepted, stores⟩
  · rw [raises bucket] at kept
    exact stored rates kept
  · rw [stores bucket] at kept
    rw [← Option.some.inj kept]
    exact accepted

theorem stored_orderedRates (values : List (List SignedRate)) :
    ∀ rates, (afterAssignments values).storedRates = some rates → OrderedRates rates := by
  suffices run : ∀ bucket : AbstractBucket,
      (∀ rates, bucket.storedRates = some rates → OrderedRates rates) →
      ∀ rates, (values.foldl (fun bucket value => (bucket.setRates value).2) bucket).storedRates =
        some rates → OrderedRates rates by
    refine run new ?_
    intro rates impossible
    cases impossible
  induction values with
  | nil => exact fun _bucket stored => stored
  | cons value rest ih =>
      intro bucket stored
      exact ih (bucket.setRates value).2 (stored_orderedRates_step stored value)

end AbstractBucket

/-- Two buckets, whatever was assigned to them before, given one list in two
orders.  An assignment that raises leaves its bucket as it was. -/
theorem rates_setter_contract (earlier others : List (List SignedRate))
    {value permuted : List SignedRate} (same : value.Perm permuted) :
    let first := AbstractBucket.afterAssignments earlier
    let second := AbstractBucket.afterAssignments others
    (∀ rates, first.storedRates = some rates → OrderedRates rates) ∧
    ((∃ raised raisedPermuted,
        first.setRates value = (.error raised, first) ∧
        second.setRates permuted = (.error raisedPermuted, second)) ∨
      ∃ stored, OrderedRates stored ∧ stored.Perm value ∧
        first.setRates value = (.ok (), { storedRates := some stored }) ∧
        second.setRates permuted = (.ok (), { storedRates := some stored })) := by
  intro first second
  refine ⟨AbstractBucket.stored_orderedRates earlier, ?_⟩
  rcases AbstractBucket.setRates_cases value with ⟨raised, raises⟩ | ⟨accepted, stores⟩
  · rcases AbstractBucket.setRates_cases permuted with
      ⟨raisedPermuted, raisesPermuted⟩ | ⟨accepted, stores⟩
    · exact Or.inl ⟨raised, raisedPermuted, raises first, raisesPermuted second⟩
    · -- the accepted order would be the only one, and then both are accepted
      have agree := AbstractBucket.setRates_of_perm same.symm accepted first
      rw [raises first, stores first] at agree
      cases congrArg Prod.fst agree
  · refine Or.inr ⟨_, accepted, orderBy_perm _ _, stores first, ?_⟩
    rw [AbstractBucket.setRates_of_perm same accepted second]
    exact stores second

def hundredASecond : SignedRate :=
  { limit := 100, interval := 1000, interval_truthy := by decide, limit_truthy := by decide }

def twoHundredAMinute : SignedRate :=
  { limit := 200, interval := 60000, interval_truthy := by decide, limit_truthy := by decide }

theorem rates_setter_contract_swapped :
    ∃ stored, OrderedRates stored ∧
      (AbstractBucket.afterAssignments []).setRates [twoHundredAMinute, hundredASecond] =
        (.ok (), { storedRates := some stored }) ∧
      (AbstractBucket.afterAssignments [[hundredASecond]]).setRates
        [hundredASecond, twoHundredAMinute] = (.ok (), { storedRates := some stored }) := by
  have swapped : [twoHundredAMinute, hundredASecond].Perm [hundredASecond, twoHundredAMinute] :=
    List.Perm.swap _ _ _
  have accepted : (AbstractBucket.new.setRates [twoHundredAMinute, hundredASecond]).1 = .ok () := by
    decide
  rcases (rates_setter_contract [] [[hundredASecond]] swapped).2 with
    ⟨raised, _raisedPermuted, raises, _raises⟩ | ⟨stored, ordered, _rows, stores, storesPermuted⟩
  · cases (congrArg Prod.fst raises).symm.trans accepted
  · exact ⟨stored, ordered, stores, storesPermuted⟩

def threeHundredASecond : SignedRate :=
  { limit := 300, interval := 1000, interval_truthy := by decide, limit_truthy := by decide }

/-- The sort keeps equal intervals in either order and both orders are refused. -/
example :
    (AbstractBucket.new.setRates [hundredASecond, threeHundredASecond]).1 ≠ .ok () ∧
    (AbstractBucket.new.setRates [threeHundredASecond, hundredASecond]).1 ≠ .ok () := by
  decide

/-! ### The rates without a sign -/

def Rate.signed (rate : Rate) : SignedRate :=
  { limit := rate.limit
    interval := rate.interval
    interval_truthy := Int.ne_of_gt rate.interval_pos
    limit_truthy := Int.ne_of_gt rate.limit_pos }

def Double.signed (quotient : Double) : SignedDouble :=
  { mantissa := quotient.mantissa
    exponent := quotient.exponent }

theorem Double.signed_lt (left right : Double) : left.signed.lt right.signed = left.lt right := by
  simp only [SignedDouble.lt, Double.lt, Double.signed]
  norm_cast

theorem Rate.signed_density (rate : Rate) :
    rate.signed.density = (rate.density).map Double.signed := by
  have limitSign : rate.limit.sign = 1 := Int.sign_eq_one_of_pos rate.limit_pos
  have intervalSign : rate.interval.sign = 1 := Int.sign_eq_one_of_pos rate.interval_pos
  have limitAbs : rate.limit.natAbs = rate.limit.toNat := by
    have positive := rate.limit_pos
    omega
  have intervalAbs : rate.interval.natAbs = rate.interval.toNat := by
    have positive := rate.interval_pos
    omega
  simp only [SignedRate.density, signedTrueDiv, Rate.signed, Rate.density, limitAbs, intervalAbs,
    limitSign, intervalSign]
  cases trueDiv rate.limit.toNat rate.interval.toNat with
  | error raised => rfl
  | ok quotient => simp [bind, Except.bind, Except.map, Double.signed]

theorem signed_validateRateList (rates : List Rate) :
    SignedRate.validateRateList (rates.map Rate.signed) = validateRateList rates := by
  induction rates with
  | nil => rfl
  | cons prevRate tail ih =>
      cases tail with
      | nil => rfl
      | cons currentRate rest =>
          simp only [List.map_cons, SignedRate.validateRateList, validateRateList,
            Rate.signed_density] at ih ⊢
          cases currentRate.density with
          | error raised => rfl
          | ok currentDensity =>
              cases prevRate.density with
              | error raised => rfl
              | ok prevDensity =>
                  simp only [Except.map, bind, Except.bind, Double.signed_lt]
                  rw [ih]
                  rfl

theorem signed_enforceRateList (rates : List Rate) :
    SignedRate.enforceRateList (rates.map Rate.signed) = enforceRateList rates := by
  have texts : SignedRate.reprRates (rates.map Rate.signed) = reprRates rates := by
    simp only [SignedRate.reprRates, reprRates, List.map_map]
    rfl
  simp only [SignedRate.enforceRateList, enforceRateList, signed_validateRateList, texts]

theorem signed_orderBy (value : List Rate) :
    orderBy SignedRate.interval (value.map Rate.signed) =
      (orderBy Rate.interval value).map Rate.signed := by
  symm
  exact List.map_insertionSort _ _ Rate.signed value (fun _left _ _right _ => Iff.rfl)

theorem setRates_ok {value : List Rate} {rates : RateList} (built : setRates value = .ok rates) :
    rates.toList = orderBy Rate.interval value := by
  unfold setRates at built
  dsimp only at built
  split at built
  · cases built
    rfl
  · cases built

theorem setRates_error {value : List Rate} {raised : PyError}
    (built : setRates value = .error raised) :
    enforceRateList (orderBy Rate.interval value) = .error raised := by
  unfold setRates at built
  dsimp only at built
  split at built
  · cases built
  · rename_i refused enforced
    cases built
    exact enforced

/-- The setter that builds an accepted list is this setter on rates without a sign. -/
theorem AbstractBucket.setRates_signed (bucket : AbstractBucket) (value : List Rate) :
    bucket.setRates (value.map Rate.signed) =
      match PyrateLimiter.setRates value with
      | .error raised => (.error raised, bucket)
      | .ok rates => (.ok (), { storedRates := some (rates.toList.map Rate.signed) }) := by
  simp only [AbstractBucket.setRates, signed_orderBy, signed_enforceRateList]
  cases built : PyrateLimiter.setRates value with
  | error raised => simp only [setRates_error built]
  | ok rates => simp only [← setRates_ok built, rates.enforced]

end PyrateLimiter
