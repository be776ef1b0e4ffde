/-
The in-memory bucket: a list of items kept in ascending order of timestamp.

`put` decides with a length shortcut and a binary search, `leak` deletes a
prefix.  On a sorted list both are described by counts over the window log of
the recorded units; that description is what the runs, the retry loop and the
thread interleavings are verified against.
-/

import Mathlib.Order.Bounds.Defs
import PyrateLimiter.Bucket
import PyrateLimiter.Foundations.Bisect

namespace PyrateLimiter

open Foundations.WindowLog
open Foundations.Bisect

structure InMemoryBucket where
  rates : RateList
  items : List RateItem
  failingRate : Option Rate

namespace InMemoryBucket

def empty (rates : RateList) : InMemoryBucket :=
  { rates := rates
    items := []
    failingRate := none }

def init (rates : List Rate) : Except PyError InMemoryBucket := (setRates rates).map empty

/-- The loop over the rates in `put`: the first rate without space, unless the
length shortcut leaves the loop before it. -/
def findFailingRate (items : List RateItem) (item : RateItem) (afterLength : Int) :
    List Rate → Option Rate
  | [] => none
  | rate :: rest =>
      if afterLength < rate.limit then none
      else
        let lowerBoundValue := item.timestamp - rate.interval
        let lowerBoundIdx := bisectLeft RateItem.timestamp items lowerBoundValue
        let countExistingItems : Int := (items.length : Int) - (lowerBoundIdx : Int)
        let spaceAvailable := rate.limit - countExistingItems
        if spaceAvailable < item.weight then some rate
        else findFailingRate items item afterLength rest

def unitsOf (item : RateItem) : List RateItem :=
  if 1 < item.weight then List.replicate item.weight.toNat item else [item]

def put (bucket : InMemoryBucket) (item : RateItem) : Bool × InMemoryBucket :=
  if item.weight = 0 then (true, bucket)
  else
    let currentLength : Int := (bucket.items.length : Int)
    let afterLength := item.weight + currentLength
    match findFailingRate bucket.items item afterLength bucket.rates.toList with
    | some rate => (false, { bucket with failingRate := some rate })
    | none => (true, { bucket with failingRate := none, items := bucket.items ++ unitsOf item })

def leak (bucket : InMemoryBucket) (currentTimestamp : Int) : Int × InMemoryBucket :=
  match bucket.items with
  | [] => (0, bucket)
  | oldest :: later =>
      let lowerBound := leakBound bucket.rates currentTimestamp
      if ((oldest :: later).getLast (List.cons_ne_nil _ _)).timestamp < lowerBound then
        (bucket.items.length, { bucket with items := [] })
      else if lowerBound < oldest.timestamp then (0, bucket)
      else
        let idx := bisectLeft RateItem.timestamp bucket.items lowerBound
        (idx, { bucket with items := bucket.items.drop idx })

def flush (bucket : InMemoryBucket) : InMemoryBucket :=
  { bucket with failingRate := none, items := [] }

def count (bucket : InMemoryBucket) : Int := bucket.items.length

/-- `items[index]` in Python, counted from the end for a negative index. -/
def itemAt (items : List RateItem) (index : Int) : Option RateItem :=
  if 0 ≤ index then items[index.toNat]?
  else if 0 ≤ items.length + index then items[(items.length + index).toNat]?
  else none

def peek (bucket : InMemoryBucket) (index : Int) : Option RateItem :=
  if bucket.items.isEmpty then none
  else if (index.natAbs : Int) < bucket.count then itemAt bucket.items (-1 - index)
  else none

def waiting (bucket : InMemoryBucket) (item : RateItem) : Except PyError Int :=
  PyrateLimiter.waiting bucket.failingRate bucket.peek item

/-! ### The window log of a bucket -/

def stamps (bucket : InMemoryBucket) : List Int := bucket.items.map RateItem.timestamp

/-- Items are kept sorted by timestamp ascending. -/
def Sorted (bucket : InMemoryBucket) : Prop := bucket.stamps.Pairwise (· ≤ ·)

instance (bucket : InMemoryBucket) : Decidable bucket.Sorted :=
  inferInstanceAs (Decidable (bucket.stamps.Pairwise (· ≤ ·)))

theorem Sorted.items {bucket : InMemoryBucket} (sorted : bucket.Sorted) :
    SortedBy RateItem.timestamp bucket.items :=
  List.pairwise_map.mp sorted

theorem countSince_stamps (bucket : InMemoryBucket) (start : Int) :
    countSince bucket.stamps start =
      bucket.items.countP (fun item => start ≤ item.timestamp) :=
  List.countP_map

theorem countSince_stamps_le_length (bucket : InMemoryBucket) (start : Int) :
    countSince bucket.stamps start ≤ bucket.items.length := by
  rw [countSince_stamps]
  exact List.countP_le_length

theorem unitsOf_eq_replicate {item : RateItem} (positive : 1 ≤ item.weight) :
    unitsOf item = List.replicate item.weight.toNat item := by
  unfold unitsOf
  split
  · rfl
  · have single : item.weight = 1 := by omega
    rw [single]
    rfl

theorem stamps_unitsOf (item : RateItem) (positive : 1 ≤ item.weight) :
    (unitsOf item).map RateItem.timestamp =
      List.replicate item.weight.toNat item.timestamp := by
  rw [unitsOf_eq_replicate positive, List.map_replicate]

/-! ### What put does -/

theorem findFailingRate_eq {bucket : InMemoryBucket} (sorted : bucket.Sorted) (item : RateItem)
    (rates : List Rate) (ordered : rates.Pairwise (fun left right => left.limit < right.limit)) :
    findFailingRate bucket.items item (item.weight + (bucket.items.length : Int)) rates =
      rates.find? (Rate.overfull bucket.stamps item.timestamp item.weight) := by
  induction rates with
  | nil => rfl
  | cons rate rest ih =>
      obtain ⟨larger, restOrdered⟩ := List.pairwise_cons.mp ordered
      simp only [findFailingRate]
      split
      · rename_i short
        -- Every later limit is larger still, so no count can reach it.
        symm
        rw [List.find?_eq_none]
        intro other member
        have counted := countSince_stamps_le_length bucket (item.timestamp - other.interval)
        have limitLe : rate.limit ≤ other.limit := by
          rcases List.mem_cons.mp member with same | later
          · rw [same]
          · exact Int.le_of_lt (larger other later)
        simp only [Rate.overfull, decide_eq_true_eq]
        omega
      · have counted : (bucket.items.length : Int) -
            (bisectLeft RateItem.timestamp bucket.items (item.timestamp - rate.interval) : Int) =
              (countSince bucket.stamps (item.timestamp - rate.interval) : Int) := by
          have below := bisectLeft_le_length RateItem.timestamp bucket.items
            (item.timestamp - rate.interval)
          have rest := length_sub_bisectLeft (item.timestamp - rate.interval) sorted.items
          rw [countSince_stamps]
          omega
        rw [counted, List.find?_cons, ih restOrdered]
        by_cases full : rate.limit -
            (countSince bucket.stamps (item.timestamp - rate.interval) : Int) < item.weight
        · simp only [Rate.overfull, if_pos full, decide_eq_true full]
        · simp only [Rate.overfull, if_neg full, decide_eq_false full]

theorem put_eq {bucket : InMemoryBucket} (sorted : bucket.Sorted) (item : RateItem)
    (positive : 1 ≤ item.weight) :
    bucket.put item =
      match bucket.rates.refusing bucket.stamps item.timestamp item.weight with
      | some rate => (false, { bucket with failingRate := some rate })
      | none =>
          (true, { bucket with failingRate := none, items := bucket.items ++ unitsOf item }) := by
  unfold put RateList.refusing
  rw [if_neg (by omega)]
  simp only []
  rw [findFailingRate_eq sorted item bucket.rates.toList
    (bucket.rates.pairwise.imp (fun both => both.2))]

/-- A put at a sorted bucket either finds room in every window and records its
units, or is refused by a rate and records nothing. -/
theorem put_cases {bucket : InMemoryBucket} (sorted : bucket.Sorted) (item : RateItem)
    (positive : 1 ≤ item.weight) :
    (Room bucket.rates.windows bucket.stamps item.timestamp item.weight ∧
      bucket.put item =
        (true, { bucket with failingRate := none, items := bucket.items ++ unitsOf item })) ∨
    ∃ rate, bucket.rates.refusing bucket.stamps item.timestamp item.weight = some rate ∧
      bucket.put item = (false, { bucket with failingRate := some rate }) := by
  cases refused : bucket.rates.refusing bucket.stamps item.timestamp item.weight with
  | none =>
      refine Or.inl ⟨RateList.refusing_eq_none_iff.mp refused, ?_⟩
      rw [put_eq sorted item positive, refused]
  | some rate =>
      refine Or.inr ⟨rate, rfl, ?_⟩
      rw [put_eq sorted item positive, refused]

theorem put_admits_iff {bucket : InMemoryBucket} (sorted : bucket.Sorted) (item : RateItem)
    (positive : 1 ≤ item.weight) :
    (bucket.put item).1 = true ↔
      Room bucket.rates.windows bucket.stamps item.timestamp item.weight := by
  rw [put_eq sorted item positive, ← RateList.refusing_eq_none_iff]
  cases bucket.rates.refusing bucket.stamps item.timestamp item.weight <;> simp

@[simp] theorem put_rates (bucket : InMemoryBucket) (item : RateItem) :
    (bucket.put item).2.rates = bucket.rates := by
  unfold put
  split
  · rfl
  · simp only []
    split <;> rfl

theorem put_refused {bucket : InMemoryBucket} {item : RateItem}
    (refused : (bucket.put item).1 = false) :
    ∃ rate, bucket.put item = (false, { bucket with failingRate := some rate }) := by
  unfold put at refused ⊢
  split at refused
  · cases refused
  · rename_i weighty
    rw [if_neg weighty]
    simp only [] at refused ⊢
    split at refused
    · rename_i rate failed
      exact ⟨rate, rfl⟩
    · cases refused

/-- An admitted put appends one copy of the item for each unit of its weight. -/
theorem put_admitted {bucket : InMemoryBucket} {item : RateItem} (nonneg : 0 ≤ item.weight)
    (admitted : (bucket.put item).1 = true) :
    (bucket.put item).2.items = bucket.items ++ List.replicate item.weight.toNat item := by
  unfold put at admitted ⊢
  split
  · rename_i weightless
    rw [weightless]
    exact (List.append_nil _).symm
  · rename_i weighty
    rw [if_neg weighty] at admitted
    simp only [] at admitted ⊢
    split at admitted
    · cases admitted
    · rw [← unitsOf_eq_replicate (by omega)]

/-- A put of any weight adds nothing but units of its own stamp. -/
theorem put_stamps (bucket : InMemoryBucket) (item : RateItem) :
    ∃ added, (bucket.put item).2.stamps = bucket.stamps ++ added ∧
      ∀ stamp, stamp ∈ added → stamp = item.timestamp := by
  have own : ∀ stamp, stamp ∈ (unitsOf item).map RateItem.timestamp → stamp = item.timestamp := by
    intro stamp member
    obtain ⟨unit, present, rfl⟩ := List.mem_map.mp member
    unfold unitsOf at present
    split at present
    · rw [List.eq_of_mem_replicate present]
    · rw [List.mem_singleton.mp present]
  unfold put
  split
  · exact ⟨[], (List.append_nil _).symm, fun stamp impossible => by cases impossible⟩
  · simp only []
    split
    · exact ⟨[], (List.append_nil _).symm, fun stamp impossible => by cases impossible⟩
    · exact ⟨(unitsOf item).map RateItem.timestamp, List.map_append, own⟩

/-- A put that even the smallest limit has space for is admitted, whatever its stamp. -/
theorem put_of_fits {bucket : InMemoryBucket} (sorted : bucket.Sorted) {item : RateItem}
    (positive : 1 ≤ item.weight)
    (fits : (bucket.items.length : Int) + item.weight ≤ bucket.rates.first.limit) :
    (bucket.put item).2.items = bucket.items ++ List.replicate item.weight.toNat item := by
  apply put_admitted (by omega)
  rw [put_admits_iff sorted item positive]
  unfold Room
  rw [RateList.forall_windows]
  intro rate member
  have smallest := bucket.rates.first_limit_le rate member
  have counted := countSince_stamps_le_length bucket (item.timestamp - rate.interval)
  simp only [Rate.window]
  omega

/-- A put keeps the order if its stamp is the newest one.  It does so in any case where
the narrowest window has room for one unit only: an admitted put then finds it empty. -/
theorem Sorted.put {bucket : InMemoryBucket} (sorted : bucket.Sorted) {item : RateItem}
    (positive : 1 ≤ item.weight)
    (ordered : bucket.rates.first.limit = 1 ∨
      ∀ old, old ∈ bucket.stamps → old ≤ item.timestamp) : (bucket.put item).2.Sorted := by
  rcases put_cases sorted item positive with ⟨room, admitted⟩ | ⟨rate, _refused, refused⟩
  · have newest : ∀ old, old ∈ bucket.stamps → old ≤ item.timestamp := by
      rcases ordered with single | newest
      · have fits := (RateList.forall_windows.mp room) _ bucket.rates.first_mem
        simp only [Rate.window, single] at fits
        have empty : countSince bucket.stamps (item.timestamp - bucket.rates.first.interval) = 0 := by
          omega
        intro old member
        have expired := (List.countP_eq_zero.mp empty) old member
        have wide := bucket.rates.first.interval_pos
        simp only [decide_eq_true_eq] at expired
        omega
      · exact newest
    rw [admitted]
    change ((bucket.items ++ unitsOf item).map RateItem.timestamp).Pairwise (· ≤ ·)
    rw [List.map_append, stamps_unitsOf item positive]
    exact sorted_append_replicate sorted newest item.weight.toNat
  · rw [refused]
    exact sorted

/-! ### What leak does -/

/-- All three exits of `leak` keep exactly the items at or above the bound. -/
theorem leak_eq {bucket : InMemoryBucket} (sorted : bucket.Sorted) (now : Int) :
    (bucket.leak now).2 =
      { bucket with
        items := bucket.items.filter
          (fun item => leakBound bucket.rates now ≤ item.timestamp) } := by
  have ordered := sorted.items
  have dropped := drop_bisectLeft (leakBound bucket.rates now) ordered
  obtain ⟨rates, items, failingRate⟩ := bucket
  cases items with
  | nil => rfl
  | cons oldest later =>
      simp only [leak] at dropped ⊢
      split
      · rename_i expired
        simp only []
        congr 1
        symm
        apply List.filter_eq_nil_iff.mpr
        intro item member
        obtain ⟨index, inside, rfl⟩ := List.mem_iff_getElem.mp member
        have newest := ordered.le_of_le (Nat.le_sub_one_of_lt inside) inside
          (Nat.sub_one_lt_of_lt inside)
        rw [List.getLast_eq_getElem] at expired
        simpa using Int.lt_of_le_of_lt newest expired
      · split
        · rename_i _expired fresh
          simp only []
          congr 1
          symm
          apply List.filter_eq_self.mpr
          intro item member
          rcases List.mem_cons.mp member with same | present
          · subst item
            simpa using Int.le_of_lt fresh
          · have older := (List.pairwise_cons.mp ordered).1 item present
            simpa using Int.le_trans (Int.le_of_lt fresh) older
        · rw [dropped]

/-- On every exit `leak` answers by how much the list has become shorter. -/
theorem leak_fst (bucket : InMemoryBucket) (now : Int) :
    (bucket.leak now).1 =
      (bucket.items.length : Int) - ((bucket.leak now).2.items.length : Int) := by
  have inside := bisectLeft_le_length RateItem.timestamp bucket.items
    (leakBound bucket.rates now)
  obtain ⟨rates, items, failingRate⟩ := bucket
  cases items with
  | nil => rfl
  | cons oldest later =>
      simp only [leak] at inside ⊢
      split
      · simp only [List.length_nil]
        omega
      · split
        · simp only []
          omega
        · simp only [List.length_drop]
          omega

theorem leak_splits {bucket : InMemoryBucket} (sorted : bucket.Sorted) (now : Int) :
    ∃ forgotten, bucket.stamps = forgotten ++ (bucket.leak now).2.stamps ∧
      ∀ old, old ∈ forgotten → old < leakBound bucket.rates now := by
  have ordered := sorted.items
  obtain ⟨_, below, _⟩ := bisectLeft_splits (leakBound bucket.rates now) ordered
  refine ⟨(bucket.items.take
    (bisectLeft RateItem.timestamp bucket.items (leakBound bucket.rates now))).map
      RateItem.timestamp, ?_, ?_⟩
  · rw [leak_eq sorted]
    simp only [stamps]
    rw [← drop_bisectLeft (leakBound bucket.rates now) ordered, ← List.map_append,
      List.take_append_drop]
  · intro old member
    obtain ⟨item, taken, rfl⟩ := List.mem_map.mp member
    obtain ⟨index, inside, rfl⟩ := List.mem_iff_getElem.mp taken
    rw [List.length_take] at inside
    rw [List.getElem_take]
    exact below index (by omega) (by omega)

@[simp] theorem leak_rates (bucket : InMemoryBucket) (now : Int) :
    (bucket.leak now).2.rates = bucket.rates := by
  unfold leak
  split
  · rfl
  · simp only []
    split
    · rfl
    · split <;> rfl

/-! ### What waiting answers -/

theorem peek_eq {bucket : InMemoryBucket} {index : Int} (nonneg : 0 ≤ index) :
    bucket.peek index =
      if index < (bucket.items.length : Int) then
        bucket.items[bucket.items.length - 1 - index.toNat]?
      else none := by
  unfold peek
  cases shape : bucket.items with
  | nil =>
      have deep : ¬index < ((List.nil : List RateItem).length : Int) := by
        rw [List.length_nil]
        omega
      rw [if_neg deep]
      rfl
  | cons oldest later =>
      have magnitude : (index.natAbs : Int) = index := Int.natAbs_of_nonneg nonneg
      simp only [List.isEmpty_cons, Bool.false_eq_true, if_false, count, shape, magnitude]
      by_cases shallow : index < ((oldest :: later).length : Int)
      · rw [if_pos shallow, if_pos shallow]
        unfold itemAt
        rw [if_neg (by omega), if_pos (by omega)]
        congr 1
        omega
      · rw [if_neg shallow, if_neg shallow]

theorem waiting_of_heavy {bucket : InMemoryBucket} {item : RateItem} {rate : Rate}
    (failing : bucket.failingRate = some rate) (positive : 1 ≤ item.weight)
    (heavy : rate.limit < item.weight) : bucket.waiting item = .ok (-1) := by
  have weighty : ¬item.weight ≤ 0 := by omega
  simp only [waiting, PyrateLimiter.waiting, waitingStart, failing, if_neg weighty,
    if_pos heavy]
  rfl

/-- The window holds at most `depth` stamps exactly when the stamp that has `depth`
newer ones lies before it. -/
theorem countSince_stamps_le_iff {bucket : InMemoryBucket} (sorted : bucket.Sorted) (bound : Int)
    {depth : Nat} (depthLt : depth < bucket.items.length)
    (positionLt : bucket.items.length - 1 - depth < bucket.items.length) :
    countSince bucket.stamps bound ≤ depth ↔
      bucket.items[bucket.items.length - 1 - depth].timestamp < bound := by
  have sameLength : bucket.stamps.length = bucket.items.length := List.length_map _
  have stampLt : bucket.stamps.length - 1 - depth < bucket.stamps.length := by omega
  have deep := lt_countSince_iff sorted bound stampLt (by omega)
  have sameStamp : bucket.stamps[bucket.stamps.length - 1 - depth] =
      bucket.items[bucket.items.length - 1 - depth].timestamp := by
    simp only [stamps, List.getElem_map, List.length_map]
  rw [sameStamp] at deep
  rw [← Nat.not_lt, deep, Int.not_le]

/-- The waiting time is the least delay after which the failing rate has room:
the peeked item is the newest one that must leave its window. -/
theorem waiting_spec {bucket : InMemoryBucket} (sorted : bucket.Sorted) (item : RateItem)
    {rate : Rate} (failing : bucket.failingRate = some rate) (positive : 1 ≤ item.weight)
    (fits : item.weight ≤ rate.limit) :
    ∃ milliseconds, bucket.waiting item = .ok milliseconds ∧
      ∀ delay, 0 ≤ delay →
        ((countSince bucket.stamps (item.timestamp + delay - rate.interval) : Int) + item.weight ≤
          rate.limit ↔ milliseconds ≤ delay) := by
  have weighty : ¬item.weight ≤ 0 := by omega
  have light : ¬rate.limit < item.weight := by omega
  have started : bucket.waiting item =
      waitingFinish (some rate) item (bucket.peek (rate.limit - item.weight)) := by
    simp only [waiting, PyrateLimiter.waiting, waitingStart, failing, if_neg weighty,
      if_neg light]
    rfl
  rw [started, peek_eq (by omega)]
  by_cases shallow : rate.limit - item.weight < (bucket.items.length : Int)
  · rw [if_pos shallow]
    have depthLt : (rate.limit - item.weight).toNat < bucket.items.length := by omega
    have positionLt : bucket.items.length - 1 - (rate.limit - item.weight).toNat <
        bucket.items.length := by
      omega
    rw [List.getElem?_eq_getElem positionLt]
    refine ⟨_, rfl, ?_⟩
    intro delay _nonneg
    have passed := countSince_stamps_le_iff sorted (item.timestamp + delay - rate.interval)
      depthLt positionLt
    constructor
    · intro room
      have older := passed.mp (by omega)
      omega
    · intro waited
      have counted := passed.mpr (by omega)
      omega
  · rw [if_neg shallow]
    refine ⟨0, rfl, ?_⟩
    intro delay nonneg
    have counted := countSince_stamps_le_length bucket (item.timestamp + delay - rate.interval)
    constructor
    · intro _room
      exact nonneg
    · intro _waited
      omega

end InMemoryBucket

/-- Whichever put left the failing rate behind, waiting as long as the bucket says, and no
less, brings the window of that rate to where the item fits. -/
theorem waiting_is_least_delay (bucket : InMemoryBucket) (sorted : bucket.Sorted)
    (item : RateItem) (rate : Rate) (failing : bucket.failingRate = some rate)
    (positive : 1 ≤ item.weight) (fits : item.weight ≤ rate.limit) :
    ∃ milliseconds, bucket.waiting item = .ok milliseconds ∧
      IsLeast
        {delay : Int | 0 ≤ delay ∧
          (bucket.items.countP (fun stored =>
              item.timestamp + delay - rate.interval ≤ stored.timestamp) : Int) +
            item.weight ≤ rate.limit}
        (max milliseconds 0) := by
  obtain ⟨milliseconds, answered, spec⟩ :=
    InMemoryBucket.waiting_spec sorted item failing positive fits
  simp only [InMemoryBucket.countSince_stamps] at spec
  refine ⟨milliseconds, answered, ⟨le_max_right _ _, ?_⟩, ?_⟩
  · -- The wait suffices.
    exact (spec _ (le_max_right _ _)).mpr (le_max_left _ _)
  · -- A shorter delay leaves the peeked item in the window.
    rintro delay ⟨nonneg, room⟩
    exact max_le ((spec delay nonneg).mp room) nonneg

/-- Two of the stored items have the same stamp, and one is expired for the failing rate. -/
def tiedAndExpired : InMemoryBucket :=
  { rates := twoIn100ThreeIn1000
    items := [⟨"a", 0, 1⟩, ⟨"b", 150, 1⟩, ⟨"c", 150, 1⟩]
    failingRate := some twoIn100ThreeIn1000.first }

theorem waiting_is_least_delay_tied :
    ∃ milliseconds, tiedAndExpired.waiting ⟨"d", 200, 1⟩ = .ok milliseconds ∧
      IsLeast
        {delay : Int | 0 ≤ delay ∧
          (tiedAndExpired.items.countP (fun stored =>
              200 + delay - twoIn100ThreeIn1000.first.interval ≤ stored.timestamp) : Int) +
            1 ≤ twoIn100ThreeIn1000.first.limit}
        (max milliseconds 0) :=
  waiting_is_least_delay tiedAndExpired (by decide) ⟨"d", 200, 1⟩ twoIn100ThreeIn1000.first rfl
    (by decide) (by decide)

end PyrateLimiter
