/-
The Redis bucket: a sorted set on the server, a script that checks and inserts.

The script runs atomically.  Python packs its arguments into one list and the
script reads them by position, so the translation keeps that list; the members
are inserted in batches of a thousand.  On the arguments Python packs the script
is described by one decision and one list of fresh members.
-/

import Mathlib.Data.String.Basic
import PyrateLimiter.Bucket
import PyrateLimiter.Foundations.SortedSets

namespace PyrateLimiter

open Foundations.SortedSets

abbrev RedisSet := SortedSet String Int

/-! ### The script -/

inductive Arg where
  | integer (value : Int)
  | text (value : String)
  deriving DecidableEq, Repr

/-- `tonumber(ARGV[index])`; positions count from one. -/
def argNumber (argv : List Arg) (index : Nat) : Option Int :=
  match argv[index - 1]? with
  | some (.integer value) => some value
  | _ => none

def argText (argv : List Arg) (index : Nat) : Option String :=
  match argv[index - 1]? with
  | some (.text value) => some value
  | _ => none

/-- The first loop of `PUT_ITEM`, from the `i`-th rate on. -/
def checkWindows (bucket : RedisSet) (argv : List Arg) (now spaceRequired : Int) :
    Nat → Nat → Option (Option Nat)
  | 0, _ => some none
  | remaining + 1, i => do
      let offset := (i - 1) * 2
      let interval ← argNumber argv (5 + offset)
      let limit ← argNumber argv (5 + offset + 1)
      let count : Int := bucket.count (now - interval) now
      let spaceAvailable := limit - count
      if spaceAvailable < spaceRequired then some (some (i - 1))
      else checkWindows bucket argv now spaceRequired remaining (i + 1)

def batchSize : Nat := 1000

/-- The second loop of `PUT_ITEM`, from the `i`-th member on: the `ZADD` calls. -/
def fillBatches (now : Int) (itemName : String) :
    Nat → Nat → List (String × Int) → List (List (String × Int))
  | 0, _, batch => if 0 < batch.length then [batch] else []
  | remaining + 1, i, batch =>
      let batch := batch ++ [(itemName ++ toString i, now)]
      if batch.length = batchSize then batch :: fillBatches now itemName remaining (i + 1) []
      else fillBatches now itemName remaining (i + 1) batch

structure ScriptRun where
  reply : Int
  zadds : List (List (String × Int))
  bucket : RedisSet

/-- `PUT_ITEM`; a missing argument is an error of the script. -/
def putItem (bucket : RedisSet) (argv : List Arg) : Option ScriptRun := do
  let now ← argNumber argv 1
  let spaceRequired ← argNumber argv 2
  let itemName ← argText argv 3
  let ratesCount ← argNumber argv 4
  match ← checkWindows bucket argv now spaceRequired ratesCount.toNat 1 with
  | some index =>
      some
        { reply := index
          zadds := []
          bucket := bucket }
  | none =>
      let zadds := fillBatches now itemName spaceRequired.toNat 1 []
      some
        { reply := -1
          zadds := zadds
          bucket := zadds.foldl SortedSet.addAll bucket }

/-! ### The bucket -/

structure RedisBucket where
  rates : RateList
  failingRate : Option Rate

namespace RedisBucket

def memberPrefix (item : RateItem) (id : String) : String := item.name ++ ":" ++ id ++ ":"

def packRates (rates : List Rate) : List Arg :=
  rates.flatMap (fun rate => [.integer rate.interval, .integer rate.limit])

def packArgs (rates : RateList) (item : RateItem) (id : String) : List Arg :=
  [.integer item.timestamp, .integer item.weight, .text (memberPrefix item id),
    .integer rates.toList.length] ++ packRates rates.toList

/-- `_handle_sync` on the reply of the script. -/
def handleReply (rates : RateList) (returnedIdx : Int) : Option (Option Rate) :=
  if returnedIdx < 0 then some none
  else (rates.toList[returnedIdx.toNat]?).map some

/-- `_check_and_insert`: the failing rate and the set the script leaves. -/
def checkAndInsert (rates : RateList) (set : RedisSet) (item : RateItem) (id : String) :
    Option (Option Rate × RedisSet) := do
  let run ← putItem set (packArgs rates item id)
  let failingRate ← handleReply rates run.reply
  some (failingRate, run.bucket)

def put (bucket : RedisBucket) (set : RedisSet) (item : RateItem) (id : String) :
    Option (Bool × RedisBucket × RedisSet) := do
  let (failingRate, set) ← checkAndInsert bucket.rates set item id
  some (failingRate.isNone, { bucket with failingRate := failingRate }, set)

def leak (bucket : RedisBucket) (set : RedisSet) (currentTimestamp : Int) : Nat × RedisSet :=
  set.removeRange 0 (leakBound bucket.rates currentTimestamp)

def flush (bucket : RedisBucket) (_set : RedisSet) : RedisBucket × RedisSet :=
  ({ bucket with failingRate := none }, SortedSet.empty)

def count (_bucket : RedisBucket) (set : RedisSet) : Nat := set.card

/-- The item `peek` makes of a `ZRANGE` reply of at most one member. -/
def handleItems (receivedItems : List (String × Int)) : Option RateItem :=
  match receivedItems with
  | [] => none
  | (name, score) :: _ => some { name := name, timestamp := score, weight := 1 }

/-- The reply to the `ZRANGE` of `peek`, whose rank counts from the largest score
unless it is negative. -/
def zrange (set : RedisSet) (index : Int) : List (String × Int) :=
  if 0 ≤ index then (set.fromLargest index.toNat).toList
  else (set.ranked[(-1 - index).toNat]?).toList

def peek (_bucket : RedisBucket) (set : RedisSet) (index : Int) : Option RateItem :=
  handleItems (zrange set index)

/-! ### What the script does with packed arguments -/

def lacksSpace (set : RedisSet) (item : RateItem) (rate : Rate) : Bool :=
  rate.limit - (set.count (item.timestamp - rate.interval) item.timestamp : Int) < item.weight

def newMembers (item : RateItem) (id : String) : List (String × Int) :=
  (List.range' 1 item.weight.toNat).map
    (fun i => (memberPrefix item id ++ toString i, item.timestamp))

theorem flatten_fillBatches (now : Int) (itemName : String) (remaining i : Nat)
    (batch : List (String × Int)) :
    (fillBatches now itemName remaining i batch).flatten =
      batch ++ (List.range' i remaining).map (fun i => (itemName ++ toString i, now)) := by
  induction remaining generalizing i batch with
  | zero =>
      unfold fillBatches
      split
      · simp
      · rename_i empty
        simp [List.length_eq_zero_iff.mp (Nat.eq_zero_of_not_pos empty)]
  | succ remaining ih =>
      unfold fillBatches
      simp only []
      split
      · rw [List.flatten_cons, ih, List.range'_succ]
        simp
      · rw [ih, List.range'_succ]
        simp

theorem length_packRates (rates : List Rate) : (packRates rates).length = rates.length * 2 := by
  induction rates with
  | nil => rfl
  | cons rate rest ih =>
      have tail : (packRates rest).length = rest.length * 2 := ih
      simp only [packRates, List.flatMap_cons, List.length_append, List.length_cons,
        List.length_nil] at tail ⊢
      omega

theorem argNumber_packRates {header : List Arg} (four : header.length = 4)
    (before rest : List Rate) (rate : Rate) :
    argNumber (header ++ packRates (before ++ rate :: rest)) (5 + before.length * 2) =
        some rate.interval ∧
      argNumber (header ++ packRates (before ++ rate :: rest)) (5 + before.length * 2 + 1) =
        some rate.limit := by
  have split : header ++ packRates (before ++ rate :: rest) =
      (header ++ packRates before) ++
        .integer rate.interval :: .integer rate.limit :: packRates rest := by
    simp only [packRates, List.flatMap_append, List.flatMap_cons, List.append_assoc,
      List.cons_append, List.nil_append]
  have front : (header ++ packRates before).length = 4 + before.length * 2 := by
    rw [List.length_append, four, length_packRates]
  unfold argNumber
  rw [split]
  constructor
  · rw [List.getElem?_append_right (by omega),
      show 5 + before.length * 2 - 1 - (header ++ packRates before).length = 0 by omega]
    rfl
  · rw [List.getElem?_append_right (by omega),
      show 5 + before.length * 2 + 1 - 1 - (header ++ packRates before).length = 1 by omega]
    rfl

theorem checkWindows_packRates (set : RedisSet) (item : RateItem) {header : List Arg}
    (four : header.length = 4) (before rest : List Rate) :
    checkWindows set (header ++ packRates (before ++ rest)) item.timestamp item.weight
        rest.length (before.length + 1) =
      some ((rest.findIdx? (lacksSpace set item)).map (fun index => before.length + index)) := by
  induction rest generalizing before with
  | nil => rfl
  | cons rate rest ih =>
      obtain ⟨intervalAt, limitAt⟩ := argNumber_packRates four before rest rate
      have later := ih (before ++ [rate])
      rw [List.append_assoc, List.singleton_append, List.length_append, List.length_singleton]
        at later
      rw [List.findIdx?_cons]
      simp only [List.length_cons, checkWindows, Nat.add_sub_cancel, intervalAt, limitAt,
        Option.bind_eq_bind, Option.bind_some, lacksSpace, later, decide_eq_true_eq]
      split
      · rfl
      · rw [Option.map_map]
        congr 2
        funext index
        simp only [Function.comp_apply]
        omega

/-- On packed arguments the script replies with the first rate without space, or
adds the new members in its batches. -/
theorem putItem_packArgs (rates : RateList) (set : RedisSet) (item : RateItem) (id : String) :
    putItem set (packArgs rates item id) =
      match rates.toList.findIdx? (lacksSpace set item) with
      | some index =>
          some
            { reply := index
              zadds := []
              bucket := set }
      | none =>
          some
            { reply := -1
              zadds := fillBatches item.timestamp (memberPrefix item id) item.weight.toNat 1 []
              bucket := set.addAll (newMembers item id) } := by
  have windows := checkWindows_packRates set item
    (show [Arg.integer item.timestamp, .integer item.weight, .text (memberPrefix item id),
      .integer rates.toList.length].length = 4 from rfl) [] rates.toList
  rw [List.nil_append, List.length_nil, Nat.zero_add] at windows
  have counted : checkWindows set (packArgs rates item id) item.timestamp item.weight
      ((rates.toList.length : Int).toNat) 1 =
        some (rates.toList.findIdx? (lacksSpace set item)) := by
    rw [Int.toNat_natCast, packArgs, windows]
    cases rates.toList.findIdx? (lacksSpace set item) <;> simp
  have added : (fillBatches item.timestamp (memberPrefix item id) item.weight.toNat 1 []).foldl
      SortedSet.addAll set = set.addAll (newMembers item id) := by
    rw [SortedSet.addAll_flatten, flatten_fillBatches, List.nil_append, newMembers]
  unfold putItem
  simp only [show argNumber (packArgs rates item id) 1 = some item.timestamp from rfl,
    show argNumber (packArgs rates item id) 2 = some item.weight from rfl,
    show argText (packArgs rates item id) 3 = some (memberPrefix item id) from rfl,
    show argNumber (packArgs rates item id) 4 = some (rates.toList.length : Int) from rfl,
    Option.bind_eq_bind, Option.bind_some, counted, added]

/-- The whole of `_check_and_insert`: the first rate without space, or the new
members added. -/
theorem checkAndInsert_eq (rates : RateList) (set : RedisSet) (item : RateItem) (id : String) :
    checkAndInsert rates set item id =
      some
        (match rates.toList.find? (lacksSpace set item) with
        | some rate => (some rate, set)
        | none => (none, set.addAll (newMembers item id))) := by
  unfold checkAndInsert
  rw [putItem_packArgs, List.find?_eq_bind_findIdx?_getElem?]
  cases found : rates.toList.findIdx? (lacksSpace set item) with
  | none => rfl
  | some index =>
      obtain ⟨inside, _⟩ := List.findIdx?_eq_some_iff_getElem.mp found
      have nonneg : ¬(index : Int) < 0 := by omega
      simp only [Option.bind_eq_bind, Option.bind_some, handleReply, if_neg nonneg,
        Int.toNat_natCast, List.getElem?_eq_getElem inside, Option.map_some]

/-- A script refuses for a rate without space and changes nothing, or every rate has space
and it adds the new members. -/
theorem checkAndInsert_cases {rates : RateList} {set after : RedisSet} {item : RateItem}
    {id : String} {failingRate : Option Rate}
    (ran : checkAndInsert rates set item id = some (failingRate, after)) :
    (∃ rate, rate ∈ rates ∧ lacksSpace set item rate = true ∧ failingRate = some rate ∧
      after = set) ∨
    (∀ rate, rate ∈ rates → lacksSpace set item rate = false) ∧ failingRate = none ∧
      after = set.addAll (newMembers item id) := by
  rw [checkAndInsert_eq] at ran
  cases found : rates.toList.find? (lacksSpace set item) with
  | some rate =>
      rw [found] at ran
      cases ran
      exact Or.inl
        ⟨rate, List.mem_of_find?_eq_some found, List.find?_some found, rfl, rfl⟩
  | none =>
      rw [found] at ran
      cases ran
      refine Or.inr ⟨?_, rfl, rfl⟩
      intro rate member
      exact Bool.eq_false_of_not_eq_true (List.find?_eq_none.mp found rate member)

theorem put_eq (bucket : RedisBucket) (set : RedisSet) (item : RateItem) (id : String) :
    bucket.put set item id =
      some
        (match bucket.rates.toList.find? (lacksSpace set item) with
        | some rate => (false, { bucket with failingRate := some rate }, set)
        | none => (true, { bucket with failingRate := none }, set.addAll (newMembers item id))) := by
  unfold put
  rw [checkAndInsert_eq]
  cases bucket.rates.toList.find? (lacksSpace set item) <;> rfl

/-! ### What a put adds -/

theorem memberName_injective (itemName : String) :
    Function.Injective (fun i : Nat => itemName ++ toString i) := by
  intro left right same
  have texts : Nat.repr left = Nat.repr right := (String.append_right_inj itemName).mp same
  have digits : Nat.toDigits 10 left = Nat.toDigits 10 right := by
    rw [← Nat.toList_repr, ← Nat.toList_repr, texts]
  rw [← @Nat.ofDigitChars_ten_toDigits left, ← @Nat.ofDigitChars_ten_toDigits right, digits]

theorem newMembers_distinct (item : RateItem) (id : String) :
    ((newMembers item id).map Prod.fst).Nodup := by
  unfold newMembers
  rw [List.map_map]
  exact (List.nodup_range').map (memberName_injective (memberPrefix item id))

theorem newMembers_scores (item : RateItem) (id : String) :
    (newMembers item id).map Prod.snd =
      List.replicate item.weight.toNat item.timestamp := by
  unfold newMembers
  rw [List.map_map]
  apply List.eq_replicate_iff.mpr
  refine ⟨by rw [List.length_map, List.length_range'], ?_⟩
  intro score member
  obtain ⟨_i, _present, same⟩ := List.mem_map.mp member
  exact same.symm

/-- After an admission the set holds the new members, with the stamp of the item. -/
theorem mem_addAll_newMembers (set : RedisSet) (item : RateItem) (id : String)
    {entry : String × Int} (member : entry ∈ newMembers item id) :
    entry ∈ (set.addAll (newMembers item id)).entries := by
  rw [SortedSet.entries_addAll (newMembers_distinct item id)]
  exact List.mem_append_right _ member

def FreshId (set : RedisSet) (item : RateItem) (id : String) : Prop :=
  ∀ entry, entry ∈ newMembers item id → ¬set.Contains entry.1

instance (set : RedisSet) (item : RateItem) (id : String) : Decidable (FreshId set item id) :=
  inferInstanceAs (Decidable (∀ entry, entry ∈ newMembers item id → ¬set.Contains entry.1))

theorem scores_addAll_newMembers {set : RedisSet} {item : RateItem} {id : String}
    (fresh : FreshId set item id) :
    (set.addAll (newMembers item id)).scores =
      set.scores ++ List.replicate item.weight.toNat item.timestamp := by
  unfold SortedSet.scores
  rw [SortedSet.entries_addAll_of_fresh (newMembers_distinct item id) fresh, List.map_append,
    newMembers_scores]

/-! ### The put against the shared algorithm -/

/-- The batching loop makes no empty `ZADD` and none of more than a batch. -/
theorem length_of_mem_fillBatches {now : Int} {itemName : String} {remaining i : Nat}
    {batch : List (String × Int)} (small : batch.length < batchSize) :
    ∀ zadd, zadd ∈ fillBatches now itemName remaining i batch →
      1 ≤ zadd.length ∧ zadd.length ≤ batchSize := by
  induction remaining generalizing i batch with
  | zero =>
      intro zadd member
      unfold fillBatches at member
      split at member
      · rename_i nonempty
        rw [List.mem_singleton.mp member]
        exact ⟨nonempty, Nat.le_of_lt small⟩
      · cases member
  | succ remaining ih =>
      intro zadd member
      have grown : (batch ++ [(itemName ++ toString i, now)]).length = batch.length + 1 :=
        List.length_append
      unfold fillBatches at member
      simp only [] at member
      split at member
      · rename_i full
        rcases List.mem_cons.mp member with same | later
        · rw [same, full]
          exact ⟨by decide, Nat.le_refl batchSize⟩
        · exact ih (by decide) zadd later
      · rename_i room
        exact ih (by omega) zadd member

/-- The members whose score lies in the window of a rate that ends at an item. -/
def windowMembers (set : RedisSet) (item : RateItem) (rate : Rate) : Int :=
  (set.count (item.timestamp - rate.interval) item.timestamp : Nat)

/-- A script run has added the units of an item, each under a name of its own. -/
structure AddsUnits (set : RedisSet) (item : RateItem) (run : ScriptRun) : Prop where
  batches : ∀ zadd, zadd ∈ run.zadds → 1 ≤ zadd.length ∧ zadd.length ≤ 1000
  entries : run.bucket.entries = set.entries ++ run.zadds.flatten
  units : (run.zadds.flatten.length : Int) = item.weight
  distinct : (run.zadds.flatten.map Prod.fst).Nodup
  added : ∀ entry, entry ∈ run.zadds.flatten →
    ¬set.Contains entry.1 ∧ entry.2 = item.timestamp

theorem flatten_zadds (item : RateItem) (id : String) :
    (fillBatches item.timestamp (memberPrefix item id) item.weight.toNat 1 []).flatten =
      newMembers item id := by
  rw [flatten_fillBatches, List.nil_append, newMembers]

theorem addsUnits_newMembers {set : RedisSet} {item : RateItem} {id : String}
    (positive : 1 ≤ item.weight) (fresh : FreshId set item id) :
    AddsUnits set item
      { reply := -1
        zadds := fillBatches item.timestamp (memberPrefix item id) item.weight.toNat 1 []
        bucket := set.addAll (newMembers item id) } where
  batches := length_of_mem_fillBatches (by decide)
  entries := by
    rw [flatten_zadds]
    exact SortedSet.entries_addAll_of_fresh (newMembers_distinct item id) fresh
  units := by
    simp only [flatten_zadds, newMembers, List.length_map, List.length_range']
    omega
  distinct := by
    simp only [flatten_zadds]
    exact newMembers_distinct item id
  added := by
    simp only [flatten_zadds]
    intro entry member
    refine ⟨fresh entry member, ?_⟩
    have score : entry.2 ∈ (newMembers item id).map Prod.snd := List.mem_map_of_mem member
    rw [newMembers_scores] at score
    exact List.eq_of_mem_replicate score

end RedisBucket

/-- Through the packed arguments and the script a put takes the decision of the shared
algorithm on the counts of the set, and adds all units in small batches or none. -/
theorem redis_put_follows_admit (bucket : RedisBucket) (set : RedisSet) (item : RateItem)
    (id : String) (positive : 1 ≤ item.weight) (fresh : RedisBucket.FreshId set item id) :
    ∃ decision run,
      admitDecision bucket.rates.toList
          (bucket.rates.toList.map (RedisBucket.windowMembers set item)) item.weight =
        .ok decision ∧
      putItem set (RedisBucket.packArgs bucket.rates item id) = some run ∧
      bucket.put set item id =
        some (decision.allowed, { bucket with failingRate := decision.failingRate },
          run.bucket) ∧
      (decision.allowed = false → run.bucket = set) ∧
      (decision.allowed = true → RedisBucket.AddsUnits set item run) := by
  have decided : admitDecision bucket.rates.toList
      (bucket.rates.toList.map (RedisBucket.windowMembers set item)) item.weight =
        .ok { failingRate := bucket.rates.toList.find? (RedisBucket.lacksSpace set item) } :=
    admit_map bucket.rates.toList (RedisBucket.windowMembers set item) item.weight
  have script := RedisBucket.putItem_packArgs bucket.rates set item id
  have answered := RedisBucket.put_eq bucket set item id
  cases found : bucket.rates.toList.findIdx? (RedisBucket.lacksSpace set item) with
  | none =>
      rw [found] at script
      rw [List.find?_eq_bind_findIdx?_getElem?, found] at decided answered
      refine ⟨_, _, decided, script, answered, ?_, ?_⟩
      · intro refused
        cases refused
      · intro _admitted
        exact RedisBucket.addsUnits_newMembers positive fresh
  | some index =>
      obtain ⟨inside, _full⟩ := List.findIdx?_eq_some_iff_getElem.mp found
      rw [found] at script
      rw [List.find?_eq_bind_findIdx?_getElem?, found, Option.bind_some,
        List.getElem?_eq_getElem inside] at decided answered
      refine ⟨_, _, decided, script, answered, fun _refused => rfl, ?_⟩
      intro admitted
      cases admitted

theorem redis_put_follows_admit_pair :
    ∃ decision run,
      admitDecision twoIn100ThreeIn1000.toList
          (twoIn100ThreeIn1000.toList.map
            (RedisBucket.windowMembers SortedSet.empty ⟨"key", 0, 2⟩)) 2 = .ok decision ∧
      putItem SortedSet.empty (RedisBucket.packArgs twoIn100ThreeIn1000 ⟨"key", 0, 2⟩ "id") =
        some run ∧
      RedisBucket.put { rates := twoIn100ThreeIn1000, failingRate := none } SortedSet.empty
          ⟨"key", 0, 2⟩ "id" =
        some (decision.allowed,
          { rates := twoIn100ThreeIn1000, failingRate := decision.failingRate }, run.bucket) ∧
      (decision.allowed = false → run.bucket = SortedSet.empty) ∧
      (decision.allowed = true →
        RedisBucket.AddsUnits SortedSet.empty ⟨"key", 0, 2⟩ run) :=
  redis_put_follows_admit { rates := twoIn100ThreeIn1000, failingRate := none } SortedSet.empty
    ⟨"key", 0, 2⟩ "id" (by decide)
    (by intro _entry _member impossible; cases impossible)

end PyrateLimiter
