/-
The four backends as logs of stamps.

Each of them is shown to keep such a log and to answer by it: the list in memory, the
SQLite table, the sorted set of Redis behind its script, and the Postgres table of a
client that nobody disputes the table lock with.  Only Redis removes stamps at the leak
bound itself, so only its leaks have to be a millisecond earlier than the next put.
-/

import Mathlib.Data.String.Lemmas
import PyrateLimiter.HistoryBucket
import PyrateLimiter.PostgresPut
import PyrateLimiter.SqliteFailingRate

namespace PyrateLimiter

open Foundations.OrderBy
open Foundations.SortedSets
open Foundations.WindowLog

/-! ### The wait, from what a peek finds -/

theorem waiting_heavy {peek : Int → Option RateItem} {item : RateItem} {rate : Rate}
    (positive : 1 ≤ item.weight) (heavy : rate.limit < item.weight) :
    waiting (some rate) peek item = .ok (-1) := by
  have weighty : ¬item.weight ≤ 0 := by omega
  simp only [waiting, waitingStart, if_neg weighty, if_pos heavy]
  rfl

/-- A peek that counts back from the newest stamp of a sorted log finds the stamp that has
to leave the window. -/
theorem waits_of_peek {log : List Int} (sorted : log.Pairwise (· ≤ ·))
    {peek : Int → Option RateItem}
    (peeked : ∀ index, 0 ≤ index →
      (peek index).map RateItem.timestamp = log.reverse[index.toNat]?)
    {item : RateItem} {rate : Rate} (positive : 1 ≤ item.weight)
    (light : item.weight ≤ rate.limit) :
    ∃ milliseconds, waiting (some rate) peek item = .ok milliseconds ∧
      ∀ delay, 0 ≤ delay →
        ((countSince log (item.timestamp + delay - rate.interval) : Int) + item.weight ≤
          rate.limit ↔ milliseconds ≤ delay) := by
  have weighty : ¬item.weight ≤ 0 := by omega
  have fits : ¬rate.limit < item.weight := by omega
  have started : waiting (some rate) peek item =
      waitingFinish (some rate) item (peek (rate.limit - item.weight)) := by
    simp only [waiting, waitingStart, if_neg weighty, if_neg fits]
    rfl
  have found := peeked (rate.limit - item.weight) (by omega)
  rw [started]
  by_cases shallow : (rate.limit - item.weight).toNat < log.length
  · have inside : log.length - 1 - (rate.limit - item.weight).toNat < log.length := by omega
    rw [List.getElem?_reverse shallow, List.getElem?_eq_getElem inside] at found
    obtain ⟨bound, there, stamp⟩ := Option.map_eq_some_iff.mp found
    rw [there]
    refine ⟨_, rfl, ?_⟩
    intro delay _nonneg
    have deep := lt_countSince_iff sorted (item.timestamp + delay - rate.interval) inside shallow
    rw [← stamp] at deep
    omega
  · rw [List.getElem?_eq_none (by rw [List.length_reverse]; omega), Option.map_eq_none_iff] at found
    rw [found]
    refine ⟨0, rfl, ?_⟩
    intro delay nonneg
    have counted : countSince log (item.timestamp + delay - rate.interval) ≤ log.length :=
      List.countP_le_length
    omega

/-! ### In memory -/

namespace InMemoryBucket

def backend : Backend InMemoryBucket :=
  { ops := ops
    leak := fun bucket now => (bucket.leak now).2
    flush := flush }

theorem logs (rates : RateList) :
    backend.Logs rates 0 stamps (fun bucket => bucket.rates = rates) where
  refused := by
    intro bucket item rate same sorted _newest positive refusing
    subst same
    change (bucket.put item).1 = false ∧ (bucket.put item).2.failingRate = some rate ∧
      (bucket.put item).2.stamps = bucket.stamps ∧ (bucket.put item).2.rates = bucket.rates
    rw [put_eq sorted item positive, refusing]
    exact ⟨rfl, rfl, rfl, rfl⟩
  admitted := by
    intro bucket item same sorted _newest positive refusing
    subst same
    change (bucket.put item).1 = true ∧ (bucket.put item).2.stamps = _ ∧
      (bucket.put item).2.rates = bucket.rates
    rw [put_eq sorted item positive, refusing]
    refine ⟨rfl, ?_, rfl⟩
    rw [← stamps_unitsOf item positive]
    exact List.map_append
  heavy := fun failing positive heavy => waiting_of_heavy failing positive heavy
  waits := fun _sound sorted failing positive light =>
    waiting_spec sorted _ failing positive light
  leaks := by
    intro bucket now same sorted
    subst same
    obtain ⟨forgotten, split, below⟩ := leak_splits sorted now
    refine ⟨leak_rates bucket now, ?_, ?_⟩
    · rw [split]
      exact List.sublist_append_right _ _
    · intro start reached
      rw [Int.add_zero] at reached
      rw [split, countSince_append, countSince_eq_zero
        (fun old member => Int.lt_of_lt_of_le (below old member) reached), Nat.zero_add]
      rfl
  leakNames := by
    intro bucket now _same sorted
    change (bucket.leak now).2.failingRate = bucket.failingRate
    rw [leak_eq sorted]
  flushes := fun same => ⟨same, rfl⟩

end InMemoryBucket

/-! ### SQLite -/

namespace SqliteBucket

theorem put_returns (bucket : SqliteBucket) (item : RateItem) :
    (bucket.put item).1.toOption.isSome = true := by
  rw [put_eq]
  split <;> rfl

def backend : Backend SqliteBucket :=
  { ops :=
      { failingRate := failingRate
        put := fun bucket item =>
          ((bucket.put item).1.toOption.get (bucket.put_returns item), (bucket.put item).2)
        waiting := waiting }
    leak := fun bucket now => (bucket.leak now).2
    flush := flush }

theorem backend_put {bucket after : SqliteBucket} {item : RateItem} {acquired : Bool}
    (outcome : bucket.put item = (.ok acquired, after)) :
    backend.ops.put bucket item = (acquired, after) := by
  simp only [backend, outcome, Except.toOption, Option.get_some]

theorem stamps_leak {bucket : SqliteBucket} (distinct : (bucket.rows.map SqliteRow.rowid).Nodup)
    (now : Int) :
    (bucket.leak now).2.stamps =
      bucket.stamps.filter (fun stamp => leakBound bucket.rates now ≤ stamp) := by
  rw [leak_eq distinct]
  unfold stamps
  rw [List.filter_map]
  rfl

theorem logs (rates : RateList) :
    backend.Logs rates 0 stamps
      (fun bucket => bucket.rates = rates ∧ (bucket.rows.map SqliteRow.rowid).Nodup) where
  refused := by
    rintro bucket item rate ⟨same, distinct⟩ _sorted _newest _positive refusing
    subst same
    have outcome := put_eq bucket item
    rw [refusing] at outcome
    rw [backend_put outcome]
    exact ⟨rfl, rfl, rfl, rfl, distinct⟩
  admitted := by
    rintro bucket item ⟨same, distinct⟩ _sorted _newest _positive refusing
    subst same
    have outcome := put_eq bucket item
    rw [refusing] at outcome
    rw [backend_put outcome]
    exact ⟨rfl, stamps_insertRows item item.weight.toNat bucket.rows, rfl,
      nodup_insertRows item item.weight.toNat distinct⟩
  heavy := by
    intro bucket item rate failing positive heavy
    change PyrateLimiter.waiting bucket.failingRate bucket.peek item = _
    rw [show bucket.failingRate = some rate from failing]
    exact waiting_heavy positive heavy
  waits := by
    intro bucket item rate _sound sorted failing positive light
    change ∃ milliseconds, PyrateLimiter.waiting bucket.failingRate bucket.peek item = _ ∧ _
    rw [show bucket.failingRate = some rate from failing]
    exact waits_of_peek sorted (fun index _nonneg => peek_timestamp sorted index) positive light
  leaks := by
    rintro bucket now ⟨same, distinct⟩ _sorted
    subst same
    refine ⟨⟨?_, ?_⟩, ?_, ?_⟩
    · change (bucket.leak now).2.rates = bucket.rates
      rw [leak_eq distinct]
    · change ((bucket.leak now).2.rows.map SqliteRow.rowid).Nodup
      rw [leak_eq distinct]
      exact distinct.sublist (List.filter_sublist.map _)
    · change (bucket.leak now).2.stamps.Sublist bucket.stamps
      rw [stamps_leak distinct]
      exact List.filter_sublist
    · intro start reached
      rw [Int.add_zero] at reached
      change countSince (bucket.leak now).2.stamps start = countSince bucket.stamps start
      rw [stamps_leak distinct]
      apply countSince_filter
      intro stamp _member inside
      exact decide_eq_true (Int.le_trans reached inside)
  leakNames := by
    rintro bucket now ⟨_same, distinct⟩ _sorted
    change (bucket.leak now).2.failingRate = bucket.failingRate
    rw [leak_eq distinct]
  flushes := fun sound => ⟨⟨sound.1, List.nodup_nil⟩, rfl⟩

end SqliteBucket

/-! ### Redis -/

namespace RedisBucket

theorem split_at_last {Symbol : Type} {mark : Symbol} {front back front' back' : List Symbol}
    (same : front ++ mark :: back = front' ++ mark :: back') (clear : mark ∉ back)
    (clear' : mark ∉ back') : front = front' ∧ back = back' := by
  rcases List.append_eq_append_iff.mp same with ⟨between, left, right⟩ | ⟨between, left, right⟩
  · cases between with
    | nil =>
        rw [List.append_nil] at left
        exact ⟨left.symm, (List.cons.inj right).2⟩
    | cons first rest =>
        rw [(List.cons.inj right).2] at clear
        exact absurd (List.mem_append_right _ List.mem_cons_self) clear
  · cases between with
    | nil =>
        rw [List.append_nil] at left
        exact ⟨left, (List.cons.inj right).2.symm⟩
    | cons first rest =>
        rw [(List.cons.inj right).2] at clear'
        exact absurd (List.mem_append_right _ List.mem_cons_self) clear'

theorem colon_not_mem_toString (i : Nat) : ':' ∉ (toString i).toList := by
  intro member
  have digit := Nat.isDigit_of_mem_toDigits (by decide) (by decide)
    (show ':' ∈ Nat.toDigits 10 i by
      rw [← Nat.toList_repr]
      exact member)
  cases digit

theorem memberName_toList (item : RateItem) (id : String) (i : Nat) :
    (memberPrefix item id ++ toString i).toList =
      (item.name.toList ++ ':' :: id.toList) ++ ':' :: (toString i).toList := by
  simp [memberPrefix, String.toList_append]

/-- The id of a put can be read off the name of each of its members. -/
theorem id_of_memberName {item other : RateItem} {id otherId : String} {i j : Nat}
    (same : memberPrefix item id ++ toString i = memberPrefix other otherId ++ toString j)
    (plain : ':' ∉ id.toList) (otherPlain : ':' ∉ otherId.toList) : id = otherId := by
  have symbols := congrArg String.toList same
  rw [memberName_toList, memberName_toList] at symbols
  obtain ⟨named, _counted⟩ :=
    split_at_last symbols (colon_not_mem_toString i) (colon_not_mem_toString j)
  exact String.toList_inj.mp (split_at_last named plain otherPlain).2

theorem find?_lacksSpace {rates : RateList} {set : RedisSet} {item : RateItem}
    (newest : ∀ old, old ∈ set.scores → old ≤ item.timestamp) :
    rates.toList.find? (lacksSpace set item) =
      rates.refusing set.scores item.timestamp item.weight := by
  unfold RateList.refusing
  apply List.find?_congr
  intro rate _member
  unfold lacksSpace Rate.overfull SortedSet.count
  rw [countBetween_eq_countSince newest]

theorem peek_timestamp {bucket : RedisBucket} {set : RedisSet}
    (sorted : set.scores.Pairwise (· ≤ ·)) {index : Int} (nonneg : 0 ≤ index) :
    (bucket.peek set index).map RateItem.timestamp = set.scores.reverse[index.toNat]? := by
  rw [← SortedSet.score_fromLargest sorted]
  unfold peek zrange
  rw [if_pos nonneg]
  cases set.fromLargest index.toNat <;> rfl

end RedisBucket

namespace RedisStore

open RedisBucket

def leak (store : RedisStore) (now : Int) : RedisStore :=
  { store with set := (store.bucket.leak store.set now).2 }

def flush (store : RedisStore) : RedisStore :=
  { store with
    bucket := (store.bucket.flush store.set).1
    set := (store.bucket.flush store.set).2 }

def backend : Backend RedisStore :=
  { ops := ops
    leak := leak
    flush := flush }

def log (store : RedisStore) : List Int := store.set.scores

/-- The ids differ and hold no colon, and those not yet drawn name no member. -/
structure Sound (rates : RateList) (store : RedisStore) : Prop where
  rates_eq : store.bucket.rates = rates
  distinct : Function.Injective store.ids
  plain : ∀ n, ':' ∉ (store.ids n).toList
  fresh : ∀ n, store.drawn ≤ n → ∀ item, FreshId store.set item (store.ids n)

theorem put_eq (store : RedisStore) (item : RateItem) :
    store.put item =
      match store.bucket.rates.toList.find? (lacksSpace store.set item) with
      | some rate =>
          (false,
            { store with
              bucket := { store.bucket with failingRate := some rate }
              drawn := store.drawn + 1 })
      | none =>
          (true,
            { store with
              bucket := { store.bucket with failingRate := none }
              set := store.set.addAll (newMembers item (store.ids store.drawn))
              drawn := store.drawn + 1 }) := by
  unfold put
  simp only [RedisBucket.put_eq, Option.get_some]
  cases store.bucket.rates.toList.find? (lacksSpace store.set item) <;> rfl

theorem Sound.addAll {rates : RateList} {store : RedisStore} (sound : store.Sound rates)
    (item : RateItem) {n : Nat} (later : store.drawn + 1 ≤ n) (other : RateItem) :
    FreshId (store.set.addAll (newMembers item (store.ids store.drawn))) other
      (store.ids n) := by
  intro entry member named
  unfold SortedSet.Contains at named
  rw [SortedSet.entries_addAll_of_fresh (newMembers_distinct item _)
    (sound.fresh store.drawn (Nat.le_refl _) item), List.map_append] at named
  rcases List.mem_append.mp named with before | added
  · exact sound.fresh n (by omega) other entry member before
  · obtain ⟨i, _inside, rfl⟩ := List.mem_map.mp member
    obtain ⟨unit, present, same⟩ := List.mem_map.mp added
    obtain ⟨j, _counted, rfl⟩ := List.mem_map.mp present
    have drawn := sound.distinct (id_of_memberName same (sound.plain _) (sound.plain _))
    omega

theorem logs (rates : RateList) : backend.Logs rates 1 log (Sound rates) where
  refused := by
    intro store item rate sound _sorted newest _positive refusing
    obtain ⟨same, distinct, plain, fresh⟩ := sound
    subst same
    change (store.put item).1 = false ∧ (store.put item).2.bucket.failingRate = some rate ∧
      (store.put item).2.set.scores = store.set.scores ∧
      Sound store.bucket.rates (store.put item).2
    rw [put_eq, find?_lacksSpace newest, show store.bucket.rates.refusing store.set.scores
      item.timestamp item.weight = some rate from refusing]
    exact ⟨rfl, rfl, rfl, rfl, distinct, plain, fun n later => fresh n (Nat.le_of_succ_le later)⟩
  admitted := by
    intro store item sound _sorted newest _positive refusing
    have added := fun n later other => sound.addAll item (n := n) later other
    have units := scores_addAll_newMembers (sound.fresh store.drawn (Nat.le_refl _) item)
    obtain ⟨same, distinct, plain, fresh⟩ := sound
    subst same
    change (store.put item).1 = true ∧ (store.put item).2.set.scores = _ ∧
      Sound store.bucket.rates (store.put item).2
    rw [put_eq, find?_lacksSpace newest, show store.bucket.rates.refusing store.set.scores
      item.timestamp item.weight = none from refusing]
    exact ⟨rfl, units, rfl, distinct, plain, added⟩
  heavy := by
    intro store item rate failing positive heavy
    change PyrateLimiter.waiting store.bucket.failingRate (store.bucket.peek store.set) item = _
    rw [show store.bucket.failingRate = some rate from failing]
    exact waiting_heavy positive heavy
  waits := by
    intro store item rate _sound sorted failing positive light
    change ∃ milliseconds,
      PyrateLimiter.waiting store.bucket.failingRate (store.bucket.peek store.set) item = _ ∧ _
    rw [show store.bucket.failingRate = some rate from failing]
    exact waits_of_peek sorted (fun index nonneg => peek_timestamp sorted nonneg) positive light
  leaks := by
    intro store now sound _sorted
    obtain ⟨same, distinct, plain, fresh⟩ := sound
    subst same
    have part : (store.leak now).set.entries.Sublist store.set.entries := List.filter_sublist
    have kept : (store.leak now).set.scores = store.set.scores.filter
        (fun score => ¬(0 ≤ score ∧ score ≤ leakBound store.bucket.rates now)) := by
      unfold SortedSet.scores
      rw [List.filter_map]
      rfl
    refine ⟨⟨rfl, distinct, plain, ?_⟩, part.map Prod.snd, ?_⟩
    · intro n later item entry member named
      exact fresh n later item entry member ((part.map Prod.fst).subset named)
    · intro start reached
      change countSince (store.leak now).set.scores start = countSince store.set.scores start
      rw [kept]
      apply countSince_filter
      intro stamp _member inside
      apply decide_eq_true
      rintro ⟨_nonneg, below⟩
      unfold leakBound at reached below
      omega
  leakNames := fun _now _sound _sorted => rfl
  flushes := by
    intro store sound
    refine ⟨⟨sound.rates_eq, sound.distinct, sound.plain, ?_⟩, rfl⟩
    intro n _later item entry _member named
    cases named

end RedisStore

/-! ### Postgres -/

namespace PostgresBucket

/-- `LEAK_COUNT` and `LEAK`, which are skipped for a bound that is not positive. -/
def leak (toTimestamp : Int → Int) (bucket : PostgresBucket) (currentTimestamp : Int) :
    Int × PostgresBucket :=
  let lowerBound := leakBound bucket.rates currentTimestamp
  if lowerBound ≤ 0 then (0, bucket)
  else
    let count := bucket.table.countP (fun row => row.itemTimestamp < toTimestamp lowerBound)
    (count,
      { bucket with
        table := bucket.table.filter (fun row => ¬row.itemTimestamp < toTimestamp lowerBound) })

def flush (bucket : PostgresBucket) : PostgresBucket :=
  { bucket with
    table := []
    failingRate := none }

def stamps (bucket : PostgresBucket) : List Int :=
  bucket.table.map (fun row => epochMs row.itemTimestamp)

/-- Every row stands at a whole number of milliseconds. -/
def Exact (bucket : PostgresBucket) : Prop :=
  ∀ row, row ∈ bucket.table → row.itemTimestamp = utcInstant (epochMs row.itemTimestamp)

theorem countWindow_utc {bucket : PostgresBucket} (exact : bucket.Exact)
    (timestamp interval : Int) :
    countWindow utcInstant bucket.table timestamp interval =
      (countSince bucket.stamps (timestamp - interval) : Int) := by
  unfold countWindow countSince stamps
  rw [List.countP_map]
  congr 1
  apply List.countP_congr
  intro row member
  have whole := exact row member
  simp only [Function.comp_apply, decide_eq_true_eq]
  unfold utcInstant at whole ⊢
  omega

theorem decided_utc {bucket : PostgresBucket} (exact : bucket.Exact) (item : RateItem) :
    admitDecision bucket.rates.toList
        (countWindows utcInstant bucket.table bucket.rates item.timestamp) item.weight =
      .ok { failingRate :=
        bucket.rates.refusing bucket.stamps item.timestamp item.weight } := by
  rw [admitDecision_countWindows]
  congr 2
  unfold RateList.refusing
  apply List.find?_congr
  intro rate _member
  rw [countWindow_utc exact]
  rfl

theorem peek_timestamp {bucket : PostgresBucket} (exact : bucket.Exact)
    (sorted : bucket.stamps.Pairwise (· ≤ ·)) (index : Int) :
    (bucket.peek index).map RateItem.timestamp = bucket.stamps.reverse[index.toNat]? := by
  have ascending : (bucket.table.map Row.itemTimestamp).Pairwise (· ≤ ·) := by
    rw [List.pairwise_map]
    apply (List.pairwise_map.mp sorted).imp_of_mem
    intro first second firstMember secondMember ordered
    rw [exact first firstMember, exact second secondMember]
    unfold utcInstant
    omega
  have reversed := map_orderByDesc ascending
  have stamped : bucket.stamps = (bucket.table.map Row.itemTimestamp).map epochMs := by
    rw [List.map_map]
    rfl
  rw [stamped, ← List.map_reverse, ← reversed]
  unfold peek
  rw [Option.map_map, List.getElem?_map, List.getElem?_map, Option.map_map]
  rfl

end PostgresBucket

/-- A Postgres bucket whose limits fit the column of the weights, so that no put raises. -/
structure PostgresStore where
  bucket : PostgresBucket
  narrow : ∀ rate, rate ∈ bucket.rates → isSmallint rate.limit = true

namespace PostgresBucket

@[simp] theorem put_rates (toTimestamp : Int → Int) (bucket : PostgresBucket) (item : RateItem)
    (lockGranted : Bool) : (bucket.put toTimestamp item lockGranted).2.rates = bucket.rates := by
  unfold put
  repeat' split
  all_goals rfl

@[simp] theorem leak_rates (toTimestamp : Int → Int) (bucket : PostgresBucket) (now : Int) :
    (bucket.leak toTimestamp now).2.rates = bucket.rates := by
  unfold leak
  simp only []
  split <;> rfl

theorem countSince_leak {bucket : PostgresBucket} (exact : bucket.Exact) {now start : Int}
    (reached : leakBound bucket.rates now ≤ start) :
    countSince (bucket.leak utcInstant now).2.stamps start = countSince bucket.stamps start := by
  unfold leak
  simp only []
  split
  · rfl
  · unfold countSince stamps
    rw [List.countP_map, List.countP_map, List.countP_filter]
    apply List.countP_congr
    intro row member
    have whole := exact row member
    simp only [Function.comp_apply, Bool.and_eq_true, decide_eq_true_eq]
    unfold utcInstant at whole ⊢
    omega

end PostgresBucket

namespace PostgresStore

open PostgresBucket

theorem isSmallint_weight (store : PostgresStore) {weight count : Int} (positive : 1 ≤ weight)
    (nonneg : 0 ≤ count) (fits : count + weight ≤ store.bucket.rates.first.limit) :
    isSmallint weight = true := by
  have small := store.narrow _ store.bucket.rates.first_mem
  simp only [isSmallint, decide_eq_true_eq] at small ⊢
  omega

/-- What is admitted fits the first limit, and so the column. -/
theorem put_returns (store : PostgresStore) (item : RateItem) :
    (store.bucket.put utcInstant item true).1.toOption.isSome = true := by
  unfold PostgresBucket.put
  split
  · rfl
  · simp only [Bool.not_true, Bool.false_eq_true, if_false]
    split
    · rename_i raised decided
      rw [admitDecision_countWindows] at decided
      cases decided
    · rename_i decision decided
      split
      · rfl
      · rename_i allowed
        have room := (admit_countWindows decided).mp (by simpa using allowed)
        have fits := room _ (List.mem_map_of_mem store.bucket.rates.first_mem)
        unfold insertRows
        rw [if_neg]
        · rfl
        · rintro ⟨positive, wide⟩
          rw [store.isSmallint_weight positive (Int.natCast_nonneg _) fits] at wide
          cases wide

def backend : Backend PostgresStore :=
  { ops :=
      { failingRate := fun store => store.bucket.failingRate
        put := fun store item =>
          ((store.bucket.put utcInstant item true).1.toOption.get (store.put_returns item),
            { bucket := (store.bucket.put utcInstant item true).2
              narrow := by
                rw [put_rates]
                exact store.narrow })
        waiting := fun store item => store.bucket.waiting item }
    leak := fun store now =>
      { bucket := (store.bucket.leak utcInstant now).2
        narrow := by
          rw [leak_rates]
          exact store.narrow }
    flush := fun store =>
      { bucket := store.bucket.flush
        narrow := store.narrow } }

theorem backend_put {store : PostgresStore} {after : PostgresBucket} {item : RateItem}
    {acquired : Bool} (outcome : store.bucket.put utcInstant item true = (.ok acquired, after)) :
    (backend.ops.put store item).1 = acquired ∧
      (backend.ops.put store item).2.bucket = after := by
  simp only [backend, outcome, Except.toOption, Option.get_some, true_and]

def log (store : PostgresStore) : List Int := store.bucket.stamps

theorem logs (rates : RateList) :
    backend.Logs rates 0 log
      (fun store => store.bucket.rates = rates ∧ store.bucket.Exact) where
  refused := by
    rintro store item rate ⟨same, exact⟩ _sorted _newest positive refusing
    subst same
    have outcome := put_granted positive (decided_utc exact item)
    rw [show store.bucket.rates.refusing store.bucket.stamps item.timestamp item.weight =
      some rate from refusing] at outcome
    obtain ⟨verdict, after⟩ := backend_put outcome
    refine ⟨verdict, ?_, ?_, ?_, ?_⟩
    · change (backend.ops.put store item).2.bucket.failingRate = _
      rw [after]
    · unfold log
      rw [after]
      rfl
    · rw [after]
    · rw [after]
      exact exact
  admitted := by
    rintro store item ⟨same, exact⟩ _sorted _newest positive refusing
    subst same
    have outcome := put_granted positive (decided_utc exact item)
    rw [show store.bucket.rates.refusing store.bucket.stamps item.timestamp item.weight =
      none from refusing] at outcome
    have room := RateList.refusing_eq_none_iff.mp refusing
    have fits := RateList.forall_windows.mp room _ store.bucket.rates.first_mem
    have small := store.isSmallint_weight positive (Int.natCast_nonneg _) fits
    simp only [Decision.allowed, Option.isNone_none, if_true, small] at outcome
    obtain ⟨verdict, after⟩ := backend_put outcome
    refine ⟨verdict, ?_, ?_, ?_⟩
    · unfold log stamps
      rw [after, List.map_append, List.map_replicate]
      congr 2
      exact Int.mul_tdiv_cancel _ (by decide)
    · rw [after]
    · rw [after]
      intro row member
      rcases List.mem_append.mp member with old | new
      · exact exact row old
      · rw [List.eq_of_mem_replicate new]
        change utcInstant item.timestamp = utcInstant (epochMs (utcInstant item.timestamp))
        congr 1
        exact (Int.mul_tdiv_cancel _ (by decide)).symm
  heavy := by
    intro store item rate failing positive heavy
    change PyrateLimiter.waiting store.bucket.failingRate store.bucket.peek item = _
    rw [show store.bucket.failingRate = some rate from failing]
    exact waiting_heavy positive heavy
  waits := by
    rintro store item rate ⟨_same, exact⟩ sorted failing positive light
    change ∃ milliseconds,
      PyrateLimiter.waiting store.bucket.failingRate store.bucket.peek item = _ ∧ _
    rw [show store.bucket.failingRate = some rate from failing]
    exact waits_of_peek sorted (fun index _nonneg => peek_timestamp exact sorted index) positive
      light
  leaks := by
    rintro store now ⟨same, exact⟩ _sorted
    subst same
    have part : (store.bucket.leak utcInstant now).2.table.Sublist store.bucket.table := by
      unfold PostgresBucket.leak
      simp only []
      split
      · exact List.Sublist.refl _
      · exact List.filter_sublist
    refine ⟨⟨PostgresBucket.leak_rates _ _ _, fun row member => exact row (part.subset member)⟩,
      part.map _, ?_⟩
    intro start reached
    rw [Int.add_zero] at reached
    exact countSince_leak exact reached
  leakNames := by
    intro store now _sound _sorted
    change (store.bucket.leak utcInstant now).2.failingRate = store.bucket.failingRate
    unfold PostgresBucket.leak
    simp only []
    split <;> rfl
  flushes := by
    rintro store ⟨same, _exact⟩
    refine ⟨⟨same, ?_⟩, rfl⟩
    intro row impossible
    cases impossible

end PostgresStore

end PyrateLimiter
