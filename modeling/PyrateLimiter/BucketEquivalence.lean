/-
The SQLite bucket and the in-memory bucket answer alike.

Under a clock that does not go back, the table and the list hold the same stamps
in the same order.  Every put is then decided by the same counts, every leak
removes the same units and every peek finds the same stamp.  A put of weight
zero never reaches the list of the one and is always admitted by the counts of
the other, since no window is ever over its limit.
-/

import PyrateLimiter.InMemoryBucket
import PyrateLimiter.SqliteBucket

namespace PyrateLimiter

open Foundations.WindowLog

inductive BucketRequest where
  | put (item : RateItem)
  | leak (now : Int)
  | flush
  | count
  | peek (index : Int)
  deriving DecidableEq, Repr

/-- What a bucket answers; of a peeked item only the timestamp is compared. -/
inductive BucketAnswer where
  | put (acquired : Bool)
  | leak (removed : Int)
  | flush
  | count (items : Int)
  | peek (timestamp : Option Int)
  deriving DecidableEq, Repr

def InMemoryBucket.answer (bucket : InMemoryBucket) :
    BucketRequest → BucketAnswer × InMemoryBucket
  | .put item => (.put (bucket.put item).1, (bucket.put item).2)
  | .leak now => (.leak (bucket.leak now).1, (bucket.leak now).2)
  | .flush => (.flush, bucket.flush)
  | .count => (.count bucket.count, bucket)
  | .peek index => (.peek ((bucket.peek index).map RateItem.timestamp), bucket)

def SqliteBucket.answer (bucket : SqliteBucket) :
    BucketRequest → Except PyError BucketAnswer × SqliteBucket
  | .put item => ((bucket.put item).1.map .put, (bucket.put item).2)
  | .leak now => (.ok (.leak (bucket.leak now).1), (bucket.leak now).2)
  | .flush => (.ok .flush, bucket.flush)
  | .count => (.ok (.count bucket.count), bucket)
  | .peek index => (.ok (.peek ((bucket.peek index).map RateItem.timestamp)), bucket)

def InMemoryBucket.answers (bucket : InMemoryBucket) : List BucketRequest → List BucketAnswer
  | [] => []
  | request :: rest => (bucket.answer request).1 :: (bucket.answer request).2.answers rest

def SqliteBucket.answers (bucket : SqliteBucket) :
    List BucketRequest → List (Except PyError BucketAnswer)
  | [] => []
  | request :: rest => (bucket.answer request).1 :: (bucket.answer request).2.answers rest

def BucketRequest.putStamp : BucketRequest → Option Int
  | .put item => some item.timestamp
  | _ => none

/-- Weights and indices are natural numbers. -/
def BucketRequest.Natural : BucketRequest → Prop
  | .put item => 0 ≤ item.weight
  | .peek index => 0 ≤ index
  | _ => True

instance (request : BucketRequest) : Decidable request.Natural := by
  cases request <;> unfold BucketRequest.Natural <;> infer_instance

/-- The two buckets hold the same stamps in the same order. -/
structure Matches (sqlite : SqliteBucket) (bucket : InMemoryBucket) : Prop where
  rates_eq : sqlite.rates = bucket.rates
  stamps_eq : sqlite.stamps = bucket.stamps
  distinct : (sqlite.rows.map SqliteRow.rowid).Nodup
  sorted : bucket.Sorted
  within : Within bucket.rates.windows bucket.stamps

namespace Matches

variable {sqlite : SqliteBucket} {bucket : InMemoryBucket}

theorem empty (rates : RateList) : Matches (.empty rates) (.empty rates) where
  rates_eq := rfl
  stamps_eq := rfl
  distinct := List.nodup_nil
  sorted := .nil
  within := rates.within_nil

theorem put_weightless (both : Matches sqlite bucket) {item : RateItem}
    (newest : ∀ stamp, stamp ∈ bucket.stamps → stamp ≤ item.timestamp)
    (weightless : item.weight = 0) :
    (sqlite.put item).1 = .ok (bucket.put item).1 ∧
      Matches (sqlite.put item).2 (bucket.put item).2 := by
  have admitted : bucket.put item = (true, bucket) := by
    unfold InMemoryBucket.put
    rw [if_pos weightless]
  have spacious : sqlite.rates.refusing sqlite.stamps item.timestamp item.weight = none := by
    rw [RateList.refusing_eq_none_iff, both.rates_eq, both.stamps_eq, weightless]
    exact both.within.room_zero newest
  rw [admitted, SqliteBucket.put_eq, spacious, weightless]
  exact ⟨rfl, both⟩

theorem put (both : Matches sqlite bucket) {item : RateItem}
    (newest : ∀ stamp, stamp ∈ bucket.stamps → stamp ≤ item.timestamp)
    (natural : 0 ≤ item.weight) :
    (sqlite.put item).1 = .ok (bucket.put item).1 ∧
      Matches (sqlite.put item).2 (bucket.put item).2 := by
  rcases Int.lt_or_eq_of_le natural with positive | weightless
  · have sameRefusal : sqlite.rates.refusing sqlite.stamps item.timestamp item.weight =
        bucket.rates.refusing bucket.stamps item.timestamp item.weight := by
      rw [both.rates_eq, both.stamps_eq]
    rcases InMemoryBucket.put_cases both.sorted item positive with
      ⟨room, outcome⟩ | ⟨rate, refused, outcome⟩
    · have added : (bucket.put item).2.stamps =
          bucket.stamps ++ List.replicate item.weight.toNat item.timestamp := by
        rw [outcome, InMemoryBucket.stamps, List.map_append,
          InMemoryBucket.stamps_unitsOf item positive]
        rfl
      have kept : (bucket.put item).2.rates = bucket.rates := InMemoryBucket.put_rates bucket item
      rw [SqliteBucket.put_eq, sameRefusal, RateList.refusing_eq_none_iff.mpr room]
      refine ⟨by rw [outcome], ?_⟩
      exact
        { rates_eq := by
            rw [kept]
            exact both.rates_eq
          stamps_eq := by
            rw [added, ← both.stamps_eq]
            exact SqliteBucket.stamps_insertRows item item.weight.toNat sqlite.rows
          distinct := SqliteBucket.nodup_insertRows item item.weight.toNat both.distinct
          sorted := by
            unfold InMemoryBucket.Sorted
            rw [added]
            exact sorted_append_replicate both.sorted newest item.weight.toNat
          within := by
            rw [kept, added]
            exact both.within.record room item.weight.toNat (by omega) }
    · rw [SqliteBucket.put_eq, sameRefusal, refused, outcome]
      exact
        ⟨rfl,
          { rates_eq := both.rates_eq
            stamps_eq := both.stamps_eq
            distinct := both.distinct
            sorted := both.sorted
            within := both.within }⟩
  · exact both.put_weightless newest weightless.symm

theorem leak (both : Matches sqlite bucket) (now : Int) :
    (sqlite.leak now).1 = (bucket.leak now).1 ∧ Matches (sqlite.leak now).2 (bucket.leak now).2 := by
  have kept := InMemoryBucket.leak_eq both.sorted now
  have filtered : (sqlite.leak now).2.stamps = (bucket.leak now).2.stamps := by
    rw [SqliteBucket.leak_eq both.distinct, kept]
    have stampsFilter : (sqlite.stamps.filter (fun stamp => leakBound bucket.rates now ≤ stamp)) =
        bucket.stamps.filter (fun stamp => leakBound bucket.rates now ≤ stamp) := by
      rw [both.stamps_eq]
    unfold SqliteBucket.stamps InMemoryBucket.stamps at stampsFilter ⊢
    rw [List.filter_map, List.filter_map] at stampsFilter
    rw [both.rates_eq]
    exact stampsFilter
  constructor
  · rw [InMemoryBucket.leak_fst, SqliteBucket.leak_eq both.distinct]
    have lengths : (bucket.leak now).2.items.length = (sqlite.leak now).2.rows.length := by
      rw [← List.length_map RateItem.timestamp, ← List.length_map SqliteRow.itemTimestamp]
      exact congrArg List.length filtered.symm
    have before : bucket.items.length = sqlite.rows.length := by
      rw [← List.length_map RateItem.timestamp, ← List.length_map SqliteRow.itemTimestamp]
      exact congrArg List.length both.stamps_eq.symm
    rw [lengths, before, SqliteBucket.leak_eq both.distinct]
    have parts : sqlite.rows.length =
        sqlite.rows.countP (fun row => row.itemTimestamp < leakBound sqlite.rates now) +
          sqlite.rows.countP
            (fun row => ¬decide (row.itemTimestamp < leakBound sqlite.rates now) = true) :=
      List.length_eq_countP_add_countP _
    have others : sqlite.rows.countP
        (fun row => ¬decide (row.itemTimestamp < leakBound sqlite.rates now) = true) =
          (sqlite.rows.filter
            (fun row => leakBound sqlite.rates now ≤ row.itemTimestamp)).length := by
      rw [← List.countP_eq_length_filter]
      apply List.countP_congr
      intro row _member
      simp only [decide_eq_true_eq, not_lt]
    simp only []
    omega
  · obtain ⟨forgotten, split, _⟩ := InMemoryBucket.leak_splits both.sorted now
    have part : (bucket.leak now).2.stamps.Sublist bucket.stamps := by
      rw [split]
      exact List.sublist_append_right _ _
    exact
      { rates_eq := by
          rw [SqliteBucket.leak_eq both.distinct, InMemoryBucket.leak_rates]
          exact both.rates_eq
        stamps_eq := filtered
        distinct := by
          rw [SqliteBucket.leak_eq both.distinct]
          exact both.distinct.sublist (List.filter_sublist.map _)
        sorted := both.sorted.sublist part
        within := by
          rw [InMemoryBucket.leak_rates]
          exact both.within.sublist part }

theorem peek (both : Matches sqlite bucket) {index : Int} (natural : 0 ≤ index) :
    (sqlite.peek index).map RateItem.timestamp = (bucket.peek index).map RateItem.timestamp := by
  have sorted : sqlite.stamps.Pairwise (· ≤ ·) := by
    rw [both.stamps_eq]
    exact both.sorted
  rw [SqliteBucket.peek_timestamp sorted, both.stamps_eq, InMemoryBucket.peek_eq natural]
  by_cases shallow : index < (bucket.items.length : Int)
  · have inside : index.toNat < bucket.stamps.length := by
      rw [InMemoryBucket.stamps, List.length_map]
      omega
    rw [if_pos shallow, List.getElem?_reverse inside, ← List.getElem?_map,
      InMemoryBucket.stamps, List.length_map]
  · rw [if_neg shallow, List.getElem?_eq_none]
    · rfl
    · rw [List.length_reverse, InMemoryBucket.stamps, List.length_map]
      omega

theorem count (both : Matches sqlite bucket) : sqlite.count = bucket.count := by
  unfold SqliteBucket.count InMemoryBucket.count
  rw [← List.length_map SqliteRow.itemTimestamp, ← List.length_map RateItem.timestamp]
  exact congrArg (fun stamps : List Int => (stamps.length : Int)) both.stamps_eq

/-- One request gets the same answer from both, and they stay alike. -/
theorem answer (both : Matches sqlite bucket) {request : BucketRequest}
    (natural : request.Natural)
    (newest : ∀ now, now ∈ request.putStamp → ∀ stamp, stamp ∈ bucket.stamps → stamp ≤ now) :
    (sqlite.answer request).1 = .ok (bucket.answer request).1 ∧
      Matches (sqlite.answer request).2 (bucket.answer request).2 := by
  cases request with
  | put item =>
      obtain ⟨same, after⟩ := both.put (newest item.timestamp rfl) natural
      refine ⟨?_, after⟩
      simp only [SqliteBucket.answer, InMemoryBucket.answer, same]
      rfl
  | leak now =>
      obtain ⟨same, after⟩ := both.leak now
      refine ⟨?_, after⟩
      simp only [SqliteBucket.answer, InMemoryBucket.answer, same]
  | flush =>
      exact
        ⟨rfl,
          { rates_eq := both.rates_eq
            stamps_eq := rfl
            distinct := List.nodup_nil
            sorted := .nil
            within := bucket.rates.within_nil }⟩
  | count =>
      refine ⟨?_, both⟩
      simp only [SqliteBucket.answer, InMemoryBucket.answer, both.count]
  | peek index =>
      refine ⟨?_, both⟩
      simp only [SqliteBucket.answer, InMemoryBucket.answer, both.peek natural]

/-- No request makes a stored stamp later than the puts that come after it. -/
theorem answer_newest (both : Matches sqlite bucket) {request : BucketRequest} {later : Int}
    (newest : ∀ stamp, stamp ∈ bucket.stamps → stamp ≤ later)
    (following : ∀ now, now ∈ request.putStamp → now ≤ later) :
    ∀ stamp, stamp ∈ (bucket.answer request).2.stamps → stamp ≤ later := by
  intro stamp member
  cases request with
  | put item =>
      obtain ⟨added, shape, own⟩ := bucket.put_stamps item
      change stamp ∈ (bucket.put item).2.stamps at member
      rw [shape] at member
      rcases List.mem_append.mp member with old | new
      · exact newest stamp old
      · rw [own stamp new]
        exact following item.timestamp rfl
  | leak now =>
      obtain ⟨forgotten, split, _⟩ := InMemoryBucket.leak_splits both.sorted now
      apply newest
      rw [split]
      exact List.mem_append_right _ member
  | flush => cases member
  | count => exact newest stamp member
  | peek index => exact newest stamp member

theorem answers {requests : List BucketRequest} (both : Matches sqlite bucket)
    (natural : ∀ request, request ∈ requests → request.Natural)
    (ordered : (requests.filterMap BucketRequest.putStamp).Pairwise (· ≤ ·))
    (newest : ∀ now, now ∈ requests.filterMap BucketRequest.putStamp →
      ∀ stamp, stamp ∈ bucket.stamps → stamp ≤ now) :
    sqlite.answers requests = (bucket.answers requests).map .ok := by
  induction requests generalizing sqlite bucket with
  | nil => rfl
  | cons request rest ih =>
      have stamped : ∀ now, now ∈ request.putStamp →
          now ∈ (request :: rest).filterMap BucketRequest.putStamp := by
        intro now own
        exact List.mem_filterMap.mpr ⟨request, List.mem_cons_self, own⟩
      obtain ⟨same, after⟩ := both.answer (natural request List.mem_cons_self)
        (fun now own => newest now (stamped now own))
      have restNewest : ∀ now, now ∈ rest.filterMap BucketRequest.putStamp →
          ∀ stamp, stamp ∈ (bucket.answer request).2.stamps → stamp ≤ now := by
        intro later member
        apply both.answer_newest
        · apply newest later
          obtain ⟨other, present, own⟩ := List.mem_filterMap.mp member
          exact List.mem_filterMap.mpr ⟨other, List.mem_cons_of_mem request present, own⟩
        · intro now own
          rw [List.filterMap_cons, own] at ordered
          exact (List.pairwise_cons.mp ordered).1 later member
      have restOrdered : (rest.filterMap BucketRequest.putStamp).Pairwise (· ≤ ·) :=
        ordered.sublist ((List.sublist_cons_self request rest).filterMap _)
      have later := ih after
        (fun other present => natural other (List.mem_cons_of_mem request present))
        restOrdered restNewest
      rw [SqliteBucket.answers, InMemoryBucket.answers, List.map_cons, same, later]

end Matches

/-- On every sequence of requests whose puts are stamped in clock order, a new
SQLite bucket answers as a new in-memory bucket does, and never raises. -/
theorem sqlite_answers_as_inMemory (rates : RateList) (requests : List BucketRequest)
    (natural : ∀ request, request ∈ requests → request.Natural)
    (ordered : (requests.filterMap BucketRequest.putStamp).Pairwise (· ≤ ·)) :
    (SqliteBucket.empty rates).answers requests =
      ((InMemoryBucket.empty rates).answers requests).map .ok := by
  apply (Matches.empty rates).answers natural ordered
  intro _now _member stamp impossible
  cases impossible

theorem sqlite_answers_as_inMemory_leaked :
    (SqliteBucket.empty twoIn100ThreeIn1000).answers
        [.put ⟨"a", 0, 2⟩, .put ⟨"b", 50, 0⟩, .peek 1, .leak 1001, .put ⟨"c", 1001, 1⟩, .count] =
      ((InMemoryBucket.empty twoIn100ThreeIn1000).answers
        [.put ⟨"a", 0, 2⟩, .put ⟨"b", 50, 0⟩, .peek 1, .leak 1001, .put ⟨"c", 1001, 1⟩,
          .count]).map .ok :=
  sqlite_answers_as_inMemory twoIn100ThreeIn1000
    [.put ⟨"a", 0, 2⟩, .put ⟨"b", 50, 0⟩, .peek 1, .leak 1001, .put ⟨"c", 1001, 1⟩, .count]
    (by decide) (by decide)

end PyrateLimiter
