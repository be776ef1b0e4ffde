/-
Runs of a limiter over each of its backends.

A session is what a limiter and its bucket go through in a run: calls of either entry
point, each at a reading of the bucket's clock and of the monotonic clock, leaks and
flushes.  Where calls are stamped in clock order, every backend leads the limiter through
the same sleeps, puts and verdicts as the history that never forgets, and so as every
other backend.  What holds of the history holds of all of them: the windows of the
admitted items, and that an undisturbed blocking call ends.
-/

import PyrateLimiter.Backends
import PyrateLimiter.BlockingRetry
import PyrateLimiter.Foundations.TransitionSystem

namespace PyrateLimiter

open Foundations.TransitionSystem
open Foundations.WindowLog

/-! ### Sessions -/

/-- The answers of the calls, the sleeps and puts on the way to them, and since the last
flush the admitted items and the times of the leaks. -/
structure Session (Store : Type) where
  bucket : Store
  answers : List Verdict
  trace : List (Event Unit)
  admitted : List RateItem
  leakedAt : List Int

inductive SessionCall where
  | acquire (entry : EntryPoint) (monotonic : ℚ) (now : Int) (name : String) (weight : Int)
      (blocking : Bool) (timeout : ℚ)
  | leak (now : Int)
  | flush

namespace Session

section Steps

variable {Store : Type}

def start (bucket : Store) : Session Store :=
  { bucket := bucket
    answers := []
    trace := []
    admitted := []
    leakedAt := [] }

/-- A call that ends goes on from the bucket it leaves. -/
def after (session : Session Store) (world : World Store) (verdict : Verdict) : Session Store :=
  { session with
    bucket := world.bucket
    answers := session.answers ++ [verdict]
    trace := session.trace ++ world.trace
    admitted := session.admitted ++ admittedItems world.trace }

def step (kind : BucketKind) (backend : Backend Store) (bufferMs turns : Nat)
    (session : Session Store) : SessionCall → Option (Session Store)
  | .acquire entry monotonic now name weight blocking timeout =>
      (entry.acquire kind backend.ops bufferMs turns (World.start session.bucket monotonic) now
        name weight blocking timeout).map (fun ended => session.after ended.1 ended.2)
  | .leak now =>
      some
        { session with
          bucket := backend.leak session.bucket now
          leakedAt := session.leakedAt ++ [now] }
  | .flush =>
      some
        { session with
          bucket := backend.flush session.bucket
          admitted := []
          leakedAt := [] }

/-- The clock stands at or after every admitted item, and far enough after every leak. -/
structure Ready (margin : Int) (session : Session Store) (now : Int) : Prop where
  newest : ∀ item, item ∈ session.admitted → item.timestamp ≤ now
  leaked : ∀ past, past ∈ session.leakedAt → past + margin ≤ now

instance (margin : Int) (session : Session Store) (now : Int) :
    Decidable (session.Ready margin now) :=
  decidable_of_iff
    ((∀ item, item ∈ session.admitted → item.timestamp ≤ now) ∧
      ∀ past, past ∈ session.leakedAt → past + margin ≤ now)
    ⟨fun both => ⟨both.1, both.2⟩, fun ready => ⟨ready.newest, ready.leaked⟩⟩

/-- Calls are stamped by a clock that stands there. -/
def InClockOrder (margin : Int) (session : Session Store) : SessionCall → Prop
  | .acquire _ _ now _ _ _ _ => session.Ready margin now
  | _ => True

instance (margin : Int) (session : Session Store) (call : SessionCall) :
    Decidable (session.InClockOrder margin call) := by
  cases call <;> unfold InClockOrder <;> infer_instance

end Steps

end Session

/-! ### A backend and the history -/

noncomputable def HistoryBucket.backend : Backend HistoryBucket :=
  { ops := ops
    leak := leak
    flush := flush }

theorem mem_units {history : List RateItem} {stamp : Int} (member : stamp ∈ units history) :
    ∃ item, item ∈ history ∧ item.timestamp = stamp := by
  obtain ⟨item, present, unit⟩ := List.mem_flatMap.mp member
  exact ⟨item, present, (List.eq_of_mem_replicate unit).symm⟩

/-- What the history records in the course of a call, and what it never loses. -/
structure HistoryBucket.Recorded (rates : RateList) (before : List RateItem) (leaks : List Int)
    (world : World HistoryBucket) : Prop where
  rates_eq : world.bucket.rates = rates
  admitted : world.bucket.admitted = before ++ admittedItems world.trace
  leakedAt : world.bucket.leakedAt = leaks
  weighty : ∀ item, item ∈ world.bucket.admitted → 1 ≤ item.weight
  within : Within rates.windows (units world.bucket.admitted)

theorem HistoryBucket.Recorded.sleep {rates : RateList} {before : List RateItem}
    {leaks : List Int} {world : World HistoryBucket}
    (recorded : Recorded rates before leaks world) (seconds : ℚ) :
    Recorded rates before leaks (world.sleep seconds) where
  rates_eq := recorded.rates_eq
  admitted := by
    rw [World.trace_sleep, admittedItems_append]
    exact recorded.admitted.trans (congrArg _ (List.append_nil _).symm)
  leakedAt := recorded.leakedAt
  weighty := recorded.weighty
  within := recorded.within

theorem HistoryBucket.Recorded.put {rates : RateList} {before : List RateItem} {leaks : List Int}
    {world : World HistoryBucket} (recorded : Recorded rates before leaks world)
    {item : RateItem} (positive : 1 ≤ item.weight) :
    Recorded rates before leaks (world.put ops item).2 := by
  obtain ⟨same, admitted, leakedAt, weighty, within⟩ := recorded
  subst same
  have kept := put_within within positive
  rw [put_rates] at kept
  refine ⟨put_rates world.bucket item, ?_, ?_, ?_, kept⟩
  · rw [World.trace_put, admittedItems_append, ← List.append_assoc, ← admitted]
    change (world.bucket.put item).2.admitted = world.bucket.admitted ++
      admittedItems [.put item (world.bucket.put item).1 ()]
    unfold HistoryBucket.put
    split
    · exact (List.append_nil _).symm
    · rfl
  · rw [← leakedAt]
    exact put_leakedAt world.bucket item
  · change ∀ other, other ∈ (world.bucket.put item).2.admitted → 1 ≤ other.weight
    unfold HistoryBucket.put
    split
    · exact weighty
    · intro other member
      rcases List.mem_append.mp member with old | new
      · exact weighty other old
      · rw [List.mem_singleton.mp new]
        exact positive

section Follows

variable {Store : Type} {backend : Backend Store} {rates : RateList} {margin : Int}
  {log : Store → List Int} {sound : Store → Prop} {kind : BucketKind} {bufferMs turns : Nat}

/-- Nothing but the bucket tells a session from that of the history, and the history is
what the session says. -/
structure Session.Follows (rates : RateList) (margin : Int) (log : Store → List Int)
    (sound : Store → Prop) (session : Session Store) (history : Session HistoryBucket) : Prop where
  bucket : Remembers rates margin log sound session.bucket history.bucket
  answers : session.answers = history.answers
  trace : session.trace = history.trace
  admitted : session.admitted = history.bucket.admitted
  leakedAt : session.leakedAt = history.bucket.leakedAt
  weighty : ∀ item, item ∈ history.bucket.admitted → 1 ≤ item.weight
  within : Within rates.windows (units history.bucket.admitted)

namespace Session.Follows

variable {session : Session Store} {history : Session HistoryBucket}

theorem start {store : Store} (empty : log store = []) (soundStore : sound store) :
    (Session.start store).Follows rates margin log sound (Session.start (.empty rates)) where
  bucket := Remembers.of_empty empty soundStore
  answers := rfl
  trace := rfl
  admitted := rfl
  leakedAt := rfl
  weighty := fun _item impossible => by cases impossible
  within := rates.within_nil

theorem ready (follows : session.Follows rates margin log sound history) {now : Int}
    (ready : session.Ready margin now) : history.bucket.Ready margin now where
  newest := by
    intro old member
    obtain ⟨item, present, rfl⟩ := mem_units member
    rw [← follows.admitted] at present
    exact ready.newest item present
  leaked := by
    rw [← follows.leakedAt]
    exact ready.leaked

/-- A call ends alike over the backend and over the history. -/
theorem acquire (logs : backend.Logs rates margin log sound) (kind : BucketKind)
    (bufferMs turns : Nat) (follows : session.Follows rates margin log sound history) {now : Int}
    (ready : session.Ready margin now) (entry : EntryPoint) (monotonic : ℚ) (name : String)
    (weight : Int) (blocking : Bool) (timeout : ℚ) :
    Agree (World.Alike (Remembers rates margin log sound))
      (entry.acquire kind backend.ops bufferMs turns (World.start session.bucket monotonic) now
        name weight blocking timeout)
      (entry.acquire kind HistoryBucket.ops bufferMs turns
        (World.start history.bucket monotonic) now name weight blocking timeout) := by
  have begun : (World.start session.bucket monotonic).Alike
      (Remembers rates margin log sound) (World.start history.bucket monotonic) :=
    ⟨follows.bucket, rfl, rfl⟩
  exact acquire_agree logs.simulates.lockstep kind entry bufferMs turns begun now
    (follows.ready ready) name weight blocking timeout

theorem after (follows : session.Follows rates margin log sound history)
    {world : World Store} {other : World HistoryBucket} {verdict : Verdict} {entry : EntryPoint}
    {monotonic timeout : ℚ} {now weight : Int} {name : String} {blocking : Bool}
    (alike : world.Alike (Remembers rates margin log sound) other)
    (ended : entry.acquire kind HistoryBucket.ops bufferMs turns
      (World.start history.bucket monotonic) now name weight blocking timeout =
        some (other, verdict)) :
    (session.after world verdict).Follows rates margin log sound
      (history.after other verdict) := by
  have recorded : HistoryBucket.Recorded rates history.bucket.admitted history.bucket.leakedAt
      other := by
    refine acquire_keeps (fun _world seconds holds => holds.sleep seconds)
      (fun _world _item holds positive => holds.put positive) ?_ ended
    exact ⟨follows.bucket.rates_eq, (List.append_nil _).symm, rfl, follows.weighty,
      follows.within⟩
  exact
    { bucket := alike.bucket
      answers := by
        simp only [Session.after, follows.answers]
      trace := by
        simp only [Session.after, follows.trace, alike.trace]
      admitted := by
        simp only [Session.after, follows.admitted, alike.trace, recorded.admitted]
      leakedAt := by
        simp only [Session.after, follows.leakedAt, recorded.leakedAt]
      weighty := recorded.weighty
      within := recorded.within }

theorem leak (logs : backend.Logs rates margin log sound)
    (follows : session.Follows rates margin log sound history) (now : Int) :
    Session.Follows rates margin log sound
      { session with
        bucket := backend.leak session.bucket now
        leakedAt := session.leakedAt ++ [now] }
      { history with
        bucket := history.bucket.leak now
        leakedAt := history.leakedAt ++ [now] } where
  bucket := follows.bucket.leak logs now
  answers := follows.answers
  trace := follows.trace
  admitted := follows.admitted
  leakedAt := by
    simp only [HistoryBucket.leak, follows.leakedAt]
  weighty := follows.weighty
  within := follows.within

theorem flush (logs : backend.Logs rates margin log sound)
    (follows : session.Follows rates margin log sound history) :
    Session.Follows rates margin log sound
      { session with
        bucket := backend.flush session.bucket
        admitted := []
        leakedAt := [] }
      { history with
        bucket := history.bucket.flush
        admitted := []
        leakedAt := [] } where
  bucket := follows.bucket.flush logs
  answers := follows.answers
  trace := follows.trace
  admitted := rfl
  leakedAt := rfl
  weighty := fun _item impossible => by cases impossible
  within := rates.within_nil

/-- Each step over the backend is a step over the history. -/
theorem to_history (logs : backend.Logs rates margin log sound)
    (follows : session.Follows rates margin log sound history) {call : SessionCall}
    {next : Session Store} (ordered : session.InClockOrder margin call)
    (taken : session.step kind backend bufferMs turns call = some next) :
    ∃ following, history.step kind HistoryBucket.backend bufferMs turns call = some following ∧
      next.Follows rates margin log sound following := by
  cases call with
  | acquire entry monotonic now name weight blocking timeout =>
      have agree := follows.acquire logs kind bufferMs turns ordered entry monotonic name weight
        blocking timeout
      obtain ⟨ended, ran, rfl⟩ := Option.map_eq_some_iff.mp taken
      rw [ran] at agree
      obtain ⟨other, followed, alike⟩ := agree.of_left
      exact ⟨history.after other ended.2, Option.map_eq_some_iff.mpr ⟨_, followed, rfl⟩,
        follows.after alike followed⟩
  | leak now =>
      cases taken
      exact ⟨_, rfl, follows.leak logs now⟩
  | flush =>
      cases taken
      exact ⟨_, rfl, follows.flush logs⟩

/-- Each step over the history is a step over the backend. -/
theorem of_history (logs : backend.Logs rates margin log sound)
    (follows : session.Follows rates margin log sound history) {call : SessionCall}
    {next : Session HistoryBucket} (ordered : session.InClockOrder margin call)
    (taken : history.step kind HistoryBucket.backend bufferMs turns call = some next) :
    ∃ following, session.step kind backend bufferMs turns call = some following ∧
      following.Follows rates margin log sound next := by
  cases call with
  | acquire entry monotonic now name weight blocking timeout =>
      have agree := follows.acquire logs kind bufferMs turns ordered entry monotonic name weight
        blocking timeout
      obtain ⟨ended, ran, rfl⟩ := Option.map_eq_some_iff.mp taken
      rw [show HistoryBucket.backend.ops = HistoryBucket.ops from rfl] at ran
      rw [ran] at agree
      obtain ⟨world, followed, alike⟩ := agree.of_right
      exact ⟨session.after world ended.2, Option.map_eq_some_iff.mpr ⟨_, followed, rfl⟩,
        follows.after alike ran⟩
  | leak now =>
      cases taken
      exact ⟨_, rfl, follows.leak logs now⟩
  | flush =>
      cases taken
      exact ⟨_, rfl, follows.flush logs⟩

end Session.Follows

end Follows

end PyrateLimiter
