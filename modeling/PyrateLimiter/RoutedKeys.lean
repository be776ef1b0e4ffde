/-
What each key sees of a limiter over many buckets.

Seen from one key, a run of the whole limiter is a run of a limiter over that key's bucket
alone: calls for other keys only take up time.  What is proved of threads on one bucket
holds for every key, and what goes wrong with one key leaves the others alone.
-/

import PyrateLimiter.RetryOrder
import PyrateLimiter.RoutedLimiter

namespace PyrateLimiter

open Foundations.TransitionSystem
open Foundations.WindowLog

namespace RoutedSystem

variable {Thread Key : Type} [DecidableEq Thread] [DecidableEq Key]

/-- What a step is to the key's bucket.  Its call takes the lock when it is routed there. -/
def seen (route : RateItem → Option Key) (key : Key) (system : RoutedSystem Thread Key) :
    RoutedAction Thread Key → List (Action Thread)
  | .tick now => [.tick now]
  | .acquireLock _ _ | .failLock _ => []
  | .wrapItem thread =>
      match system.phase thread with
      | .entered request =>
          match request.enter system.clock with
          | .stamped item _ =>
              if route item = some key then [.acquireLock thread request, .wrapItem thread] else []
          | _ => []
      | _ => []
  | .put thread => if system.key thread = some key then [.put thread] else []
  | .computeWait thread => if system.key thread = some key then [.computeWait thread] else []
  | .releaseLock thread => if system.key thread = some key then [.releaseLock thread] else []
  | .resume thread => if system.key thread = some key then [.resume thread] else []
  | .timeOut thread => if system.key thread = some key then [.timeOut thread] else []
  | .leakerNow other => if other = key then [.leakerNow] else []
  | .leakerLeak =>
      match system.leaker with
      | some (other, _) => if other = key then [.leakerLeak] else []
      | none => []

/-- A limiter over the key's bucket alone, in the state that the key sees. -/
structure Shows (key : Key) (routed : RoutedSystem Thread Key) (system : System Thread) : Prop where
  clock : system.clock = routed.clock
  bucket : system.bucket = routed.bucket key
  admitted : system.admitted = routed.admitted key
  leaker : system.leaker =
    routed.leaker.bind (fun reading => if reading.1 = key then some reading.2 else none)
  holder : ∀ thread, system.holder = some thread ↔
    routed.holder = some thread ∧ routed.key thread = some key
  inside : ∀ thread, routed.key thread = some key → system.phase thread = routed.phase thread
  outside : ∀ thread, routed.key thread ≠ some key → (system.phase thread).away = true

namespace Shows

variable {key : Key} {before after : RoutedSystem Thread Key} {system : System Thread}

omit [DecidableEq Thread] in
theorem start (rates : Key → RateList) (clock : Int) (key : Key) :
    Shows key (RoutedSystem.start rates clock : RoutedSystem Thread Key)
      (System.start (rates key) clock) where
  clock := rfl
  bucket := rfl
  admitted := rfl
  leaker := rfl
  holder := fun _thread =>
    ⟨(fun impossible => by cases impossible), (fun impossible => by cases impossible.1)⟩
  inside := fun _thread impossible => by cases impossible
  outside := fun _thread _elsewhere => rfl

omit [DecidableEq Thread] in
theorem free (shows : Shows key before system) (unheld : before.holder = none) :
    system.holder = none := by
  apply Option.eq_none_iff_forall_ne_some.mpr
  intro thread held
  have both := (shows.holder thread).mp held
  rw [unheld] at both
  cases both.1

omit [DecidableEq Thread] in
theorem same_key (shows : Shows key before system) (sameClock : after.clock = before.clock)
    (sameBucket : after.bucket key = before.bucket key)
    (sameAdmitted : after.admitted key = before.admitted key)
    (sameLeaker : after.leaker = before.leaker)
    (holder : ∀ thread, after.holder = some thread ∧ after.key thread = some key ↔
      before.holder = some thread ∧ before.key thread = some key)
    (inside : ∀ thread, after.key thread = some key → before.key thread = some key ∧
      after.phase thread = before.phase thread)
    (outside : ∀ thread, after.key thread ≠ some key → before.key thread = some key →
      (before.phase thread).away = true) : Shows key after system where
  clock := shows.clock.trans sameClock.symm
  bucket := shows.bucket.trans sameBucket.symm
  admitted := shows.admitted.trans sameAdmitted.symm
  leaker := by
    rw [sameLeaker]
    exact shows.leaker
  holder := fun thread => (shows.holder thread).trans (holder thread).symm
  inside := by
    intro thread routed
    obtain ⟨was, same⟩ := inside thread routed
    exact (shows.inside thread was).trans same.symm
  outside := by
    intro thread elsewhere
    by_cases was : before.key thread = some key
    · rw [shows.inside thread was]
      exact outside thread elsewhere was
    · exact shows.outside thread was

/-- A thread whose last call is over turns to another one, which is routed nowhere yet. -/
theorem turned (shows : Shows key before system) {thread : Thread} {phase : Phase}
    (away : (before.phase thread).away = true) (unheld : before.holder ≠ some thread)
    (sameClock : after.clock = before.clock) (sameBucket : after.bucket key = before.bucket key)
    (sameAdmitted : after.admitted key = before.admitted key)
    (sameLeaker : after.leaker = before.leaker)
    (newKey : after.key = Function.update before.key thread none)
    (holder : ∀ still, still ≠ thread →
      (after.holder = some still ↔ before.holder = some still))
    (updated : after.phase = Function.update before.phase thread phase) :
    Shows key after system := by
  refine shows.same_key sameClock sameBucket sameAdmitted sameLeaker ?_ ?_ ?_
  · intro still
    rw [newKey]
    by_cases same : still = thread
    · subst same
      rw [Function.update_self]
      exact ⟨(fun both => by cases both.2), fun both => absurd both.1 unheld⟩
    · rw [Function.update_of_ne same, holder still same]
  · intro still routed
    rw [newKey] at routed
    by_cases same : still = thread
    · subst same
      rw [Function.update_self] at routed
      cases routed
    · rw [Function.update_of_ne same] at routed
      rw [updated]
      exact ⟨routed, Function.update_of_ne same _ _⟩
  · intro still unrouted was
    by_cases same : still = thread
    · rw [same]
      exact away
    · rw [newKey, Function.update_of_ne same] at unrouted
      exact absurd was unrouted

/-- A step of a call that is routed elsewhere, or nowhere. -/
theorem elsewhere (shows : Shows key before system) {thread : Thread} {phase : Phase}
    (other : before.key thread ≠ some key) (sameClock : after.clock = before.clock)
    (sameBucket : after.bucket key = before.bucket key)
    (sameAdmitted : after.admitted key = before.admitted key)
    (sameLeaker : after.leaker = before.leaker) (sameKey : after.key = before.key)
    (holder : ∀ still, still ≠ thread →
      (after.holder = some still ↔ before.holder = some still))
    (updated : after.phase = Function.update before.phase thread phase) :
    Shows key after system := by
  refine shows.same_key sameClock sameBucket sameAdmitted sameLeaker ?_ ?_ ?_
  · intro still
    rw [sameKey]
    by_cases same : still = thread
    · subst same
      exact ⟨fun both => absurd both.2 other, fun both => absurd both.2 other⟩
    · rw [holder still same]
  · intro still routed
    rw [sameKey] at routed
    have different : still ≠ thread := by
      intro same
      subst same
      exact other routed
    refine ⟨routed, ?_⟩
    rw [updated, Function.update_of_ne different]
  · intro still unrouted was
    rw [sameKey] at unrouted
    exact absurd was unrouted

/-- A step of a call that is routed to the key. -/
theorem own (shows : Shows key before system) {thread : Thread} {phase : Phase}
    (routed : before.key thread = some key) {following : System Thread}
    (updated : after.phase = Function.update before.phase thread phase)
    (followed : following.phase = Function.update system.phase thread phase)
    (sameKey : after.key = before.key) (clock : following.clock = after.clock)
    (bucket : following.bucket = after.bucket key)
    (admitted : following.admitted = after.admitted key)
    (leaker : following.leaker =
      after.leaker.bind (fun reading => if reading.1 = key then some reading.2 else none))
    (holder : ∀ still, following.holder = some still ↔
      after.holder = some still ∧ before.key still = some key) :
    Shows key after following where
  clock := clock
  bucket := bucket
  admitted := admitted
  leaker := leaker
  holder := by
    rw [sameKey]
    exact holder
  inside := by
    intro still inKey
    rw [sameKey] at inKey
    rw [updated, followed]
    by_cases same : still = thread
    · subst same
      simp only [Function.update_self]
    · simp only [Function.update_of_ne same]
      exact shows.inside still inKey
  outside := by
    intro still unrouted
    rw [sameKey] at unrouted
    have different : still ≠ thread := by
      intro same
      subst same
      exact unrouted routed
    rw [followed, Function.update_of_ne different]
    exact shows.outside still unrouted

/-- A call arrives at the bucket that its item is routed to. -/
theorem arrive (shows : Shows key before system) {thread : Thread} {request : Request}
    {item : RateItem} {blocking : Bool} (current : before.phase thread = .entered request)
    (entered : request.enter before.clock = .stamped item blocking)
    (holding : before.holder = some thread) (unrouted : before.key thread ≠ some key)
    (bufferMs : Nat) :
    ∃ following, exec (System.step bufferMs) system
        [.acquireLock thread request, .wrapItem thread] = some following ∧
      Shows key
        { before.move thread (.stamped item blocking) with
          key := Function.update before.key thread (some key) } following := by
  have free : system.holder = none := by
    apply Option.eq_none_iff_forall_ne_some.mpr
    intro other held
    obtain ⟨same, routed⟩ := (shows.holder other).mp held
    rw [holding] at same
    cases same
    exact unrouted routed
  have away := shows.outside thread unrouted
  let entering : System Thread :=
    { system.move thread (.entered request) with holder := some thread }
  have locked : system.step bufferMs (.acquireLock thread request) = some entering := by
    cases phase : system.phase thread with
    | idle => simp only [System.step, phase, free, entering]
    | finished verdict => simp only [System.step, phase, free, entering]
    | _ => rw [phase] at away; cases away
  have wrapped : entering.step bufferMs (.wrapItem thread) =
      some { system.move thread (.stamped item blocking) with holder := some thread } := by
    simp only [System.step, System.move, entering, Function.update_self, shows.clock, entered,
      Function.update_idem]
  refine ⟨{ system.move thread (.stamped item blocking) with holder := some thread }, ?_, ?_⟩
  · simp only [exec, locked, wrapped]
  · exact
      { clock := shows.clock
        bucket := shows.bucket
        admitted := shows.admitted
        leaker := shows.leaker
        holder := by
          intro other
          simp only [move, holding]
          by_cases same : other = thread
          · subst same
            simp only [Function.update_self, and_self]
          · simp only [Option.some.injEq]
            exact ⟨fun held => absurd held.symm same, fun both => absurd both.1.symm same⟩
        inside := by
          intro other routed
          simp only [move, System.move] at routed ⊢
          by_cases same : other = thread
          · subst same
            simp only [Function.update_self]
          · simp only [Function.update_of_ne same] at routed ⊢
            exact shows.inside other routed
        outside := by
          intro other elsewhere
          simp only [System.move] at elsewhere ⊢
          by_cases same : other = thread
          · subst same
            simp only [Function.update_self] at elsewhere
            exact absurd rfl elsewhere
          · simp only [Function.update_of_ne same] at elsewhere ⊢
            exact shows.outside other elsewhere }

theorem step {bufferMs : Nat} {route : RateItem → Option Key} {action : RoutedAction Thread Key}
    (shows : Shows key before system) (kept : before.LockKept)
    (taken : before.step bufferMs route action = some after) :
    ∃ following, exec (System.step bufferMs) system (before.seen route key action) =
        some following ∧ Shows key after following := by
  have sameHolder : ∀ thread still, still ≠ thread →
      (before.holder = some still ↔ before.holder = some still) :=
    fun _thread _still _different => Iff.rfl
  cases step_cases taken with
  | tick now later =>
      refine ⟨{ system with clock := now }, ?_, { shows with clock := rfl }⟩
      apply exec_single
      simp only [System.step, shows.clock, if_pos later]
  | acquireLock thread request away free =>
      refine ⟨system, rfl, shows.turned away ?_ rfl rfl rfl rfl rfl ?_ rfl⟩
      · rw [free]
        exact fun impossible => by cases impossible
      · intro still different
        rw [free]
        exact ⟨fun held => absurd (Option.some.inj held).symm different,
          (fun impossible => by cases impossible)⟩
  | failLock thread away =>
      refine ⟨system, rfl, shows.turned away ?_ rfl rfl rfl rfl rfl (sameHolder thread) rfl⟩
      intro held
      have inside := kept.holding thread held
      rw [Phase.holds_of_away away] at inside
      cases inside
  | wrapItem thread request item blocking current entered =>
      have keyless := kept.unrouted thread request current
      have holding := kept.exclusive thread (by rw [current]; rfl)
      have unrouted : before.key thread ≠ some key := by
        rw [keyless]
        exact fun impossible => by cases impossible
      simp only [seen, current, entered, RoutedSystem.routed]
      cases chosen : route item with
      | none =>
          refine ⟨system, rfl, ?_⟩
          exact shows.elsewhere unrouted rfl rfl rfl rfl rfl (sameHolder thread) rfl
      | some other =>
          by_cases mine : other = key
          · subst mine
            rw [if_pos rfl]
            exact shows.arrive current entered holding unrouted bufferMs
          · rw [if_neg (fun same => mine (Option.some.inj same))]
            refine ⟨system, rfl, shows.same_key rfl rfl rfl rfl ?_ ?_ ?_⟩
            · intro still
              by_cases same : still = thread
              · subst same
                simp only [Function.update_self]
                exact ⟨fun both => absurd (Option.some.inj both.2) mine,
                  fun both => absurd both.2 unrouted⟩
              · simp only [Function.update_of_ne same]
                exact Iff.rfl
            · intro still routed
              by_cases same : still = thread
              · subst same
                simp only [Function.update_self] at routed
                exact absurd (Option.some.inj routed) mine
              · simp only [Function.update_of_ne same] at routed
                exact ⟨routed, Function.update_of_ne same _ _⟩
            · intro still notMine was
              by_cases same : still = thread
              · rw [same] at was
                exact absurd was unrouted
              · simp only [Function.update_of_ne same] at notMine
                exact absurd was notMine
  | passBy thread request verdict current entered =>
      have keyless := kept.unrouted thread request current
      have unrouted : before.key thread ≠ some key := by
        rw [keyless]
        exact fun impossible => by cases impossible
      simp only [seen, current, entered]
      exact ⟨system, rfl, shows.elsewhere unrouted rfl rfl rfl rfl rfl (sameHolder thread) rfl⟩
  | put thread other item blocking routed current =>
      by_cases mine : other = key
      · subst mine
        have phase := shows.inside thread routed
        have ran : system.step bufferMs (.put thread) =
            some
              { system.move thread
                  (Phase.afterPut item ((before.bucket other).put item).1 blocking) with
                bucket := ((before.bucket other).put item).2
                admitted :=
                  if ((before.bucket other).put item).1 then before.admitted other ++ [item]
                  else before.admitted other } := by
          simp only [System.step, phase, current, shows.bucket, shows.admitted]
        rw [seen, if_pos routed]
        refine ⟨_, exec_single ran,
          shows.own routed rfl rfl rfl shows.clock ?_ ?_ shows.leaker shows.holder⟩
        · simp only [Function.update_self]
        · split
          · simp only [Function.update_self]
          · rfl
      · have unrouted : before.key thread ≠ some key := by
          rw [routed]
          exact fun same => mine (Option.some.inj same)
        rw [seen, if_neg unrouted]
        refine ⟨system, rfl, shows.elsewhere unrouted rfl ?_ ?_ rfl rfl (sameHolder thread) rfl⟩
        · exact Function.update_of_ne (Ne.symm mine) _ _
        · simp only []
          split
          · exact Function.update_of_ne (Ne.symm mine) _ _
          · rfl
  | computeWait thread other item routed current =>
      by_cases mine : other = key
      · subst mine
        have phase := shows.inside thread routed
        have ran : system.step bufferMs (.computeWait thread) =
            some (system.move thread
              (Phase.afterWaiting item ((before.bucket other).waiting item))) := by
          simp only [System.step, phase, current, shows.bucket]
        rw [seen, if_pos routed]
        exact ⟨_, exec_single ran,
          shows.own routed rfl rfl rfl shows.clock shows.bucket shows.admitted shows.leaker
            shows.holder⟩
      · have unrouted : before.key thread ≠ some key := by
          rw [routed]
          exact fun same => mine (Option.some.inj same)
        rw [seen, if_neg unrouted]
        exact ⟨system, rfl, shows.elsewhere unrouted rfl rfl rfl rfl rfl (sameHolder thread) rfl⟩
  | leave thread verdict current =>
      have holding := kept.exclusive thread (by rw [current]; rfl)
      by_cases routed : before.key thread = some key
      · have phase := shows.inside thread routed
        have ran : system.step bufferMs (.releaseLock thread) =
            some { system.move thread (.finished verdict) with holder := none } := by
          simp only [System.step, phase, current]
        rw [seen, if_pos routed]
        refine ⟨_, exec_single ran,
          shows.own routed rfl rfl rfl shows.clock shows.bucket shows.admitted shows.leaker ?_⟩
        intro still
        exact ⟨(fun impossible => by cases impossible),
          (fun impossible => by cases impossible.1)⟩
      · rw [seen, if_neg routed]
        refine ⟨system, rfl, shows.elsewhere routed rfl rfl rfl rfl rfl ?_ rfl⟩
        intro still different
        rw [holding]
        exact ⟨(fun impossible => by cases impossible),
          fun held => absurd (Option.some.inj held).symm different⟩
  | plan thread item waitMs current =>
      have holding := kept.exclusive thread (by rw [current]; rfl)
      by_cases routed : before.key thread = some key
      · have phase := shows.inside thread routed
        have ran : system.step bufferMs (.releaseLock thread) =
            some
              { system.move thread (Phase.afterPlanning bufferMs before.clock item waitMs) with
                holder := none } := by
          simp only [System.step, phase, current, shows.clock]
        rw [seen, if_pos routed]
        refine ⟨_, exec_single ran,
          shows.own routed rfl rfl rfl shows.clock shows.bucket shows.admitted shows.leaker ?_⟩
        intro still
        exact ⟨(fun impossible => by cases impossible),
          (fun impossible => by cases impossible.1)⟩
      · rw [seen, if_neg routed]
        refine ⟨system, rfl, shows.elsewhere routed rfl rfl rfl rfl rfl ?_ rfl⟩
        intro still different
        rw [holding]
        exact ⟨(fun impossible => by cases impossible),
          fun held => absurd (Option.some.inj held).symm different⟩
  | resume thread item sleepMs wakeAt current free awake =>
      by_cases routed : before.key thread = some key
      · have phase := shows.inside thread routed
        have ran : system.step bufferMs (.resume thread) =
            some
              { system.move thread (.resumed (item.delay sleepMs)) with
                holder := some thread } := by
          simp only [System.step, phase, current, shows.free free, shows.clock, if_pos awake]
        rw [seen, if_pos routed]
        refine ⟨_, exec_single ran,
          shows.own routed rfl rfl rfl shows.clock shows.bucket shows.admitted shows.leaker ?_⟩
        intro still
        constructor
        · intro held
          cases held
          exact ⟨rfl, routed⟩
        · exact fun both => both.1
      · rw [seen, if_neg routed]
        refine ⟨system, rfl, shows.elsewhere routed rfl rfl rfl rfl rfl ?_ rfl⟩
        intro still different
        rw [free]
        exact ⟨fun held => absurd (Option.some.inj held).symm different,
          (fun impossible => by cases impossible)⟩
  | timeOut thread item sleepMs wakeAt current =>
      by_cases routed : before.key thread = some key
      · have phase := shows.inside thread routed
        have ran : system.step bufferMs (.timeOut thread) =
            some (system.move thread (.finished (.returned false))) := by
          simp only [System.step, phase, current]
        rw [seen, if_pos routed]
        exact ⟨_, exec_single ran,
          shows.own routed rfl rfl rfl shows.clock shows.bucket shows.admitted shows.leaker
            shows.holder⟩
      · rw [seen, if_neg routed]
        exact ⟨system, rfl, shows.elsewhere routed rfl rfl rfl rfl rfl (sameHolder thread) rfl⟩
  | leakerNow other done =>
      have idle := shows.leaker
      rw [done] at idle
      by_cases mine : other = key
      · subst mine
        refine ⟨{ system with leaker := some system.clock }, ?_, ?_⟩
        · rw [seen, if_pos rfl]
          exact exec_single rfl
        · refine { shows with leaker := ?_ }
          simp only [Option.bind_some, if_true, shows.clock]
      · rw [seen, if_neg mine]
        refine ⟨system, rfl, { shows with leaker := ?_ }⟩
        simp only [Option.bind_some, if_neg mine]
        exact idle
  | leakerLeak other now reading =>
      have pending := shows.leaker
      simp only [reading, Option.bind_some] at pending
      simp only [seen, reading]
      by_cases mine : other = key
      · subst mine
        rw [if_pos rfl] at pending ⊢
        have ran : system.step bufferMs .leakerLeak =
            some { system with bucket := (system.bucket.leak now).2, leaker := none } := by
          simp only [System.step, pending]
        refine ⟨_, exec_single ran, { shows with bucket := ?_, leaker := rfl }⟩
        simp only [Function.update_self, shows.bucket]
      · rw [if_neg mine] at pending ⊢
        refine ⟨system, rfl, { shows with bucket := ?_, leaker := pending }⟩
        simp only [Function.update_of_ne (Ne.symm mine)]
        exact shows.bucket

end Shows

/-- A retry of the key that finds room carries a stamp no older than the recorded ones. -/
def FreshRetry (key : Key) (system : RoutedSystem Thread Key) :
    RoutedAction Thread Key → Prop
  | .put thread => system.key thread = some key → ∀ item, system.phase thread = .resumed item →
      Room (system.bucket key).rates.windows (system.bucket key).stamps item.timestamp
          item.weight →
        ∀ stamp, stamp ∈ (system.bucket key).stamps → stamp ≤ item.timestamp
  | _ => True

structure RecordsKept (rates : RateList) (key : Key) (system : RoutedSystem Thread Key) :
    Prop where
  sorted : (system.bucket key).Sorted
  within : ∀ rate, rate ∈ rates → ∀ finish,
    (countBetween (system.bucket key).stamps (finish - rate.interval) finish : Int) ≤ rate.limit

namespace Shows

variable {key : Key} {before after : RoutedSystem Thread Key} {system : System Thread}
  {rates : RateList}

omit [DecidableEq Thread] in
theorem recordsKept_iff (shows : Shows key before system) :
    system.RecordsKept rates ↔ before.RecordsKept rates key := by
  constructor
  · rintro ⟨sorted, within⟩
    rw [shows.bucket] at sorted within
    exact ⟨sorted, within⟩
  · rintro ⟨sorted, within⟩
    rw [← shows.bucket] at sorted within
    exact ⟨sorted, within⟩

omit [DecidableEq Thread] in
theorem freshRetry_iff (shows : Shows key before system) {thread : Thread}
    (routed : before.key thread = some key) :
    system.FreshRetry (.put thread) ↔ before.FreshRetry key (.put thread) := by
  simp only [System.FreshRetry, RoutedSystem.FreshRetry]
  rw [shows.inside thread routed, shows.bucket]
  exact ⟨fun fresh _routed => fresh, fun fresh => fresh routed⟩

/-- What the key sees of a fresh step is fresh. -/
theorem seen_fresh (shows : Shows key before system) {bufferMs : Nat}
    {route : RateItem → Option Key} {action : RoutedAction Thread Key}
    (fresh : before.FreshRetry key action) :
    StepsMeet (System.step bufferMs) System.FreshRetry system
      (before.seen route key action) := by
  cases action with
  | put thread =>
      simp only [seen]
      split
      · rename_i routed
        exact fun _next _taken => ⟨(shows.freshRetry_iff routed).mpr fresh, trivial⟩
      · trivial
  | tick now => exact fun _next _taken => ⟨trivial, trivial⟩
  | acquireLock thread request => trivial
  | failLock thread => trivial
  | wrapItem thread =>
      simp only [seen]
      split
      · split
        · split
          · exact fun _next _taken => ⟨trivial, fun _after _wrapped => ⟨trivial, trivial⟩⟩
          · trivial
        · trivial
      · trivial
  | computeWait thread =>
      simp only [seen]
      split
      · exact fun _next _taken => ⟨trivial, trivial⟩
      · trivial
  | releaseLock thread =>
      simp only [seen]
      split
      · exact fun _next _taken => ⟨trivial, trivial⟩
      · trivial
  | resume thread =>
      simp only [seen]
      split
      · exact fun _next _taken => ⟨trivial, trivial⟩
      · trivial
  | timeOut thread =>
      simp only [seen]
      split
      · exact fun _next _taken => ⟨trivial, trivial⟩
      · trivial
  | leakerNow other =>
      simp only [seen]
      split
      · exact fun _next _taken => ⟨trivial, trivial⟩
      · trivial
  | leakerLeak =>
      simp only [seen]
      split
      · split
        · exact fun _next _taken => ⟨trivial, trivial⟩
        · trivial
      · trivial

end Shows

/-- The key sees a limiter over its bucket alone that keeps its records. -/
structure KeyKept (rates : RateList) (key : Key) (system : RoutedSystem Thread Key) : Prop where
  locked : system.LockKept
  shows : ∃ single, Shows key system single ∧ single.RetryInvariant rates

namespace KeyKept

variable {rates : RateList} {key : Key} {before after : RoutedSystem Thread Key} {bufferMs : Nat}
  {route : RateItem → Option Key} {action : RoutedAction Thread Key}

omit [DecidableEq Thread] in
theorem start (rates : Key → RateList) (clock : Int) (key : Key) :
    KeyKept (rates key) key (RoutedSystem.start rates clock : RoutedSystem Thread Key) where
  locked := LockKept.start rates clock
  shows := ⟨_, Shows.start rates clock key, System.RetryInvariant.start clock⟩

omit [DecidableEq Thread] in
theorem recordsKept (kept : before.KeyKept rates key) : before.RecordsKept rates key := by
  obtain ⟨single, shows, invariant⟩ := kept.shows
  exact shows.recordsKept_iff.mp invariant.recordsKept

theorem step (kept : before.KeyKept rates key) (fresh : before.FreshRetry key action)
    (taken : before.step bufferMs route action = some after) : after.KeyKept rates key := by
  obtain ⟨single, shows, invariant⟩ := kept.shows
  obtain ⟨following, run, onward⟩ := shows.step kept.locked taken
  have always : Always (System.step bufferMs) (System.RetryInvariant rates) single
      (before.seen route key action) :=
    Always.of_invariant (fun _before _action _after holds met moved => holds.step met moved)
      invariant (shows.seen_fresh fresh)
  exact ⟨kept.locked.step taken, following, onward, always.reached run⟩

theorem not_recordsKept_of_late (kept : before.KeyKept rates key)
    (late : ¬before.FreshRetry key action)
    (taken : before.step bufferMs route action = some after) :
    ¬after.RecordsKept rates key := by
  obtain ⟨single, shows, invariant⟩ := kept.shows
  obtain ⟨following, run, onward⟩ := shows.step kept.locked taken
  cases action with
  | put thread =>
      have routed : before.key thread = some key := by
        apply Classical.byContradiction
        intro unrouted
        exact late (fun routed => absurd routed unrouted)
      rw [seen, if_pos routed] at run
      have ran : single.step bufferMs (.put thread) = some following := by
        simp only [exec] at run
        split at run
        · rename_i next moved
          rw [moved]
          exact run
        · cases run
      have lateSingle : ¬single.FreshRetry (.put thread) :=
        fun fresh => late ((shows.freshRetry_iff routed).mp fresh)
      exact fun records =>
        invariant.not_recordsKept_of_late lateSingle ran (onward.recordsKept_iff.mpr records)
  | _ => exact absurd trivial late

end KeyKept

end RoutedSystem

/-- Every run of a limiter over many buckets is to each key a run of a limiter over its bucket
alone, with the same items admitted and the same phases of the calls that are routed there. -/
theorem routed_runs_shown {Thread Key : Type} [DecidableEq Thread] [DecidableEq Key]
    (bufferMs : Nat) (route : RateItem → Option Key) (rates : Key → RateList) (clock : Int)
    (actions : List (RoutedAction Thread Key)) {final : RoutedSystem Thread Key}
    (run : exec (RoutedSystem.step bufferMs route) (RoutedSystem.start rates clock) actions =
      some final) (key : Key) :
    ∃ single, exec (System.step bufferMs) (System.start (rates key) clock)
        (shown (RoutedSystem.step bufferMs route) (RoutedSystem.seen route key)
          (RoutedSystem.start rates clock) actions) = some single ∧
      RoutedSystem.Shows key final single := by
  obtain ⟨single, ran, _locked, shows⟩ := exec_shown
    (fun before _action _after single (related : before.LockKept ∧ before.Shows key single)
        taken =>
      (related.2.step related.1 taken).imp (fun _following both =>
        ⟨both.1, related.1.step taken, both.2⟩))
    ⟨RoutedSystem.LockKept.start rates clock, RoutedSystem.Shows.start rates clock key⟩ run
  exact ⟨single, ran, shows⟩

/-- Whatever the calls for other keys do, the records of a key are kept exactly as long as no
retry of that key that finds room comes after a later stamp in its bucket. -/
theorem routed_records_kept_iff {Thread Key : Type} [DecidableEq Thread] [DecidableEq Key]
    (bufferMs : Nat) (route : RateItem → Option Key) (rates : Key → RateList) (clock : Int)
    (key : Key) (actions : List (RoutedAction Thread Key)) :
    Always (RoutedSystem.step bufferMs route) (RoutedSystem.RecordsKept (rates key) key)
        (RoutedSystem.start rates clock) actions ↔
      StepsMeet (RoutedSystem.step bufferMs route) (RoutedSystem.FreshRetry key)
        (RoutedSystem.start rates clock) actions :=
  always_iff_stepsMeet
    (fun _before kept => RoutedSystem.KeyKept.recordsKept kept)
    (fun _before _action _after kept fresh taken => kept.step fresh taken)
    (fun _before _action _after kept late taken => kept.not_recordsKept_of_late late taken)
    (RoutedSystem.KeyKept.start rates clock key) actions

def byName (item : RateItem) : Option Bool :=
  if item.name = "search" then some true
  else if item.name = "upload" then some false
  else none

def ratesOf (search : Bool) : RateList :=
  if search then threeRequestsIn100 else oneRequestIn100

/-- While the second upload waits, a search and a name without a bucket pass it by. -/
def uploadsAndSearch : List (RoutedAction ℕ Bool) :=
  [.acquireLock 0 ⟨"upload", 1, true⟩, .wrapItem 0, .put 0, .releaseLock 0,
    .acquireLock 1 ⟨"upload", 1, true⟩, .wrapItem 1, .put 1, .computeWait 1, .releaseLock 1,
    .acquireLock 2 ⟨"search", 3, true⟩, .wrapItem 2, .put 2, .releaseLock 2,
    .acquireLock 0 ⟨"other", 1, true⟩, .wrapItem 0, .releaseLock 0,
    .tick 101, .leakerNow false, .leakerLeak, .resume 1, .put 1, .releaseLock 1]

theorem routed_runs_shown_uploads :
    ∃ final, exec (RoutedSystem.step 0 byName) (RoutedSystem.start ratesOf 0) uploadsAndSearch =
        some final ∧
      final.admitted false = [⟨"upload", 0, 1⟩, ⟨"upload", 101, 1⟩] ∧
      ∃ single, exec (System.step 0) (System.start (ratesOf false) 0)
          (shown (RoutedSystem.step 0 byName) (RoutedSystem.seen byName false)
            (RoutedSystem.start ratesOf 0) uploadsAndSearch) = some single ∧
        RoutedSystem.Shows false final single := by
  have ran : (exec (RoutedSystem.step 0 byName) (RoutedSystem.start ratesOf 0)
      uploadsAndSearch).map (fun final => final.admitted false) =
        some [⟨"upload", 0, 1⟩, ⟨"upload", 101, 1⟩] := by
    decide
  obtain ⟨final, run, admitted⟩ := Option.map_eq_some_iff.mp ran
  exact ⟨final, run, admitted, routed_runs_shown 0 byName ratesOf 0 uploadsAndSearch run false⟩

end PyrateLimiter
