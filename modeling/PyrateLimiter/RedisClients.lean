/-
Clients that share one Redis key.

The scripts of all clients run one after the other, in any order and with item
timestamps in any order.  The script counts up to the timestamp of its own item,
while the other backends count without an upper bound, so members that are
already stored with a later score are left out of its decision.
-/

import PyrateLimiter.Foundations.TransitionSystem
import PyrateLimiter.RedisBucket

namespace PyrateLimiter

open Foundations.SortedSets
open Foundations.TransitionSystem
open Foundations.WindowLog

structure ClientPut where
  item : RateItem
  id : String
  deriving DecidableEq, Repr

namespace RedisBucket

/-- One run of a client's script; ids are drawn fresh. -/
def serverStep (rates : RateList) (set : RedisSet) (request : ClientPut) : Option RedisSet :=
  if 1 ≤ request.item.weight ∧ FreshId set request.item request.id then
    (checkAndInsert rates set request.item request.id).map Prod.snd
  else none

def MembersKept (rates : RateList) (set : RedisSet) : Prop :=
  ∀ rate, rate ∈ rates → ∀ finish,
    (set.count (finish - rate.interval) finish : Int) ≤ rate.limit

/-- The script refuses the item, or the item fits also when the members stored up
to one interval after it are counted. -/
def FitsAround (rates : RateList) (set : RedisSet) (request : ClientPut) : Prop :=
  (∃ rate, rate ∈ rates ∧ lacksSpace set request.item rate = true) ∨
    ∀ rate, rate ∈ rates →
      (set.count (request.item.timestamp - rate.interval)
        (request.item.timestamp + rate.interval) : Int) + request.item.weight ≤ rate.limit

instance (rates : RateList) (set : RedisSet) (request : ClientPut) :
    Decidable (FitsAround rates set request) :=
  inferInstanceAs (Decidable
    ((∃ rate, rate ∈ rates.toList ∧ lacksSpace set request.item rate = true) ∨
      ∀ rate, rate ∈ rates.toList →
        (set.count (request.item.timestamp - rate.interval)
          (request.item.timestamp + rate.interval) : Int) + request.item.weight ≤ rate.limit))

theorem serverStep_cases {rates : RateList} {before after : RedisSet} {request : ClientPut}
    (taken : serverStep rates before request = some after) :
    1 ≤ request.item.weight ∧
      (after = before ∨
        (∀ rate, rate ∈ rates → lacksSpace before request.item rate = false) ∧
          after.scores = before.scores ++
            List.replicate request.item.weight.toNat request.item.timestamp) := by
  unfold serverStep at taken
  split at taken
  · rename_i guard
    refine ⟨guard.1, ?_⟩
    obtain ⟨⟨failingRate, left⟩, ran, rfl⟩ := Option.map_eq_some_iff.mp taken
    rcases checkAndInsert_cases ran with
      ⟨_rate, _member, _full, _refused, same⟩ | ⟨spacious, _admitted, grown⟩
    · exact Or.inl same
    · refine Or.inr ⟨spacious, ?_⟩
      simp only [grown]
      exact scores_addAll_newMembers guard.2
  · cases taken

theorem membersKept_iff_within {rates : RateList} {set : RedisSet} :
    MembersKept rates set ↔ Within rates.windows set.scores := by
  unfold MembersKept Within
  rw [RateList.forall_windows]
  rfl

theorem membersKept_step {rates : RateList} {before after : RedisSet} {request : ClientPut}
    (kept : MembersKept rates before) (fits : FitsAround rates before request)
    (taken : serverStep rates before request = some after) : MembersKept rates after := by
  obtain ⟨positive, same | ⟨spacious, grown⟩⟩ := serverStep_cases taken
  · rw [same]
    exact kept
  · rcases fits with ⟨rate, member, full⟩ | around
    · rw [spacious rate member] at full
      cases full
    · rw [membersKept_iff_within] at kept ⊢
      rw [grown]
      exact kept.record_around (RateList.forall_windows.mpr around) _ (by omega)

end RedisBucket

/-- In every run of clients' scripts whose admitted items fit also among the
members up to one interval after them, no window ever exceeds its limit. -/
theorem clients_keep_members (rates : RateList) (requests : List ClientPut)
    (fits : StepsMeet (RedisBucket.serverStep rates) (RedisBucket.FitsAround rates)
      SortedSet.empty requests) :
    Always (RedisBucket.serverStep rates) (RedisBucket.MembersKept rates)
      SortedSet.empty requests := by
  apply Always.of_invariant _ _ fits
  · intro before request after kept fitting taken
    exact RedisBucket.membersKept_step kept fitting taken
  · rw [RedisBucket.membersKept_iff_within]
    exact rates.within_nil

def putsInOrder : List ClientPut :=
  [⟨⟨"first", 50, 1⟩, "a"⟩, ⟨⟨"second", 90, 1⟩, "b"⟩, ⟨⟨"third", 151, 1⟩, "c"⟩]

theorem clients_keep_members_inOrder :
    (exec (RedisBucket.serverStep oneRequestIn100) SortedSet.empty putsInOrder).map
        SortedSet.scores = some [50, 151] ∧
      Always (RedisBucket.serverStep oneRequestIn100) (RedisBucket.MembersKept oneRequestIn100)
        SortedSet.empty putsInOrder :=
  ⟨by decide, clients_keep_members oneRequestIn100 putsInOrder (by decide)⟩

/-- A client whose clock is fifty milliseconds behind does not count the unit
stored before its own. -/
theorem late_client_overfills_window :
    (∃ set, exec (RedisBucket.serverStep oneRequestIn100) SortedSet.empty
        [⟨⟨"first", 50, 1⟩, "a"⟩, ⟨⟨"second", 0, 1⟩, "b"⟩] = some set ∧ set.count 0 100 = 2) ∧
      ¬Always (RedisBucket.serverStep oneRequestIn100) (RedisBucket.MembersKept oneRequestIn100)
        SortedSet.empty [⟨⟨"first", 50, 1⟩, "a"⟩, ⟨⟨"second", 0, 1⟩, "b"⟩] := by
  have ran : (exec (RedisBucket.serverStep oneRequestIn100) SortedSet.empty
      [⟨⟨"first", 50, 1⟩, "a"⟩, ⟨⟨"second", 0, 1⟩, "b"⟩]).map (fun set => set.count 0 100) =
        some 2 := by
    decide
  obtain ⟨set, run, counted⟩ := Option.map_eq_some_iff.mp ran
  refine ⟨⟨set, run, counted⟩, ?_⟩
  intro always
  have kept := always.reached run oneRequestIn100.first oneRequestIn100.first_mem 100
  change (set.count 0 100 : Int) ≤ 1 at kept
  omega

end PyrateLimiter
