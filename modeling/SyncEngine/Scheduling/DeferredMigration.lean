import Mathlib.Data.List.MinMax
import Mathlib.Data.List.Nodup
import Mathlib.Data.Prod.Lex
import Mathlib.Data.String.Basic
import SyncEngine.Util.Runs

/-! Migrations of accounts that wait for a deadline: the queue of their ids in Redis, the objects that
are stored beside it for a week, and the executor that works through them. -/
namespace SyncEngine
namespace DeferredMigration

structure DeferredAccountMigration where
  deadline : Int
  accountId : Nat
  desiredHost : String
  id : Nat
deriving DecidableEq

/-- `pqueue` is the sorted set of ids with their scores, in no order, and `objs` the objects that have
neither expired nor been lost. `events` wakes the executor. -/
structure Redis where
  counter : Nat
  pqueue : List (Int × Nat)
  objs : Nat → Option DeferredAccountMigration
  events : List Nat

/-- Redis sorts by score, and members of one score as texts. -/
def key (entry : Int × Nat) : Int ×ₗ String ×ₗ Nat :=
  toLex (entry.1, toLex (Nat.repr entry.2, entry.2))

namespace Redis

def zadd (redis : Redis) (score : Int) (id : Nat) : Redis :=
  { redis with pqueue := redis.pqueue.filter (fun entry => entry.2 ≠ id) ++ [(score, id)] }

def zrem (redis : Redis) (id : Nat) : Redis :=
  { redis with pqueue := redis.pqueue.filter fun entry => entry.2 ≠ id }

def save (redis : Redis) (deferral : DeferredAccountMigration) : Redis :=
  { redis.zadd deferral.deadline deferral.id with
    objs := Function.update redis.objs deferral.id (some deferral)
    events := redis.events ++ [deferral.id] }

/-- `save` of an object that has no id yet. -/
def create (redis : Redis) (deadline : Int) (accountId : Nat) (desiredHost : String) : Redis :=
  Redis.save { redis with counter := redis.counter + 1 }
    { deadline, accountId, desiredHost, id := redis.counter + 1 }

inductive Raised
  | typeError

/-- The values of an object that is missing are a list of `None`s and not `None`, and the constructor
raises at the first of them. -/
def tryLoad (redis : Redis) (id : Nat) : Except Raised (Option DeferredAccountMigration) :=
  match redis.objs id with
  | none => .error .typeError
  | some deferral => .ok (some deferral)

/-- The order of the integers that can be computed with. -/
local instance : Preorder Int := Int.instLinearOrder.toPreorder

def tryGetNextDeferral (redis : Redis) : Except Raised (Option DeferredAccountMigration) :=
  match redis.pqueue.argmin key with
  | none => .ok none
  | some entry => redis.tryLoad entry.2

end Redis

/-- Where the executor is: between two iterations, in the loop of one that began at `currentTime`, or
in it between the execution of a deferral and its removal from the queue. -/
inductive Phase
  | idle
  | looping (currentTime : Int)
  | executed (currentTime : Int) (id : Nat)
deriving DecidableEq

/-- `hosts` has the `desired_sync_host` of every account. `log` and `removed` are the ids that have
been executed and taken from the queue. -/
structure State where
  now : Int
  redis : Redis
  hosts : Nat → Option (Option String)
  phase : Phase
  log : List Nat
  removed : List Nat

/-- `DeferredAccountMigration.execute` -/
def execute (deferral : DeferredAccountMigration) (s : State) : State :=
  match s.hosts deferral.accountId with
  | none => s
  | some _ => { s with
      hosts := Function.update s.hosts deferral.accountId (some (some deferral.desiredHost))
      redis := s.redis.save deferral }

/-- The iteration ends with `receive_event`. -/
def rest (s : State) : State :=
  { s with phase := .idle, redis := { s.redis with events := s.redis.events.tail } }

/-- What the executor does next when its clock shows `clock`. An iteration that raises is begun
again. -/
def tick (clock : Int) (s : State) : State :=
  match s.phase with
  | .idle => { s with now := clock, phase := .looping clock }
  | .looping currentTime =>
    match s.redis.tryGetNextDeferral with
    | .error _ => { s with now := clock, phase := .idle }
    | .ok none => { rest s with now := clock }
    | .ok (some deferral) =>
      if currentTime ≤ deferral.deadline then { rest s with now := clock }
      else { execute deferral s with
        now := clock
        phase := .executed currentTime deferral.id
        log := deferral.id :: s.log }
  | .executed currentTime id => { s with
      now := clock
      redis := s.redis.zrem id
      phase := .looping currentTime
      removed := id :: s.removed }

inductive Event
  | executor (clock : Int)
  | crash
  | create (deadline : Int) (accountId : Nat) (desiredHost : String)
  | expire (id : Nat)
  | deleteAccount (accountId : Nat)
deriving DecidableEq

def step (s : State) : Event → Option State
  | .executor clock => if s.now ≤ clock then some (tick clock s) else none
  | .crash => some { s with phase := .idle }
  | .create deadline accountId desiredHost =>
    some { s with redis := s.redis.create deadline accountId desiredHost }
  | .expire id => some { s with redis := { s.redis with objs := Function.update s.redis.objs id none } }
  | .deleteAccount accountId => some { s with hosts := Function.update s.hosts accountId none }

/-- The executor's next `n` steps, with nobody else at work. -/
def ticks (s : State) (clocks : Nat → Int) : Nat → State
  | 0 => s
  | n + 1 => tick (clocks n) (ticks s clocks n)

/-- What is executed is the first of the queue, its deadline is over, and it has not been removed
from the queue before. -/
def Orderly (s : State) (_ : Event) (next : State) : Prop :=
  ∀ id, next.log = id :: s.log → ∃ deadline, (deadline, id) ∈ s.redis.pqueue ∧ deadline < next.now ∧
    (∀ entry ∈ s.redis.pqueue, deadline ≤ entry.1) ∧ id ∉ s.removed

/-- The entry waits to be executed, and its object still exists. -/
structure Pending (s : State) (entry : Int × Nat) : Prop where
  queued : entry ∈ s.redis.pqueue
  stored : (s.redis.objs entry.2).isSome
  waiting : entry.2 ∉ s.log

/-- Every pending entry is executed after finitely many steps once its deadline is over. -/
def Serves (s : State) : Prop :=
  ∀ entry, Pending s entry → ∀ clocks : Nat → Int, (∀ n, entry.1 < clocks n) →
    ∃ n, entry.2 ∈ (ticks s clocks n).log

/-- The entry is being taken from the queue. -/
def Leaving (s : State) (id : Nat) : Prop := ∃ currentTime, s.phase = .executed currentTime id

/-- Before an entry that is pending, only entries with objects remain in the queue. -/
def Unblocked (s : State) : Prop :=
  ∀ entry, Pending s entry → ∀ before ∈ s.redis.pqueue, key before < key entry →
    (s.redis.objs before.2).isSome ∨ Leaving s before.2

/-- Any content of the queue, with or without objects. -/
structure Consistent (s : State) : Prop where
  distinct : (s.redis.pqueue.map Prod.snd).Nodup
  objs : ∀ entry ∈ s.redis.pqueue, ∀ deferral ∈ s.redis.objs entry.2,
    deferral.id = entry.2 ∧ deferral.deadline = entry.1
  known : ∀ entry ∈ s.redis.pqueue, entry.2 ≤ s.redis.counter
  removed : ∀ id ∈ s.removed, id ≤ s.redis.counter ∧ id ∉ s.redis.pqueue.map Prod.snd
  leaving : ∀ id, Leaving s id → id ∈ s.log ∧ id ∈ s.redis.pqueue.map Prod.snd

/-- The iteration has begun in the past. -/
def Timely (s : State) : Prop := ∀ currentTime, s.phase = .looping currentTime ∨
  (∃ id, s.phase = .executed currentTime id) → currentTime ≤ s.now

section Queue
variable {redis : Redis} {s : State}

theorem key_inj : key a = key b ↔ a = b := by
  constructor
  · intro same
    have parts := Prod.mk.inj (toLex.injective same)
    have members := Prod.mk.inj (toLex.injective parts.2)
    exact Prod.ext parts.1 members.2
  · exact congrArg key

theorem entry_eq (distinct : (redis.pqueue.map Prod.snd).Nodup) (first : a ∈ redis.pqueue)
    (second : b ∈ redis.pqueue) (same : a.2 = b.2) : a = b :=
  List.inj_on_of_nodup_map distinct first second same

/-- Saving an object again moves its entry at most. -/
theorem zadd_perm {id : Nat} (distinct : (redis.pqueue.map Prod.snd).Nodup)
    (queued : (score, id) ∈ redis.pqueue) : (redis.zadd score id).pqueue.Perm redis.pqueue := by
  have once := List.Nodup.of_map _ distinct
  apply (List.perm_ext_iff_of_nodup _ once).mpr
  · intro entry
    simp only [Redis.zadd, List.mem_append, List.mem_filter, decide_eq_true_eq, List.mem_singleton]
    constructor
    · rintro (⟨member, _⟩ | rfl)
      · exact member
      · exact queued
    · intro member
      by_cases same : entry.2 = id
      · exact .inr (entry_eq distinct member queued same)
      · exact .inl ⟨member, same⟩
  · simp only [Redis.zadd, List.nodup_append, List.mem_filter, decide_eq_true_eq, List.mem_singleton]
    refine ⟨once.filter _, List.nodup_singleton _, ?_⟩
    rintro entry ⟨_, other⟩ _ rfl rfl
    exact other rfl

theorem tryGetNextDeferral_some (next : redis.tryGetNextDeferral = .ok (some deferral)) :
    ∃ entry ∈ redis.pqueue, redis.objs entry.2 = some deferral ∧
      ∀ other ∈ redis.pqueue, key entry ≤ key other := by
  unfold Redis.tryGetNextDeferral at next
  split at next
  · cases next
  · rename_i entry first
    refine ⟨entry, List.argmin_mem first, ?_, fun other member => List.le_of_mem_argmin member first⟩
    unfold Redis.tryLoad at next
    split at next
    · cases next
    · rename_i found stored
      cases next
      exact stored

/-- The deferral that comes next is the first entry's. -/
theorem next_entry (consistent : Consistent s)
    (next : s.redis.tryGetNextDeferral = .ok (some deferral)) :
    (deferral.deadline, deferral.id) ∈ s.redis.pqueue ∧ s.redis.objs deferral.id = some deferral ∧
      ∀ other ∈ s.redis.pqueue, key (deferral.deadline, deferral.id) ≤ key other := by
  obtain ⟨entry, queued, stored, first⟩ := tryGetNextDeferral_some next
  obtain ⟨id, deadline⟩ := consistent.objs entry queued deferral stored
  have same : (deferral.deadline, deferral.id) = entry := Prod.ext deadline id
  rw [same, id]
  exact ⟨queued, stored, first⟩

/-- Executing the deferral that comes next changes neither the queue nor the objects. -/
theorem execute_redis (consistent : Consistent s)
    (next : s.redis.tryGetNextDeferral = .ok (some deferral)) :
    (execute deferral s).redis.pqueue.Perm s.redis.pqueue ∧
      (execute deferral s).redis.objs = s.redis.objs ∧
      (execute deferral s).redis.counter = s.redis.counter ∧
      (execute deferral s).removed = s.removed := by
  obtain ⟨queued, stored, _⟩ := next_entry consistent next
  unfold execute
  split
  · exact ⟨.refl _, rfl, rfl, rfl⟩
  · refine ⟨zadd_perm consistent.distinct queued, ?_, rfl, rfl⟩
    simp only [Redis.save, ← stored, Function.update_eq_self]

theorem mem_zrem {entry : Int × Nat} {id : Nat} :
    entry ∈ (redis.zrem id).pqueue ↔ entry ∈ redis.pqueue ∧ entry.2 ≠ id := by
  simp [Redis.zrem]

end Queue

/-! ## What every step keeps -/
section Consistent
variable {s next : State}

theorem not_leaving_of_idle (idle : s.phase = .idle) (id : Nat) : ¬ Leaving s id := by
  rintro ⟨currentTime, executed⟩
  rw [idle] at executed
  cases executed

theorem not_leaving_of_looping (looping : s.phase = .looping currentTime) (id : Nat) :
    ¬ Leaving s id := by
  rintro ⟨_, executed⟩
  rw [looping] at executed
  cases executed

theorem Consistent.of_same (consistent : Consistent s) (queue : next.redis.pqueue.Perm s.redis.pqueue)
    (objs : next.redis.objs = s.redis.objs) (counter : next.redis.counter = s.redis.counter)
    (removed : next.removed = s.removed)
    (leaving : ∀ id, Leaving next id → id ∈ next.log ∧ id ∈ s.redis.pqueue.map Prod.snd) :
    Consistent next where
  distinct := (queue.map Prod.snd).nodup_iff.mpr consistent.distinct
  objs entry member := by
    rw [objs]
    exact consistent.objs entry (queue.mem_iff.mp member)
  known entry member := by
    rw [counter]
    exact consistent.known entry (queue.mem_iff.mp member)
  removed id member := by
    rw [removed] at member
    rw [counter, (queue.map Prod.snd).mem_iff]
    exact consistent.removed id member
  leaving id left := by
    rw [(queue.map Prod.snd).mem_iff]
    exact leaving id left

theorem Consistent.zrem {id : Nat} (consistent : Consistent s) (leaving : s.phase = .executed currentTime id) :
    Consistent { s with
      now := clock
      redis := s.redis.zrem id
      phase := .looping currentTime
      removed := id :: s.removed } where
  distinct := by
    have sub : (s.redis.zrem id).pqueue.Sublist s.redis.pqueue := List.filter_sublist
    exact consistent.distinct.sublist (sub.map Prod.snd)
  objs entry member := consistent.objs entry (mem_zrem.mp member).1
  known entry member := consistent.known entry (mem_zrem.mp member).1
  removed other member := by
    rcases List.mem_cons.mp member with rfl | member
    · obtain ⟨entry, queued, same⟩ := List.mem_map.mp (consistent.leaving other ⟨_, leaving⟩).2
      constructor
      · rw [← same]
        exact consistent.known entry queued
      · intro still
        obtain ⟨left, queued, same⟩ := List.mem_map.mp still
        exact (mem_zrem.mp queued).2 same
    · obtain ⟨known, gone⟩ := consistent.removed other member
      refine ⟨known, ?_⟩
      intro still
      obtain ⟨left, queued, same⟩ := List.mem_map.mp still
      exact gone (List.mem_map.mpr ⟨left, (mem_zrem.mp queued).1, same⟩)
  leaving other left := absurd left (not_leaving_of_looping rfl other)

theorem Consistent.tick (consistent : Consistent s) (clock : Int) : Consistent (tick clock s) := by
  unfold DeferredMigration.tick
  split
  · exact consistent.of_same (.refl _) rfl rfl rfl
      fun id left => absurd left (not_leaving_of_looping rfl id)
  · split
    · exact consistent.of_same (.refl _) rfl rfl rfl
        fun id left => absurd left (not_leaving_of_idle rfl id)
    · exact consistent.of_same (.refl _) rfl rfl rfl
        fun id left => absurd left (not_leaving_of_idle rfl id)
    · rename_i deferral found
      split
      · exact consistent.of_same (.refl _) rfl rfl rfl
          fun id left => absurd left (not_leaving_of_idle rfl id)
      · obtain ⟨queue, objs, counter, removed⟩ := execute_redis consistent found
        have queued := (next_entry consistent found).1
        refine consistent.of_same ?_ ?_ ?_ ?_ ?_
        · exact queue
        · exact objs
        · exact counter
        · exact removed
        · rintro id ⟨_, ⟨⟩⟩
          exact ⟨List.mem_cons_self, List.mem_map.mpr ⟨_, queued, rfl⟩⟩
  · rename_i currentTime id leaving
    exact consistent.zrem leaving

/-- An object that is saved for the first time gets an id that the queue has never seen. -/
theorem Consistent.create (consistent : Consistent s) (deadline : Int) (accountId : Nat)
    (desiredHost : String) :
    Consistent { s with redis := s.redis.create deadline accountId desiredHost } := by
  have fresh : s.redis.pqueue.filter (fun entry => entry.2 ≠ s.redis.counter + 1) = s.redis.pqueue := by
    apply List.filter_eq_self.mpr
    intro entry member
    have known := consistent.known entry member
    simp only [ne_eq, decide_not, Bool.not_eq_true', decide_eq_false_iff_not]
    omega
  have queue : (s.redis.create deadline accountId desiredHost).pqueue =
      s.redis.pqueue ++ [(deadline, s.redis.counter + 1)] := by
    simp only [Redis.create, Redis.save, Redis.zadd, fresh]
  have absent : s.redis.counter + 1 ∉ s.redis.pqueue.map Prod.snd := by
    intro still
    obtain ⟨entry, member, same⟩ := List.mem_map.mp still
    have known := consistent.known entry member
    omega
  constructor
  · simp only [queue, List.map_append, List.map_cons, List.map_nil, List.nodup_append]
    refine ⟨consistent.distinct, List.nodup_singleton _, ?_⟩
    rintro id member _ (_ | ⟨_, ⟨⟩⟩) rfl
    exact absent member
  · intro entry member deferral stored
    simp only [queue, List.mem_append, List.mem_singleton] at member
    rcases member with member | rfl
    · have known := consistent.known entry member
      have old : entry.2 ≠ s.redis.counter + 1 := by omega
      simp only [Redis.create, Redis.save, Function.update_of_ne old] at stored
      exact consistent.objs entry member deferral stored
    · simp only [Redis.create, Redis.save, Function.update_self] at stored
      cases stored
      exact ⟨rfl, rfl⟩
  · intro entry member
    simp only [queue, List.mem_append, List.mem_singleton] at member
    show entry.2 ≤ s.redis.counter + 1
    rcases member with member | rfl
    · have known := consistent.known entry member
      omega
    · exact Nat.le_refl _
  · intro id member
    obtain ⟨known, gone⟩ := consistent.removed id member
    constructor
    · show id ≤ s.redis.counter + 1
      omega
    · simp only [queue, List.map_append, List.map_cons, List.map_nil, List.mem_append, List.mem_singleton]
      rintro (still | rfl)
      · exact gone still
      · omega
  · intro id left
    obtain ⟨logged, queued⟩ := consistent.leaving id left
    refine ⟨logged, ?_⟩
    simp only [queue, List.map_append, List.mem_append]
    exact .inl queued

theorem Consistent.step (consistent : Consistent s) (stepped : step s event = some next) :
    Consistent next := by
  cases event with
  | executor clock =>
    simp only [DeferredMigration.step] at stepped
    split at stepped
    · cases stepped
      exact consistent.tick clock
    · cases stepped
  | crash =>
    cases stepped
    exact consistent.of_same (.refl _) rfl rfl rfl
      fun id left => absurd left (not_leaving_of_idle rfl id)
  | create deadline accountId desiredHost =>
    cases stepped
    exact consistent.create deadline accountId desiredHost
  | expire id =>
    cases stepped
    constructor
    · exact consistent.distinct
    · intro entry member deferral stored
      by_cases same : entry.2 = id
      · simp [same] at stored
      · simp only [Function.update_of_ne same] at stored
        exact consistent.objs entry member deferral stored
    · exact consistent.known
    · exact consistent.removed
    · exact consistent.leaving
  | deleteAccount accountId =>
    cases stepped
    exact ⟨consistent.distinct, consistent.objs, consistent.known, consistent.removed,
      consistent.leaving⟩

theorem Timely.step (timely : Timely s) (stepped : step s event = some next) : Timely next := by
  cases event with
  | executor clock =>
    simp only [DeferredMigration.step] at stepped
    split at stepped
    · rename_i later
      cases stepped
      unfold tick
      split
      · rintro currentTime (⟨⟨⟩⟩ | ⟨_, ⟨⟩⟩)
        exact Int.le_refl clock
      · rename_i begun looping
        have past := timely begun (.inl looping)
        split
        · rintro _ (⟨⟨⟩⟩ | ⟨_, ⟨⟩⟩)
        · rintro _ (⟨⟨⟩⟩ | ⟨_, ⟨⟩⟩)
        · split
          · rintro _ (⟨⟨⟩⟩ | ⟨_, ⟨⟩⟩)
          · rintro currentTime (⟨⟨⟩⟩ | ⟨_, ⟨⟩⟩)
            exact Int.le_trans past later
      · rename_i begun id executed
        have past := timely begun (.inr ⟨id, executed⟩)
        rintro currentTime (⟨⟨⟩⟩ | ⟨_, ⟨⟩⟩)
        exact Int.le_trans past later
    · cases stepped
  | crash =>
    cases stepped
    rintro _ (⟨⟨⟩⟩ | ⟨_, ⟨⟩⟩)
  | create | expire | deleteAccount =>
    cases stepped
    exact timely

theorem orderly_step (consistent : Consistent s) (timely : Timely s)
    (stepped : step s event = some next) : Orderly s event next := by
  have unchanged : ∀ id, s.log ≠ id :: s.log := fun id same => by
    simpa using congrArg List.length same
  intro id logged
  cases event with
  | executor clock =>
    simp only [step] at stepped
    split at stepped
    · rename_i later
      cases stepped
      unfold tick at logged ⊢
      split at logged
      · exact absurd logged (unchanged id)
      · rename_i begun looping
        have past := timely begun (.inl looping)
        split at logged
        · exact absurd logged (unchanged id)
        · exact absurd logged (unchanged id)
        · rename_i deferral found
          split at logged
          · exact absurd logged (unchanged id)
          · rename_i due
            obtain ⟨queued, _, first⟩ := next_entry consistent found
            obtain ⟨rfl, _⟩ := List.cons.inj logged
            simp only [if_neg due]
            refine ⟨deferral.deadline, queued, by omega, ?_, ?_⟩
            · intro entry member
              have before := Prod.Lex.toLex_le_toLex.mp (first entry member)
              rcases before with less | ⟨same, _⟩
              · exact Int.le_of_lt less
              · exact Int.le_of_eq same
            · intro gone
              exact (consistent.removed _ gone).2 (List.mem_map.mpr ⟨_, queued, rfl⟩)
      · exact absurd logged (unchanged id)
    · cases stepped
  | crash | create | expire | deleteAccount =>
    cases stepped
    exact absurd logged (unchanged id)

end Consistent

/-! ## An entry that is not blocked is executed -/
section Progress
variable {s : State} {entry before : Int × Nat}

/-- What `Unblocked` says of one entry. -/
def Free (s : State) (entry : Int × Nat) : Prop :=
  ∀ before ∈ s.redis.pqueue, key before < key entry →
    (s.redis.objs before.2).isSome ∨ Leaving s before.2

def front (s : State) (entry : Int × Nat) : Nat :=
  (s.redis.pqueue.filter fun before => key before < key entry).length

/-- How many steps the executor takes at most until it has executed the entry. An iteration that began
before the deadline may end without it, and what is being removed may be behind it. -/
def distance (s : State) (entry : Int × Nat) : Nat :=
  5 * front s entry + match s.phase with
    | .looping currentTime => if entry.1 < currentTime then 1 else 3
    | .idle => 2
    | .executed _ id =>
      if ∃ before ∈ s.redis.pqueue, before.2 = id ∧ key before < key entry then 0 else 4

theorem Free.stored (free : Free s entry) (calm : ∀ id, ¬ Leaving s id) :
    ∀ before ∈ s.redis.pqueue, key before < key entry → (s.redis.objs before.2).isSome :=
  fun before member earlier => (free before member earlier).resolve_right (calm before.2)

/-- The first of the queue has an object when all that comes before the entry has. -/
theorem next_of_stored (pending : Pending s entry)
    (stored : ∀ before ∈ s.redis.pqueue, key before < key entry → (s.redis.objs before.2).isSome) :
    ∃ deferral, s.redis.tryGetNextDeferral = .ok (some deferral) := by
  unfold Redis.tryGetNextDeferral
  split
  · rename_i empty
    have none_left := pending.queued
    rw [List.argmin_eq_none.mp empty] at none_left
    cases none_left
  · rename_i first minimal
    have queued := List.argmin_mem minimal
    have least : key first ≤ key entry := List.le_of_mem_argmin pending.queued minimal
    have has : (s.redis.objs first.2).isSome := by
      rcases least.lt_or_eq with less | same
      · exact stored first queued less
      · rw [key_inj.mp same]
        exact pending.stored
    obtain ⟨deferral, found⟩ := Option.isSome_iff_exists.mp has
    exact ⟨deferral, by rw [Redis.tryLoad, found]⟩

theorem front_zrem (id : Nat) :
    ((s.redis.zrem id).pqueue.filter fun before => key before < key entry).length ≤ front s entry := by
  have sub : (s.redis.zrem id).pqueue.Sublist s.redis.pqueue := List.filter_sublist
  exact (sub.filter _).length_le

theorem front_zrem_lt (queued : before ∈ s.redis.pqueue) (earlier : key before < key entry) :
    ((s.redis.zrem before.2).pqueue.filter fun other => key other < key entry).length <
      front s entry := by
  have swap : (s.redis.zrem before.2).pqueue.filter (fun other => key other < key entry) =
      (s.redis.pqueue.filter fun other => key other < key entry).filter
        fun other => other.2 ≠ before.2 := by
    simp only [Redis.zrem, List.filter_filter, Bool.and_comm]
  rw [swap, front]
  apply List.length_filter_lt_length_iff_exists.mpr
  exact ⟨before, List.mem_filter.mpr ⟨queued, by simpa using earlier⟩, by simp⟩

theorem Pending.of_same {next : State} (pending : Pending s entry)
    (queue : next.redis.pqueue.Perm s.redis.pqueue) (objs : next.redis.objs = s.redis.objs)
    (waiting : entry.2 ∉ next.log) : Pending next entry where
  queued := queue.mem_iff.mpr pending.queued
  stored := by
    rw [objs]
    exact pending.stored
  waiting := waiting

/-- A step of the executor executes the entry, or brings it nearer to its execution. -/
theorem tick_progress (consistent : Consistent s) (pending : Pending s entry) (free : Free s entry)
    (ended : entry.1 < clock) :
    entry.2 ∈ (tick clock s).log ∨ Pending (tick clock s) entry ∧ Free (tick clock s) entry ∧
      distance (tick clock s) entry < distance s entry := by
  cases phase : s.phase with
  | idle =>
    have ticked : tick clock s = { s with now := clock, phase := .looping clock } := by
      simp only [tick, phase]
    have stored := free.stored (not_leaving_of_idle phase)
    rw [ticked]
    refine .inr ⟨pending.of_same (.refl _) rfl pending.waiting, ?_, ?_⟩
    · exact fun before member earlier => .inl (stored before member earlier)
    · simp [distance, front, phase, ended]
  | looping currentTime =>
    have stored := free.stored (not_leaving_of_looping phase)
    obtain ⟨deferral, found⟩ := next_of_stored pending stored
    obtain ⟨queued, has, first⟩ := next_entry consistent found
    have least := first entry pending.queued
    by_cases early : currentTime ≤ deferral.deadline
    · have ticked : tick clock s = { rest s with now := clock } := by
        simp only [tick, phase, found, if_pos early]
      have begun : ¬ entry.1 < currentTime := by
        rcases Prod.Lex.toLex_le_toLex.mp least with less | ⟨same, _⟩
        · have less : deferral.deadline < entry.1 := less
          omega
        · have same : deferral.deadline = entry.1 := same
          omega
      rw [ticked]
      refine .inr ⟨pending.of_same (.refl _) rfl pending.waiting, ?_, ?_⟩
      · exact fun before member earlier => .inl (stored before member earlier)
      · simp [distance, front, rest, phase, begun]
    · have ticked : tick clock s = { execute deferral s with
          now := clock
          phase := .executed currentTime deferral.id
          log := deferral.id :: s.log } := by
        simp only [tick, phase, found, if_neg early]
      rw [ticked]
      by_cases same : entry.2 = deferral.id
      · exact .inl (same ▸ List.mem_cons_self)
      · obtain ⟨queue, objs, _, _⟩ := execute_redis consistent found
        have waiting : entry.2 ∉ deferral.id :: s.log := by
          simp only [List.mem_cons, same, pending.waiting, or_self, not_false_eq_true]
        refine .inr ⟨pending.of_same queue objs waiting, ?_, ?_⟩
        · intro before member earlier
          refine .inl ?_
          simp only [objs]
          exact stored before (queue.mem_iff.mp member) earlier
        · have different : (deferral.deadline, deferral.id) ≠ entry :=
            fun equal => same (congrArg Prod.snd equal).symm
          have earlier : key (deferral.deadline, deferral.id) < key entry :=
            lt_of_le_of_ne least fun equal => different (key_inj.mp equal)
          have ahead : ∃ before ∈ (execute deferral s).redis.pqueue,
              before.2 = deferral.id ∧ key before < key entry :=
            ⟨_, queue.mem_iff.mpr queued, rfl, earlier⟩
          have fronts : ((execute deferral s).redis.pqueue.filter
              fun before => key before < key entry).length = front s entry := (queue.filter _).length_eq
          simp only [distance, front, phase, if_pos ahead] at fronts ⊢
          rw [fronts]
          split <;> omega
  | executed currentTime id =>
    have ticked : tick clock s = { s with
        now := clock
        redis := s.redis.zrem id
        phase := .looping currentTime
        removed := id :: s.removed } := by
      simp only [tick, phase]
    have other : entry.2 ≠ id := by
      rintro rfl
      exact pending.waiting (consistent.leaving _ ⟨_, phase⟩).1
    rw [ticked]
    refine .inr ⟨⟨mem_zrem.mpr ⟨pending.queued, other⟩, pending.stored, pending.waiting⟩, ?_, ?_⟩
    · intro before member earlier
      obtain ⟨member, left⟩ := mem_zrem.mp member
      rcases free before member earlier with stored | ⟨_, leaving⟩
      · exact .inl stored
      · rw [phase] at leaving
        cases leaving
        exact absurd rfl left
    · simp only [distance, front, phase]
      have fewer : ((s.redis.zrem id).pqueue.filter fun before => key before < key entry).length ≤
          front s entry := front_zrem id
      by_cases ahead : ∃ before ∈ s.redis.pqueue, before.2 = id ∧ key before < key entry
      · rw [if_pos ahead]
        obtain ⟨before, queued, same, earlier⟩ := ahead
        have shrinks := front_zrem_lt queued earlier
        rw [same, front] at shrinks
        split <;> omega
      · rw [if_neg ahead]
        unfold front at fewer
        split <;> omega

theorem consistent_ticks (consistent : Consistent s) (clocks : Nat → Int) (n : Nat) :
    Consistent (ticks s clocks n) := by
  induction n with
  | zero => exact consistent
  | succ n ih => exact ih.tick (clocks n)

theorem ticks_progress (consistent : Consistent s) (pending : Pending s entry) (free : Free s entry)
    (clocks : Nat → Int) (ended : ∀ n, entry.1 < clocks n) (n : Nat) :
    (∃ m, entry.2 ∈ (ticks s clocks m).log) ∨ Pending (ticks s clocks n) entry ∧
      Free (ticks s clocks n) entry ∧ distance (ticks s clocks n) entry + n ≤ distance s entry := by
  induction n with
  | zero => exact .inr ⟨pending, free, Nat.le_refl _⟩
  | succ n ih =>
    rcases ih with done | ⟨still, unblocked, nearer⟩
    · exact .inl done
    · have consistent := consistent_ticks consistent clocks n
      rcases tick_progress consistent still unblocked (ended n) with done | ⟨still, unblocked, next⟩
      · exact .inl ⟨n + 1, done⟩
      · refine .inr ⟨still, unblocked, ?_⟩
        show distance (tick (clocks n) (ticks s clocks n)) entry + (n + 1) ≤ distance s entry
        omega

theorem served_of_free (consistent : Consistent s) (pending : Pending s entry) (free : Free s entry)
    (clocks : Nat → Int) (ended : ∀ n, entry.1 < clocks n) :
    ∃ n, entry.2 ∈ (ticks s clocks n).log := by
  rcases ticks_progress consistent pending free clocks ended (distance s entry + 1) with done | ⟨_, _, far⟩
  · exact done
  · omega

end Progress

/-! ## An entry that is blocked is never executed -/
section Blocked
variable {s : State} {entry before : Int × Nat}

structure Blocks (s : State) (before entry : Int × Nat) : Prop where
  ahead : before ∈ s.redis.pqueue
  behind : entry ∈ s.redis.pqueue
  earlier : key before < key entry
  lost : s.redis.objs before.2 = none
  stays : ¬ Leaving s before.2
  waiting : entry.2 ∉ s.log

/-- The executor raises at an entry without an object, and never comes to those behind it. -/
theorem Blocks.tick (blocks : Blocks s before entry) (consistent : Consistent s) (clock : Int) :
    Blocks (tick clock s) before entry := by
  obtain ⟨ahead, behind, earlier, lost, stays, waiting⟩ := blocks
  unfold DeferredMigration.tick
  split
  · exact ⟨ahead, behind, earlier, lost, not_leaving_of_looping rfl _, waiting⟩
  · split
    · exact ⟨ahead, behind, earlier, lost, not_leaving_of_idle rfl _, waiting⟩
    · exact ⟨ahead, behind, earlier, lost, not_leaving_of_idle rfl _, waiting⟩
    · rename_i deferral found
      split
      · exact ⟨ahead, behind, earlier, lost, not_leaving_of_idle rfl _, waiting⟩
      · obtain ⟨queued, has, first⟩ := next_entry consistent found
        obtain ⟨queue, objs, _, _⟩ := execute_redis consistent found
        have not_before : before.2 ≠ deferral.id := by
          intro same
          rw [same, has] at lost
          cases lost
        have not_entry : entry.2 ≠ deferral.id := by
          intro same
          have equal := entry_eq consistent.distinct behind queued same
          have least := first before ahead
          rw [← equal] at least
          exact absurd earlier (not_lt.mpr least)
        constructor
        · exact queue.mem_iff.mpr ahead
        · exact queue.mem_iff.mpr behind
        · exact earlier
        · simpa only [objs] using lost
        · rintro ⟨_, left⟩
          injection left with _ same
          exact not_before same.symm
        · simp only [List.mem_cons, not_entry, waiting, or_self, not_false_eq_true]
  · rename_i currentTime id leaving
    have not_before : before.2 ≠ id := by
      rintro rfl
      exact stays ⟨_, leaving⟩
    have not_entry : entry.2 ≠ id := by
      rintro rfl
      exact waiting (consistent.leaving _ ⟨_, leaving⟩).1
    exact ⟨mem_zrem.mpr ⟨ahead, not_before⟩, mem_zrem.mpr ⟨behind, not_entry⟩, earlier, lost,
      not_leaving_of_looping rfl _, waiting⟩

theorem Blocks.never (blocks : Blocks s before entry) (consistent : Consistent s)
    (clocks : Nat → Int) (n : Nat) : entry.2 ∉ (ticks s clocks n).log := by
  have still : Blocks (ticks s clocks n) before entry := by
    induction n with
    | zero => exact blocks
    | succ n ih => exact ih.tick (consistent_ticks consistent clocks n) (clocks n)
  exact still.waiting

end Blocked

theorem serves_iff_unblocked (consistent : Consistent s) : Serves s ↔ Unblocked s := by
  constructor
  · intro serves entry pending before member earlier
    by_contra stuck
    rw [not_or, Option.not_isSome_iff_eq_none] at stuck
    have blocks : Blocks s before entry :=
      ⟨member, pending.queued, earlier, stuck.1, stuck.2, pending.waiting⟩
    obtain ⟨n, executed⟩ := serves entry pending (fun _ => entry.1 + 1) fun _ => by omega
    exact blocks.never consistent _ n executed
  · intro unblocked entry pending clocks ended
    exact served_of_free consistent pending (unblocked entry pending) clocks ended

/-- Deferrals are executed in order, after their deadlines and never again; and each pending one is
executed in the end just when no entry before it has lost its object. -/
theorem deferrals_served_iff (s : State) (events : List Event) (consistent : Consistent s)
    (timely : Timely s) :
    Runs.Each step (fun s event next => Orderly s event next ∧ Serves next) s events ↔
      Runs.Each step (fun _ _ next => Unblocked next) s events := by
  apply Runs.each_iff (fun s => Consistent s ∧ Timely s) ⟨consistent, timely⟩
  · intro s event next held stepped
    exact ⟨held.1.step stepped, held.2.step stepped⟩
  · intro s event next held stepped
    rw [← serves_iff_unblocked (held.1.step stepped)]
    exact and_iff_right (orderly_step held.1 held.2 stepped)

/-- Two deferrals, of which one has been due for a while. -/
def waiting : State where
  now := 10
  redis := ⟨2, [(5, 1), (20, 2)], fun id => match id with
    | 1 => some ⟨5, 7, "new", 1⟩
    | 2 => some ⟨20, 8, "new", 2⟩
    | _ => none, [1, 2]⟩
  hosts := fun _ => some (some "old")
  phase := .idle
  log := []
  removed := []

theorem waiting_consistent : Consistent waiting where
  distinct := by decide
  objs := by decide
  known := by decide
  removed := by decide
  leaving id left := absurd left (not_leaving_of_idle rfl id)

theorem waiting_timely : Timely waiting := by
  rintro _ (⟨⟨⟩⟩ | ⟨_, ⟨⟩⟩)

theorem unblocked_of_stored {s : State}
    (stored : ∀ before ∈ s.redis.pqueue, (s.redis.objs before.2).isSome) : Unblocked s :=
  fun _ _ before member _ => .inl (stored before member)

theorem first_deferral_served : Runs.Each step (fun s event next => Orderly s event next ∧ Serves next)
    waiting [.executor 11, .executor 12, .executor 13] := by
  apply (deferrals_served_iff waiting _ waiting_consistent waiting_timely).mpr
  rintro _ ⟨⟩
  refine ⟨unblocked_of_stored (by decide), ?_⟩
  rintro _ ⟨⟩
  refine ⟨unblocked_of_stored (by decide), ?_⟩
  rintro _ ⟨⟩
  exact ⟨unblocked_of_stored (by decide), trivial⟩

/-- The object of the first deferral has expired. -/
def expired : State :=
  { waiting with redis := { waiting.redis with objs := Function.update waiting.redis.objs 1 none } }

theorem expired_consistent : Consistent expired := by
  have stepped : step waiting (.expire 1) = some expired := rfl
  exact waiting_consistent.step stepped

theorem deferral_starves : ¬ ∀ (s : State) (events : List Event), Consistent s → Timely s →
    Runs.Each step (fun s event next => Orderly s event next ∧ Serves next) s events := by
  intro served
  obtain ⟨⟨_, serves⟩, _⟩ := served expired [.executor 11] expired_consistent waiting_timely _ rfl
  have blocks : Blocks (tick 11 expired) (5, 1) (20, 2) := by
    refine ⟨by decide, by decide, by decide, rfl, not_leaving_of_looping rfl _, by decide⟩
  have consistent := expired_consistent.tick 11
  have pending : Pending (tick 11 expired) (20, 2) := ⟨by decide, rfl, by decide⟩
  obtain ⟨n, executed⟩ := serves (20, 2) pending (fun _ => 21) fun _ => by decide
  exact blocks.never consistent _ n executed

end DeferredMigration
end SyncEngine
