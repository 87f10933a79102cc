import SyncEngine.Util.Runs

/-! The Redis queue of account ids with the hash of their owners, and the scripts that claim an
account and give it up. -/
namespace SyncEngine
namespace AccountQueue

/-- What a Redis command returns to a Lua script. A nil reply is Lua's `false`. -/
inductive Reply
  | nil
  | integer (n : Int)
  | bulk (key : Nat)

/-- Lua takes every value but `nil` and `false` for true, the number 0 included. -/
def Reply.truthy : Reply → Bool
  | .nil => false
  | .integer _ => true
  | .bulk _ => true

/-- `queue` is the list from its head on, and `hash` the owner of each assigned key. -/
structure Redis where
  queue : List Nat
  hash : Nat → Option String

namespace Redis

def lpush (redis : Redis) (key : Nat) : Redis := { redis with queue := key :: redis.queue }

def rpop (redis : Redis) : Reply × Redis :=
  match redis.queue.getLast? with
  | none => (.nil, redis)
  | some key => (.bulk key, { redis with queue := redis.queue.dropLast })

/-- 1 when the field was not in the hash and has been set, else 0. -/
def hsetnx (redis : Redis) (key : Nat) (value : String) : Reply × Redis :=
  match redis.hash key with
  | none => (.integer 1, { redis with hash := Function.update redis.hash key (some value) })
  | some _ => (.integer 0, redis)

def hdel (redis : Redis) (key : Nat) : Redis :=
  { redis with hash := Function.update redis.hash key none }

/-- `ASSIGN` -/
def assign (redis : Redis) (value : String) : Option Nat × Redis :=
  match redis.rpop with
  | (.bulk key, popped) =>
    let (s, set) := popped.hsetnx key value
    if s.truthy then (some key, set) else (none, set)
  | (_, popped) => (none, popped)

/-- `UNASSIGN` -/
def unassign (redis : Redis) (key : Nat) (value : String) : Redis :=
  if redis.hash key = some value then redis.hdel key else redis

end Redis

/-- The calls of `QueueClient` that write, from whatever process they come. -/
inductive Call
  | enqueue (key : Nat)
  | claimNext (value : String)
  | unassign (key : Nat) (value : String)
  deriving DecidableEq

/-- What `claim_next` returns; the other calls return no key. -/
def Call.returned (redis : Redis) : Call → Option Nat
  | .claimNext value => (redis.assign value).1
  | _ => none

def Call.apply (redis : Redis) : Call → Redis
  | .enqueue key => redis.lpush key
  | .claimNext value => (redis.assign value).2
  | .unassign key value => redis.unassign key value

def step (redis : Redis) (call : Call) : Option Redis := some (call.apply redis)

/-- A key is claimed for the claimant, from nobody. -/
def Exclusive (redis : Redis) (call : Call) (next : Redis) : Prop :=
  ∀ value, call = .claimNext value → ∀ key ∈ call.returned redis,
    redis.hash key = none ∧ next.hash key = some value

/-- The key at the end of the queue is nobody's when a claim comes. -/
def Untaken (redis : Redis) (call : Call) (_ : Redis) : Prop :=
  ∀ value, call = .claimNext value → ∀ key ∈ redis.queue.getLast?, redis.hash key = none

/-- Between two claims of a key its first claimant, or one with the same identifier, has given it
up. -/
def GivenUp (redis : Redis) (calls : List Call) : Prop :=
  ∀ before value between claimant after key, ∀ first ∈ Runs.run step redis before,
    ∀ second ∈ Runs.run step (Call.apply first (.claimNext value)) between,
      calls = before ++ .claimNext value :: (between ++ .claimNext claimant :: after) →
      Call.returned first (.claimNext value) = some key →
      Call.returned second (.claimNext claimant) = some key → .unassign key value ∈ between

section Steps
variable {redis : Redis}

theorem hsetnx_eq (redis : Redis) (key : Nat) (value : String) :
    redis.hsetnx key value = (.integer (if redis.hash key = none then 1 else 0),
      { redis with hash := Function.update redis.hash key (some ((redis.hash key).getD value)) }) := by
  unfold Redis.hsetnx
  split
  · rename_i free
    simp [free]
  · rename_i owner taken
    have same : Function.update redis.hash key (some owner) = redis.hash := by
      rw [← taken, Function.update_eq_self]
    simp [taken, same]

theorem assign_nothing (empty : redis.queue.getLast? = none) (value : String) :
    redis.assign value = (none, redis) := by
  simp only [Redis.assign, Redis.rpop, empty]

/-- The script returns every key that it pops, for 0 is true as well. It sets no owner but the
first. -/
theorem assign_popped (popped : redis.queue.getLast? = some key) (value : String) :
    redis.assign value = (some key, {
      queue := redis.queue.dropLast
      hash := Function.update redis.hash key (some ((redis.hash key).getD value)) }) := by
  simp only [Redis.assign, Redis.rpop, popped, hsetnx_eq, Reply.truthy, if_true]

theorem assign_returns (redis : Redis) (value : String) :
    (redis.assign value).1 = redis.queue.getLast? := by
  cases popped : redis.queue.getLast? with
  | none => rw [assign_nothing popped]
  | some key => rw [assign_popped popped]

/-- A claim leaves the keys that somebody has. -/
theorem assign_keeps (taken : redis.hash key = some owner) (value : String) :
    (redis.assign value).2.hash key = some owner := by
  cases last : redis.queue.getLast? with
  | none => rwa [assign_nothing last]
  | some popped =>
    rw [assign_popped last]
    by_cases same : key = popped
    · subst same
      simp [taken]
    · simp [same, taken]

theorem unassign_keeps (taken : redis.hash key = some owner) (others : (i, value) ≠ (key, owner)) :
    (redis.unassign i value).hash key = some owner := by
  unfold Redis.unassign
  split
  · rename_i found
    have other : key ≠ i := by
      intro same
      subst same
      rw [taken, Option.some.injEq] at found
      exact others (by rw [found])
    simp [Redis.hdel, other, taken]
  · exact taken

/-- Only its owner, or a caller that names the same owner, takes a key out of the hash. -/
theorem apply_keeps (taken : redis.hash key = some owner) (call : Call)
    (kept : call ≠ .unassign key owner) : (call.apply redis).hash key = some owner := by
  cases call with
  | enqueue => exact taken
  | claimNext value => exact assign_keeps taken value
  | unassign i value =>
    apply unassign_keeps taken
    intro same
    cases same
    exact kept rfl

theorem run_keeps (taken : redis.hash key = some owner) (ran : Runs.run step redis calls = some later)
    (kept : .unassign key owner ∉ calls) : later.hash key = some owner := by
  induction calls generalizing redis with
  | nil =>
    cases ran
    exact taken
  | cons call rest ih =>
    simp only [List.mem_cons, not_or] at kept
    exact ih (apply_keeps taken call (Ne.symm kept.1)) ran kept.2

/-- A claim is exclusive just when the key that it pops is nobody's. -/
theorem exclusive_iff_untaken (redis : Redis) (call : Call) :
    Exclusive redis call (call.apply redis) ↔ Untaken redis call (call.apply redis) := by
  constructor
  · rintro exclusive value rfl key popped
    apply (exclusive value rfl key _).1
    rw [Call.returned, assign_returns]
    exact popped
  · rintro untaken value rfl key returned
    rw [Call.returned, assign_returns] at returned
    have free := untaken value rfl key returned
    constructor
    · exact free
    · simp [Call.apply, assign_popped returned, free]

end Steps

theorem givenUp_of_exclusive (exclusive : Runs.Each step Exclusive redis calls) :
    GivenUp redis calls := by
  intro before value between claimant after key first ran second ran_second split won won_again
  subst split
  by_contra kept
  have claimed := (exclusive.here ran rfl value rfl key won).2
  have still := run_keeps claimed ran_second kept
  have rest : Runs.Each step Exclusive second (.claimNext claimant :: after) :=
    ((exclusive.right ran) _ rfl).2.right ran_second
  have free := ((rest _ rfl).1 claimant rfl key won_again).1
  rw [still] at free
  cases free

/-- Claims are exclusive, and no key is given to a second claimant before it has been given up, just
when every claim finds a key at the end of the queue that is nobody's. -/
theorem claims_exclusive_iff (redis : Redis) (calls : List Call) :
    Runs.Each step Exclusive redis calls ∧ GivenUp redis calls ↔
      Runs.Each step Untaken redis calls := by
  have same : Runs.Each step Exclusive redis calls ↔ Runs.Each step Untaken redis calls := by
    apply Runs.each_iff (fun _ => True) trivial
    · exact fun _ _ _ _ _ => trivial
    · rintro redis call _ _ ⟨⟩
      exact exclusive_iff_untaken redis call
  constructor
  · exact fun both => same.mp both.1
  · intro untaken
    have exclusive := same.mpr untaken
    exact ⟨exclusive, givenUp_of_exclusive exclusive⟩

/-! ## When keys are enqueued once -/

/-- No key is in the queue twice, or in the queue and in the hash. -/
structure Once (redis : Redis) : Prop where
  queued : redis.queue.Nodup
  free : ∀ key ∈ redis.queue, redis.hash key = none

/-- Only keys that are not tracked yet are enqueued. -/
def Untracked (redis : Redis) (call : Call) (_ : Redis) : Prop :=
  ∀ key, call = .enqueue key → key ∉ redis.queue ∧ redis.hash key = none

theorem Once.untaken (once : Once redis) (call : Call) (next : Redis) : Untaken redis call next :=
  fun _ _ key popped => once.free key (List.mem_of_getLast? popped)

theorem Once.apply (once : Once redis) (call : Call) (untracked : Untracked redis call next) :
    Once (call.apply redis) := by
  cases call with
  | enqueue key =>
    obtain ⟨absent, free⟩ := untracked key rfl
    constructor
    · exact List.nodup_cons.mpr ⟨absent, once.queued⟩
    · intro other member
      rcases List.mem_cons.mp member with rfl | member
      · exact free
      · exact once.free other member
  | claimNext value =>
    cases last : redis.queue.getLast? with
    | none => rwa [Call.apply, assign_nothing last]
    | some key =>
      obtain ⟨front, split⟩ := List.getLast?_eq_some_iff.mp last
      have queued := once.queued
      rw [split, List.nodup_append] at queued
      rw [Call.apply, assign_popped last]
      simp only [split, List.dropLast_concat]
      constructor
      · exact queued.1
      · intro other member
        have different : other ≠ key := queued.2.2 other member key List.mem_cons_self
        have free := once.free other (split ▸ List.mem_append_left _ member)
        simp [different, free]
  | unassign key value =>
    simp only [Call.apply, Redis.unassign]
    split
    · constructor
      · exact once.queued
      · intro other member
        by_cases same : other = key
        · simp [Redis.hdel, same]
        · simpa [Redis.hdel, same] using once.free other member
    · exact once

/-- Then every claim finds a key that is nobody's. -/
theorem untaken_of_untracked (once : Once redis) (untracked : Runs.Each step Untracked redis calls) :
    Runs.Each step Untaken redis calls := by
  induction calls generalizing redis with
  | nil => trivial
  | cons call rest ih =>
    rintro next ⟨⟩
    obtain ⟨here, later⟩ := untracked _ rfl
    exact ⟨once.untaken call _, ih (once.apply call here) later⟩

def empty : Redis := ⟨[], fun _ => none⟩

/-- Account 7 is enqueued twice, as it may be, and both processes are given it. -/
def enqueuedTwice : List Call := [.enqueue 7, .enqueue 7, .claimNext "hostA:3", .claimNext "hostB:7"]

theorem claimed_twice : ¬ ∀ redis calls,
    Runs.Each step Exclusive redis calls ∧ GivenUp redis calls := by
  intro always
  have exclusive : Runs.Each step Exclusive empty (enqueuedTwice.take 3 ++ [.claimNext "hostB:7"]) :=
    (always empty enqueuedTwice).1
  have second : Exclusive _ (.claimNext "hostB:7") _ := exclusive.here rfl rfl
  have free := (second "hostB:7" rfl 7 rfl).1
  exact absurd free (by decide)

end AccountQueue
end SyncEngine
