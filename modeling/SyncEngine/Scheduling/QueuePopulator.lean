import Mathlib.Data.List.Lattice
import Mathlib.Data.List.Nodup
import SyncEngine.Scheduling.AccountQueue

/-! The one populator of a zone's queue, beside processes that claim accounts and give them up, and
accounts that are enabled and disabled at any time. -/
namespace SyncEngine
namespace AccountQueue
namespace Populator

/-- Where `_run_impl` is: a call of `runnable_accounts`, with the shards that are left and the accounts so
far, or one of the loops after it. Nothing of the code reads `since`, the number of calls to Redis when
`all` was one. -/
inductive Phase
  | idle
  | querying (shards accounts : List Nat)
  | enqueueing (accounts newAccounts : List Nat) (since : Nat)
  | queryingAgain (shards accounts : List Nat)
  | unassigning (disabled : Nat → Option String)

/-- `runnable` is what a shard answers to the query for accounts that should run. Nothing of the code reads
`calls`. -/
structure World where
  runnable : Nat → List Nat
  redis : Redis
  phase : Phase
  calls : List Call

inductive Action
  | commit (shard : Nat) (accounts : List Nat)
  | claim (value : String)
  | giveUp (key : Nat) (value : String)
  /-- The populator goes on, up to the next key of a loop. -/
  | next
  | enqueue (key : Nat)
  | unassign (key : Nat)
  /-- An exception is raised, and `retry_with_logging` calls `_run_impl` again. -/
  | fail
  deriving DecidableEq

/-- Whether `all` holds the key. -/
def tracked (redis : Redis) (key : Nat) : Bool := key ∈ redis.queue || (redis.hash key).isSome

def World.call (w : World) (call : Call) : World :=
  { w with redis := call.apply w.redis, calls := w.calls ++ [call] }

variable (shards : List Nat)

/-- Sets of keys are gone through in any order. -/
def step (w : World) : Action → Option World
  | .commit shard accounts => some { w with runnable := Function.update w.runnable shard accounts }
  | .claim value => some (w.call (.claimNext value))
  | .giveUp key value => some (w.call (.unassign key value))
  | .next =>
    match w.phase with
    | .idle => some { w with phase := .querying shards [] }
    | .querying (shard :: left) accounts =>
      some { w with phase := .querying left (w.runnable shard ∪ accounts) }
    | .querying [] accounts =>
      some { w with phase := .enqueueing accounts (accounts.filter (!tracked w.redis ·)) w.calls.length }
    | .enqueueing _ [] _ => some { w with phase := .queryingAgain shards [] }
    | .enqueueing _ (_ :: _) _ => none
    | .queryingAgain (shard :: left) accounts =>
      some { w with phase := .queryingAgain left (w.runnable shard ∪ accounts) }
    | .queryingAgain [] accounts =>
      some { w with phase := .unassigning fun key => if key ∈ accounts then none else w.redis.hash key }
    | .unassigning _ => some { w with phase := .idle }
  | .enqueue key =>
    match w.phase with
    | .enqueueing accounts newAccounts since =>
      if key ∈ newAccounts then
        some { w.call (.enqueue key) with phase := .enqueueing accounts (newAccounts.erase key) since }
      else none
    | _ => none
  | .unassign key =>
    match w.phase with
    | .unassigning disabled => (disabled key).map fun value =>
      { w.call (.unassign key value) with phase := .unassigning (Function.update disabled key none) }
    | _ => none
  | .fail => some { w with phase := .idle }

/-- Nothing has been enqueued yet. -/
def start (runnable : Nat → List Nat) : World where
  runnable := runnable
  redis := empty
  phase := .idle
  calls := []

/-- The account is given up in one of the calls. -/
def Released (calls : List Call) (key : Nat) : Prop := ∃ value, Call.unassign key value ∈ calls

section Invariant
variable {shards} {w next : World} {call : Call} {key : Nat}

/-- The loop over new accounts is left with keys that are tracked nowhere, and the other accounts are
tracked, if they were not given up since. -/
def Going (redis : Redis) (calls : List Call) : Phase → Prop
  | .querying _ accounts => accounts.Nodup
  | .enqueueing accounts newAccounts since => newAccounts.Nodup ∧
      (∀ key ∈ newAccounts, tracked redis key = false) ∧ since ≤ calls.length ∧
        ∀ key ∈ accounts, key ∈ newAccounts ∨ tracked redis key = true ∨ Released (calls.drop since) key
  | _ => True

structure Sound (w : World) : Prop where
  ran : Runs.run AccountQueue.step empty w.calls = some w.redis
  untracked : Runs.Each AccountQueue.step Untracked empty w.calls
  once : Once w.redis
  going : Going w.redis w.calls w.phase

theorem tracked_eq_false {redis : Redis} :
    tracked redis key = false ↔ key ∉ redis.queue ∧ redis.hash key = none := by
  simp [tracked]

theorem tracked_eq_true {redis : Redis} :
    tracked redis key = true ↔ key ∈ redis.queue ∨ redis.hash key ≠ none := by
  simp [tracked, Option.isSome_iff_ne_none]

/-- Nothing but an `enqueue` tracks a key, and nothing but an `unassign` drops it. -/
theorem tracked_apply (call : Call) (redis : Redis) (other : call ≠ .enqueue key)
    (kept : ∀ value, call ≠ .unassign key value) : tracked (call.apply redis) key = tracked redis key := by
  cases call with
  | enqueue i =>
    have apart : key ≠ i := by
      rintro rfl
      exact other rfl
    simp [tracked, Call.apply, Redis.lpush, apart]
  | claimNext value =>
    cases last : redis.queue.getLast? with
    | none => rw [Call.apply, assign_nothing last]
    | some popped =>
      obtain ⟨front, split⟩ := List.getLast?_eq_some_iff.mp last
      rw [Call.apply, assign_popped last]
      by_cases same : key = popped
      · simp [tracked, split, same]
      · simp [tracked, split, same]
  | unassign i value =>
    have apart : key ≠ i := by
      rintro rfl
      exact kept value rfl
    simp only [Call.apply, Redis.unassign]
    split
    · have same : (redis.hdel i).hash key = redis.hash key := Function.update_of_ne apart ..
      rw [tracked, same]
      rfl
    · rfl

/-- What is not tracked is not tracked by a claim or after it is given up. -/
theorem untracked_apply (call : Call) (redis : Redis) (other : call ≠ .enqueue key)
    (free : tracked redis key = false) : tracked (call.apply redis) key = false := by
  by_cases given : ∃ value, call = .unassign key value
  · obtain ⟨value, rfl⟩ := given
    rw [tracked_eq_false] at free
    have apart : redis.hash key ≠ some value := by simp [free.2]
    rwa [Call.apply, Redis.unassign, if_neg apart, tracked_eq_false]
  · rw [tracked_apply call redis other fun value same => given ⟨value, same⟩]
    exact free

theorem Sound.called (sound : Sound w) (call : Call) (untracked : Untracked w.redis call (call.apply w.redis)) :
    Runs.run AccountQueue.step empty (w.calls ++ [call]) = some (call.apply w.redis) ∧
      Runs.Each AccountQueue.step Untracked empty (w.calls ++ [call]) ∧ Once (call.apply w.redis) := by
  refine ⟨?_, ?_, sound.once.apply call untracked⟩
  · rw [Runs.run_append, sound.ran]
    rfl
  · refine sound.untracked.append sound.ran fun next stepped => ?_
    cases stepped
    exact ⟨untracked, trivial⟩

theorem Going.mono {redis later : Redis} {calls more : List Call} {phase : Phase}
    (going : Going redis calls phase) (free : ∀ key, tracked redis key = false → tracked later key = false)
    (stays : ∀ key, tracked redis key = true → tracked later key = true ∨ Released more key) :
    Going later (calls ++ more) phase := by
  cases phase with
  | enqueueing accounts newAccounts since =>
    obtain ⟨distinct, absent, read, settled⟩ := going
    have grown : (calls ++ more).drop since = calls.drop since ++ more := List.drop_append_of_le_length read
    refine ⟨distinct, fun key member => free key (absent key member), ?_, fun key member => ?_⟩
    · rw [List.length_append]
      omega
    · rw [grown]
      rcases settled key member with left | held | ⟨value, released⟩
      · exact .inl left
      · exact .inr ((stays key held).imp id fun ⟨value, released⟩ =>
          ⟨value, List.mem_append_right _ released⟩)
      · exact .inr (.inr ⟨value, List.mem_append_left _ released⟩)
  | idle | querying _ _ | queryingAgain _ _ | unassigning _ => exact going

/-- The calls of other processes, and those by which the populator gives up an account. -/
theorem Sound.others (sound : Sound w) (call : Call) (other : ∀ key, call ≠ .enqueue key) :
    Sound (w.call call) := by
  obtain ⟨ran, untracked, once⟩ := sound.called call fun key same => absurd same (other key)
  refine ⟨ran, untracked, once, sound.going.mono ?_ ?_⟩
  · exact fun key free => untracked_apply call w.redis (other key) free
  · intro key held
    by_cases given : ∃ value, call = .unassign key value
    · obtain ⟨value, rfl⟩ := given
      exact .inr ⟨value, List.mem_singleton_self _⟩
    · have same := tracked_apply call w.redis (other key) fun value same => given ⟨value, same⟩
      exact .inl (same.trans held)

theorem Sound.enqueue (sound : Sound w) {accounts newAccounts : List Nat} {since : Nat}
    (here : w.phase = .enqueueing accounts newAccounts since) (member : key ∈ newAccounts) :
    Sound { w.call (.enqueue key) with phase := .enqueueing accounts (newAccounts.erase key) since } := by
  have going := sound.going
  rw [here] at going
  obtain ⟨distinct, absent, read, settled⟩ := going
  obtain ⟨ran, untracked, once⟩ := sound.called (.enqueue key) (by
    rintro _ ⟨⟩
    exact tracked_eq_false.mp (absent key member))
  refine ⟨ran, untracked, once, distinct.erase key, fun other among => ?_, ?_, fun other among => ?_⟩
  · have apart : other ≠ key := by
      rintro rfl
      exact (distinct.not_mem_erase) among
    have free := absent other (List.mem_of_mem_erase among)
    exact untracked_apply (.enqueue key) w.redis (by simpa using apart.symm) free
  · change since ≤ (w.calls ++ [_]).length
    rw [List.length_append]
    omega
  · change _ ∨ _ ∨ Released ((w.calls ++ [_]).drop since) other
    rw [List.drop_append_of_le_length read]
    by_cases same : other = key
    · subst same
      exact .inr (.inl (tracked_eq_true.mpr (.inl List.mem_cons_self)))
    · rcases settled other among with left | held | ⟨value, released⟩
      · exact .inl ((List.mem_erase_of_ne same).mpr left)
      · refine .inr (.inl ?_)
        change tracked (Call.apply w.redis (.enqueue key)) other = true
        rw [tracked_apply _ _ (by simpa using Ne.symm same) (by simp)]
        exact held
      · exact .inr (.inr ⟨value, List.mem_append_left _ released⟩)

theorem Sound.goes_on (sound : Sound w) (stepped : step shards w .next = some next) : Sound next := by
  obtain ⟨ran, untracked, once, going⟩ := sound
  simp only [step] at stepped
  split at stepped <;> cases stepped
  case h_1 => exact ⟨ran, untracked, once, List.nodup_nil⟩
  case h_2 shard left accounts here =>
    rw [here] at going
    exact ⟨ran, untracked, once, List.Nodup.union (w.runnable shard) going⟩
  case h_3 accounts here =>
    rw [here] at going
    refine ⟨ran, untracked, once, going.filter _, fun key member => ?_, Nat.le_refl _, fun key member => ?_⟩
    · simpa using (List.mem_filter.mp member).2
    · cases held : tracked w.redis key with
      | true => exact .inr (.inl rfl)
      | false => exact .inl (List.mem_filter.mpr ⟨member, by simp [held]⟩)
  case h_4 => exact ⟨ran, untracked, once, trivial⟩
  case h_6 => exact ⟨ran, untracked, once, trivial⟩
  case h_7 => exact ⟨ran, untracked, once, trivial⟩
  case h_8 => exact ⟨ran, untracked, once, trivial⟩

theorem sound_step (sound : Sound w) {action : Action} (stepped : step shards w action = some next) :
    Sound next := by
  cases action with
  | commit shard accounts =>
    cases stepped
    exact ⟨sound.ran, sound.untracked, sound.once, sound.going⟩
  | claim value =>
    cases stepped
    exact sound.others (.claimNext value) (by simp)
  | giveUp key value =>
    cases stepped
    exact sound.others (.unassign key value) (by simp)
  | next => exact sound.goes_on stepped
  | enqueue key =>
    simp only [step] at stepped
    split at stepped
    · next accounts newAccounts since here =>
      split at stepped <;> cases stepped
      next member => exact sound.enqueue here member
    · cases stepped
  | unassign key =>
    simp only [step] at stepped
    split at stepped
    · obtain ⟨value, -, rfl⟩ := Option.map_eq_some_iff.mp stepped
      have after := sound.others (.unassign key value) (by simp)
      exact ⟨after.ran, after.untracked, after.once, trivial⟩
    · cases stepped
  | fail =>
    cases stepped
    exact ⟨sound.ran, sound.untracked, sound.once, trivial⟩

theorem sound_start (runnable : Nat → List Nat) : Sound (start runnable) where
  ran := rfl
  untracked := trivial
  once := ⟨List.nodup_nil, by simp [start, empty]⟩
  going := trivial

/-! ## An account that is runnable all the time -/

/-- The account is found wherever the shards have been asked. -/
def Found (shard key : Nat) : Phase → Prop
  | .idle => True
  | .querying left accounts => shard ∈ left ∨ key ∈ accounts
  | .enqueueing accounts _ _ => key ∈ accounts
  | .queryingAgain left accounts => shard ∈ left ∨ key ∈ accounts
  | .unassigning disabled => disabled key = none

theorem found_step {shard : Nat} (of_zone : shard ∈ shards)
    (kept : key ∈ w.runnable shard ∧ Found shard key w.phase) {action : Action}
    (stays : ∀ accounts, action = .commit shard accounts → key ∈ accounts)
    (stepped : step shards w action = some next) : key ∈ next.runnable shard ∧ Found shard key next.phase := by
  obtain ⟨runs, found⟩ := kept
  cases action with
  | commit other accounts =>
    cases stepped
    refine ⟨?_, found⟩
    by_cases same : shard = other
    · subst same
      simpa using stays accounts rfl
    · simpa [same] using runs
  | claim value | giveUp other value =>
    cases stepped
    exact ⟨runs, found⟩
  | next =>
    simp only [step] at stepped
    split at stepped <;> cases stepped
    case h_1 => exact ⟨runs, .inl of_zone⟩
    case h_2 asked left accounts here =>
      rw [here] at found
      refine ⟨runs, ?_⟩
      rcases found with among | member
      · rcases List.mem_cons.mp among with rfl | later
        · exact .inr (List.mem_union_left runs _)
        · exact .inl later
      · exact .inr (List.mem_union_right _ member)
    case h_3 accounts here =>
      rw [here] at found
      rcases found with none | member
      · cases none
      · exact ⟨runs, member⟩
    case h_4 => exact ⟨runs, .inl of_zone⟩
    case h_6 asked left accounts here =>
      rw [here] at found
      refine ⟨runs, ?_⟩
      rcases found with among | member
      · rcases List.mem_cons.mp among with rfl | later
        · exact .inr (List.mem_union_left runs _)
        · exact .inl later
      · exact .inr (List.mem_union_right _ member)
    case h_7 accounts here =>
      rw [here] at found
      rcases found with none | member
      · cases none
      · exact ⟨runs, if_pos member⟩
    case h_8 => exact ⟨runs, trivial⟩
  | enqueue other =>
    simp only [step] at stepped
    split at stepped
    · next accounts newAccounts since here =>
      rw [here] at found
      split at stepped <;> cases stepped
      exact ⟨runs, found⟩
    · cases stepped
  | unassign other =>
    simp only [step] at stepped
    split at stepped
    · next disabled here =>
      rw [here] at found
      obtain ⟨value, held, rfl⟩ := Option.map_eq_some_iff.mp stepped
      refine ⟨runs, ?_⟩
      change Function.update disabled other none key = none
      by_cases same : key = other
      · rw [same, Function.update_self]
      · rw [Function.update_of_ne same]
        exact found
    · cases stepped
  | fail =>
    cases stepped
    exact ⟨runs, trivial⟩

end Invariant

/-- With one populator every claim finds an account that is nobody's, and none is claimed twice before it has
been given up. An account of the zone that is runnable all the time is tracked once the loop over new
accounts is done, unless it was given up meanwhile, and the populator never takes it from its process. -/
theorem populator_tracks (runnable : Nat → List Nat) (actions : List Action) (w : World)
    (ran : Runs.run (step shards) (start runnable) actions = some w) :
    (Runs.Each AccountQueue.step Exclusive empty w.calls ∧ GivenUp empty w.calls) ∧
      ∀ shard ∈ shards, ∀ key ∈ runnable shard,
        (∀ accounts, .commit shard accounts ∈ actions → key ∈ accounts) →
        step shards w (.unassign key) = none ∧
          ∀ accounts since, w.phase = .enqueueing accounts [] since →
            tracked w.redis key = true ∨ Released (w.calls.drop since) key := by
  have sound : Sound w := Runs.invariant_of_events Sound (sound_start runnable)
    (fun _ _ _ _ sound stepped => sound_step sound stepped) ran
  refine ⟨?_, fun shard of_zone key runs stays => ?_⟩
  · have untaken := untaken_of_untracked ⟨List.nodup_nil, by simp [empty]⟩ sound.untracked
    have exclusive : Runs.Each AccountQueue.step Exclusive empty w.calls := by
      refine (Runs.each_iff (fun _ => True) trivial (fun _ _ _ _ _ => trivial) ?_).mpr untaken
      rintro redis call _ _ ⟨⟩
      exact exclusive_iff_untaken redis call
    exact ⟨exclusive, givenUp_of_exclusive exclusive⟩
  · have begun : key ∈ (start runnable).runnable shard ∧ Found shard key (start runnable).phase :=
      ⟨runs, trivial⟩
    have found : key ∈ w.runnable shard ∧ Found shard key w.phase := by
      refine Runs.invariant_of_events (fun w => key ∈ w.runnable shard ∧ Found shard key w.phase)
        begun (fun action among w next kept stepped => ?_) ran
      exact found_step of_zone kept (fun accounts same => stays accounts (same ▸ among)) stepped
    constructor
    · cases here : w.phase with
      | unassigning disabled =>
        have spared := found.2
        rw [here] at spared
        simp only [step, here]
        rw [show disabled key = none from spared]
        rfl
      | idle | querying _ _ | enqueueing _ _ _ | queryingAgain _ _ => simp only [step, here]
    · intro accounts since here
      have among := found.2
      have going := sound.going
      rw [here] at among going
      rcases going.2.2.2 key among with none | settled
      · cases none
      · exact settled

/-- Account 8 is disabled when it waits in the queue, and account 7 already has a process. -/
def oneDisabled : List Action :=
  [.next, .next, .next, .enqueue 7, .claim "hostA:3", .enqueue 8, .commit 0 [7], .next, .next, .next, .next,
    .next, .next, .next, .claim "hostB:7"]

theorem disabled_account_claimed : ∃ w, Runs.run (step [0]) (start fun _ => [7, 8]) oneDisabled = some w ∧
    w.calls = [.enqueue 7, .claimNext "hostA:3", .enqueue 8, .claimNext "hostB:7"] ∧
      Runs.Each AccountQueue.step Exclusive empty w.calls ∧ tracked w.redis 7 = true := by
  have whole : (Runs.run (step [0]) (start fun _ => [7, 8]) oneDisabled).map (fun w => (w.calls, w.phase)) =
      some ([.enqueue 7, .claimNext "hostA:3", .enqueue 8, .claimNext "hostB:7"], .enqueueing [7] [] 3) := rfl
  obtain ⟨w, ran, ends⟩ := Option.map_eq_some_iff.mp whole
  obtain ⟨calls, here⟩ := Prod.mk.inj ends
  obtain ⟨⟨exclusive, -⟩, runs⟩ := populator_tracks [0] (fun _ => [7, 8]) oneDisabled w ran
  have stays : ∀ accounts, Action.commit 0 accounts ∈ oneDisabled → 7 ∈ accounts := by
    intro accounts member
    simp [oneDisabled] at member
    simp [member]
  refine ⟨w, ran, calls, exclusive, ?_⟩
  rcases (runs 0 (by simp) 7 (by simp) stays).2 [7] 3 here with held | ⟨value, released⟩
  · exact held
  · rw [calls] at released
    simp at released

end Populator
end AccountQueue
end SyncEngine
