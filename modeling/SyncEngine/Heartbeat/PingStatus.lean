import Mathlib.Data.Int.Order.Basic
import Mathlib.Data.List.SplitBy
import Mathlib.Data.Prod.Lex
import Mathlib.Data.String.Basic
import SyncEngine.Util.Itert
import SyncEngine.Util.Runs
import SyncEngine.Util.SortedSet

/-! When each folder of each account was last heard of, in one sorted set for each account, on as many Redis
instances as are configured; and who asks for many accounts at once while they are written. -/
namespace SyncEngine
namespace Heartbeat

/-- `REDIS_SHARDS` has an entry. -/
structure Config where
  numShards : Nat
  some_shard : 0 < numShards

/-- The sorted set of each account on each shard. -/
abbrev Store := Nat → Nat → SortedSet Int Int

variable (config : Config)

def accountRedisShardNumber (accountId : Nat) : Nat := accountId % config.numShards

/-- Redis sorts by score, and members of one score as texts. -/
def key (entry : Int × Int) : Int ×ₗ String := toLex (entry.1, toString entry.2)

/-! ## Writing -/

def change (store : Store) (accountId : Nat) (set : SortedSet Int Int → SortedSet Int Int) : Store :=
  let shard := accountRedisShardNumber config accountId
  Function.update store shard (Function.update (store shard) accountId (set (store shard accountId)))

/-- `HeartbeatStore.publish` -/
def updateFolderIndex (store : Store) (accountId : Nat) (folderId timestamp : Int) : Store :=
  change config store accountId (·.zadd timestamp folderId)

/-- `device_id` says which devices to forget; heartbeats are not kept by device, but without a folder nothing
is removed when there is one. What is not given is `None` or zero. -/
def removeFolders (store : Store) (accountId : Nat) (folderId : Int) (deviceId : Nat) : Store :=
  if folderId ≠ 0 then change config store accountId (·.zrem folderId)
  else if deviceId = 0 then change config store accountId fun _ => .empty
  else store

/-! ## Reading -/

def getAccountFolders (store : Store) (accountId : Nat) : List (Int × Int) :=
  (store (accountRedisShardNumber config accountId) accountId).zrange key

/-- `itertools.groupby` of the ids sorted by their shards -/
def accountIdsGroupedByShards (accountIds : List Nat) : List (List Nat) :=
  let shardNum := accountRedisShardNumber config
  (accountIds.insertionSort fun a b => shardNum a ≤ shardNum b).splitBy fun a b => shardNum a == shardNum b

/-- The pipelines of `get_accounts_folders`, each with the shard of the first id of its group. -/
def pipelines (accountIds : List Nat) : List (Nat × List Nat) :=
  (accountIdsGroupedByShards config accountIds).flatMap fun accountGroup =>
    (chunk accountGroup 10000).map fun chnk => (accountRedisShardNumber config (accountGroup.headD 0), chnk)

structure FolderPing where
  id : Int
  alive : Bool
  timestamp : Int
deriving DecidableEq

def folderPings (now threshold : Int) (folderHeartbeats : List (Int × Int)) : List FolderPing :=
  folderHeartbeats.map fun entry => ⟨entry.2, now - threshold < entry.1, entry.1⟩

/-- A call of `get_ping_status`; `results` are those of the pipelines so far. -/
inductive Call
  | idle
  | reading (accountIds : List Nat) (now threshold : Int) (left : List (Nat × List Nat))
      (results : Nat → Option (List (Int × Int)))
  | answered (accounts : Nat → Option (List FolderPing))
  | keyError

/-! ## The store among its writers -/

structure State where
  store : Store
  call : Call

inductive Action
  | publish (accountId : Nat) (folderId timestamp : Int)
  | removeFolders (accountId : Nat) (folderId : Int) (deviceId : Nat)
  | getPingStatus (accountIds : List Nat) (now threshold : Int)
  /-- The next pipeline is executed, or the answer is put together. -/
  | go
deriving DecidableEq

def write (store : Store) : Action → Store
  | .publish accountId folderId timestamp => updateFolderIndex config store accountId folderId timestamp
  | .removeFolders accountId folderId deviceId => removeFolders config store accountId folderId deviceId
  | _ => store

/-- A pipeline is one transaction. -/
def execute (store : Store) (pipeline : Nat × List Nat) (results : Nat → Option (List (Int × Int))) :
    Nat → Option (List (Int × Int)) :=
  fun accountId => if accountId ∈ pipeline.2 then some ((store pipeline.1 accountId).zrange key)
    else results accountId

/-- An account alone is read without a pipeline. -/
def requests (accountIds : List Nat) : List (Nat × List Nat) :=
  match accountIds with
  | [accountId] => [(accountRedisShardNumber config accountId, [accountId])]
  | _ => pipelines config accountIds

def step (s : State) (action : Action) : Option State :=
  match action, s.call with
  -- Other callers are not followed: they write nothing.
  | .getPingStatus .., .reading .. => none
  | .getPingStatus accountIds now threshold, _ =>
    some { s with call := .reading accountIds now threshold (requests config accountIds) fun _ => none }
  | .go, .reading accountIds now threshold (pipeline :: left) results =>
    some { s with call := .reading accountIds now threshold left (execute s.store pipeline results) }
  | .go, .reading accountIds now threshold [] results =>
    if accountIds.all fun accountId => (results accountId).isSome then
      some { s with call := .answered fun accountId =>
        if accountId ∈ accountIds then (results accountId).map (folderPings now threshold) else none }
    else some { s with call := .keyError }
  | .go, _ => none
  | action, _ => some { s with store := write config s.store action }

def start : State := ⟨fun _ _ => .empty, .idle⟩

/-! ## What the store is for -/

/-- When a folder of an account was last heard of. -/
def beat (accountId : Nat) (folderId : Int) (last : Option Int) : Action → Option Int
  | .publish account folder timestamp =>
    if account = accountId ∧ folder = folderId then some timestamp else last
  | .removeFolders account folder deviceId =>
    if account = accountId ∧ (folder = folderId ∧ folder ≠ 0 ∨ folder = 0 ∧ deviceId = 0) then none else last
  | _ => last

def beats (actions : List Action) (accountId : Nat) (folderId : Int) : Option Int :=
  actions.foldl (beat accountId folderId) none

/-- What an answer says about an account. -/
structure Reports (heard : Int → Option Int) (now threshold : Int) (folders : List FolderPing) : Prop where
  once : (folders.map FolderPing.id).Nodup
  all : ∀ folderId timestamp, heard folderId = some timestamp →
    ⟨folderId, now - threshold < timestamp, timestamp⟩ ∈ folders
  only : ∀ folder ∈ folders, heard folder.id = some folder.timestamp ∧
    folder.alive = decide (now - threshold < folder.timestamp)
  oldest_first : folders.Pairwise fun a b => a.timestamp ≤ b.timestamp

/-! ## The store refines what it is for -/
section Store
variable {config} {store : Store} {accountId other : Nat} {folderId time : Int} {action : Action}

def kept (config : Config) (store : Store) (accountId : Nat) : SortedSet Int Int :=
  store (accountRedisShardNumber config accountId) accountId

theorem kept_change_self (set : SortedSet Int Int → SortedSet Int Int) :
    kept config (change config store accountId set) accountId = set (kept config store accountId) := by
  simp [kept, change]

theorem kept_change_other (set : SortedSet Int Int → SortedSet Int Int) (apart : other ≠ accountId) :
    kept config (change config store accountId set) other = kept config store other := by
  unfold kept change
  by_cases shard : accountRedisShardNumber config other = accountRedisShardNumber config accountId
  · simp [shard, apart]
  · simp [shard]

theorem write_beat {last : Option Int}
    (known : ∀ time, (time, folderId) ∈ (kept config store accountId).entries ↔ last = some time) :
    (time, folderId) ∈ (kept config (write config store action) accountId).entries ↔
      beat accountId folderId last action = some time := by
  cases action with
  | publish account folder timestamp =>
    rw [write, updateFolderIndex, beat]
    by_cases same : account = accountId
    · subst same
      rw [kept_change_self, SortedSet.mem_zadd]
      by_cases here : folder = folderId
      · simp [here, eq_comm]
      · simp [here, Ne.symm here, known]
    · rw [kept_change_other _ (Ne.symm same), if_neg (fun both => same both.1), known]
  | removeFolders account folder deviceId =>
    rw [write, removeFolders, beat]
    by_cases all : folder = 0
    · rw [if_neg (not_not.mpr all)]
      by_cases device : deviceId = 0
      · rw [if_pos device]
        by_cases same : account = accountId
        · subst same
          simp [kept_change_self, all, device]
        · rw [kept_change_other _ (Ne.symm same), if_neg (fun both => same both.1), known]
      · rw [if_neg device, if_neg (by simp [all, device]), known]
    · rw [if_pos all]
      by_cases same : account = accountId
      · subst same
        rw [kept_change_self, SortedSet.mem_zrem]
        by_cases here : folder = folderId
        · subst here
          simp [all]
        · simp [here, Ne.symm here, all, known]
      · rw [kept_change_other _ (Ne.symm same), if_neg (fun both => same both.1), known]
  | getPingStatus | go => exact known time

/-- The store after some writes. -/
def storeAfter (config : Config) (actions : List Action) : Store := actions.foldl (write config) start.store

theorem mem_storeAfter (actions : List Action) (accountId : Nat) (folderId time : Int) :
    (time, folderId) ∈ (kept config (storeAfter config actions) accountId).entries ↔
      beats actions accountId folderId = some time := by
  induction actions using List.reverseRecOn generalizing time with
  | nil => simp [storeAfter, beats, start, kept]
  | append_singleton actions action ih =>
    rw [storeAfter, beats, List.foldl_concat, List.foldl_concat]
    exact write_beat ih

/-- What is read at some moment. -/
theorem reports_folderPings (actions : List Action) (accountId : Nat) (now threshold : Int) :
    Reports (beats actions accountId) now threshold
      (folderPings now threshold (getAccountFolders config (storeAfter config actions) accountId)) := by
  have held : ∀ folderId time,
      (time, folderId) ∈ getAccountFolders config (storeAfter config actions) accountId ↔
        beats actions accountId folderId = some time := fun folderId time =>
    (SortedSet.mem_zrange key).trans (mem_storeAfter actions accountId folderId time)
  constructor
  · rw [folderPings, List.map_map]
    exact SortedSet.zrange_distinct key _
  · intro folderId timestamp heard
    exact List.mem_map.mpr ⟨(timestamp, folderId), (held folderId timestamp).mpr heard, rfl⟩
  · intro folder member
    obtain ⟨entry, among, rfl⟩ := List.mem_map.mp member
    exact ⟨(held entry.2 entry.1).mp among, rfl⟩
  · rw [folderPings, List.pairwise_map]
    refine (SortedSet.zrange_sorted key _).imp fun {a b} below => ?_
    exact Prod.Lex.monotone_fst (key a) (key b) below

end Store

/-! ## The pipelines -/
section Pipelines
variable {config} {accountIds : List Nat} {accountId : Nat}

theorem mem_groups {group : List Nat} (member : group ∈ accountIdsGroupedByShards config accountIds)
    (inside : accountId ∈ group) :
    accountRedisShardNumber config (group.headD 0) = accountRedisShardNumber config accountId := by
  have chain := List.isChain_of_mem_splitBy member
  cases group with
  | nil => cases inside
  | cons first rest =>
    have trans : IsTrans Nat fun a b => accountRedisShardNumber config a = accountRedisShardNumber config b :=
      ⟨fun _ _ _ => Eq.trans⟩
    have same := (List.isChain_iff_pairwise.mp (chain.imp fun a b equal => eq_of_beq equal))
    rcases List.mem_cons.mp inside with rfl | later
    · rfl
    · exact (List.pairwise_cons.mp same).1 accountId later

theorem requests_shard : ∀ pipeline ∈ requests config accountIds, ∀ accountId ∈ pipeline.2,
    pipeline.1 = accountRedisShardNumber config accountId := by
  intro pipeline member accountId inside
  unfold requests at member
  split at member
  · obtain rfl := List.mem_singleton.mp member
    rw [List.mem_singleton.mp inside]
  · obtain ⟨group, among, chunked⟩ := List.mem_flatMap.mp member
    obtain ⟨chnk, part, rfl⟩ := List.mem_map.mp chunked
    refine mem_groups among ?_
    rw [← chunk_flatten (by decide : 0 < 10000) group]
    exact List.mem_flatten.mpr ⟨chnk, part, inside⟩

theorem requests_all (member : accountId ∈ accountIds) :
    ∃ pipeline ∈ requests config accountIds, accountId ∈ pipeline.2 := by
  unfold requests
  split
  · exact ⟨_, List.mem_singleton_self _, member⟩
  · have sorted := (List.perm_insertionSort (fun a b => accountRedisShardNumber config a ≤
      accountRedisShardNumber config b) accountIds).mem_iff.mpr member
    rw [← List.flatten_splitBy (fun a b => accountRedisShardNumber config a ==
      accountRedisShardNumber config b) (List.insertionSort _ accountIds)] at sorted
    obtain ⟨group, among, inside⟩ := List.mem_flatten.mp sorted
    rw [← chunk_flatten (by decide : 0 < 10000) group] at inside
    obtain ⟨chnk, part, inside⟩ := List.mem_flatten.mp inside
    exact ⟨_, List.mem_flatMap.mpr ⟨group, among, List.mem_map_of_mem part⟩, inside⟩

end Pipelines

/-! ## A call among writers -/
section Runs
variable {config} {s t : State} {action : Action} {before during : List Action} {accountIds : List Nat}
variable {now threshold : Int} {call : Call}

theorem step_store (stepped : step config s action = some t) : t.store = write config s.store action := by
  unfold step at stepped
  split at stepped <;> try split at stepped
  all_goals cases stepped
  all_goals rfl

theorem step_call (asked : step config s (.getPingStatus accountIds now threshold) = some t) :
    s.store = t.store ∧
      t.call = .reading accountIds now threshold (requests config accountIds) fun _ => none := by
  obtain ⟨store, call⟩ := s
  cases call with
  | reading => cases asked
  | idle | answered | keyError =>
    cases asked
    exact ⟨rfl, rfl⟩

theorem run_store {actions : List Action} (ran : Runs.run (step config) s actions = some t) :
    t.store = actions.foldl (write config) s.store := by
  induction actions generalizing s with
  | nil =>
    cases ran
    rfl
  | cons action actions ih =>
    obtain ⟨next, stepped, ran⟩ := Option.bind_eq_some_iff.mp ran
    rw [ih ran, step_store stepped, List.foldl_cons]

/-- What a pipeline read of the account when only the `first` of the actions had been taken. -/
def ReadAt (config : Config) (before during : List Action) (accountId : Nat) (heartbeats : List (Int × Int)) :
    Prop :=
  ∃ first, first <+: during ∧
    heartbeats = getAccountFolders config (storeAfter config (before ++ first)) accountId

theorem ReadAt.later {accountId : Nat} {heartbeats : List (Int × Int)}
    (read : ReadAt config before during accountId heartbeats) (action : Action) :
    ReadAt config before (during ++ [action]) accountId heartbeats := by
  obtain ⟨first, before, same⟩ := read
  exact ⟨first, before.trans (List.prefix_append _ _), same⟩

/-- Every account that was asked for is read by a pipeline that is left, or has been read. -/
def Told (config : Config) (accountIds : List Nat) (now threshold : Int) (before during : List Action) :
    Call → Prop
  | .reading ids time limit left results => ids = accountIds ∧ time = now ∧ limit = threshold ∧
    (∀ pipeline ∈ left, ∀ accountId ∈ pipeline.2, pipeline.1 = accountRedisShardNumber config accountId) ∧
    ∀ accountId ∈ accountIds, (∃ pipeline ∈ left, accountId ∈ pipeline.2) ∨
      ∃ heartbeats, results accountId = some heartbeats ∧ ReadAt config before during accountId heartbeats
  | .answered accounts => (∀ accountId ∉ accountIds, accounts accountId = none) ∧
    ∀ accountId ∈ accountIds, ∃ heartbeats, accounts accountId = some (folderPings now threshold heartbeats) ∧
      ReadAt config before during accountId heartbeats
  | _ => False

theorem told_execute {left : List (Nat × List Nat)} {pipeline : Nat × List Nat}
    {results : Nat → Option (List (Int × Int))} (store : s.store = storeAfter config (before ++ during))
    (told : Told config accountIds now threshold before during
      (.reading accountIds now threshold (pipeline :: left) results)) :
    Told config accountIds now threshold before (during ++ [.go])
      (.reading accountIds now threshold left (execute s.store pipeline results)) := by
  obtain ⟨-, -, -, shards, all⟩ := told
  refine ⟨rfl, rfl, rfl, fun other member => shards other (List.mem_cons_of_mem _ member), ?_⟩
  intro accountId asked
  by_cases here : accountId ∈ pipeline.2
  · refine .inr ⟨_, if_pos here, during, List.prefix_append _ _, ?_⟩
    rw [shards pipeline List.mem_cons_self accountId here, store]
    rfl
  · rcases all accountId asked with ⟨other, member, inside⟩ | ⟨heartbeats, found, read⟩
    · rcases List.mem_cons.mp member with rfl | later
      · exact absurd inside here
      · exact .inl ⟨other, later, inside⟩
    · exact .inr ⟨heartbeats, (if_neg here).trans found, read.later _⟩

theorem Told.later {call : Call} (told : Told config accountIds now threshold before during call)
    (action : Action) : Told config accountIds now threshold before (during ++ [action]) call := by
  cases call with
  | idle | keyError => exact told
  | reading ids time limit left results =>
    obtain ⟨sameIds, sameTime, sameLimit, shards, all⟩ := told
    refine ⟨sameIds, sameTime, sameLimit, shards, fun accountId asked => ?_⟩
    rcases all accountId asked with waiting | ⟨heartbeats, found, read⟩
    · exact .inl waiting
    · exact .inr ⟨heartbeats, found, read.later action⟩
  | answered accounts =>
    refine ⟨told.1, fun accountId asked => ?_⟩
    obtain ⟨heartbeats, found, read⟩ := told.2 accountId asked
    exact ⟨heartbeats, found, read.later action⟩

/-- No pipeline is left, so every account has been read and none is missed. -/
theorem told_answer {results : Nat → Option (List (Int × Int))}
    (told : Told config accountIds now threshold before during (.reading accountIds now threshold [] results)) :
    (accountIds.all fun accountId => (results accountId).isSome) = true ∧
      Told config accountIds now threshold before during (.answered fun accountId =>
        if accountId ∈ accountIds then (results accountId).map (folderPings now threshold) else none) := by
  obtain ⟨-, -, -, -, all⟩ := told
  have read : ∀ accountId ∈ accountIds, ∃ heartbeats, results accountId = some heartbeats ∧
      ReadAt config before during accountId heartbeats := by
    intro accountId asked
    rcases all accountId asked with ⟨pipeline, left, -⟩ | read
    · cases left
    · exact read
  refine ⟨List.all_eq_true.mpr fun accountId asked => ?_, fun accountId other => if_neg other, ?_⟩
  · obtain ⟨heartbeats, found, -⟩ := read accountId asked
    rw [found, Option.isSome_some]
  · intro accountId asked
    obtain ⟨heartbeats, found, when⟩ := read accountId asked
    exact ⟨heartbeats, (if_pos asked).trans (congrArg (Option.map _) found), when⟩

theorem step_answer {store : Store} {results : Nat → Option (List (Int × Int))}
    (told : Told config accountIds now threshold before during (.reading accountIds now threshold [] results))
    (stepped : step config ⟨store, .reading accountIds now threshold [] results⟩ .go = some t) :
    t = ⟨store, .answered fun accountId =>
      if accountId ∈ accountIds then (results accountId).map (folderPings now threshold) else none⟩ :=
  (Option.some.inj ((if_pos (told_answer told).1).symm.trans stepped)).symm

/-- What a step makes of a call that is under way. -/
theorem step_cases (told : Told config accountIds now threshold before during s.call)
    (alone : ∀ ids time limit, action ≠ .getPingStatus ids time limit)
    (stepped : step config s action = some t) :
    (action ≠ .go ∧ t.call = s.call) ∨
    (∃ pipeline left results, action = .go ∧
      s.call = .reading accountIds now threshold (pipeline :: left) results ∧
      t.call = .reading accountIds now threshold left (execute s.store pipeline results)) ∨
    ∃ results, action = .go ∧ s.call = .reading accountIds now threshold [] results ∧
      t.call = .answered fun accountId =>
        if accountId ∈ accountIds then (results accountId).map (folderPings now threshold) else none := by
  cases action with
  | publish account folder timestamp | removeFolders account folder deviceId =>
    cases stepped
    exact .inl ⟨Action.noConfusion, rfl⟩
  | getPingStatus ids time limit => exact absurd rfl (alone ids time limit)
  | go =>
    obtain ⟨held, call⟩ := s
    cases call with
    | idle | keyError => cases told
    | answered accounts => cases stepped
    | reading ids time limit left results =>
      obtain ⟨rfl, rfl, rfl, -⟩ := id told
      cases left with
      | cons pipeline left =>
        cases stepped
        exact .inr (.inl ⟨pipeline, left, results, rfl, rfl, rfl⟩)
      | nil =>
        rw [step_answer told stepped]
        exact .inr (.inr ⟨results, rfl, rfl, rfl⟩)

theorem told_step (store : s.store = storeAfter config (before ++ during))
    (told : Told config accountIds now threshold before during s.call)
    (alone : ∀ ids time limit, action ≠ .getPingStatus ids time limit)
    (stepped : step config s action = some t) :
    Told config accountIds now threshold before (during ++ [action]) t.call := by
  rcases step_cases told alone stepped with ⟨-, same⟩ | ⟨pipeline, left, results, rfl, was, next⟩ |
    ⟨results, rfl, was, next⟩
  · rw [same]
    exact told.later _
  · rw [was] at told
    rw [next]
    exact told_execute store told
  · rw [was] at told
    rw [next]
    exact (told_answer told).2.later _

theorem told_run (ran : Runs.run (step config) start before = some s)
    (goes : Runs.run (step config) s (.getPingStatus accountIds now threshold :: during) = some t)
    (alone : ∀ ids time limit, Action.getPingStatus ids time limit ∉ during) :
    Told config accountIds now threshold before during t.call := by
  have fromStart : s.store = storeAfter config before := run_store ran
  obtain ⟨opened, first, went⟩ := Option.bind_eq_some_iff.mp goes
  obtain ⟨same, asked⟩ := step_call first
  rw [same] at fromStart
  clear first ran same goes
  induction during using List.reverseRecOn generalizing t with
  | nil =>
    cases went
    rw [asked]
    exact ⟨rfl, rfl, rfl, requests_shard, fun accountId asked => .inl (requests_all asked)⟩
  | append_singleton during action ih =>
    rw [Runs.run_append] at went
    obtain ⟨u, went, last⟩ := Option.bind_eq_some_iff.mp went
    obtain ⟨v, stepped, ended⟩ := Option.bind_eq_some_iff.mp last
    cases ended
    have store : u.store = storeAfter config (before ++ during) := by
      rw [run_store went, fromStart, storeAfter, storeAfter, List.foldl_append]
    exact told_step store (ih (fun ids time limit member => alone ids time limit (List.mem_append_left _ member))
      went) (fun ids time limit same => alone ids time limit (same ▸ List.mem_concat_self)) stepped

/-- How often the caller has yet to go on. -/
def remaining : Call → Nat
  | .reading _ _ _ left _ => left.length + 1
  | _ => 0

theorem remaining_step (told : Told config accountIds now threshold before during s.call)
    (alone : ∀ ids time limit, action ≠ .getPingStatus ids time limit)
    (stepped : step config s action = some t) :
    remaining t.call + [action].count .go = remaining s.call := by
  rcases step_cases told alone stepped with ⟨other, same⟩ | ⟨pipeline, left, results, rfl, was, next⟩ |
    ⟨results, rfl, was, next⟩
  · rw [same, List.count_eq_zero.mpr fun member => other (List.mem_singleton.mp member).symm, Nat.add_zero]
  · rw [was, next]
    rfl
  · rw [was, next]
    rfl

theorem remaining_run (ran : Runs.run (step config) start before = some s)
    (goes : Runs.run (step config) s (.getPingStatus accountIds now threshold :: during) = some t)
    (alone : ∀ ids time limit, Action.getPingStatus ids time limit ∉ during) :
    remaining t.call + during.count .go = (requests config accountIds).length + 1 := by
  induction during using List.reverseRecOn generalizing t with
  | nil =>
    obtain ⟨opened, first, ended⟩ := Option.bind_eq_some_iff.mp goes
    cases ended
    rw [(step_call first).2]
    rfl
  | append_singleton during action ih =>
    have earlier : ∀ ids time limit, Action.getPingStatus ids time limit ∉ during :=
      fun ids time limit member => alone ids time limit (List.mem_append_left _ member)
    rw [← List.cons_append, Runs.run_append] at goes
    obtain ⟨u, goes, last⟩ := Option.bind_eq_some_iff.mp goes
    obtain ⟨v, stepped, ended⟩ := Option.bind_eq_some_iff.mp last
    cases ended
    have here := remaining_step (told_run ran goes earlier)
      (fun ids time limit same => alone ids time limit (same ▸ List.mem_concat_self)) stepped
    rw [List.count_append, ← ih goes earlier, ← here]
    omega

/-- However a call is interleaved with heartbeats and removals, and however its accounts are spread over shards
and pipelines, it finds every account's reply, ends once the caller has gone on as often as it has pipelines and
once more, answers for exactly the accounts it was asked for, and reports each as it was at some moment of the
call. -/
theorem ping_status_refines (config : Config) (before during : List Action) (s t : State) (accountIds : List Nat)
    (now threshold : Int) (ran : Runs.run (step config) start before = some s)
    (goes : Runs.run (step config) s (.getPingStatus accountIds now threshold :: during) = some t)
    (alone : ∀ ids time limit, Action.getPingStatus ids time limit ∉ during) :
    t.call ≠ .keyError ∧
    (during.count .go = (requests config accountIds).length + 1 ↔ ∃ accounts, t.call = .answered accounts) ∧
    ∀ accounts, t.call = .answered accounts →
      (∀ accountId ∉ accountIds, accounts accountId = none) ∧
      ∀ accountId ∈ accountIds, ∃ first folders, first <+: during ∧ accounts accountId = some folders ∧
        Reports (beats (before ++ first) accountId) now threshold folders := by
  have told := told_run ran goes alone
  have left := remaining_run ran goes alone
  refine ⟨fun failed => ?_, ?_, ?_⟩
  · rw [failed] at told
    exact told
  · rw [← left, Nat.right_eq_add]
    cases called : t.call with
    | idle | keyError =>
      rw [called] at told
      exact told.elim
    | reading | answered accounts => simp [remaining]
  · intro accounts answered
    rw [answered] at told
    refine ⟨told.1, fun accountId asked => ?_⟩
    obtain ⟨_, found, first, started, rfl⟩ := told.2 accountId asked
    exact ⟨first, _, started, found, reports_folderPings _ _ _ _⟩

/-- Three accounts on two shards; both are heard of between the two pipelines, and one of them is already
read. -/
theorem ping_status_over_shards :
    let before : List Action := [.publish 1 5 100, .publish 2 7 90]
    let during : List Action := [.go, .publish 2 7 600, .publish 1 5 600, .go, .go]
    ∃ s t, Runs.run (step ⟨2, Nat.two_pos⟩) start before = some s ∧
      Runs.run (step ⟨2, Nat.two_pos⟩) s (.getPingStatus [1, 2, 4] 600 480 :: during) = some t ∧
      ∃ accounts, t.call = .answered accounts ∧ accounts 2 = some [⟨7, false, 90⟩] ∧
        ∃ first folders, first <+: during ∧ accounts 1 = some folders ∧
          Reports (beats (before ++ first) 1) 600 480 folders := by
  intro before during
  have opens : ∃ s, Runs.run (step ⟨2, Nat.two_pos⟩) start before = some s := ⟨_, rfl⟩
  obtain ⟨s, ran⟩ := opens
  have ends : ∃ t, Runs.run (step ⟨2, Nat.two_pos⟩) s (.getPingStatus [1, 2, 4] 600 480 :: during) = some t ∧
      ∃ accounts, t.call = .answered accounts ∧ accounts 2 = some [⟨7, false, 90⟩] := by
    cases ran
    exact ⟨_, rfl, _, rfl, by decide⟩
  obtain ⟨t, goes, accounts, answered, second⟩ := ends
  have all := ping_status_refines ⟨2, Nat.two_pos⟩ before during s t [1, 2, 4] 600 480 ran goes
    (by simp [during])
  exact ⟨s, t, ran, goes, accounts, answered, second, (all.2.2 accounts answered).2 1 (by decide)⟩

end Runs

end Heartbeat
end SyncEngine
