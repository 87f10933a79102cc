import SyncEngine.Models.ShardIds
import SyncEngine.Util.Runs

/-! Sessions and rows. The ids that the counters give route back to the shard, if the counters are looked at
whenever a server restarted. -/
namespace SyncEngine
namespace Ignition
open ShardPaging (shardKeyForId Legacy)
open AutoIncrement (Near)

/-! ## Counters that were looked at -/
section Counters
variable {metadata : Metadata} {key steps n : Nat} {schema next : Schema} {action : Action}
variable {relation : Relation}

/-- What `verify_db` asserts of the counters; it passes over one table, of which there is only one row. -/
def Verified (key : Nat) (schema : Schema) : Prop :=
  ∀ table n, table ≠ "contactsearchindexcursor" → (schema table).bind Relation.increment = some n →
    shardKeyForId n = key

def Routed (key : Nat) (schema : Schema) : Prop :=
  ∀ table relation, table ≠ "contactsearchindexcursor" → schema table = some relation →
    ∀ id ∈ relation.ids, shardKeyForId id = key

theorem verifyTables_ok {tables : List Table} {verified : List String}
    (passed : verifyTables key schema tables verified = .ok ()) : ∀ table ∈ tables,
      table.name ≠ "contactsearchindexcursor" → ∀ n, (schema table.name).bind Relation.increment = some n →
        shardKeyForId n = key := by
  induction tables generalizing verified with
  | nil =>
    intro table member
    cases member
  | cons first tables ih =>
    intro table member other n counts
    rw [verifyTables] at passed
    split at passed
    · rename_i cursor
      rcases List.mem_cons.mp member with rfl | later
      · exact absurd cursor other
      · exact ih passed table later other n counts
    · split at passed
      · rename_i current found
        split at passed
        · rename_i right
          rcases List.mem_cons.mp member with rfl | later
          · rw [← Option.some.inj (found.symm.trans counts)]
            exact right
          · exact ih passed table later other n counts
        · cases passed
      · rename_i uncounted
        split at passed
        · split at passed
          · rcases List.mem_cons.mp member with rfl | later
            · rw [uncounted] at counts
              cases counts
            · exact ih passed table later other n counts
          · cases passed
        · cases passed

theorem corrected_increment (drawn : relation.Drawn [1, increment key] steps) (few : steps + 2 < 2 ^ 48)
    (counts : (corrected key relation).increment = some n) : shardKeyForId n = key := by
  cases relation with
  | inherited rows => cases counts
  | counted rows =>
    by_cases right : shardKeyForId rows.increment ≠ key
    · have fixed : corrected key (.counted rows) = .counted (rows.alter (increment key)) := if_pos right
      rw [fixed] at counts
      obtain rfl := Option.some.inj counts
      have after := AutoIncrement.Drawn.alter drawn (by simp) (show increment key ∈ [1, increment key] by simp)
      exact shard_above (Nat.le_max_left _ _) after.counter few
    · have kept : corrected key (.counted rows) = .counted rows := if_neg right
      rw [kept] at counts
      obtain rfl := Option.some.inj counts
      exact not_not.mp right

theorem act_verified (sound : Sound metadata key steps schema) (few : steps + 2 < 2 ^ 48)
    (acted : act metadata key schema action = some next)
    (before : action.checks = true ∨ Verified key schema ∧ action.restarts = false) : Verified key next := by
  intro table n other counts
  obtain ⟨relation, after, shown⟩ := Option.bind_eq_some_iff.mp counts
  have current : ∀ {old : Relation}, Verified key schema → schema table = some old → old.increment = some n →
      shardKeyForId n = key := fun verified found counter =>
    verified table n other (Option.bind_eq_some_iff.mpr ⟨_, found, counter⟩)
  cases act_change acted after with
  | kept found _ checked =>
    rcases before with checks | before
    · obtain ⟨entry, among, named⟩ := List.mem_map.mp (sound table _ found).1
      rcases checked checks with passed | unknown
      · subst named
        exact verifyTables_ok passed entry among other n (Option.bind_eq_some_iff.mpr ⟨_, found, shown⟩)
      · exact absurd (sound table _ found).1 unknown
    · exact current before.1 found shown
  | created among named =>
    rw [created_increment _ _ shown]
    exact shard_increment key
  | inserted found =>
    obtain rfl := Option.some.inj shown
    have verified := (before.resolve_left Bool.false_ne_true).1
    exact shard_next (verified table _ other (Option.bind_eq_some_iff.mpr ⟨_, found, rfl⟩))
      (AutoIncrement.Drawn.counter (sound table _ found).2) few
  | added _ _ found =>
    exact current (before.resolve_left Bool.false_ne_true).1 found (Relation.add_increment _ _ ▸ shown)
  | deleted found =>
    exact current (before.resolve_left Bool.false_ne_true).1 found (Relation.delete_increment _ _ ▸ shown)
  | restarted found => cases (before.resolve_left Bool.false_ne_true).2
  | reset found => exact corrected_increment (sound table _ found).2 few shown

theorem act_routed (routed : Routed key schema) (verified : action.creates = true → Verified key schema)
    (acted : act metadata key schema action = some next) : Routed key next := by
  intro table relation other after id member
  have counter : ∀ {root : String} {rows : AutoIncrement}, action.creates = true →
      root ≠ "contactsearchindexcursor" → schema root = some (.counted rows) →
        shardKeyForId rows.increment = key :=
    fun creates apart found => verified creates _ _ apart (Option.bind_eq_some_iff.mpr ⟨_, found, rfl⟩)
  cases act_change acted after with
  | kept found => exact routed table _ other found id member
  | created among named =>
    rw [created_ids] at member
    cases member
  | inserted found =>
    rcases AutoIncrement.mem_insert member with rfl | earlier
    · exact counter rfl other found
    · exact routed table _ other found id earlier
  | added begins apart found =>
    rcases Relation.mem_add member with rfl | earlier
    · exact counter rfl apart begins
    · exact routed table _ other found id earlier
  | deleted found => exact routed table _ other found id (Relation.mem_delete member)
  | restarted found => exact routed table _ other found id (Relation.restart_ids _ ▸ member)
  | reset found => exact routed table _ other found id (corrected_ids _ ▸ member)

end Counters

/-! ## Runs -/
section Runs
variable {manager : EngineManager} {metadata : Metadata} {world next : World} {action : Action}
variable {events : List Action} {key steps : Nat} {unchecked : List Nat} {name : String}

theorem lookup_injective (one : OneToOne manager) {other : Nat} (here : manager.engines.lookup key = some name)
    (there : manager.engines.lookup other = some name) : key = other :=
  congrArg Prod.fst <|
    List.inj_on_of_nodup_map one.names (mem_of_lookup_eq_some here) (mem_of_lookup_eq_some there) rfl

theorem step_cases (stepped : step manager metadata world action = some next) :
    ∃ name schema, manager.engines.lookup action.key = some name ∧
      act metadata action.key (world name) action = some schema ∧ next = Function.update world name schema := by
  obtain ⟨name, found, stepped⟩ := Option.bind_eq_some_iff.mp stepped
  obtain ⟨schema, acted, same⟩ := Option.bind_eq_some_iff.mp stepped
  exact ⟨name, schema, found, acted, (Option.some.inj same).symm⟩

/-- Every schema that has tables belongs to an engine, and is sound for its key. -/
structure World.Sound (manager : EngineManager) (metadata : Metadata) (steps : Nat) (world : World) : Prop where
  schemas : ∀ key name, manager.engines.lookup key = some name → Ignition.Sound metadata key steps (world name)
  known : ∀ name table relation, world name table = some relation →
    ∃ key, manager.engines.lookup key = some name

theorem step_sound (one : OneToOne manager) (sound : World.Sound manager metadata steps world)
    (stepped : step manager metadata world action = some next) :
    World.Sound manager metadata (steps + 1) next := by
  obtain ⟨name, schema, found, acted, rfl⟩ := step_cases stepped
  constructor
  · intro key other here
    by_cases same : other = name
    · subst same
      obtain rfl := lookup_injective one here found
      rw [Function.update_self]
      exact act_sound (sound.schemas _ _ here) acted
    · rw [Function.update_of_ne same]
      intro table relation member
      exact ⟨(sound.schemas key other here table relation member).1,
        (sound.schemas key other here table relation member).2.later⟩
  · intro other table relation member
    by_cases same : other = name
    · exact ⟨action.key, same ▸ found⟩
    · rw [Function.update_of_ne same] at member
      exact sound.known other table relation member

theorem run_sound (one : OneToOne manager) (sound : World.Sound manager metadata steps world)
    (ran : Runs.run (step manager metadata) world events = some next) :
    World.Sound manager metadata (steps + events.length) next := by
  induction events generalizing world steps with
  | nil =>
    cases ran
    exact sound
  | cons action events ih =>
    obtain ⟨between, stepped, ran⟩ := Option.bind_eq_some_iff.mp ran
    have after := ih (step_sound one sound stepped) ran
    rw [Nat.add_assoc, Nat.add_comm 1] at after
    exact after

theorem nothing_sound (manager : EngineManager) (metadata : Metadata) :
    World.Sound manager metadata 0 nothing :=
  ⟨fun _ _ _ _ _ found => (Option.some_ne_none _ found.symm).elim,
    fun _ _ _ found => (Option.some_ne_none _ found.symm).elim⟩

theorem unchecked_other (other : key ≠ action.key) :
    key ∈ uncheckedAfter unchecked action ↔ key ∈ unchecked := by
  have filtered : ∀ checked, key ≠ checked → (key ∈ unchecked.filter (· ≠ checked) ↔ key ∈ unchecked) :=
    fun checked apart => List.mem_filter.trans (and_iff_left (decide_eq_true apart))
  cases action with
  | initDb | create | delete => rfl
  | restart => exact List.mem_cons.trans (or_iff_right other)
  | verify => exact filtered _ other
  | reset _ dryRun =>
    cases dryRun with
    | true => rfl
    | false => exact filtered _ other

theorem unchecked_here (checked : action.key ∉ uncheckedAfter unchecked action) :
    action.checks = true ∨ action.key ∉ unchecked ∧ action.restarts = false := by
  cases action with
  | initDb | create | delete => exact .inr ⟨checked, rfl⟩
  | restart => exact absurd List.mem_cons_self checked
  | verify => exact .inl rfl
  | reset _ dryRun =>
    cases dryRun with
    | true => exact .inr ⟨checked, rfl⟩
    | false => exact .inl rfl

/-- Counters are right unless they are unchecked, and ids are right anyway. -/
structure World.Safe (manager : EngineManager) (unchecked : List Nat) (world : World) : Prop where
  verified : ∀ key name, manager.engines.lookup key = some name → key ∉ unchecked → Verified key (world name)
  routed : ∀ key name, manager.engines.lookup key = some name → Routed key (world name)

theorem step_safe (one : OneToOne manager) (sound : World.Sound manager metadata steps world)
    (few : steps + 2 < 2 ^ 48) (safe : World.Safe manager unchecked world)
    (guard : action.creates = true → action.key ∉ unchecked)
    (stepped : step manager metadata world action = some next) :
    World.Safe manager (uncheckedAfter unchecked action) next := by
  obtain ⟨name, schema, found, acted, rfl⟩ := step_cases stepped
  constructor
  · intro key other here checked
    by_cases same : other = name
    · subst same
      obtain rfl := lookup_injective one here found
      rw [Function.update_self]
      have before := (unchecked_here checked).imp_right fun before =>
        And.intro (safe.verified _ _ here before.1) before.2
      exact act_verified (sound.schemas _ _ here) few acted before
    · rw [Function.update_of_ne same]
      have apart : key ≠ action.key := by
        rintro rfl
        exact same (Option.some.inj (here.symm.trans found))
      exact safe.verified key other here fun member => checked ((unchecked_other apart).mpr member)
  · intro key other here
    by_cases same : other = name
    · subst same
      obtain rfl := lookup_injective one here found
      rw [Function.update_self]
      exact act_routed (safe.routed _ _ here) (fun creates => safe.verified _ _ here (guard creates)) acted
    · rw [Function.update_of_ne same]
      exact safe.routed key other here

theorem run_safe (one : OneToOne manager) (sound : World.Sound manager metadata steps world)
    (few : steps + events.length + 2 < 2 ^ 48) (safe : World.Safe manager unchecked world)
    (guards : guarded unchecked events = true)
    (ran : Runs.run (step manager metadata) world events = some next) :
    ∃ after, World.Safe manager after next := by
  induction events generalizing world steps unchecked with
  | nil =>
    cases ran
    exact ⟨unchecked, safe⟩
  | cons action events ih =>
    obtain ⟨between, stepped, ran⟩ := Option.bind_eq_some_iff.mp ran
    obtain ⟨guard, guards⟩ := Bool.and_eq_true_iff.mp guards
    have allowed : action.creates = true → action.key ∉ unchecked := by
      intro creates
      simpa [creates] using guard
    rw [List.length_cons] at few
    have sounder := step_sound one sound stepped
    exact ih sounder (by omega) (step_safe one sound (by omega) safe allowed stepped) guards ran

theorem nothing_safe (manager : EngineManager) : World.Safe manager [] nothing :=
  ⟨fun _ _ _ _ _ _ _ counts => (Option.some_ne_none _ counts.symm).elim,
    fun _ _ _ _ _ _ found => (Option.some_ne_none _ found.symm).elim⟩

/-- Whatever happened, the tables are such as are paged over shard by shard. -/
theorem paged_cluster (one : OneToOne manager) (sound : World.Sound manager metadata steps world)
    (few : steps + 1 < 2 ^ 48) (table : String) : ∃ cluster : ShardPaging.Cluster Unit,
      cluster.engines = manager.engines.map Prod.fst ∧ ∀ key name rows, manager.engines.lookup key = some name →
        world name table = some (.counted rows) → (cluster.table key).map (·.id) = rows.ids := by
  have chosen : ∀ key, ∃ rows : AutoIncrement, (∀ id ∈ rows.ids, shardKeyForId id = key ∨ Legacy id) ∧
      ∀ name found, manager.engines.lookup key = some name → world name table = some (.counted found) →
        found = rows := by
    intro key
    by_cases counted : ∃ name rows, manager.engines.lookup key = some name ∧
        world name table = some (.counted rows)
    · obtain ⟨name, rows, here, found⟩ := counted
      have drawn := (sound.schemas key name here table _ found).2
      refine ⟨rows, fun id member => near_shard (AutoIncrement.Drawn.rows drawn id member) few, ?_⟩
      intro other again there held
      obtain rfl := Option.some.inj (here.symm.trans there)
      exact (Relation.counted.inj (Option.some.inj (found.symm.trans held))).symm
    · refine ⟨.empty, fun id member => absurd member List.not_mem_nil, fun name found here held => ?_⟩
      exact absurd ⟨name, found, here, held⟩ counted
  choose rows ids unique using chosen
  have same : ∀ key, ((rows key).ids.map fun id => ShardPaging.Row.mk id ()).map (·.id) = (rows key).ids := by
    intro key
    rw [List.map_map]
    exact List.map_id _
  refine ⟨⟨manager.engines.map Prod.fst, one.keys, fun key => (rows key).ids.map fun id => ⟨id, ()⟩,
    ?_, ?_, ?_⟩, rfl, ?_⟩
  · intro key
    rw [same]
    exact (rows key).distinct
  · intro key row member
    obtain ⟨id, among, rfl⟩ := List.mem_map.mp member
    exact ((rows key).below id among).1
  · intro key row member
    obtain ⟨id, among, rfl⟩ := List.mem_map.mp member
    exact ids key id among
  · intro key name found here held
    rw [unique key name found here held]
    exact same key

/-- However shards are set up, used and restarted, an id has the key of its shard in the upper bits, or none. If
no object is created in a shard that restarted before its counters were verified or reset, a session for the
id of any row is one of the database that has the row, and no other database has a row of this id. -/
theorem sessions_find_rows {databases : List Database} {includeDisabled : Bool} {manager : EngineManager}
    (made : engineManager databases includeDisabled = .ok manager) (metadata : Metadata) (events : List Action)
    (world : World) (ran : Runs.run (step manager metadata) nothing events = some world)
    (few : events.length + 2 < 2 ^ 48) :
    (∀ key name table relation, manager.engines.lookup key = some name → world name table = some relation →
      ∀ id ∈ relation.ids, shardKeyForId id = key ∨ Legacy id) ∧
    (guarded [] events = true → ∀ name table relation, table ≠ "contactsearchindexcursor" →
      world name table = some relation → ∀ id ∈ relation.ids, manager.getForId id = some name ∧
        ∀ other there, other ≠ name → world other table = some there → id ∉ there.ids) := by
  have one := engineManager_oneToOne made
  have sound := run_sound one (nothing_sound manager metadata) ran
  rw [Nat.zero_add] at sound
  constructor
  · intro key name table relation here found id member
    exact near_shard ((sound.schemas key name here table relation found).2.near id member) (by omega)
  · intro guards
    have start := nothing_sound manager metadata
    obtain ⟨_, safe⟩ := run_safe one start (by omega) (nothing_safe manager) guards ran
    have routes : ∀ name table relation, table ≠ "contactsearchindexcursor" → world name table = some relation →
        ∀ id ∈ relation.ids, manager.getForId id = some name := by
      intro name table relation other found id member
      obtain ⟨key, here⟩ := sound.known name table relation found
      rw [EngineManager.getForId, safe.routed key name here table relation other found id member, here]
    intro name table relation other found id member
    refine ⟨routes name table relation other found id member, fun elsewhere there apart held again => ?_⟩
    have twice := routes elsewhere table there other held id again
    rw [routes name table relation other found id member] at twice
    exact apart (Option.some.inj twice).symm

/-- Two shards, the second of which restarts when it is empty again. -/
theorem second_shard_restarted :
    let databases : List Database := [⟨none, [⟨0, "first", false⟩, ⟨1, "second", false⟩]⟩]
    let metadata : Metadata := ⟨[⟨"account", none⟩, ⟨"imapaccount", some "account"⟩], by simp⟩
    let events : List Action := [.initDb [] 0, .initDb [0] 1, .create (1 <<< 48) "account" ["imapaccount"] true,
      .delete (1 <<< 48) ["account", "imapaccount"] (1 <<< 48 + 1), .restart 1, .reset 1 false,
      .create (1 <<< 48) "account" ["imapaccount"] true]
    ∃ manager world relation, engineManager databases false = .ok manager ∧
      Runs.run (step manager metadata) nothing events = some world ∧
      world "second" "imapaccount" = some relation ∧ relation.ids = [1 <<< 48 + 1] ∧
      manager.getForId (1 <<< 48 + 1) = some "second" := by
  intro databases metadata events
  have opened : ∃ manager, engineManager databases false = .ok manager := ⟨_, rfl⟩
  obtain ⟨manager, made⟩ := opened
  have ended : ∃ world relation, Runs.run (step manager metadata) nothing events = some world ∧
      world "second" "imapaccount" = some relation ∧ relation.ids = [1 <<< 48 + 1] := by
    cases made
    exact ⟨_, _, rfl, rfl, rfl⟩
  obtain ⟨world, relation, ran, found, ids⟩ := ended
  have member : 1 <<< 48 + 1 ∈ relation.ids := by
    rw [ids]
    exact List.mem_singleton_self _
  have routed := (sessions_find_rows made metadata events world ran (by decide)).2 (by decide) "second"
    "imapaccount" relation (by decide) found (1 <<< 48 + 1) member
  exact ⟨manager, world, relation, made, ran, found, ids, routed.1⟩

end Runs

end Ignition
end SyncEngine
