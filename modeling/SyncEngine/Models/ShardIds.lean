import Mathlib.Data.List.Induction
import SyncEngine.Api.ShardPaging
import SyncEngine.Util.AutoIncrement
import SyncEngine.Util.Feed
import SyncEngine.Util.Lookup

/-! Which database an id belongs to. A table of each shard counts from the shard's key in the upper bits, and a
session for an id is one of the database that the upper bits name; but a server that restarts forgets where an
empty table had to count from. -/
namespace SyncEngine
namespace Ignition
open ShardPaging (shardKeyForId Legacy)

/-! ## The engines -/

structure Shard where
  id : Nat
  schemaName : String
  disabled : Bool

/-- One of `DATABASE_HOSTS` -/
structure Database where
  zone : Option String
  shards : List Shard

/-- An engine is known by the schema it connects to. -/
structure EngineManager where
  engines : List (Nat × String)
  engineZones : List (Nat × Option String)

structure Setup extends EngineManager where
  keys : List Nat
  schemaNames : List String

def addShard (includeDisabled : Bool) (zone : Option String) (setup : Setup) (shard : Shard) :
    Except String Setup :=
  let key := shard.id
  let schemaName := shard.schemaName
  if key ∈ setup.keys then .error ("Shard key collision: key " ++ toString key ++ " is repeated")
  else if schemaName ∈ setup.schemaNames then .error ("Shard name collision: " ++ schemaName ++ " is repeated")
  else
    let setup := { setup with keys := key :: setup.keys, schemaNames := schemaName :: setup.schemaNames }
    if shard.disabled && !includeDisabled then .ok setup
    else .ok { setup with
      engines := (key, schemaName) :: setup.engines
      engineZones := (key, zone) :: setup.engineZones }

/-- `EngineManager.__init__` -/
def engineManager (databases : List Database) (includeDisabled : Bool) : Except String EngineManager := do
  let setup ← databases.foldlM
    (fun setup database => database.shards.foldlM (addShard includeDisabled database.zone) setup)
    ⟨⟨[], []⟩, [], []⟩
  return setup.toEngineManager

namespace EngineManager
variable (manager : EngineManager)

/-- `none` is a `KeyError`. -/
def getForId (id : Nat) : Option String := manager.engines.lookup (shardKeyForId id)

def zoneForId (id : Nat) : Option (Option String) := manager.engineZones.lookup (shardKeyForId id)

end EngineManager

/-! ## The tables -/

/-- The id of an inherited table is a foreign key, not a counter. -/
inductive Relation
  | counted (rows : AutoIncrement)
  | inherited (rows : List Nat)

namespace Relation

/-- `AUTO_INCREMENT` of `information_schema.TABLES` -/
def increment : Relation → Option Nat
  | counted rows => some rows.increment
  | inherited _ => none

def ids : Relation → List Nat
  | counted rows => rows.ids
  | inherited rows => rows

def alter (n : Nat) : Relation → Relation
  | counted rows => counted (rows.alter n)
  | inherited rows => inherited rows

def restart : Relation → Relation
  | counted rows => counted rows.restart
  | inherited rows => inherited rows

def delete (id : Nat) : Relation → Relation
  | counted rows => counted (rows.delete id)
  | inherited rows => inherited (rows.filter (· ≠ id))

theorem delete_increment (relation : Relation) (id : Nat) :
    (relation.delete id).increment = relation.increment := by
  cases relation <;> rfl

theorem mem_delete {relation : Relation} {id row : Nat} (member : id ∈ (relation.delete row).ids) :
    id ∈ relation.ids := by
  cases relation with
  | counted rows | inherited rows => exact (List.mem_filter.mp member).1

theorem restart_ids (relation : Relation) : relation.restart.ids = relation.ids := by
  cases relation <;> rfl

theorem alter_ids (relation : Relation) (n : Nat) : (relation.alter n).ids = relation.ids := by
  cases relation <;> rfl

/-- A row of an inherited table has the id of its row in the parent table. -/
def add (id : Nat) : Relation → Relation
  | counted rows => counted rows
  | inherited rows => inherited (id :: rows)

theorem add_increment (relation : Relation) (id : Nat) : (relation.add id).increment = relation.increment := by
  cases relation <;> rfl

theorem mem_add {relation : Relation} {id new : Nat} (member : id ∈ (relation.add new).ids) :
    id = new ∨ id ∈ relation.ids := by
  cases relation with
  | counted rows => exact .inr member
  | inherited rows => exact List.mem_cons.mp member

end Relation

structure Table where
  name : String
  parent : Option String

/-- `MailSyncBase.metadata`; no model inherits from the one table that is not verified. -/
structure Metadata where
  sortedTables : List Table
  cursor_alone : ∀ table ∈ sortedTables, table.parent ≠ some "contactsearchindexcursor"

abbrev Schema := String → Option Relation

variable (manager : EngineManager) (metadata : Metadata)

def increment (key : Nat) : Nat := key <<< 48 + 1

/-- The listeners stay with the tables of the process: one for each earlier call runs before this one's. -/
def created (keys : List Nat) (table : Table) : Relation :=
  keys.foldl (fun relation key => relation.alter (increment key)) <|
    match table.parent with
    | none => .counted .empty
    | some _ => .inherited []

/-- `init_db` in a process that called it for `earlier` keys; tables that exist are not created. -/
def initDb (earlier : List Nat) (key : Nat) (schema : Schema) : Schema := fun name =>
  match schema name with
  | some relation => some relation
  | none => (metadata.sortedTables.find? (·.name = name)).map (created (earlier ++ [key]))

inductive VerifyError
  | increment (table : String) (increment key : Nat)
  | parentNotVerified (table : String)
  | indexError

/-- The loop of `verify_db` -/
def verifyTables (key : Nat) (schema : Schema) : List Table → List String → Except VerifyError Unit
  | [], _ => .ok ()
  | table :: tables, verified =>
    if table.name = "contactsearchindexcursor" then verifyTables key schema tables verified
    else match (schema table.name).bind Relation.increment with
      | some increment =>
        if shardKeyForId increment = key then verifyTables key schema tables (table.name :: verified)
        else .error (.increment table.name increment key)
      | none => match table.parent with
        | some parent =>
          if parent ∈ verified then verifyTables key schema tables (table.name :: verified)
          else .error (.parentNotVerified table.name)
        | none => .error .indexError

def verifyDb (key : Nat) (schema : Schema) : Except VerifyError Unit := 
  verifyTables key schema metadata.sortedTables []

/-- The loop of `reset_invalid_autoincrements` -/
def resetTables (key : Nat) (dryRun : Bool) : List Table → Schema × List String → Schema × List String
  | [], result => result
  | table :: tables, (schema, reset) =>
    match (schema table.name).bind Relation.increment with
    | some current =>
      if shardKeyForId current ≠ key then
        let altered := if dryRun then schema
          else Function.update schema table.name ((schema table.name).map (.alter (increment key)))
        resetTables key dryRun tables (altered, table.name :: reset)
      else resetTables key dryRun tables (schema, reset)
    | none => resetTables key dryRun tables (schema, reset)

def resetInvalidAutoincrements (key : Nat) (dryRun : Bool) (schema : Schema) : Schema × List String :=
  resetTables key dryRun metadata.sortedTables (schema, [])

/-! ## Every database -/

inductive Action
  | initDb (earlier : List Nat) (key : Nat)
  /-- A session for an id adds an object, with a row in each table that its class inherits. -/
  | create (id : Nat) (table : String) (inheriting : List String) (commits : Bool)
  | delete (id : Nat) (tables : List String) (row : Nat)
  /-- The server restarts. -/
  | restart (key : Nat)
  /-- `verify_db` returns. -/
  | verify (key : Nat)
  | reset (key : Nat) (dryRun : Bool)

namespace Action

/-- `session_scope` opens a session for the id. -/
def key : Action → Nat
  | initDb _ key => key
  | create id .. => shardKeyForId id
  | delete id .. => shardKeyForId id
  | restart key => key
  | verify key => key
  | reset key _ => key

def creates : Action → Bool
  | create .. => true
  | _ => false

def checks : Action → Bool
  | verify _ => true
  | reset _ dryRun => !dryRun
  | _ => false

def restarts : Action → Bool
  | restart _ => true
  | _ => false

end Action

/-- Each of the tables inherits from the one before. -/
def inherits (metadata : Metadata) (table : String) : List String → Bool
  | [] => true
  | child :: rest => metadata.sortedTables.any (fun entry => entry.name = child ∧ entry.parent = some table) &&
    inherits metadata child rest

def insert (schema : Schema) (table : String) (inheriting : List String) (commits : Bool) : Option Schema :=
  match schema table with
  | some (.counted rows) =>
    if inherits metadata table inheriting && inheriting.all fun name => (schema name).isSome then
      some fun name =>
        if name = table then some (.counted (rows.insert commits))
        else if commits && inheriting.contains name then (schema name).map (.add rows.increment)
        else schema name
    else none
  | _ => none

def act (key : Nat) (schema : Schema) : Action → Option Schema
  | .initDb earlier _ => some (initDb metadata earlier key schema)
  | .create _ table inheriting commits => insert metadata schema table inheriting commits
  | .delete _ tables row =>
    some fun name => if name ∈ tables then (schema name).map (.delete row) else schema name
  | .restart _ => some fun name => (schema name).map .restart
  | .verify _ =>
    match verifyDb metadata key schema with
    | .ok () => some schema
    | .error _ => none
  | .reset _ dryRun => some (resetInvalidAutoincrements metadata key dryRun schema).1

abbrev World := String → Schema

def nothing : World := fun _ _ => none

def step (world : World) (action : Action) : Option World := do
  let name ← manager.engines.lookup action.key
  let next ← act metadata action.key (world name) action
  return Function.update world name next

/-! ## Restarted servers -/

/-- The shards whose server restarted and whose counters were not looked at since. -/
def uncheckedAfter (unchecked : List Nat) : Action → List Nat
  | .restart key => key :: unchecked
  | .verify key => unchecked.filter (· ≠ key)
  | .reset key dryRun => if dryRun then unchecked else unchecked.filter (· ≠ key)
  | _ => unchecked

/-- No object is created in a shard whose counters are unchecked. -/
def guarded (unchecked : List Nat) : List Action → Bool
  | [] => true
  | action :: actions => (!action.creates || !unchecked.contains action.key) &&
    guarded (uncheckedAfter unchecked action) actions

/-! ## What the configuration is checked for -/
section Engines

/-- Keys and names belong together, one of each. -/
structure OneToOne (manager : EngineManager) : Prop where
  keys : (manager.engines.map Prod.fst).Nodup
  names : (manager.engines.map Prod.snd).Nodup
  zones : manager.engineZones.map Prod.fst = manager.engines.map Prod.fst

structure Setup.Sound (setup : Setup) : Prop where
  oneToOne : OneToOne setup.toEngineManager
  keys : ∀ key ∈ setup.engines.map Prod.fst, key ∈ setup.keys
  names : ∀ name ∈ setup.engines.map Prod.snd, name ∈ setup.schemaNames

theorem addShard_sound {includeDisabled : Bool} {zone : Option String} {setup next : Setup} {shard : Shard}
    (sound : setup.Sound) (added : addShard includeDisabled zone setup shard = .ok next) : next.Sound := by
  dsimp only [addShard] at added
  split at added
  · cases added
  · rename_i new_key
    split at added
    · cases added
    · rename_i new_name
      split at added
      · cases added
        exact ⟨sound.oneToOne, fun key member => List.mem_cons_of_mem _ (sound.keys key member),
          fun name member => List.mem_cons_of_mem _ (sound.names name member)⟩
      · cases added
        refine ⟨⟨?_, ?_, congrArg (shard.id :: ·) sound.oneToOne.zones⟩, ?_, ?_⟩
        · exact List.nodup_cons.mpr ⟨fun member => new_key (sound.keys _ member), sound.oneToOne.keys⟩
        · exact List.nodup_cons.mpr ⟨fun member => new_name (sound.names _ member), sound.oneToOne.names⟩
        · exact fun key member => List.mem_cons.mpr ((List.mem_cons.mp member).imp_right (sound.keys key))
        · exact fun name member => List.mem_cons.mpr ((List.mem_cons.mp member).imp_right (sound.names name))

theorem engineManager_oneToOne {databases : List Database} {includeDisabled : Bool} {manager : EngineManager}
    (made : engineManager databases includeDisabled = .ok manager) : OneToOne manager := by
  unfold engineManager at made
  cases set : databases.foldlM (fun setup database =>
      database.shards.foldlM (addShard includeDisabled database.zone) setup) ⟨⟨[], []⟩, [], []⟩ with
  | error message =>
    rw [set] at made
    cases made
  | ok setup =>
    rw [set] at made
    cases made
    have empty : Setup.Sound ⟨⟨[], []⟩, [], []⟩ := ⟨⟨List.nodup_nil, List.nodup_nil, rfl⟩, by simp, by simp⟩
    have each : ∀ (setup : Setup) (database : Database) (next : Setup), setup.Sound →
        database.shards.foldlM (addShard includeDisabled database.zone) setup = .ok next → next.Sound :=
      fun setup database next sound ran => Feed.keeps Setup.Sound (fun _ _ _ => addShard_sound) sound ran
    exact (Feed.keeps Setup.Sound each empty set).oneToOne

end Engines

/-! ## Where the ids of a schema come from -/
section Counting
open AutoIncrement (Near)
variable {metadata} {key steps n : Nat} {schema next : Schema} {action : Action}

theorem near_shard (near : Near [1, increment key] steps n) (few : steps + 1 < 2 ^ 48) :
    shardKeyForId n = key ∨ Legacy n := by
  obtain ⟨origin, among, above, close⟩ := near
  rw [Legacy, shardKeyForId, Nat.shiftRight_eq_div_pow]
  rcases List.mem_cons.mp among with rfl | among
  · omega
  · rw [List.mem_singleton.mp among, increment, Nat.shiftLeft_eq] at above close
    omega

theorem shard_next (here : shardKeyForId n = key) (near : Near [1, increment key] steps n)
    (few : steps + 2 < 2 ^ 48) : shardKeyForId (n + 1) = key := by
  obtain ⟨origin, among, above, close⟩ := near
  rw [shardKeyForId, Nat.shiftRight_eq_div_pow] at here ⊢
  rcases List.mem_cons.mp among with rfl | among
  · omega
  · rw [List.mem_singleton.mp among, increment, Nat.shiftLeft_eq] at above close
    omega

theorem shard_increment (key : Nat) : shardKeyForId (increment key) = key := by
  rw [shardKeyForId, increment, Nat.shiftRight_eq_div_pow, Nat.shiftLeft_eq]
  omega

theorem shard_above (above : increment key ≤ n) (near : Near [1, increment key] steps n)
    (few : steps + 1 < 2 ^ 48) : shardKeyForId n = key := by
  obtain ⟨origin, among, -, close⟩ := near
  rw [increment, Nat.shiftLeft_eq] at above
  rw [shardKeyForId, Nat.shiftRight_eq_div_pow]
  rcases List.mem_cons.mp among with rfl | among
  · omega
  · rw [List.mem_singleton.mp among, increment, Nat.shiftLeft_eq] at close
    omega

def Relation.Drawn (origins : List Nat) (steps : Nat) : Relation → Prop
  | counted rows => rows.Drawn origins steps
  | inherited rows => ∀ id ∈ rows, Near origins steps id

variable {relation : Relation} {origins : List Nat}

theorem Relation.Drawn.near (drawn : relation.Drawn origins steps) :
    ∀ id ∈ relation.ids, Near origins steps id := by
  cases relation with
  | counted rows => exact AutoIncrement.Drawn.rows drawn
  | inherited rows => exact drawn

theorem Relation.Drawn.later (drawn : relation.Drawn origins steps) : relation.Drawn origins (steps + 1) := by
  cases relation with
  | counted rows => exact AutoIncrement.Drawn.later drawn
  | inherited rows => exact fun id member => (drawn id member).later

theorem Relation.Drawn.delete (drawn : relation.Drawn origins steps) (id : Nat) :
    (relation.delete id).Drawn origins (steps + 1) := by
  cases relation with
  | counted rows => exact AutoIncrement.Drawn.delete drawn id
  | inherited rows => exact fun other member => (drawn other (List.mem_filter.mp member).1).later

theorem Relation.Drawn.restart (drawn : relation.Drawn origins steps) (first : 1 ∈ origins) :
    relation.restart.Drawn origins (steps + 1) := by
  cases relation with
  | counted rows => exact AutoIncrement.Drawn.restart drawn first
  | inherited rows => exact drawn.later

theorem Relation.Drawn.add (drawn : relation.Drawn origins steps) (near : Near origins steps n) :
    (relation.add n).Drawn origins (steps + 1) := by
  cases relation with
  | counted rows => exact drawn.later
  | inherited rows =>
    intro id member
    rcases List.mem_cons.mp member with rfl | earlier
    · exact near.later
    · exact (drawn id earlier).later

/-- What resetting does to one table. -/
def corrected (key : Nat) (relation : Relation) : Relation :=
  match relation with
  | .counted rows =>
    if shardKeyForId rows.increment ≠ key then .counted (rows.alter (increment key)) else .counted rows
  | .inherited rows => .inherited rows

theorem corrected_twice : corrected key (corrected key relation) = corrected key relation := by
  cases relation with
  | inherited rows => rfl
  | counted rows =>
    by_cases right : shardKeyForId rows.increment ≠ key
    · rw [corrected, if_pos right, corrected, AutoIncrement.alter_alter, ite_self]
    · rw [corrected, if_neg right, corrected, if_neg right]

theorem corrected_ids (relation : Relation) : (corrected key relation).ids = relation.ids := by
  cases relation with
  | inherited rows => rfl
  | counted rows =>
    by_cases right : shardKeyForId rows.increment ≠ key
    · have fixed : corrected key (.counted rows) = (Relation.counted rows).alter (increment key) := if_pos right
      rw [fixed, Relation.alter_ids]
    · have kept : corrected key (.counted rows) = .counted rows := if_neg right
      rw [kept]

theorem corrected_drawn (drawn : relation.Drawn [1, increment key] steps) :
    (corrected key relation).Drawn [1, increment key] (steps + 1) := by
  cases relation with
  | inherited rows => exact drawn.later
  | counted rows =>
    rw [corrected]
    split
    · exact AutoIncrement.Drawn.alter drawn (by simp) (by simp)
    · exact drawn.later

theorem resetTables_eq (tables : List Table) (schema : Schema) (reset : List String) :
    (resetTables key false tables (schema, reset)).1 = fun name =>
      if name ∈ tables.map Table.name then (schema name).map (corrected key) else schema name := by
  induction tables generalizing schema reset with
  | nil => simp [resetTables]
  | cons table tables ih =>
    have stepped : ∃ reset', (resetTables key false (table :: tables) (schema, reset)).1 =
        (resetTables key false tables
          (Function.update schema table.name ((schema table.name).map (corrected key)), reset')).1 := by
      have kept : (schema table.name).map (corrected key) = schema table.name →
          Function.update schema table.name ((schema table.name).map (corrected key)) = schema := by
        intro same
        rw [same, Function.update_eq_self]
      cases found : schema table.name with
      | none =>
        refine ⟨reset, ?_⟩
        rw [← found, kept (by rw [found, Option.map_none]), resetTables, found]
        rfl
      | some relation =>
        cases relation with
        | inherited rows =>
          refine ⟨reset, ?_⟩
          rw [← found, kept (by rw [found]; rfl), resetTables, found]
          rfl
        | counted rows =>
          by_cases right : shardKeyForId rows.increment ≠ key
          · refine ⟨table.name :: reset, ?_⟩
            have fixed : corrected key (.counted rows) = .counted (rows.alter (increment key)) := if_pos right
            rw [Option.map_some, fixed, resetTables, found]
            exact congrArg Prod.fst (if_pos right)
          · refine ⟨reset, ?_⟩
            have fixed : corrected key (.counted rows) = .counted rows := if_neg right
            rw [← found, kept (by rw [found, Option.map_some, fixed]), resetTables, found]
            exact congrArg Prod.fst (if_neg right)
    obtain ⟨reset', stepped⟩ := stepped
    rw [stepped, ih]
    funext name
    by_cases same : name = table.name
    · subst same
      simp [corrected_twice, Function.comp_def]
    · simp [same]

theorem resetTables_dryRun (tables : List Table) (schema : Schema) (reset : List String) :
    (resetTables key true tables (schema, reset)).1 = schema := by
  induction tables generalizing reset with
  | nil => rfl
  | cons table tables ih =>
    rw [resetTables]
    split
    · split
      · exact ih _
      · exact ih _
    · exact ih _

/-- The schema has tables of the metadata only, and their ids come from where its tables may begin. -/
def Sound (metadata : Metadata) (key steps : Nat) (schema : Schema) : Prop :=
  ∀ table relation, schema table = some relation →
    table ∈ metadata.sortedTables.map Table.name ∧ relation.Drawn [1, increment key] steps

theorem created_concat (earlier : List Nat) (table : Table) :
    created (earlier ++ [key]) table = (created earlier table).alter (increment key) :=
  List.foldl_concat _ _ _ _

theorem created_ids (keys : List Nat) (table : Table) : (created keys table).ids = [] := by
  induction keys using List.reverseRecOn with
  | nil =>
    obtain ⟨name, parent⟩ := table
    cases parent <;> rfl
  | append_singleton keys key ih =>
    rw [created_concat, Relation.alter_ids, ih]

/-- The last of the listeners decides. -/
theorem created_increment (earlier : List Nat) (table : Table)
    (counts : (created (earlier ++ [key]) table).increment = some n) : n = increment key := by
  rw [created_concat] at counts
  have fresh := created_ids earlier table
  cases made : created earlier table with
  | inherited rows =>
    rw [made] at counts
    cases counts
  | counted rows =>
    rw [made] at counts fresh
    have begins := AutoIncrement.alter_fresh fresh (Nat.succ_pos (key <<< 48))
    exact (Option.some.inj counts).symm.trans begins

theorem created_drawn (earlier : List Nat) (table : Table) (steps : Nat) :
    (created (earlier ++ [key]) table).Drawn [1, increment key] steps := by
  have fresh := created_ids (earlier ++ [key]) table
  have begins := fun n => @created_increment key n earlier table
  cases made : created (earlier ++ [key]) table with
  | inherited rows =>
    rw [made] at fresh
    obtain rfl : rows = [] := fresh
    simp [Relation.Drawn]
  | counted rows =>
    rw [made] at fresh begins
    have counter := begins _ rfl
    constructor
    · rw [counter]
      exact ⟨increment key, by simp, Nat.le_refl _, Nat.le_add_right _ _⟩
    · intro id member
      rw [show rows.ids = [] from fresh] at member
      cases member

theorem insert_cases {table : String} {inheriting : List String} {commits : Bool}
    (inserted : insert metadata schema table inheriting commits = some next) :
    ∃ rows, schema table = some (.counted rows) ∧ inherits metadata table inheriting = true ∧
      next = fun name => if name = table then some (.counted (rows.insert commits))
        else if commits && inheriting.contains name then (schema name).map (.add rows.increment)
        else schema name := by
  unfold insert at inserted
  split at inserted
  · rename_i rows found
    split at inserted
    · rename_i allowed
      rw [Bool.and_eq_true] at allowed
      cases inserted
      exact ⟨rows, found, allowed.1, rfl⟩
    · cases inserted
  · cases inserted

/-- What an action makes of one table. -/
inductive Change (metadata : Metadata) (key : Nat) (schema : Schema) (table : String) : Action → Relation → Prop
  | kept {action : Action} {old : Relation} (found : schema table = some old)
    (running : action.restarts = false) (checked : action.checks = true → verifyDb metadata key schema = .ok () ∨
      table ∉ metadata.sortedTables.map Table.name) : Change metadata key schema table action old
  | created {earlier : List Nat} {k : Nat} {entry : Table} (among : entry ∈ metadata.sortedTables)
    (named : entry.name = table) :
    Change metadata key schema table (.initDb earlier k) (created (earlier ++ [key]) entry)
  | inserted {id : Nat} {inheriting : List String} {commits : Bool} {rows : AutoIncrement}
    (found : schema table = some (.counted rows)) :
    Change metadata key schema table (.create id table inheriting commits) (.counted (rows.insert commits))
  | added {id : Nat} {root : String} {inheriting : List String} {commits : Bool} {rows : AutoIncrement}
    {old : Relation} (begins : schema root = some (.counted rows)) (other : root ≠ "contactsearchindexcursor")
    (found : schema table = some old) :
    Change metadata key schema table (.create id root inheriting commits) (old.add rows.increment)
  | deleted {id row : Nat} {tables : List String} {old : Relation} (found : schema table = some old) :
    Change metadata key schema table (.delete id tables row) (old.delete row)
  | restarted {k : Nat} {old : Relation} (found : schema table = some old) :
    Change metadata key schema table (.restart k) old.restart
  | reset {k : Nat} {old : Relation} (found : schema table = some old) :
    Change metadata key schema table (.reset k false) (corrected key old)

theorem inherits_root {table : String} {inheriting : List String}
    (chain : inherits metadata table inheriting = true) (some_child : inheriting ≠ []) :
    table ≠ "contactsearchindexcursor" := by
  rintro rfl
  cases inheriting with
  | nil => exact some_child rfl
  | cons child rest =>
    obtain ⟨entry, among, named⟩ := List.any_eq_true.mp (Bool.and_eq_true_iff.mp chain).1
    exact metadata.cursor_alone entry among (of_decide_eq_true named).2

theorem insert_change {id : Nat} {table : String} {inheriting : List String} {commits : Bool}
    (inserted : insert metadata schema table inheriting commits = some next) {name : String}
    {relation : Relation} (after : next name = some relation) :
    Change metadata key schema name (.create id table inheriting commits) relation := by
  obtain ⟨rows, found, chain, rfl⟩ := insert_cases inserted
  dsimp only at after
  split at after
  · rename_i same
    subst same
    cases after
    exact .inserted found
  · split at after
    · rename_i child
      rw [Bool.and_eq_true] at child
      obtain ⟨old, before, rfl⟩ := Option.map_eq_some_iff.mp after
      have nonempty : inheriting ≠ [] := by
        rintro rfl
        cases child.2
      exact .added found (inherits_root chain nonempty) before
    · exact .kept after rfl Bool.false_ne_true.elim

theorem act_change (acted : act metadata key schema action = some next) {table : String} {relation : Relation}
    (after : next table = some relation) : Change metadata key schema table action relation := by
  cases action with
  | initDb earlier _ =>
    cases acted
    rw [initDb] at after
    split at after
    · rename_i known
      cases after
      exact .kept known rfl Bool.false_ne_true.elim
    · obtain ⟨entry, among, rfl⟩ := Option.map_eq_some_iff.mp after
      exact .created (List.mem_of_find?_eq_some among) (by simpa using List.find?_some among)
  | create id table inheriting commits => exact insert_change acted after
  | delete id tables row =>
    cases acted
    dsimp only at after
    split at after
    · obtain ⟨old, before, rfl⟩ := Option.map_eq_some_iff.mp after
      exact .deleted before
    · exact .kept after rfl Bool.false_ne_true.elim
  | restart _ =>
    cases acted
    obtain ⟨old, before, rfl⟩ := Option.map_eq_some_iff.mp after
    exact .restarted before
  | verify _ =>
    rw [act] at acted
    split at acted
    · rename_i passed
      cases acted
      exact .kept after rfl fun _ => .inl passed
    · cases acted
  | reset _ dryRun =>
    cases acted
    rw [resetInvalidAutoincrements] at after
    cases dryRun with
    | true =>
      rw [resetTables_dryRun] at after
      exact .kept after rfl Bool.false_ne_true.elim
    | false =>
      rw [resetTables_eq] at after
      dsimp only at after
      split at after
      · obtain ⟨old, before, rfl⟩ := Option.map_eq_some_iff.mp after
        exact .reset before
      · rename_i unknown
        exact .kept after rfl fun _ => .inr unknown

theorem act_sound (sound : Sound metadata key steps schema)
    (acted : act metadata key schema action = some next) : Sound metadata key (steps + 1) next := by
  intro table relation after
  cases act_change acted after with
  | kept found => exact ⟨(sound table _ found).1, (sound table _ found).2.later⟩
  | created among named => exact ⟨named ▸ List.mem_map_of_mem among, created_drawn _ _ _⟩
  | inserted found => exact ⟨(sound table _ found).1, AutoIncrement.Drawn.insert (sound table _ found).2 _⟩
  | added begins other found =>
    have counter := AutoIncrement.Drawn.counter (sound _ _ begins).2
    exact ⟨(sound table _ found).1, (sound table _ found).2.add counter⟩
  | deleted found => exact ⟨(sound table _ found).1, (sound table _ found).2.delete _⟩
  | restarted found => exact ⟨(sound table _ found).1, (sound table _ found).2.restart (by simp)⟩
  | reset found => exact ⟨(sound table _ found).1, corrected_drawn (sound table _ found).2⟩

end Counting

end Ignition
end SyncEngine
