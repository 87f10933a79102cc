import SyncEngine.Models.Category

/-! How the account monitor of a generic IMAP account keeps the table of folders in step with the
server's list, and which folder row each engine works on. -/
namespace SyncEngine
namespace Naming

/-- The set that `save_folder_names` compares the local names with. -/
def remoteFolderNames (rawFolders : List RawFolder) : List Unicode :=
  rawFolders.map fun raw => sanitizeName raw.displayName

/-- The categories of the local folders that are no longer present on the remote. -/
def discarded (rawFolders : List RawFolder) (t : Tables) : List Nat :=
  ((t.folders.filter (·.name ∉ remoteFolderNames rawFolders)).filterMap Folder.categoryId).filter
    fun id => (t.category? id).isSome

/-- Where the role differs, the setter of `canonical_name` also names the category. -/
def setRole (folder : Folder) (role : Option String) (t : Tables) : Tables :=
  if some folder.canonicalName ≠ role then
    let t := t.updateFolder folder.id fun row => { row with canonicalName := role.getD "" }
    match folder.categoryId with
    | none => t
    | some id => t.updateCategory id fun row => { row with name := role.getD "" }
  else t

/-- One turn of the loop that creates new folders. -/
def saveFolder (t : Tables) (raw : RawFolder) : Except Error Tables := do
  let (t, folder) ← t.findOrCreateFolder raw.displayName raw.role
  return setRole folder raw.role t

def setSyncShouldRun (kept : List Nat) (t : Tables) : Tables :=
  { t with statuses := t.statuses.map fun status =>
      if status.folderId ∈ kept then { status with syncShouldRun := true } else status }

/-- `ImapSyncMonitor.save_folder_names`. The names of an account's folders differ from each other,
so the dictionary of local folders by name holds every one of them. -/
def saveFolderNames (rawFolders : List RawFolder) (t : Tables) : Except Error Tables :=
  if some "inbox" ∈ rawFolders.map RawFolder.role then do
    let kept := (t.folders.filter (·.name ∈ remoteFolderNames rawFolders)).map Folder.id
    let t ← rawFolders.foldlM saveFolder (t.deleteCategories (discarded rawFolders t))
    return setSyncShouldRun kept t
  else .error .assertion

/-! ## One folder of the list -/

variable {t later : Tables}

/-- No two folders have one name, since a row is inserted only where a query finds none. -/
def UniqueNames (t : Tables) : Prop := t.folders.Pairwise (fun a b => a.name ≠ b.name)

/-- The row that has the name of the remote folder gets its role. -/
def assignRole (raw : RawFolder) (row : Folder) : Folder :=
  if row.name = storedName raw.displayName then { row with canonicalName := raw.role.getD "" }
  else row

/-- What saving one remote folder does. -/
structure FolderSaved (t : Tables) (raw : RawFolder) (later : Tables) : Prop where
  valid : later.Valid
  kept : ∀ id ∈ t.categories.map Category.id, id ∈ later.categories.map Category.id
  nextId : t.nextId ≤ later.nextId
  folders : (∃ row ∈ t.folders, row.name = storedName raw.displayName) ∧
      later.folders = t.folders.map (assignRole raw) ∨
    (∀ row ∈ t.folders, row.name ≠ storedName raw.displayName) ∧ ∃ row : Folder,
      t.nextId ≤ row.id ∧ row.name = storedName raw.displayName ∧
      row.canonicalName = raw.role.getD "" ∧ row.categoryId.isSome ∧
      later.folders = t.folders ++ [row]

theorem UniqueNames.eq_of_name (unique : UniqueNames t) (one : a ∈ t.folders) (other : b ∈ t.folders)
    (same : a.name = b.name) : a = b := by
  by_contra apart
  have : Std.Symm fun a b : Folder => a.name ≠ b.name := ⟨fun _ _ differ same => differ same.symm⟩
  exact unique.forall one other apart same

theorem Tables.Valid.eq_of_id (valid : t.Valid) (one : a ∈ t.folders) (other : b ∈ t.folders)
    (same : a.id = b.id) : a = b := by
  by_contra apart
  have : Std.Symm fun a b : Folder => a.id ≠ b.id := ⟨fun _ _ differ same => differ same.symm⟩
  exact valid.folderIds.forall one other apart same

/-- With names unique, updating the row that was found is updating the row of that name. -/
theorem updateFolder_role (valid : t.Valid) (unique : UniqueNames t) (member : row ∈ t.folders)
    (name : row.name = storedName raw.displayName) :
    (t.updateFolder row.id fun row => { row with canonicalName := raw.role.getD "" }).folders =
      t.folders.map (assignRole raw) := by
  refine List.map_congr_left fun other among => ?_
  unfold assignRole
  by_cases same : other.name = storedName raw.displayName
  · obtain rfl := unique.eq_of_name among member (same.trans name.symm)
    rw [if_pos rfl, if_pos name]
  · rw [if_neg same, if_neg]
    intro ids
    obtain rfl := valid.eq_of_id among member ids
    exact same name

theorem setRole_spec (role : Option String) (valid : t.Valid) (member : row ∈ t.folders) :
    (setRole row role t).Valid ∧
      (setRole row role t).categories.map Category.id = t.categories.map Category.id ∧
      (setRole row role t).nextId = t.nextId ∧ (setRole row role t).folders =
        (t.updateFolder row.id fun row => { row with canonicalName := role.getD "" }).folders := by
  have updated := valid.updateFolder row.id (fun row => { row with canonicalName := role.getD "" })
    fun _ => ⟨rfl, rfl⟩
  unfold setRole
  split
  · dsimp only
    split
    · exact ⟨updated, rfl, rfl, rfl⟩
    · exact ⟨updated.updateCategory _ fun _ => rfl, Tables.updateCategory_ids _ _ _ fun _ => rfl, rfl, rfl⟩
  · rename_i same
    refine ⟨valid, rfl, rfl, ((List.map_congr_left fun other among => ?_).trans (List.map_id _)).symm⟩
    split
    · rename_i ids
      obtain rfl := valid.eq_of_id among member ids
      rw [← not_not.mp same]
      rfl
    · rfl

theorem saveFolder_saved (valid : t.Valid) (unique : UniqueNames t)
    (saved : saveFolder t raw = .ok later) : FolderSaved t raw later := by
  unfold saveFolder Tables.findOrCreateFolder at saved
  split at saved
  · rename_i none
    have absent : ∀ row ∈ t.folders, row.name ≠ storedName raw.displayName := fun row member same =>
      absurd (List.filter_eq_nil_iff.mp none row member) (by simp [same])
    cases found : t.findOrCreateCategory (raw.role.getD "") raw.displayName .folder with
    | error =>
      rw [found] at saved
      cases saved
    | ok result =>
      obtain ⟨between, categoryId⟩ := result
      rw [found] at saved
      cases saved
      have category := Tables.findOrCreateCategory_found valid found
      let row := Folder.mk between.nextId (storedName raw.displayName) (raw.role.getD "") (some categoryId)
      have inserted := category.valid.insertFolder row rfl (by rintro _ ⟨⟩; exact category.there)
      have member : row ∈ between.folders ++ [row] := by simp
      obtain ⟨valid', ids, nextId, folders⟩ := setRole_spec raw.role inserted member
      refine {
        valid := valid'
        kept := fun id held => ids ▸ category.kept id held
        nextId := nextId ▸ category.nextId.trans (Nat.le_succ _)
        folders := .inr ⟨absent, row, category.nextId, rfl, rfl, rfl, folders.trans ?_⟩ }
      rw [← category.folders]
      refine (List.map_congr_left fun other among => ?_).trans (List.map_id _)
      split
      · rename_i same
        obtain rfl := inserted.eq_of_id among member same
        rfl
      · rfl
  · rename_i row only
    obtain ⟨member, same, _⟩ := Tables.eq_singleton_filter only
    have name : row.name = storedName raw.displayName := by simpa using same
    cases saved
    obtain ⟨valid', ids, nextId, folders⟩ := setRole_spec raw.role valid member
    exact {
      valid := valid'
      kept := fun id held => ids ▸ held
      nextId := nextId ▸ le_rfl
      folders := .inl ⟨⟨row, member, name⟩, folders.trans (updateFolder_role valid unique member name)⟩ }
  · cases saved

theorem saveFolder_found (unique : UniqueNames t) (member : row ∈ t.folders)
    (name : row.name = storedName raw.displayName) : ∃ later, saveFolder t raw = .ok later := by
  have held : row ∈ t.folders.filter (·.name = storedName raw.displayName) :=
    List.mem_filter.mpr ⟨member, by simpa using name⟩
  have distinct := unique.filter (·.name = storedName raw.displayName)
  have all : ∀ other ∈ t.folders.filter (·.name = storedName raw.displayName),
      other.name = storedName raw.displayName := fun _ among => by
    simpa using (List.mem_filter.mp among).2
  unfold saveFolder Tables.findOrCreateFolder
  generalize t.folders.filter (·.name = storedName raw.displayName) = found at *
  match found with
  | [] => cases held
  | [row] => exact ⟨_, rfl⟩
  | first :: second :: rest =>
    have apart := (List.pairwise_cons.mp distinct).1 second List.mem_cons_self
    exact absurd ((all first List.mem_cons_self).trans (all second (by simp)).symm) apart

/-! ## The whole list -/

/-- What a turn leaves of a row: all but its role. -/
def Folder.key (row : Folder) : Nat × Unicode × Option Nat := (row.id, row.name, row.categoryId)

/-- The roles of the list, assigned one after the other. -/
def assignRoles (rawFolders : List RawFolder) (row : Folder) : Folder :=
  rawFolders.foldl (fun row raw => assignRole raw row) row

@[simp] theorem assignRole_key (raw : RawFolder) (row : Folder) : (assignRole raw row).key = row.key := by
  unfold assignRole
  split <;> rfl

theorem assignRoles_role (rawFolders : List RawFolder) (row : Folder) :
    ∃ role, assignRoles rawFolders row = { row with canonicalName := role } := by
  induction rawFolders generalizing row with
  | nil => exact ⟨row.canonicalName, rfl⟩
  | cons raw rest ih =>
    obtain ⟨role, last⟩ := ih (assignRole raw row)
    refine ⟨role, last.trans ?_⟩
    unfold assignRole
    split <;> rfl

theorem assignRoles_concat (done : List RawFolder) (raw : RawFolder) (row : Folder) :
    assignRoles (done ++ [raw]) row = assignRole raw (assignRoles done row) := by
  rw [assignRoles, List.foldl_append]
  rfl

/-- Every row has the role that the list gives it last. -/
def Settled (rawFolders : List RawFolder) (t : Tables) : Prop :=
  ∀ row ∈ t.folders, assignRoles rawFolders row = row

theorem Settled.saveFolder (settled : Settled done t) (saved : FolderSaved t raw later) :
    Settled (done ++ [raw]) later := by
  have named : ∀ row : Folder, row.name = storedName raw.displayName → 
      row.canonicalName = raw.role.getD "" → assignRoles (done ++ [raw]) row = row := by
    intro row name role
    obtain ⟨between, assigned⟩ := assignRoles_role done row
    rw [assignRoles_concat, assigned, assignRole, if_pos name, ← role]
  have other : ∀ row ∈ t.folders, row.name ≠ storedName raw.displayName →
      assignRoles (done ++ [raw]) row = row := by
    intro row member differ
    rw [assignRoles_concat, settled row member, assignRole, if_neg differ]
  intro row member
  obtain ⟨_, folders⟩ | ⟨absent, new, _, name, role, _, folders⟩ := saved.folders
  · rw [folders] at member
    obtain ⟨old, held, rfl⟩ := List.mem_map.mp member
    by_cases same : old.name = storedName raw.displayName
    · rw [assignRole, if_pos same]
      exact named _ same rfl
    · rw [assignRole, if_neg same]
      exact other old held same
  · rw [folders] at member
    rcases List.mem_append.mp member with held | added
    · exact other row held (absent row held)
    · obtain rfl := List.mem_singleton.mp added
      exact named row name role

theorem UniqueNames.saveFolder (unique : UniqueNames t) (saved : FolderSaved t raw later) :
    UniqueNames later := by
  obtain ⟨_, folders⟩ | ⟨absent, new, _, name, _, _, folders⟩ := saved.folders
  · rw [UniqueNames, folders, List.pairwise_map]
    refine unique.imp fun differ => ?_
    unfold assignRole
    split <;> split <;> exact differ
  · rw [UniqueNames, folders]
    refine List.pairwise_append.mpr ⟨unique, List.pairwise_singleton _ _, fun row member other same => ?_⟩
    obtain rfl := List.mem_singleton.mp same
    exact name ▸ absent row member

/-- What saving a list of remote folders does to the rows that are there. -/
structure FoldersSaved (done rawFolders : List RawFolder) (t later : Tables) : Prop where
  valid : later.Valid
  unique : UniqueNames later
  settled : Settled (done ++ rawFolders) later
  kept : ∀ id ∈ t.categories.map Category.id, id ∈ later.categories.map Category.id
  nextId : t.nextId ≤ later.nextId
  old : ∀ row ∈ t.folders, ∃ now ∈ later.folders, now.key = row.key
  origin : ∀ row ∈ later.folders, (∃ old ∈ t.folders, old.key = row.key) ∨
    t.nextId ≤ row.id ∧ row.categoryId.isSome ∧ (∀ old ∈ t.folders, old.name ≠ row.name) ∧
      ∃ raw ∈ rawFolders, storedName raw.displayName = row.name
  named : ∀ raw ∈ rawFolders, ∃ row ∈ later.folders, row.name = storedName raw.displayName

theorem name_of_key {a b : Folder} (same : a.key = b.key) : a.name = b.name :=
  (Prod.mk.inj (Prod.mk.inj same).2).1

theorem saveFolders_saved {done : List RawFolder} (valid : t.Valid) (unique : UniqueNames t)
    (settled : Settled done t) (ran : rawFolders.foldlM saveFolder t = .ok later) :
    FoldersSaved done rawFolders t later := by
  induction rawFolders generalizing t done with
  | nil =>
    cases ran
    exact {
      valid, unique
      settled := by rwa [List.append_nil]
      kept := fun _ held => held
      nextId := le_rfl
      old := fun row member => ⟨row, member, rfl⟩
      origin := fun row member => .inl ⟨row, member, rfl⟩
      named := fun _ member => absurd member List.not_mem_nil }
  | cons raw rest ih =>
    rw [List.foldlM_cons] at ran
    cases saved : saveFolder t raw with
    | error =>
      rw [saved] at ran
      cases ran
    | ok between =>
      rw [saved] at ran
      have first := saveFolder_saved valid unique saved
      have last := ih first.valid (unique.saveFolder first) (settled.saveFolder first) ran
      have old : ∀ row ∈ t.folders, ∃ now ∈ between.folders, now.key = row.key := by
        intro row member
        obtain ⟨_, folders⟩ | ⟨_, _, _, _, _, _, folders⟩ := first.folders <;> rw [folders]
        · exact ⟨_, List.mem_map_of_mem member, assignRole_key raw row⟩
        · exact ⟨row, List.mem_append_left _ member, rfl⟩
      have named : ∃ row ∈ between.folders, row.name = storedName raw.displayName := by
        obtain ⟨⟨row, member, name⟩, folders⟩ | ⟨_, row, _, name, _, _, folders⟩ := first.folders <;>
          rw [folders]
        · exact ⟨_, List.mem_map_of_mem member, (name_of_key (assignRole_key raw row)).trans name⟩
        · exact ⟨row, by simp, name⟩
      exact {
        valid := last.valid
        unique := last.unique
        settled := by simpa using last.settled
        kept := fun id held => last.kept id (first.kept id held)
        nextId := first.nextId.trans last.nextId
        old := by
          intro row member
          obtain ⟨now, held, same⟩ := old row member
          obtain ⟨final, among, also⟩ := last.old now held
          exact ⟨final, among, also.trans same⟩
        origin := by
          intro row member
          obtain ⟨mid, held, same⟩ | ⟨below, category, absent, other, among, name⟩ := last.origin row member
          · obtain ⟨_, folders⟩ | ⟨absent, new, below, name, _, category, folders⟩ := first.folders <;>
              rw [folders] at held
            · obtain ⟨start, inside, rfl⟩ := List.mem_map.mp held
              exact .inl ⟨start, inside, (assignRole_key raw start).symm.trans same⟩
            · rcases List.mem_append.mp held with inside | added
              · exact .inl ⟨mid, inside, same⟩
              · obtain rfl := List.mem_singleton.mp added
                obtain ⟨id, rest⟩ := Prod.mk.inj same
                obtain ⟨name', categoryId⟩ := Prod.mk.inj rest
                refine .inr ⟨id ▸ below, categoryId ▸ category, name' ▸ name ▸ absent, raw,
                  List.mem_cons_self, name.symm.trans name'⟩
          · refine .inr ⟨first.nextId.trans below, category, fun start inside => ?_, other,
              List.mem_cons_of_mem _ among, name⟩
            obtain ⟨now, held, same⟩ := old start inside
            exact name_of_key same ▸ absent now held
        named := by
          refine List.forall_mem_cons.mpr ⟨?_, last.named⟩
          obtain ⟨row, member, name⟩ := named
          obtain ⟨final, among, same⟩ := last.old row member
          exact ⟨final, among, (name_of_key same).trans name⟩ }

/-- Where every remote folder has its row already, only roles change. -/
theorem saveFolders_found (valid : t.Valid) (unique : UniqueNames t)
    (named : ∀ raw ∈ rawFolders, ∃ row ∈ t.folders, row.name = storedName raw.displayName) :
    ∃ later, rawFolders.foldlM saveFolder t = .ok later ∧
      later.folders = t.folders.map (assignRoles rawFolders) ∧
      ∀ id ∈ t.categories.map Category.id, id ∈ later.categories.map Category.id := by
  induction rawFolders generalizing t with
  | nil => exact ⟨t, rfl, (List.map_id _).symm, fun _ held => held⟩
  | cons raw rest ih =>
    obtain ⟨row, member, name⟩ := named raw List.mem_cons_self
    obtain ⟨between, saved⟩ := saveFolder_found unique member name
    have first := saveFolder_saved valid unique saved
    have folders : between.folders = t.folders.map (assignRole raw) := by
      obtain ⟨_, folders⟩ | ⟨absent, _⟩ := first.folders
      · exact folders
      · exact absurd name (absent row member)
    have still : ∀ other ∈ rest, ∃ row ∈ between.folders, row.name = storedName other.displayName := by
      intro other among
      obtain ⟨row, member, name⟩ := named other (List.mem_cons_of_mem _ among)
      rw [folders]
      exact ⟨_, List.mem_map_of_mem member, (name_of_key (assignRole_key raw row)).trans name⟩
    obtain ⟨later, ran, last, kept⟩ := ih first.valid (unique.saveFolder first) still
    refine ⟨later, ?_, ?_, fun id held => kept id (first.kept id held)⟩
    · rw [List.foldlM_cons, saved]
      exact ran
    · rw [last, folders, List.map_map]
      rfl

/-! ## The run -/

theorem mem_discarded {id : Nat} (valid : t.Valid) : id ∈ discarded rawFolders t ↔
    ∃ row ∈ t.folders, row.name ∉ remoteFolderNames rawFolders ∧ row.categoryId = some id := by
  simp only [discarded, List.mem_filter, List.mem_filterMap, decide_eq_true_eq]
  constructor
  · rintro ⟨⟨row, ⟨member, vanished⟩, category⟩, _⟩
    exact ⟨row, member, vanished, category⟩
  · rintro ⟨row, member, vanished, category⟩
    refine ⟨⟨row, ⟨member, vanished⟩, category⟩, ?_⟩
    obtain ⟨held, among, same⟩ := List.mem_map.mp (valid.folderCategory row member id category)
    exact List.find?_isSome.mpr ⟨held, among, by simpa using same⟩

theorem mem_deleteCategories (valid : t.Valid) :
    row ∈ (t.deleteCategories (discarded rawFolders t)).folders ↔ row ∈ t.folders ∧
      ∀ other ∈ t.folders, other.categoryId.isSome → other.categoryId = row.categoryId →
        other.name ∈ remoteFolderNames rawFolders := by
  simp only [Tables.deleteCategories, List.mem_filter]
  refine and_congr_right fun member => ?_
  cases category : row.categoryId with
  | none =>
    simp only [Option.all_none, true_iff]
    intro other _ some same
    rw [same] at some
    cases some
  | some id =>
    simp only [Option.all_some, decide_eq_true_eq, mem_discarded valid, not_exists, not_and]
    constructor
    · intro spared other among _ same
      by_contra vanished
      exact spared other among vanished same
    · intro shared other among vanished same
      exact vanished (shared other among (by rw [same]; rfl) same)

/-- What a refresh that did not raise did. -/
theorem saveFolderNames_saved (valid : t.Valid) (unique : UniqueNames t)
    (saved : saveFolderNames rawFolders t = .ok later) :
    some "inbox" ∈ rawFolders.map RawFolder.role ∧
      FoldersSaved [] rawFolders (t.deleteCategories (discarded rawFolders t)) later := by
  unfold saveFolderNames at saved
  split at saved
  · rename_i inbox
    cases ran : rawFolders.foldlM saveFolder (t.deleteCategories (discarded rawFolders t)) with
    | error =>
      simp only [ran, bind, Except.bind] at saved
      cases saved
    | ok between =>
      simp only [ran, bind, Except.bind] at saved
      cases saved
      have start : Settled [] (t.deleteCategories (discarded rawFolders t)) := fun _ _ => rfl
      have run := saveFolders_saved (valid.deleteCategories _) (unique.filter _) start ran
      exact ⟨inbox, {
        run with
        valid := run.valid.of_categories _ rfl rfl rfl rfl }⟩
  · cases saved

/-- No folder that the server still has goes with the category of one that it has not, and no name
of the list is stored shorter than the set of remote names has it, unless its row has no category. -/
structure KeepsFolders (rawFolders : List RawFolder) (t : Tables) : Prop where
  shared : ∀ row ∈ t.folders, (∃ raw ∈ rawFolders, storedName raw.displayName = row.name) →
    ∀ other ∈ t.folders, other.categoryId.isSome → other.categoryId = row.categoryId →
      other.name ∈ remoteFolderNames rawFolders
  cut : ∀ raw ∈ rawFolders, storedName raw.displayName ∈ remoteFolderNames rawFolders ∨
    ∃ row ∈ t.folders, row.name = storedName raw.displayName ∧ row.categoryId = none

theorem id_of_key {a b : Folder} (same : a.key = b.key) : a.id = b.id := (Prod.mk.inj same).1

theorem category_of_key {a b : Folder} (same : a.key = b.key) : a.categoryId = b.categoryId :=
  (Prod.mk.inj (Prod.mk.inj same).2).2

/-- A row that the deletions spared is there after the refresh, one that they did not is gone. -/
theorem FoldersSaved.spared_iff {start : Tables} (valid : t.Valid) (member : row ∈ t.folders)
    (run : FoldersSaved [] rawFolders start later) (below : t.nextId ≤ start.nextId)
    (within : ∀ row ∈ start.folders, row ∈ t.folders) :
    row.id ∈ later.folders.map Folder.id ↔ row ∈ start.folders := by
  constructor
  · intro held
    obtain ⟨now, among, same⟩ := List.mem_map.mp held
    obtain ⟨old, inside, key⟩ | ⟨fresh, _⟩ := run.origin now among
    · obtain rfl := valid.eq_of_id (within old inside) member ((id_of_key key).trans same)
      exact inside
    · have := valid.folderBelow row member
      omega
  · intro held
    obtain ⟨now, among, key⟩ := run.old row held
    exact List.mem_map.mpr ⟨now, among, id_of_key key⟩

theorem deleteCategories_nil (t : Tables) : (t.deleteCategories []).folders = t.folders ∧
    (t.deleteCategories []).categories = t.categories := by
  constructor
  · refine List.filter_eq_self.mpr fun row _ => ?_
    cases row.categoryId <;> simp
  · simp [Tables.deleteCategories]

/-- A refresh deletes only folders that the server no longer has, and the next one with the same
list changes none, exactly if the names and categories of the list and the table allow it. -/
theorem refresh_keeps_folders_iff (valid : t.Valid) (unique : UniqueNames t)
    (saved : saveFolderNames rawFolders t = .ok later) :
    ((∀ row ∈ t.folders, row.id ∉ later.folders.map Folder.id →
        ∀ raw ∈ rawFolders, storedName raw.displayName ≠ row.name) ∧
      ∃ again, saveFolderNames rawFolders later = .ok again ∧ again.folders = later.folders ∧
        ∀ id ∈ later.categories.map Category.id, id ∈ again.categories.map Category.id) ↔
      KeepsFolders rawFolders t := by
  obtain ⟨inbox, run⟩ := saveFolderNames_saved valid unique saved
  have spared : ∀ row ∈ t.folders, (row.id ∈ later.folders.map Folder.id ↔
      row ∈ (t.deleteCategories (discarded rawFolders t)).folders) := fun row member =>
    run.spared_iff valid member le_rfl fun _ => List.mem_of_mem_filter
  constructor
  · rintro ⟨deleted, again, second, same, _⟩
    constructor
    · rintro row member ⟨raw, listed, name⟩ other among some shares
      have held : row.id ∈ later.folders.map Folder.id := by
        by_contra gone
        exact deleted row member gone raw listed name
      exact ((mem_deleteCategories valid).mp ((spared row member).mp held)).2 other among some shares
    · intro raw listed
      by_contra lost
      obtain ⟨shorter, noRow⟩ := not_or.mp lost
      obtain ⟨row, member, name⟩ := run.named raw listed
      have category : row.categoryId.isSome := by
        obtain ⟨old, held, key⟩ | ⟨_, category, _⟩ := run.origin row member
        · by_contra none
          refine noRow ⟨old, List.mem_of_mem_filter held, (name_of_key key).trans name, ?_⟩
          rw [category_of_key key]
          simpa using none
        · exact category
      obtain ⟨_, next⟩ := saveFolderNames_saved run.valid run.unique second
      have kept := (next.spared_iff run.valid member le_rfl fun _ => List.mem_of_mem_filter).mp
        (same ▸ List.mem_map_of_mem member)
      refine shorter ?_
      rw [← name]
      exact ((mem_deleteCategories run.valid).mp kept).2 row member category rfl
  · intro keeps
    constructor
    · intro row member gone raw listed name
      refine gone ((spared row member).mpr ((mem_deleteCategories valid).mpr ⟨member, ?_⟩))
      exact keeps.shared row member ⟨raw, listed, name⟩
    · have named : ∀ row ∈ later.folders, row.categoryId.isSome →
          row.name ∈ remoteFolderNames rawFolders := by
        intro row member category
        obtain ⟨old, held, key⟩ | ⟨_, _, absent, raw, listed, name⟩ := run.origin row member
        · obtain ⟨inside, shared⟩ := (mem_deleteCategories valid).mp held
          rw [← category_of_key key] at category
          rw [← name_of_key key]
          exact shared old inside category rfl
        · rw [← name]
          refine (keeps.cut raw listed).resolve_right ?_
          rintro ⟨old, inside, same, none⟩
          refine absent old ((mem_deleteCategories valid).mpr ⟨inside, ?_⟩) (same.trans name)
          intro other _ some shares
          rw [shares, none] at some
          cases some
      have nothing : discarded rawFolders later = [] := by
        refine List.eq_nil_iff_forall_not_mem.mpr fun id gone => ?_
        obtain ⟨row, member, vanished, category⟩ := (mem_discarded run.valid).mp gone
        exact vanished (named row member (by rw [category]; rfl))
      obtain ⟨folders, categories⟩ := deleteCategories_nil later
      have there : ∀ raw ∈ rawFolders, ∃ row ∈ (later.deleteCategories []).folders,
          row.name = storedName raw.displayName := folders ▸ run.named
      obtain ⟨again, ran, assigned, kept⟩ := saveFolders_found (run.valid.deleteCategories [])
        (run.unique.filter _) there
      let local_ := (later.folders.filter (·.name ∈ remoteFolderNames rawFolders)).map Folder.id
      refine ⟨setSyncShouldRun local_ again, ?_, ?_, ?_⟩
      · simp only [saveFolderNames, if_pos inbox, nothing, ran, bind, Except.bind]
        rfl
      · refine assigned.trans ?_
        rw [folders]
        exact (List.map_congr_left run.settled).trans (List.map_id _)
      · rw [categories] at kept
        exact kept

/-- A list with the inbox and one other folder. -/
def remoteFolders (name : Unicode) : List RawFolder := [⟨"INBOX".toList, some "inbox"⟩, ⟨name, none⟩]

/-- A name of more than 191 characters with a blank just before the cut. -/
def cutName : Unicode := List.replicate 190 'a' ++ [' ', 'b']

theorem refresh_keeps_work_folder : ∃ later,
    saveFolderNames (remoteFolders "Work ".toList) .empty = .ok later ∧
    ∃ again, saveFolderNames (remoteFolders "Work ".toList) later = .ok again ∧
      again.folders = later.folders := by
  obtain ⟨later, saved⟩ : ∃ later,
    saveFolderNames (remoteFolders "Work ".toList) .empty = .ok later := ⟨_, rfl⟩
  have keeps : KeepsFolders (remoteFolders "Work ".toList) .empty := by
    constructor
    · exact fun _ member => absurd member List.not_mem_nil
    · decide
  have kept := (refresh_keeps_folders_iff Tables.empty_valid .nil saved).mpr keeps
  obtain ⟨_, again, second, same, _⟩ := kept
  exact ⟨later, saved, again, second, same⟩

/-- The second refresh with one list deletes the folder that the first one created. -/
theorem refresh_deletes_cut_folder :
    ((saveFolderNames (remoteFolders cutName) .empty).bind (saveFolderNames (remoteFolders cutName))).map
        (fun t => t.folders.map Folder.id) = .ok [2, 6] ∧
      (saveFolderNames (remoteFolders cutName) .empty).map (fun t => t.folders.map Folder.id) =
        .ok [2, 4] := by
  decide +kernel

end Naming
end SyncEngine
