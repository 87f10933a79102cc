import SyncEngine.Models.Category
import SyncEngine.Util.Runs

/-! How the account monitor of a Gmail account keeps labels, folders and their categories in step
with the server's list. -/
namespace SyncEngine
namespace Naming

namespace Tables

def updateLabel (t : Tables) (id : Nat) (change : Label → Label) : Tables :=
  { t with labels := t.labels.map fun row => if row.id = id then change row else row }

def folder? (t : Tables) (role : String) : Option Folder := t.folders.find? (·.canonicalName = role)

/-- The row that `Label.find_or_create` finds, by role where there is one. -/
def label? (t : Tables) (name : Unicode) (role : Option String) : Option Label :=
  if role.getD "" ≠ "" then t.labels.find? (·.canonicalName = role.getD "")
  else t.labels.find? (·.name = storedName name)

/-- `Label.find_or_create` -/
def findOrCreateLabel (t : Tables) (name : Unicode) (role : Option String) :
    Except Error (Tables × Label) :=
  match t.label? name role with
  | some row => .ok (t, row)
  | none => do
    let (t, categoryId) ← t.findOrCreateCategory (role.getD "") name .label
    let row := { id := t.nextId, name := storedName name, canonicalName := role.getD "", categoryId
                 deletedAt := none }
    return ({ t with labels := t.labels ++ [row], nextId := t.nextId + 1 }, row)

end Tables

namespace Gmail

/-- The roles that are also folders. -/
def folderRole? (raw : RawFolder) : Option String :=
  raw.role.filter fun role => role ∈ ["all", "spam", "trash"]

def renameFolder (folder : Folder) (displayName : Unicode) (t : Tables) : Tables :=
  if folder.name ≠ displayName then
    t.updateFolder folder.id fun row => { row with name := storedName displayName }
  else t

def renameCategory (category : Category) (displayName : Unicode) (t : Tables) : Tables :=
  if category.displayName ≠ displayName then
    t.updateCategory category.id fun row => { row with displayName := storedName displayName }
  else t

def handleRawFolderChange (role : String) (displayName : Unicode) (t : Tables) : Except Error Tables :=
  match t.folder? role with
  | some folder => do
    let t := renameFolder folder displayName t
    match folder.categoryId.bind t.category? with
    | some category => return renameCategory category displayName t
    | none =>
      let (t, categoryId) ← t.findOrCreateCategory role displayName .folder
      return t.updateFolder folder.id fun row => { row with categoryId := some categoryId }
  | none => do
    let (t, _) ← t.findOrCreateFolder displayName (some role)
    return t

/-- The part of the loop's body for roles that are also folders. -/
def saveFolder (raw : RawFolder) (t : Tables) : Except Error Tables :=
  match folderRole? raw with
  | some role => handleRawFolderChange role raw.displayName t
  | none => .ok t

/-- A label and its category are marked, or unmarked, together. -/
def setDeletedAt (label : Label) (deletedAt : Option Nat) (categoryDeletedAt : Nat) (t : Tables) : Tables :=
  (t.updateLabel label.id fun row => { row with deletedAt }).updateCategory label.categoryId
    fun row => { row with deletedAt := categoryDeletedAt }

/-- A label which was previously marked as deleted but which mysteriously reappeared. -/
def unmark (label : Label) (t : Tables) : Tables :=
  if label.deletedAt.isSome then setDeletedAt label none EPOCH t else t

/-- The rest of the loop's body; the result is the label's id for `current_labels`. -/
def saveLabel (raw : RawFolder) (t : Tables) : Except Error (Tables × Nat) := do
  let (t, label) ← t.findOrCreateLabel raw.displayName raw.role
  return (unmark label t, label.id)

def saveEntry (s : Tables × List Nat) (raw : RawFolder) : Except Error (Tables × List Nat) :=
  -- The starred state of messages is tracked separately.
  if raw.role = some "starred" then .ok s
  else do
    let t ← saveFolder raw s.1
    let (t, id) ← saveLabel raw t
    return (t, s.2 ++ [id])

def setSyncShouldRunBit (t : Tables) : Tables :=
  { t with statuses := t.statuses.map fun status => { status with syncShouldRun := true } }

def liveLabels (t : Tables) : List Nat := (t.labels.filter (·.deletedAt = none)).map Label.id

/-- The old labels that are not in the list, but for canonical ones such as Inbox. -/
def deletedLabels (old current : List Nat) (t : Tables) : List Label :=
  t.labels.filter fun label => label.id ∈ old ∧ label.id ∉ current ∧ label.canonicalName = ""

def markDeletedLabels (now : Nat) (deleted : List Label) (t : Tables) : Tables :=
  deleted.foldl (fun t label => setDeletedAt label (some now) now t) t

/-- `GmailSyncMonitor.save_folder_names` -/
def saveFolderNames (now : Nat) (rawFolders : List RawFolder) (t : Tables) : Except Error Tables := do
  let old := liveLabels t
  let (t, current) ← rawFolders.foldlM saveEntry (t, [])
  let t := setSyncShouldRunBit t
  return markDeletedLabels now (deletedLabels old current t) t

/-- `DeleteHandler.gc_deleted_categories`; `associated` says whether a message has the category. -/
def gcDeletedCategories (associated : Nat → Bool) (t : Tables) : Tables :=
  t.deleteCategories ((t.categories.filter fun category =>
    EPOCH < category.deletedAt ∧ !associated category.id).map Category.id)

/-! ## What is kept -/

/-- No category is marked deleted while a live label or a folder uses it. -/
def UsedAreLive (t : Tables) : Prop :=
  ∀ category ∈ t.categories, category.deletedAt ≠ EPOCH →
    (∀ label ∈ t.labels, label.deletedAt = none → label.categoryId ≠ category.id) ∧
      ∀ folder ∈ t.folders, folder.categoryId ≠ some category.id

/-- What holds between calls, and inside them. -/
structure Sound (t : Tables) : Prop where
  valid : t.Valid
  displayNames : t.categories.Pairwise (fun a b => a.displayName ≠ b.displayName)
  storedFolders : ∀ folder ∈ t.folders, storedName folder.name = folder.name
  storedCategories : ∀ category ∈ t.categories, storedName category.displayName = category.displayName
  live : UsedAreLive t

/-- No category of this name is marked. -/
def Unmarked (displayName : Unicode) (t : Tables) : Prop :=
  ∀ category ∈ t.categories, category.displayName = storedName displayName → category.deletedAt = EPOCH

theorem storedName_storedName (name : Unicode) : storedName (storedName name) = storedName name := by
  unfold storedName sanitizeName
  rw [unicodeSafeTruncate_thrice, unicodeSafeTruncate_thrice]

variable {t later : Tables}

theorem empty_sound : Sound Tables.empty where
  valid := Tables.empty_valid
  displayNames := .nil
  storedFolders _ member := absurd member List.not_mem_nil
  storedCategories _ member := absurd member List.not_mem_nil
  live _ member := absurd member List.not_mem_nil

/-- Rows that are used are used by rows that have used them, or are known to be live. -/
theorem UsedAreLive.change (live : UsedAreLive t)
    (categories : ∀ category ∈ later.categories, category.deletedAt ≠ EPOCH →
      ∃ old ∈ t.categories, old.id = category.id ∧ old.deletedAt ≠ EPOCH)
    (labels : ∀ label ∈ later.labels, label.deletedAt = none →
      (∃ old ∈ t.labels, old.deletedAt = none ∧ old.categoryId = label.categoryId) ∨
        ∀ category ∈ later.categories, category.id = label.categoryId → category.deletedAt = EPOCH)
    (folders : ∀ folder ∈ later.folders, (∃ old ∈ t.folders, old.categoryId = folder.categoryId) ∨
      ∀ category ∈ later.categories, folder.categoryId = some category.id → category.deletedAt = EPOCH) :
    UsedAreLive later := by
  intro category member marked
  obtain ⟨old, held, same, was⟩ := categories category member marked
  obtain ⟨noLabel, noFolder⟩ := live old held was
  constructor
  · intro label among alive uses
    rcases labels label among alive with ⟨before, there, also, category'⟩ | fine
    · exact noLabel before there also (category'.trans (uses.trans same.symm))
    · exact marked (fine category member uses.symm)
  · intro folder among uses
    rcases folders folder among with ⟨before, there, category'⟩ | fine
    · exact noFolder before there (category'.trans (uses.trans (congrArg some same.symm)))
    · exact marked (fine category member uses)

/-- Categories are renamed only. -/
theorem mem_updateCategory (t : Tables) (id : Nat) (change : Category → Category)
    (keeps : ∀ row, (change row).id = row.id ∧ (change row).deletedAt = row.deletedAt) :
    ∀ category ∈ (t.updateCategory id change).categories,
      ∃ old ∈ t.categories, old.id = category.id ∧ old.deletedAt = category.deletedAt := by
  refine List.forall_mem_map.mpr fun row member => ⟨row, member, ?_⟩
  split
  · exact ⟨(keeps row).1.symm, (keeps row).2.symm⟩
  · exact ⟨rfl, rfl⟩

/-- A change of categories that leaves their ids and marks, and gives one of them a name that no
other has. -/
theorem Sound.updateCategory (sound : Sound t) (id : Nat) (change : Category → Category)
    (keeps : ∀ row, (change row).id = row.id ∧ (change row).deletedAt = row.deletedAt)
    (displayName : ∀ row ∈ t.categories, row.id = id → (change row).displayName = row.displayName ∨
      storedName (change row).displayName = (change row).displayName ∧
        ∀ other ∈ t.categories, other.displayName = (change row).displayName → other.id = id) :
    Sound (t.updateCategory id change) where
  valid := sound.valid.updateCategory id fun row => (keeps row).1
  displayNames := by
    refine List.pairwise_map.mpr ((sound.valid.categoryIds.and sound.displayNames).imp_of_mem ?_)
    rintro a b one other ⟨ids, names⟩
    split_ifs with first second
    · exact absurd (first.trans second.symm) ids
    · rcases displayName a one first with same | ⟨_, only⟩
      · rwa [same]
      · exact fun same => second (only b other same.symm)
    · rename_i second
      rcases displayName b other second with same | ⟨_, only⟩
      · rwa [same]
      · exact fun same => first (only a one same)
    · exact names
  storedFolders := sound.storedFolders
  storedCategories := by
    refine List.forall_mem_map.mpr fun row member => ?_
    split
    · rename_i own
      rcases displayName row member own with same | ⟨stored, _⟩
      · rw [same]
        exact sound.storedCategories row member
      · exact stored
    · exact sound.storedCategories row member
  live := by
    apply sound.live.change
    · intro category member marked
      obtain ⟨old, held, same, mark⟩ := mem_updateCategory t id change keeps category member
      exact ⟨old, held, same, mark ▸ marked⟩
    · exact fun label member alive => .inl ⟨label, member, alive, rfl⟩
    · exact fun folder member => .inl ⟨folder, member, rfl⟩

theorem Sound.insertCategory (sound : Sound t)
    (none : ∀ row ∈ t.categories, row.displayName ≠ storedName displayName)
    (valid : Tables.Valid { t with
      categories := t.categories ++ [⟨t.nextId, name, storedName displayName, type_, EPOCH⟩]
      nextId := t.nextId + 1 }) :
    Sound { t with
      categories := t.categories ++ [⟨t.nextId, name, storedName displayName, type_, EPOCH⟩]
      nextId := t.nextId + 1 } where
  valid := valid
  displayNames := by
    refine List.pairwise_append.mpr ⟨sound.displayNames, List.pairwise_singleton _ _, ?_⟩
    intro row member new added
    rw [List.mem_singleton.mp added]
    exact none row member
  storedFolders := sound.storedFolders
  storedCategories := by
    refine List.forall_mem_append.mpr ⟨sound.storedCategories, fun new added => ?_⟩
    rw [List.mem_singleton.mp added]
    exact storedName_storedName displayName
  live := by
    apply sound.live.change
    · refine List.forall_mem_append.mpr ⟨fun row member marked => ⟨row, member, rfl, marked⟩, ?_⟩
      rintro new added marked
      rw [List.mem_singleton.mp added] at marked
      exact absurd rfl marked
    · exact fun label member alive => .inl ⟨label, member, alive, rfl⟩
    · exact fun folder member => .inl ⟨folder, member, rfl⟩

/-- The category that a name has or gets, where none of this name is marked. -/
structure Given (t : Tables) (displayName : Unicode) (later : Tables) (id : Nat) : Prop where
  sound : Sound later
  folders : later.folders = t.folders
  labels : later.labels = t.labels
  statuses : later.statuses = t.statuses
  nextId : t.nextId ≤ later.nextId
  there : ∃ category ∈ later.categories, category.id = id ∧
    category.displayName = storedName displayName ∧ category.deletedAt = EPOCH
  origin : ∀ category ∈ later.categories,
    (∃ old ∈ t.categories, old.id = category.id ∧ old.displayName = category.displayName) ∨
      category.id = id ∧ t.nextId ≤ id

theorem Sound.findOrCreateCategory (sound : Sound t) (unmarked : Unmarked displayName t) (name : String)
    (type_ : CategoryType) :
    ∃ later id, t.findOrCreateCategory name displayName type_ = .ok (later, id) ∧
      Given t displayName later id := by
  have distinct := sound.displayNames.filter (·.displayName = storedName displayName)
  have all : ∀ row ∈ t.categories.filter (·.displayName = storedName displayName),
      row ∈ t.categories ∧ row.displayName = storedName displayName := fun row member => by
    simpa using List.mem_filter.mp member
  have known : ∃ result, t.findOrCreateCategory name displayName type_ = .ok result := by
    unfold Tables.findOrCreateCategory
    split
    · exact ⟨_, rfl⟩
    · split <;> exact ⟨_, rfl⟩
    · rename_i rows none one
      match shape : t.categories.filter (·.displayName = storedName displayName) with
      | [] => exact absurd shape none
      | [row] => exact absurd shape (one row)
      | first :: second :: rest =>
        rw [shape] at distinct all
        have apart := (List.pairwise_cons.mp distinct).1 second List.mem_cons_self
        exact absurd ((all first List.mem_cons_self).2.trans (all second (by simp)).2.symm) apart
  obtain ⟨⟨later, id⟩, found⟩ := known
  refine ⟨later, id, found, ?_⟩
  have category := Tables.findOrCreateCategory_found sound.valid found
  obtain ⟨none, rfl, rfl⟩ | ⟨row, member, same, rfl, rfl | rfl⟩ := Tables.findOrCreateCategory_cases found
  · exact {
      sound := sound.insertCategory none category.valid
      folders := rfl
      labels := rfl
      statuses := rfl
      nextId := category.nextId
      there := ⟨_, List.mem_append_right _ (List.mem_singleton_self _), rfl, rfl, rfl⟩
      origin := List.forall_mem_append.mpr ⟨fun old held => .inl ⟨old, held, rfl, rfl⟩, by simp⟩ }
  · exact {
      sound
      folders := rfl
      labels := rfl
      statuses := rfl
      nextId := le_rfl
      there := ⟨row, member, rfl, same, unmarked row member same⟩
      origin := fun old held => .inl ⟨old, held, rfl, rfl⟩ }
  · exact {
      sound := sound.updateCategory row.id _ (fun _ => ⟨rfl, rfl⟩) fun _ _ _ => .inl rfl
      folders := rfl
      labels := rfl
      statuses := rfl
      nextId := le_rfl
      there := ⟨_, List.mem_map_of_mem member, by rw [if_pos rfl], by rw [if_pos rfl]; exact same,
        by rw [if_pos rfl]; exact unmarked row member same⟩
      origin := List.forall_mem_map.mpr fun old held => .inl ⟨old, held, by split <;> exact ⟨rfl, rfl⟩⟩ }

/-! ## The folder of an entry -/

/-- The folder whose name and category an entry sets. -/
def target (t : Tables) (raw : RawFolder) : Option Folder := (folderRole? raw).bind t.folder?

/-- Another category has not the name that the entry gives, and where the entry needs a category or a
folder of its name, no category of this name is marked, and no folder has it. -/
def FolderCalm (raw : RawFolder) (t : Tables) : Prop :=
  ∀ role, folderRole? raw = some role →
    match t.folder? role with
    | some folder =>
      match folder.categoryId.bind t.category? with
      | some category => ∀ other ∈ t.categories,
          other.displayName = storedName raw.displayName → other.id = category.id
      | none => Unmarked raw.displayName t
    | none => Unmarked raw.displayName t ∧ ∀ folder ∈ t.folders, folder.name ≠ storedName raw.displayName

/-- A category that is new or has the name. -/
def Takes (t : Tables) (displayName : Unicode) (id : Nat) : Prop :=
  (∃ category ∈ t.categories, category.id = id ∧ category.displayName = storedName displayName) ∨ t.nextId ≤ id

/-- What the folder part of the loop's body does. -/
structure FolderStep (raw : RawFolder) (t later : Tables) : Prop where
  sound : Sound later
  labels : later.labels = t.labels
  nextId : t.nextId ≤ later.nextId
  targets : ∀ other folder, target t other = some folder → folder.categoryId.isSome →
    ∃ now, target later other = some now ∧ now.id = folder.id ∧ now.categoryId = folder.categoryId
  own : (folderRole? raw).isSome → ∃ now, target later raw = some now ∧ now.categoryId.isSome
  names : ∀ now ∈ later.folders, if (target later raw).map Folder.id = some now.id
    then now.name = storedName raw.displayName
    else ∃ old ∈ t.folders, old.id = now.id ∧ old.name = now.name
  displayNames : ∀ now ∈ later.categories, if (target later raw).bind Folder.categoryId = some now.id
    then now.displayName = storedName raw.displayName
    else ∃ old ∈ t.categories, old.id = now.id ∧ old.displayName = now.displayName
  gets : ∀ now ∈ later.folders, (∃ old ∈ t.folders, old.categoryId = now.categoryId) ∨
    (folderRole? raw).isSome ∧ (target t raw).bind Folder.categoryId = none ∧
      ∃ id, now.categoryId = some id ∧ Takes t raw.displayName id

theorem FolderStep.refl (sound : Sound t) (none : folderRole? raw = none) : FolderStep raw t t where
  sound := sound
  labels := rfl
  nextId := le_rfl
  targets _ folder found _ := ⟨folder, found, rfl, rfl⟩
  own some := by simp [none] at some
  names now member := by
    rw [if_neg (by simp [target, none])]
    exact ⟨now, member, rfl, rfl⟩
  displayNames now member := by
    rw [if_neg (by simp [target, none])]
    exact ⟨now, member, rfl, rfl⟩
  gets now member := .inl ⟨now, member, rfl⟩

theorem folder?_updateFolder (t : Tables) (id : Nat) (change : Folder → Folder)
    (keeps : ∀ row, (change row).canonicalName = row.canonicalName) (role : String) :
    (t.updateFolder id change).folder? role =
      (t.folder? role).map fun row => if row.id = id then change row else row := by
  have key : ∀ row : Folder, (if row.id = id then change row else row).canonicalName = row.canonicalName := by
    intro row
    split
    · exact keeps row
    · rfl
  unfold Tables.folder? Tables.updateFolder
  rw [List.find?_map]
  simp only [Function.comp_def, key]

theorem folder?_mem (found : t.folder? role = some folder) : folder ∈ t.folders :=
  List.mem_of_find?_eq_some found

theorem category?_mem {id : Nat} (found : t.category? id = some category) :
    category ∈ t.categories ∧ category.id = id :=
  ⟨List.mem_of_find?_eq_some found, by simpa using List.find?_some found⟩

theorem eq_of_key {rows : List α} {key : α → Nat} (distinct : rows.Pairwise (fun a b => key a ≠ key b))
    (one : a ∈ rows) (other : b ∈ rows) (same : key a = key b) : a = b := by
  by_contra apart
  have : Std.Symm fun a b : α => key a ≠ key b := ⟨fun _ _ differ same => differ same.symm⟩
  exact distinct.forall one other apart same

theorem Sound.updateFolder (sound : Sound t) (id : Nat) (change : Folder → Folder)
    (valid : (t.updateFolder id change).Valid)
    (stored : ∀ row ∈ t.folders, storedName (change row).name = (change row).name)
    (category : ∀ row ∈ t.folders, row.id = id → (change row).categoryId = row.categoryId ∨
      ∀ category ∈ t.categories, (change row).categoryId = some category.id → category.deletedAt = EPOCH) :
    Sound (t.updateFolder id change) where
  valid := valid
  displayNames := sound.displayNames
  storedFolders := by
    refine List.forall_mem_map.mpr fun row member => ?_
    split
    · exact stored row member
    · exact sound.storedFolders row member
  storedCategories := sound.storedCategories
  live := by
    apply sound.live.change
    · exact fun category member marked => ⟨category, member, rfl, marked⟩
    · exact fun label member alive => .inl ⟨label, member, alive, rfl⟩
    · refine List.forall_mem_map.mpr fun row member => ?_
      split
      · rename_i own
        rcases category row member own with same | fine
        · exact .inl ⟨row, member, same.symm⟩
        · exact .inr fine
      · exact .inl ⟨row, member, rfl⟩

/-- A column holds stored names, so assigning the name that a row has changes nothing. -/
theorem renameFolder_eq (ids : t.folders.Pairwise (fun a b => a.id ≠ b.id))
    (stored : ∀ folder ∈ t.folders, storedName folder.name = folder.name) (member : folder ∈ t.folders)
    (displayName : Unicode) :
    renameFolder folder displayName t =
      t.updateFolder folder.id fun row => { row with name := storedName displayName } := by
  unfold renameFolder
  split
  · rfl
  · rename_i same
    have name : storedName displayName = folder.name := by
      rw [← not_not.mp same, stored folder member]
    have rows : t.folders.map (fun row => if row.id = folder.id then
        { row with name := storedName displayName } else row) = t.folders := by
      refine (List.map_congr_left fun row among => ?_).trans (List.map_id _)
      split
      · rename_i own
        obtain rfl := eq_of_key ids among member own
        rw [name]
        rfl
      · rfl
    rw [Tables.updateFolder, rows]

theorem renameCategory_eq (ids : t.categories.Pairwise (fun a b => a.id ≠ b.id))
    (stored : ∀ category ∈ t.categories, storedName category.displayName = category.displayName)
    (member : category ∈ t.categories) (displayName : Unicode) :
    renameCategory category displayName t =
      t.updateCategory category.id fun row => { row with displayName := storedName displayName } := by
  unfold renameCategory
  split
  · rfl
  · rename_i same
    have name : storedName displayName = category.displayName := by
      rw [← not_not.mp same, stored category member]
    have rows : t.categories.map (fun row => if row.id = category.id then
        { row with displayName := storedName displayName } else row) = t.categories := by
      refine (List.map_congr_left fun row among => ?_).trans (List.map_id _)
      split
      · rename_i own
        obtain rfl := eq_of_key ids among member own
        rw [name]
        rfl
      · rfl
    rw [Tables.updateCategory, rows]

theorem Sound.renameFolder (sound : Sound t) (id : Nat) (displayName : Unicode) :
    Sound (t.updateFolder id fun row => { row with name := storedName displayName }) := by
  apply sound.updateFolder
  · exact sound.valid.updateFolder id _ fun _ => ⟨rfl, rfl⟩
  · exact fun _ _ => storedName_storedName displayName
  · exact fun _ _ _ => .inl rfl

/-- The names of folders, where the folder of an entry has been given the name of the entry. -/
theorem names_updateFolder (t : Tables) (id : Nat) (displayName : Unicode) :
    ∀ now ∈ (t.updateFolder id fun row => { row with name := storedName displayName }).folders,
      if id = now.id then now.name = storedName displayName
      else ∃ old ∈ t.folders, old.id = now.id ∧ old.name = now.name := by
  refine List.forall_mem_map.mpr fun row member => ?_
  by_cases same : row.id = id
  · simp [same]
  · rw [if_neg same, if_neg (Ne.symm same)]
    exact ⟨row, member, rfl, rfl⟩

theorem target_updateFolder (t : Tables) (id : Nat) (change : Folder → Folder)
    (keeps : ∀ row, (change row).canonicalName = row.canonicalName) (raw : RawFolder) :
    target (t.updateFolder id change) raw =
      (target t raw).map fun row => if row.id = id then change row else row := by
  unfold target
  cases folderRole? raw with
  | none => rfl
  | some role => exact folder?_updateFolder t id change keeps role

theorem FolderStep.of_target (now : Folder) (id : Nat) (sound : Sound later) (labels : later.labels = t.labels)
    (nextId : t.nextId ≤ later.nextId)
    (targets : ∀ other folder, target t other = some folder → folder.categoryId.isSome →
      ∃ now, target later other = some now ∧ now.id = folder.id ∧ now.categoryId = folder.categoryId)
    (own : target later raw = some now) (held : now.categoryId = some id)
    (names : ∀ row ∈ later.folders, if now.id = row.id then row.name = storedName raw.displayName
      else ∃ old ∈ t.folders, old.id = row.id ∧ old.name = row.name)
    (displayNames : ∀ row ∈ later.categories, if id = row.id
      then row.displayName = storedName raw.displayName
      else ∃ old ∈ t.categories, old.id = row.id ∧ old.displayName = row.displayName)
    (gets : ∀ row ∈ later.folders, (∃ old ∈ t.folders, old.categoryId = row.categoryId) ∨
      (folderRole? raw).isSome ∧ (target t raw).bind Folder.categoryId = none ∧
        ∃ id, row.categoryId = some id ∧ Takes t raw.displayName id) :
    FolderStep raw t later where
  sound := sound
  labels := labels
  nextId := nextId
  targets := targets
  own _ := ⟨now, own, by rw [held]; rfl⟩
  names row among := by
    rw [own]
    simpa using names row among
  displayNames row among := by
    rw [own, Option.bind_some, held]
    simpa using displayNames row among
  gets := gets

/-- The folder is there, with its category: both get the name. -/
theorem renamed_step {category : Category} (sound : Sound t) (own : target t raw = some folder)
    (held : folder.categoryId = some category.id)
    (calm : ∀ other ∈ t.categories, other.displayName = storedName raw.displayName → other.id = category.id) :
    FolderStep raw t ((t.updateFolder folder.id fun row => { row with name := storedName raw.displayName
      }).updateCategory category.id fun row => { row with displayName := storedName raw.displayName }) := by
  have targets : ∀ other row, target t other = some row →
      ∃ now, target (t.updateFolder folder.id fun row => { row with name := storedName raw.displayName })
        other = some now ∧ now.id = row.id ∧ now.categoryId = row.categoryId := by
    intro other row there
    have kept := target_updateFolder t folder.id
      (fun row => { row with name := storedName raw.displayName }) (fun _ => rfl) other
    rw [there, Option.map_some] at kept
    refine ⟨_, kept, ?_⟩
    split_ifs <;> exact ⟨rfl, rfl⟩
  obtain ⟨now, itself, same, category'⟩ := targets raw folder own
  have renamed := sound.renameFolder folder.id raw.displayName
  apply FolderStep.of_target now category.id
  · exact renamed.updateCategory category.id _ (fun _ => ⟨rfl, rfl⟩) fun _ _ _ =>
      .inr ⟨storedName_storedName raw.displayName, calm⟩
  · rfl
  · exact le_rfl
  · exact fun other row there _ => targets other row there
  · exact itself
  · exact category'.trans held
  · rw [same]
    exact names_updateFolder t folder.id raw.displayName
  · refine List.forall_mem_map.mpr fun row among => ?_
    by_cases same : row.id = category.id
    · simp [same]
    · simp only [if_neg same, if_neg (Ne.symm same)]
      exact ⟨row, among, rfl, rfl⟩
  · refine List.forall_mem_map.mpr fun row among => .inl ⟨row, among, ?_⟩
    split <;> rfl

theorem Given.displayNames {id : Nat} (given : Given t displayName later id) :
    ∀ row ∈ later.categories, if id = row.id then row.displayName = storedName displayName
      else ∃ old ∈ t.categories, old.id = row.id ∧ old.displayName = row.displayName := by
  intro row among
  obtain ⟨category, there, rfl, displayName, _⟩ := given.there
  split_ifs with same
  · rwa [← eq_of_key given.sound.valid.categoryIds there among same]
  · rcases given.origin row among with old | ⟨new, _⟩
    · exact old
    · exact absurd new.symm same

theorem Given.takes {id : Nat} (given : Given t displayName later id) : Takes t displayName id := by
  obtain ⟨row, there, same, name, _⟩ := given.there
  rcases given.origin row there with ⟨old, held, ids, names⟩ | ⟨_, new⟩
  · exact .inl ⟨old, held, ids.trans same, names.trans name⟩
  · exact .inr new

theorem target_congr (same : later.folders = t.folders) (raw : RawFolder) : target later raw = target t raw := by
  unfold target Tables.folder?
  rw [same]

theorem Valid.assignCategory {id categoryId : Nat} (valid : t.Valid)
    (there : categoryId ∈ t.categories.map Category.id) :
    (t.updateFolder id fun row => { row with categoryId := some categoryId }).Valid := by
  have ids : (t.updateFolder id fun row => { row with categoryId := some categoryId }).folders.map Folder.id =
      t.folders.map Folder.id := by
    refine Tables.map_key fun row _ => ?_
    split <;> rfl
  exact { valid with
    folderIds := (Tables.pairwise_key ids).mpr valid.folderIds
    folderBelow := Tables.forall_id_lt.mpr (ids ▸ Tables.forall_id_lt.mp valid.folderBelow)
    folderCategory := by
      refine List.forall_mem_map.mpr fun row member => ?_
      split
      · intro refers same
        rw [← Option.some.inj same]
        exact there
      · exact valid.folderCategory row member }

theorem Given.unmarked {id : Nat} (given : Given t displayName later id) :
    id ∈ later.categories.map Category.id ∧
      ∀ category ∈ later.categories, category.id = id → category.deletedAt = EPOCH := by
  obtain ⟨category, there, rfl, _, live⟩ := given.there
  refine ⟨List.mem_map_of_mem there, fun other among same => ?_⟩
  rwa [eq_of_key given.sound.valid.categoryIds among there same]

/-- The folder is there without a category, and gets the one of its name. -/
theorem added_step {id : Nat} {now : Tables} (known : (folderRole? raw).isSome)
    (own : target t raw = some folder) (none : folder.categoryId = none)
    (distinct : ∀ other row, target t other = some row → row.id = folder.id → row = folder)
    (given : Given (t.updateFolder folder.id fun row => { row with name := storedName raw.displayName })
      raw.displayName now id) :
    FolderStep raw t (now.updateFolder folder.id fun row => { row with categoryId := some id }) := by
  have targets : ∀ other, target (now.updateFolder folder.id fun row => { row with categoryId := some id })
      other = (target t other).map fun row => if row.id = folder.id then
        { row with name := storedName raw.displayName, categoryId := some id } else row := by
    intro other
    rw [target_updateFolder now folder.id (fun row => { row with categoryId := some id }) (fun _ => rfl),
      target_congr given.folders, target_updateFolder t folder.id
        (fun row => { row with name := storedName raw.displayName }) (fun _ => rfl), Option.map_map]
    congr 1
    funext row
    simp only [Function.comp_apply]
    split_ifs <;> rfl
  obtain ⟨there, live⟩ := given.unmarked
  apply FolderStep.of_target { folder with name := storedName raw.displayName, categoryId := some id } id
  · apply given.sound.updateFolder
    · exact Valid.assignCategory given.sound.valid there
    · exact given.sound.storedFolders
    · exact fun row _ _ => .inr fun category among uses => live category among (Option.some.inj uses).symm
  · exact given.labels
  · exact given.nextId
  · intro other row found some
    refine ⟨row, ?_, rfl, rfl⟩
    rw [targets, found, Option.map_some, if_neg]
    rintro same
    rw [distinct other row found same, none] at some
    exact absurd some (by simp)
  · rw [targets, own, Option.map_some, if_pos rfl]
  · rfl
  · refine List.forall_mem_map.mpr fun row among => ?_
    rw [given.folders] at among
    have named := names_updateFolder t folder.id raw.displayName row among
    by_cases same : row.id = folder.id
    · simpa [same] using named
    · simpa [same, Ne.symm same] using named
  · exact given.displayNames
  · refine List.forall_mem_map.mpr fun row among => ?_
    rw [given.folders] at among
    obtain ⟨old, held, rfl⟩ := List.mem_map.mp among
    by_cases same : old.id = folder.id
    · exact .inr ⟨known, by rw [own, Option.bind_some, none], id, by rw [if_pos same, if_pos same], given.takes⟩
    · exact .inl ⟨old, held, by rw [if_neg same, if_neg same]⟩

/-- No folder has the role; one of its name is made. -/
theorem created_step {id : Nat} {now : Tables} (role : folderRole? raw = some r)
    (none : t.folder? r = none) (given : Given t raw.displayName now id) :
    FolderStep raw t { now with
      folders := now.folders ++ [⟨now.nextId, storedName raw.displayName, r, some id⟩]
      nextId := now.nextId + 1 } := by
  obtain ⟨there, live⟩ := given.unmarked
  apply FolderStep.of_target ⟨now.nextId, storedName raw.displayName, r, some id⟩ id
  · exact {
      valid := given.sound.valid.insertFolder _ rfl fun category same => Option.some.inj same ▸ there
      displayNames := given.sound.displayNames
      storedFolders := List.forall_mem_append.mpr ⟨given.sound.storedFolders, by
        simpa using storedName_storedName raw.displayName⟩
      storedCategories := given.sound.storedCategories
      live := by
        apply given.sound.live.change
        · exact fun category member marked => ⟨category, member, rfl, marked⟩
        · exact fun label member alive => .inl ⟨label, member, alive, rfl⟩
        · refine List.forall_mem_append.mpr ⟨fun row member => .inl ⟨row, member, rfl⟩, ?_⟩
          intro row added
          rw [List.mem_singleton.mp added]
          exact .inr fun category among uses => live category among (Option.some.inj uses).symm }
  · exact given.labels
  · exact Nat.le_succ_of_le given.nextId
  · intro other row found some
    refine ⟨row, ?_, rfl, rfl⟩
    unfold target Tables.folder? at found ⊢
    cases otherRole : folderRole? other with
    | none => simp [otherRole] at found
    | some role =>
      rw [otherRole, Option.bind_some] at found
      rw [Option.bind_some, List.find?_append, given.folders, found]
      rfl
  · unfold target
    rw [role, Option.bind_some, Tables.folder?, List.find?_append, given.folders,
      show t.folders.find? (·.canonicalName = r) = Option.none from none]
    simp
  · rfl
  · have below : ∀ row ∈ now.folders, row.id < now.nextId := given.sound.valid.folderBelow
    refine List.forall_mem_append.mpr ⟨fun row among => ?_, by simp⟩
    rw [if_neg (below row among).ne']
    exact ⟨row, given.folders ▸ among, rfl, rfl⟩
  · exact given.displayNames
  · refine List.forall_mem_append.mpr ⟨fun row among => .inl ⟨row, given.folders ▸ among, rfl⟩, ?_⟩
    refine List.forall_mem_singleton.mpr (.inr ⟨by rw [role]; rfl, ?_, id, rfl, given.takes⟩)
    rw [target, role, Option.bind_some, none, Option.bind_none]

theorem findOrCreateFolder_eq {id : Nat} {now : Tables}
    (free : ∀ folder ∈ t.folders, folder.name ≠ storedName displayName)
    (found : t.findOrCreateCategory role displayName .folder = .ok (now, id)) :
    t.findOrCreateFolder displayName (some role) = .ok ({ now with
      folders := now.folders ++ [⟨now.nextId, storedName displayName, role, some id⟩]
      nextId := now.nextId + 1 }, ⟨now.nextId, storedName displayName, role, some id⟩) := by
  have none : t.folders.filter (·.name = storedName displayName) = [] :=
    List.filter_eq_nil_iff.mpr fun row member => by simpa using free row member
  unfold Tables.findOrCreateFolder
  rw [none]
  simp only [Option.getD_some, found]
  rfl

/-- A category that the folder refers to is there. -/
theorem category_none (valid : t.Valid) (member : folder ∈ t.folders)
    (absent : folder.categoryId.bind t.category? = none) : folder.categoryId = none := by
  cases refers : folder.categoryId with
  | none => rfl
  | some id =>
    obtain ⟨category, there, same⟩ := List.mem_map.mp (valid.folderCategory folder member id refers)
    rw [refers, Option.bind_some, Tables.category?] at absent
    exact absurd (List.find?_eq_none.mp absent category there) (by simp [same])

theorem saveFolder_step (sound : Sound t) (calm : FolderCalm raw t) :
    ∃ later, saveFolder raw t = .ok later ∧ FolderStep raw t later := by
  unfold saveFolder
  split
  · rename_i role known
    have calm := calm role known
    unfold handleRawFolderChange
    split
    · rename_i folder found
      have member := folder?_mem found
      have own : target t raw = some folder := by rw [target, known, Option.bind_some, found]
      simp only [found] at calm
      rw [renameFolder_eq sound.valid.folderIds sound.storedFolders member]
      have same : (folder.categoryId.bind (t.updateFolder folder.id fun row =>
          { row with name := storedName raw.displayName }).category?) = folder.categoryId.bind t.category? := rfl
      simp only [same]
      split
      · rename_i category there
        obtain ⟨id, refers, held⟩ := Option.bind_eq_some_iff.mp there
        obtain ⟨among, rfl⟩ := category?_mem held
        simp only [there] at calm
        have renamed := sound.renameFolder folder.id raw.displayName
        rw [renameCategory_eq renamed.valid.categoryIds renamed.storedCategories among]
        exact ⟨_, rfl, renamed_step sound own refers calm⟩
      · rename_i none
        simp only [none] at calm
        have renamed := sound.renameFolder folder.id raw.displayName
        obtain ⟨now, id, made, given⟩ := renamed.findOrCreateCategory calm role .folder
        rw [made]
        refine ⟨_, rfl, added_step (by rw [known]; rfl) own
          (category_none sound.valid member none) ?_ given⟩
        intro other row there same
        obtain ⟨_, _, held⟩ := Option.bind_eq_some_iff.mp there
        exact eq_of_key sound.valid.folderIds (folder?_mem held) member same
    · rename_i none
      simp only [none] at calm
      obtain ⟨now, id, made, given⟩ := sound.findOrCreateCategory calm.1 role .folder
      rw [findOrCreateFolder_eq calm.2 made]
      exact ⟨_, rfl, created_step known none given⟩
  · rename_i none
    exact ⟨t, rfl, .refl sound none⟩

/-! ## The label of an entry -/

/-- Where the entry needs a label, no category of its name is marked. -/
def LabelCalm (raw : RawFolder) (t : Tables) : Prop :=
  t.label? raw.displayName raw.role = none → Unmarked raw.displayName t

/-- What the label part of the loop's body does, where `id` is what it adds to `current_labels`. -/
structure LabelStep (raw : RawFolder) (t later : Tables) (id : Nat) : Prop where
  sound : Sound later
  folders : later.folders = t.folders
  nextId : t.nextId ≤ later.nextId
  own : ∃ row, later.label? raw.displayName raw.role = some row ∧ row.id = id ∧ row.deletedAt = none
  others : ∀ name role row, t.label? name role = some row →
    ∃ now, later.label? name role = some now ∧ now.id = row.id ∧ (row.deletedAt = none → now.deletedAt = none)
  rows : ∀ now ∈ later.labels, now.id = id ∨ now ∈ t.labels
  categories : ∀ now ∈ later.categories,
    (∃ old ∈ t.categories, old.id = now.id ∧ old.displayName = now.displayName) ∨ t.nextId ≤ now.id
  gets : ∀ now ∈ later.labels, now ∈ t.labels ∨
    (∃ old, t.label? raw.displayName raw.role = some old ∧ old.categoryId = now.categoryId) ∨
      t.label? raw.displayName raw.role = none ∧ Takes t raw.displayName now.categoryId

theorem label?_updateLabel (t : Tables) (id : Nat) (change : Label → Label)
    (keeps : ∀ row, (change row).canonicalName = row.canonicalName ∧ (change row).name = row.name)
    (name : Unicode) (role : Option String) :
    (t.updateLabel id change).label? name role =
      (t.label? name role).map fun row => if row.id = id then change row else row := by
  have canonical : ∀ row : Label,
      (if row.id = id then change row else row).canonicalName = row.canonicalName := by
    intro row
    split
    · exact (keeps row).1
    · rfl
  have named : ∀ row : Label, (if row.id = id then change row else row).name = row.name := by
    intro row
    split
    · exact (keeps row).2
    · rfl
  unfold Tables.label? Tables.updateLabel
  split <;> rw [List.find?_map] <;> simp only [Function.comp_def, canonical, named]

theorem label?_mem (found : t.label? name role = some label) : label ∈ t.labels := by
  unfold Tables.label? at found
  split at found <;> exact List.mem_of_find?_eq_some found

theorem Valid.updateLabel (valid : t.Valid) (id : Nat) (change : Label → Label)
    (keeps : ∀ row, (change row).id = row.id ∧ (change row).categoryId = row.categoryId) :
    (t.updateLabel id change).Valid := by
  have ids : (t.updateLabel id change).labels.map Label.id = t.labels.map Label.id := by
    refine Tables.map_key fun row _ => ?_
    split
    · exact (keeps row).1
    · rfl
  exact { valid with
    labelIds := (Tables.pairwise_key ids).mpr valid.labelIds
    labelBelow := Tables.forall_id_lt.mpr (ids ▸ Tables.forall_id_lt.mp valid.labelBelow)
    labelCategory := by
      refine List.forall_mem_map.mpr fun row member => ?_
      split
      · rw [(keeps row).2]
        exact valid.labelCategory row member
      · exact valid.labelCategory row member }

theorem setDeletedAt_valid (valid : t.Valid) (label : Label) (labelMark : Option Nat) (categoryMark : Nat) :
    (setDeletedAt label labelMark categoryMark t).Valid :=
  (Valid.updateLabel valid label.id (fun row => { row with deletedAt := labelMark })
    fun _ => ⟨rfl, rfl⟩).updateCategory label.categoryId fun _ => rfl

theorem setDeletedAt_displayNames (sound : Sound t) (label : Label) (labelMark : Option Nat) (categoryMark : Nat) :
    (setDeletedAt label labelMark categoryMark t).categories.Pairwise
      (fun a b => a.displayName ≠ b.displayName) := by
  refine List.pairwise_map.mpr (sound.displayNames.imp ?_)
  intro a b differ
  split_ifs <;> exact differ

theorem setDeletedAt_categories (t : Tables) (label : Label) (labelMark : Option Nat) (categoryMark : Nat) :
    ∀ now ∈ (setDeletedAt label labelMark categoryMark t).categories, ∃ old ∈ t.categories, old.id = now.id ∧
      old.displayName = now.displayName ∧ (now.id = label.categoryId ∧ now.deletedAt = categoryMark ∨
        now.id ≠ label.categoryId ∧ now.deletedAt = old.deletedAt) := by
  refine List.forall_mem_map.mpr fun row member => ⟨row, member, ?_⟩
  split_ifs with same
  · exact ⟨rfl, rfl, .inl ⟨same, rfl⟩⟩
  · exact ⟨rfl, rfl, .inr ⟨same, rfl⟩⟩

theorem setDeletedAt_labels (t : Tables) (label : Label) (labelMark : Option Nat) (categoryMark : Nat) :
    ∀ now ∈ (setDeletedAt label labelMark categoryMark t).labels,
      now.id = label.id ∧ now.deletedAt = labelMark ∧ (∃ old ∈ t.labels, old.id = now.id ∧
        old.categoryId = now.categoryId ∧ old.canonicalName = now.canonicalName) ∨
      now.id ≠ label.id ∧ now ∈ t.labels := by
  refine List.forall_mem_map.mpr fun row member => ?_
  split_ifs with same
  · exact .inl ⟨same, rfl, row, member, rfl, rfl, rfl⟩
  · exact .inr ⟨same, member⟩

/-- Marks are changed, and what uses a category that stays or becomes marked is not live. -/
theorem Sound.of_setDeletedAt (sound : Sound t) (label : Label) (labelMark : Option Nat) (categoryMark : Nat)
    (live : UsedAreLive (setDeletedAt label labelMark categoryMark t)) :
    Sound (setDeletedAt label labelMark categoryMark t) where
  valid := setDeletedAt_valid sound.valid label labelMark categoryMark
  displayNames := setDeletedAt_displayNames sound label labelMark categoryMark
  storedFolders := sound.storedFolders
  storedCategories := by
    intro now member
    obtain ⟨old, held, _, same, _⟩ := setDeletedAt_categories t label labelMark categoryMark now member
    rw [← same]
    exact sound.storedCategories old held
  live := live

theorem Sound.unmark (sound : Sound t) (member : label ∈ t.labels) : Sound (setDeletedAt label none EPOCH t) := by
  apply sound.of_setDeletedAt
  apply sound.live.change
  · intro now among marked
    obtain ⟨old, held, same, _, ⟨_, epoch⟩ | ⟨_, mark⟩⟩ := setDeletedAt_categories t label none EPOCH now among
    · exact absurd epoch marked
    · exact ⟨old, held, same, mark ▸ marked⟩
  · intro now among alive
    rcases setDeletedAt_labels t label none EPOCH now among with ⟨same, _, old, held, ids, category, _⟩ | ⟨_, held⟩
    · right
      intro row there uses
      obtain rfl := eq_of_key sound.valid.labelIds held member (ids.trans same)
      obtain ⟨_, _, _, _, ⟨_, epoch⟩ | ⟨other, _⟩⟩ := setDeletedAt_categories t old none EPOCH row there
      · exact epoch
      · exact absurd (uses.trans category.symm) other
    · exact .inl ⟨now, held, alive, rfl⟩
  · exact fun folder member => .inl ⟨folder, member, rfl⟩

theorem label?_setDeletedAt (t : Tables) (label : Label) (labelMark : Option Nat) (categoryMark : Nat)
    (name : Unicode) (role : Option String) :
    (setDeletedAt label labelMark categoryMark t).label? name role = (t.label? name role).map fun row =>
      if row.id = label.id then { row with deletedAt := labelMark } else row :=
  label?_updateLabel t label.id (fun row => { row with deletedAt := labelMark }) (fun _ => ⟨rfl, rfl⟩) name role

theorem LabelStep.live (sound : Sound t) (found : t.label? raw.displayName raw.role = some label)
    (alive : label.deletedAt = none) : LabelStep raw t t label.id where
  sound := sound
  folders := rfl
  nextId := le_rfl
  own := ⟨label, found, rfl, alive⟩
  others _ _ row there := ⟨row, there, rfl, id⟩
  rows _ member := .inr member
  categories now member := .inl ⟨now, member, rfl, rfl⟩
  gets _ member := .inl member

theorem LabelStep.reappeared (sound : Sound t) (found : t.label? raw.displayName raw.role = some label) :
    LabelStep raw t (setDeletedAt label none EPOCH t) label.id where
  sound := sound.unmark (label?_mem found)
  folders := rfl
  nextId := le_rfl
  own := ⟨{ label with deletedAt := none }, by
    rw [label?_setDeletedAt, found, Option.map_some, if_pos rfl], rfl, rfl⟩
  others name role row there := by
    rw [label?_setDeletedAt, there, Option.map_some]
    by_cases same : row.id = label.id
    · rw [if_pos same]
      exact ⟨_, rfl, rfl, fun _ => rfl⟩
    · rw [if_neg same]
      exact ⟨row, rfl, rfl, id⟩
  rows now member := by
    rcases setDeletedAt_labels t label none EPOCH now member with ⟨same, _⟩ | ⟨_, held⟩
    · exact .inl same
    · exact .inr held
  categories now member := by
    obtain ⟨old, held, same, named, _⟩ := setDeletedAt_categories t label none EPOCH now member
    exact .inl ⟨old, held, same, named⟩
  gets now member := by
    rcases setDeletedAt_labels t label none EPOCH now member with
      ⟨same, _, old, among, ids, category, _⟩ | ⟨_, held⟩
    · obtain rfl := eq_of_key sound.valid.labelIds among (label?_mem found) (ids.trans same)
      exact .inr (.inl ⟨old, found, category⟩)
    · exact .inl held

theorem Valid.insertLabel (valid : t.Valid) (row : Label) (next : row.id = t.nextId)
    (refers : row.categoryId ∈ t.categories.map Category.id) :
    Tables.Valid { t with labels := t.labels ++ [row], nextId := t.nextId + 1 } where
  categoryIds := valid.categoryIds
  folderIds := valid.folderIds
  labelIds := Tables.pairwise_append_new valid.labelIds valid.labelBelow row next
  categoryBelow old member := Nat.lt_succ_of_lt (valid.categoryBelow old member)
  folderBelow old member := Nat.lt_succ_of_lt (valid.folderBelow old member)
  labelBelow := by
    refine List.forall_mem_append.mpr ⟨fun old member => Nat.lt_succ_of_lt (valid.labelBelow old member), ?_⟩
    simp [next]
  folderCategory := valid.folderCategory
  labelCategory := List.forall_mem_append.mpr ⟨valid.labelCategory, by simpa using refers⟩

theorem label?_insert (same : later.labels = t.labels ++ [label]) (name : Unicode) (role : Option String) :
    later.label? name role =
      (t.label? name role).or (Tables.label? { t with labels := [label] } name role) := by
  unfold Tables.label?
  rw [same]
  split <;> exact List.find?_append

theorem label?_own (same : later.labels = t.labels ++ [label]) (absent : t.label? name role = none)
    (canonical : label.canonicalName = role.getD "") (named : label.name = storedName name) :
    later.label? name role = some label := by
  rw [label?_insert same, absent, Option.none_or]
  simp [Tables.label?, canonical, named]

theorem LabelStep.created {categoryId : Nat} {now : Tables}
    (absent : t.label? raw.displayName raw.role = none) (given : Given t raw.displayName now categoryId) :
    LabelStep raw t { now with
      labels := now.labels ++
        [⟨now.nextId, storedName raw.displayName, raw.role.getD "", categoryId, none⟩]
      nextId := now.nextId + 1 } now.nextId := by
  obtain ⟨there, live⟩ := given.unmarked
  exact {
    sound := {
      valid := Valid.insertLabel given.sound.valid _ rfl there
      displayNames := given.sound.displayNames
      storedFolders := given.sound.storedFolders
      storedCategories := given.sound.storedCategories
      live := by
        apply given.sound.live.change
        · exact fun category member marked => ⟨category, member, rfl, marked⟩
        · refine List.forall_mem_append.mpr ⟨fun row member alive => .inl ⟨row, member, alive, rfl⟩, ?_⟩
          intro row added _
          rw [List.mem_singleton.mp added]
          exact .inr live
        · exact fun folder member => .inl ⟨folder, member, rfl⟩ }
    folders := given.folders
    nextId := Nat.le_succ_of_le given.nextId
    own := ⟨_, label?_own (by rw [given.labels]) absent rfl rfl, rfl, rfl⟩
    others := fun name role row found => ⟨row, by
      rw [label?_insert (t := t) (by rw [given.labels]), found, Option.some_or], rfl, id⟩
    rows := List.forall_mem_append.mpr ⟨fun row member => .inr (given.labels ▸ member), by simp⟩
    categories := by
      intro row member
      rcases given.origin row member with old | ⟨rfl, new⟩
      · exact .inl old
      · exact .inr new
    gets := by
      refine List.forall_mem_append.mpr ⟨fun row member => .inl (given.labels ▸ member), ?_⟩
      exact List.forall_mem_singleton.mpr (.inr (.inr ⟨absent, given.takes⟩)) }

theorem saveLabel_step (sound : Sound t) (calm : LabelCalm raw t) :
    ∃ later id, saveLabel raw t = .ok (later, id) ∧ LabelStep raw t later id := by
  unfold saveLabel Tables.findOrCreateLabel
  cases found : t.label? raw.displayName raw.role with
  | some label =>
    cases alive : label.deletedAt with
    | none =>
      refine ⟨t, label.id, ?_, .live sound found alive⟩
      show Except.ok (unmark label t, label.id) = _
      rw [unmark, alive]
      rfl
    | some mark =>
      refine ⟨_, label.id, ?_, .reappeared sound found⟩
      show Except.ok (unmark label t, label.id) = _
      rw [unmark, alive]
      rfl
  | none =>
    obtain ⟨now, categoryId, made, given⟩ :=
      sound.findOrCreateCategory (calm found) (raw.role.getD "") .label
    simp only [made]
    exact ⟨_, _, rfl, .created found given⟩

/-! ## The loop -/

/-- The name that is left by the entries that set it. -/
def overwrite (hit : RawFolder → Prop) [DecidablePred hit] (raws : List RawFolder) (name : Unicode) :
    Unicode :=
  raws.foldl (fun name raw => if hit raw then storedName raw.displayName else name) name

/-- The entry sets the name of this folder. -/
abbrev NamesFolder (t : Tables) (id : Nat) (raw : RawFolder) : Prop :=
  (target t raw).map Folder.id = some id

abbrev NamesCategory (t : Tables) (id : Nat) (raw : RawFolder) : Prop :=
  (target t raw).bind Folder.categoryId = some id

theorem overwrite_append (hit : RawFolder → Prop) [DecidablePred hit] (raws : List RawFolder)
    (raw : RawFolder) (name : Unicode) : overwrite hit (raws ++ [raw]) name =
      if hit raw then storedName raw.displayName else overwrite hit raws name := by
  unfold overwrite
  rw [List.foldl_append]
  rfl

theorem overwrite_congr {hit other : RawFolder → Prop} [DecidablePred hit] [DecidablePred other]
    (raws : List RawFolder) (name : Unicode) (same : ∀ raw ∈ raws, hit raw ↔ other raw) :
    overwrite hit raws name = overwrite other raws name := by
  unfold overwrite
  apply List.foldl_ext
  intro name raw member
  simp only [same raw member]

theorem overwrite_none {hit : RawFolder → Prop} [DecidablePred hit] (raws : List RawFolder) (name : Unicode)
    (none : ∀ raw ∈ raws, ¬ hit raw) : overwrite hit raws name = name := by
  induction raws with
  | nil => rfl
  | cons raw rest step =>
    unfold overwrite
    rw [List.foldl_cons, if_neg (none raw List.mem_cons_self)]
    exact step fun other member => none other (List.mem_cons_of_mem _ member)

theorem overwrite_stored {hit : RawFolder → Prop} [DecidablePred hit] (raws : List RawFolder)
    (stored : storedName name = name) :
    storedName (overwrite hit raws name) = overwrite hit raws name := by
  induction raws generalizing name with
  | nil => exact stored
  | cons raw rest step =>
    apply step
    dsimp only
    split
    · exact storedName_storedName raw.displayName
    · exact stored

/-- The label of an entry of the list. -/
def Entered (raws : List RawFolder) (t : Tables) (label : Label) : Prop :=
  ∃ raw ∈ raws, raw.role ≠ some "starred" ∧ t.label? raw.displayName raw.role = some label

/-- What holds when the labels of the entries `entered` and the folders of the entries `named` are
done, where the call began with `old`. -/
structure Saved (old : Tables) (entered named : List RawFolder) (t : Tables) (current : List Nat) : Prop where
  sound : Sound t
  found : ∀ raw ∈ entered, raw.role ≠ some "starred" →
    ∃ label, t.label? raw.displayName raw.role = some label ∧ label.id ∈ current ∧ label.deletedAt = none
  listed : ∀ id ∈ current, ∃ label, Entered entered t label ∧ label.id = id
  targets : ∀ raw ∈ named, (folderRole? raw).isSome →
    ∃ folder, target t raw = some folder ∧ folder.categoryId.isSome
  names : ∀ folder ∈ t.folders, overwrite (NamesFolder t folder.id) named folder.name = folder.name
  displayNames : ∀ category ∈ t.categories,
    overwrite (NamesCategory t category.id) named category.displayName = category.displayName
  rows : ∀ label ∈ t.labels, label.id ∈ current ∨ label ∈ old.labels

variable {old : Tables} {entered named : List RawFolder} {current : List Nat}

theorem saved_nil (sound : Sound t) : Saved t [] [] t [] where
  sound := sound
  found _ member := absurd member List.not_mem_nil
  listed _ member := absurd member List.not_mem_nil
  targets _ member := absurd member List.not_mem_nil
  names _ _ := rfl
  displayNames _ _ := rfl
  rows _ member := .inr member

theorem target_none (absent : folderRole? raw = none) : target t raw = none := by
  rw [target, absent, Option.bind_none]

theorem folderRole?_starred (starred : raw.role = some "starred") : folderRole? raw = none := by
  rw [folderRole?, starred]
  decide

/-- The entries that are done name the same rows as before. -/
theorem Saved.same_target (saved : Saved old entered named t current) (step : FolderStep raw t later)
    (member : other ∈ named) : (target later other).map Folder.id = (target t other).map Folder.id ∧
      (target later other).bind Folder.categoryId = (target t other).bind Folder.categoryId := by
  cases role : folderRole? other with
  | none => rw [target_none role, target_none role]; exact ⟨rfl, rfl⟩
  | some _ =>
    obtain ⟨folder, found, some⟩ := saved.targets other member (by rw [role]; rfl)
    obtain ⟨now, there, ids, category⟩ := step.targets other folder found some
    rw [found, there, Option.map_some, Option.map_some, Option.bind_some, Option.bind_some, ids, category]
    exact ⟨rfl, rfl⟩

theorem Saved.afterFolder (saved : Saved old entered named t current) (step : FolderStep raw t later) :
    Saved old entered (named ++ [raw]) later current where
  sound := step.sound
  found other member := by
    unfold Tables.label?
    rw [step.labels]
    exact saved.found other member
  listed id member := by
    unfold Entered Tables.label?
    rw [step.labels]
    exact saved.listed id member
  targets := by
    refine List.forall_mem_append.mpr ⟨fun other member some => ?_, ?_⟩
    · obtain ⟨folder, found, category⟩ := saved.targets other member some
      obtain ⟨now, there, _, same⟩ := step.targets other folder found category
      exact ⟨now, there, same ▸ category⟩
    · simpa using step.own
  names folder member := by
    have names := step.names folder member
    rw [overwrite_append]
    split_ifs at names ⊢
    · exact names.symm
    · obtain ⟨before, held, ids, name⟩ := names
      rw [← name, ← ids]
      refine Eq.trans ?_ (saved.names before held)
      exact overwrite_congr named before.name fun other among => by
        unfold NamesFolder
        rw [(saved.same_target step among).1]
  displayNames category member := by
    have names := step.displayNames category member
    rw [overwrite_append]
    split_ifs at names ⊢
    · exact names.symm
    · obtain ⟨before, held, ids, name⟩ := names
      rw [← name, ← ids]
      refine Eq.trans ?_ (saved.displayNames before held)
      exact overwrite_congr named before.displayName fun other among => by
        unfold NamesCategory
        rw [(saved.same_target step among).2]
  rows := step.labels ▸ saved.rows

/-- An entry names a category that is there. -/
theorem namesCategory_mem {id : Nat} (valid : t.Valid) (names : NamesCategory t id raw) :
    id ∈ t.categories.map Category.id := by
  obtain ⟨folder, found, refers⟩ := Option.bind_eq_some_iff.mp names
  obtain ⟨role, _, held⟩ := Option.bind_eq_some_iff.mp found
  exact valid.folderCategory folder (folder?_mem held) id refers

theorem Saved.afterLabel {id : Nat} (saved : Saved old entered named t current) (step : LabelStep raw t later id)
    (unstarred : raw.role ≠ some "starred") : Saved old (entered ++ [raw]) named later (current ++ [id]) where
  sound := step.sound
  found := by
    refine List.forall_mem_append.mpr ⟨fun other member unstarred => ?_, ?_⟩
    · obtain ⟨label, found, listed, alive⟩ := saved.found other member unstarred
      obtain ⟨now, there, ids, still⟩ := step.others _ _ label found
      exact ⟨now, there, List.mem_append_left _ (ids ▸ listed), still alive⟩
    · intro other added _
      obtain rfl := List.mem_singleton.mp added
      obtain ⟨label, found, ids, alive⟩ := step.own
      exact ⟨label, found, by simp [ids], alive⟩
  listed := by
    refine List.forall_mem_append.mpr ⟨fun other member => ?_, fun other added => ?_⟩
    · obtain ⟨label, ⟨before, among, plain, found⟩, rfl⟩ := saved.listed other member
      obtain ⟨now, there, ids, _⟩ := step.others _ _ label found
      exact ⟨now, ⟨before, List.mem_append_left _ among, plain, there⟩, ids⟩
    · obtain rfl := List.mem_singleton.mp added
      obtain ⟨label, found, ids, _⟩ := step.own
      exact ⟨label, ⟨raw, by simp, unstarred, found⟩, ids⟩
  targets other member some := by
    rw [target_congr step.folders]
    exact saved.targets other member some
  names := by
    intro folder member
    rw [step.folders] at member
    refine Eq.trans ?_ (saved.names folder member)
    exact overwrite_congr named folder.name fun other _ => by rw [NamesFolder, target_congr step.folders]
  displayNames category member := by
    have same : overwrite (NamesCategory later category.id) named category.displayName =
        overwrite (NamesCategory t category.id) named category.displayName :=
      overwrite_congr named _ fun other _ => by rw [NamesCategory, target_congr step.folders]
    rw [same]
    rcases step.categories category member with ⟨before, held, ids, name⟩ | new
    · rw [← name, ← ids]
      exact saved.displayNames before held
    · refine overwrite_none named _ fun other _ names => ?_
      obtain ⟨row, held, ids⟩ := List.mem_map.mp (namesCategory_mem saved.sound.valid names)
      exact absurd (saved.sound.valid.categoryBelow row held) (by omega)
  rows label member := by
    rcases step.rows label member with rfl | held
    · exact .inl (by simp)
    · rcases saved.rows label held with listed | before
      · exact .inl (List.mem_append_left _ listed)
      · exact .inr before

theorem Saved.starred (saved : Saved old done done t current) (starred : raw.role = some "starred") :
    Saved old (done ++ [raw]) (done ++ [raw]) t current where
  sound := saved.sound
  found := by
    refine List.forall_mem_append.mpr ⟨saved.found, fun other added plain => ?_⟩
    rw [List.mem_singleton.mp added] at plain
    exact absurd starred plain
  listed id member := by
    obtain ⟨label, ⟨before, among, plain, found⟩, same⟩ := saved.listed id member
    exact ⟨label, ⟨before, List.mem_append_left _ among, plain, found⟩, same⟩
  targets := by
    refine List.forall_mem_append.mpr ⟨saved.targets, fun other added some => ?_⟩
    rw [List.mem_singleton.mp added, folderRole?_starred starred] at some
    exact absurd some (by simp)
  names folder member := by
    rw [overwrite_append, if_neg (by simp [NamesFolder, target_none (folderRole?_starred starred)])]
    exact saved.names folder member
  displayNames category member := by
    rw [overwrite_append, if_neg (by simp [NamesCategory, target_none (folderRole?_starred starred)])]
    exact saved.displayNames category member
  rows := saved.rows

/-- The lookups of an entry find no marked category, and its name is not another's. -/
def EntryCalm (raw : RawFolder) (t : Tables) : Prop :=
  raw.role ≠ some "starred" →
    FolderCalm raw t ∧ ∀ later, saveFolder raw t = .ok later → LabelCalm raw later

/-- What the loop's body does for an entry. -/
inductive EntryStep (raw : RawFolder) (t : Tables) : Tables → Prop where
  | starred : EntryStep raw t t
  | saved {mid later : Tables} {id : Nat} (unstarred : raw.role ≠ some "starred")
    (folder : FolderStep raw t mid) (label : LabelStep raw mid later id) : EntryStep raw t later

theorem saveEntry_step (saved : Saved old done done t current) (calm : EntryCalm raw t) :
    ∃ later now, saveEntry (t, current) raw = .ok (later, now) ∧ EntryStep raw t later ∧
      Saved old (done ++ [raw]) (done ++ [raw]) later now := by
  unfold saveEntry
  split
  · rename_i starred
    exact ⟨t, current, rfl, .starred, saved.starred starred⟩
  · rename_i unstarred
    obtain ⟨folderCalm, labelCalm⟩ := calm unstarred
    obtain ⟨mid, folder, folderStep⟩ := saveFolder_step saved.sound folderCalm
    obtain ⟨later, id, label, labelStep⟩ := saveLabel_step folderStep.sound (labelCalm mid folder)
    refine ⟨later, current ++ [id], ?_, .saved unstarred folderStep labelStep,
      (saved.afterFolder folderStep).afterLabel labelStep unstarred⟩
    simp only [folder]
    show (saveLabel raw mid >>= _) = _
    rw [label]
    rfl

/-- Every entry of the list is calm where the loop comes to it. -/
def LoopCalm : List RawFolder → Tables × List Nat → Prop
  | [], _ => True
  | raw :: rest, s => EntryCalm raw s.1 ∧ ∀ later, saveEntry s raw = .ok later → LoopCalm rest later

/-! ## The categories of labels that are gone -/

/-- A live label of the user's own that no entry finds. -/
def Gone (rawFolders : List RawFolder) (t : Tables) (label : Label) : Prop :=
  label.deletedAt = none ∧ label.canonicalName = "" ∧ ¬ Entered rawFolders t label

/-- The entry needs a new label, or a category for its folder. -/
def Needs (t : Tables) (raw : RawFolder) : Prop :=
  raw.role ≠ some "starred" ∧ (t.label? raw.displayName raw.role = none ∨
    (folderRole? raw).isSome ∧ (target t raw).bind Folder.categoryId = none)

/-- The category is used by no folder, by no label that an entry finds and by no live one with a role, and
no entry that needs a label or a category has its name. -/
structure Alone (rawFolders : List RawFolder) (t : Tables) (id : Nat) : Prop where
  labels : ∀ label ∈ t.labels, label.categoryId = id →
    ¬ Entered rawFolders t label ∧ (label.deletedAt = none → label.canonicalName = "")
  folders : ∀ folder ∈ t.folders, folder.categoryId ≠ some id
  names : ∀ category ∈ t.categories, category.id = id → ∀ raw ∈ rawFolders, Needs t raw →
    category.displayName ≠ storedName raw.displayName

/-- What an entry has found in `old`, it finds. -/
structure Lasting (old t : Tables) : Prop where
  targets : ∀ raw folder, target old raw = some folder → folder.categoryId.isSome →
    ∃ now, target t raw = some now ∧ now.categoryId = folder.categoryId
  found : ∀ name role label, old.label? name role = some label →
    ∃ now, t.label? name role = some now ∧ now.id = label.id

/-- The tables that have become of `old`, where nothing has come to use the category. -/
structure Apart (old : Tables) (id : Nat) (t : Tables) : Prop where
  below : id < t.nextId
  displayName : ∀ now ∈ t.categories, now.id = id →
    ∃ before ∈ old.categories, before.id = id ∧ before.displayName = now.displayName
  folders : ∀ folder ∈ t.folders, folder.categoryId ≠ some id
  labels : ∀ label ∈ t.labels, label.categoryId = id → label ∈ old.labels

section Apart
variable {raws : List RawFolder} {raw : RawFolder} {id labelId : Nat}

theorem Lasting.refl (t : Tables) : Lasting t t :=
  ⟨fun _ folder found _ => ⟨folder, found, rfl⟩, fun _ _ label found => ⟨label, found, rfl⟩⟩

theorem Lasting.folder (lasting : Lasting old t) (step : FolderStep raw t later) : Lasting old later where
  targets other folder found some := by
    obtain ⟨now, there, same⟩ := lasting.targets other folder found some
    obtain ⟨last, there, _, category⟩ := step.targets other now there (same ▸ some)
    exact ⟨last, there, category.trans same⟩
  found name role label there := by
    obtain ⟨now, found, same⟩ := lasting.found name role label there
    refine ⟨now, ?_, same⟩
    unfold Tables.label? at found ⊢
    rwa [step.labels]

theorem Lasting.label (lasting : Lasting old t) (step : LabelStep raw t later labelId) : Lasting old later where
  targets other folder found some := by
    rw [target_congr step.folders]
    exact lasting.targets other folder found some
  found name role label there := by
    obtain ⟨now, found, same⟩ := lasting.found name role label there
    obtain ⟨last, there, ids, _⟩ := step.others name role now found
    exact ⟨last, there, ids.trans same⟩

theorem Lasting.entry (lasting : Lasting old t) (step : EntryStep raw t later) : Lasting old later := by
  cases step with
  | starred => exact lasting
  | saved _ folder label => exact (lasting.folder folder).label label

/-- An old row that an entry finds has been found by it from the beginning. -/
theorem Lasting.finds (lasting : Lasting old t) (sound : Sound old) {label : Label}
    (member : label ∈ old.labels) (entered : Entered raws t label) : Entered raws old label := by
  obtain ⟨raw, among, unstarred, found⟩ := entered
  obtain ⟨row, there⟩ : ∃ row, old.label? raw.displayName raw.role = some row := by
    rw [← Option.isSome_iff_exists]
    unfold Tables.label? at found ⊢
    split_ifs at found ⊢ <;> exact List.find?_isSome.mpr ⟨label, member, (List.find?_some found :)⟩
  obtain ⟨now, still, same⟩ := lasting.found _ _ row there
  obtain rfl := Option.some.inj (found.symm.trans still)
  rw [eq_of_key sound.valid.labelIds (label?_mem there) member same.symm] at there
  exact ⟨raw, among, unstarred, there⟩

/-- An entry that needs a category does not get this one. -/
theorem Apart.takes (apart : Apart old id t) (alone : Alone raws old id) (member : raw ∈ raws)
    (needs : Needs old raw) : ¬ Takes t raw.displayName id := by
  rintro (⟨category, held, same, name⟩ | new)
  · obtain ⟨before, there, ids, displayName⟩ := apart.displayName category held same
    exact alone.names before there ids raw member needs (displayName.trans name)
  · exact absurd apart.below (Nat.not_lt.mpr new)

theorem Apart.folder (apart : Apart old id t) (alone : Alone raws old id) (lasting : Lasting old t)
    (member : raw ∈ raws) (unstarred : raw.role ≠ some "starred") (step : FolderStep raw t later) :
    Apart old id later := by
  have folders : ∀ folder ∈ later.folders, folder.categoryId ≠ some id := by
    intro folder among uses
    rcases step.gets folder among with ⟨before, held, same⟩ | ⟨known, lacking, other, own, takes⟩
    · exact apart.folders before held (same.trans uses)
    · obtain rfl := Option.some.inj (uses.symm.trans own)
      refine apart.takes alone member ⟨unstarred, .inr ⟨known, ?_⟩⟩ takes
      cases before : target old raw with
      | none => rfl
      | some row =>
        by_contra has
        obtain ⟨now, there, same⟩ := lasting.targets raw row before (Option.isSome_iff_ne_none.mpr has)
        rw [there, Option.bind_some, same] at lacking
        exact has lacking
  refine ⟨Nat.lt_of_lt_of_le apart.below step.nextId, fun now held same => ?_, folders, fun label held => ?_⟩
  · have named := step.displayNames now held
    rw [if_neg] at named
    · obtain ⟨before, there, ids, name⟩ := named
      obtain ⟨first, there, ids, name'⟩ := apart.displayName before there (ids.trans same)
      exact ⟨first, there, ids, name'.trans name⟩
    · intro uses
      obtain ⟨folder, found, category⟩ := Option.bind_eq_some_iff.mp uses
      obtain ⟨_, _, among⟩ := Option.bind_eq_some_iff.mp found
      exact folders folder (folder?_mem among) (category.trans (congrArg some same))
  · rw [step.labels] at held
    exact apart.labels label held

theorem Apart.label (apart : Apart old id t) (alone : Alone raws old id) (lasting : Lasting old t)
    (sound : Sound old) (member : raw ∈ raws) (unstarred : raw.role ≠ some "starred")
    (step : LabelStep raw t later labelId) : Apart old id later := by
  refine ⟨Nat.lt_of_lt_of_le apart.below step.nextId, fun now held same => ?_, ?_, fun label held uses => ?_⟩
  · rcases step.categories now held with ⟨before, there, ids, name⟩ | new
    · obtain ⟨first, there, ids, name'⟩ := apart.displayName before there (ids.trans same)
      exact ⟨first, there, ids, name'.trans name⟩
    · exact absurd apart.below (Nat.not_lt.mpr (same ▸ new))
  · rw [step.folders]
    exact apart.folders
  · rcases step.gets label held with there | ⟨before, found, same⟩ | ⟨absent, takes⟩
    · exact apart.labels label there uses
    · have row := apart.labels before (label?_mem found) (same.trans uses)
      exact absurd (lasting.finds sound row ⟨raw, member, unstarred, found⟩)
        (alone.labels before row (same.trans uses)).1
    · rw [uses] at takes
      refine absurd takes (apart.takes alone member ⟨unstarred, .inl ?_⟩)
      by_contra has
      obtain ⟨row, there⟩ := Option.ne_none_iff_exists'.mp has
      obtain ⟨now, found, _⟩ := lasting.found _ _ row there
      exact Option.some_ne_none now (found.symm.trans absent)

theorem Apart.entry (apart : Apart old id t) (alone : Alone raws old id) (lasting : Lasting old t)
    (sound : Sound old) (member : raw ∈ raws) (step : EntryStep raw t later) : Apart old id later := by
  cases step with
  | starred => exact apart
  | saved unstarred folder label =>
    exact (apart.folder alone lasting member unstarred folder).label alone (lasting.folder folder) sound member
      unstarred label

end Apart

/-- Every category that is alone is kept apart by the loop. -/
theorem saveEntries_run {all : List RawFolder} (saved : Saved old done done t current) (sound : Sound old)
    (lasting : Lasting old t) (apart : ∀ id, Alone all old id → id < old.nextId → Apart old id t)
    (members : ∀ raw ∈ raws, raw ∈ all) (calm : LoopCalm raws (t, current)) :
    ∃ later now, raws.foldlM saveEntry (t, current) = .ok (later, now) ∧ Lasting old later ∧
      (∀ id, Alone all old id → id < old.nextId → Apart old id later) ∧
        Saved old (done ++ raws) (done ++ raws) later now := by
  induction raws generalizing done t current with
  | nil => exact ⟨t, current, rfl, lasting, apart, by simpa using saved⟩
  | cons raw rest step =>
    obtain ⟨mid, now, first, entry, saved⟩ := saveEntry_step saved calm.1
    obtain ⟨later, now, run, lasting, apart, saved⟩ := step saved (lasting.entry entry)
      (fun id alone below =>
        (apart id alone below).entry alone lasting sound (members raw List.mem_cons_self) entry)
      (fun other member => members other (List.mem_cons_of_mem raw member)) (calm.2 _ first)
    refine ⟨later, now, ?_, lasting, apart, by simpa using saved⟩
    rw [List.foldlM_cons, first]
    exact run

/-! ## Marking what is gone -/

theorem markDeletedLabels_eq (now : Nat) (deleted : List Label) (t : Tables) :
    markDeletedLabels now deleted t = { t with
      labels := t.labels.map fun row =>
        if row.id ∈ deleted.map Label.id then { row with deletedAt := some now } else row
      categories := t.categories.map fun row =>
        if row.id ∈ deleted.map Label.categoryId then { row with deletedAt := now } else row } := by
  induction deleted generalizing t with
  | nil => simp [markDeletedLabels]
  | cons label rest step =>
    rw [markDeletedLabels, List.foldl_cons]
    refine (step _).trans ?_
    simp only [setDeletedAt, Tables.updateLabel, Tables.updateCategory, List.map_map, List.map_cons,
      List.mem_cons]
    congr 1
    · refine List.map_congr_left fun row _ => ?_
      simp only [Function.comp_apply]
      by_cases first : row.id = label.categoryId <;>
        by_cases second : row.id ∈ rest.map Label.categoryId <;> simp [first, second]
    · refine List.map_congr_left fun row _ => ?_
      simp only [Function.comp_apply]
      by_cases first : row.id = label.id <;>
        by_cases second : row.id ∈ rest.map Label.id <;> simp [first, second]

/-- Nothing that stays shares a category with a label that is marked. -/
def MarkCalm (deleted : List Label) (t : Tables) : Prop :=
  ∀ label ∈ deleted,
    (∀ other ∈ t.labels, other.deletedAt = none → other.categoryId = label.categoryId → other ∈ deleted) ∧
      ∀ folder ∈ t.folders, folder.categoryId ≠ some label.categoryId

theorem markDeletedLabels_labels (now : Nat) (deleted : List Label) (t : Tables) :
    ∀ row ∈ (markDeletedLabels now deleted t).labels,
      ∃ before ∈ t.labels, before.id = row.id ∧ before.categoryId = row.categoryId ∧
        before.canonicalName = row.canonicalName ∧
          (before.id ∈ deleted.map Label.id ∧ row.deletedAt = some now ∨
            before.id ∉ deleted.map Label.id ∧ row = before) := by
  rw [markDeletedLabels_eq]
  refine List.forall_mem_map.mpr fun row member => ⟨row, member, ?_⟩
  split_ifs with gone
  · exact ⟨rfl, rfl, rfl, .inl ⟨gone, rfl⟩⟩
  · exact ⟨rfl, rfl, rfl, .inr ⟨gone, rfl⟩⟩

theorem markDeletedLabels_valid (valid : t.Valid) (now : Nat) (deleted : List Label) :
    (markDeletedLabels now deleted t).Valid := by
  unfold markDeletedLabels
  induction deleted generalizing t with
  | nil => exact valid
  | cons label rest step => exact step (setDeletedAt_valid valid label (some now) now)

theorem Sound.markDeletedLabels (sound : Sound t) (now : Nat) (deleted : List Label)
    (calm : MarkCalm deleted t) : Sound (Gmail.markDeletedLabels now deleted t) where
  valid := markDeletedLabels_valid sound.valid now deleted
  displayNames := by
    rw [markDeletedLabels_eq]
    refine List.pairwise_map.mpr (sound.displayNames.imp ?_)
    intro a b differ
    split_ifs <;> exact differ
  storedFolders := by
    rw [markDeletedLabels_eq]
    exact sound.storedFolders
  storedCategories := by
    rw [markDeletedLabels_eq]
    refine List.forall_mem_map.mpr fun row member => ?_
    split_ifs <;> exact sound.storedCategories row member
  live := by
    intro category member marked
    have uses : ∀ label ∈ (Gmail.markDeletedLabels now deleted t).labels, label.deletedAt = none →
        label ∈ t.labels ∧ label ∉ deleted := by
      intro label among alive
      obtain ⟨before, held, _, _, _, ⟨_, mark⟩ | ⟨spared, rfl⟩⟩ :=
        markDeletedLabels_labels now deleted t label among
      · rw [mark] at alive
        exact absurd alive (by simp)
      · exact ⟨held, fun gone => spared (List.mem_map_of_mem gone)⟩
    have folders : (Gmail.markDeletedLabels now deleted t).folders = t.folders := by
      rw [markDeletedLabels_eq]
    rw [markDeletedLabels_eq] at member
    obtain ⟨before, held, rfl⟩ := List.mem_map.mp member
    by_cases gone : before.id ∈ deleted.map Label.categoryId
    · obtain ⟨label, listed, same⟩ := List.mem_map.mp gone
      obtain ⟨labels, noFolder⟩ := calm label listed
      rw [if_pos gone, folders]
      constructor
      · intro other among alive shares
        obtain ⟨there, spared⟩ := uses other among alive
        exact spared (labels other there alive (shares.trans same.symm))
      · intro folder among shares
        exact noFolder folder among (shares.trans (congrArg some same.symm))
    · rw [if_neg gone] at marked ⊢
      rw [folders]
      obtain ⟨noLabel, noFolder⟩ := sound.live before held marked
      exact ⟨fun other among alive => noLabel other (uses other among alive).1 alive, noFolder⟩

/-- A lookup finds the row it found, marked or not. -/
theorem label?_markDeletedLabels (now : Nat) (deleted : List Label) (t : Tables) (name : Unicode)
    (role : Option String) : (markDeletedLabels now deleted t).label? name role =
      (t.label? name role).map fun row =>
        if row.id ∈ deleted.map Label.id then { row with deletedAt := some now } else row := by
  rw [markDeletedLabels_eq]
  unfold Tables.label?
  split <;> rw [List.find?_map] <;> congr 2 <;> funext row <;> simp only [Function.comp_apply] <;>
    split_ifs <;> rfl

/-! ## A call -/

/-- Every listed label has a live row with a live category, labels of the user's own that are not listed
are marked, and the same list changes nothing when it is saved again. -/
structure Converged (rawFolders : List RawFolder) (t : Tables) : Prop where
  entered : ∀ raw ∈ rawFolders, raw.role ≠ some "starred" →
    ∃ label, t.label? raw.displayName raw.role = some label ∧ label.deletedAt = none ∧
      ∃ category, t.category? label.categoryId = some category ∧ category.deletedAt = EPOCH
  others : ∀ label ∈ t.labels, label.canonicalName = "" → ¬ Entered rawFolders t label →
    label.deletedAt.isSome
  live : UsedAreLive t
  again : ∀ now, saveFolderNames now rawFolders t = .ok t

/-- The condition on a call: its loop is calm, and the category of a label that is gone is alone. -/
structure CallCalm (rawFolders : List RawFolder) (t : Tables) : Prop where
  loop : LoopCalm rawFolders (t, [])
  mark : ∀ label ∈ t.labels, Gone rawFolders t label → Alone rawFolders t label.categoryId

theorem category_live (sound : Sound t) (member : label ∈ t.labels) (alive : label.deletedAt = none) :
    ∃ category, t.category? label.categoryId = some category ∧ category.deletedAt = EPOCH := by
  obtain ⟨category, there, same⟩ := List.mem_map.mp (sound.valid.labelCategory label member)
  have found : t.category? label.categoryId = some category := by
    cases shape : t.category? label.categoryId with
    | none => exact absurd (List.find?_eq_none.mp shape category there) (by simp [same])
    | some other =>
      obtain ⟨among, ids⟩ := category?_mem shape
      rw [eq_of_key sound.valid.categoryIds among there (ids.trans same.symm)]
  refine ⟨category, found, ?_⟩
  by_contra marked
  exact (sound.live category there marked).1 label member alive same.symm

/-- The tables after a call, as far as another call with the list is concerned. -/
structure Settled (rawFolders : List RawFolder) (t : Tables) : Prop where
  sound : Sound t
  entered : ∀ raw ∈ rawFolders, raw.role ≠ some "starred" →
    ∃ label, t.label? raw.displayName raw.role = some label ∧ label.deletedAt = none
  others : ∀ label ∈ t.labels, label.canonicalName = "" → ¬ Entered rawFolders t label →
    label.deletedAt.isSome
  targets : ∀ raw ∈ rawFolders, (folderRole? raw).isSome →
    ∃ folder, target t raw = some folder ∧ folder.categoryId.isSome
  names : ∀ folder ∈ t.folders, overwrite (NamesFolder t folder.id) rawFolders folder.name = folder.name
  displayNames : ∀ category ∈ t.categories,
    overwrite (NamesCategory t category.id) rawFolders category.displayName = category.displayName
  statuses : ∀ status ∈ t.statuses, status.syncShouldRun = true

/-- The tables in the middle of another call with the list. -/
def rewritten (t : Tables) (done : List RawFolder) : Tables :=
  { t with
      folders := t.folders.map fun row =>
        { row with name := overwrite (NamesFolder t row.id) done row.name }
      categories := t.categories.map fun row =>
        { row with displayName := overwrite (NamesCategory t row.id) done row.displayName } }

theorem rewritten_nil (t : Tables) : rewritten t [] = t := by
  simp [rewritten, overwrite]

theorem Settled.rewritten_all (settled : Settled raws t) : rewritten t raws = t := by
  have folders : t.folders.map (fun row =>
      { row with name := overwrite (NamesFolder t row.id) raws row.name }) = t.folders :=
    (List.map_congr_left fun row member => by rw [settled.names row member]; rfl).trans (List.map_id _)
  have categories : t.categories.map (fun row =>
      { row with displayName := overwrite (NamesCategory t row.id) raws row.displayName }) = t.categories :=
    (List.map_congr_left fun row member => by rw [settled.displayNames row member]; rfl).trans (List.map_id _)
  rw [rewritten, folders, categories]

theorem rewritten_skip (absent : target t raw = none) : rewritten t (done ++ [raw]) = rewritten t done := by
  simp only [rewritten, overwrite_append, NamesFolder, NamesCategory, absent, Option.map_none,
    Option.bind_none, reduceCtorEq, if_false]

theorem rewritten_rename {id : Nat} (own : target t raw = some folder) (held : folder.categoryId = some id) :
    rewritten t (done ++ [raw]) = ((rewritten t done).updateFolder folder.id fun row =>
      { row with name := storedName raw.displayName }).updateCategory id fun row =>
        { row with displayName := storedName raw.displayName } := by
  simp only [rewritten, overwrite_append, Tables.updateFolder, Tables.updateCategory, List.map_map]
  congr 1
  · refine List.map_congr_left fun row _ => ?_
    simp only [NamesCategory, own, Option.bind_some, held, Option.some.injEq, Function.comp_apply]
    by_cases same : row.id = id
    · simp [same]
    · simp [same, Ne.symm same]
  · refine List.map_congr_left fun row _ => ?_
    simp only [NamesFolder, own, Option.map_some, Option.some.injEq, Function.comp_apply]
    by_cases same : row.id = folder.id
    · simp [same]
    · simp [same, Ne.symm same]

theorem rewritten_folder? (t : Tables) (done : List RawFolder) (role : String) :
    (rewritten t done).folder? role = (t.folder? role).map fun row =>
      { row with name := overwrite (NamesFolder t row.id) done row.name } := by
  unfold Tables.folder? rewritten
  rw [List.find?_map]
  rfl

theorem rewritten_category? (t : Tables) (done : List RawFolder) (id : Nat) :
    (rewritten t done).category? id = (t.category? id).map fun row =>
      { row with displayName := overwrite (NamesCategory t row.id) done row.displayName } := by
  unfold Tables.category? rewritten
  rw [List.find?_map]
  rfl

/-- The rows of the tables in the middle of another call are those of the tables before it. -/
theorem Settled.rewritten_rows (settled : Settled raws t) (done : List RawFolder) :
    (rewritten t done).folders.Pairwise (fun a b => a.id ≠ b.id) ∧
      (∀ folder ∈ (rewritten t done).folders, storedName folder.name = folder.name) ∧
      (rewritten t done).categories.Pairwise (fun a b => a.id ≠ b.id) ∧
      ∀ category ∈ (rewritten t done).categories, storedName category.displayName = category.displayName := by
  refine ⟨List.pairwise_map.mpr settled.sound.valid.folderIds, ?_,
    List.pairwise_map.mpr settled.sound.valid.categoryIds, ?_⟩
  · exact List.forall_mem_map.mpr fun row member =>
      overwrite_stored done (settled.sound.storedFolders row member)
  · exact List.forall_mem_map.mpr fun row member =>
      overwrite_stored done (settled.sound.storedCategories row member)

theorem Settled.saveFolder (settled : Settled raws t) (member : raw ∈ raws) (done : List RawFolder) :
    Gmail.saveFolder raw (rewritten t done) = .ok (rewritten t (done ++ [raw])) := by
  cases role : folderRole? raw with
  | none => rw [rewritten_skip (target_none role), Gmail.saveFolder, role]
  | some r =>
    obtain ⟨folder, own, some⟩ := settled.targets raw member (by rw [role]; rfl)
    obtain ⟨id, held⟩ := Option.isSome_iff_exists.mp some
    have found : t.folder? r = Option.some folder := by rwa [target, role, Option.bind_some] at own
    obtain ⟨category, there⟩ : ∃ category, t.category? id = Option.some category := by
      obtain ⟨category, there, same⟩ := List.mem_map.mp
        (settled.sound.valid.folderCategory folder (folder?_mem found) id held)
      refine Option.isSome_iff_exists.mp ?_
      rw [Tables.category?, List.find?_isSome]
      exact ⟨category, there, by simp [same]⟩
    obtain ⟨ids, stored, categoryIds, storedCategories⟩ := settled.rewritten_rows done
    have now := rewritten_folder? t done r
    rw [found, Option.map_some] at now
    have nowCategory := rewritten_category? t done id
    rw [there, Option.map_some] at nowCategory
    obtain ⟨_, rfl⟩ := category?_mem there
    rw [rewritten_rename own held]
    unfold Gmail.saveFolder handleRawFolderChange
    simp only [role, now, renameFolder_eq ids stored (folder?_mem now)]
    rw [held, Option.bind_some]
    have unchanged : ((rewritten t done).updateFolder folder.id fun row =>
        { row with name := storedName raw.displayName }).category? category.id =
          (rewritten t done).category? category.id := rfl
    simp only [unchanged, nowCategory]
    exact congrArg Except.ok (renameCategory_eq (t := (rewritten t done).updateFolder folder.id fun row =>
      { row with name := storedName raw.displayName }) categoryIds storedCategories
        (category?_mem nowCategory).1 raw.displayName)

/-- The id that an entry whose label is there and not marked adds to `current_labels`. -/
def enteredId (t : Tables) (raw : RawFolder) : Option Nat :=
  if raw.role = some "starred" then none else (t.label? raw.displayName raw.role).map Label.id

theorem Settled.saveEntry (settled : Settled raws t) (member : raw ∈ raws) (done : List RawFolder)
    (current : List Nat) : Gmail.saveEntry (rewritten t done, current) raw =
      .ok (rewritten t (done ++ [raw]), current ++ (enteredId t raw).toList) := by
  unfold Gmail.saveEntry enteredId
  split_ifs with starred
  · rw [rewritten_skip (target_none (folderRole?_starred starred)), Option.toList_none, List.append_nil]
  · obtain ⟨label, found, alive⟩ := settled.entered raw member starred
    have same : (rewritten t (done ++ [raw])).label? raw.displayName raw.role = some label := found
    simp only [settled.saveFolder member done]
    show (saveLabel raw (rewritten t (done ++ [raw])) >>= _) = _
    have label' : saveLabel raw (rewritten t (done ++ [raw])) = .ok (rewritten t (done ++ [raw]), label.id) := by
      unfold saveLabel Tables.findOrCreateLabel
      rw [same]
      show Except.ok (unmark label _, label.id) = _
      rw [unmark, alive]
      rfl
    rw [label', found]
    rfl

theorem Settled.saveEntries (settled : Settled raws t) (rest : List RawFolder)
    (members : ∀ raw ∈ rest, raw ∈ raws) (done : List RawFolder) (current : List Nat) :
    rest.foldlM Gmail.saveEntry (rewritten t done, current) =
      .ok (rewritten t (done ++ rest), current ++ rest.filterMap (enteredId t)) := by
  induction rest generalizing done current with
  | nil => simp; rfl
  | cons raw rest step =>
    rw [List.foldlM_cons, settled.saveEntry (members raw List.mem_cons_self)]
    refine (step (fun other member => members other (List.mem_cons_of_mem _ member)) _ _).trans ?_
    cases entered : enteredId t raw <;> simp [entered]

theorem Settled.again (settled : Settled raws t) (now : Nat) : saveFolderNames now raws t = .ok t := by
  have run := settled.saveEntries raws (fun _ member => member) [] []
  rw [rewritten_nil, List.nil_append, List.nil_append, settled.rewritten_all] at run
  have bits : setSyncShouldRunBit t = t := by
    have statuses : t.statuses.map (fun status => { status with syncShouldRun := true }) = t.statuses :=
      (List.map_congr_left fun status member => by rw [← settled.statuses status member]; rfl).trans
        (List.map_id _)
    rw [setSyncShouldRunBit, statuses]
  have nothing : deletedLabels (liveLabels t) (raws.filterMap (enteredId t)) t = [] := by
    refine List.filter_eq_nil_iff.mpr fun label member => ?_
    simp only [decide_eq_true_eq, not_and]
    intro live absent plain
    obtain ⟨same, held, ids⟩ := List.mem_map.mp live
    obtain ⟨among, alive⟩ := List.mem_filter.mp held
    obtain rfl := eq_of_key settled.sound.valid.labelIds among member ids
    have marked := settled.others same member plain ?_
    · rw [decide_eq_true_eq.mp alive] at marked
      exact absurd marked (by simp)
    · rintro ⟨raw, listed, unstarred, found⟩
      refine absent (List.mem_filterMap.mpr ⟨raw, listed, ?_⟩)
      rw [enteredId, if_neg unstarred, found]
      rfl
  unfold saveFolderNames
  rw [run]
  show Except.ok (markDeletedLabels now (deletedLabels (liveLabels t) _ (setSyncShouldRunBit t))
    (setSyncShouldRunBit t)) = _
  rw [bits, nothing]
  rfl

theorem Settled.converged (settled : Settled raws t) : Converged raws t where
  entered raw member unstarred := by
    obtain ⟨label, found, alive⟩ := settled.entered raw member unstarred
    exact ⟨label, found, alive, category_live settled.sound (label?_mem found) alive⟩
  others := settled.others
  live := settled.sound.live
  again := settled.again

theorem Sound.setSyncShouldRunBit (sound : Sound t) : Sound (Gmail.setSyncShouldRunBit t) where
  valid := { sound.valid with }
  displayNames := sound.displayNames
  storedFolders := sound.storedFolders
  storedCategories := sound.storedCategories
  live := sound.live

theorem Saved.spared (saved : Saved old raws raws t current) (member : raw ∈ raws)
    (unstarred : raw.role ≠ some "starred") :
    ∃ label, t.label? raw.displayName raw.role = some label ∧ label.deletedAt = none ∧
      label.id ∉ (deletedLabels (liveLabels old) current t).map Label.id := by
  obtain ⟨label, found, listed, alive⟩ := saved.found raw member unstarred
  refine ⟨label, found, alive, fun gone => ?_⟩
  obtain ⟨other, among, same⟩ := List.mem_map.mp gone
  have gone := (List.mem_filter.mp among).2
  rw [decide_eq_true_eq, same] at gone
  exact gone.2.1 listed

/-- A label without a role that was live and is not entered is marked. -/
theorem Saved.gone (saved : Saved old raws raws t current) (member : label ∈ t.labels)
    (plain : label.canonicalName = "") (absent : ¬ Entered raws t label) (alive : label.deletedAt = none) :
    label ∈ deletedLabels (liveLabels old) current t := by
  have unlisted : label.id ∉ current := by
    intro listed
    obtain ⟨other, entered, same⟩ := saved.listed label.id listed
    obtain ⟨raw, among, unstarred, found⟩ := entered
    obtain rfl := eq_of_key saved.sound.valid.labelIds (label?_mem found) member same
    exact absent ⟨raw, among, unstarred, found⟩
  have before : label ∈ old.labels := (saved.rows label member).resolve_left unlisted
  have live : label.id ∈ liveLabels old :=
    List.mem_map_of_mem (List.mem_filter.mpr ⟨before, by simpa using alive⟩)
  exact List.mem_filter.mpr ⟨member, by simpa using ⟨live, unlisted, plain⟩⟩

/-- What the loop leaves is settled once what is gone is marked. -/
theorem Saved.settled (saved : Saved old raws raws t current) (now : Nat)
    (calm : MarkCalm (deletedLabels (liveLabels old) current t) t) :
    Settled raws (markDeletedLabels now (deletedLabels (liveLabels old) current t) (setSyncShouldRunBit t)) := by
  have found : ∀ name role, (markDeletedLabels now (deletedLabels (liveLabels old) current t)
      (setSyncShouldRunBit t)).label? name role = (t.label? name role).map fun row =>
        if row.id ∈ (deletedLabels (liveLabels old) current t).map Label.id then
          { row with deletedAt := some now } else row :=
    label?_markDeletedLabels now _ (setSyncShouldRunBit t)
  have folders : (markDeletedLabels now (deletedLabels (liveLabels old) current t)
      (setSyncShouldRunBit t)).folders = t.folders := by
    rw [markDeletedLabels_eq]
    rfl
  have named := fun raw => target_congr folders raw
  have entered : ∀ raw ∈ raws, raw.role ≠ some "starred" → ∃ label,
      (markDeletedLabels now (deletedLabels (liveLabels old) current t) (setSyncShouldRunBit t)).label?
        raw.displayName raw.role = some label ∧ label.deletedAt = none := by
    intro raw member unstarred
    obtain ⟨label, held, alive, spared⟩ := saved.spared member unstarred
    rw [found, held, Option.map_some, if_neg spared]
    exact ⟨label, rfl, alive⟩
  exact {
    sound := saved.sound.setSyncShouldRunBit.markDeletedLabels now _ calm
    entered
    others := by
      intro label member plain absent
      obtain ⟨before, held, _, _, role, ⟨_, mark⟩ | ⟨spared, rfl⟩⟩ :=
        markDeletedLabels_labels now _ _ label member
      · rw [mark]
        rfl
      · by_contra alive
        rw [Option.not_isSome_iff_eq_none] at alive
        refine spared (List.mem_map_of_mem (saved.gone held plain ?_ alive))
        rintro ⟨raw, among, unstarred, there⟩
        refine absent ⟨raw, among, unstarred, ?_⟩
        rw [found, there, Option.map_some, if_neg spared]
    targets := by
      intro raw member some
      rw [named]
      exact saved.targets raw member some
    names := by
      intro folder member
      rw [folders] at member
      refine Eq.trans ?_ (saved.names folder member)
      exact overwrite_congr raws _ fun other _ => by rw [NamesFolder, named]
    displayNames := by
      intro category member
      have same : ∀ id name, overwrite (NamesCategory (markDeletedLabels now
          (deletedLabels (liveLabels old) current t) (setSyncShouldRunBit t)) id) raws name =
            overwrite (NamesCategory t id) raws name :=
        fun id name => overwrite_congr raws name fun other _ => by rw [NamesCategory, named]
      rw [same]
      rw [markDeletedLabels_eq] at member
      obtain ⟨before, held, rfl⟩ := List.mem_map.mp member
      split_ifs <;> exact saved.displayNames before held
    statuses := by
      rw [markDeletedLabels_eq]
      exact List.forall_mem_map.mpr fun _ _ => rfl }

/-- What is marked are the labels that are gone, so that it shares no category with what stays. -/
theorem Saved.markCalm (saved : Saved old raws raws t current) (sound : Sound old) (lasting : Lasting old t)
    (apart : ∀ label ∈ old.labels, Gone raws old label →
      Alone raws old label.categoryId ∧ Apart old label.categoryId t) :
    MarkCalm (deletedLabels (liveLabels old) current t) t := by
  intro label deleted
  obtain ⟨member, gone⟩ := List.mem_filter.mp deleted
  obtain ⟨live, unlisted, plain⟩ := of_decide_eq_true gone
  have before : label ∈ old.labels := (saved.rows label member).resolve_left unlisted
  have alive : label.deletedAt = none := by
    obtain ⟨row, held, same⟩ := List.mem_map.mp live
    obtain ⟨among, alive⟩ := List.mem_filter.mp held
    rw [← eq_of_key sound.valid.labelIds among before same]
    exact of_decide_eq_true alive
  have absent : ¬ Entered raws old label := by
    rintro ⟨raw, among, unstarred, found⟩
    obtain ⟨now, there, same⟩ := lasting.found _ _ label found
    obtain ⟨row, there', listed, _⟩ := saved.found raw among unstarred
    obtain rfl := Option.some.inj (there.symm.trans there')
    exact unlisted (same ▸ listed)
  obtain ⟨alone, apart⟩ := apart label before ⟨alive, plain, absent⟩
  refine ⟨fun other held other_alive shares => ?_, apart.folders⟩
  have other_before := apart.labels other held shares
  obtain ⟨unentered, roleless⟩ := alone.labels other other_before shares
  exact saved.gone held (roleless other_alive)
    (fun entered => unentered (lasting.finds sound other_before entered)) other_alive

theorem saveFolderNames_settled (sound : Sound t) (calm : CallCalm raws t) (now : Nat) :
    ∃ later, saveFolderNames now raws t = .ok later ∧ Settled raws later := by
  obtain ⟨mid, current, run, lasting, apart, saved⟩ := saveEntries_run (saved_nil sound) sound (.refl t)
    (fun id alone below => ⟨below, fun category held same => ⟨category, held, same, rfl⟩, alone.folders,
      fun label held _ => held⟩) (fun raw member => member) calm.loop
  have marked := Saved.markCalm saved sound lasting fun label held gone =>
    have below : label.categoryId < t.nextId := by
      obtain ⟨category, there, same⟩ := List.mem_map.mp (sound.valid.labelCategory label held)
      exact same ▸ sound.valid.categoryBelow category there
    ⟨calm.mark label held gone, apart _ (calm.mark label held gone) below⟩
  refine ⟨_, ?_, saved.settled now marked⟩
  unfold saveFolderNames
  rw [run]
  rfl

/-! ## Collecting categories -/

/-- What is deleted is marked, so no live label and no folder goes with it. -/
theorem gcDeletedCategories_spares (live : UsedAreLive t) (associated : Nat → Bool) :
    (gcDeletedCategories associated t).folders = t.folders ∧
      ∀ label ∈ t.labels, label.deletedAt = none → label ∈ (gcDeletedCategories associated t).labels := by
  have marked : ∀ id ∈ (t.categories.filter fun category =>
      EPOCH < category.deletedAt ∧ !associated category.id).map Category.id,
      ∃ category ∈ t.categories, category.id = id ∧ category.deletedAt ≠ EPOCH := by
    refine List.forall_mem_map.mpr fun category member => ?_
    obtain ⟨held, gone⟩ := List.mem_filter.mp member
    rw [decide_eq_true_eq] at gone
    exact ⟨category, held, rfl, gone.1.ne'⟩
  constructor
  · refine List.filter_eq_self.mpr fun folder member => ?_
    rw [Option.all_eq_true_iff_get]
    intro some
    refine decide_eq_true fun gone => ?_
    obtain ⟨category, held, same, mark⟩ := marked _ gone
    exact (live category held mark).2 folder member (by rw [same, Option.some_get])
  · intro label member alive
    refine List.mem_filter.mpr ⟨member, decide_eq_true fun gone => ?_⟩
    obtain ⟨category, held, same, mark⟩ := marked _ gone
    exact (live category held mark).1 label member alive same.symm

theorem find?_filter_of_some {rows : List α} {p keep : α → Bool} (found : rows.find? p = some row)
    (kept : keep row) : (rows.filter keep).find? p = some row := by
  obtain ⟨holds, before, after, rfl, others⟩ := List.find?_eq_some_iff_append.mp found
  rw [List.filter_append, List.filter_cons_of_pos kept, List.find?_append]
  have none : (before.filter keep).find? p = none :=
    List.find?_eq_none.mpr fun other member => by simpa using others other (List.mem_of_mem_filter member)
  rw [none, Option.none_or, List.find?_cons_of_pos holds]

theorem mem_gcDeletedCategories (associated : Nat → Bool) :
    (∀ category ∈ (gcDeletedCategories associated t).categories, category ∈ t.categories) ∧
      (∀ label ∈ (gcDeletedCategories associated t).labels, label ∈ t.labels) ∧
      ∀ status ∈ (gcDeletedCategories associated t).statuses, status ∈ t.statuses :=
  ⟨fun _ => List.mem_of_mem_filter, fun _ => List.mem_of_mem_filter, fun _ => List.mem_of_mem_filter⟩

theorem Sound.collect (sound : Sound t) (associated : Nat → Bool) :
    Sound (gcDeletedCategories associated t) := by
  obtain ⟨folders, _⟩ := gcDeletedCategories_spares sound.live associated
  obtain ⟨categories, labels, _⟩ := mem_gcDeletedCategories (t := t) associated
  exact {
    valid := sound.valid.deleteCategories _
    displayNames := sound.displayNames.filter _
    storedFolders := folders ▸ sound.storedFolders
    storedCategories := fun category member => sound.storedCategories category (categories category member)
    live := by
      apply sound.live.change
      · exact fun category member marked => ⟨category, categories category member, rfl, marked⟩
      · exact fun label member alive => .inl ⟨label, labels label member, alive, rfl⟩
      · exact fun folder member => .inl ⟨folder, folders ▸ member, rfl⟩ }

theorem Settled.collect (settled : Settled raws t) (associated : Nat → Bool) :
    Settled raws (gcDeletedCategories associated t) := by
  obtain ⟨folders, spared⟩ := gcDeletedCategories_spares settled.sound.live associated
  obtain ⟨categories, labels, statuses⟩ := mem_gcDeletedCategories (t := t) associated
  have named := fun raw => target_congr folders raw
  have found : ∀ name role label, t.label? name role = some label → label.deletedAt = none →
      (gcDeletedCategories associated t).label? name role = some label := by
    intro name role label there alive
    have kept := (List.mem_filter.mp (spared label (label?_mem there) alive)).2
    unfold Tables.label? at there ⊢
    split_ifs at there ⊢ <;> exact find?_filter_of_some there kept
  exact {
    sound := settled.sound.collect associated
    entered := by
      intro raw member unstarred
      obtain ⟨label, there, alive⟩ := settled.entered raw member unstarred
      exact ⟨label, found _ _ label there alive, alive⟩
    others := by
      intro label member plain absent
      by_contra alive
      rw [Option.not_isSome_iff_eq_none] at alive
      have marked := settled.others label (labels label member) plain ?_
      · rw [alive] at marked
        exact absurd marked (by simp)
      · rintro ⟨raw, among, unstarred, there⟩
        exact absent ⟨raw, among, unstarred, found _ _ label there alive⟩
    targets := by
      intro raw member some
      rw [named]
      exact settled.targets raw member some
    names := by
      intro folder member
      rw [folders] at member
      refine Eq.trans ?_ (settled.names folder member)
      exact overwrite_congr raws _ fun other _ => by rw [NamesFolder, named]
    displayNames := by
      intro category member
      refine Eq.trans ?_ (settled.displayNames category (categories category member))
      exact overwrite_congr raws _ fun other _ => by rw [NamesCategory, named]
    statuses := fun status member => settled.statuses status (statuses status member) }

/-! ## Runs -/

/-- What happens to the tables: the monitor saves a list that differs from its last one, or the
delete handler collects categories. -/
inductive Turn where
  | saveFolderNames (now : Nat) (rawFolders : List RawFolder)
  | gcDeletedCategories (associated : Nat → Bool)

structure Run where
  tables : Tables
  /-- The list of the last call. -/
  listed : Option (List RawFolder)

def Run.take (s : Run) : Turn → Run
  | .saveFolderNames now rawFolders =>
    match Gmail.saveFolderNames now rawFolders s.tables with
    | .ok tables => ⟨tables, some rawFolders⟩
    -- The session is rolled back.
    | .error _ => ⟨s.tables, some rawFolders⟩
  | .gcDeletedCategories associated => { s with tables := Gmail.gcDeletedCategories associated s.tables }

def Run.initial : Run := ⟨Tables.empty, none⟩

def run (turns : List Turn) : Run := turns.foldl Run.take Run.initial

/-- The condition on a turn. -/
def TurnCalm (s : Run) : Turn → Prop
  | .saveFolderNames _ rawFolders => CallCalm rawFolders s.tables
  | .gcDeletedCategories _ => True

def RunCalm (turns : List Turn) : Prop :=
  ∀ before turn, before ++ [turn] <+: turns → TurnCalm (run before) turn

theorem run_append (turns : List Turn) (turn : Turn) : run (turns ++ [turn]) = (run turns).take turn := by
  rw [run, List.foldl_append]
  rfl

theorem run_settled (calm : RunCalm turns) :
    Sound (run turns).tables ∧ ∀ raws, (run turns).listed = some raws → Settled raws (run turns).tables := by
  induction turns using List.reverseRecOn with
  | nil => exact ⟨empty_sound, fun _ listed => nomatch listed⟩
  | append_singleton turns turn step =>
    obtain ⟨sound, settled⟩ := step (Runs.prefixes_init calm)
    have turnCalm := calm turns turn List.prefix_rfl
    rw [run_append]
    cases turn with
    | saveFolderNames now raws =>
      obtain ⟨later, saved, settled⟩ := saveFolderNames_settled sound turnCalm now
      simp only [Run.take, saved]
      exact ⟨settled.sound, fun other same => Option.some.inj same ▸ settled⟩
    | gcDeletedCategories associated =>
      exact ⟨sound.collect associated, fun raws listed => (settled raws listed).collect associated⟩

/-- Where every turn is calm, the labels have converged whenever a list has been saved. -/
theorem labels_converge (turns : List Turn) (calm : RunCalm turns) (rawFolders : List RawFolder)
    (listed : (run turns).listed = some rawFolders) : Converged rawFolders (run turns).tables :=
  ((run_settled calm).2 rawFolders listed).converged

theorem RunCalm.append (calm : RunCalm turns) (next : TurnCalm (run turns) turn) :
    RunCalm (turns ++ [turn]) :=
  Runs.prefixes_append calm next

theorem empty_calm : RunCalm [] := Runs.prefixes_nil

/-- A label that has come. -/
def appeared : List Turn := [.saveFolderNames 5 [⟨['A'], none⟩]]

/-- A label that has gone. -/
def disappeared : List Turn := appeared ++ [.saveFolderNames 6 []]

theorem appeared_calm : RunCalm appeared := by
  apply empty_calm.append
  constructor
  · refine ⟨fun _ => ⟨fun role known => absurd known (by simp [folderRole?]), ?_⟩, fun _ _ => trivial⟩
    intro later same _ category member
    cases same
    exact absurd member List.not_mem_nil
  · exact fun label member => absurd member List.not_mem_nil

theorem disappeared_calm : RunCalm disappeared := by
  apply appeared_calm.append
  have plain : ∀ label ∈ (run appeared).tables.labels, label.canonicalName = "" := by decide +kernel
  have folders : ∀ folder ∈ (run appeared).tables.folders, folder.categoryId.isNone := by decide +kernel
  refine ⟨trivial, fun label _ _ => ⟨fun other held _ => ⟨?_, fun _ => plain other held⟩, ?_, ?_⟩⟩
  · rintro ⟨_, among, _⟩
    exact absurd among List.not_mem_nil
  · intro folder held uses
    have none := folders folder held
    rw [uses] at none
    exact absurd none (by simp)
  · exact fun _ _ _ raw among => absurd among List.not_mem_nil

theorem disappeared_converges : Converged [] (run disappeared).tables :=
  labels_converge disappeared disappeared_calm [] rfl

/-- A label gains a role: its new row shares the category of the old one, which is marked. -/
theorem gained_role_is_marked : ¬ ∀ turns rawFolders, (run turns).listed = some rawFolders →
    Converged rawFolders (run turns).tables := by
  intro all
  have live := (all (appeared ++ [.saveFolderNames 6 [⟨['A'], some "important"⟩]]) _ rfl).live
  revert live
  unfold UsedAreLive
  decide +kernel

end Gmail
end Naming
end SyncEngine
