import Mathlib.Data.List.Pairwise
import SyncEngine.Models.Database
import SyncEngine.Util.Encoding

/-! The rows that name folders and labels, and the categories behind them, for one account. Names
are found as the columns hold them. -/
namespace SyncEngine
namespace Naming

def MAX_INDEXABLE_LENGTH : Nat := 191

def EPOCH : Nat := 0

def sanitizeName (name : Unicode) : Unicode := unicodeSafeTruncate name MAX_INDEXABLE_LENGTH

/-- What a `CategoryNameString` column holds, and what a query on it looks for: the validator or
the comparison sanitizes the name, and binding the parameter does so once more. -/
def storedName (name : Unicode) : Unicode := sanitizeName (sanitizeName name)

structure Category where
  id : Nat
  name : String
  displayName : Unicode
  type_ : CategoryType
  deletedAt : Nat
deriving DecidableEq, Repr

structure Folder where
  id : Nat
  name : Unicode
  canonicalName : String
  categoryId : Option Nat
deriving DecidableEq, Repr

structure Label where
  id : Nat
  name : Unicode
  canonicalName : String
  categoryId : Nat
  deletedAt : Option Nat
deriving DecidableEq, Repr

/-- The `sync_should_run` bit of a folder's `imapsyncstatus`. -/
structure SyncStatus where
  folderId : Nat
  syncShouldRun : Bool
deriving DecidableEq, Repr

structure Tables where
  categories : List Category
  folders : List Folder
  labels : List Label
  statuses : List SyncStatus
  /-- Above every id that was given to a row. -/
  nextId : Nat
deriving DecidableEq, Repr

/-- What the server's list says of a folder. -/
structure RawFolder where
  displayName : Unicode
  role : Option String
deriving DecidableEq, Repr

inductive Error where
  | assertion
  | multipleResultsFound
  | attributeError
  | mailsyncError
deriving DecidableEq, Repr

namespace Tables

def category? (t : Tables) (id : Nat) : Option Category := t.categories.find? (·.id = id)

def updateCategory (t : Tables) (id : Nat) (change : Category → Category) : Tables :=
  { t with categories := t.categories.map fun row => if row.id = id then change row else row }

def updateFolder (t : Tables) (id : Nat) (change : Folder → Folder) : Tables :=
  { t with folders := t.folders.map fun row => if row.id = id then change row else row }

/-- Folders and labels are deleted with their category, and a folder's status with the folder. -/
def deleteCategories (t : Tables) (gone : List Nat) : Tables :=
  let folders := t.folders.filter fun folder => folder.categoryId.all (· ∉ gone)
  { t with
      categories := t.categories.filter (·.id ∉ gone)
      folders
      labels := t.labels.filter (·.categoryId ∉ gone)
      statuses := t.statuses.filter (·.folderId ∈ folders.map Folder.id) }

/-- `Category.find_or_create` -/
def findOrCreateCategory (t : Tables) (name : String) (displayName : Unicode)
    (type_ : CategoryType) : Except Error (Tables × Nat) :=
  match t.categories.filter (·.displayName = storedName displayName) with
  | [] =>
    let row := { id := t.nextId, name, displayName := storedName displayName, type_
                 deletedAt := EPOCH }
    .ok ({ t with categories := t.categories ++ [row], nextId := t.nextId + 1 }, t.nextId)
  | [row] =>
    -- There is an existing category with this `display_name` and no `name`.
    if row.name = "" then .ok (t.updateCategory row.id (fun row => { row with name }), row.id)
    else .ok (t, row.id)
  | _ => .error .multipleResultsFound

/-- `Folder.find_or_create` -/
def findOrCreateFolder (t : Tables) (name : Unicode) (role : Option String) :
    Except Error (Tables × Folder) :=
  match t.folders.filter (·.name = storedName name) with
  | [] => do
    let (t, categoryId) ← t.findOrCreateCategory (role.getD "") name .folder
    let row := { id := t.nextId, name := storedName name, canonicalName := role.getD ""
                 categoryId := some categoryId }
    return ({ t with folders := t.folders ++ [row], nextId := t.nextId + 1 }, row)
  | [row] => .ok (t, row)
  | _ => .error .multipleResultsFound

/-- Ids are given once, and foreign keys refer to rows that are there. -/
structure Valid (t : Tables) : Prop where
  categoryIds : t.categories.Pairwise (fun a b => a.id ≠ b.id)
  folderIds : t.folders.Pairwise (fun a b => a.id ≠ b.id)
  labelIds : t.labels.Pairwise (fun a b => a.id ≠ b.id)
  categoryBelow : ∀ row ∈ t.categories, row.id < t.nextId
  folderBelow : ∀ row ∈ t.folders, row.id < t.nextId
  labelBelow : ∀ row ∈ t.labels, row.id < t.nextId
  folderCategory : ∀ row ∈ t.folders, ∀ id, row.categoryId = some id → id ∈ t.categories.map Category.id
  labelCategory : ∀ row ∈ t.labels, row.categoryId ∈ t.categories.map Category.id

def empty : Tables := ⟨[], [], [], [], 1⟩

theorem empty_valid : empty.Valid := by
  constructor <;> simp [empty]

/-! ## What keeps tables valid -/

variable {t later : Tables}

theorem pairwise_append_new {rows : List α} {key : α → Nat} {bound : Nat}
    (distinct : rows.Pairwise (fun a b => key a ≠ key b)) (below : ∀ row ∈ rows, key row < bound)
    (new : α) (next : key new = bound) :
    (rows ++ [new]).Pairwise (fun a b => key a ≠ key b) := by
  refine List.pairwise_append.mpr ⟨distinct, List.pairwise_singleton _ _, fun row member other same => ?_⟩
  obtain rfl := List.mem_singleton.mp same
  rw [next]
  exact (below row member).ne

theorem map_key {rows : List α} {key : α → β} {change : α → α}
    (keeps : ∀ row ∈ rows, key (change row) = key row) : (rows.map change).map key = rows.map key := by
  rw [List.map_map]
  exact List.map_congr_left keeps

theorem pairwise_key {key : α → Nat} {rows later : List α} (same : later.map key = rows.map key) :
    later.Pairwise (fun a b => key a ≠ key b) ↔ rows.Pairwise (fun a b => key a ≠ key b) := by
  rw [← List.pairwise_map (f := key) (R := (· ≠ ·)), ← List.pairwise_map (f := key) (R := (· ≠ ·)), same]

theorem updateCategory_ids (t : Tables) (id : Nat) (change : Category → Category)
    (keeps : ∀ row, (change row).id = row.id) :
    (t.updateCategory id change).categories.map Category.id = t.categories.map Category.id := by
  refine map_key fun row _ => ?_
  split
  · exact keeps row
  · rfl

theorem forall_id_lt {rows : List α} {key : α → Nat} {bound : Nat} :
    (∀ row ∈ rows, key row < bound) ↔ ∀ id ∈ rows.map key, id < bound :=
  (List.forall_mem_map (P := (· < bound))).symm

theorem Valid.of_categories (valid : t.Valid) (later : Tables)
    (ids : later.categories.map Category.id = t.categories.map Category.id)
    (folders : later.folders = t.folders) (labels : later.labels = t.labels)
    (nextId : later.nextId = t.nextId) : later.Valid where
  categoryIds := (pairwise_key ids).mpr valid.categoryIds
  folderIds := folders ▸ valid.folderIds
  labelIds := labels ▸ valid.labelIds
  categoryBelow := forall_id_lt.mpr (ids ▸ nextId ▸ forall_id_lt.mp valid.categoryBelow)
  folderBelow := folders ▸ nextId ▸ valid.folderBelow
  labelBelow := labels ▸ nextId ▸ valid.labelBelow
  folderCategory := folders ▸ ids ▸ valid.folderCategory
  labelCategory := labels ▸ ids ▸ valid.labelCategory

theorem Valid.updateCategory (valid : t.Valid) (id : Nat) {change : Category → Category}
    (keeps : ∀ row, (change row).id = row.id) : (t.updateCategory id change).Valid :=
  valid.of_categories _ (updateCategory_ids t id _ keeps) rfl rfl rfl

/-- A change of folder rows that leaves their ids and categories alone. -/
theorem Valid.updateFolder (valid : t.Valid) (id : Nat) (change : Folder → Folder)
    (keeps : ∀ row, (change row).id = row.id ∧ (change row).categoryId = row.categoryId) :
    (t.updateFolder id change).Valid := by
  have ids : (t.updateFolder id change).folders.map Folder.id = t.folders.map Folder.id := by
    refine map_key fun row _ => ?_
    split
    · exact (keeps row).1
    · rfl
  exact {
    categoryIds := valid.categoryIds
    folderIds := (pairwise_key ids).mpr valid.folderIds
    labelIds := valid.labelIds
    categoryBelow := valid.categoryBelow
    folderBelow := forall_id_lt.mpr (ids ▸ forall_id_lt.mp valid.folderBelow)
    labelBelow := valid.labelBelow
    folderCategory := by
      refine List.forall_mem_map.mpr fun row member => ?_
      split
      · rw [(keeps row).2]
        exact valid.folderCategory row member
      · exact valid.folderCategory row member
    labelCategory := valid.labelCategory }

theorem Valid.insertCategory (valid : t.Valid) (row : Category) (next : row.id = t.nextId) :
    Valid { t with categories := t.categories ++ [row], nextId := t.nextId + 1 } where
  categoryIds := pairwise_append_new valid.categoryIds valid.categoryBelow row next
  folderIds := valid.folderIds
  labelIds := valid.labelIds
  categoryBelow := by
    refine List.forall_mem_append.mpr ⟨fun old member => Nat.lt_succ_of_lt (valid.categoryBelow old member), ?_⟩
    simp [next]
  folderBelow old member := Nat.lt_succ_of_lt (valid.folderBelow old member)
  labelBelow old member := Nat.lt_succ_of_lt (valid.labelBelow old member)
  folderCategory old member id refers := by
    rw [List.map_append]
    exact List.mem_append_left _ (valid.folderCategory old member id refers)
  labelCategory old member := by
    rw [List.map_append]
    exact List.mem_append_left _ (valid.labelCategory old member)

theorem Valid.insertFolder (valid : t.Valid) (row : Folder) (next : row.id = t.nextId)
    (refers : ∀ id, row.categoryId = some id → id ∈ t.categories.map Category.id) :
    Valid { t with folders := t.folders ++ [row], nextId := t.nextId + 1 } where
  categoryIds := valid.categoryIds
  folderIds := pairwise_append_new valid.folderIds valid.folderBelow row next
  labelIds := valid.labelIds
  categoryBelow old member := Nat.lt_succ_of_lt (valid.categoryBelow old member)
  folderBelow := by
    refine List.forall_mem_append.mpr ⟨fun old member => Nat.lt_succ_of_lt (valid.folderBelow old member), ?_⟩
    simp [next]
  labelBelow old member := Nat.lt_succ_of_lt (valid.labelBelow old member)
  folderCategory := List.forall_mem_append.mpr ⟨valid.folderCategory, by simpa using refers⟩
  labelCategory := valid.labelCategory

theorem Valid.deleteCategories (valid : t.Valid) (gone : List Nat) : (t.deleteCategories gone).Valid where
  categoryIds := valid.categoryIds.filter _
  folderIds := valid.folderIds.filter _
  labelIds := valid.labelIds.filter _
  categoryBelow row member := valid.categoryBelow row (List.mem_of_mem_filter member)
  folderBelow row member := valid.folderBelow row (List.mem_of_mem_filter member)
  labelBelow row member := valid.labelBelow row (List.mem_of_mem_filter member)
  folderCategory row member id refers := by
    obtain ⟨held, spared⟩ := List.mem_filter.mp member
    obtain ⟨category, among, same⟩ := List.mem_map.mp (valid.folderCategory row held id refers)
    rw [refers, Option.all_some] at spared
    exact List.mem_map.mpr ⟨category, List.mem_filter.mpr ⟨among, by rw [same]; exact spared⟩, same⟩
  labelCategory row member := by
    obtain ⟨held, spared⟩ := List.mem_filter.mp member
    obtain ⟨category, among, same⟩ := List.mem_map.mp (valid.labelCategory row held)
    exact List.mem_map.mpr ⟨category, List.mem_filter.mpr ⟨among, by rw [same]; exact spared⟩, same⟩

theorem eq_singleton_filter {rows : List α} {p : α → Bool} (only : rows.filter p = [row]) :
    row ∈ rows ∧ p row ∧ ∀ other ∈ rows, p other → other = row := by
  have member : row ∈ rows.filter p := by simp [only]
  obtain ⟨held, holds⟩ := List.mem_filter.mp member
  refine ⟨held, holds, fun other among also => ?_⟩
  have listed : other ∈ rows.filter p := List.mem_filter.mpr ⟨among, also⟩
  rw [only] at listed
  exact List.mem_singleton.mp listed

/-- The category that a name has, or gets. -/
theorem findOrCreateCategory_cases {id : Nat} (found : t.findOrCreateCategory name displayName type_ =
    .ok (later, id)) :
    ((∀ row ∈ t.categories, row.displayName ≠ storedName displayName) ∧ id = t.nextId ∧
      later = { t with
        categories := t.categories ++ [⟨t.nextId, name, storedName displayName, type_, EPOCH⟩]
        nextId := t.nextId + 1 }) ∨
    ∃ row ∈ t.categories, row.displayName = storedName displayName ∧ id = row.id ∧
      (later = t ∨ later = t.updateCategory row.id fun row => { row with name }) := by
  unfold findOrCreateCategory at found
  split at found
  · rename_i none
    cases found
    refine .inl ⟨fun row member same => ?_, rfl, rfl⟩
    exact absurd (List.filter_eq_nil_iff.mp none row member) (by simp [same])
  · rename_i row only
    obtain ⟨member, same, _⟩ := eq_singleton_filter only
    refine .inr ⟨row, member, by simpa using same, ?_⟩
    split at found <;> cases found
    · exact ⟨rfl, .inr rfl⟩
    · exact ⟨rfl, .inl rfl⟩
  · cases found

/-- What finding or creating a category leaves as it was. -/
structure CategoryFound (t later : Tables) (id : Nat) : Prop where
  valid : later.Valid
  folders : later.folders = t.folders
  labels : later.labels = t.labels
  statuses : later.statuses = t.statuses
  there : id ∈ later.categories.map Category.id
  kept : ∀ id ∈ t.categories.map Category.id, id ∈ later.categories.map Category.id
  nextId : t.nextId ≤ later.nextId

theorem findOrCreateCategory_found {id : Nat} (valid : t.Valid)
    (found : t.findOrCreateCategory name displayName type_ = .ok (later, id)) :
    CategoryFound t later id := by
  obtain ⟨_, rfl, rfl⟩ | ⟨row, member, _, rfl, rfl | rfl⟩ := findOrCreateCategory_cases found
  · have kept : ∀ id ∈ t.categories.map Category.id, id ∈ (t.categories ++
        [Category.mk t.nextId name (storedName displayName) type_ EPOCH]).map Category.id := by
      intro id held
      rw [List.map_append]
      exact List.mem_append_left _ held
    exact ⟨valid.insertCategory _ rfl, rfl, rfl, rfl, by simp, kept, Nat.le_succ _⟩
  · exact ⟨valid, rfl, rfl, rfl, List.mem_map_of_mem member, fun _ held => held, le_rfl⟩
  · have ids := updateCategory_ids t row.id (fun row => { row with name }) fun _ => rfl
    refine ⟨valid.updateCategory _ fun _ => rfl, rfl, rfl, rfl, ?_, ?_, le_rfl⟩
    · rw [ids]
      exact List.mem_map_of_mem member
    · rw [ids]
      exact fun _ held => held

end Tables
end Naming
end SyncEngine
