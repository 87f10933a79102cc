import SyncEngine.Api.FolderPaths
import SyncEngine.Models.Category
import SyncEngine.Util.LockedRows

/-! The categories of a namespace while API requests, their syncback and the synchronisation of folders
work on them, each in transactions of its own. -/
namespace SyncEngine.Naming

/-- How an account names its folders. `lower` is that of the database. -/
structure FolderNaming where
  categoryType : CategoryType
  /-- Other accounts than those of Gmail and EAS have paths. -/
  paths : Bool
  folderSeparator : Unicode
  folderPrefix : Unicode
  lower : Unicode → Unicode

def imapFolderPath (path separator folderPrefix : Unicode) : Option Unicode :=
  match (path.splitOn '/').filter (· ≠ []) with
  | [] => none
  | folders =>
    let res := separator.intercalate folders
    if folderPrefix ≠ [] ∧ ¬folderPrefix <+: res then
      if folderPrefix.drop (folderPrefix.length - 1) ≠ separator then some (folderPrefix ++ separator ++ res)
      else some (folderPrefix ++ res)
    else some res

theorem drop_eq_singleton_iff {text : Unicode} (nonempty : text ≠ []) {separator : Char} :
    text.drop (text.length - 1) = [separator] ↔ text.getLast? = some separator := by
  rw [List.drop_length_sub_one nonempty, List.getLast?_eq_some_getLast nonempty]
  simp

/-- Where the separator is one character, the paths are those of `FolderPaths`. -/
theorem imapFolderPath_char (path : Unicode) (separator : Char) (folderPrefix : Unicode) :
    imapFolderPath path [separator] folderPrefix = FolderPaths.imapFolderPath path separator folderPrefix := by
  unfold imapFolderPath FolderPaths.imapFolderPath
  cases folders : (path.splitOn '/').filter (· ≠ []) with
  | nil => rfl
  | cons folder rest =>
    dsimp only
    rw [if_neg (List.cons_ne_nil folder rest)]
    by_cases joined : folderPrefix ≠ [] ∧ ¬folderPrefix <+: [separator].intercalate (folder :: rest)
    · rw [if_pos joined, FolderPaths.join, if_pos joined]
      simp only [ne_eq, drop_eq_singleton_iff joined.1, List.append_assoc, List.singleton_append]
    · rw [if_neg joined, FolderPaths.join, if_neg joined]

variable (account : FolderNaming)

/-- The name that a request gives to a folder on the server. -/
def FolderNaming.imapName (displayName : Unicode) : Option Unicode :=
  if account.paths then imapFolderPath displayName account.folderSeparator account.folderPrefix
  else some displayName

/-- `valid_display_name` -/
def validDisplayName (rows : List Category) (displayName : Unicode) : Bool :=
  let displayName := rstrip displayName
  displayName.length ≤ MAX_INDEXABLE_LENGTH && !rows.any fun row =>
    account.lower row.displayName = account.lower displayName && row.type_ = account.categoryType &&
      row.deletedAt = EPOCH

inductive Request
  | create (displayName : Unicode)
  | update (category : Nat) (displayName : Unicode)
  | delete (category : Nat) (containsMessages : Bool)
deriving DecidableEq

/-- The category of a request that names one, if it may be changed. -/
def modifiable (rows : List Category) (id : Nat) : Option Category :=
  rows.find? fun row => row.id = id && row.deletedAt = EPOCH && row.name = ""

/-- What a request checks before it does anything. -/
def Request.valid (rows : List Category) : Request → Bool
  | .create displayName => validDisplayName account rows displayName
  | .update id displayName => (modifiable rows id).isSome && validDisplayName account rows displayName
  | .delete id containsMessages =>
    (modifiable rows id).any fun row => !(row.type_ = .folder && containsMessages)

/-- A row that is written, or one that is deleted. -/
inductive Change
  | put (row : Category)
  | remove (id : Nat)

/-- `Category.find_or_create` on the rows that the transaction sees: the row, and what it writes. -/
def findOrCreate (rows : List Category) (nextId : Nat) (name : String) (displayName : Unicode)
    (type_ : CategoryType) : Except Error (Category × Option Change) :=
  match rows.filter (·.displayName = storedName displayName) with
  | [] =>
    let row := { id := nextId, name, displayName := storedName displayName, type_, deletedAt := EPOCH }
    .ok (row, some (.put row))
  | [row] =>
    if row.name = "" ∧ name ≠ "" then .ok ({ row with name }, some (.put { row with name }))
    else .ok (row, none)
  | _ => .error .multipleResultsFound

/-- What a transaction does to the categories in one go. -/
inductive Act
  | check (request : Request)
  /-- `now` is when a deleted category is marked. -/
  | carryOut (request : Request) (optimisticUpdates : Bool) (now : Nat)
  | remoteUpdateFolder (category : Nat) (oldName newName : Unicode)
  /-- `remote_delete_folder`, `remote_delete_label` -/
  | remoteDelete (category : Nat)
  /-- For a folder or a label that has no row yet. -/
  | findOrCreate (name : String) (displayName : Unicode) (type_ : CategoryType)
  /-- `handle_raw_folder_change` for a folder with a category. -/
  | renameCategory (category : Nat) (displayName : Unicode)
  /-- `Folder.canonical_name` is set. -/
  | setName (category : Nat) (name : String)
  /-- `mark_deleted_labels`, or a label that reappeared. -/
  | setDeletedAt (category : Nat) (deletedAt : Nat)

/-- An update of a row that is there. -/
def updateRow (rows : List Category) (id : Nat) (change : Category → Category) :
    Except Error (Option Change) :=
  match rows.find? (·.id = id) with
  | some row => .ok (some (.put (change row)))
  | none => .error .attributeError

def Act.perform (rows : List Category) (nextId : Nat) : Act → Except Error (Option Change)
  | .check _ => .ok none
  | .carryOut (.create displayName) _ _ =>
    match account.imapName displayName with
    | none => .error .attributeError
    | some displayName => do
      let (category, change) ← Naming.findOrCreate rows nextId "" displayName account.categoryType
      if category.deletedAt > EPOCH then
        -- The existing category will be hard-deleted: another one may have its name.
        return some (.put { id := nextId, name := "", displayName := storedName displayName
                            type_ := account.categoryType, deletedAt := EPOCH })
      else return change
  | .carryOut (.update id displayName) optimisticUpdates _ =>
    match account.imapName displayName with
    | none => .error .attributeError
    | some displayName =>
      if optimisticUpdates then updateRow rows id ({ · with displayName := storedName displayName })
      else .ok none
  | .carryOut (.delete id _) optimisticUpdates now =>
    if optimisticUpdates then updateRow rows id ({ · with deletedAt := now }) else .ok none
  | .remoteUpdateFolder id oldName newName =>
    match account.imapName newName with
    | none => .error .attributeError
    | some newName =>
      if newName ≠ oldName then updateRow rows id ({ · with displayName := storedName newName })
      else .ok none
  | .remoteDelete id => .ok (if rows.any (·.id = id) then some (.remove id) else none)
  | .findOrCreate name displayName type_ =>
    (Naming.findOrCreate rows nextId name displayName type_).map (·.2)
  | .renameCategory id displayName => updateRow rows id ({ · with displayName := storedName displayName })
  | .setName id name => updateRow rows id ({ · with name })
  | .setDeletedAt id deletedAt => updateRow rows id ({ · with deletedAt })

/-- The unique constraint. -/
def Category.sameKey (a b : Category) : Bool :=
  a.name = b.name && a.displayName = b.displayName && a.deletedAt = b.deletedAt

structure Sessions where
  store : LockedRows.Store Category
  /-- Above every id that was given to a row. -/
  nextId : Nat
  /-- The requests that have passed their checks, with their sessions. -/
  checked : List (Nat × Request)

inductive Step
  | open
  | act (session : Nat) (act : Act)
  | commit (session : Nat)
  | abort (session : Nat)

namespace Sessions
variable (s : Sessions)

def empty : Sessions := ⟨⟨[], []⟩, 1, []⟩

/-- The rows that a session sees. -/
def rows (k : Nat) : List Category := s.store.view Category.id k

/-- An exception rolls the session back. -/
def abort (k : Nat) : Sessions :=
  { s with store := s.store.abort k, checked := s.checked.filter (·.1 ≠ k) }

/-- Waits for a row that another session has changed, and for a key that it has taken; a key that is
taken for good is an error. -/
def apply (k : Nat) : Change → Option Sessions
  | .put row =>
    if s.store.locked Category.id k row.id || (s.store.uncommitted k).any row.sameKey then none
    else if (s.rows k).any fun other => other.id ≠ row.id && row.sameKey other then some (s.abort k)
    else some { s with store := s.store.put Category.id k row, nextId := max s.nextId (row.id + 1) }
  | .remove id =>
    if s.store.locked Category.id k id then none
    else some { s with store := s.store.remove Category.id k id }

def act (k : Nat) (a : Act) : Option Sessions :=
  match a.perform account (s.rows k) s.nextId with
  | .error _ => some (s.abort k)
  | .ok none => some s
  | .ok (some change) => s.apply k change

def step : Step → Option Sessions
  | .open => some { s with store := s.store.open }
  | .act k a =>
    if k < s.store.sessions.length then
      match a with
      | .check request =>
        if request.valid account (s.rows k) then some { s with checked := (k, request) :: s.checked }
        else some (s.abort k)
      | .carryOut request _ _ => if (k, request) ∈ s.checked then s.act account k a else none
      | _ => s.act account k a
    else none
  | .commit k =>
    some { s with store := s.store.commit Category.id k, checked := s.checked.filter (·.1 ≠ k) }
  | .abort k => some (s.abort k)

def run (s : Sessions) : List Step → Option Sessions
  | [] => some s
  | step :: steps => (s.step account step).bind fun next => next.run steps

/-- No other session has taken the name and not committed it, unless with the same key, for which one
waits. -/
def unclaimed (k : Nat) (row : Category) : Bool :=
  (s.store.uncommitted k).all fun other => other.displayName ≠ row.displayName || row.sameKey other

/-- The row's new name is not that of another row, unless the constraint refuses it. -/
def nameFree (k id : Nat) (displayName : Unicode) : Bool :=
  (s.rows k).all fun row => row.id ≠ id ||
    let renamed := { row with displayName := storedName displayName }
    s.unclaimed k renamed && (s.rows k).all fun other =>
      other.displayName ≠ renamed.displayName || other.id = id || renamed.sameKey other

/-- The row of a new category with this name is not one more for what others have not committed. -/
def newName (k : Nat) (name : String) (displayName : Unicode) (type_ : CategoryType) : Bool :=
  let row := { id := s.nextId, name, displayName := storedName displayName, type_, deletedAt := EPOCH }
  (s.rows k).any (·.displayName = row.displayName) || s.unclaimed k row

/-- A request creates no category whose name a deleted one still has, no row is renamed to the name of
another, deleted or not, and no name that another session is about to give is given to a row of another
role or time of deletion. -/
def calm : Step → Bool
  | .act k (.carryOut (.create displayName) _ _) => (account.imapName displayName).all fun displayName =>
    s.newName k "" displayName account.categoryType &&
      (s.rows k).all fun row => row.displayName ≠ storedName displayName || row.deletedAt = EPOCH
  | .act k (.carryOut (.update id displayName) optimisticUpdates _) =>
    !optimisticUpdates || (account.imapName displayName).all (s.nameFree k id)
  | .act k (.remoteUpdateFolder id _ newName) => (account.imapName newName).all (s.nameFree k id)
  | .act k (.findOrCreate name displayName type_) => s.newName k name displayName type_
  | .act k (.renameCategory id displayName) => s.nameFree k id displayName
  | _ => true

def allCalm (s : Sessions) : List Step → Bool
  | [] => true
  | step :: steps => s.calm account step && (s.step account step).all fun next => next.allCalm steps

end Sessions

end SyncEngine.Naming
