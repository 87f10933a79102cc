import SyncEngine.Models.Database

/-! The account monitor's removal of folders that the server no longer lists. -/
namespace SyncEngine
namespace Monitor

/-- The categories of the local folders that are not among the remote ones. -/
def discardedCategories (remoteFolderNames : List String) (db : Db) : List Nat :=
  (db.folders.filter (fun folder => folder.name ∉ remoteFolderNames)).filterMap Folder.categoryId

/-- A folder goes with its category. -/
def discarded (remoteFolderNames : List String) (db : Db) (folder : Folder) : Bool :=
  match folder.categoryId with
  | none => false
  | some category => category ∈ discardedCategories remoteFolderNames db

def inDiscarded (remoteFolderNames : List String) (db : Db) (row : ImapUid) : Bool :=
  db.folders.any fun folder => folder.id = row.folderId && discarded remoteFolderNames db folder

/-- The first half of `ImapSyncMonitor.save_folder_names`: deleting a category deletes its folders
and takes it off every message, and deleting a folder deletes its `ImapUid` rows. -/
def discardFolders (remoteFolderNames : List String) (db : Db) : Db :=
  { db with
      folders := db.folders.filter (fun folder => !discarded remoteFolderNames db folder)
      imapuids := db.imapuids.filter (fun row => !inDiscarded remoteFolderNames db row)
      messages := db.messages.map fun message =>
        { message with categories := message.categories.filter fun category =>
            category ∉ discardedCategories remoteFolderNames db } }

end Monitor
end SyncEngine
