import SyncEngine.Models.Database

/-! The helpers that every IMAP backend shares: reading the rows of a folder, updating their
flags, deleting them, and attaching a new row to a message. Each function is one transaction. -/
namespace SyncEngine

/-- A message as the server delivered it. -/
structure RawMessage where
  uid : Nat
  flags : List String
  body : Option String
  gThrid : Option Nat
  gMsgid : Option Nat
  gLabels : Option (List String)
  /-- Not delivered: the UIDVALIDITY of the session, and the modseq of the version read. -/
  uidvalidity : Nat
  modseq : Nat
deriving DecidableEq, Repr

/-- `Flags`, and `GmailFlags` where there are labels. -/
structure Flags where
  flags : List String
  labels : Option (List String)
  modseq : Option Nat
deriving DecidableEq, Repr

/-- What decides which message, thread and label a download joins. Any choice is allowed here. -/
structure Lookups where
  createFromSynced : RawMessage → Message
  reconcileMessage : Db → RawMessage → Option Nat
  fetchCorrespondingThread : Db → Message → Option Nat
  chooseExistingThreadForGmail : Db → Message → Option Nat
  cleanupSubject : String → String
  labelFindOrCreate : String → Option String → Label

namespace Common

def localUids (db : Db) (folderId : Nat) : List Nat := (db.rows folderId).map ImapUid.msgUid

/-- With a limit, the largest UIDs. -/
def localUidsLimit (db : Db) (folderId limit : Nat) : List Nat :=
  ((localUids db folderId).insertionSort (fun a b => b ≤ a)).take limit

def lastseenuid (db : Db) (folderId : Nat) : Nat := (localUids db folderId).foldr max 0

/-- `ImapUid.categories` -/
def categories (db : Db) (row : ImapUid) : List Nat :=
  row.labels.map Label.category ++ ((db.folder? row.folderId).bind Folder.categoryId).toList

/-- `list(categories)[0]`, of a set in some order. -/
def selectCategory (categories : List Nat) : List Nat := categories.take 1

def updateCategories (now : Nat) (db : Db) (messageId : Nat) (synced : List Nat) : Db :=
  let entries := db.actionLog.filter fun entry =>
    entry.tableName = "message" ∧ entry.recordId = messageId ∧
      entry.action ∈ ["change_labels", "move"]
  let overwritten := db.updateMessage messageId fun message =>
    { message with categories := synced, categoriesChanges := false }
  match entries.argmax ActionLog.id with
  | none => overwritten
  | some entry =>
    -- `timedelta.seconds` leaves whole days out
    if entry.status = .pending ∨ ((now : Int) - entry.updatedAt) % 86400 ≤ 90 then db
    else overwritten

def syncedCategories (db : Db) (uids : List ImapUid) : List Nat :=
  match db.categoryType with
  | .folder => selectCategory (uids.flatMap (categories db)).dedup
  | .label => (uids.flatMap (categories db)).dedup

def recomputed (uids : List ImapUid) (isDraft : Bool) (synced : List Nat) (message : Message) :
    Message :=
  { message with
    isRead := uids.any (fun row => row.isSeen)
    isStarred := uids.any (fun row => row.isFlagged)
    isDraft
    categories := if message.categoriesChanges then message.categories else synced }

def updateMessageMetadata (now : Nat) (db : Db) (messageId : Nat) (isDraft : Bool) : Db :=
  let uids := db.uidsOf messageId
  let synced := syncedCategories db uids
  let updated := db.updateMessage messageId (recomputed uids isDraft synced)
  if (db.messages.any fun message => message.id = messageId ∧ message.categoriesChanges) then
    updateCategories now updated messageId synced
  else updated

/-- The row after `update_flags` and, where there are labels, `update_labels`. -/
def updatedRow (L : Lookups) (newFlags : Flags) (row : ImapUid) : ImapUid :=
  let row := { (row.updateFlags newFlags.flags).1 with modseq := newFlags.modseq.getD row.modseq }
  match newFlags.labels with
  | none => row
  | some labels => row.updateLabels L.labelFindOrCreate labels

/-- One turn of the loop in `update_metadata`: a row that the new flags name. -/
def updateMetadataItem (L : Lookups) (now folderId : Nat) (folderRole : String) (uid : Nat)
    (newFlags : Flags) (db : Db) : Db :=
  match db.row? folderId uid with
  | none => db
  | some item =>
    let changed := (item.updateFlags newFlags.flags).2 || newFlags.labels.isSome
    let updated := db.updateRow folderId uid (updatedRow L newFlags)
    if changed then
      let isDraft := (updatedRow L newFlags item).isDraft &&
        (folderRole = "drafts" || folderRole = "all")
      updateMessageMetadata now updated item.messageId isDraft
    else updated

/-- One turn of the loop in `remove_deleted_uids`, with its own commit. -/
def removeDeletedUid (now folderId uid : Nat) (db : Db) : Db :=
  match db.row? folderId uid with
  | none => db
  | some imapuid =>
    let db := db.deleteRow folderId uid
    match db.message? imapuid.messageId with
    | none => db
    | some message =>
      if db.uidsOf message.id = [] ∧ message.isDraft then
        -- Synchronously delete drafts.
        let db := db.deleteMessage message.id
        match message.threadId.bind db.thread? with
        | none => db
        | some thread => if db.threadMessages thread.id = [] then db.deleteThread thread.id else db
      else
        let db := updateMessageMetadata now db message.id message.isDraft
        if db.uidsOf message.id = [] then
          db.updateMessage message.id (fun message => { message with deletedAt := some now })
        else db

def removeDeletedUids (now folderId : Nat) (uids : List Nat) (db : Db) : Db :=
  uids.foldl (fun db uid => removeDeletedUid now folderId uid db) db

/-- The row for a new UID, before any flags are set. -/
def newRow (folderId messageId : Nat) (msg : RawMessage) : ImapUid :=
  { isDraft := false, isSeen := false, isFlagged := false, isRecent := false, isAnswered := false
    extraFlags := [], folderId, msgUid := msg.uid, messageId, labels := []
    uidvalidity := msg.uidvalidity, modseq := msg.modseq }

/-- `update_flags` and then, for Gmail, `update_labels`. -/
def flaggedRow (L : Lookups) (folderId messageId : Nat) (msg : RawMessage) : ImapUid :=
  let row := ((newRow folderId messageId msg).updateFlags msg.flags).1
  match msg.gLabels with
  | none => row
  | some labels => row.updateLabels L.labelFindOrCreate labels

def createImapMessage (L : Lookups) (now folderId : Nat) (folderRole : String) (msg : RawMessage)
    (db : Db) : Db × Nat :=
  let created := L.createFromSynced msg
  let (db, messageId) := match (L.reconcileMessage db msg).bind db.message? with
    | some existing => (db, existing.id)
    | none =>
      let id := db.freshMessageId
      (db.insertMessage { created with id, threadId := none, hadUid := false, deletedAt := none }, id)
  let row := flaggedRow L folderId messageId msg
  let isDraft := row.isDraft && (folderRole = "drafts" || folderRole = "all")
  (updateMessageMetadata now (db.insertRow row) messageId isDraft, messageId)

end Common
end SyncEngine
