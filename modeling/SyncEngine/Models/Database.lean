import Mathlib.Data.List.MinMax
import SyncEngine.Models.ImapUid

/-! The part of an account's database that mail sync reads and writes. Rows refer to each other
by id, and deleting a message or a folder deletes the `ImapUid` rows that refer to it. -/
namespace SyncEngine

structure Folder where
  id : Nat
  name : String
  canonicalName : String
  categoryId : Option Nat
deriving DecidableEq, Repr

structure Message where
  id : Nat
  threadId : Option Nat
  subject : String
  receivedDate : Nat
  snippet : String
  isRead : Bool
  isStarred : Bool
  isDraft : Bool
  categories : List Nat
  categoriesChanges : Bool
  gMsgid : Option Nat
  gThrid : Option Nat
  deletedAt : Option Nat
  /-- Not a column: an `ImapUid` has referred to this message. -/
  hadUid : Bool
deriving DecidableEq, Repr

structure Thread where
  id : Nat
  subject : String
  subjectdate : Nat
  recentdate : Nat
  snippet : String
  gThrid : Option Nat
  deletedAt : Option Nat
deriving DecidableEq, Repr

inductive ActionStatus where
  | pending
  | successful
  | failed
deriving DecidableEq, Repr

structure ActionLog where
  id : Nat
  tableName : String
  recordId : Nat
  action : String
  status : ActionStatus
  updatedAt : Nat
deriving DecidableEq, Repr

inductive CategoryType where
  | folder
  | label
deriving DecidableEq, Repr

structure Db where
  categoryType : CategoryType
  folders : List Folder
  imapuids : List ImapUid
  messages : List Message
  threads : List Thread
  actionLog : List ActionLog
deriving DecidableEq, Repr

namespace Db

/-- The rows of one folder, which is what one folder engine works on. -/
def rows (db : Db) (folderId : Nat) : List ImapUid :=
  db.imapuids.filter (fun row => row.folderId = folderId)

def row? (db : Db) (folderId uid : Nat) : Option ImapUid :=
  db.imapuids.find? (fun row => row.folderId = folderId ∧ row.msgUid = uid)

/-- `message.imapuids` -/
def uidsOf (db : Db) (messageId : Nat) : List ImapUid :=
  db.imapuids.filter (fun row => row.messageId = messageId)

def message? (db : Db) (id : Nat) : Option Message :=
  db.messages.find? (fun message => message.id = id)

def folder? (db : Db) (id : Nat) : Option Folder :=
  db.folders.find? (fun folder => folder.id = id)

/-- `thread.messages`, oldest first. -/
def threadMessages (db : Db) (threadId : Nat) : List Message :=
  (db.messages.filter (fun message => message.threadId = some threadId)).insertionSort
    (fun a b => a.receivedDate ≤ b.receivedDate)

def updateMessage (db : Db) (id : Nat) (change : Message → Message) : Db :=
  { db with messages := db.messages.map fun message =>
      if message.id = id then change message else message }

def updateThread (db : Db) (id : Nat) (change : Thread → Thread) : Db :=
  { db with threads := db.threads.map fun thread =>
      if thread.id = id then change thread else thread }

def updateRow (db : Db) (folderId uid : Nat) (change : ImapUid → ImapUid) : Db :=
  { db with imapuids := db.imapuids.map fun row =>
      if row.folderId = folderId ∧ row.msgUid = uid then change row else row }

def deleteRow (db : Db) (folderId uid : Nat) : Db :=
  { db with imapuids := db.imapuids.filter fun row =>
      ¬ (row.folderId = folderId ∧ row.msgUid = uid) }

/-- `ImapUid.message_id` is declared with `ON DELETE CASCADE`. -/
def deleteMessage (db : Db) (id : Nat) : Db :=
  { db with
      messages := db.messages.filter (fun message => message.id ≠ id)
      imapuids := db.imapuids.filter (fun row => row.messageId ≠ id) }

def deleteThread (db : Db) (id : Nat) : Db :=
  { db with threads := db.threads.filter (fun thread => thread.id ≠ id) }

/-- An id that no message has and that no row refers to. -/
def freshMessageId (db : Db) : Nat :=
  ((db.messages.map Message.id ++ db.imapuids.map ImapUid.messageId).foldr max 0) + 1

def insertMessage (db : Db) (message : Message) : Db :=
  { db with messages := db.messages ++ [message] }

/-- A new row is also what makes its message one that had a UID. -/
def insertRow (db : Db) (row : ImapUid) : Db :=
  { db.updateMessage row.messageId (fun message => { message with hadUid := true }) with
    imapuids := db.imapuids ++ [row] }

def insertThread (db : Db) (thread : Thread) : Db :=
  { db with threads := db.threads ++ [thread] }

def thread? (db : Db) (id : Nat) : Option Thread :=
  db.threads.find? (fun thread => thread.id = id)

def freshThreadId (db : Db) : Nat :=
  ((db.threads.map Thread.id ++ db.messages.filterMap Message.threadId).foldr max 0) + 1

theorem le_foldr_max {ids : List Nat} {id : Nat} (member : id ∈ ids) : id ≤ ids.foldr max 0 := by
  induction ids with
  | nil => cases member
  | cons first rest ih =>
    rcases List.mem_cons.mp member with rfl | later
    · exact Nat.le_max_left _ _
    · exact Nat.le_trans (ih later) (Nat.le_max_right _ _)

/-! ## What each change leaves alone -/
section Frame
variable (db : Db) (id : Nat)

@[simp] theorem updateMessage_imapuids : (db.updateMessage id change).imapuids = db.imapuids := rfl
@[simp] theorem updateThread_imapuids : (db.updateThread id change).imapuids = db.imapuids := rfl
@[simp] theorem updateRow_messages : (db.updateRow id uid change).messages = db.messages := rfl
@[simp] theorem deleteRow_messages : (db.deleteRow id uid).messages = db.messages := rfl
@[simp] theorem deleteThread_imapuids : (db.deleteThread id).imapuids = db.imapuids := rfl
@[simp] theorem deleteThread_messages : (db.deleteThread id).messages = db.messages := rfl
@[simp] theorem insertThread_imapuids : (db.insertThread thread).imapuids = db.imapuids := rfl
@[simp] theorem insertThread_messages : (db.insertThread thread).messages = db.messages := rfl
@[simp] theorem insertMessage_imapuids : (db.insertMessage message).imapuids = db.imapuids := rfl
@[simp] theorem insertRow_imapuids : (db.insertRow row).imapuids = db.imapuids ++ [row] := rfl

end Frame

end Db
end SyncEngine
