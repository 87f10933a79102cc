import SyncEngine.Mailsync.Attachment
import SyncEngine.Mailsync.Gc
import SyncEngine.Util.ReadCommitted

/-! The transactions that attach messages to threads and those that delete threads, statement by
statement: each statement sees what the others have committed by then. -/
namespace SyncEngine
open CreateMessage
namespace ThreadTransactions

/-- The thread that `add_message_to_thread` gives a message. -/
inductive Target where
  | create (thread : Thread)
  /-- The `messages` of an existing thread; `updates` where the flush also updates its row. -/
  | join (threadId : Nat) (updates : Bool)
  /-- The thread of the message; `undeletes` where the setter has found it marked. -/
  | keep (threadId : Nat) (undeletes : Bool)
deriving DecidableEq, Repr

def Target.threadId : Target → Nat
  | .create thread => thread.id
  | .join threadId _ | .keep threadId _ => threadId

/-- A message with its new UID, given a thread. -/
structure Write where
  message : Message
  isNew : Bool
  row : ImapUid
  target : Target
deriving DecidableEq, Repr

namespace Write

def applyThread (write : Write) (db : Db) : Db :=
  match write.target with
  | .create thread => db.insertThread thread
  | .join threadId _ => db.updateThread threadId (fun thread => updateFromMessage thread write.message)
  | .keep threadId undeletes =>
    if undeletes then db.updateThread threadId (fun thread => { thread with deletedAt := none }) else db

def applyMessage (write : Write) (db : Db) : Db :=
  match write.target with
  | .keep _ _ => db
  | .create _ | .join _ _ =>
    let threadId := some write.target.threadId
    if write.isNew then db.insertMessage { write.message with threadId }
    else db.updateMessage write.message.id (fun row => { row with threadId })

def apply (write : Write) (db : Db) : Db :=
  (write.applyMessage (write.applyThread db)).insertRow write.row

/-- `StaleDataError`: the row to update is gone. -/
def isStale (write : Write) (db : Db) : Bool :=
  match write.target with
  | .join threadId updates => updates && (db.thread? threadId).isNone
  | .create _ | .keep _ _ => false

end Write

/-- What `add_message_to_thread` writes for a message, given the database that its transaction
sees. Two choices are the engine's own: whether the row is updated, and the title of a new thread. -/
def attachWrite (L : Lookups) (engine : Engine) (message : Message) (row : ImapUid) (updates : Bool)
    (nextThreadId : Nat) (db : Db) : Write where
  message
  isNew := (db.message? message.id).isNone
  row
  target :=
    match engine.parent? L message db with
    | some parent => .join parent.id updates
    | none =>
      match message.threadId.bind db.thread? with
      | some own => .keep own.id own.deletedAt.isSome
      | none => .create {
          id := nextThreadId
          subject := match engine with
            | .imap => L.cleanupSubject message.subject
            | .gmail _ => message.subject
          subjectdate := message.receivedDate, recentdate := message.receivedDate
          snippet := message.snippet
          gThrid := match engine with
            | .imap => none
            | .gmail msg => msg.gThrid
          deletedAt := none }

/-- Where `gc_deleted_threads` is in its loop. -/
inductive Sweeper where
  | idle
  | scanning (remaining : List Nat)
  /-- `thread.messages` is loaded, and is empty. -/
  | emptied (threadId : Nat) (loaded : List Nat) (remaining : List Nat)
deriving DecidableEq, Repr

/-- A draft that `remove_deleted_uids` deletes, with its thread where nothing else is loaded in it. -/
structure Removal where
  folderId : Nat
  uid : Nat
  messageId : Nat
  thread : Option (Nat × List Nat)
deriving DecidableEq, Repr

structure State where
  db : Db
  /-- `AUTO_INCREMENT` -/
  nextThreadId : Nat
  collector : Gc.Collector
  sweeper : Sweeper
  removals : List Removal
  transactions : List (List Write)
  /-- Not in the code: the threads that the transaction has attached messages to that has just
  committed, and the messages with a UID that went with a deleted thread. -/
  attached : List Nat
  lost : List Nat
deriving DecidableEq, Repr

inductive Turn where
  /-- The query for threads marked no later than `before`. -/
  | select (before : Nat)
  /-- `if thread.messages:` -/
  | look
  /-- `db_session.delete(thread)` with its commit -/
  | delete
  | failSweep
  /-- A turn of `DeleteHandler.check`. -/
  | check (turn : Gc.Turn)
  /-- `remove_deleted_uids` up to its commit. -/
  | readDraft (folderId uid : Nat)
  | deleteDraft (index : Nat)
  | failDraft (index : Nat)
  | begin
  | attach (index : Nat) (engine : Engine) (message : Message) (row : ImapUid) (updates : Bool)
  | commit (index : Nat)
  | fail (index : Nat)
  /-- Any other transaction. -/
  | other (later : Db)

namespace State

def seen (writes : List Write) (db : Db) : Db := ReadCommitted.view Write.apply writes db

/-- The thread is deleted with the messages that are loaded in its collection. -/
def deleteThread (threadId : Nat) (loaded : List Nat) (s : State) : State :=
  { s with
      db := (loaded.foldl Db.deleteMessage s.db).deleteThread threadId
      lost := s.lost ++ loaded.filter fun messageId => s.db.uidsOf messageId ≠ [] }

/-- The branch of `remove_deleted_uids` for the last UID of a draft. -/
def readDraft (folderId uid : Nat) (db : Db) : Option Removal := do
  let imapuid ← db.row? folderId uid
  let message ← db.message? imapuid.messageId
  if (db.deleteRow folderId uid).uidsOf message.id = [] ∧ message.isDraft then
    let thread := do
      let thread ← message.threadId.bind db.thread?
      let loaded := (db.threadMessages thread.id).filter fun other => other.id ≠ message.id
      if loaded = [] then some (thread.id, loaded.map Message.id) else none
    some { folderId, uid, messageId := message.id, thread }
  else none

def deleteDraft (removal : Removal) (s : State) : State :=
  let s := { s with
    db := (s.db.deleteRow removal.folderId removal.uid).deleteMessage removal.messageId }
  match removal.thread with
  | some (threadId, loaded) => s.deleteThread threadId loaded
  | none => s

def turn (L : Lookups) (s : State) (turn : Turn) : State :=
  let s := { s with attached := [] }
  match turn with
  | .select before =>
    match s.sweeper with
    | .idle =>
      let deletedThreads := s.db.threads.filter fun thread =>
        thread.deletedAt.any (fun deletedAt => deletedAt ≤ before)
      { s with sweeper := .scanning ((deletedThreads.take Gc.MAX_FETCH).map Thread.id) }
    | _ => s
  | .look =>
    match s.sweeper with
    | .scanning (threadId :: remaining) =>
      -- A thread that is gone cannot be refreshed.
      if (s.db.thread? threadId).isNone then { s with sweeper := .idle }
      else
        let messages := s.db.threadMessages threadId
        if messages ≠ [] then
          { s with
              db := s.db.updateThread threadId (fun thread => { thread with deletedAt := none })
              sweeper := .scanning remaining }
        else { s with sweeper := .emptied threadId (messages.map Message.id) remaining }
    | _ => s
  | .delete =>
    match s.sweeper with
    | .emptied threadId loaded remaining =>
      { s.deleteThread threadId loaded with sweeper := .scanning remaining }
    | _ => s
  | .failSweep => { s with sweeper := .idle }
  | .check turn =>
    let later := Gc.State.turn L ⟨s.db, s.collector⟩ turn
    { s with db := later.db, collector := later.collector }
  | .readDraft folderId uid =>
    { s with removals := s.removals ++ (readDraft folderId uid s.db).toList }
  | .deleteDraft index =>
    match s.removals[index]? with
    | some removal => { s.deleteDraft removal with removals := s.removals.eraseIdx index }
    | none => s
  | .failDraft index => { s with removals := s.removals.eraseIdx index }
  | .begin => { s with transactions := s.transactions ++ [[]] }
  | .attach index engine message row updates =>
    match s.transactions[index]? with
    | some writes =>
      let message := ((seen writes s.db).message? message.id).getD { message with threadId := none }
      let write := attachWrite L engine message row updates s.nextThreadId (seen writes s.db)
      { s with
          transactions := s.transactions.set index (writes ++ [write])
          nextThreadId := s.nextThreadId + 1 }
    | none => s
  | .commit index =>
    match s.transactions[index]? with
    | some writes =>
      let s := { s with transactions := s.transactions.eraseIdx index }
      match ReadCommitted.commit Write.apply Write.isStale writes s.db with
      | some db => { s with db, attached := writes.map fun write => write.target.threadId }
      | none => s
    | none => s
  | .fail index => { s with transactions := s.transactions.eraseIdx index }
  | .other later => { s with db := later }

end State
/-! ## Alone, each transaction does what its function says -/

theorem thread?_applyThread (write : Write) (db : Db) (other : Nat) (apart : other ≠ write.target.threadId) :
    (write.applyThread db).thread? other = db.thread? other := by
  unfold Write.applyThread
  cases target : write.target with
  | create thread =>
    have different : thread.id ≠ other := by simpa [target, Target.threadId, eq_comm] using apart
    simp [Db.thread?, Db.insertThread, different]
  | join threadId updates =>
    have different : other ≠ threadId := by simpa [target, Target.threadId] using apart
    dsimp only
    rw [Db.thread?_updateThread fun thread => updateFromMessage_id thread write.message, if_neg different]
  | keep threadId undeletes =>
    have different : other ≠ threadId := by simpa [target, Target.threadId] using apart
    dsimp only
    split
    · rw [Db.thread?_undelete, if_neg different]
    · rfl

/-- What a transaction writes puts the message into the thread that `add_message_to_thread` puts it
into, and leaves the same marks on all threads. -/
theorem attachWrite_agrees (L : Lookups) (engine : Engine) (row : ImapUid) (updates : Bool)
    (member : message ∈ Db.messages db) :
    let write := attachWrite L engine message row updates db.freshThreadId db
    let after := engine.addMessageToThread L message db
    GoesTo write.target.threadId message after ∧ ∀ threadId,
      ((write.applyThread db).thread? threadId).map Thread.deletedAt =
        (after.thread? threadId).map Thread.deletedAt := by
  intro write after
  obtain ⟨threadId, attached⟩ := engine.attached L member
  have goes := attached.goes member
  generalize chosen : engine.parent? L message db = parent at attached
  suffices at_target : write.target.threadId = threadId ∧
      ((write.applyThread db).thread? threadId).map Thread.deletedAt =
        (after.thread? threadId).map Thread.deletedAt by
    obtain ⟨same, marks⟩ := at_target
    refine ⟨same ▸ goes, fun other => ?_⟩
    by_cases equal : other = threadId
    · rw [equal, marks]
    · rw [thread?_applyThread write db other (same ▸ equal), attached.others other equal]
  cases attached.attachment with
  | joins parent found thread =>
    have target : write.target = .join threadId updates := by
      simp [write, attachWrite, chosen, Db.thread?_id found]
    refine ⟨by rw [target]; rfl, ?_⟩
    rw [thread, Write.applyThread, target]
    dsimp only
    rw [Db.thread?_updateThread fun thread => updateFromMessage_id thread write.message, if_pos rfl, found]
    simp
  | keeps own found held gThrid thread =>
    have target : write.target = .keep threadId own.deletedAt.isSome := by
      simp [write, attachWrite, chosen, held, found, Db.thread?_id found]
    refine ⟨by rw [target]; rfl, ?_⟩
    rw [thread, Write.applyThread, target]
    dsimp only
    cases marked : own.deletedAt with
    | none => simp [found, marked]
    | some deletedAt =>
      simp only [Option.isSome_some, if_true]
      rw [Db.thread?_undelete, if_pos rfl, found]
      rfl
  | creates unheld fresh subject gThrid thread =>
    have target : write.target.threadId = threadId := by
      simp [write, attachWrite, chosen, unheld, Target.threadId, fresh]
    refine ⟨target, ?_⟩
    subst fresh
    rw [thread]
    simp [write, attachWrite, chosen, unheld, Write.applyThread, Db.thread?_insertThread, Db.thread?_fresh]

/-- `remove_deleted_uids`, without other transactions between its reads and its commit. -/
theorem deleteDraft_eq (now : Nat) {s : State} (read : State.readDraft folderId uid s.db = some removal) :
    (s.deleteDraft removal).db = Common.removeDeletedUid now folderId uid s.db := by
  simp only [State.readDraft, Option.bind_eq_bind, Option.bind_eq_some_iff] at read
  obtain ⟨imapuid, row, message, found, read⟩ := read
  split at read
  · rename_i draft
    cases read
    unfold Common.removeDeletedUid
    rw [row]
    dsimp only
    rw [show (s.db.deleteRow folderId uid).message? imapuid.messageId = some message from found]
    dsimp only
    rw [if_pos draft]
    have threads : ((s.db.deleteRow folderId uid).deleteMessage message.id).thread? = s.db.thread? := rfl
    rw [threads]
    cases held : message.threadId.bind s.db.thread? with
    | none => rfl
    | some thread =>
      have left : ((s.db.deleteRow folderId uid).deleteMessage message.id).threadMessages thread.id = [] ↔
          (s.db.threadMessages thread.id).filter (fun other => other.id ≠ message.id) = [] := by
        simp only [List.eq_nil_iff_forall_not_mem, Db.threadMessages, Db.deleteMessage, Db.deleteRow,
          List.mem_insertionSort, List.mem_filter]
        exact forall_congr' fun other => not_congr (by tauto)
      by_cases empty : (s.db.threadMessages thread.id).filter (fun other => other.id ≠ message.id) = []
      · simp only [Option.bind_some, empty, if_true, List.map_nil, State.deleteDraft, State.deleteThread,
          List.foldl_nil, left.mpr empty]
      · simp only [Option.bind_some, if_neg empty, State.deleteDraft, if_neg (mt left.mp empty)]
  · cases read

end ThreadTransactions
end SyncEngine
