import SyncEngine.Mailsync.Common

/-! How a downloaded message is saved: its row, the message and thread it joins, and for Gmail
the message object that an earlier download of the same `X-GM-MSGID` left behind. -/
namespace SyncEngine
namespace CreateMessage

def MAX_THREAD_LENGTH : Nat := 500

/-- `Thread.update_from_message`, which runs when a message joins `thread.messages`. -/
def updateFromMessage (thread : Thread) (message : Message) : Thread :=
  if message.isDraft then thread
  else
    let thread := if thread.recentdate < message.receivedDate then
      { thread with recentdate := message.receivedDate, snippet := message.snippet } else thread
    if message.receivedDate < thread.subjectdate then
      { thread with subject := message.subject, subjectdate := message.receivedDate } else thread

/-- The setter of `message.thread` undeletes the thread that the message has had. -/
def undeleteHeld (message : Message) (db : Db) : Db :=
  match message.threadId with
  | some held => db.updateThread held (fun thread => { thread with deletedAt := none })
  | none => db

/-- A message whose `_thread` changes is appended to `thread.messages`, which the validator sees. -/
def backref (message : Message) (threadId : Nat) (db : Db) : Db :=
  if message.threadId = some threadId then db
  else db.updateThread threadId (fun thread => updateFromMessage thread message)

/-- `message.thread = thread` -/
def setThread (db : Db) (message : Message) (threadId : Nat) : Db :=
  (backref message threadId (undeleteHeld message db)).updateMessage message.id
    (fun message => { message with threadId := some threadId })

/-- `ImapThread(subject=…)` and its assignment to the message. -/
def newThread (db : Db) (message : Message) (subject : String) (gThrid : Option Nat) : Db :=
  let id := db.freshThreadId
  setThread (db.insertThread { id, subject, subjectdate := message.receivedDate
                               recentdate := message.receivedDate, snippet := message.snippet
                               gThrid, deletedAt := none }) message id

def addMessageToThread (L : Lookups) (message : Message) (db : Db) : Db :=
  match (L.fetchCorrespondingThread db message).bind db.thread? with
  | some parent =>
    if (db.threadMessages parent.id).length < MAX_THREAD_LENGTH then
      (db.updateThread parent.id (fun thread => updateFromMessage thread message)).updateMessage
        message.id (fun message => { message with threadId := some parent.id })
    else fromImapMessage L message db
  | none => fromImapMessage L message db
where
  fromImapMessage (L : Lookups) (message : Message) (db : Db) : Db :=
    match message.threadId.bind db.thread? with
    | some thread => setThread db message thread.id
    | none => newThread db message (L.cleanupSubject message.subject) none

/-- `GmailFolderSyncEngine.add_message_to_thread`. Gmail sends an `X-GM-THRID` with every message. -/
def addMessageToThreadGmail (L : Lookups) (msg : RawMessage) (message : Message) (db : Db) : Db :=
  let message := { message with gMsgid := msg.gMsgid, gThrid := msg.gThrid }
  let db := db.updateMessage message.id fun message =>
    { message with gMsgid := msg.gMsgid, gThrid := msg.gThrid }
  match message.threadId.bind db.thread? with
  | some thread =>
    setThread (db.updateThread thread.id (fun thread => { thread with gThrid := msg.gThrid }))
      message thread.id
  | none =>
    match (L.chooseExistingThreadForGmail db message).bind db.thread? with
    | some thread => setThread db message thread.id
    | none => newThread db message message.subject msg.gThrid

/-- `create_message`; `toThread` is the engine's own `add_message_to_thread`. -/
def createMessage (L : Lookups) (toThread : RawMessage → Message → Db → Db) (now folderId : Nat)
    (folderRole : String) (msg : RawMessage) (db : Db) : Db × Option Nat :=
  match db.row? folderId msg.uid with
  -- Expected to create imapuid, but existing row found
  | some _ => (db, none)
  | none =>
    match msg.body with
    -- Server returned a message with an empty body.
    | none => (db, none)
    | some _ =>
      let (db, messageId) := Common.createImapMessage L now folderId folderRole msg db
      match db.message? messageId with
      | none => (db, none)
      | some message => (toThread msg message db, some msg.uid)

/-- The one transaction of the generic `download_and_commit_uids`. -/
def commitMessages (L : Lookups) (now folderId : Nat) (folderRole : String)
    (rawMessages : List RawMessage) (db : Db) : Db :=
  rawMessages.foldl (fun db msg =>
    (createMessage L (fun _ => addMessageToThread L) now folderId folderRole msg db).1) db

/-- One turn of the deduplication loop, for a message whose `X-GM-MSGID` is known. The result
says whether the message still has to be created; `none` when the unique constraint refuses the
row, because another message of the folder has the UID. -/
def deduplicate (L : Lookups) (now folderId : Nat) (msg : RawMessage) (db : Db) :
    Option (Db × Bool) :=
  match db.messages.find? (fun message => message.gMsgid = msg.gMsgid) with
  -- Message disappeared while saving new uid
  | none => some (db, true)
  | some message =>
    if (db.uidsOf message.id).any (fun row => row.msgUid = msg.uid ∧ row.folderId = folderId) then
      some (db, false)
    else
      match db.row? folderId msg.uid with
      | some _ => none
      | none =>
        let row := ((Common.newRow folderId message.id msg).updateFlags msg.flags).1.updateLabels
          L.labelFindOrCreate (msg.gLabels.getD [])
        some (Common.updateMessageMetadata now (db.insertRow row) message.id row.isDraft, false)

end CreateMessage
end SyncEngine
