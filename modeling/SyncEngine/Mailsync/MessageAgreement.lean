import Mathlib.Logic.Relation
import SyncEngine.Mailsync.CreateMessage

/-! Messages follow their `ImapUid` rows: what a message says about being read and starred is
what its rows say, and a message that has lost its last row is marked for the collector. -/
namespace SyncEngine

/-- One message and the rows that refer to it. -/
structure Agree (uids : List ImapUid) (message : Message) : Prop where
  read : uids ≠ [] → message.isRead = uids.any (fun row => row.isSeen)
  starred : uids ≠ [] → message.isStarred = uids.any (fun row => row.isFlagged)
  had : uids ≠ [] → message.hadUid = true
  marked : message.hadUid = true → uids = [] → message.deletedAt.isSome

def MessagesAgree (db : Db) : Prop := ∀ message ∈ db.messages, Agree (db.uidsOf message.id) message

/-- `UniqueConstraint('folder_id', 'msg_uid', 'account_id')` -/
def UniqueUids (db : Db) : Prop :=
  db.imapuids.Pairwise fun a b => ¬ (a.folderId = b.folderId ∧ a.msgUid = b.msgUid)

instance : Decidable (UniqueUids db) := by
  unfold UniqueUids
  infer_instance

/-- The same message as far as its rows and the collector are concerned. -/
structure SameStatus (before after : Message) : Prop where
  id : after.id = before.id
  isRead : after.isRead = before.isRead
  isStarred : after.isStarred = before.isStarred
  hadUid : after.hadUid = before.hadUid
  deletedAt : after.deletedAt = before.deletedAt

/-- Changes of threads, categories and drafts, which leave rows and status alone. -/
structure KeepsStatus (db later : Db) : Prop where
  imapuids : later.imapuids = db.imapuids
  messages : ∀ after ∈ later.messages, ∃ before ∈ db.messages, SameStatus before after

namespace KeepsStatus

theorem refl (db : Db) : KeepsStatus db db where
  imapuids := rfl
  messages := fun after member => ⟨after, member, rfl, rfl, rfl, rfl, rfl⟩

theorem trans (first : KeepsStatus a b) (second : KeepsStatus b c) : KeepsStatus a c where
  imapuids := second.imapuids.trans first.imapuids
  messages after member := by
    obtain ⟨between, inside, same⟩ := second.messages after member
    obtain ⟨before, start, earlier⟩ := first.messages between inside
    exact ⟨before, start, same.id.trans earlier.id, same.isRead.trans earlier.isRead,
      same.isStarred.trans earlier.isStarred, same.hadUid.trans earlier.hadUid,
      same.deletedAt.trans earlier.deletedAt⟩

theorem updateMessage (db : Db) (id : Nat) (change : Message → Message)
    (same : ∀ message, SameStatus message (change message)) :
    KeepsStatus db (db.updateMessage id change) where
  imapuids := rfl
  messages after member := by
    obtain ⟨before, start, rfl⟩ := List.mem_map.mp member
    refine ⟨before, start, ?_⟩
    split
    · exact same before
    · exact ⟨rfl, rfl, rfl, rfl, rfl⟩

theorem updateThread (db : Db) (id : Nat) (change : Thread → Thread) :
    KeepsStatus db (db.updateThread id change) where
  imapuids := rfl
  messages := (refl db).messages

theorem insertThread (db : Db) (thread : Thread) : KeepsStatus db (db.insertThread thread) where
  imapuids := rfl
  messages := (refl db).messages

theorem unique (kept : KeepsStatus db later) (unique : UniqueUids db) : UniqueUids later := by
  simpa only [UniqueUids, kept.imapuids] using unique

theorem undeleteHeld (message : Message) (db : Db) :
    KeepsStatus db (CreateMessage.undeleteHeld message db) := by
  unfold CreateMessage.undeleteHeld
  split
  · exact updateThread db _ _
  · exact refl db

theorem backref (message : Message) (threadId : Nat) (db : Db) :
    KeepsStatus db (CreateMessage.backref message threadId db) := by
  unfold CreateMessage.backref
  split
  · exact refl db
  · exact updateThread db _ _

theorem setThread (db : Db) (message : Message) (threadId : Nat) :
    KeepsStatus db (CreateMessage.setThread db message threadId) :=
  trans (trans (undeleteHeld message db) (backref message threadId _))
    (updateMessage _ _ _ fun _ => ⟨rfl, rfl, rfl, rfl, rfl⟩)

theorem newThread (db : Db) (message : Message) (subject : String) (gThrid : Option Nat) :
    KeepsStatus db (CreateMessage.newThread db message subject gThrid) :=
  trans (insertThread db _) (setThread _ message _)

theorem addMessageToThread (L : Lookups) (message : Message) (db : Db) :
    KeepsStatus db (CreateMessage.addMessageToThread L message db) := by
  have joins : KeepsStatus db (CreateMessage.addMessageToThread.fromImapMessage L message db) := by
    unfold CreateMessage.addMessageToThread.fromImapMessage
    split
    · exact setThread db message _
    · exact newThread db message _ _
  unfold CreateMessage.addMessageToThread
  split
  · split
    · exact trans (updateThread db _ _) (updateMessage _ _ _ fun _ => ⟨rfl, rfl, rfl, rfl, rfl⟩)
    · exact joins
  · exact joins

theorem addMessageToThreadGmail (L : Lookups) (msg : RawMessage) (message : Message) (db : Db) :
    KeepsStatus db (CreateMessage.addMessageToThreadGmail L msg message db) := by
  unfold CreateMessage.addMessageToThreadGmail
  refine trans (updateMessage db message.id (fun message =>
    { message with gMsgid := msg.gMsgid, gThrid := msg.gThrid }) fun _ => ⟨rfl, rfl, rfl, rfl, rfl⟩) ?_
  dsimp only
  split
  · exact trans (updateThread _ _ _) (setThread _ _ _)
  · split
    · exact setThread _ _ _
    · exact newThread _ _ _ _

theorem updateCategories (now : Nat) (db : Db) (messageId : Nat) (synced : List Nat) :
    KeepsStatus db (Common.updateCategories now db messageId synced) := by
  unfold Common.updateCategories
  dsimp only
  split
  · exact updateMessage db messageId _ fun _ => ⟨rfl, rfl, rfl, rfl, rfl⟩
  · split
    · exact refl db
    · exact updateMessage db messageId _ fun _ => ⟨rfl, rfl, rfl, rfl, rfl⟩

end KeepsStatus

/-! ## The recomputation -/

theorem SameStatus.agree (same : SameStatus before after) (agree : Agree uids before) :
    Agree uids after where
  read some := same.isRead.trans (agree.read some)
  starred some := same.isStarred.trans (agree.starred some)
  had some := same.hadUid.trans (agree.had some)
  marked had none := same.deletedAt ▸ agree.marked (same.hadUid ▸ had) none

theorem KeepsStatus.agrees (kept : KeepsStatus db later) (agrees : MessagesAgree db) :
    MessagesAgree later := by
  intro after member
  obtain ⟨before, start, same⟩ := kept.messages after member
  simp only [Db.uidsOf, kept.imapuids, same.id]
  exact same.agree (agrees before start)

/-- Every message but one agrees with its rows. -/
def OthersAgree (db : Db) (messageId : Nat) : Prop :=
  ∀ message ∈ db.messages, message.id ≠ messageId → Agree (db.uidsOf message.id) message

theorem updateMessageMetadata_keeps (now : Nat) (db : Db) (messageId : Nat) (isDraft : Bool) :
    ∃ synced, KeepsStatus
      (db.updateMessage messageId (Common.recomputed (db.uidsOf messageId) isDraft synced))
      (Common.updateMessageMetadata now db messageId isDraft) := by
  refine ⟨Common.syncedCategories db (db.uidsOf messageId), ?_⟩
  unfold Common.updateMessageMetadata
  dsimp only
  split
  · exact KeepsStatus.updateCategories now _ messageId _
  · exact KeepsStatus.refl _

theorem updateMessageMetadata_imapuids (now : Nat) (db : Db) (messageId : Nat) (isDraft : Bool) :
    (Common.updateMessageMetadata now db messageId isDraft).imapuids = db.imapuids := by
  obtain ⟨synced, kept⟩ := updateMessageMetadata_keeps now db messageId isDraft
  exact kept.imapuids

theorem updateMessage_others {change : Message → Message} (keepsId : ∀ message, (change message).id = message.id)
    (others : OthersAgree db messageId) : OthersAgree (db.updateMessage messageId change) messageId := by
  intro after member other
  obtain ⟨before, start, rfl⟩ := List.mem_map.mp member
  have apart : before.id ≠ messageId := by
    intro found
    rw [if_pos found, keepsId] at other
    exact other found
  rw [if_neg apart]
  exact others before start apart

theorem KeepsStatus.others (kept : KeepsStatus db later) (others : OthersAgree db messageId) :
    OthersAgree later messageId := by
  intro after member other
  obtain ⟨before, start, same⟩ := kept.messages after member
  simp only [Db.uidsOf, kept.imapuids, same.id]
  exact same.agree (others before start (same.id ▸ other))

theorem updateMessageMetadata_others (now : Nat) (isDraft : Bool) (others : OthersAgree db messageId) :
    OthersAgree (Common.updateMessageMetadata now db messageId isDraft) messageId := by
  obtain ⟨synced, kept⟩ := updateMessageMetadata_keeps now db messageId isDraft
  exact kept.others (updateMessage_others (fun _ => rfl) others)

/-- `update_message_metadata` restores the one message, if that is marked where it has to be. -/
theorem updateMessageMetadata_agrees (now : Nat) (isDraft : Bool) (others : OthersAgree db messageId)
    (had : ∀ message ∈ db.messages, message.id = messageId → db.uidsOf messageId ≠ [] →
      message.hadUid = true)
    (marked : ∀ message ∈ db.messages, message.id = messageId → message.hadUid = true →
      db.uidsOf messageId = [] → message.deletedAt.isSome) :
    MessagesAgree (Common.updateMessageMetadata now db messageId isDraft) := by
  obtain ⟨synced, kept⟩ := updateMessageMetadata_keeps now db messageId isDraft
  refine kept.agrees fun after member => ?_
  obtain ⟨before, start, rfl⟩ := List.mem_map.mp member
  by_cases found : before.id = messageId
  · rw [if_pos found]
    subst found
    exact ⟨fun _ => rfl, fun _ => rfl, had before start rfl, marked before start rfl⟩
  · rw [if_neg found]
    exact others before start found

/-! ## Attaching a row -/

theorem uidsOf_insertRow_other (other : messageId ≠ row.messageId) :
    (Db.insertRow db row).uidsOf messageId = db.uidsOf messageId := by
  simp [Db.uidsOf, Ne.symm other]

theorem uidsOf_insertRow_self (db : Db) (row : ImapUid) :
    (db.insertRow row).uidsOf row.messageId ≠ [] := by
  simp [Db.uidsOf]

/-- A row is attached and its message recomputed in the same transaction. -/
theorem insertRow_agrees (now : Nat) (isDraft : Bool) (others : OthersAgree db row.messageId) :
    MessagesAgree (Common.updateMessageMetadata now (db.insertRow row) row.messageId isDraft) := by
  have marked : OthersAgree (db.updateMessage row.messageId fun message =>
      { message with hadUid := true }) row.messageId := updateMessage_others (fun _ => rfl) others
  refine updateMessageMetadata_agrees now isDraft (fun after member other => ?_) ?_ ?_
  · rw [uidsOf_insertRow_other other]
    exact marked after member other
  · intro after member found _
    obtain ⟨before, start, rfl⟩ := List.mem_map.mp member
    by_cases same : before.id = row.messageId
    · rw [if_pos same]
    · rw [if_neg same] at found
      exact absurd found same
  · exact fun _ _ _ _ none => absurd none (uidsOf_insertRow_self db row)

theorem insertRow_unique (unique : UniqueUids db) (free : db.row? row.folderId row.msgUid = none) :
    UniqueUids (db.insertRow row) := by
  simp only [UniqueUids, Db.insertRow_imapuids, List.pairwise_append]
  refine ⟨unique, List.pairwise_singleton _ _, fun held member new single => ?_⟩
  obtain rfl := List.mem_singleton.mp single
  have absent := List.find?_eq_none.mp free held member
  simpa using absent

@[simp] theorem flaggedRow_messageId (L : Lookups) :
    (Common.flaggedRow L folderId messageId msg).messageId = messageId := by
  unfold Common.flaggedRow
  split <;> rfl

@[simp] theorem flaggedRow_folderId (L : Lookups) :
    (Common.flaggedRow L folderId messageId msg).folderId = folderId := by
  unfold Common.flaggedRow
  split <;> rfl

@[simp] theorem flaggedRow_msgUid (L : Lookups) :
    (Common.flaggedRow L folderId messageId msg).msgUid = msg.uid := by
  unfold Common.flaggedRow
  split <;> rfl

theorem MessagesAgree.others (agrees : MessagesAgree db) (messageId : Nat) :
    OthersAgree db messageId := fun message member _ => agrees message member

theorem MessagesAgree.others_insertMessage (agrees : MessagesAgree db) (message : Message) :
    OthersAgree (db.insertMessage message) message.id := by
  intro held member other
  rcases List.mem_append.mp member with old | new
  · exact agrees held old
  · exact absurd (congrArg Message.id (List.mem_singleton.mp new)) other

theorem createImapMessage_agrees (L : Lookups) (now folderId : Nat) (folderRole : String)
    (msg : RawMessage) (agrees : MessagesAgree db) :
    MessagesAgree (Common.createImapMessage L now folderId folderRole msg db).1 := by
  unfold Common.createImapMessage
  cases (L.reconcileMessage db msg).bind db.message? with
  | some existing =>
    have others := agrees.others (Common.flaggedRow L folderId existing.id msg).messageId
    simpa only [flaggedRow_messageId] using insertRow_agrees now _ others
  | none =>
    let id := db.freshMessageId
    have others : OthersAgree (db.insertMessage { L.createFromSynced msg with
          id, threadId := none, hadUid := false, deletedAt := none })
        (Common.flaggedRow L folderId id msg).messageId := by
      simpa only [flaggedRow_messageId] using agrees.others_insertMessage _
    simpa only [flaggedRow_messageId] using insertRow_agrees now _ others

theorem createImapMessage_imapuids (L : Lookups) (now folderId : Nat) (folderRole : String)
    (msg : RawMessage) (db : Db) :
    ∃ messageId, (Common.createImapMessage L now folderId folderRole msg db).1.imapuids =
      db.imapuids ++ [Common.flaggedRow L folderId messageId msg] := by
  unfold Common.createImapMessage
  cases (L.reconcileMessage db msg).bind db.message? with
  | some existing => exact ⟨existing.id, updateMessageMetadata_imapuids ..⟩
  | none => exact ⟨db.freshMessageId, updateMessageMetadata_imapuids ..⟩

theorem createImapMessage_unique (L : Lookups) (now : Nat) (folderRole : String) (msg : RawMessage)
    (unique : UniqueUids db) (free : db.row? folderId msg.uid = none) :
    UniqueUids (Common.createImapMessage L now folderId folderRole msg db).1 := by
  obtain ⟨messageId, rows⟩ := createImapMessage_imapuids L now folderId folderRole msg db
  have inserted : UniqueUids (db.insertRow (Common.flaggedRow L folderId messageId msg)) :=
    insertRow_unique unique (by simpa only [flaggedRow_folderId, flaggedRow_msgUid] using free)
  simpa only [UniqueUids, rows, Db.insertRow_imapuids] using inserted

end SyncEngine
