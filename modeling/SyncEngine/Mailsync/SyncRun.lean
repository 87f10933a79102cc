import Mathlib.Data.List.Pairwise
import SyncEngine.Mailsync.Gmail
import SyncEngine.Mailsync.MessageAgreement
import SyncEngine.Mailsync.Monitor

/-! Runs of the transactions by which sync changes rows and messages, and which of them keep every
message in step with its rows. -/
namespace SyncEngine

/-- What a message's status depends on in a row, and what a removal looks at. -/
def ImapUid.facts (row : ImapUid) : Nat × Nat × Bool × Bool :=
  (row.folderId, row.messageId, row.isSeen, row.isFlagged)

theorem uidsOf_facts (same : later.imapuids.map ImapUid.facts = db.imapuids.map ImapUid.facts)
    (messageId : Nat) : (Db.uidsOf later messageId).map ImapUid.facts =
      (Db.uidsOf db messageId).map ImapUid.facts := by
  have chosen : ∀ rows : List ImapUid, (rows.filter (fun row => row.messageId = messageId)).map
      ImapUid.facts = (rows.map ImapUid.facts).filter (fun fact => fact.2.1 = messageId) := by
    intro rows
    rw [List.filter_map]
    rfl
  simp only [Db.uidsOf, chosen, same]

theorem Agree.of_facts (same : later.map ImapUid.facts = uids.map ImapUid.facts)
    (agree : Agree uids message) : Agree later message := by
  have none : later = [] ↔ uids = [] := by
    rw [← List.map_eq_nil_iff (f := ImapUid.facts), same, List.map_eq_nil_iff]
  have seen : later.any (fun row => row.isSeen) = uids.any (fun row => row.isSeen) := by
    simpa only [List.any_map, Function.comp_def, ImapUid.facts] using
      congrArg (fun facts => facts.any (fun fact => fact.2.2.1)) same
  have flagged : later.any (fun row => row.isFlagged) = uids.any (fun row => row.isFlagged) := by
    simpa only [List.any_map, Function.comp_def, ImapUid.facts] using
      congrArg (fun facts => facts.any (fun fact => fact.2.2.2)) same
  exact {
    read := fun some => (agree.read (mt none.mpr some)).trans seen.symm
    starred := fun some => (agree.starred (mt none.mpr some)).trans flagged.symm
    had := fun some => agree.had (mt none.mpr some)
    marked := fun had empty => agree.marked had (none.mp empty) }

theorem MessagesAgree.of_facts (messages : later.messages = db.messages)
    (same : later.imapuids.map ImapUid.facts = db.imapuids.map ImapUid.facts)
    (agrees : MessagesAgree db) : MessagesAgree later := by
  intro message member
  exact (agrees message (messages ▸ member)).of_facts (uidsOf_facts same message.id)

/-! ## Creating and updating -/

theorem createMessage_agrees (L : Lookups) {toThread : RawMessage → Message → Db → Db}
    (keeps : ∀ msg message db, KeepsStatus db (toThread msg message db)) (now folderId : Nat)
    (folderRole : String) (msg : RawMessage) (agrees : MessagesAgree db) (unique : UniqueUids db) :
    MessagesAgree (CreateMessage.createMessage L toThread now folderId folderRole msg db).1 ∧
      UniqueUids (CreateMessage.createMessage L toThread now folderId folderRole msg db).1 := by
  unfold CreateMessage.createMessage
  cases free : db.row? folderId msg.uid with
  | some => exact ⟨agrees, unique⟩
  | none =>
    cases msg.body with
    | none => exact ⟨agrees, unique⟩
    | some =>
      have created := createImapMessage_agrees L now folderId folderRole msg agrees
      have still := createImapMessage_unique L now folderRole msg unique free
      dsimp only
      split
      · exact ⟨created, still⟩
      · exact ⟨(keeps msg _ _).agrees created, (keeps msg _ _).unique still⟩

theorem commitMessages_agrees (L : Lookups) (now folderId : Nat) (folderRole : String)
    (rawMessages : List RawMessage) (agrees : MessagesAgree db) (unique : UniqueUids db) :
    MessagesAgree (CreateMessage.commitMessages L now folderId folderRole rawMessages db) ∧
      UniqueUids (CreateMessage.commitMessages L now folderId folderRole rawMessages db) := by
  induction rawMessages generalizing db with
  | nil => exact ⟨agrees, unique⟩
  | cons msg rest ih =>
    obtain ⟨created, still⟩ := createMessage_agrees L
      (fun _ => KeepsStatus.addMessageToThread L) now folderId folderRole msg agrees unique
    exact ih created still

theorem deduplicate_agrees (L : Lookups) (now folderId : Nat) (msg : RawMessage)
    (agrees : MessagesAgree db) (unique : UniqueUids db)
    (saved : CreateMessage.deduplicate L now folderId msg db = some (later, create)) :
    MessagesAgree later ∧ UniqueUids later := by
  unfold CreateMessage.deduplicate at saved
  split at saved
  · cases saved
    exact ⟨agrees, unique⟩
  · split at saved
    · cases saved
      exact ⟨agrees, unique⟩
    · split at saved
      · cases saved
      · rename_i message _ _ _ free
        cases saved
        refine ⟨insertRow_agrees now _ (agrees.others _), ?_⟩
        simpa only [UniqueUids, updateMessageMetadata_imapuids] using insertRow_unique unique free

theorem row?_eq_some (found : Db.row? db folderId uid = some row) :
    row ∈ db.imapuids ∧ row.folderId = folderId ∧ row.msgUid = uid := by
  have holds := List.find?_some found
  simp only [decide_eq_true_eq] at holds
  exact ⟨List.mem_of_find?_eq_some found, holds⟩

/-- The unique constraint makes `filter(…).first()` the only row with these keys. -/
theorem UniqueUids.eq_row (unique : UniqueUids db) (found : db.row? folderId uid = some row)
    (member : other ∈ db.imapuids) (keys : other.folderId = folderId ∧ other.msgUid = uid) :
    other = row := by
  obtain ⟨held, folder, number⟩ := row?_eq_some found
  by_contra apart
  have : Std.Symm fun a b : ImapUid => ¬ (a.folderId = b.folderId ∧ a.msgUid = b.msgUid) :=
    ⟨fun _ _ differ same => differ ⟨same.1.symm, same.2.symm⟩⟩
  exact unique.forall member held apart ⟨keys.1.trans folder.symm, keys.2.trans number.symm⟩

theorem updateRow_unique {change : ImapUid → ImapUid}
    (keys : ∀ row, (change row).folderId = row.folderId ∧ (change row).msgUid = row.msgUid)
    (unique : UniqueUids db) : UniqueUids (db.updateRow folderId uid change) := by
  simp only [UniqueUids, Db.updateRow, List.pairwise_map]
  refine unique.imp fun differ => ?_
  split <;> split <;> simpa only [keys] using differ

theorem filter_map_of_fixed {p : α → Bool} {f : α → α} {items : List α}
    (keeps : ∀ item ∈ items, p (f item) = p item) (fixed : ∀ item ∈ items, p item → f item = item) :
    (items.map f).filter p = items.filter p := by
  rw [List.filter_map, show items.filter (p ∘ f) = items.filter p from List.filter_congr keeps]
  refine (List.map_congr_left fun item inside => ?_).trans (List.map_id _)
  exact fixed item (List.mem_filter.mp inside).1 (List.mem_filter.mp inside).2

/-- Rows of other messages are not touched. -/
theorem updateRow_others {change : ImapUid → ImapUid} (found : db.row? folderId uid = some item)
    (unique : UniqueUids db) (keeps : ∀ row, (change row).messageId = row.messageId)
    (agrees : MessagesAgree db) : OthersAgree (db.updateRow folderId uid change) item.messageId := by
  intro message member other
  have same : (db.updateRow folderId uid change).uidsOf message.id = db.uidsOf message.id := by
    refine filter_map_of_fixed (fun row inside => ?_) (fun row inside chosen => ?_)
    · split <;> simp only [keeps]
    · refine if_neg fun keys => other ?_
      rw [← unique.eq_row found inside keys]
      exact (of_decide_eq_true chosen).symm
  rw [same]
  exact agrees message member

theorem updatedRow_keys (L : Lookups) (newFlags : Flags) (row : ImapUid) :
    (Common.updatedRow L newFlags row).folderId = row.folderId ∧
      (Common.updatedRow L newFlags row).msgUid = row.msgUid := by
  unfold Common.updatedRow
  split <;> exact ⟨rfl, rfl⟩

theorem updatedRow_messageId (L : Lookups) (newFlags : Flags) (row : ImapUid) :
    (Common.updatedRow L newFlags row).messageId = row.messageId := by
  unfold Common.updatedRow
  split <;> rfl

theorem updateFlags_facts (row : ImapUid) (same : (row.updateFlags newFlags).2 = false) :
    (row.updateFlags newFlags).1.facts = row.facts := by
  simp only [ImapUid.updateFlags, Bool.or_eq_false_iff, bne_eq_false_iff_eq] at same
  simp only [ImapUid.facts, ImapUid.updateFlags, ← same.1.1.1.1.2, ← same.1.2]

theorem updatedRow_facts (L : Lookups) (newFlags : Flags) (row : ImapUid)
    (same : ((row.updateFlags newFlags.flags).2 || newFlags.labels.isSome) = false) :
    (Common.updatedRow L newFlags row).facts = row.facts := by
  simp only [Bool.or_eq_false_iff, Option.isSome_eq_false_iff, Option.isNone_iff_eq_none] at same
  simp only [Common.updatedRow, same.2]
  exact updateFlags_facts row same.1

theorem uidsOf_ne_nil (found : Db.row? db folderId uid = some item) :
    db.uidsOf item.messageId ≠ [] :=
  List.ne_nil_of_mem (List.mem_filter.mpr ⟨(row?_eq_some found).1, decide_eq_true rfl⟩)

theorem updateRow_uidsOf_ne_nil {change : ImapUid → ImapUid}
    (found : Db.row? db folderId uid = some item)
    (keeps : ∀ row, (change row).messageId = row.messageId) :
    (db.updateRow folderId uid change).uidsOf item.messageId ≠ [] := by
  obtain ⟨member, keys⟩ := row?_eq_some found
  refine List.ne_nil_of_mem (a := change item) (List.mem_filter.mpr ⟨?_, decide_eq_true (keeps item)⟩)
  exact List.mem_map.mpr ⟨item, member, if_pos keys⟩

theorem updateMetadataItem_agrees (L : Lookups) (now : Nat) (folderRole : String) (newFlags : Flags)
    (agrees : MessagesAgree db) (unique : UniqueUids db) :
    MessagesAgree (Common.updateMetadataItem L now folderId folderRole uid newFlags db) := by
  unfold Common.updateMetadataItem
  cases found : db.row? folderId uid with
  | none => exact agrees
  | some item =>
    dsimp only
    split
    · refine updateMessageMetadata_agrees now _
        (updateRow_others found unique (updatedRow_messageId L newFlags) agrees)
        (fun message member same _ => ?_) (fun _ _ _ _ none => ?_)
      · exact (agrees message member).had (same ▸ uidsOf_ne_nil found)
      · exact absurd none (updateRow_uidsOf_ne_nil found (updatedRow_messageId L newFlags))
    · rename_i unchanged
      refine agrees.of_facts (db.updateRow_messages folderId) ?_
      simp only [Db.updateRow, List.map_map]
      refine List.map_congr_left fun row member => ?_
      simp only [Function.comp_apply]
      split
      · rename_i keys
        obtain rfl := unique.eq_row found member keys
        exact updatedRow_facts L newFlags row (Bool.eq_false_iff.mpr unchanged)
      · rfl

theorem updateMetadataItem_unique (L : Lookups) (now : Nat) (folderRole : String) (newFlags : Flags)
    (unique : UniqueUids db) :
    UniqueUids (Common.updateMetadataItem L now folderId folderRole uid newFlags db) := by
  have updated : UniqueUids (db.updateRow folderId uid (Common.updatedRow L newFlags)) :=
    updateRow_unique (updatedRow_keys L newFlags) unique
  unfold Common.updateMetadataItem
  split
  · exact unique
  · dsimp only
    split
    · simpa only [UniqueUids, updateMessageMetadata_imapuids] using updated
    · exact updated

/-! ## Removing rows one at a time -/

theorem deleteRow_others (found : Db.row? db folderId uid = some item) (unique : UniqueUids db)
    (agrees : MessagesAgree db) : OthersAgree (db.deleteRow folderId uid) item.messageId := by
  intro message member other
  have same : (db.deleteRow folderId uid).uidsOf message.id = db.uidsOf message.id := by
    simp only [Db.uidsOf, Db.deleteRow, List.filter_filter]
    refine List.filter_congr fun row inside => ?_
    by_cases chosen : row.messageId = message.id
    · have apart : ¬ (row.folderId = folderId ∧ row.msgUid = uid) := by
        intro keys
        rw [unique.eq_row found inside keys] at chosen
        exact other chosen.symm
      simp [chosen, apart]
    · simp [chosen]
  rw [same]
  exact agrees message member

theorem filter_unique {keep : ImapUid → Bool} (unique : UniqueUids db)
    (rows : later.imapuids = db.imapuids.filter keep) : UniqueUids later := by
  simpa only [UniqueUids, rows] using unique.filter keep

/-- A draft that has lost its last row is deleted at once; no row refers to it any more. -/
theorem deleteMessage_agrees (others : OthersAgree db messageId) :
    MessagesAgree (db.deleteMessage messageId) := by
  intro message member
  obtain ⟨member, apart⟩ := List.mem_filter.mp member
  have other : message.id ≠ messageId := by simpa using apart
  have same : (db.deleteMessage messageId).uidsOf message.id = db.uidsOf message.id := by
    simp only [Db.uidsOf, Db.deleteMessage, List.filter_filter]
    refine List.filter_congr fun row _ => ?_
    by_cases chosen : row.messageId = message.id
    · simp [chosen, other]
    · simp [chosen]
  rw [same]
  exact others message member other

/-- `message.mark_for_deletion()` -/
theorem markForDeletion_agrees (now : Nat) (others : OthersAgree db messageId)
    (none : db.uidsOf messageId = []) :
    MessagesAgree (db.updateMessage messageId fun message => { message with deletedAt := some now }) := by
  intro after member
  obtain ⟨before, start, rfl⟩ := List.mem_map.mp member
  by_cases found : before.id = messageId
  · rw [if_pos found]
    subst found
    exact ⟨absurd none, absurd none, absurd none, fun _ _ => rfl⟩
  · rw [if_neg found]
    exact others before start found

theorem removeDeletedUid_agrees (now : Nat) (agrees : MessagesAgree db) (unique : UniqueUids db) :
    MessagesAgree (Common.removeDeletedUid now folderId uid db) := by
  unfold Common.removeDeletedUid
  cases found : db.row? folderId uid with
  | none => exact agrees
  | some imapuid =>
    have others := deleteRow_others found unique agrees
    dsimp only
    cases referred : (db.deleteRow folderId uid).message? imapuid.messageId with
    | none =>
      have absent := List.find?_eq_none.mp referred
      exact fun message member => others message member (by simpa using absent message member)
    | some message =>
      have same : message.id = imapuid.messageId := by simpa using List.find?_some referred
      rw [← same] at others
      dsimp only
      split
      · have deleted := deleteMessage_agrees others
        split
        · exact deleted
        · split
          · exact deleted.of_facts rfl rfl
          · exact deleted
      · split
        · rename_i none
          exact markForDeletion_agrees now (updateMessageMetadata_others now _ others) none
        · rename_i some
          have rows : (db.deleteRow folderId uid).uidsOf message.id ≠ [] := by
            simpa only [Db.uidsOf, updateMessageMetadata_imapuids] using some
          refine updateMessageMetadata_agrees now _ others (fun held member ofMessage _ => ?_)
            (fun _ _ _ _ none => absurd none rows)
          exact (agrees held member).had ((ofMessage.trans same) ▸ uidsOf_ne_nil found)

/-- A draft is deleted only when no row refers to it, so the cascade finds nothing. -/
theorem deleteMessage_imapuids (none : Db.uidsOf db messageId = []) :
    (db.deleteMessage messageId).imapuids = db.imapuids := by
  refine List.filter_eq_self.mpr fun row member => ?_
  have apart := List.filter_eq_nil_iff.mp none row member
  simpa using apart

theorem removeDeletedUid_imapuids (now : Nat) (db : Db) :
    (Common.removeDeletedUid now folderId uid db).imapuids = (db.deleteRow folderId uid).imapuids := by
  unfold Common.removeDeletedUid
  split
  · rename_i missing
    refine (List.filter_eq_self.mpr fun row member => ?_).symm
    simpa [← not_and_or] using List.find?_eq_none.mp missing row member
  · dsimp only
    split
    · rfl
    · split
      · rename_i last
        split
        · exact deleteMessage_imapuids last.1
        · split
          · exact deleteMessage_imapuids last.1
          · exact deleteMessage_imapuids last.1
      · split
        · exact updateMessageMetadata_imapuids ..
        · exact updateMessageMetadata_imapuids ..

/-! ## Removing rows without looking at their messages -/

def removeRows (removed : ImapUid → Bool) (db : Db) : Db :=
  { db with imapuids := db.imapuids.filter (fun row => !removed row) }

/-- A message that loses a row keeps another one, and a seen or flagged one if it had such a row;
or it loses its last row and has been marked before. -/
def Settled (removed : ImapUid → Bool) (db : Db) : Prop :=
  ∀ message ∈ db.messages, (db.uidsOf message.id).any removed →
    let left := (db.uidsOf message.id).filter (fun row => !removed row)
    (left ≠ [] ∧
      left.any (fun row => row.isSeen) = (db.uidsOf message.id).any (fun row => row.isSeen) ∧
      left.any (fun row => row.isFlagged) = (db.uidsOf message.id).any (fun row => row.isFlagged)) ∨
    (left = [] ∧ message.deletedAt.isSome)

instance : Decidable (Settled removed db) := by
  unfold Settled
  infer_instance

theorem uidsOf_removeRows (removed : ImapUid → Bool) (db : Db) (messageId : Nat) :
    (removeRows removed db).uidsOf messageId =
      (db.uidsOf messageId).filter (fun row => !removed row) := by
  simp only [Db.uidsOf, removeRows, List.filter_filter, Bool.and_comm]

/-- What a removal must find for the messages still to agree. -/
theorem removeRows_agrees_iff {removed : ImapUid → Bool} (agrees : MessagesAgree db) :
    MessagesAgree (removeRows removed db) ↔ Settled removed db := by
  refine forall₂_congr fun message member => ?_
  rw [uidsOf_removeRows]
  have agree := agrees message member
  generalize db.uidsOf message.id = uids at agree ⊢
  by_cases loses : uids.any removed
  · obtain ⟨row, inside, _⟩ := List.any_eq_true.mp loses
    have some : uids ≠ [] := List.ne_nil_of_mem inside
    simp only [loses, forall_const]
    by_cases left : uids.filter (fun row => !removed row) = []
    · simp only [left, ne_eq, not_true, false_and, true_and, false_or]
      refine ⟨fun after => after.marked (agree.had some) rfl, fun marked => ?_⟩
      exact ⟨absurd rfl, absurd rfl, absurd rfl, fun _ _ => marked⟩
    · simp only [left, ne_eq, not_false_eq_true, true_and, false_and, or_false]
      refine ⟨fun after => ⟨?_, ?_⟩, fun ⟨seen, flagged⟩ => ?_⟩
      · exact (after.read left).symm.trans (agree.read some)
      · exact (after.starred left).symm.trans (agree.starred some)
      · exact ⟨fun _ => (agree.read some).trans seen.symm,
          fun _ => (agree.starred some).trans flagged.symm,
          fun _ => agree.had some, fun _ none => absurd none left⟩
  · have none : ∀ row ∈ uids, removed row = false := by simpa using loses
    have whole : uids.filter (fun row => !removed row) = uids :=
      List.filter_eq_self.mpr fun row inside => by simp [none row inside]
    simp only [loses, whole, Bool.false_eq_true, false_implies, iff_true]
    exact agree

/-! ## The Gmail resync -/

theorem remapRows_facts {rest : List ImapUid}
    (remapped : Gmail.remapRows folderId uidFor done rest = some rows) :
    rows.map ImapUid.facts = (done ++ rest).map ImapUid.facts := by
  induction rest generalizing done with
  | nil =>
    cases remapped
    rw [List.append_nil]
  | cons row rest ih =>
    unfold Gmail.remapRows at remapped
    split at remapped
    · simpa only [List.append_assoc, List.singleton_append] using ih remapped
    · split at remapped
      · cases remapped
      · simpa [ImapUid.facts] using ih remapped

theorem remapRows_unique {rest : List ImapUid}
    (remapped : Gmail.remapRows folderId uidFor done rest = some rows)
    (unique : (done ++ rest).Pairwise fun a b => ¬ (a.folderId = b.folderId ∧ a.msgUid = b.msgUid)) :
    rows.Pairwise fun a b => ¬ (a.folderId = b.folderId ∧ a.msgUid = b.msgUid) := by
  have symmetric : ∀ {a b : ImapUid}, ¬ (a.folderId = b.folderId ∧ a.msgUid = b.msgUid) →
      ¬ (b.folderId = a.folderId ∧ b.msgUid = a.msgUid) :=
    fun differ same => differ ⟨same.1.symm, same.2.symm⟩
  induction rest generalizing done with
  | nil =>
    cases remapped
    rwa [List.append_nil] at unique
  | cons row rest ih =>
    unfold Gmail.remapRows at remapped
    split at remapped
    · exact ih remapped (by simpa only [List.append_assoc, List.singleton_append] using unique)
    · rename_i uid chosen
      split at remapped
      · cases remapped
      · rename_i free
        have inFolder : row.folderId = folderId := by
          by_contra other
          simp [other] at chosen
        refine ih remapped ?_
        simp only [List.append_assoc, List.singleton_append, List.pairwise_middle symmetric,
          List.pairwise_cons] at unique ⊢
        refine ⟨fun other member same => free ?_, unique.2⟩
        exact List.any_eq_true.mpr ⟨other, member,
          decide_eq_true ⟨same.1.symm.trans inFolder, same.2.symm⟩⟩

theorem remapUids_agrees (agrees : MessagesAgree db) (unique : UniqueUids db)
    (settled : Settled (Gmail.unmapped folderId mapping db) db)
    (remapped : Gmail.remapUids folderId mapping db = some later) :
    MessagesAgree later ∧ UniqueUids later := by
  obtain ⟨rows, done, rfl⟩ := Option.map_eq_some_iff.mp remapped
  refine ⟨?_, (remapRows_unique done unique).filter _⟩
  let keeps := fun fact : Nat × Nat × Bool × Bool =>
    !(fact.1 = folderId && (Gmail.newUid mapping db fact.2.1).isNone)
  have chosen : ∀ rows : List ImapUid, (rows.filter (keeps ∘ ImapUid.facts)).map ImapUid.facts =
      (rows.map ImapUid.facts).filter keeps := fun rows => List.filter_map.symm
  have left := (removeRows_agrees_iff agrees).mpr settled
  refine MessagesAgree.of_facts (rfl : _ = (removeRows _ db).messages) ?_ left
  calc (rows.filter (keeps ∘ ImapUid.facts)).map ImapUid.facts
      = (rows.map ImapUid.facts).filter keeps := chosen rows
    _ = (db.imapuids.map ImapUid.facts).filter keeps := by rw [remapRows_facts done, List.nil_append]
    _ = (db.imapuids.filter (keeps ∘ ImapUid.facts)).map ImapUid.facts := (chosen _).symm

/-! ## Folders that vanish -/

theorem discardFolders_agrees (agrees : MessagesAgree db) (unique : UniqueUids db)
    (settled : Settled (Monitor.inDiscarded remoteFolderNames db) db) :
    MessagesAgree (Monitor.discardFolders remoteFolderNames db) ∧
      UniqueUids (Monitor.discardFolders remoteFolderNames db) := by
  have left := (removeRows_agrees_iff agrees).mpr settled
  have kept : KeepsStatus (removeRows (Monitor.inDiscarded remoteFolderNames db) db)
      (Monitor.discardFolders remoteFolderNames db) := by
    refine ⟨rfl, fun after member => ?_⟩
    obtain ⟨before, start, rfl⟩ := List.mem_map.mp member
    exact ⟨before, start, rfl, rfl, rfl, rfl, rfl⟩
  exact ⟨kept.agrees left, unique.filter _⟩

/-! ## Runs -/

/-- The transactions of sync. The generic resync is a run of `removeUid`. -/
inductive Operation where
  | download (folderId : Nat) (folderRole : String) (rawMessages : List RawMessage)
  | createGmail (folderId : Nat) (folderRole : String) (msg : RawMessage)
  | deduplicate (folderId : Nat) (msg : RawMessage)
  | updateItem (folderId : Nat) (folderRole : String) (uid : Nat) (newFlags : Flags)
  | removeUid (folderId uid : Nat)
  | resyncGmail (folderId : Nat) (mapping : Nat → Option Nat)
  | saveFolderNames (remoteFolderNames : List String)

namespace Operation

/-- The database after the transaction; one that is refused changes nothing. -/
def run (L : Lookups) (now : Nat) (db : Db) : Operation → Db
  | download folderId folderRole rawMessages =>
    CreateMessage.commitMessages L now folderId folderRole rawMessages db
  | createGmail folderId folderRole msg =>
    (CreateMessage.createMessage L (CreateMessage.addMessageToThreadGmail L) now folderId folderRole
      msg db).1
  | deduplicate folderId msg =>
    match CreateMessage.deduplicate L now folderId msg db with
    | some (later, _) => later
    | none => db
  | updateItem folderId folderRole uid newFlags =>
    Common.updateMetadataItem L now folderId folderRole uid newFlags db
  | removeUid folderId uid => Common.removeDeletedUid now folderId uid db
  | resyncGmail folderId mapping => (Gmail.remapUids folderId mapping db).getD db
  | saveFolderNames remoteFolderNames => Monitor.discardFolders remoteFolderNames db

/-- Only the two bulk removals ask anything of the messages. -/
def Allowed (db : Db) : Operation → Prop
  | resyncGmail folderId mapping =>
    (Gmail.remapUids folderId mapping db).isSome → Settled (Gmail.unmapped folderId mapping db) db
  | saveFolderNames remoteFolderNames => Settled (Monitor.inDiscarded remoteFolderNames db) db
  | _ => True

theorem run_agrees (L : Lookups) (now : Nat) (operation : Operation) (allowed : operation.Allowed db)
    (agrees : MessagesAgree db) (unique : UniqueUids db) :
    MessagesAgree (operation.run L now db) ∧ UniqueUids (operation.run L now db) := by
  cases operation with
  | download => exact commitMessages_agrees L now _ _ _ agrees unique
  | createGmail =>
    exact createMessage_agrees L (KeepsStatus.addMessageToThreadGmail L) now _ _ _ agrees unique
  | deduplicate folderId msg =>
    simp only [run]
    split
    · rename_i saved
      exact deduplicate_agrees L now folderId msg agrees unique saved
    · exact ⟨agrees, unique⟩
  | updateItem =>
    exact ⟨updateMetadataItem_agrees L now _ _ agrees unique,
      updateMetadataItem_unique L now _ _ unique⟩
  | removeUid =>
    exact ⟨removeDeletedUid_agrees now agrees unique,
      filter_unique unique (removeDeletedUid_imapuids now db)⟩
  | resyncGmail folderId mapping =>
    simp only [run]
    cases remapped : Gmail.remapUids folderId mapping db with
    | none => exact ⟨agrees, unique⟩
    | some later =>
      exact remapUids_agrees agrees unique (allowed (remapped ▸ rfl)) remapped
  | saveFolderNames => exact discardFolders_agrees agrees unique allowed

end Operation

inductive SyncStep (L : Lookups) : Db → Db → Prop where
  | commit (now : Nat) (operation : Operation) (allowed : operation.Allowed db) :
      SyncStep L db (operation.run L now db)

/-- In a run whose bulk removals find every message settled, messages agree with their rows after
each transaction. -/
theorem messages_agree_after_run (agrees : MessagesAgree db) (unique : UniqueUids db)
    (run : Relation.ReflTransGen (SyncStep L) db later) : MessagesAgree later := by
  suffices MessagesAgree later ∧ UniqueUids later from this.1
  induction run with
  | refl => exact ⟨agrees, unique⟩
  | tail _ step ih =>
    cases step with
    | commit now operation allowed => exact operation.run_agrees L now allowed ih.1 ih.2

/-! ## A small account -/
namespace Sample

def lookups : Lookups where
  createFromSynced msg :=
    { id := 0, threadId := none, subject := "Hello", receivedDate := 1, snippet := ""
      isRead := false, isStarred := false, isDraft := false, categories := []
      categoriesChanges := false, gMsgid := msg.gMsgid, gThrid := msg.gThrid, deletedAt := none
      hadUid := false }
  reconcileMessage _ _ := none
  fetchCorrespondingThread _ _ := none
  chooseExistingThreadForGmail _ _ := none
  cleanupSubject subject := subject
  labelFindOrCreate name _ := { name, canonicalName := "", category := 0 }

def account : Db where
  categoryType := .folder
  folders := [{ id := 1, name := "Projects", canonicalName := "", categoryId := some 4 }]
  imapuids := []
  messages := []
  threads := []
  actionLog := []

def msg : RawMessage where
  uid := 3
  flags := ["\\Seen"]
  body := some "Hi"
  gThrid := some 6
  gMsgid := some 7
  gLabels := none
  uidvalidity := 1
  modseq := 1

def runAll (operations : List Operation) : Db :=
  operations.foldl (fun db operation => operation.run lookups 100 db) account

end Sample

open Sample in
theorem messages_agree_after_sample_run : MessagesAgree
    (runAll [.createGmail 1 "" msg, .resyncGmail 1 (fun _ => some 9), .removeUid 1 9]) := by
  have run : Relation.ReflTransGen (SyncStep lookups) account
      (runAll [.createGmail 1 "" msg, .resyncGmail 1 (fun _ => some 9), .removeUid 1 9]) :=
    .tail (.tail (.tail .refl (.commit 100 (.createGmail 1 "" msg) trivial))
      (.commit 100 (.resyncGmail 1 (fun _ => some 9)) (by unfold Operation.Allowed; decide)))
      (.commit 100 (.removeUid 1 9) trivial)
  exact messages_agree_after_run (by simp [MessagesAgree, account]) (by decide) run

open Sample in
/-- A message keeps being shown whose last row a Gmail resync, or a vanished folder, has removed. -/
theorem bulk_removals_leave_messages_unmarked :
    ¬ MessagesAgree (runAll [.createGmail 1 "" msg, .resyncGmail 1 (fun _ => none)]) ∧
      ¬ MessagesAgree (runAll [.download 1 "" [msg], .saveFolderNames ["INBOX"]]) := by
  refine ⟨fun agrees => ?_, fun agrees => ?_⟩
  · have marked := (agrees _ List.mem_cons_self).marked rfl rfl
    cases marked
  · have marked := (agrees _ List.mem_cons_self).marked rfl rfl
    cases marked

end SyncEngine
