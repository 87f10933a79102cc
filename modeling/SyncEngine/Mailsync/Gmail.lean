import SyncEngine.Mailsync.CreateMessage

/-! What the Gmail engine does to the rows of a folder whose UIDVALIDITY has changed: messages are
known by `X-GM-MSGID`, so their rows get the new UIDs instead of being thrown away. -/
namespace SyncEngine
namespace Gmail

/-- `mapping[entry.message.g_msgid]`, if it is there. -/
def newUid (mapping : Nat → Option Nat) (db : Db) (messageId : Nat) : Option Nat :=
  ((db.message? messageId).bind Message.gMsgid).bind mapping

/-- The UPDATE statements of the flush, in the order of the rows. Each is checked against the
unique constraint at once; the DELETE statements come after all of them. -/
def remapRows (folderId : Nat) (uidFor : Nat → Option Nat) (done : List ImapUid) :
    List ImapUid → Option (List ImapUid)
  | [] => some done
  | row :: rest =>
    match if row.folderId = folderId then uidFor row.messageId else none with
    | none => remapRows folderId uidFor (done ++ [row]) rest
    | some uid =>
      if (done ++ rest).any (fun other => other.folderId = folderId ∧ other.msgUid = uid) then none
      else remapRows folderId uidFor (done ++ [{ row with msgUid := uid }]) rest

/-- The rows of the folder that the server's new UIDs do not cover. -/
def unmapped (folderId : Nat) (mapping : Nat → Option Nat) (db : Db) (row : ImapUid) : Bool :=
  row.folderId = folderId && (newUid mapping db row.messageId).isNone

/-- The row part of the transaction of `GmailFolderSyncEngine.resync_uids_impl`; `none` when the
database refuses it. -/
def remapUids (folderId : Nat) (mapping : Nat → Option Nat) (db : Db) : Option Db :=
  (remapRows folderId (newUid mapping db) [] db.imapuids).map fun rows =>
    { db with imapuids := rows.filter (fun row => !unmapped folderId mapping db row) }

end Gmail
end SyncEngine
