import SyncEngine.Crispin.DraftFolders

/-! The copies of a message in the Sent folder of Gmail: how they get there, and how they are deleted. -/
namespace SyncEngine
namespace DraftFolders
namespace Remote

/-- Deletes the messages with this header from the selected folder, unless they are several and not
meant to be. -/
def deleteMessageOrSeveral (remote : Remote) (messageIdHeader : Option String) (deleteMultiple : Bool) :
    Bool × Remote :=
  let matchingUids := remote.findByHeader messageIdHeader
  if matchingUids = [] then (false, remote)
  else if matchingUids.length > 1 && !deleteMultiple then (false, remote)
  else (true, remote.deleteMessages messageIdHeader)

theorem deleteMessageOrSeveral_false (remote : Remote) (header : Option String) :
    remote.deleteMessageOrSeveral header false = remote.deleteMessage header := by
  unfold deleteMessageOrSeveral deleteMessage
  cases found : remote.findByHeader header with
  | nil => rfl
  | cons mail rest => cases rest <;> simp

/-- A message that arrives in the Sent folder, by SMTP or by APPEND. -/
def createMessage (remote : Remote) (mime : Mime) : Remote :=
  { remote.put .sent (remote.mailbox .sent ++ [⟨mime, remote.nextMsgid⟩]) with
    nextMsgid := remote.nextMsgid + 1 }

namespace Gmail

/-- The first half of a deletion: what is copied to the trash is no longer in the Sent folder. -/
def moveSentToTrash (remote : Remote) (messageIdHeader : Option String) : Bool × Remote :=
  let remote := remote.select .sent
  let matchingUids := remote.findByHeader messageIdHeader
  if matchingUids = [] then (false, remote)
  else
    let sent := (remote.mailbox .sent).filter fun mail => some mail.mime.messageId ≠ messageIdHeader
    (true, (remote.put .sent sent).put .trash (remote.mailbox .trash ++ matchingUids))

def deleteFromTrash (remote : Remote) (messageIdHeader : Option String) (deleteMultiple : Bool) : Remote :=
  ((remote.select .trash).deleteMessageOrSeveral messageIdHeader deleteMultiple).2

def deleteSentMessage (remote : Remote) (messageIdHeader : Option String) (deleteMultiple : Bool) :
    Bool × Remote :=
  match moveSentToTrash remote messageIdHeader with
  | (false, remote) => (false, remote)
  | (true, remote) => (true, deleteFromTrash remote messageIdHeader deleteMultiple)

end Gmail

section Copies
variable {remote : Remote} {header : String}

/-- All messages in the folders are copies with one Message-Id. -/
def Copies (header : String) (remote : Remote) : Prop :=
  ∀ folder, ∀ mail ∈ remote.mailbox folder, mail.mime.messageId = header

theorem Copies.put {folder : Folder} {mails : List Mail} (copies : Copies header remote)
    (added : ∀ mail ∈ mails, mail.mime.messageId = header) : Copies header (remote.put folder mails) := by
  intro other mail member
  by_cases same : other = folder
  · subst same
    simp only [Remote.put, Function.update_self] at member
    exact added mail member
  · simp only [Remote.put, Function.update_of_ne same] at member
    exact copies other mail member

theorem Copies.select (copies : Copies header remote) (folder : Folder) :
    Copies header (remote.select folder) := copies

theorem Copies.createMessage {mime : Mime} (copies : Copies header remote) (named : mime.messageId = header) :
    Copies header (remote.createMessage mime) := by
  refine copies.put fun mail member => ?_
  rcases List.mem_append.mp member with before | new
  · exact copies .sent mail before
  · rw [List.mem_singleton.mp new]
    exact named

theorem createMessage_sent (remote : Remote) (mime : Mime) : (remote.createMessage mime).mailbox .sent =
    remote.mailbox .sent ++ [⟨mime, remote.nextMsgid⟩] := by
  simp [Remote.createMessage, Remote.put]

/-- Moving the copies to the trash leaves none in the Sent folder. -/
theorem Copies.moveSentToTrash (copies : Copies header remote) :
    ((Gmail.moveSentToTrash remote (some header)).2.mailbox .sent = []) ∧
      Copies header (Gmail.moveSentToTrash remote (some header)).2 := by
  have all : (remote.mailbox .sent).filter (fun mail => some mail.mime.messageId = some header) =
      remote.mailbox .sent :=
    List.filter_eq_self.mpr fun mail member => by simp [copies .sent mail member]
  have rest : (remote.mailbox .sent).filter (fun mail => some mail.mime.messageId ≠ some header) = [] :=
    List.filter_eq_nil_iff.mpr fun mail member => by simp [copies .sent mail member]
  have same : (remote.select .sent).mailbox = remote.mailbox := rfl
  unfold Gmail.moveSentToTrash
  simp only [findByHeader_select, all, same, rest]
  split
  · next none => exact ⟨none, copies⟩
  · refine ⟨by simp [Remote.put], ?_⟩
    refine Copies.put (Copies.put (copies.select .sent) (by simp)) fun mail member => ?_
    exact (List.mem_append.mp member).elim (copies .trash mail) (copies .sent mail)

theorem Copies.deleteFromTrash (copies : Copies header remote) (messageIdHeader : Option String)
    (deleteMultiple : Bool) :
    (Gmail.deleteFromTrash remote messageIdHeader deleteMultiple).mailbox .sent = remote.mailbox .sent ∧
      Copies header (Gmail.deleteFromTrash remote messageIdHeader deleteMultiple) := by
  simp only [Gmail.deleteFromTrash, deleteMessageOrSeveral]
  split
  · exact ⟨rfl, copies⟩
  · split
    · exact ⟨rfl, copies⟩
    · refine ⟨by simp [deleteMessages, Remote.select, Remote.put], ?_⟩
      exact Copies.put (copies.select .trash) fun mail member =>
        copies .trash mail (List.mem_of_mem_filter member)

end Copies

end Remote
end DraftFolders
end SyncEngine
