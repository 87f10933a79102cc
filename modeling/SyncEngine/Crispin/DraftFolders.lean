import Mathlib.Data.Finset.Basic
import SyncEngine.Sendmail.Drafts

/-! The folders that a draft passes through on the server, and what Crispin does with them. -/
namespace SyncEngine
namespace DraftFolders
open Sendmail

/-- The headers and parts that an outgoing message is made of. -/
structure Mime where
  xInboxId : Option String
  messageId : String
  fromName : String
  fromEmail : String
  toAddr : Addresses
  ccAddr : Addresses
  bccAddr : Addresses
  replyTo : Option (String × String)
  subject : String
  html : String
  inReplyTo : Option String
  references : List String
  attachments : Finset Nat
  deriving DecidableEq

/-- `encodes` tells which messages the mail library can build. A draft has to name its sender. -/
def createEmail (encodes : Mime → Bool) (message : Draft) : Option Mime :=
  match message.fromAddr with
  | [] => none
  | (fromName, fromEmail) :: _ =>
    let mime := {
      fromName, fromEmail
      xInboxId := message.nylasUid
      messageId := generateMessageIdHeader (message.nylasUid.getD "None")
      toAddr := message.toAddr
      ccAddr := message.ccAddr
      bccAddr := message.bccAddr
      replyTo := message.replyTo.bind List.head?
      subject := message.subject
      html := message.body
      inReplyTo := message.inReplyTo
      references := message.references
      attachments := message.files }
    if encodes mime then some mime else none

theorem createEmail_messageId (created : createEmail encodes message = some mime) :
    mime.messageId = generateMessageIdHeader (message.nylasUid.getD "None") := by
  unfold createEmail at created
  split at created
  · cases created
  · dsimp only at created
    split at created
    · cases created
      rfl
    · cases created

inductive Folder
  | drafts
  | sent
  | trash
  deriving DecidableEq

/-- A message on the server; `msgid` is Gmail's id of it in all folders. -/
structure Mail where
  mime : Mime
  msgid : Nat
  deriving DecidableEq

/-- The folders with those of their messages that come from one draft. Public ids are unique, so no
other message has one of its Message-Ids. `opened` is the folder that the server has selected, and
`selectedFolder` the one that the client has on record. -/
structure Remote where
  mailbox : Folder → List Mail
  opened : Option Folder
  selectedFolder : Option Folder
  nextMsgid : Nat

inductive ActionError
  | draftDeletion (message : String)
  | attributeError
  | notEncoded
  deriving DecidableEq, Repr

namespace Remote

def put (remote : Remote) (folder : Folder) (mails : List Mail) : Remote :=
  { remote with mailbox := Function.update remote.mailbox folder mails }

/-- The server's SELECT, past the client's record. -/
def select (remote : Remote) (folder : Folder) : Remote := { remote with opened := some folder }

def selectFolderIfNecessary (remote : Remote) (folder : Folder) : Remote :=
  if remote.selectedFolder = some folder then remote
  else { remote with opened := some folder, selectedFolder := some folder }

def findByHeader (remote : Remote) (messageIdHeader : Option String) : List Mail :=
  match remote.opened with
  | none => []
  | some folder => (remote.mailbox folder).filter fun mail => some mail.mime.messageId = messageIdHeader

/-- Flags the messages with this header in the selected folder as deleted, and expunges them. -/
def deleteMessages (remote : Remote) (messageIdHeader : Option String) : Remote :=
  match remote.opened with
  | none => remote
  | some folder => remote.put folder
      ((remote.mailbox folder).filter fun mail => some mail.mime.messageId ≠ messageIdHeader)

/-- Nothing is deleted when no message matches, nor when several do. -/
def deleteMessage (remote : Remote) (messageIdHeader : Option String) : Bool × Remote :=
  match remote.findByHeader messageIdHeader with
  | [_] => (true, remote.deleteMessages messageIdHeader)
  | _ => (false, remote)

def saveDraft (remote : Remote) (mime : Mime) : Remote :=
  { remote.put .drafts (remote.mailbox .drafts ++ [⟨mime, remote.nextMsgid⟩]) with
    nextMsgid := remote.nextMsgid + 1 }

@[simp] theorem findByHeader_select (remote : Remote) (folder : Folder) (header : Option String) :
    (remote.select folder).findByHeader header =
      (remote.mailbox folder).filter fun mail => some mail.mime.messageId = header := rfl

namespace Generic

def deleteDraft (remote : Remote) (messageIdHeader : Option String) : Bool × Remote :=
  let (deleted, remote) := (remote.select .drafts).deleteMessage messageIdHeader
  if deleted then (true, ((remote.select .trash).deleteMessage messageIdHeader).2)
  else (false, remote)

end Generic

namespace Gmail

/-- The copy in Sent must have been told apart from the draft before the draft is moved to the trash
and deleted there. Taking the flag and the label off has already taken it out of Drafts. -/
def deleteDraft (remote : Remote) (messageIdHeader : Option String) :
    Except ActionError Bool × Remote :=
  let remote := remote.select .sent
  match remote.findByHeader messageIdHeader with
  | [] => (.error (.draftDeletion "Couldn't find sent message in sent folder."), remote)
  | [sent] =>
    let remote := remote.select .drafts
    let matching := remote.findByHeader messageIdHeader
    if matching = [] then (.ok false, remote)
    else
      let remote := remote.deleteMessages messageIdHeader
      if sent.msgid ∈ matching.map Mail.msgid then
        (.error (.draftDeletion "Send and draft should have been reconciled as different messages."),
          remote)
      else
        let trash := (remote.mailbox .trash ++ matching).filter fun mail =>
          mail.msgid ∉ matching.map Mail.msgid
        (.ok true, (remote.put .trash trash).select .trash)
  | _ => (.error (.draftDeletion "Only one message should have this msgid"), remote)

end Gmail

end Remote

/-- The draft has copies in the drafts folder only. -/
structure Holds (remote : Remote) (mails : List Mail) : Prop where
  drafts : remote.mailbox .drafts = mails
  sent : remote.mailbox .sent = []
  trash : remote.mailbox .trash = []

section Holds
variable {remote : Remote} {mails : List Mail}

theorem Holds.selectFolderIfNecessary (holds : Holds remote mails) (folder : Folder) :
    Holds (remote.selectFolderIfNecessary folder) mails := by
  unfold Remote.selectFolderIfNecessary
  split
  · exact holds
  · exact ⟨holds.drafts, holds.sent, holds.trash⟩

theorem Holds.select (holds : Holds remote mails) (folder : Folder) :
    Holds (remote.select folder) mails := ⟨holds.drafts, holds.sent, holds.trash⟩

theorem Holds.saveDraft (holds : Holds remote mails) (mime : Mime) :
    ∃ msgid, Holds (remote.saveDraft mime) (mails ++ [⟨mime, msgid⟩]) :=
  ⟨remote.nextMsgid, by simp [Remote.saveDraft, Remote.put, holds.drafts], holds.sent, holds.trash⟩

/-- Whichever folder is selected, a header that no copy has is not found. -/
theorem Holds.findByHeader (holds : Holds remote mails)
    (absent : ∀ mail ∈ mails, some mail.mime.messageId ≠ header) : remote.findByHeader header = [] := by
  unfold Remote.findByHeader
  split
  · rfl
  · rename_i folder _
    cases folder with
    | drafts => simpa [holds.drafts, List.filter_eq_nil_iff] using absent
    | sent => simp [holds.sent]
    | trash => simp [holds.trash]

theorem Holds.deleteDraft_absent (holds : Holds remote mails)
    (absent : ∀ mail ∈ mails, some mail.mime.messageId ≠ header) :
    ∃ next, Remote.Generic.deleteDraft remote header = (false, next) ∧ Holds next mails := by
  refine ⟨remote.select .drafts, ?_, holds.select .drafts⟩
  simp [Remote.Generic.deleteDraft, Remote.deleteMessage, (holds.select .drafts).findByHeader absent]

/-- The one copy with this header goes, and the trash has none to be deleted. -/
theorem Holds.deleteDraft_one (holds : Holds remote mails)
    (one : mails.filter (fun mail => some mail.mime.messageId = header) = [mail]) :
    ∃ next, Remote.Generic.deleteDraft remote header = (true, next) ∧
      Holds next (mails.filter fun mail => some mail.mime.messageId ≠ header) := by
  have drafts : Holds (remote.select .drafts) mails := holds.select .drafts
  have found : (remote.select .drafts).findByHeader header = [mail] := by
    rwa [Remote.findByHeader_select, holds.drafts]
  have deleted : Holds ((remote.select .drafts).deleteMessages header)
      (mails.filter fun mail => some mail.mime.messageId ≠ header) := by
    constructor
    · simp [Remote.deleteMessages, Remote.select, Remote.put, holds.drafts]
    · simp [Remote.deleteMessages, Remote.select, Remote.put, holds.sent]
    · simp [Remote.deleteMessages, Remote.select, Remote.put, holds.trash]
  have trash := deleted.select .trash
  have none : (((remote.select .drafts).deleteMessages header).select .trash).findByHeader header = [] := by
    rw [Remote.findByHeader_select, deleted.trash, List.filter_nil]
  refine ⟨_, ?_, trash⟩
  simp [Remote.Generic.deleteDraft, Remote.deleteMessage, found, none]

theorem Holds.deleteDraft_gmail (holds : Holds remote mails) (header : Option String) :
    ∃ next error, Remote.Gmail.deleteDraft remote header = (.error error, next) ∧ Holds next mails := by
  have none : (remote.select .sent).findByHeader header = [] := by
    rw [Remote.findByHeader_select, holds.sent, List.filter_nil]
  refine ⟨remote.select .sent, .draftDeletion "Couldn't find sent message in sent folder.", ?_,
    holds.select .sent⟩
  simp only [Remote.Gmail.deleteDraft, none]

end Holds

/-- The Message-Id of one version of a draft. -/
def versionHeader (publicId : String) (version : Int) : String :=
  generateMessageIdHeader (Draft.uid publicId version)

end DraftFolders
end SyncEngine
