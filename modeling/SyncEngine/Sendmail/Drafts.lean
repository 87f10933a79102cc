import Mathlib.Data.Finset.SDiff

/-! A draft's row, its validation by a request, and what an update or a delivery makes of it. -/
namespace SyncEngine
namespace Sendmail

abbrev Addresses := List (String × String)

/-- The columns of a message that drafts use, and the blocks that its parts attach. -/
structure Draft where
  publicId : String
  version : Int
  nylasUid : Option String
  messageIdHeader : Option String
  isDraft : Bool
  isSent : Bool
  isCreated : Bool
  toAddr : Addresses
  ccAddr : Addresses
  bccAddr : Addresses
  fromAddr : Addresses
  replyTo : Option Addresses
  subject : String
  body : String
  size : Nat
  snippet : String
  receivedDate : Nat
  inReplyTo : Option String
  references : List String
  files : Finset Nat
  deriving DecidableEq

def MAX_MYSQL_INTEGER : Int := 2147483647

def generateMessageIdHeader (uid : String) : String := "<" ++ uid ++ "@mailer.nylas.com>"

def Draft.uid (publicId : String) (version : Int) : String := publicId ++ "-" ++ toString version

def Draft.regenerateNylasUid (draft : Draft) : Draft :=
  let uid := Draft.uid draft.publicId draft.version
  { draft with nylasUid := some uid, messageIdHeader := some (generateMessageIdHeader uid) }

inductive ApiError
  | input (message : String)
  | notFound (message : String)
  | conflict (message : String)
  deriving DecidableEq, Repr

/-- The version that a request carries: none at all, one that is no number, or a number. -/
inductive Version
  | missing
  | malformed
  | number (version : Int)
  deriving DecidableEq, Repr

def getDraft (publicId : String) (version : Version) (stored : Option Draft) : Except ApiError Draft :=
  match version with
  | .missing => .error (.input "Must specify draft version")
  | .malformed => .error (.input "Invalid draft version")
  | .number version =>
    match stored.filter fun draft => draft.publicId = publicId with
    | none => .error (.notFound s!"Couldn't find draft {publicId}")
    | some draft =>
      if draft.isSent || !draft.isDraft then
        .error (.input s!"Message {publicId} is not a draft")
      else if draft.version ≠ version then
        .error (.conflict
          s!"Draft {publicId}.{version} has already been updated to version {draft.version}")
      else .ok draft

/-- What a reply takes over from the message that it answers. -/
structure Reply where
  subject : String
  inReplyTo : Option String
  references : List String

structure NewDraft where
  toAddr : Option Addresses := none
  ccAddr : Option Addresses := none
  bccAddr : Option Addresses := none
  fromAddr : Option Addresses := none
  replyTo : Option Addresses := none
  subject : Option String := none
  body : String := ""
  files : Finset Nat := ∅
  reply : Option Reply := none

/-- The message of a new draft, or with `isDraft` off of a message to be sent at once. `account` is
the sender that an absent or empty list stands for. -/
def createMessageFromJson (snippet : String → String) (account : String × String) (publicId : String)
    (now : Nat) (isDraft : Bool) (input : NewDraft) : Draft :=
  Draft.regenerateNylasUid {
    publicId, isDraft
    version := 0
    nylasUid := none
    messageIdHeader := none
    isSent := false
    isCreated := true
    toAddr := input.toAddr.getD []
    ccAddr := input.ccAddr.getD []
    bccAddr := input.bccAddr.getD []
    fromAddr := (input.fromAddr.filter (· ≠ [])).getD [account]
    replyTo := input.replyTo
    subject := (input.subject.orElse fun _ => input.reply.map Reply.subject).getD ""
    body := input.body
    size := input.body.length
    snippet := snippet input.body
    receivedDate := now
    inReplyTo := input.reply.bind Reply.inReplyTo
    references := (input.reply.map Reply.references).getD []
    files := input.files }

/-- The attributes of an update request. `files` replaces the attachments, also when it is empty. -/
structure Changes where
  toAddr : Option Addresses := none
  subject : Option String := none
  body : Option String := none
  files : Finset Nat := ∅
  ccAddr : Option Addresses := none
  bccAddr : Option Addresses := none
  fromAddr : Option Addresses := none
  replyTo : Option Addresses := none

section Update
variable (snippet : String → String)

/-- An empty subject or body is not an update of it. -/
def updateDraft (now : Nat) (changes : Changes) (draft : Draft) : Draft :=
  let subject := changes.subject.filter (· ≠ "")
  let body := changes.body.filter (· ≠ "")
  { draft with
    toAddr := changes.toAddr.getD draft.toAddr
    ccAddr := changes.ccAddr.getD draft.ccAddr
    bccAddr := changes.bccAddr.getD draft.bccAddr
    replyTo := changes.replyTo.orElse fun _ => draft.replyTo
    fromAddr := changes.fromAddr.getD draft.fromAddr
    subject := subject.getD draft.subject
    body := body.getD draft.body
    size := (body.map String.length).getD draft.size
    snippet := (body.map snippet).getD draft.snippet
    receivedDate := now
    files := changes.files
    isCreated := true
    version := draft.version + 1 }.regenerateNylasUid

@[simp] theorem updateDraft_version (now : Nat) (changes : Changes) (draft : Draft) :
    (updateDraft snippet now changes draft).version = draft.version + 1 := rfl

end Update

def updateDraftOnSend (now : Nat) (draft : Draft) : Draft :=
  { draft with isSent := true, isDraft := false, receivedDate := now }

section Flush

/-- An attribute that the session has not changed is not in the statement. -/
def column {C : Type} [DecidableEq C] (seen new stored : C) : C := if new = seen then stored else new

@[simp] theorem column_self {C : Type} [DecidableEq C] (seen new : C) : column seen new seen = new := by
  unfold column
  split
  · exact Eq.symm ‹_›
  · rfl

/-- The row once the changes of a session that has loaded it as `seen` are flushed. -/
def Draft.flush (seen new stored : Draft) : Draft where
  publicId := column seen.publicId new.publicId stored.publicId
  version := column seen.version new.version stored.version
  nylasUid := column seen.nylasUid new.nylasUid stored.nylasUid
  messageIdHeader := column seen.messageIdHeader new.messageIdHeader stored.messageIdHeader
  isDraft := column seen.isDraft new.isDraft stored.isDraft
  isSent := column seen.isSent new.isSent stored.isSent
  isCreated := column seen.isCreated new.isCreated stored.isCreated
  toAddr := column seen.toAddr new.toAddr stored.toAddr
  ccAddr := column seen.ccAddr new.ccAddr stored.ccAddr
  bccAddr := column seen.bccAddr new.bccAddr stored.bccAddr
  fromAddr := column seen.fromAddr new.fromAddr stored.fromAddr
  replyTo := column seen.replyTo new.replyTo stored.replyTo
  subject := column seen.subject new.subject stored.subject
  body := column seen.body new.body stored.body
  size := column seen.size new.size stored.size
  snippet := column seen.snippet new.snippet stored.snippet
  receivedDate := column seen.receivedDate new.receivedDate stored.receivedDate
  inReplyTo := column seen.inReplyTo new.inReplyTo stored.inReplyTo
  references := column seen.references new.references stored.references
  files := (stored.files \ (seen.files \ new.files)) ∪ (new.files \ seen.files)

theorem Draft.flush_self (seen new : Draft) : seen.flush new seen = new := by
  cases new
  simp only [flush, column_self, Draft.mk.injEq, true_and]
  ext block
  simp only [Finset.mem_union, Finset.mem_sdiff]
  tauto

end Flush

theorem getDraft_ok : getDraft publicId version stored = .ok draft ↔
    stored = some draft ∧ draft.publicId = publicId ∧ draft.isSent = false ∧ draft.isDraft = true ∧
      version = .number draft.version := by
  cases version with
  | missing | malformed => simp [getDraft]
  | number version =>
    cases stored with
    | none => simp [getDraft]
    | some found =>
      by_cases named : found.publicId = publicId
      · simp only [getDraft, Option.filter_some, named, decide_true, if_true]
        split
        · constructor
          · nofun
          · rintro ⟨same, _, unsent, draft, _⟩
            cases same
            simp_all
        · split
          · constructor
            · nofun
            · rintro ⟨same, _, _, _, carried⟩
              cases same
              cases carried
              contradiction
          · simp_all
            grind
      · simp only [getDraft, Option.filter_some, named, decide_false]
        constructor
        · nofun
        · rintro ⟨same, id, _⟩
          cases same
          exact absurd id named

end Sendmail
end SyncEngine
