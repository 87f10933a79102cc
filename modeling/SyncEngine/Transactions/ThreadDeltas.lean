import Mathlib.Data.Finset.Card
import Mathlib.Data.Finset.Union
import Mathlib.Data.List.Sort
import SyncEngine.Transactions.DeltaSync

/-! What a flush logs for a thread, beside what the API shows of it. The first is decided by the
thread's own columns, its collection and three attributes of its messages; the second is computed from
many more. -/
namespace SyncEngine
namespace ThreadDeltas
open DeltaSync (Command)

structure Category where
  publicId : String
  name : Option String
  displayName : String
deriving DecidableEq, Repr

structure MessageCategory where
  id : Nat
  category : Category
deriving DecidableEq, Repr

structure Message where
  publicId : Nat
  isDraft : Bool
  isSent : Bool
  isRead : Bool
  isStarred : Bool
  receivedDate : Nat
  fromAddr : List (String × String)
  toAddr : List (String × String)
  ccAddr : List (String × String)
  bccAddr : List (String × String)
  /-- For each part, whether it is an attachment. -/
  parts : List Bool
  messagecategories : Finset MessageCategory
deriving DecidableEq

/-- The columns of a thread that a session may set. -/
structure Columns where
  subject : Option String
  subjectdate : Nat
  recentdate : Nat
  snippet : Option String
  deletedAt : Option Nat
  gThrid : Option Nat
deriving DecidableEq, Repr

structure Thread extends Columns where
  version : Nat
  messages : List Message
  unique : (messages.map Message.publicId).Nodup

/-! ## What the API shows -/

namespace Message

def categories (message : Message) : Finset Category := message.messagecategories.image MessageCategory.category

def named (message : Message) (name : String) : Bool :=
  decide (∃ category ∈ message.categories, category.name = some name)

def attachments (message : Message) : List Bool := message.parts.filter id

def addresses (message : Message) : List (String × String) :=
  message.fromAddr ++ message.toAddr ++ message.ccAddr ++ message.bccAddr

end Message

namespace Thread
variable (strip : String → String) (thread : Thread)

def mostRecentReceivedDate : Option Nat :=
  let received := thread.messages.filter fun m => !m.named "sent" && !m.isDraft && !m.isSent
  match (received.map Message.receivedDate).max? with
  | some date => some date
  | none => (thread.messages.map Message.receivedDate).max?

def mostRecentSentDate : Option Nat :=
  ((thread.messages.filter fun m => m.named "sent" || (m.isDraft && m.isSent)).map
    Message.receivedDate).max?

def unread : Bool := !(thread.messages.filter (!·.isDraft)).all Message.isRead

def starred : Bool := (thread.messages.filter (!·.isDraft)).any Message.isStarred

def hasAttachments : Bool := (thread.messages.filter (!·.isDraft)).any (!·.attachments.isEmpty)

/-- An empty phrase is left out if the address has another one. -/
def participants : Finset (String × String) :=
  let deduped := (((thread.messages.filter (!·.isDraft)).flatMap Message.addresses).map
    fun (phrase, address) => (strip phrase, address)).toFinset
  deduped.filter fun (phrase, address) => phrase ≠ "" ∨ (deduped.filter (·.2 = address)).card = 1

def categories : Finset Category := thread.messages.toFinset.biUnion Message.categories

/-- The order that the relationship loads its messages in. -/
def byDate : List Message := thread.messages.insertionSort fun a b => a.receivedDate ≤ b.receivedDate

def messageIds : List Nat := (thread.byDate.filter (!·.isDraft)).map Message.publicId

def draftIds : List Nat := (thread.byDate.filter Message.isDraft).map Message.publicId

end Thread

/-- `_encode` of a thread, not expanded, without its version and what never changes. -/
structure Representation where
  subject : Option String
  participants : Finset (String × String)
  lastMessageTimestamp : Nat
  lastMessageReceivedTimestamp : Option Nat
  lastMessageSentTimestamp : Option Nat
  firstMessageTimestamp : Nat
  snippet : Option String
  unread : Bool
  starred : Bool
  hasAttachments : Bool
  categories : Finset Category
  messageIds : List Nat
  draftIds : List Nat
deriving DecidableEq

def encode (strip : String → String) (thread : Thread) : Representation where
  subject := thread.subject
  participants := thread.participants strip
  lastMessageTimestamp := thread.recentdate
  lastMessageReceivedTimestamp := thread.mostRecentReceivedDate
  lastMessageSentTimestamp := thread.mostRecentSentDate
  firstMessageTimestamp := thread.subjectdate
  snippet := thread.snippet
  unread := thread.unread
  starred := thread.starred
  hasAttachments := thread.hasAttachments
  categories := thread.categories
  messageIds := thread.messageIds
  draftIds := thread.draftIds

/-! ## What a flush logs -/

/-- The thread before and after the changes of a session, and how much of it the session has loaded when
the hooks run: asking for a history loads nothing. -/
structure Flush where
  before : Thread
  after : Thread
  /-- Deleted as objects, these messages leave the thread without leaving its collection. -/
  deleted : List Nat
  /-- Whether `thread.messages` is loaded. What backrefs hold back for it until then has no history. -/
  loaded : Bool
  /-- Whether a column of the thread has been set before it was loaded. The history then has no old value
  to compare with, and is a change. -/
  overwritten : Bool
  /-- The messages that this has happened to, with `is_read` or `is_starred`. -/
  overwrittenMessages : List Nat

namespace Flush
variable (flush : Flush)

/-- One of `propagated_attributes` of a message has a history. The proxy `categories` loads
`messagecategories` before it changes them. -/
def propagates (old new : Message) : Bool :=
  old.publicId ∈ flush.overwrittenMessages || old.isRead ≠ new.isRead || old.isStarred ≠ new.isStarred ||
    old.messagecategories ≠ new.messagecategories

/-- The mark that `propagate_changes` leaves on the thread. -/
def propagateChanges : Bool :=
  flush.before.messages.any fun old => flush.after.messages.any fun new =>
    old.publicId = new.publicId && flush.propagates old new

def columnsHistory : Bool := flush.overwritten || flush.before.toColumns ≠ flush.after.toColumns

/-- The history of `thread.messages`: what the session has added and removed, if it is loaded. -/
def messagesHistory : Bool :=
  flush.loaded &&
    (flush.after.messages.any (fun new => flush.before.messages.all fun old => old.publicId ≠ new.publicId) ||
      flush.before.messages.any fun old =>
        flush.after.messages.all (fun new => new.publicId ≠ old.publicId) && old.publicId ∉ flush.deleted)

def hasVersionedChanges : Bool := flush.columnsHistory || flush.messagesHistory

def isDirty (dirty : Bool) : Bool := flush.hasVersionedChanges || dirty

def incrementVersions (dirty : Bool) : Nat :=
  if flush.isDirty dirty then flush.before.version + 1 else flush.before.version

def createRevisions (dirty : Bool) : List Command := if flush.isDirty dirty then [.update] else []

/-- The hooks of a versioned session: the new version, and the transactions for the thread. -/
def run : Nat × List Command :=
  (flush.incrementVersions flush.propagateChanges, flush.createRevisions flush.propagateChanges)

end Flush

/-- Whoever follows the log learns of every change of what the API shows. -/
def Complete (strip : String → String) (flush : Flush) : Prop :=
  encode strip flush.before ≠ encode strip flush.after →
    .update ∈ flush.run.2 ∧ flush.before.version < flush.run.1

/-- What they do not look at has come out the same. -/
structure Kept (strip : String → String) (before after : Thread) : Prop where
  messageIds : after.messageIds = before.messageIds
  draftIds : after.draftIds = before.draftIds
  participants : after.participants strip = before.participants strip
  hasAttachments : after.hasAttachments = before.hasAttachments
  received : after.mostRecentReceivedDate = before.mostRecentReceivedDate
  sent : after.mostRecentSentDate = before.mostRecentSentDate

/-! ## When the log is complete -/
section Complete
variable {strip : String → String} {flush : Flush}

/-- All that is shown of a message through the thread, other than what is kept anyway. -/
def Alike (old new : Message) : Prop :=
  new.isDraft = old.isDraft ∧ new.isRead = old.isRead ∧ new.isStarred = old.isStarred ∧
    new.messagecategories = old.messagecategories

/-- Without a trigger each message is still the message that it was. -/
structure Quiet (before after : Thread) : Prop where
  columns : after.toColumns = before.toColumns
  newer : ∀ new ∈ after.messages, ∃ old ∈ before.messages, Alike old new
  older : ∀ old ∈ before.messages, ∃ new ∈ after.messages, Alike old new

theorem Quiet.unread {before after : Thread} (quiet : Quiet before after) : after.unread = before.unread := by
  refine congrArg (! ·) (Bool.eq_iff_iff.mpr ?_)
  simp only [List.all_eq_true, List.mem_filter, Bool.not_eq_true', and_imp]
  constructor
  · intro read old member draft
    obtain ⟨new, among, sameDraft, sameRead, _⟩ := quiet.older old member
    exact sameRead.symm.trans (read new among (sameDraft.trans draft))
  · intro read new member draft
    obtain ⟨old, among, sameDraft, sameRead, _⟩ := quiet.newer new member
    exact sameRead.trans (read old among (sameDraft.symm.trans draft))

theorem Quiet.starred {before after : Thread} (quiet : Quiet before after) : after.starred = before.starred := by
  refine Bool.eq_iff_iff.mpr ?_
  simp only [Thread.starred, List.any_eq_true, List.mem_filter, Bool.not_eq_true']
  constructor
  · rintro ⟨new, ⟨member, draft⟩, starred⟩
    obtain ⟨old, among, sameDraft, _, sameStarred, _⟩ := quiet.newer new member
    exact ⟨old, ⟨among, sameDraft.symm.trans draft⟩, sameStarred.symm.trans starred⟩
  · rintro ⟨old, ⟨member, draft⟩, starred⟩
    obtain ⟨new, among, sameDraft, _, sameStarred, _⟩ := quiet.older old member
    exact ⟨new, ⟨among, sameDraft.trans draft⟩, sameStarred.trans starred⟩

theorem Quiet.categories {before after : Thread} (quiet : Quiet before after) :
    after.categories = before.categories := by
  ext category
  simp only [Thread.categories, Message.categories, Finset.mem_biUnion, List.mem_toFinset]
  constructor
  · rintro ⟨new, member, filed⟩
    obtain ⟨old, among, _, _, _, same⟩ := quiet.newer new member
    exact ⟨old, among, same ▸ filed⟩
  · rintro ⟨old, member, filed⟩
    obtain ⟨new, among, _, _, _, same⟩ := quiet.older old member
    exact ⟨new, among, same ▸ filed⟩

/-- Nothing is shown that does not come from the columns, the marks of the messages, or what is kept. -/
theorem Quiet.encode {before after : Thread} (quiet : Quiet before after) (kept : Kept strip before after) :
    encode strip after = encode strip before := by
  simp only [ThreadDeltas.encode, quiet.columns, quiet.unread, quiet.starred, quiet.categories,
    kept.messageIds, kept.draftIds, kept.participants, kept.hasAttachments, kept.received, kept.sent]

end Complete

namespace Sample

def sentMessage : Message where
  publicId := 1
  isDraft := false
  isSent := true
  isRead := true
  isStarred := false
  receivedDate := 10
  fromAddr := [("Ann", "ann@example.com")]
  toAddr := [("Bob", "bob@example.com")]
  ccAddr := []
  bccAddr := []
  parts := []
  messagecategories := {{ id := 1, category := { publicId := "s", name := some "sent", displayName := "Sent" } }}

def draft (receivedDate : Nat) : Message :=
  { sentMessage with
    publicId := 2, isDraft := true, isSent := false, receivedDate, messagecategories := ∅ }

def thread (receivedDate : Nat) : Thread where
  subject := some "Lunch"
  subjectdate := 10
  recentdate := 10
  snippet := some "Hi"
  deletedAt := none
  gThrid := none
  version := 1
  messages := [sentMessage, draft receivedDate]
  unique := by simp [sentMessage, draft]

end Sample

end ThreadDeltas
end SyncEngine
