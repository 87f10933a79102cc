import Mathlib.Data.Fintype.Basic
import SyncEngine.Api.DraftSending
import SyncEngine.Crispin.SentFolder
import SyncEngine.Models.Reconcile

/-! A session that sends one message to each of its recipients by itself. Its requests, the folder
engine, the collector of dangling messages and the syncback worker share the message's row. -/
namespace SyncEngine
namespace MultiSend
open Sendmail DraftFolders Reconcile

inductive RequestError
  | api (error : ApiError)
  | value (message : String)
  deriving DecidableEq

def isSending (draft : Draft) : Bool := draft.version = MAX_MYSQL_INTEGER && !draft.isDraft

def markAsSending (draft : Draft) : Except RequestError Draft :=
  if draft.isSent then .error (.value "Cannot mark a sent message as sending")
  else .ok { draft with version := MAX_MYSQL_INTEGER, isDraft := false }.regenerateNylasUid

/-- The row that opens a session. Nothing is scheduled for it. -/
def multiSendCreate (parses : DraftSending.Parses) (snippet : String → String) (account : String × String)
    (publicId : String) (now : Nat) (input : NewDraft) : Except RequestError Draft := do
  let draft := createMessageFromJson snippet account publicId now false input
  (DraftSending.validateDraftRecipients parses draft).mapError .api
  markAsSending draft

def getSendingDraft (publicId : String) (stored : Option Draft) : Except ApiError Draft :=
  match stored.filter fun draft => draft.publicId = publicId with
  | none => .error (.notFound s!"Couldn't find multi-send draft {publicId}")
  | some draft =>
    if draft.isSent || !isSending draft then
      .error (.input s!"Message {publicId} is not a multi-send draft")
    else .ok draft

inductive Kind
  | send (body sendTo : String)
  | finish
  deriving DecidableEq

structure Request where
  publicId : String
  kind : Kind

/-- What a request answers before it does anything on the server. -/
def Request.check (request : Request) (stored : Option Draft) : Except ApiError Draft := do
  let draft ← getSendingDraft request.publicId stored
  if !isSending draft then throw (.input "Invalid draft, not part of a multi-send transaction")
  match request.kind with
  | .finish => return draft
  | .send _ sendTo =>
    if sendTo ∉ (draft.toAddr ++ draft.ccAddr ++ draft.bccAddr).map Prod.snd then
      throw (.input "Invalid send_to, not present in message recipients")
    return draft

/-- The copy for one recipient. Only its body and the missing Bcc tell it from the message. -/
def customEmail (encodes : Mime → Bool) (draft : Draft) (body : String) : Option Mime :=
  createEmail encodes { draft with body, bccAddr := [] }

/-- A request with the draft as it has read it. -/
inductive Phase
  | waiting
  | sending (seen : Draft) (body : String)
  | finishing (seen : Draft)
  | trashed (seen : Draft)
  | cleaned (seen : Draft)
  | finished
  | closed
  deriving DecidableEq

namespace Phase

/-- What the request goes on with. -/
def seen : Phase → Option Draft
  | .sending seen _ | .finishing seen | .trashed seen | .cleaned seen => some seen
  | .waiting | .finished | .closed => none

/-- A finish that has moved the copies out of the Sent folder. -/
def hasCleaned : Phase → Bool
  | .trashed _ | .cleaned _ | .finished => true
  | .waiting | .sending .. | .finishing _ | .closed => false

end Phase

structure Row where
  draft : Draft
  gMsgid : Option Nat
  deletedAt : Option Nat

/-- A UID: the folder, and Gmail's id of the message in it. -/
abbrev Uid := DraftFolders.Folder × Nat

/-- Where the collector's pass is with the row. -/
inductive Collector
  | idle
  | selected
  | checked
  | undeleted
  deriving DecidableEq

/-- `uids` has the UIDs of the row. `pending` counts the entries of the log that are left to do, and
`running` is the message that the worker has built for one. `lost` says that an attempt has failed after
its message was appended. -/
structure World (I : Type) where
  row : Option Row
  uids : List Uid
  remote : Remote
  phase : I → Phase
  fetched : List (Uid × Mime)
  collector : Collector
  pending : Nat
  running : Option Mime
  scheduled : Nat
  succeeded : Nat
  saved : Bool
  lost : Bool

inductive RequestEvent
  | check
  | deliver (taken : Bool)
  | trash
  | expunge
  | fail
  | commit (now : Nat)
  | abort

inductive EngineEvent
  | fetch (uid : Uid)
  | save (uid : Uid)
  | remove (uid : Uid) (now : Nat)

inductive CollectorEvent
  | select (now : Nat)
  | look
  | delete
  | commit
  | fail

inductive WorkerEvent
  | start
  | append
  | lose
  | fail
  | giveUp

inductive Event (I : Type)
  | request (i : I) (event : RequestEvent)
  | engine (event : EngineEvent)
  | collector (event : CollectorEvent)
  | worker (event : WorkerEvent)

namespace World
variable {I : Type} (w : World I)

def start (draft : Draft) (remote : Remote) : World I :=
  { row := some ⟨draft, none, none⟩, uids := [], remote, phase := fun _ => .waiting, fetched := []
    collector := .idle, pending := 0, running := none, scheduled := 0, succeeded := 0, saved := false
    lost := false }

section Requests
variable [DecidableEq I]

def put (i : I) (phase : Phase) : World I := { w with phase := Function.update w.phase i phase }

/-- A delivery puts its copy in the Sent folder. A finish that finds nothing there has nothing to
expunge, one whose deletion fails goes on as well, and one whose row is gone cannot commit. -/
def request (encodes : Mime → Bool) (requests : I → Request) (i : I) : RequestEvent → Option (World I)
  | .check =>
    match w.phase i with
    | .waiting =>
      match (requests i).check (w.row.map Row.draft) with
      | .error _ => some (w.put i .closed)
      | .ok draft =>
        match (requests i).kind with
        | .send body _ => some (w.put i (.sending draft body))
        | .finish => some (w.put i (.finishing draft))
    | _ => none
  | .deliver taken =>
    match w.phase i with
    | .sending seen body =>
      match customEmail encodes seen body, taken with
      | some mime, true => some { w.put i .closed with remote := w.remote.createMessage mime }
      | _, _ => some (w.put i .closed)
    | _ => none
  | .trash =>
    match w.phase i with
    | .finishing seen =>
      let (found, remote) := Remote.Gmail.moveSentToTrash w.remote seen.messageIdHeader
      some { w.put i (if found then .trashed seen else .cleaned seen) with remote }
    | _ => none
  | .expunge =>
    match w.phase i with
    | .trashed seen =>
      let remote := Remote.Gmail.deleteFromTrash w.remote seen.messageIdHeader true
      some { w.put i (.cleaned seen) with remote }
    | _ => none
  | .fail =>
    match w.phase i with
    | .finishing seen | .trashed seen => some (w.put i (.cleaned seen))
    | _ => none
  | .commit now =>
    match w.phase i, w.row with
    | .cleaned seen, some row =>
      some { w.put i .finished with
        row := some { row with draft := seen.flush (updateDraftOnSend now seen) row.draft }
        pending := w.pending + 1
        scheduled := w.scheduled + 1 }
    | .cleaned _, none => some (w.put i .closed)
    | _, _ => none
  | .abort =>
    match w.phase i with
    | .finished | .closed => none
    | _ => some (w.put i .closed)

end Requests

/-- Neither SMTP nor APPEND flags a copy as a draft. -/
def attach (uid : Uid) (gMsgid : Option Nat) (row : Row) (draft : Draft) : World I :=
  { w with
    row := some { row with draft := { draft with isDraft := false }, gMsgid }
    uids := uid :: w.uids }

def synced (mime : Mime) : Synced := ⟨mime.xInboxId, mime.messageId, mime.references⟩

/-- Saving what has been downloaded. A message that the row is already a copy of is not reconciled
again, and one that the row is not the draft of gets a row of its own. -/
def saveUid (uid : Uid) (mime : Mime) : World I :=
  match w.row with
  | none => w
  | some row =>
    if uid ∈ w.uids then w
    else if row.gMsgid = some uid.2 then w.attach uid row.gMsgid row row.draft
    else
      match reconcileMessage none (synced mime) (some row.draft) with
      | some (some draft) => w.attach uid (some uid.2) row draft
      | _ => w

/-- A row that has lost its last UID is marked, a draft's deleted. -/
def removeUid (uid : Uid) (now : Nat) : World I :=
  let uids := w.uids.erase uid
  match w.row with
  | none => { w with uids }
  | some row =>
    if uids ≠ [] then { w with uids }
    else if row.draft.isDraft then { w with uids, row := none }
    else { w with uids, row := some { row with deletedAt := some now } }

def engine : EngineEvent → Option (World I)
  | .fetch uid =>
    ((w.remote.mailbox uid.1).find? fun mail => mail.msgid = uid.2).map fun mail =>
      { w with fetched := (uid, mail.mime) :: w.fetched }
  | .save uid => (w.fetched.find? fun item => item.1 = uid).map fun item =>
    { w.saveUid uid item.2 with fetched := w.fetched.erase item }
  | .remove uid now =>
    if uid ∈ w.uids ∧ ∀ mail ∈ w.remote.mailbox uid.1, mail.msgid ≠ uid.2 then some (w.removeUid uid now)
    else none

def Overdue (messageTtl now : Nat) : Prop :=
  ∃ row ∈ w.row, ∃ deletedAt ∈ row.deletedAt, deletedAt + messageTtl ≤ now

instance (messageTtl now : Nat) : Decidable (w.Overdue messageTtl now) :=
  inferInstanceAs (Decidable (∃ row ∈ w.row, ∃ deletedAt ∈ row.deletedAt, deletedAt + messageTtl ≤ now))

/-- A pass of `DeleteHandler.check`, which commits what it undeletes only later. -/
def collect (messageTtl : Nat) : CollectorEvent → Option (World I)
  | .select now =>
    if w.collector ≠ .idle then none
    else if w.Overdue messageTtl now then some { w with collector := .selected }
    else some w
  | .look =>
    if w.collector ≠ .selected then none
    else some { w with collector := if w.uids = [] then .checked else .undeleted }
  | .delete =>
    if w.collector ≠ .checked then none
    else some { w with row := none, uids := [], collector := .idle }
  | .commit =>
    if w.collector ≠ .undeleted then none
    else some { w with
      row := w.row.map fun row => { row with deletedAt := none }
      collector := .idle }
  | .fail => some { w with collector := .idle }

/-- What the folder has once `remote_save_sent` is through. It does not look for an earlier copy. -/
def remoteSaveSent (mime : Mime) : Remote := (w.remote.selectFolderIfNecessary .sent).createMessage mime

/-- The worker on an entry that saves the message. Without a row there is nothing to save, and the
entry succeeds. An attempt can also fail when the message is there already: the answer is lost, it takes
too long, or its success cannot be committed. The entry is then tried again. -/
def work (encodes : Mime → Bool) : WorkerEvent → Option (World I)
  | .start =>
    if w.pending = 0 ∨ w.running.isSome then none
    else match w.row with
      | none => some { w with pending := w.pending - 1, succeeded := w.succeeded + 1 }
      | some row => some { w with running := createEmail encodes row.draft }
  | .append => w.running.map fun mime =>
    { w with
      remote := w.remoteSaveSent mime
      running := none
      pending := w.pending - 1
      succeeded := w.succeeded + 1
      saved := true }
  | .lose => w.running.map fun mime =>
    { w with remote := w.remoteSaveSent mime, running := none, lost := true }
  | .fail => w.running.map fun _ => { w with running := none }
  | .giveUp =>
    if w.pending = 0 ∨ w.running.isSome then none else some { w with pending := w.pending - 1 }

section Runs
variable [DecidableEq I] (encodes : Mime → Bool) (messageTtl : Nat) (requests : I → Request)

def step : Event I → Option (World I)
  | .request i event => w.request encodes requests i event
  | .engine event => w.engine event
  | .collector event => w.collect messageTtl event
  | .worker event => w.work encodes event

def run (w : World I) : List (Event I) → Option (World I)
  | [] => some w
  | event :: events => (w.step encodes messageTtl requests event).bind fun next => next.run events

/-- A request acts on what it has checked while that still holds: a send while no finish has cleaned the
Sent folder up, a finish while no other one has committed. The clean-up does not fail before it has
moved the copies. The collector does not come for a message that is not saved yet, and no attempt to save
it follows one that has left a copy. -/
def Calm : Event I → Prop
  | .request i event =>
    match event with
    | .deliver _ => ∀ j, (w.phase j).hasCleaned = false
    | .trash | .commit _ => ∀ j, w.phase j ≠ .finished
    | .fail => (w.phase i).hasCleaned = true
    | .check | .expunge | .abort => True
  | .collector (.select now) => w.saved = false → ¬ w.Overdue messageTtl now
  | .worker .append => w.lost = false
  | _ => True

instance [Fintype I] : (event : Event I) → Decidable (w.Calm messageTtl event)
  | .request i event =>
    match event with
    | .deliver _ => inferInstanceAs (Decidable (∀ j, (w.phase j).hasCleaned = false))
    | .trash | .commit _ => inferInstanceAs (Decidable (∀ j, w.phase j ≠ .finished))
    | .fail => inferInstanceAs (Decidable ((w.phase i).hasCleaned = true))
    | .check | .expunge | .abort => inferInstanceAs (Decidable True)
  | .collector event =>
    match event with
    | .select now => inferInstanceAs (Decidable (w.saved = false → ¬ w.Overdue messageTtl now))
    | .look | .delete | .commit | .fail => inferInstanceAs (Decidable True)
  | .worker event =>
    match event with
    | .append => inferInstanceAs (Decidable (w.lost = false))
    | .start | .lose | .fail | .giveUp => inferInstanceAs (Decidable True)
  | .engine _ => inferInstanceAs (Decidable True)

def AllCalm (w : World I) : List (Event I) → Prop
  | [] => True
  | event :: events => w.Calm messageTtl event ∧
      ∀ next ∈ w.step encodes messageTtl requests event, next.AllCalm events

instance decidableAllCalm [Fintype I] (w : World I) :
    (events : List (Event I)) → Decidable (w.AllCalm encodes messageTtl requests events)
  | [] => isTrue trivial
  | event :: events =>
    have := fun next : World I => decidableAllCalm next events
    inferInstanceAs (Decidable (w.Calm messageTtl event ∧
      ∀ next ∈ w.step encodes messageTtl requests event,
        next.AllCalm encodes messageTtl requests events))

end Runs

/-- Nothing is lost: the row is there until it has been saved, and what has been saved is one copy with
the message's own body. -/
structure Lossless (body : String) (w : World I) : Prop where
  kept : w.saved = false → w.row.isSome
  one : w.scheduled ≠ 0 → w.succeeded = w.scheduled →
    ∃ mail, w.remote.mailbox .sent = [mail] ∧ mail.mime.html = body

end World

end MultiSend
end SyncEngine
