import Mathlib.Data.List.Nodup
import Mathlib.Logic.Function.Basic

/-! Deletion of a draft or of a sent message by its `Message-Id`, in a mailbox that may hold anything
else: what is found, what is flagged, and what the EXPUNGE of a whole folder takes with it. -/
namespace SyncEngine.MessageDeletion

/-- A message in a folder. `messageId` is its first `Message-Id` header. Gmail has one `msgid` for all
entries of a message. -/
structure Entry where
  uid : Nat
  messageId : Option String
  flags : List String
  labels : List String
  msgid : Nat
deriving DecidableEq, Repr

abbrev Folders := String → List Entry

structure Mailbox where
  folders : Folders
  unique : ∀ name, ((folders name).map Entry.uid).Nodup
  consistent : ∀ name other, ∀ e ∈ folders name, ∀ e' ∈ folders other,
    e.msgid = e'.msgid → e.messageId = e'.messageId

/-- The first folder of each role. No folder has two roles. -/
structure Roles where
  drafts : Option String
  sent : Option String
  trash : Option String
  drafts_trash : ∀ folder ∈ drafts, ∀ other ∈ trash, folder ≠ other
  sent_trash : ∀ folder ∈ sent, ∀ other ∈ trash, folder ≠ other

/-- What Gmail finds for `HEADER Message-Id`, by what is asked for and the header of a message. -/
structure Search where
  finds : Option String → Option String → Bool
  finds_exact : ∀ header, finds (some header) (some header) = true

inductive Client
  | generic
  | gmail (search : Search)

/-- `conn.delete_messages` in the selected folder. -/
def deleteMessages (uids : List Nat) (entries : List Entry) : List Entry :=
  entries.map fun e => if e.uid ∈ uids then { e with flags := "\\Deleted" :: e.flags } else e

def expunge (entries : List Entry) : List Entry := entries.filter fun e => "\\Deleted" ∉ e.flags

def uidsOf (finds : Entry → Bool) (entries : List Entry) : List Nat := (entries.filter finds).map Entry.uid

/-- `_delete_message` in the selected folder. -/
def deleteMessage (finds : Entry → Bool) (deleteMultiple : Bool) (entries : List Entry) :
    Bool × List Entry :=
  let matchingUids := uidsOf finds entries
  if matchingUids = [] then (false, entries)
  else if matchingUids.length > 1 ∧ ¬ deleteMultiple then (false, entries)
  else (true, expunge (deleteMessages matchingUids entries))

namespace CrispinClient

/-- The header of a message without one is `None`. -/
def finds (header : Option String) (e : Entry) : Bool := e.messageId = header

/-- Both deletions of the client: from a folder, and then from the trash. Without a trash folder the
second raises. -/
def deleteFrom (header : Option String) (deleteMultiple : Bool) (folder : String) (trash : Option String)
    (folders : Folders) : Folders :=
  let (msgDeleted, entries) := deleteMessage (finds header) deleteMultiple (folders folder)
  let folders := Function.update folders folder entries
  match msgDeleted, trash with
  | true, some trash =>
    Function.update folders trash (deleteMessage (finds header) deleteMultiple (folders trash)).2
  | _, _ => folders

end CrispinClient

namespace GmailCrispinClient

def finds (search : Search) (header : Option String) (e : Entry) : Bool := search.finds header e.messageId

def nextUid (entries : List Entry) : Nat := (entries.map Entry.uid).foldr max 0 + 1

/-- `conn.copy` from the selected folder. Gmail moves to the trash what is copied there. -/
def copyToTrash (uids : List Nat) (folder trash : String) (folders : Folders) : Folders :=
  let copied := (folders folder).filter (·.uid ∈ uids)
  fun name =>
    if name = trash then
      folders trash ++ copied.mapIdx fun n e => { e with uid := nextUid (folders trash) + n }
    else (folders name).filter (·.msgid ∉ copied.map Entry.msgid)

def deleteSentMessage (search : Search) (header : Option String) (deleteMultiple : Bool) (sent trash : String)
    (folders : Folders) : Folders :=
  let matchingUids := uidsOf (finds search header) (folders sent)
  if matchingUids = [] then folders
  else
    let folders := copyToTrash matchingUids sent trash folders
    Function.update folders trash (deleteMessage (finds search header) deleteMultiple (folders trash)).2

/-- `remove_flags` and `remove_gmail_labels` with `\Draft`. -/
def removeDraft (uids : List Nat) (e : Entry) : Entry :=
  if e.uid ∈ uids then
    { e with flags := e.flags.filter (· ≠ "\\Draft"), labels := e.labels.filter (· ≠ "\\Draft") }
  else e

def gMsgids (uids : List Nat) (entries : List Entry) : List Nat :=
  (entries.filter (·.uid ∈ uids)).map Entry.msgid

/-- The branches that raise leave what they have done by then. -/
def deleteDraft (search : Search) (header : Option String) (drafts sent trash : String) (folders : Folders) :
    Folders :=
  let sentGmMsgids := gMsgids (uidsOf (finds search header) (folders sent)) (folders sent)
  match sentGmMsgids with
  | [sentGmMsgid] =>
    let matchingUids := uidsOf (finds search header) (folders drafts)
    if matchingUids = [] then folders
    else
      let folders := Function.update folders drafts ((folders drafts).map (removeDraft matchingUids))
      let msgids := gMsgids matchingUids (folders drafts)
      if sentGmMsgid ∈ msgids then folders
      else
        let folders := copyToTrash matchingUids drafts trash folders
        let entries := msgids.foldl (fun entries msgid =>
          deleteMessages (uidsOf (·.msgid = msgid) entries) entries) (folders trash)
        Function.update folders trash (expunge entries)
  | _ => folders

end GmailCrispinClient

/-- The actions, and the deletion that a request to send may ask for. -/
inductive Request
  | deleteDraft (nylasUid messageIdHeader : Option String)
  | deleteSentEmail (messageIdHeader : Option String)
  | deleteSentMessage (messageIdHeader : Option String) (deleteMultiple : Bool)

namespace Request

def header : Request → Option String
  | .deleteDraft _ header | .deleteSentEmail header | .deleteSentMessage header _ => header

def deleteMultiple : Request → Bool
  | .deleteSentMessage _ deleteMultiple => deleteMultiple
  | .deleteDraft _ _ | .deleteSentEmail _ => false

/-- The folder that is searched first. -/
def searched (roles : Roles) : Request → Option String
  | .deleteDraft _ _ => roles.drafts
  | .deleteSentEmail _ | .deleteSentMessage _ _ => roles.sent

/-- The assertion on the arguments of the action. An empty header counts as none. -/
def asserted : Request → Bool
  | .deleteDraft nylasUid header => nylasUid.any (· ≠ "") || header.any (· ≠ "")
  | .deleteSentEmail header => header.any (· ≠ "")
  | .deleteSentMessage _ _ => true

end Request

def deleteSent (client : Client) (roles : Roles) (header : Option String) (deleteMultiple : Bool)
    (folders : Folders) : Folders :=
  match client, roles.sent, roles.trash with
  | .generic, some sent, trash => CrispinClient.deleteFrom header deleteMultiple sent trash folders
  | .gmail search, some sent, some trash =>
    GmailCrispinClient.deleteSentMessage search header deleteMultiple sent trash folders
  | _, _, _ => folders

def deleteDraft (client : Client) (roles : Roles) (header : Option String) (folders : Folders) : Folders :=
  match client, roles.drafts, roles.sent, roles.trash with
  | .generic, some drafts, _, trash => CrispinClient.deleteFrom header false drafts trash folders
  | .gmail search, some drafts, some sent, some trash =>
    GmailCrispinClient.deleteDraft search header drafts sent trash folders
  | _, _, _, _ => folders

/-- What the folders come to, whether the request returns or raises. -/
def run (client : Client) (roles : Roles) (request : Request) (folders : Folders) : Folders :=
  if request.asserted then
    match request with
    | .deleteDraft _ header => deleteDraft client roles header folders
    | .deleteSentEmail header => deleteSent client roles header false folders
    | .deleteSentMessage header deleteMultiple => deleteSent client roles header deleteMultiple folders
  else folders

/-! ## What a deletion may do -/

/-- The message has the header that is asked for. -/
def Given (header : Option String) (e : Entry) : Prop := header ≠ none ∧ e.messageId = header

instance (header : Option String) : DecidablePred (Given header) := fun e =>
  inferInstanceAs (Decidable (header ≠ none ∧ e.messageId = header))

/-- Other messages stay in their folders with their flags, and several messages stay where they are unless
they may all be deleted. -/
structure Exact (header : Option String) (deleteMultiple : Bool) (searched : Option String)
    (before after : Folders) : Prop where
  kept : ∀ name, ∀ e ∈ before name, ¬ Given header e → e ∈ after name
  refused : deleteMultiple = false → ∀ folder ∈ searched,
    1 < ((before folder).filter fun e => Given header e).length →
      ∀ name, (after name).map Entry.uid = (before name).map Entry.uid

/-- The deletion goes on: something is found, and it is not too much. -/
def Goes (finds : Entry → Bool) (deleteMultiple : Bool) (entries : List Entry) : Prop :=
  uidsOf finds entries ≠ [] ∧ (deleteMultiple = true ∨ (uidsOf finds entries).length ≤ 1)

instance (finds : Entry → Bool) (deleteMultiple : Bool) (entries : List Entry) :
    Decidable (Goes finds deleteMultiple entries) :=
  inferInstanceAs (Decidable (uidsOf finds entries ≠ [] ∧
    (deleteMultiple = true ∨ (uidsOf finds entries).length ≤ 1)))

/-- What an EXPUNGE takes: what has been found, and what was flagged already. -/
def taken (finds : Entry → Bool) (e : Entry) : Bool := finds e || "\\Deleted" ∈ e.flags

/-- All that is taken is what the header asks for. -/
def Spares (header : Option String) (takes : Entry → Bool) (entries : List Entry) : Prop :=
  ∀ e ∈ entries, takes e = true → Given header e

/-! ## One folder -/

section Folder
variable {finds : Entry → Bool} {deleteMultiple : Bool} {entries : List Entry}

theorem mem_uidsOf (unique : (entries.map Entry.uid).Nodup) {e : Entry} (member : e ∈ entries) :
    e.uid ∈ uidsOf finds entries ↔ finds e = true := by
  rw [uidsOf, List.mem_map]
  constructor
  · rintro ⟨other, found, same⟩
    obtain ⟨among, found⟩ := List.mem_filter.mp found
    rwa [← List.inj_on_of_nodup_map unique among member same]
  · exact fun found => ⟨e, List.mem_filter.mpr ⟨member, found⟩, rfl⟩

theorem deleteMessages_uidsOf (unique : (entries.map Entry.uid).Nodup) :
    deleteMessages (uidsOf finds entries) entries =
      entries.map fun e => if finds e then { e with flags := "\\Deleted" :: e.flags } else e := by
  refine List.map_congr_left fun e member => ?_
  simp only [mem_uidsOf unique member]

theorem expunge_flagged : expunge (entries.map fun e =>
    if finds e then { e with flags := "\\Deleted" :: e.flags } else e) =
      entries.filter (!taken finds ·) := by
  induction entries with
  | nil => rfl
  | cons e rest ih =>
    unfold expunge at ih ⊢
    rw [List.map_cons, List.filter_cons, List.filter_cons, ih]
    cases found : finds e <;> simp [taken, found]

theorem deleteMessage_goes (unique : (entries.map Entry.uid).Nodup)
    (goes : Goes finds deleteMultiple entries) :
    deleteMessage finds deleteMultiple entries = (true, entries.filter (!taken finds ·)) := by
  obtain ⟨some, few⟩ := goes
  have allowed : ¬ ((uidsOf finds entries).length > 1 ∧ ¬ deleteMultiple) := by
    rintro ⟨many, single⟩
    rcases few with multiple | few
    · exact single multiple
    · exact absurd many (Nat.not_lt.mpr few)
  simp only [deleteMessage, if_neg some, if_neg allowed, deleteMessages_uidsOf unique, expunge_flagged]

theorem deleteMessage_stays (stays : ¬ Goes finds deleteMultiple entries) :
    deleteMessage finds deleteMultiple entries = (false, entries) := by
  unfold deleteMessage
  dsimp only
  split
  · rfl
  next some =>
    split
    · rfl
    next allowed =>
      refine absurd ⟨some, ?_⟩ stays
      cases deleteMultiple with
      | true => exact .inl rfl
      | false => exact .inr (Nat.le_of_not_lt fun many => allowed ⟨many, Bool.false_ne_true⟩)

theorem spares_iff_kept {header : Option String} {takes : Entry → Bool} :
    Spares header takes entries ↔
      ∀ e ∈ entries, ¬ Given header e → e ∈ entries.filter (!takes ·) := by
  refine forall₂_congr fun e member => ?_
  rw [List.mem_filter, Bool.not_eq_true']
  constructor
  · intro spares other
    exact ⟨member, Bool.eq_false_iff.mpr fun taken => other (spares taken)⟩
  · intro kept taken
    by_contra other
    exact absurd taken (Bool.eq_false_iff.mp (kept other).2)

end Folder

theorem Exact.of_same {header : Option String} (same : after = before) :
    Exact header deleteMultiple searched before after := by
  subst same
  exact ⟨fun _ _ member _ => member, fun _ _ _ _ _ => rfl⟩

/-- Few messages are found only where few are asked for. -/
theorem given_le_found {header : Option String} {finds : Entry → Bool}
    (finds_given : ∀ e, Given header e → finds e = true) (entries : List Entry) :
    (entries.filter fun e => Given header e).length ≤ (uidsOf finds entries).length := by
  rw [uidsOf, List.length_map]
  refine (List.monotone_filter_right entries fun e given => ?_).length_le
  exact finds_given e (of_decide_eq_true given)

/-! ## The generic client -/

namespace CrispinClient
variable {header : Option String} {deleteMultiple : Bool} {folder : String} {trash : Option String}

/-- Wherever the deletion goes on, all that it takes is asked for. -/
def Careful (header : Option String) (deleteMultiple : Bool) (folder : String) (trash : Option String)
    (folders : Folders) : Prop :=
  Goes (finds header) deleteMultiple (folders folder) →
    Spares header (taken (finds header)) (folders folder) ∧
      ∀ other ∈ trash, Goes (finds header) deleteMultiple (folders other) →
        Spares header (taken (finds header)) (folders other)

theorem finds_given (e : Entry) (given : Given header e) : finds header e = true := decide_eq_true given.2

theorem deleteFrom_stays {folders : Folders}
    (stays : ¬ Goes (finds header) deleteMultiple (folders folder)) :
    deleteFrom header deleteMultiple folder trash folders = folders := by
  simp only [deleteFrom, deleteMessage_stays stays, Function.update_eq_self]

/-- What is left of each folder. -/
theorem deleteFrom_goes (mailbox : Mailbox) (apart : ∀ other ∈ trash, folder ≠ other)
    (goes : Goes (finds header) deleteMultiple (mailbox.folders folder)) (name : String) :
    deleteFrom header deleteMultiple folder trash mailbox.folders name =
      if name = folder ∨ name ∈ trash ∧ Goes (finds header) deleteMultiple (mailbox.folders name) then
        (mailbox.folders name).filter (!taken (finds header) ·)
      else mailbox.folders name := by
  unfold deleteFrom
  rw [deleteMessage_goes (mailbox.unique folder) goes]
  cases trash with
  | none =>
    by_cases here : name = folder
    · subst here
      simp
    · simp [here]
  | some trash =>
    have trash_ne : trash ≠ folder := (apart trash rfl).symm
    dsimp only
    rw [Function.update_of_ne trash_ne]
    by_cases here : name = trash
    · subst here
      rw [Function.update_self]
      by_cases trash_goes : Goes (finds header) deleteMultiple (mailbox.folders name)
      · simp [deleteMessage_goes (mailbox.unique name) trash_goes, trash_goes]
      · simp [deleteMessage_stays trash_goes, trash_goes, trash_ne]
    · rw [Function.update_of_ne here]
      have not_trash : name ∉ some trash := fun same => here (Option.some.inj same).symm
      by_cases first : name = folder
      · subst first
        simp
      · simp [first, not_trash]

theorem exact_iff (mailbox : Mailbox) (apart : ∀ other ∈ trash, folder ≠ other) :
    Exact header deleteMultiple (some folder) mailbox.folders
        (deleteFrom header deleteMultiple folder trash mailbox.folders) ↔
      Careful header deleteMultiple folder trash mailbox.folders := by
  by_cases goes : Goes (finds header) deleteMultiple (mailbox.folders folder)
  case neg => exact iff_of_true (.of_same (deleteFrom_stays goes)) fun goes' => absurd goes' goes
  have left := deleteFrom_goes mailbox apart goes
  constructor
  · intro exact _
    refine ⟨?_, fun other is_trash other_goes => ?_⟩
    · have kept := exact.kept folder
      rw [left, if_pos (.inl rfl)] at kept
      exact spares_iff_kept.mpr kept
    · have kept := exact.kept other
      rw [left, if_pos (.inr ⟨is_trash, other_goes⟩)] at kept
      exact spares_iff_kept.mpr kept
  · intro careful
    obtain ⟨spares, trash_spares⟩ := careful goes
    constructor
    · intro name e member other
      rw [left]
      split
      next takes =>
        rcases takes with rfl | ⟨is_trash, name_goes⟩
        · exact spares_iff_kept.mp spares e member other
        · exact spares_iff_kept.mp (trash_spares name is_trash name_goes) e member other
      next => exact member
    · rintro single _ ⟨⟩ several
      have found : _ ≤ (uidsOf (finds header) _).length :=
        given_le_found finds_given (mailbox.folders folder)
      rcases goes.2 with multiple | few
      · rw [single] at multiple
        cases multiple
      · omega

end CrispinClient

end SyncEngine.MessageDeletion
