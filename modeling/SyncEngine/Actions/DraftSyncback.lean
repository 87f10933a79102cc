import Mathlib
import SyncEngine.Crispin.DraftFolders

/-! What the API does to one draft, what it logs for it, and what the syncback worker makes of the
log on the server. -/
namespace SyncEngine
namespace DraftSyncback
open Sendmail DraftFolders

inductive Provider
  | generic
  | gmail
  deriving DecidableEq

/-- An entry of the action log with the arguments that it was scheduled with. -/
inductive Action
  | saveDraft (version : Int)
  | updateDraft (version : Int) (oldMessageIdHeader : Option String)
  | deleteDraft (nylasUid messageIdHeader : Option String)
  deriving DecidableEq

/-- The version that an entry updates the draft to. -/
def Action.updates : Action → Option Int
  | .updateDraft version _ => some version
  | _ => none

def ACTION_MAX_NR_OF_RETRIES : Nat := 20

section Remote
variable (encodes : Mime → Bool) (provider : Provider)

def crispinDeleteDraft (remote : Remote) (messageIdHeader : Option String) :
    Except ActionError Bool × Remote :=
  match provider with
  | .generic =>
    let (deleted, remote) := Remote.Generic.deleteDraft remote messageIdHeader
    (.ok deleted, remote)
  | .gmail => Remote.Gmail.deleteDraft remote messageIdHeader

def remoteSaveDraft (message : Draft) (remote : Remote) : Except ActionError Unit × Remote :=
  match createEmail encodes message with
  | none => (.error .notEncoded, remote)
  | some mime => (.ok (), (remote.selectFolderIfNecessary .drafts).saveDraft mime)

/-- The new message is saved unless it is found in the folder that the server has selected, and then
the message that it replaces is deleted. -/
def remoteUpdateDraft (message : Draft) (oldMessageIdHeader : Option String) (remote : Remote) :
    Except ActionError Unit × Remote :=
  match createEmail encodes message with
  | none => (.error .notEncoded, remote)
  | some mime =>
    let remote := remote.selectFolderIfNecessary .drafts
    let existing := remote.findByHeader message.messageIdHeader
    let remote := if existing = [] then remote.saveDraft mime else remote
    if oldMessageIdHeader.getD "" = "" then (.ok (), remote)
    else
      let (deleted, remote) := crispinDeleteDraft provider remote oldMessageIdHeader
      (deleted.map fun _ => (), remote)

/-- A draft that is gone, sent or at another version is not saved. -/
def outdated (message : Option Draft) (version : Int) : Bool :=
  match message with
  | none => true
  | some message => !message.isDraft || version ≠ message.version

def Action.run (message : Option Draft) (remote : Remote) : Action → Except ActionError Unit × Remote
  | .saveDraft version =>
    if outdated message version then (.ok (), remote)
    else match message with
      | none => (.error .attributeError, remote)
      | some message => remoteSaveDraft encodes message remote
  | .updateDraft version oldMessageIdHeader =>
    if outdated message version then (.ok (), remote)
    else match message with
      | none => (.error .attributeError, remote)
      | some message => remoteUpdateDraft encodes provider message oldMessageIdHeader remote
  | .deleteDraft nylasUid messageIdHeader =>
    -- `assert nylas_uid or message_id_header`
    if nylasUid.getD "" = "" ∧ messageIdHeader.getD "" = "" then (.error .attributeError, remote)
    else
      let (deleted, remote) := crispinDeleteDraft provider remote messageIdHeader
      (deleted.map fun _ => (), remote)

end Remote

/-- `log` has the pending entries in their order, and `retries` belongs to the first of them. -/
structure World where
  row : Option Draft
  log : List Action
  retries : Nat
  remote : Remote

inductive Event
  | update (now : Nat) (changes : Changes)
  | delete
  | work

namespace World
variable (encodes : Mime → Bool) (provider : Provider) (snippet : String → String)

def create (account : String × String) (publicId : String) (now : Nat) (input : NewDraft)
    (remote : Remote) : World :=
  let draft := createMessageFromJson snippet account publicId now true input
  { row := some draft, log := [.saveDraft draft.version], retries := 0, remote }

/-- One attempt at the first pending entry. An entry that has failed often enough is given up. -/
def work (w : World) : Option World :=
  match w.log with
  | [] => none
  | action :: rest =>
    match action.run encodes provider w.row w.remote with
    | (.ok (), remote) => some { w with log := rest, retries := 0, remote }
    | (.error _, remote) =>
      if w.retries + 1 = ACTION_MAX_NR_OF_RETRIES then some { w with log := rest, retries := 0, remote }
      else some { w with retries := w.retries + 1, remote }

/-- `none` for a request that names no draft, or for a worker with nothing to do. -/
def step (w : World) : Event → Option World
  | .update now changes => w.row.bind fun draft =>
    let updated := Sendmail.updateDraft snippet now changes draft
    if MAX_MYSQL_INTEGER < updated.version then none
    else some { w with
      row := some updated
      log := w.log ++ [.updateDraft updated.version draft.messageIdHeader] }
  | .delete => w.row.map fun draft => { w with
      row := none
      log := w.log ++ [.deleteDraft draft.nylasUid draft.messageIdHeader] }
  | .work => w.work encodes provider

def run (w : World) : List Event → Option World
  | [] => some w
  | event :: events => (w.step encodes provider snippet event).bind fun next => next.run events

/-- The remote folder agrees with the draft. -/
def Converged (w : World) : Prop :=
  match w.row with
  | none => w.remote.mailbox .drafts = []
  | some draft => ∃ mail, w.remote.mailbox .drafts = [mail] ∧ createEmail encodes draft = some mail.mime

/-- No copy is left that only a pending entry could still replace. Gmail's drafts are never deleted,
as no copy of them is in Sent. -/
def UpToDate (w : World) (draft : Draft) : Prop :=
  match provider with
  | .generic => ∀ mail ∈ w.remote.mailbox .drafts, some mail.mime.messageId = draft.messageIdHeader
  | .gmail => w.remote.mailbox .drafts = []

instance (w : World) (draft : Draft) : Decidable (w.UpToDate provider draft) :=
  match provider with
  | .generic => inferInstanceAs (Decidable (∀ mail ∈ w.remote.mailbox .drafts,
      some mail.mime.messageId = draft.messageIdHeader))
  | .gmail => inferInstanceAs (Decidable (w.remote.mailbox .drafts = []))

/-- An update or a deletion comes when no older copy is left, and with a message that can be built.
On Gmail an update that runs has already been replaced. -/
def Calm (w : World) : Event → Prop
  | .update now changes => ∀ draft ∈ w.row, w.UpToDate provider draft ∧
      (createEmail encodes (Sendmail.updateDraft snippet now changes draft)).isSome
  | .delete => ∀ draft ∈ w.row, w.UpToDate provider draft
  | .work => provider = .gmail →
      ∀ version ∈ w.log.head?.bind Action.updates, outdated w.row version = true

instance (w : World) : (event : Event) → Decidable (w.Calm encodes provider snippet event)
  | .update now changes => inferInstanceAs (Decidable (∀ draft ∈ w.row, w.UpToDate provider draft ∧
      (createEmail encodes (Sendmail.updateDraft snippet now changes draft)).isSome))
  | .delete => inferInstanceAs (Decidable (∀ draft ∈ w.row, w.UpToDate provider draft))
  | .work => inferInstanceAs (Decidable (provider = .gmail →
      ∀ version ∈ w.log.head?.bind Action.updates, outdated w.row version = true))

def AllCalm (w : World) : List Event → Prop
  | [] => True
  | event :: events => w.Calm encodes provider snippet event ∧
      ∀ next ∈ w.step encodes provider snippet event, next.AllCalm events

instance decidableAllCalm (w : World) :
    (events : List Event) → Decidable (w.AllCalm encodes provider snippet events)
  | [] => isTrue trivial
  | event :: events =>
    have := fun next : World => decidableAllCalm next events
    inferInstanceAs (Decidable (w.Calm encodes provider snippet event ∧
      ∀ next ∈ w.step encodes provider snippet event, next.AllCalm encodes provider snippet events))

end World

section Calm
variable {encodes : Mime → Bool} {provider : Provider} {snippet : String → String} {publicId : String}
  {w next : World}

theorem versionHeader_inj {m n : Int} : versionHeader publicId m = versionHeader publicId n ↔ m = n := by
  constructor
  · intro same
    unfold versionHeader generateMessageIdHeader Draft.uid at same
    simp only [String.append_left_inj, String.append_right_inj] at same
    exact Int.repr_injective same
  · exact congrArg _

/-- A draft as the API leaves it, named by its version. -/
structure Ours (publicId : String) (draft : Draft) : Prop where
  named : draft.publicId = publicId
  uid : draft.nylasUid = some (Draft.uid publicId draft.version)
  header : draft.messageIdHeader = some (versionHeader publicId draft.version)
  isDraft : draft.isDraft = true

def Action.Older (version : Int) : Action → Prop
  | .saveDraft scheduled | .updateDraft scheduled _ => scheduled < version
  | .deleteDraft .. => False

/-- The entry that saves the draft at its current version. -/
def Action.Saves (publicId : String) (draft : Draft) : Action → Prop
  | .saveDraft version => version = draft.version
  | .updateDraft version old =>
    version = draft.version ∧ old = some (versionHeader publicId (draft.version - 1))
  | .deleteDraft .. => False

/-- How the draft, the pending entries and the copies on the server go together. -/
inductive Course (encodes : Mime → Bool) (provider : Provider) (publicId : String) :
    Option Draft → List Action → List Mail → Prop
  | waiting : Ours publicId draft → createEmail encodes draft = some mime →
      (∀ action ∈ older, action.Older draft.version) → last.Saves publicId draft →
      Course encodes provider publicId (some draft) (older ++ [last]) []
  | saved : Ours publicId draft → createEmail encodes draft = some mail.mime →
      Course encodes provider publicId (some draft) [] [mail]
  | replacing : provider = .generic → Ours publicId draft → createEmail encodes draft = some mime →
      mail.mime.messageId = versionHeader publicId (draft.version - 1) →
      Course encodes provider publicId (some draft)
        [.updateDraft draft.version (some (versionHeader publicId (draft.version - 1)))] [mail]
  | dropped : Course encodes provider publicId none log []
  | deleting : provider = .generic → mail.mime.messageId = versionHeader publicId version →
      Course encodes provider publicId none
        [.deleteDraft uid (some (versionHeader publicId version))] [mail]

/-- The invariant of calm runs. -/
structure Kept (encodes : Mime → Bool) (provider : Provider) (publicId : String) (w : World) : Prop where
  course : Course encodes provider publicId w.row w.log (w.remote.mailbox .drafts)
  holds : Holds w.remote (w.remote.mailbox .drafts)

theorem generateMessageIdHeader_ne (uid : String) : generateMessageIdHeader uid ≠ "" := by
  intro empty
  have length := congrArg String.length empty
  simp [generateMessageIdHeader, String.length_append] at length

theorem versionHeader_ne (publicId : String) (version : Int) : versionHeader publicId version ≠ "" :=
  generateMessageIdHeader_ne _

theorem Ours.messageId (ours : Ours publicId draft) (created : createEmail encodes draft = some mime) :
    mime.messageId = versionHeader publicId draft.version := by
  rw [createEmail_messageId created, ours.uid]
  rfl

theorem Ours.updateDraft (ours : Ours publicId draft) (now : Nat) (changes : Changes) :
    Ours publicId (Sendmail.updateDraft snippet now changes draft) where
  named := ours.named
  uid := by
    rw [← ours.named]
    rfl
  header := by
    rw [← ours.named]
    rfl
  isDraft := ours.isDraft

theorem Ours.outdated (ours : Ours publicId draft) :
    outdated (some draft) version = true ↔ version ≠ draft.version := by
  simp [DraftSyncback.outdated, ours.isDraft]

theorem create_kept (account : String × String) (now : Nat) (input : NewDraft)
    (created : (createEmail encodes
      (createMessageFromJson snippet account publicId now true input)).isSome)
    (holds : Holds remote []) :
    Kept encodes provider publicId (.create snippet account publicId now input remote) := by
  obtain ⟨mime, created⟩ := Option.isSome_iff_exists.mp created
  have ours : Ours publicId (createMessageFromJson snippet account publicId now true input) :=
    ⟨rfl, rfl, rfl, rfl⟩
  constructor
  · change Course encodes provider publicId (some _) ([] ++ [.saveDraft _]) (remote.mailbox .drafts)
    rw [holds.drafts]
    exact .waiting ours created nofun rfl
  · exact ⟨rfl, holds.sent, holds.trash⟩

theorem Action.run_older {action : Action} (ours : Ours publicId draft)
    (older : action.Older draft.version) (remote : Remote) :
    action.run encodes provider (some draft) remote = (.ok (), remote) := by
  cases action with
  | saveDraft version | updateDraft version old =>
    simp only [Action.run, ours.outdated.mpr (Int.ne_of_lt older), if_true]
  | deleteDraft => exact older.elim

/-- Nothing is saved of a draft that is gone, and nothing is deleted from an empty folder. -/
theorem Action.run_gone (action : Action) (holds : Holds remote []) :
    ∃ result next, action.run encodes provider none remote = (result, next) ∧ Holds next [] := by
  cases action with
  | saveDraft version | updateDraft version old => exact ⟨.ok (), remote, rfl, holds⟩
  | deleteDraft uid header =>
    simp only [Action.run]
    split
    · exact ⟨.error .attributeError, remote, rfl, holds⟩
    · cases provider with
      | generic =>
        obtain ⟨next, deleted, kept⟩ := holds.deleteDraft_absent fun mail (member : mail ∈ []) =>
          show some mail.mime.messageId ≠ header from nomatch member
        exact ⟨.ok (), next, by simp only [crispinDeleteDraft, deleted, Except.map], kept⟩
      | gmail =>
        obtain ⟨next, error, refused, kept⟩ := holds.deleteDraft_gmail header
        exact ⟨.error error, next, by simp only [crispinDeleteDraft, refused, Except.map], kept⟩

/-- The current version is saved, and the copy of the previous one, if there is one, deleted. -/
theorem remoteUpdateDraft_generic (ours : Ours publicId draft)
    (created : createEmail encodes draft = some mime) (holds : Holds remote mails)
    (newer : versionHeader publicId draft.version ≠ header) (nonempty : header ≠ "")
    (copies : mails = [] ∨ ∃ mail, mails = [mail] ∧ mail.mime.messageId = header) :
    ∃ msgid next, remoteUpdateDraft encodes .generic draft (some header) remote = (.ok (), next) ∧
      Holds next [⟨mime, msgid⟩] := by
  have current := ours.messageId created
  have absent : ∀ mail ∈ mails, some mail.mime.messageId ≠ draft.messageIdHeader := by
    rw [ours.header]
    rcases copies with rfl | ⟨mail, rfl, old⟩
    · nofun
    · simpa [old] using newer.symm
  have opened := holds.selectFolderIfNecessary .drafts
  obtain ⟨msgid, saved⟩ := opened.saveDraft mime
  have replaced : ∃ deleted next, Remote.Generic.deleteDraft
      ((remote.selectFolderIfNecessary .drafts).saveDraft mime) (some header) = (deleted, next) ∧
        Holds next [⟨mime, msgid⟩] := by
    rcases copies with rfl | ⟨mail, rfl, old⟩
    · obtain ⟨next, deleted, kept⟩ := saved.deleteDraft_absent
        (show ∀ mail ∈ [] ++ [(⟨mime, msgid⟩ : Mail)], some mail.mime.messageId ≠ some header by
          simpa [current] using newer)
      exact ⟨false, next, deleted, kept⟩
    · obtain ⟨next, deleted, kept⟩ := saved.deleteDraft_one
        (show List.filter (fun mail => some mail.mime.messageId = some header) _ = [mail] by
          simp [old, current, newer])
      exact ⟨true, next, deleted, by simpa [old, current, newer] using kept⟩
  obtain ⟨deleted, next, replaced, kept⟩ := replaced
  refine ⟨msgid, next, ?_, kept⟩
  simp only [remoteUpdateDraft, created, opened.findByHeader absent, if_true, Option.getD_some,
    nonempty, if_false, crispinDeleteDraft, replaced, Except.map]

theorem step_update (stepped : w.step encodes provider snippet (.update now changes) = some next) :
    ∃ draft, w.row = some draft ∧ next = { w with
      row := some (updateDraft snippet now changes draft)
      log := w.log ++ [.updateDraft (draft.version + 1) draft.messageIdHeader] } := by
  obtain ⟨draft, present, updated⟩ := Option.bind_eq_some_iff.mp stepped
  dsimp only at updated
  split at updated
  · cases updated
  · cases updated
    exact ⟨draft, present, rfl⟩

/-- Where a request finds the draft when no older copy is left. -/
theorem Kept.settled (kept : Kept encodes provider publicId w) (present : w.row = some draft)
    (upToDate : w.UpToDate provider draft) : Ours publicId draft ∧
      ((∃ older last, w.log = older ++ [last] ∧ (∀ action ∈ older, action.Older draft.version) ∧
          last.Saves publicId draft ∧ w.remote.mailbox .drafts = []) ∨
        (provider = .generic ∧ w.log = [] ∧ ∃ mail, w.remote.mailbox .drafts = [mail] ∧
          mail.mime.messageId = versionHeader publicId draft.version)) := by
  have course := kept.course
  rw [present] at course
  generalize logged : w.log = log at course
  generalize copies : w.remote.mailbox .drafts = mails at course
  cases course with
  | waiting ours created older saves => exact ⟨ours, .inl ⟨_, _, rfl, older, saves, rfl⟩⟩
  | @saved _ mail ours created =>
    refine ⟨ours, ?_⟩
    cases provider with
    | generic => exact .inr ⟨rfl, rfl, mail, rfl, ours.messageId created⟩
    | gmail =>
      rw [World.UpToDate, copies] at upToDate
      cases upToDate
  | @replacing _ _ mail generic ours created old =>
    subst generic
    have same := upToDate mail (by simp [copies])
    rw [old, ours.header, Option.some.injEq, versionHeader_inj] at same
    omega

theorem Action.Older.mono {action : Action} (older : action.Older version) (later : version ≤ bound) :
    action.Older bound := by
  cases action with
  | saveDraft | updateDraft => exact Int.lt_of_lt_of_le older later
  | deleteDraft => exact older.elim

theorem Action.Saves.older {action : Action} (saves : action.Saves publicId draft) :
    action.Older (draft.version + 1) := by
  cases action with
  | saveDraft version =>
    cases saves
    exact Int.lt_succ _
  | updateDraft version old =>
    cases saves.1
    exact Int.lt_succ _
  | deleteDraft => exact saves.elim

theorem Kept.update (kept : Kept encodes provider publicId w)
    (calm : w.Calm encodes provider snippet (.update now changes))
    (stepped : w.step encodes provider snippet (.update now changes) = some next) :
    Kept encodes provider publicId next := by
  obtain ⟨draft, present, rfl⟩ := step_update stepped
  obtain ⟨upToDate, created⟩ := calm draft present
  obtain ⟨mime, created⟩ := Option.isSome_iff_exists.mp created
  obtain ⟨ours, place⟩ := kept.settled present upToDate
  have updated : Ours publicId (Sendmail.updateDraft snippet now changes draft) :=
    ours.updateDraft now changes
  have previous : (updateDraft snippet now changes draft).version - 1 = draft.version := by simp
  refine ⟨?_, kept.holds⟩
  dsimp only
  rw [ours.header]
  rcases place with ⟨older, last, logged, early, saves, empty⟩ | ⟨generic, logged, mail, copy, current⟩
  · rw [logged, empty]
    refine .waiting updated created ?_ ⟨rfl, by rw [previous]⟩
    intro action member
    rcases List.mem_append.mp member with before | here
    · exact (early action before).mono (Int.le_of_lt (Int.lt_succ _))
    · rw [List.mem_singleton.mp here]
      exact saves.older
  · have replacing := Course.replacing generic updated created (by rw [previous]; exact current)
    rw [previous, updateDraft_version] at replacing
    rw [logged, copy]
    exact replacing

theorem Kept.delete (kept : Kept encodes provider publicId w)
    (calm : w.Calm encodes provider snippet .delete)
    (stepped : w.step encodes provider snippet .delete = some next) :
    Kept encodes provider publicId next := by
  obtain ⟨draft, present, rfl⟩ := Option.map_eq_some_iff.mp stepped
  obtain ⟨ours, place⟩ := kept.settled present (calm draft present)
  refine ⟨?_, kept.holds⟩
  dsimp only
  rcases place with ⟨older, last, logged, early, saves, empty⟩ | ⟨generic, logged, mail, copy, current⟩
  · rw [empty]
    exact .dropped
  · rw [logged, copy, ours.header]
    exact .deleting generic current

/-- An attempt ends its entry, or leaves the log as it is for the next one. -/
theorem step_work (stepped : w.work encodes provider = some next) :
    ∃ action rest, w.log = action :: rest ∧
      (∀ remote, action.run encodes provider w.row w.remote = (.ok (), remote) →
        next = { w with log := rest, retries := 0, remote }) ∧
      (∀ result remote, action.run encodes provider w.row w.remote = (result, remote) →
        next.row = w.row ∧ next.remote = remote) := by
  unfold World.work at stepped
  cases logged : w.log with
  | nil => simp [logged] at stepped
  | cons action rest =>
    refine ⟨action, rest, rfl, ?_⟩
    simp only [logged] at stepped
    cases outcome : action.run encodes provider w.row w.remote with
    | mk result remote =>
      rw [outcome] at stepped
      cases result with
      | ok =>
        cases stepped
        exact ⟨by rintro _ ⟨⟩; rfl, by rintro _ _ ⟨⟩; exact ⟨rfl, rfl⟩⟩
      | error error =>
        refine ⟨nofun, ?_⟩
        rintro _ _ ⟨⟩
        dsimp only at stepped
        split at stepped
        · cases stepped
          exact ⟨rfl, rfl⟩
        · cases stepped
          exact ⟨rfl, rfl⟩

theorem remoteSaveDraft_ok (created : createEmail encodes draft = some mime) (holds : Holds remote []) :
    ∃ msgid next, remoteSaveDraft encodes draft remote = (.ok (), next) ∧ Holds next [⟨mime, msgid⟩] := by
  obtain ⟨msgid, saved⟩ := (holds.selectFolderIfNecessary .drafts).saveDraft mime
  exact ⟨msgid, _, by simp only [remoteSaveDraft, created], saved⟩

theorem Ours.current (ours : Ours publicId draft) :
    DraftSyncback.outdated (some draft) draft.version = false :=
  Bool.eq_false_iff.mpr fun outdated => ours.outdated.mp outdated rfl

/-- A worker that moves the copies on and ends its entry. -/
theorem Kept.saved (ours : Ours publicId draft) (created : createEmail encodes draft = some mime)
    (present : next.row = some draft) (logged : next.log = []) (holds : Holds next.remote [⟨mime, msgid⟩]) :
    Kept encodes provider publicId next := by
  refine ⟨?_, holds.drafts ▸ holds⟩
  rw [present, logged, holds.drafts]
  exact .saved ours created

theorem Kept.dropped (present : next.row = none) (holds : Holds next.remote []) :
    Kept encodes provider publicId next := by
  refine ⟨?_, holds.drafts ▸ holds⟩
  rw [present, holds.drafts]
  exact .dropped

/-- Version 0 is saved by its own entry; a later one by the entry that replaces the version before. -/
theorem Kept.due (ours : Ours publicId draft) (created : createEmail encodes draft = some mime)
    (present : w.row = some draft) (logged : w.log = [action]) (saves : action.Saves publicId draft)
    (holds : Holds w.remote mails) (generic : ∀ version old, action = .updateDraft version old →
      provider = .generic)
    (copies : mails = [] ∨ (∃ version old, action = .updateDraft version old) ∧
      ∃ mail, mails = [mail] ∧ mail.mime.messageId = versionHeader publicId (draft.version - 1))
    (stepped : w.work encodes provider = some next) : Kept encodes provider publicId next := by
  obtain ⟨first, rest, pending, done, _⟩ := step_work stepped
  rw [logged] at pending
  cases pending
  rw [present] at done
  have finish : ∀ msgid remote, action.run encodes provider (some draft) w.remote = (.ok (), remote) →
      Holds remote [⟨mime, msgid⟩] → Kept encodes provider publicId next := by
    intro msgid remote ran kept
    have moved := done remote ran
    exact .saved ours created (by rw [moved, ← present]) (by rw [moved]) (by rw [moved]; exact kept)
  cases action with
  | saveDraft version =>
    cases saves
    obtain rfl := copies.resolve_right (by rintro ⟨⟨_, _, other⟩, _⟩; cases other)
    obtain ⟨msgid, remote, ran, kept⟩ := remoteSaveDraft_ok created holds
    exact finish msgid remote (by simp only [Action.run, ours.current, Bool.false_eq_true, if_false, ran]) kept
  | updateDraft version old =>
    obtain ⟨rfl, rfl⟩ := saves
    obtain rfl := generic _ _ rfl
    obtain ⟨msgid, remote, ran, kept⟩ := remoteUpdateDraft_generic ours created holds
      (fun same => by have := versionHeader_inj.mp same; omega) (versionHeader_ne _ _)
      (copies.imp_right And.right)
    exact finish msgid remote (by simp only [Action.run, ours.current, Bool.false_eq_true, if_false, ran]) kept
  | deleteDraft => exact saves.elim

theorem Kept.work (kept : Kept encodes provider publicId w) (calm : w.Calm encodes provider snippet .work)
    (stepped : w.work encodes provider = some next) : Kept encodes provider publicId next := by
  obtain ⟨course, holds⟩ := kept
  generalize present : w.row = row at course
  generalize logged : w.log = log at course
  generalize w.remote.mailbox .drafts = mails at course holds
  obtain ⟨action, rest, pending, done, moved⟩ := step_work stepped
  rw [logged] at pending
  rw [present] at done moved
  cases course with
  | @waiting draft mime older last ours created early saves =>
    cases older with
    | nil =>
      refine .due ours created present logged saves holds ?_ (.inl rfl) stepped
      rintro version old rfl
      by_contra other
      have gmail : provider = .gmail := by
        cases provider with
        | generic => exact absurd rfl other
        | gmail => rfl
      have outdated := calm gmail version (by rw [logged]; rfl)
      rw [present, saves.1, ours.current] at outdated
      cases outdated
    | cons first older =>
      cases pending
      have skipped := done w.remote (Action.run_older ours (early action List.mem_cons_self) w.remote)
      rw [skipped]
      refine ⟨?_, holds.drafts ▸ holds⟩
      dsimp only
      rw [holds.drafts]
      exact .waiting ours created (fun action member => early action (List.mem_cons_of_mem _ member)) saves
  | saved => cases pending
  | @replacing draft mime mail generic ours created old =>
    exact .due ours created present logged ⟨rfl, rfl⟩ holds (fun _ _ _ => generic)
      (.inr ⟨⟨_, _, rfl⟩, mail, rfl, old⟩) stepped
  | dropped =>
    obtain ⟨result, remote, ran, empty⟩ := Action.run_gone action holds
    obtain ⟨gone, reached⟩ := moved result remote ran
    exact .dropped gone (reached ▸ empty)
  | @deleting version uid mail generic current =>
    cases pending
    subst generic
    obtain ⟨remote, deleted, empty⟩ := holds.deleteDraft_one
      (show List.filter (fun copy => some copy.mime.messageId = some (versionHeader publicId version)) _ =
        [mail] by simp [current])
    have ran : (Action.deleteDraft uid (some (versionHeader publicId version))).run encodes .generic none
        w.remote = (.ok (), remote) := by
      simp only [Action.run, Option.getD_some, versionHeader_ne, and_false, if_false,
        crispinDeleteDraft, deleted, Except.map]
    obtain ⟨gone, reached⟩ := moved _ remote ran
    refine .dropped gone ?_
    rw [reached]
    simpa [current] using empty

theorem Kept.step (kept : Kept encodes provider publicId w) (calm : w.Calm encodes provider snippet event)
    (stepped : w.step encodes provider snippet event = some next) :
    Kept encodes provider publicId next := by
  cases event with
  | update now changes => exact kept.update calm stepped
  | delete => exact kept.delete calm stepped
  | work => exact kept.work calm stepped

theorem Kept.run (kept : Kept encodes provider publicId w) (calm : w.AllCalm encodes provider snippet events)
    (ran : w.run encodes provider snippet events = some final) :
    Kept encodes provider publicId final := by
  induction events generalizing w with
  | nil =>
    cases ran
    exact kept
  | cons event events ih =>
    obtain ⟨next, stepped, later⟩ := Option.bind_eq_some_iff.mp ran
    exact ih (kept.step calm.1 stepped) (calm.2 next stepped) later

theorem Kept.converged (kept : Kept encodes provider publicId w) (finished : w.log = []) :
    w.Converged encodes := by
  obtain ⟨course, -⟩ := kept
  rw [finished] at course
  unfold World.Converged
  generalize w.row = row at course
  generalize w.remote.mailbox .drafts = mails at course
  generalize logged : ([] : List Action) = log at course
  cases course with
  | waiting => simp at logged
  | saved ours created => exact ⟨_, rfl, created⟩
  | replacing => cases logged
  | dropped => rfl
  | deleting => cases logged

/-- The folder ends with the current version, or empty, in every run of calm steps that leaves no
entry pending. -/
theorem converged_when_calm {account : String × String} {input : NewDraft} {now : Nat} {remote : Remote}
    (created : (createEmail encodes
      (createMessageFromJson snippet account publicId now true input)).isSome)
    (empty : Holds remote [])
    (calm : (World.create snippet account publicId now input remote).AllCalm encodes provider snippet events)
    (ran : (World.create snippet account publicId now input remote).run encodes provider snippet events =
      some w) (finished : w.log = []) : w.Converged encodes :=
  ((create_kept account now input created empty).run calm ran).converged finished

end Calm

namespace Sample

def remote : Remote where
  mailbox := fun _ => []
  opened := none
  selectedFolder := none
  nextMsgid := 0

/-- The library builds every message whose sender has an address. -/
def encodes (mime : Mime) : Bool := mime.fromEmail ≠ ""

def created : World := .create id ("", "me@x.org") "d" 0 {} remote

def inTurn : List Event := [.work, .update 1 {}, .work, .delete, .work]

/-- The second update comes before the worker has run the first one. -/
def twice : List Event := [.work, .update 1 {}, .update 2 {}, .work, .work]

end Sample

theorem deleted_in_turn : ∃ w,
    Sample.created.run Sample.encodes .generic id Sample.inTurn = some w ∧ w.Converged Sample.encodes := by
  have finished : (Sample.created.run Sample.encodes .generic id Sample.inTurn).map World.log = some [] := by
    decide +kernel
  obtain ⟨w, ran, finished⟩ := Option.map_eq_some_iff.mp finished
  exact ⟨w, ran, converged_when_calm (by decide +kernel) ⟨rfl, rfl, rfl⟩ (by decide +kernel) ran finished⟩

/-- The first update is skipped as outdated, and with it the deletion of version 0, which has been
saved. The second one saves version 2 and looks for version 1. -/
theorem previous_version_stays : ¬ ∀ (provider : Provider) (events : List Event) w,
    Sample.created.run Sample.encodes provider id events = some w → w.log = [] →
      w.Converged Sample.encodes := by
  intro holds
  have outcome : (Sample.created.run Sample.encodes .generic id Sample.twice).map
      (fun w => (w.log, w.row.isSome, (w.remote.mailbox .drafts).length)) = some ([], true, 2) := by
    decide +kernel
  obtain ⟨w, ran, reached⟩ := Option.map_eq_some_iff.mp outcome
  simp only [Prod.mk.injEq] at reached
  obtain ⟨finished, present, two⟩ := reached
  have converged := holds .generic Sample.twice w ran finished
  obtain ⟨draft, present⟩ := Option.isSome_iff_exists.mp present
  rw [World.Converged, present] at converged
  obtain ⟨mail, only, _⟩ := converged
  rw [only] at two
  cases two

end DraftSyncback
end SyncEngine
