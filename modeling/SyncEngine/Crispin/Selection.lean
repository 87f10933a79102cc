import SyncEngine.Cooperative.Crew
import SyncEngine.Crispin.Actions

/-! The client's idea of the selected folder is right, and UID commands run where they are meant
to, in every run that keeps away from the SELECTs which the mirror misses. -/
namespace SyncEngine
namespace Crispin
open Cooperative

/-- The mirror names the folder that the server has selected, and every UID command that was
carried out ran in the folder whose UIDs it names. -/
structure Right (s : Connection) : Prop where
  mirror : ∀ folder, s.selectedFolder = some folder → s.server = some folder
  executed : ∀ command ∈ s.executed, command.ranIn = command.names

/-- The states in which a command keeps the mirror right. A refused SELECT and one that bypasses
`select_folder` leave the mirror as it was; so do RENAME and DELETE. -/
def Admitted (command : Command) (s : Connection) : Prop :=
  match command with
  | .select folder mirrored =>
    ((s.reply.refuses (.select folder mirrored)).isSome → s.selectedFolder = none) ∧
      (mirrored = false → s.reply.refuses (.select folder mirrored) = none →
        s.selectedFolder = none ∨ s.selectedFolder = some folder)
  | .rename oldName newName =>
    s.reply.refuses (.rename oldName newName) = none → s.selectedFolder = some oldName →
      newName = oldName
  | .deleteFolder name =>
    s.reply.refuses (.deleteFolder name) = none → s.selectedFolder ≠ some name
  | _ => True

instance : Decidable (Admitted command s) := by
  unfold Admitted
  split <;> infer_instance

/-- Between two commands only the coming replies change. -/
def Moved (s t : Connection) : Prop := t = { s with reply := t.reply }

def selection : Contract perform where
  inv := Right
  admits := Admitted
  rely := Moved
  guar _ _ := True
  rely_refl _ := rfl
  rely_trans first second := by
    rw [Moved] at *
    rw [second, first]

/-- The server has this folder selected. -/
def On (folder : String) (s : Connection) : Prop := s.server = some folder

def Anywhere (_ : Connection) : Prop := True

/-- From a state with `pre` the call keeps the contract and returns in a state with `post`. -/
abbrev Safe (pre : Connection → Prop) (routine : Call α) (post : α → Connection → Prop) : Prop :=
  selection.Spec pre routine post (fun _ => Anywhere)

theorem on_stable (folder : String) : selection.Stable (On folder) := by
  intro s t held moved _
  rw [On, show t.server = s.server by rw [moved]]
  exact held

theorem anywhere_stable : selection.Stable Anywhere := fun _ _ _ _ _ => trivial

variable {α β : Type} {pre : Connection → Prop}

theorem safe_bind {routine : Call α} {rest : α → Call β} {between : α → Connection → Prop}
    {post : β → Connection → Prop} (first : Safe pre routine between)
    (later : ∀ value, Safe (between value) (rest value) post) : Safe pre (routine.bind rest) post :=
  Contract.spec_bind first later

theorem safe_ret {post : α → Connection → Prop} (stable : selection.Stable pre) {value : α}
    (done : ∀ s, pre s → post value s) : Safe pre (.ret value) post :=
  Contract.spec_ret stable (fun s _ ready => done s ready)

theorem safe_raise {post : α → Connection → Prop} (stable : selection.Stable pre) (exc : Exc) :
    Safe pre (.raise exc) post :=
  Contract.spec_raise stable (fun _ _ _ => trivial)

theorem safe_start {routine : Call α} {post : α → Connection → Prop}
    (safe : Safe Anywhere routine post) : Safe pre routine post :=
  fun s right _ => safe s right trivial

theorem safe_end {routine : Call α} {post : α → Connection → Prop} (safe : Safe pre routine post) :
    Safe pre routine (fun _ => Anywhere) :=
  Contract.spec_mono safe (fun _ _ ready => ready) (fun _ _ _ _ => trivial) (fun _ _ _ _ => trivial)

/-! ## Commands -/

theorem refused_or (s : Connection) (command : Command) :
    (∃ exc, s.reply.refuses command = some exc) ∨ s.reply.refuses command = none := by
  cases s.reply.refuses command with
  | none => exact .inr rfl
  | some exc => exact .inl ⟨exc, rfl⟩

/-- One command: what is to be shown about it where it is refused and where it is carried out. -/
theorem safe_call {command : Command} {answer : Connection → Except Exc α}
    {post : α → Connection → Prop} (stable : selection.Stable pre)
    (posts : ∀ value, selection.Stable (post value))
    (keeps : ∀ s, Right s → pre s → Admitted command s → Right (perform command s))
    (answers : ∀ s value, Right s → pre s → s.reply.refuses command = none →
      answer s = .ok value → post value (perform command s)) :
    Safe pre (call command answer) post := by
  refine Contract.spec_issue stable posts (fun _ => anywhere_stable) fun s right ready admitted => ?_
  refine ⟨keeps s right ready admitted, trivial, ?_⟩
  rcases refused_or s command with ⟨exc, refused⟩ | accepted
  · simp only [refused]
    trivial
  · simp only [accepted]
    cases result : answer s with
    | ok value => exact answers s value right ready accepted result
    | error => trivial

theorem ask_safe {answer : Connection → Except Exc α} (stable : selection.Stable pre) :
    Safe pre (call .ask answer) (fun _ => pre) :=
  safe_call stable (fun _ => stable) (fun _ right _ _ => right) (fun _ _ _ ready _ _ => ready)

theorem query_safe {answer : Connection → α} (stable : selection.Stable pre) :
    Safe pre (query answer) (fun _ => pre) :=
  ask_safe stable

theorem uidCommand_keeps (right : Right s) (on : On folder s) : Right (perform (.uid folder) s) := by
  rw [On] at on
  rcases refused_or s (.uid folder) with ⟨exc, refused⟩ | accepted
  · simp only [perform, refused]
    exact right
  · have ran : perform (.uid folder) s =
        { s with executed := s.executed ++ [⟨folder, folder⟩] } := by
      simp only [perform, accepted, on]
    rw [ran]
    refine ⟨right.mirror, fun command member => ?_⟩
    rcases List.mem_append.mp member with earlier | now
    · exact right.executed command earlier
    · obtain rfl := List.mem_singleton.mp now
      rfl

theorem perform_uid_server (folder : String) (s : Connection) :
    (perform (.uid folder) s).server = s.server := by
  simp only [perform]
  split <;> rfl

theorem uid_safe {answer : Connection → Except Exc α} (folder : String) :
    Safe (On folder) (call (.uid folder) answer) (fun _ => On folder) := by
  refine safe_call (on_stable folder) (fun _ => on_stable folder)
    (fun s right on _ => uidCommand_keeps right on) fun s value _ on _ _ => ?_
  rw [On, perform_uid_server]
  exact on

theorem search_safe : Safe Anywhere search (fun found => On found.1) := by
  refine safe_call anywhere_stable (fun found => on_stable found.1) (fun s right _ _ => right) ?_
  intro s value _ _ _ answered
  cases server : s.server with
  | none => simp [server] at answered
  | some folder =>
    simp only [server, Except.ok.injEq] at answered
    subst answered
    exact server

/-- A SELECT keeps the mirror right exactly where it is admitted. -/
theorem select_mirror_iff (s : Connection) (folder : String) (mirrored : Bool) :
    (∀ name, (perform (.select folder mirrored) s).selectedFolder = some name →
      (perform (.select folder mirrored) s).server = some name) ↔
    Admitted (.select folder mirrored) s := by
  simp only [perform, Admitted]
  rcases refused_or s (.select folder mirrored) with ⟨exc, refused⟩ | accepted
  · simp only [refused, Option.isSome_some, forall_const, reduceCtorEq, false_implies, implies_true,
      and_true, imp_false]
    cases s.selectedFolder <;> simp
  · simp only [accepted, Option.isSome_none, Bool.false_eq_true, false_implies, true_and,
      forall_const]
    cases mirrored with
    | true => simp
    | false => cases s.selectedFolder <;> simp [eq_comm]

theorem select_keeps (right : Right s) (admitted : Admitted (.select folder mirrored) s) :
    Right (perform (.select folder mirrored) s) := by
  refine ⟨(select_mirror_iff s folder mirrored).mpr admitted, ?_⟩
  have same : (perform (.select folder mirrored) s).executed = s.executed := by
    simp only [perform]
    split
    · rfl
    · split <;> rfl
  rw [same]
  exact right.executed

theorem select_safe (folder : String) (mirrored : Bool) :
    Safe Anywhere (call (.select folder mirrored) (fun _ => .ok ())) (fun _ => On folder) := by
  refine safe_call anywhere_stable (fun _ => on_stable folder)
    (fun s right _ admitted => select_keeps right admitted) ?_
  intro s _ _ _ accepted _
  simp only [On, perform, accepted]
  split <;> rfl

theorem rename_keeps (right : Right s) (admitted : Admitted (.rename oldName newName) s) :
    Right (perform (.rename oldName newName) s) := by
  simp only [perform]
  rcases refused_or s (.rename oldName newName) with ⟨exc, refused⟩ | accepted
  · rw [refused]
    exact right
  · rw [accepted]
    refine ⟨fun folder selected => ?_, right.executed⟩
    have mapped : (s.server.map fun name => if name = oldName then newName else name) =
        some (if folder = oldName then newName else folder) := by
      rw [right.mirror folder selected]
      rfl
    refine mapped.trans (congrArg some ?_)
    split
    · rename_i same
      exact (admitted accepted (same ▸ selected)).trans same.symm
    · rfl

theorem deleteFolder_keeps (right : Right s) (admitted : Admitted (.deleteFolder name) s) :
    Right (perform (.deleteFolder name) s) := by
  simp only [perform]
  rcases refused_or s (.deleteFolder name) with ⟨exc, refused⟩ | accepted
  · rw [refused]
    exact right
  · rw [accepted]
    refine ⟨fun folder selected => ?_, right.executed⟩
    have other : folder ≠ name := fun same => admitted accepted (same ▸ selected)
    simp [right.mirror folder selected, other]

theorem listFolders_keeps (right : Right s) : Right (perform .listFolders s) := by
  simp only [perform]
  split
  · exact right
  · exact ⟨right.mirror, right.executed⟩

/-! ## Methods of the client -/

theorem selectFolder_safe (folder : String) : Safe Anywhere (selectFolder folder) (fun _ => On folder) :=
  safe_bind (select_safe folder true) (fun _ => ask_safe (on_stable folder))

theorem selectFolderIfNecessary_safe (folder : String) :
    Safe Anywhere (selectFolderIfNecessary folder) (fun _ => On folder) := by
  refine Contract.spec_step anywhere_stable fun s right _ _ => ⟨right, trivial, ?_⟩
  split
  · exact selectFolder_safe folder s right trivial
  · rename_i held
    have selected : s.selectedFolder = some folder := by
      by_contra other
      exact held (.inr other)
    exact ask_safe (on_stable folder) s right (right.mirror folder selected)

theorem folderNames_safe (role : String) : Safe Anywhere (folderNames role) (fun _ => Anywhere) := by
  refine Contract.spec_step anywhere_stable fun s right _ _ => ⟨right, trivial, ?_⟩
  split
  · exact safe_ret anywhere_stable (fun _ _ => trivial) s right trivial
  · refine safe_call anywhere_stable (fun _ => anywhere_stable)
      (fun s right _ _ => listFolders_keeps right) (fun _ _ _ _ _ _ => trivial) s right trivial

theorem first_safe (names : List String) : Safe Anywhere (first names) (fun _ => Anywhere) := by
  cases names with
  | nil => exact safe_raise anywhere_stable _
  | cons => exact safe_ret anywhere_stable (fun _ _ => trivial)

theorem folderWithRole_safe (role : String) :
    Safe Anywhere ((folderNames role).bind first) (fun _ => Anywhere) :=
  safe_bind (folderNames_safe role) first_safe

theorem uidCommand_safe (folder : String) : Safe (On folder) (uidCommand folder) (fun _ => On folder) :=
  uid_safe folder

theorem fetchHeaders_safe (folder : String) (uids : List Nat) :
    Safe (On folder) (fetchHeaders folder uids) (fun _ => On folder) :=
  Contract.spec_each (fun _ => On folder) (on_stable folder) (fun _ _ => uidCommand_safe folder)

/-- The UIDs that are found belong to the folder that is selected. -/
theorem findByHeader_safe (provider : Provider) :
    Safe Anywhere (findByHeader provider) (fun found => On found.1) := by
  cases provider with
  | gmail => exact search_safe
  | generic =>
    refine safe_bind search_safe fun (folder, uids) => ?_
    refine safe_bind (fetchHeaders_safe folder uids) fun _ => ?_
    refine safe_bind (query_safe (on_stable folder)) fun _ => ?_
    exact safe_ret (on_stable folder) (fun _ on => on)

theorem deleteUids_safe (folder : String) : Safe (On folder) (deleteUids folder) (fun _ => On folder) :=
  safe_bind (uidCommand_safe folder) (fun _ => uidCommand_safe folder)

theorem deleteMessage_safe (provider : Provider) (deleteMultiple : Bool) :
    Safe Anywhere (deleteMessage provider deleteMultiple) (fun _ => Anywhere) := by
  refine safe_bind (findByHeader_safe provider) fun (folder, matchingUids) => ?_
  dsimp only
  split
  · exact safe_ret (on_stable folder) (fun _ _ => trivial)
  · split
    · exact safe_ret (on_stable folder) (fun _ _ => trivial)
    · refine safe_bind (uidCommand_safe folder) fun _ => ?_
      refine safe_bind (uidCommand_safe folder) fun _ => ?_
      exact safe_ret (on_stable folder) (fun _ _ => trivial)

theorem selectDirectly_safe (folder : String) :
    Safe Anywhere (selectDirectly folder) (fun _ => On folder) :=
  select_safe folder false

/-- Deleting in a folder and then, if anything was deleted, in the trash. -/
theorem deleteThenTrash_safe (provider : Provider) (deleteMultiple deleted : Bool) :
    Safe Anywhere (if deleted then do
        let trashFolderName ← (folderNames "trash").bind first
        selectDirectly trashFolderName
        let _ ← deleteMessage provider deleteMultiple
        Routine.ret deleted
      else Routine.ret deleted : Call Bool) (fun _ => Anywhere) := by
  split
  · refine safe_bind (folderWithRole_safe "trash") fun trash => ?_
    refine safe_bind (safe_end (selectDirectly_safe trash)) fun _ => ?_
    refine safe_bind (deleteMessage_safe provider deleteMultiple) fun _ => ?_
    exact safe_ret anywhere_stable (fun _ _ => trivial)
  · exact safe_ret anywhere_stable (fun _ _ => trivial)

theorem deleteDraftGeneric_safe : Safe Anywhere deleteDraftGeneric (fun _ => Anywhere) := by
  refine safe_bind (folderWithRole_safe "drafts") fun drafts => ?_
  refine safe_bind (safe_end (selectDirectly_safe drafts)) fun _ => ?_
  refine safe_bind (deleteMessage_safe .generic false) fun deleted => ?_
  exact deleteThenTrash_safe .generic false deleted

theorem deleteSentMessageGeneric_safe (deleteMultiple : Bool) :
    Safe Anywhere (deleteSentMessageGeneric deleteMultiple) (fun _ => Anywhere) := by
  refine safe_bind (folderWithRole_safe "sent") fun sent => ?_
  refine safe_bind (safe_end (selectDirectly_safe sent)) fun _ => ?_
  refine safe_bind (deleteMessage_safe .generic deleteMultiple) fun deleted => ?_
  exact deleteThenTrash_safe .generic deleteMultiple deleted

theorem gMsgids_safe (folder : String) : Safe (On folder) (gMsgids folder) (fun _ => On folder) :=
  uid_safe folder

/-- The loop over `X-GM-MSGID`s in the trash searches and deletes, and leaves the trash selected. -/
theorem searchAndDelete_safe (folder : String) :
    Safe (On folder) (do
      let (trash, _) ← search
      uidCommand trash : Call Unit) (fun _ => On folder) := by
  have found : Safe (On folder) search (fun found s => On found.1 s ∧ On folder s) := by
    refine safe_call (on_stable folder) (fun found s t held moved right => ?_) (fun s right _ _ => right) ?_
    · exact ⟨on_stable found.1 s t held.1 moved right, on_stable folder s t held.2 moved right⟩
    · intro s value _ on _ answered
      rw [On] at on
      simp only [on, Except.ok.injEq] at answered
      subst answered
      exact ⟨on, on⟩
  refine safe_bind found fun (trash, uids) s right held => ?_
  obtain rfl : trash = folder := Option.some.inj (held.1.symm.trans held.2)
  exact uidCommand_safe trash s right held.1

theorem deleteDraftGmail_safe : Safe Anywhere deleteDraftGmail (fun _ => Anywhere) := by
  refine safe_bind (folderWithRole_safe "drafts") fun draftsFolderName => ?_
  refine safe_bind (folderWithRole_safe "trash") fun trashFolderName => ?_
  refine safe_bind (folderWithRole_safe "sent") fun sentFolderName => ?_
  refine safe_bind (safe_end (selectDirectly_safe sentFolderName)) fun _ => ?_
  refine safe_bind (findByHeader_safe .gmail) fun (sent, matchingUids) => ?_
  dsimp only
  split
  · exact safe_raise (on_stable sent) _
  · refine safe_bind (gMsgids_safe sent) fun sentGmMsgids => ?_
    split
    · exact safe_raise (on_stable sent) _
    · refine safe_start (safe_bind (safe_end (selectDirectly_safe draftsFolderName)) fun _ => ?_)
      refine safe_bind (findByHeader_safe .gmail) fun (drafts, matchingUids) => ?_
      dsimp only
      split
      · exact safe_ret (on_stable drafts) (fun _ _ => trivial)
      · refine safe_bind (uidCommand_safe drafts) fun _ => ?_
        refine safe_bind (uidCommand_safe drafts) fun _ => ?_
        refine safe_bind (gMsgids_safe drafts) fun gmMsgids => ?_
        split
        · exact safe_raise (on_stable drafts) _
        · refine safe_bind (uidCommand_safe drafts) fun _ => ?_
          refine safe_start (safe_bind (selectDirectly_safe trashFolderName) fun _ => ?_)
          refine safe_bind (Contract.spec_each (fun _ => On trashFolderName)
            (on_stable trashFolderName) (fun _ _ => searchAndDelete_safe trashFolderName)) fun _ => ?_
          refine safe_bind (uidCommand_safe trashFolderName) fun _ => ?_
          exact safe_ret (on_stable trashFolderName) (fun _ _ => trivial)

theorem deleteSentMessageGmail_safe (deleteMultiple : Bool) :
    Safe Anywhere (deleteSentMessageGmail deleteMultiple) (fun _ => Anywhere) := by
  refine safe_bind (folderWithRole_safe "sent") fun sentFolderName => ?_
  refine safe_bind (folderWithRole_safe "trash") fun trashFolderName => ?_
  refine safe_bind (safe_end (selectDirectly_safe sentFolderName)) fun _ => ?_
  refine safe_bind (findByHeader_safe .gmail) fun (sent, matchingUids) => ?_
  dsimp only
  split
  · exact safe_ret (on_stable sent) (fun _ _ => trivial)
  · refine safe_bind (uidCommand_safe sent) fun _ => ?_
    refine safe_start (safe_bind (safe_end (selectDirectly_safe trashFolderName)) fun _ => ?_)
    refine safe_bind (deleteMessage_safe .gmail deleteMultiple) fun _ => ?_
    exact safe_ret anywhere_stable (fun _ _ => trivial)

theorem deleteDraft_safe (provider : Provider) :
    Safe Anywhere (deleteDraft provider) (fun _ => Anywhere) := by
  cases provider with
  | generic => exact deleteDraftGeneric_safe
  | gmail => exact deleteDraftGmail_safe

theorem deleteSentMessage_safe (provider : Provider) (deleteMultiple : Bool) :
    Safe Anywhere (deleteSentMessage provider deleteMultiple) (fun _ => Anywhere) := by
  cases provider with
  | generic => exact deleteSentMessageGeneric_safe deleteMultiple
  | gmail => exact deleteSentMessageGmail_safe deleteMultiple

/-- `save_draft` and `create_message` append to the folder that the mirror names. -/
theorem appendTo_safe (role : String) :
    Safe Anywhere (do
      let names ← folderNames role
      let selected ← query Connection.selectedFolder
      if selected.all (fun name => name ∉ names) then Routine.raise .assertionError
      else call .ask (fun _ => .ok ()) : Call Unit) (fun _ => Anywhere) := by
  refine safe_bind (folderNames_safe role) fun names => ?_
  refine safe_bind (query_safe anywhere_stable) fun selected => ?_
  split
  · exact safe_raise anywhere_stable _
  · exact ask_safe anywhere_stable

/-! ## Actions -/

theorem onlyIf_safe {condition : Bool} {routine : Call Unit} (stable : selection.Stable pre)
    (safe : Safe pre routine (fun _ => pre)) : Safe pre (onlyIf condition routine) (fun _ => pre) := by
  cases condition with
  | true => exact safe
  | false => exact safe_ret stable (fun _ ready => ready)

theorem uidsByFolder_safe : Safe Anywhere uidsByFolder (fun _ => Anywhere) :=
  query_safe anywhere_stable

/-- A loop over the folders of a message: each turn selects its folder first. -/
theorem eachFolder_safe {uidsForMessage : List (String × List Nat)}
    {body : String × List Nat → Call Unit}
    (bodies : ∀ entry, Safe (On entry.1) (body entry) (fun _ => On entry.1)) :
    Safe Anywhere (.each uidsForMessage fun entry => do
      selectFolderIfNecessary entry.1
      body entry) (fun _ => Anywhere) := by
  refine Contract.spec_each (fun _ => Anywhere) anywhere_stable fun entry _ => ?_
  exact safe_bind (selectFolderIfNecessary_safe entry.1) (fun _ => safe_end (bodies entry))

theorem setFlag_safe : Safe Anywhere setFlag (fun _ => Anywhere) :=
  safe_bind uidsByFolder_safe fun _ => eachFolder_safe fun entry => uidCommand_safe entry.1

theorem remoteMove_safe : Safe Anywhere remoteMove (fun _ => Anywhere) :=
  safe_bind uidsByFolder_safe fun _ => eachFolder_safe fun entry =>
    safe_bind (uidCommand_safe entry.1) fun _ => deleteUids_safe entry.1

theorem remoteChangeLabels_safe (removedLabels addedLabels : List String) :
    Safe Anywhere (remoteChangeLabels removedLabels addedLabels) (fun _ => Anywhere) := by
  have labels : ∀ folder condition, Safe (On folder) (onlyIf condition (uidCommand folder))
      (fun _ => On folder) := fun folder _ => onlyIf_safe (on_stable folder) (uidCommand_safe folder)
  refine safe_bind uidsByFolder_safe fun _ => eachFolder_safe fun entry => ?_
  exact safe_bind (labels entry.1 _) fun _ => labels entry.1 _

/-- An action on the first folder of a role, if there is one. -/
theorem withRole_safe (role : String) {body : String → Call Unit}
    (bodies : ∀ folder, Safe Anywhere (body folder) (fun _ => Anywhere)) :
    Safe Anywhere (do
      let names ← folderNames role
      match names with
      | [] => Routine.ret ()
      | folderName :: _ => body folderName : Call Unit) (fun _ => Anywhere) := by
  refine safe_bind (folderNames_safe role) fun names => ?_
  cases names with
  | nil => exact safe_ret anywhere_stable (fun _ _ => trivial)
  | cons folderName => exact bodies folderName

theorem discard_safe {routine : Call Bool} (safe : Safe Anywhere routine (fun _ => Anywhere)) :
    Safe Anywhere (do
      let _ ← routine
      Routine.ret () : Call Unit) (fun _ => Anywhere) :=
  safe_bind safe fun _ => safe_ret anywhere_stable (fun _ _ => trivial)

theorem remoteUpdateDraft_safe (provider : Provider) (oldMessageIdHeader : Option String) :
    Safe Anywhere (remoteUpdateDraft provider oldMessageIdHeader) (fun _ => Anywhere) := by
  refine withRole_safe "drafts" fun folderName => ?_
  refine safe_bind (safe_end (selectFolderIfNecessary_safe folderName)) fun _ => ?_
  refine safe_bind (safe_end (findByHeader_safe provider)) fun (_, existingNewDraft) => ?_
  refine safe_bind (onlyIf_safe anywhere_stable (appendTo_safe "drafts")) fun _ => ?_
  cases oldMessageIdHeader with
  | none => exact safe_ret anywhere_stable (fun _ _ => trivial)
  | some => exact discard_safe (deleteDraft_safe provider)

theorem remoteSaveSent_safe : Safe Anywhere remoteSaveSent (fun _ => Anywhere) := by
  refine safe_bind (query_safe anywhere_stable) fun messageExists => ?_
  split
  · exact withRole_safe "sent" fun folderName =>
      safe_bind (safe_end (selectFolderIfNecessary_safe folderName)) fun _ => appendTo_safe "sent"
  · exact safe_ret anywhere_stable (fun _ _ => trivial)

theorem action_safe (provider : Provider) (action : Action) :
    Safe Anywhere (action.routine provider) (fun _ => Anywhere) := by
  cases action with
  | setFlag => exact setFlag_safe
  | move => exact remoteMove_safe
  | changeLabels removedLabels addedLabels => exact remoteChangeLabels_safe removedLabels addedLabels
  | saveDraft =>
    exact withRole_safe "drafts" fun folderName =>
      safe_bind (safe_end (selectFolderIfNecessary_safe folderName)) fun _ => appendTo_safe "drafts"
  | updateDraft oldMessageIdHeader => exact remoteUpdateDraft_safe provider oldMessageIdHeader
  | deleteDraft => exact withRole_safe "drafts" fun _ => discard_safe (deleteDraft_safe provider)
  | deleteSent deleteMultiple =>
    exact withRole_safe "sent" fun _ => discard_safe (deleteSentMessage_safe provider deleteMultiple)
  | saveSent => exact remoteSaveSent_safe
  | createFolder => exact ask_safe anywhere_stable
  | updateFolder oldName newName =>
    exact safe_call anywhere_stable (fun _ => anywhere_stable)
      (fun _ right _ admitted => rename_keeps right admitted) (fun _ _ _ _ _ _ => trivial)
  | deleteFolder name =>
    exact safe_call anywhere_stable (fun _ => anywhere_stable)
      (fun _ right _ admitted => deleteFolder_keeps right admitted) (fun _ _ _ _ _ _ => trivial)

/-! ## Batches -/

def fresh (reply : Reply) : Connection where
  selectedFolder := none
  folderNames := none
  server := none
  executed := []
  reply := reply

/-- The actions that use one client after the other, in any order and each as often as it is
retried, whatever became of the one before. A lost connection is replaced by a fresh one. -/
def batches (provider : Provider) (admits : Command → Connection → Prop) :
    Plan Connection Command Exc Unit Unit where
  perform := perform
  admits := admits
  signal _ := .none
  helper := .ret ()
  resume s _ t next := t = s ∧ ∃ action : Action, next = action.routine provider
  again _ := False
  env := Moved
  restart s t next :=
    t = { fresh t.reply with executed := s.executed } ∧
      ∃ action : Action, next = action.routine provider

def noHelper : Contract perform where
  inv := Right
  admits _ _ := True
  rely _ _ := True
  guar _ _ := False
  rely_refl _ := trivial
  rely_trans _ _ := trivial

theorem right_of_moved (right : Right s) (moved : Moved s t) : Right t := by
  rw [moved]
  exact ⟨right.mirror, right.executed⟩

def batchProtocol (provider : Provider) : Crew.Protocol (batches provider Admitted) where
  main := selection
  helper := noHelper
  mainEnd _ _ := True
  helperEnd _ _ := True
  same_inv _ := Iff.rfl
  admits_main admitted := admitted
  admits_helper _ := trivial
  main_to_helper _ _ _ := trivial
  helper_to_main _ promised := promised.elim
  env_moves right moved := ⟨right_of_moved right moved, moved, trivial⟩
  spawned signal := by cases signal
  again _ again := again.elim
  resumed := by
    rintro s result t next right _ ⟨rfl, action, rfl⟩
    exact ⟨right, trivial, action_safe provider action t right trivial⟩
  restarted := by
    rintro s t next right ⟨renewed, action, rfl⟩
    have still : Right t := by
      rw [renewed]
      exact ⟨fun _ selected => (nomatch selected), right.executed⟩
    exact ⟨still, action_safe provider action t still trivial⟩

/-- In every run of batches on a connection whose SELECTs, RENAMEs and DELETEs are admitted, the
mirror is right and every UID command runs in the folder whose UIDs it names. -/
theorem selected_folder_right {provider : Provider} {action : Action} {reply : Reply}
    (run : Relation.ReflTransGen (Crew.Step (batches provider Admitted))
      ⟨fresh reply, action.routine provider, none⟩ crew) : Right crew.shared := by
  have right : Right (fresh reply) :=
    ⟨fun _ selected => (nomatch selected), fun _ member => (nomatch member)⟩
  have start : (batchProtocol provider).Runs ⟨fresh reply, action.routine provider, none⟩ :=
    ⟨right, action_safe provider action _ right trivial, by simp⟩
  exact ((batchProtocol provider).reach_runs start run).1

/-- A server that refuses one SELECT, and an account with one message in two folders. -/
def sampleReply : Reply where
  refuses command := if command = .select "Archive" true then some .folderMissing else none
  listing role := if role = "drafts" then ["Drafts"] else ["Other"]
  found := []
  gMsgids := []
  uidsByFolder := [("INBOX", [1]), ("Archive", [2])]
  uidInvalid := false
  messageExists := true

def runActions (provider : Provider) (actions : List Action) (s : Connection) : Connection :=
  actions.foldl (fun s action => ((action.routine provider).run perform s).2) s

/-- A refused SELECT leaves the mirror on a folder that is no longer selected; and the SELECT of
`delete_draft` makes the next action flag messages of the drafts folder. -/
theorem mirror_goes_stale :
    (runActions .generic [.setFlag] (fresh sampleReply)).selectedFolder = some "INBOX" ∧
    (runActions .generic [.setFlag] (fresh sampleReply)).server = none ∧
    ⟨"INBOX", "Drafts"⟩ ∈ (runActions .generic [.setFlag, .deleteDraft, .setFlag]
      (fresh { sampleReply with uidsByFolder := [("INBOX", [1])] })).executed := by
  decide

instance (command : Command) (s : Connection) :
    Decidable ((batches provider Admitted).admits command s) :=
  inferInstanceAs (Decidable (Admitted command s))

theorem selected_folder_right_after_draft :
    Right (runActions .generic [.saveDraft] (fresh sampleReply)) ∧
    (runActions .generic [.saveDraft] (fresh sampleReply)).selectedFolder = some "Drafts" := by
  have admitted : Crew.AdmitsAlone (batches .generic Admitted) (Action.routine .generic .saveDraft)
      (fresh sampleReply) := by
    decide
  obtain ⟨final, helper, _, run⟩ := Crew.reach_alone admitted none
  exact ⟨selected_folder_right run, by decide⟩

end Crispin
end SyncEngine
