import SyncEngine.Cooperative.Routine
import SyncEngine.Util.Itert

/-! The IMAP client that syncback shares between actions: its idea of the selected folder, the
folder that the server has selected, and the methods that select folders. -/
namespace SyncEngine
namespace Crispin
open Cooperative

/-- `CrispinClient` or `GmailCrispinClient`. -/
inductive Provider where
  | generic
  | gmail
deriving DecidableEq, Repr

inductive Exc where
  | imapError
  | folderMissing
  | uidInvalid
  | draftDeletion
  | indexError
  | assertionError
  | error
deriving DecidableEq, Repr

inductive Command where
  /-- A query of the database, LIST, SEARCH, APPEND or CREATE. -/
  | ask
  | listFolders
  /-- `conn.select_folder`, by `select_folder` or by another method of the client. -/
  | select (folder : String) (mirrored : Bool)
  /-- A command on UIDs of `folder`, or an EXPUNGE meant for it. -/
  | uid (folder : String)
  | rename (oldName newName : String)
  | deleteFolder (name : String)
deriving DecidableEq, Repr

/-- A UID command that the server carried out, and where. -/
structure Executed where
  names : String
  ranIn : String
deriving DecidableEq, Repr

/-- What the server and the database answer next. -/
structure Reply where
  refuses : Command → Option Exc
  /-- The folders with a role, in the order of LIST. -/
  listing : String → List String
  found : List Nat
  gMsgids : List Nat
  uidsByFolder : List (String × List Nat)
  /-- `uidvalidity_cb` finds that the folder's UIDVALIDITY has changed. -/
  uidInvalid : Bool
  messageExists : Bool

structure Connection where
  selectedFolder : Option String
  folderNames : Option (String → List String)
  /-- The folder that the server has selected. -/
  server : Option String
  executed : List Executed
  reply : Reply

/-- A SELECT that fails leaves no folder selected; a folder keeps being selected under its new
name; a folder that is deleted is not selected any more. -/
def perform : Command → Connection → Connection
  | .ask, s => s
  | .listFolders, s =>
    match s.reply.refuses .listFolders with
    | some _ => s
    | none => { s with folderNames := some s.reply.listing }
  | .select folder mirrored, s =>
    match s.reply.refuses (.select folder mirrored) with
    | some _ => { s with server := none }
    | none =>
      if mirrored then
        { s with server := some folder, selectedFolder := some folder, folderNames := none }
      else { s with server := some folder }
  | .uid folder, s =>
    match s.reply.refuses (.uid folder), s.server with
    | none, some selected => { s with executed := s.executed ++ [⟨folder, selected⟩] }
    | _, _ => s
  | .rename oldName newName, s =>
    match s.reply.refuses (.rename oldName newName) with
    | some _ => s
    | none => { s with server := s.server.map fun name => if name = oldName then newName else name }
  | .deleteFolder name, s =>
    match s.reply.refuses (.deleteFolder name) with
    | some _ => s
    | none => { s with server := s.server.filter (fun selected => selected ≠ name) }

abbrev Call (α : Type) := Routine Connection Command Exc α

/-- A command that is refused raises; otherwise the answer is read off. -/
def call (command : Command) (answer : Connection → Except Exc α) : Call α :=
  .issue command fun s =>
    match s.reply.refuses command with
    | some exc => .error exc
    | none => answer s

def query (answer : Connection → α) : Call α := call .ask (fun s => .ok (answer s))

/-- `names[0]` -/
def first (names : List String) : Call String :=
  match names with
  | [] => .raise .indexError
  | name :: _ => .ret name

/-- The `uidvalidity_cb` of `generic.py`: the stored UIDVALIDITY against the selected one. -/
def uidvalidityCb : Call Unit :=
  call .ask fun s => if s.reply.uidInvalid then .error .uidInvalid else .ok ()

def selectFolder (folder : String) : Call Unit := do
  call (.select folder true) (fun _ => .ok ())
  uidvalidityCb

def selectFolderIfNecessary (folder : String) : Call Unit :=
  .step .ask fun s =>
    if s.selectedFolder = none ∨ s.selectedFolder ≠ some folder then selectFolder folder
    else uidvalidityCb

def folderNames (role : String) : Call (List String) :=
  .step .ask fun s =>
    match s.folderNames with
    | some names => .ret (names role)
    | none => call .listFolders (fun s => .ok (s.reply.listing role))

/-- A search answers with UIDs of the folder that the server has selected. -/
def search : Call (String × List Nat) :=
  call .ask fun s =>
    match s.server with
    | none => .error .imapError
    | some folder => .ok (folder, s.reply.found)

/-- A command on UIDs that were read for `folder`. -/
def uidCommand (folder : String) : Call Unit :=
  call (.uid folder) fun s => if s.server = none then .error .imapError else .ok ()

/-- `conn.select_folder` outside of `select_folder`: the mirror is not written. -/
def selectDirectly (folder : String) : Call Unit := call (.select folder false) (fun _ => .ok ())

def saveDraft : Call Unit := do
  let drafts ← folderNames "drafts"
  let selected ← query Connection.selectedFolder
  if selected.all (fun name => name ∉ drafts) then .raise .assertionError
  else call .ask (fun _ => .ok ())

def createMessage : Call Unit := do
  let sent ← folderNames "sent"
  let selected ← query Connection.selectedFolder
  if selected.all (fun name => name ∉ sent) then .raise .assertionError
  else call .ask (fun _ => .ok ())

def fetchHeaders (folder : String) (uids : List Nat) : Call Unit :=
  .each (chunk uids 100) (fun _ => uidCommand folder)

/-- The UIDs with a header, and the folder that they are UIDs of. Gmail can search for it; other
servers have the headers of all messages fetched. -/
def findByHeader : Provider → Call (String × List Nat)
  | .gmail => search
  | .generic => do
    let (folder, allUids) ← search
    fetchHeaders folder allUids
    let results ← query (fun s => s.reply.found)
    .ret (folder, results)

def deleteUids (folder : String) : Call Unit := do
  uidCommand folder
  uidCommand folder

def deleteMessage (provider : Provider) (deleteMultiple : Bool) : Call Bool := do
  let (folder, matchingUids) ← findByHeader provider
  if matchingUids = [] then .ret false
  else if 1 < matchingUids.length ∧ ¬ deleteMultiple then .ret false
  else do
    uidCommand folder
    uidCommand folder
    .ret true

def deleteSentMessageGeneric (deleteMultiple : Bool) : Call Bool := do
  let sentFolderName ← (folderNames "sent").bind first
  selectDirectly sentFolderName
  let msgDeleted ← deleteMessage .generic deleteMultiple
  if msgDeleted then do
    let trashFolderName ← (folderNames "trash").bind first
    selectDirectly trashFolderName
    let _ ← deleteMessage .generic deleteMultiple
    .ret msgDeleted
  else .ret msgDeleted

def deleteDraftGeneric : Call Bool := do
  let draftsFolderName ← (folderNames "drafts").bind first
  selectDirectly draftsFolderName
  let draftDeleted ← deleteMessage .generic false
  if draftDeleted then do
    let trashFolderName ← (folderNames "trash").bind first
    selectDirectly trashFolderName
    let _ ← deleteMessage .generic false
    .ret draftDeleted
  else .ret draftDeleted

/-- `g_msgids`: the FETCH that asks for `X-GM-MSGID`. -/
def gMsgids (folder : String) : Call (List Nat) :=
  call (.uid folder) fun s => if s.server = none then .error .imapError else .ok s.reply.gMsgids

def deleteDraftGmail : Call Bool := do
  let draftsFolderName ← (folderNames "drafts").bind first
  let trashFolderName ← (folderNames "trash").bind first
  let sentFolderName ← (folderNames "sent").bind first
  selectDirectly sentFolderName
  let (sent, matchingUids) ← findByHeader .gmail
  if matchingUids = [] then .raise .draftDeletion
  else do
    let sentGmMsgids ← gMsgids sent
    if sentGmMsgids.length ≠ 1 then .raise .draftDeletion
    else do
      selectDirectly draftsFolderName
      let (drafts, matchingUids) ← findByHeader .gmail
      if matchingUids = [] then .ret false
      else do
        uidCommand drafts
        uidCommand drafts
        let gmMsgids ← gMsgids drafts
        if gmMsgids.any (fun msgid => msgid ∈ sentGmMsgids) then .raise .draftDeletion
        else do
          uidCommand drafts
          selectDirectly trashFolderName
          .each gmMsgids fun _ => do
            let (trash, _) ← search
            uidCommand trash
          uidCommand trashFolderName
          .ret true

def deleteSentMessageGmail (deleteMultiple : Bool) : Call Bool := do
  let sentFolderName ← (folderNames "sent").bind first
  let trashFolderName ← (folderNames "trash").bind first
  selectDirectly sentFolderName
  let (sent, matchingUids) ← findByHeader .gmail
  if matchingUids = [] then .ret false
  else do
    uidCommand sent
    selectDirectly trashFolderName
    let _ ← deleteMessage .gmail deleteMultiple
    .ret true

def deleteDraft : Provider → Call Bool
  | .generic => deleteDraftGeneric
  | .gmail => deleteDraftGmail

def deleteSentMessage : Provider → Bool → Call Bool
  | .generic, deleteMultiple => deleteSentMessageGeneric deleteMultiple
  | .gmail, deleteMultiple => deleteSentMessageGmail deleteMultiple

end Crispin
end SyncEngine
