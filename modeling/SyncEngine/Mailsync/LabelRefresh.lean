import SyncEngine.Mailsync.GmailLabels
import SyncEngine.Models.ImapUid
import SyncEngine.Util.Itert

/-! The refresh of UIDs that follows a renamed label of a Gmail account: the account monitor that
starts it, the handlers that carry it out one after the other, and the engines beside them. -/
namespace SyncEngine
namespace Naming
namespace LabelRefresh
open Naming.Gmail

/-- A message in a folder on the server, with its `X-GM-LABELS`. -/
structure Mail where
  folder : Nat
  uid : Nat
  labels : List Unicode
deriving DecidableEq, Repr

/-- What the server holds. A folder is given by the id of its row. -/
structure Server where
  listing : List RawFolder
  mails : List Mail
deriving DecidableEq, Repr

namespace Server

def mail? (server : Server) (folder uid : Nat) : Option Mail :=
  server.mails.find? fun mail => mail.folder = folder ∧ mail.uid = uid

def labels (server : Server) (folder uid : Nat) : List Unicode :=
  ((server.mail? folder uid).map Mail.labels).getD []

/-- `search_uids(['X-GM-LABELS', label_name])` -/
def searchUids (server : Server) (folder : Nat) (labelName : Unicode) : List Nat :=
  (((server.mails.filter (·.folder = folder)).map Mail.uid).filter
    (labelName ∈ server.labels folder ·)).insertionSort (· ≤ ·)

def flags (server : Server) (folder : Nat) (uids : List Nat) : List (Nat × List Unicode) :=
  uids.filterMap fun uid => (server.mail? folder uid).map fun mail => (uid, mail.labels)

/-- A rename changes the list and what the messages carry, and no flag. -/
def rename (server : Server) (old new : Unicode) : Server :=
  { listing := server.listing.map fun raw =>
      if raw.role = none ∧ raw.displayName = old then { raw with displayName := new } else raw
    mails := server.mails.map fun mail =>
      { mail with labels := mail.labels.map fun label => if label = old then new else label } }

end Server

/-- A row of `ImapUid`, with the ids of the rows in `labels`. -/
structure ImapUid where
  folderId : Nat
  msgUid : Nat
  labels : List Nat
deriving DecidableEq, Repr

/-- The name and role of a label that the server lists. -/
def remoteLabel (label : Unicode) : Option (Unicode × Option String) :=
  if label = "\\Draft".toList ∨ label = "\\Starred".toList then none
  else match SyncEngine.ImapUid.categoryMap.lookup (String.ofList label) with
    | some name => some (name.toList, some name)
    | none => some (label, none)

def addLabel (s : Tables × List Nat) (key : Unicode × Option String) :
    Except Error (Tables × List Nat) := do
  let (t, label) ← s.1.findOrCreateLabel key.1 key.2
  return (t, if label.id ∈ s.2 then s.2 else s.2 ++ [label.id])

instance : LawfulBEq (Unicode × Option String) := Prod.instLawfulBEq

/-- `ImapUid.update_labels`; the result is the tables and the labels attached. -/
def updateLabels (t : Tables) (labels : List Nat) (newLabels : List Unicode) :
    Except Error (Tables × List Nat) :=
  let remote := (newLabels.filterMap remoteLabel).dedup
  let localKey := fun id => (t.labels.find? (·.id = id)).map fun label =>
    (label.name, some label.canonicalName)
  let kept := labels.filter fun id => (localKey id).any (· ∈ remote)
  let add := remote.filter (· ∉ labels.filterMap localKey)
  add.foldlM addLabel (t, kept)

/-- Where a `LabelRenameHandler` is that holds the semaphore. -/
inductive Phase where
  | folders (rest : List Nat)
  | chunks (folder : Nat) (chunks : List (List Nat)) (rest : List Nat)
  /-- The flags of a chunk have come. -/
  | flags (folder : Nat) (flags : List (Nat × List Unicode)) (chunks : List (List Nat)) (rest : List Nat)
  /-- `update_metadata` has its rows, and commits after each. -/
  | rows (folder : Nat) (rows : List (Nat × List Unicode)) (chunks : List (List Nat)) (rest : List Nat)
deriving DecidableEq, Repr

structure Handler where
  labelName : Unicode
  phase : Phase
deriving DecidableEq, Repr

/-- Where the account monitor is in `prepare_sync`. -/
inductive Monitor where
  | idle
  | listed (remoteFolders : List RawFolder)
  /-- New labels are committed; `fresh` are those whose handlers are still to be started. -/
  | starting (remoteFolders : List RawFolder) (oldLabels currentLabels fresh : List Nat)
deriving DecidableEq, Repr

def Monitor.fresh : Monitor → List Nat
  | .starting _ _ _ fresh => fresh
  | _ => []

/-- Labels that a folder's engine has from the server and has not committed, for a new message or
for one that has a row. -/
structure Reading where
  download : Bool
  folder : Nat
  uid : Nat
  labels : List Unicode
deriving DecidableEq, Repr

structure State where
  server : Server
  tables : Tables
  uids : List ImapUid
  -- What follows is in the memory of the process.
  savedRemoteFolders : Option (List RawFolder)
  monitor : Monitor
  /-- The labels of the handlers that have not acquired the semaphore. -/
  waiting : List Unicode
  active : Option Handler
  readings : List Reading
deriving DecidableEq, Repr

namespace State

def initial (server : Server) : State := ⟨server, Tables.empty, [], none, .idle, [], none, []⟩

def uid? (s : State) (folder uid : Nat) : Option ImapUid :=
  s.uids.find? fun row => row.folderId = folder ∧ row.msgUid = uid

def prepareSync (s : State) : State :=
  match s.monitor with
  | .idle =>
    if s.savedRemoteFolders ≠ some s.server.listing then { s with monitor := .listed s.server.listing }
    else s
  | _ => s

/-- `save_folder_names`, to its first commit. -/
def commitLabels (s : State) : State :=
  match s.monitor with
  | .listed remoteFolders =>
    let oldLabels := liveLabels s.tables
    match remoteFolders.foldlM saveEntry (s.tables, []) with
    | .ok (tables, currentLabels) =>
      -- Nothing is refreshed the first time that folders are synced.
      let fresh := if oldLabels = [] then [] else (currentLabels.filter (· ∉ oldLabels)).dedup
      { s with tables, monitor := .starting remoteFolders oldLabels currentLabels fresh }
    | .error _ => { s with monitor := .idle }
  | _ => s

def startHandler (s : State) : State :=
  match s.monitor with
  | .starting remoteFolders oldLabels currentLabels (id :: fresh) =>
    match s.tables.labels.find? (·.id = id) with
    | some label =>
      { s with
          monitor := .starting remoteFolders oldLabels currentLabels fresh
          waiting := s.waiting ++ [label.name] }
    | none => { s with monitor := .idle }
  | _ => s

/-- The rest of `save_folder_names`. -/
def finish (now : Nat) (s : State) : State :=
  match s.monitor with
  | .starting remoteFolders oldLabels currentLabels [] =>
    { s with
        tables := markDeletedLabels now (deletedLabels oldLabels currentLabels s.tables)
          (setSyncShouldRunBit s.tables)
        savedRemoteFolders := some remoteFolders
        monitor := .idle }
  | _ => s

/-- Of the handlers that wait, any may acquire the semaphore. -/
def acquire (k : Nat) (s : State) : State :=
  match s.active, s.waiting[k]? with
  | none, some labelName =>
    { s with
        waiting := s.waiting.eraseIdx k
        active := some ⟨labelName, .folders (s.tables.folders.map Folder.id)⟩ }
  | _, _ => s

/-- `update_metadata` for one row. -/
def updateMetadata (s : State) (folder uid : Nat) (labels : List Unicode) : Option State := do
  let row ← s.uid? folder uid
  let (tables, held) ← (updateLabels s.tables row.labels labels).toOption
  return { s with
    tables
    uids := s.uids.map fun row =>
      if row.folderId = folder ∧ row.msgUid = uid then { row with labels := held } else row }

/-- The handler releases the semaphore and begins again later. -/
def retry (s : State) : State :=
  { s with active := none, waiting := s.waiting ++ (s.active.map Handler.labelName).toList }

/-- `LabelRenameHandler._run_impl`, to where it next waits for the server or the database. -/
def refresh (s : State) : State :=
  match s.active with
  | none => s
  | some ⟨labelName, phase⟩ =>
    match phase with
    | .folders [] => { s with active := none }
    | .folders (folder :: rest) =>
      let chunks := chunk (s.server.searchUids folder labelName) 200
      { s with active := some ⟨labelName, .chunks folder chunks rest⟩ }
    | .chunks _ [] rest => { s with active := some ⟨labelName, .folders rest⟩ }
    | .chunks folder (uids :: chunks) rest =>
      { s with active := some ⟨labelName, .flags folder (s.server.flags folder uids) chunks rest⟩ }
    | .flags folder flags chunks rest =>
      let rows := flags.filter fun (uid, _) => (s.uid? folder uid).isSome
      { s with active := some ⟨labelName, .rows folder rows chunks rest⟩ }
    | .rows folder [] chunks rest => { s with active := some ⟨labelName, .chunks folder chunks rest⟩ }
    | .rows folder ((uid, labels) :: rows) chunks rest =>
      match s.updateMetadata folder uid labels with
      | some later => { later with active := some ⟨labelName, .rows folder rows chunks rest⟩ }
      | none => s.retry

/-- An engine reads the labels of a message. -/
def read (download : Bool) (folder uid : Nat) (s : State) : State :=
  match s.server.mail? folder uid with
  | some mail => { s with readings := s.readings ++ [⟨download, folder, uid, mail.labels⟩] }
  | none => s

/-- A message that is new to the folder. -/
def createImapUid (s : State) (folder uid : Nat) (labels : List Unicode) : State :=
  if folder ∈ s.tables.folders.map Folder.id then
    match updateLabels s.tables [] labels with
    | .ok (tables, held) => { s with tables, uids := s.uids ++ [⟨folder, uid, held⟩] }
    | .error _ => s
  else s

/-- An engine commits what it has read. -/
def commit (k : Nat) (s : State) : State :=
  match s.readings[k]? with
  | none => s
  | some reading =>
    let s := { s with readings := s.readings.eraseIdx k }
    match s.uid? reading.folder reading.uid with
    | some _ =>
      if reading.download then s
      else (s.updateMetadata reading.folder reading.uid reading.labels).getD s
    | none => if reading.download then s.createImapUid reading.folder reading.uid reading.labels else s

def removeDeletedUid (folder uid : Nat) (s : State) : State :=
  { s with uids := s.uids.filter fun row => ¬ (row.folderId = folder ∧ row.msgUid = uid) }

/-- Rows go with the categories that are collected. -/
def gcDeletedCategories (associated : Nat → Bool) (s : State) : State :=
  let tables := Gmail.gcDeletedCategories associated s.tables
  { s with
      tables
      uids := (s.uids.filter (·.folderId ∈ tables.folders.map Folder.id)).map fun row =>
        { row with labels := row.labels.filter (· ∈ tables.labels.map Label.id) } }

/-- The process dies and is started again. -/
def restart (s : State) : State :=
  { s with savedRemoteFolders := none, monitor := .idle, waiting := [], active := none, readings := [] }

end State

inductive Turn where
  | rename (old new : Unicode)
  /-- Any other change on the server. -/
  | serverChange (later : Server)
  | prepareSync
  | commitLabels
  | startHandler
  | finish (now : Nat)
  /-- An exception ends the monitor's pass, which is tried again. -/
  | monitorFails
  | acquire (k : Nat)
  | refresh
  /-- An exception in the handler that holds the semaphore. -/
  | refreshFails
  | read (download : Bool) (folder uid : Nat)
  | commit (k : Nat)
  | removeDeletedUid (folder uid : Nat)
  | gcDeletedCategories (associated : Nat → Bool)
  | restart

def State.turn (s : State) : Turn → State
  | .rename old new => { s with server := s.server.rename old new }
  | .serverChange later => { s with server := later }
  | .prepareSync => s.prepareSync
  | .commitLabels => s.commitLabels
  | .startHandler => s.startHandler
  | .finish now => s.finish now
  | .monitorFails => { s with monitor := .idle }
  | .acquire k => s.acquire k
  | .refresh => s.refresh
  | .refreshFails => s.retry
  | .read download folder uid => s.read download folder uid
  | .commit k => s.commit k
  | .removeDeletedUid folder uid => s.removeDeletedUid folder uid
  | .gcDeletedCategories associated => s.gcDeletedCategories associated
  | .restart => s.restart

def run (server : Server) (turns : List Turn) : State := turns.foldl State.turn (State.initial server)

end LabelRefresh
end Naming
end SyncEngine
