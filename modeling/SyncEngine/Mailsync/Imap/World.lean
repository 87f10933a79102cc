import SyncEngine.Cooperative.Routine
import SyncEngine.Mailsync.SyncRun
import SyncEngine.Mailsync.Imap.Status

/-! What the routines of one folder engine act on: the server's mailbox, the database, and the
attributes of the engine object. A command is one IMAP exchange, one transaction, or one
assignment; between two commands of a greenlet other greenlets run. -/
namespace SyncEngine
namespace Imap

/-! ## The server -/

/-- The flags that a message had from one change on. -/
structure Version where
  flags : List String
  labels : Option (List String)
  modseq : Nat
deriving DecidableEq, Repr

structure Content where
  body : Option String
  gThrid : Option Nat
  gMsgid : Option Nat
deriving DecidableEq, Repr

/-- The messages of the folder under one UIDVALIDITY. UIDs are positive and below UIDNEXT, and
each change of a message has a larger modseq than the one before. -/
structure Mailbox where
  uidnext : Nat
  highestmodseq : Nat
  /-- Newest first; a UID without versions was never given out. -/
  history : Nat → List Version
  expunged : Nat → Bool
  content : Nat → Content
  below : ∀ uid, history uid ≠ [] → 0 < uid ∧ uid < uidnext
  newest : ∀ uid, (history uid).Pairwise (fun new old => old.modseq < new.modseq)

namespace Mailbox

def current (mailbox : Mailbox) (uid : Nat) : Option Version :=
  if mailbox.expunged uid then none else (mailbox.history uid).head?

def Exists (mailbox : Mailbox) (uid : Nat) : Prop := (mailbox.current uid).isSome

instance : Decidable (Mailbox.Exists mailbox uid) := inferInstanceAs (Decidable (_ = true))

/-- `all_uids()`, sorted as the client sorts it. -/
def allUids (mailbox : Mailbox) : List Nat :=
  (List.range mailbox.uidnext).filter (fun uid => mailbox.Exists uid)

/-- `fetch('{first}:*', ['UID']).keys()`: the range has the largest UID even when it lies below
`first`. -/
def uidsFrom (mailbox : Mailbox) (first : Nat) : List Nat :=
  mailbox.allUids.filter (fun uid => min first (mailbox.allUids.foldr max 0) ≤ uid)

end Mailbox

/-- What the server sends when the body of a message is fetched. -/
inductive Delivery where
  | whole
  /-- `[UNAVAILABLE] UID FETCH Server error while fetching messages` -/
  | unavailable
  /-- A response that holds `SEQ` and nothing else. -/
  | bare
  | emptyBody
  | fails (fault : Fault)
deriving DecidableEq, Repr

structure Server where
  uidvalidity : Nat
  /-- The mailbox of each UIDVALIDITY: a session goes on with the one it selected. -/
  mailbox : Nat → Mailbox
  /-- How the next command fails, if it does. -/
  fault : Option Fault
  delivery : Nat → Delivery
  /-- Whether the STATUS response can be parsed and has UIDNEXT, and whether that of SELECT has. -/
  statusUidnext : Bool
  selectUidnext : Bool
  condstore : Bool
  idles : Bool
  /-- The order in which a response lists its UIDs. -/
  arrange : List Nat → List Nat
  arrange_perm : ∀ uids, (arrange uids).Perm uids
  /-- The rounds of UIDs that the Gmail engine's thread expansion asks for. -/
  rounds : List (List Nat)

/-- The `select_info` of a selected folder. -/
structure Session where
  uidvalidity : Nat
  uidnext : Option Nat
deriving DecidableEq, Repr

namespace Server

def selectInfo (server : Server) : Session where
  uidvalidity := server.uidvalidity
  uidnext := if server.selectUidnext then some (server.mailbox server.uidvalidity).uidnext else none

def folder (server : Server) (session : Session) : Mailbox := server.mailbox session.uidvalidity

/-- `condstore_changed_flags(modseq)`, as the items of a dictionary. -/
def changedFlags (server : Server) (session : Session) (modseq : Nat) : List (Nat × Flags) :=
  (server.arrange (server.folder session).allUids).filterMap fun uid =>
    match (server.folder session).current uid with
    | none => none
    | some version =>
      if modseq < version.modseq then
        some (uid, { flags := version.flags, labels := version.labels, modseq := some version.modseq })
      else none

/-- `flags(uids)` -/
def flagsOf (server : Server) (session : Session) (uids : List Nat) : List (Nat × Flags) :=
  (server.arrange (server.folder session).allUids).filterMap fun uid =>
    if uid ∈ uids then
      ((server.folder session).current uid).map fun version =>
        (uid, { flags := version.flags, labels := version.labels, modseq := none })
    else none

/-- What one FETCH of a body brings. -/
def deliver (server : Server) (session : Session) (uid : Nat) : Except Fault (List RawMessage) :=
  match (server.folder session).current uid with
  | none => .ok []
  | some version =>
    let content := (server.folder session).content uid
    let msg : RawMessage :=
      { uid, flags := version.flags, body := content.body, gThrid := content.gThrid
        gMsgid := content.gMsgid, gLabels := version.labels
        uidvalidity := session.uidvalidity, modseq := version.modseq }
    match server.delivery uid with
    | .whole => .ok [msg]
    | .emptyBody => .ok [{ msg with body := none }]
    | .unavailable => .ok []
    | .bare => .ok []
    | .fails fault => .error fault

end Server

/-! ## The database and the engine object -/

structure ImapFolderInfo where
  uidvalidity : Nat
  highestmodseq : Option Nat
  uidnext : Option Nat
  lastSlowRefresh : Option Nat
deriving DecidableEq, Repr

/-- The attributes of the row that the engine keeps a copy of. -/
inductive Column where
  | uidvalidity
  | highestmodseq
  | uidnext
  | lastSlowRefresh
deriving DecidableEq, Repr

/-- `setattr(imapfolderinfo, attrname, value)` -/
inductive Write where
  | uidvalidity (value : Nat)
  | highestmodseq (value : Option Nat)
  | uidnext (value : Option Nat)
  | lastSlowRefresh (value : Option Nat)
deriving DecidableEq, Repr

def Write.column : Write → Column
  | .uidvalidity _ => .uidvalidity
  | .highestmodseq _ => .highestmodseq
  | .uidnext _ => .uidnext
  | .lastSlowRefresh _ => .lastSlowRefresh

def ImapFolderInfo.write (info : ImapFolderInfo) : Write → ImapFolderInfo
  | .uidvalidity value => { info with uidvalidity := value }
  | .highestmodseq value => { info with highestmodseq := value }
  | .uidnext value => { info with uidnext := value }
  | .lastSlowRefresh value => { info with lastSlowRefresh := value }

def ImapFolderInfo.read (info : ImapFolderInfo) : Column → Write
  | .uidvalidity => .uidvalidity info.uidvalidity
  | .highestmodseq => .highestmodseq info.highestmodseq
  | .uidnext => .uidnext info.uidnext
  | .lastSlowRefresh => .lastSlowRefresh info.lastSlowRefresh

structure Store where
  db : Db
  /-- The `ImapFolderInfo` row of the folder. -/
  info : Option ImapFolderInfo
  /-- How the next transaction fails, if it does. -/
  fault : Option DbFault

/-- The engine's own greenlet, and the one that `initial_sync_impl` spawns. -/
inductive Greenlet where
  | engine
  | poller
deriving DecidableEq, Repr

/-- The attributes of a `FolderSyncEngine`; an outer `none` means the attribute is not set. -/
structure Memory where
  uidvalidity : Option Nat
  highestmodseq : Option (Option Nat)
  uidnext : Option (Option Nat)
  lastSlowRefresh : Option (Option Nat)
  lastFastRefresh : Option Nat
  flagsFetchResults : Nat → Option (List Nat × List (Nat × Flags))

def Memory.fresh : Memory where
  uidvalidity := none
  highestmodseq := none
  uidnext := none
  lastSlowRefresh := none
  lastFastRefresh := none
  flagsFetchResults _ := none

def Memory.cache (memory : Memory) : Write → Memory
  | .uidvalidity value => { memory with uidvalidity := some value }
  | .highestmodseq value => { memory with highestmodseq := some value }
  | .uidnext value => { memory with uidnext := some value }
  | .lastSlowRefresh value => { memory with lastSlowRefresh := some value }

/-- What no routine reads: it is there to say what happened. -/
structure Trace where
  /-- Messages that a greenlet has fetched and not yet committed. -/
  inHand : Greenlet → List RawMessage
  /-- The UIDs whose body was asked for, and whether a message with a body came. -/
  attempts : List (Nat × Bool)
  /-- A property setter has done one of its two halves. -/
  setting : Option Write
  polling : Bool
  /-- The UIDVALIDITYs since the engine started, the present one first. -/
  epochs : List Nat
  /-- The UIDVALIDITYs for which a resync has been completed. -/
  resynced : List Nat
  /-- The UIDs whose changes were noted as not stored yet. -/
  waiting : Nat → Bool

def Trace.fresh (uidvalidity : Nat) : Trace where
  inHand _ := []
  attempts := []
  setting := none
  polling := false
  epochs := [uidvalidity]
  resynced := []
  waiting _ := false

structure World where
  server : Server
  store : Store
  memory : Memory
  status : Status
  trace : Trace
  /-- `datetime.utcnow()` in seconds. -/
  now : Nat

/-- The engine of one folder. -/
structure FolderSyncEngine where
  folderId : Nat
  folderRole : String
  lookups : Lookups

/-! ## Commands -/

inductive Command where
  /-- A command or a query that only answers. -/
  | ask
  | fetch (greenlet : Greenlet) (session : Session) (uid : Nat)
  /-- The transaction that saves the messages in hand. -/
  | save (greenlet : Greenlet) (rawMessages : List RawMessage)
  /-- Gmail's two kinds of transactions that save a message. -/
  | saveKnown (msg : RawMessage)
  | saveNew (msg : RawMessage)
  /-- The query of `update_metadata` for the rows that `newFlags` names. -/
  | lookup (newFlags : List (Nat × Flags))
  | updateItem (uid : Nat) (newFlags : Flags)
  | removeUid (uid : Nat)
  | load (column : Column)
  /-- `self._column = value` -/
  | cache (write : Write)
  /-- `_update_imap_folder_info` -/
  | write (write : Write)
  | createInfo (session : Session)
  /-- Gmail's resync: UIDs by `X-GM-MSGID`, and the row of the folder. -/
  | remap (session : Session) (mapping : Nat → Option Nat)
  | resynced (uidvalidity : Nat)
  /-- For the trace only: the changes of these UIDs are not stored before the next modseq. -/
  | note (waiting : Nat → Bool)
  | remember (lastFastRefresh : Option Nat)
  | rememberFlags (maxUids : Nat) (localUids : List Nat) (flags : List (Nat × Flags))
  | spawn
  | kill

namespace World

/-- A transaction: refused, it changes nothing; otherwise it is committed. -/
def commit (w : World) (change : Store → Store) : World :=
  match w.store.fault with
  | some .refused => w
  | _ => { w with store := change w.store }

def rows (w : World) (self : FolderSyncEngine) : List ImapUid := w.store.db.rows self.folderId

/-- The stored UIDVALIDITY. -/
def epoch (w : World) : Option Nat := w.store.info.map ImapFolderInfo.uidvalidity

def attempted (uid : Nat) : Except Fault (List RawMessage) → List (Nat × Bool)
  | .error _ => []
  | .ok messages => [(uid, messages.any (fun msg => msg.body.isSome))]

/-- The two halves of a property setter, of which `_highestmodseq` comes first and the others
last. -/
def setting (w : World) : Command → Option Write
  | .cache (.highestmodseq value) => some (.highestmodseq value)
  | .cache _ => none
  | .write (.highestmodseq _) => none
  | .write write =>
    if w.store.fault = none ∧ w.store.info.isSome then some write else w.trace.setting
  | _ => w.trace.setting

def perform (self : FolderSyncEngine) : Command → World → World
  | .ask, w => w
  | .lookup _, w => w
  | .fetch greenlet session uid, w =>
    match w.server.fault with
    | some _ => w
    | none =>
      let delivered := w.server.deliver session uid
      { w with trace :=
        { w.trace with
          inHand := fun other =>
            if other = greenlet then w.trace.inHand other ++ delivered.toOption.getD []
            else w.trace.inHand other
          attempts := w.trace.attempts ++ attempted uid delivered } }
  | .save greenlet rawMessages, w =>
    { w.commit (fun store => { store with
        db := CreateMessage.commitMessages self.lookups w.now self.folderId self.folderRole
          rawMessages store.db }) with
      trace := { w.trace with
        inHand := fun other => if other = greenlet then [] else w.trace.inHand other } }
  | .saveKnown msg, w =>
    w.commit fun store => { store with
      db := ((CreateMessage.deduplicate self.lookups w.now self.folderId msg store.db).map
        Prod.fst).getD store.db }
  | .saveNew msg, w =>
    w.commit fun store => { store with
      db := (CreateMessage.createMessage self.lookups
        (CreateMessage.addMessageToThreadGmail self.lookups) w.now self.folderId self.folderRole msg
        store.db).1 }
  | .updateItem uid newFlags, w =>
    w.commit fun store => { store with
      db := Common.updateMetadataItem self.lookups w.now self.folderId self.folderRole uid newFlags
        store.db }
  | .removeUid uid, w =>
    w.commit fun store => { store with
      db := Common.removeDeletedUid w.now self.folderId uid store.db }
  | .load column, w =>
    match w.store.fault, w.store.info with
    | none, some info => { w with memory := w.memory.cache (info.read column) }
    | _, _ => w
  | .cache write, w =>
    { w with
      memory := w.memory.cache write
      trace := { w.trace with setting := w.setting (.cache write) } }
  | .write write, w =>
    { w.commit (fun store => { store with info := store.info.map (fun info => info.write write) }) with
      trace := { w.trace with setting := w.setting (.write write) } }
  | .createInfo session, w =>
    w.commit fun store => { store with
      info := some (store.info.getD
        { uidvalidity := session.uidvalidity, highestmodseq := none, uidnext := session.uidnext
          lastSlowRefresh := none }) }
  | .remap session mapping, w =>
    w.commit fun store =>
      match Gmail.remapUids self.folderId mapping store.db with
      | none => store
      | some db => { store with
          db, info := store.info.map fun info =>
            { info with uidvalidity := session.uidvalidity, highestmodseq := none } }
  | .resynced uidvalidity, w =>
    { w with trace := { w.trace with resynced := uidvalidity :: w.trace.resynced } }
  | .note waiting, w => { w with trace := { w.trace with waiting } }
  | .remember lastFastRefresh, w => { w with memory := { w.memory with lastFastRefresh } }
  | .rememberFlags maxUids localUids flags, w =>
    { w with memory := { w.memory with
        flagsFetchResults := fun limit =>
          if limit = maxUids then some (localUids, flags) else w.memory.flagsFetchResults limit } }
  | .spawn, w => { w with trace := { w.trace with polling := true } }
  | .kill, w =>
    { w with trace := { w.trace with
        polling := false
        setting := none
        inHand := fun other => if other = .poller then [] else w.trace.inHand other } }

/-! ## What the commands leave alone -/
section Frame
variable (self : FolderSyncEngine) (w : World)

@[simp] theorem commit_server (change : Store → Store) : (w.commit change).server = w.server := by
  unfold commit
  split <;> rfl

@[simp] theorem commit_memory (change : Store → Store) : (w.commit change).memory = w.memory := by
  unfold commit
  split <;> rfl

@[simp] theorem commit_trace (change : Store → Store) : (w.commit change).trace = w.trace := by
  unfold commit
  split <;> rfl

@[simp] theorem commit_status (change : Store → Store) : (w.commit change).status = w.status := by
  unfold commit
  split <;> rfl

@[simp] theorem perform_server (command : Command) : (perform self command w).server = w.server := by
  cases command with
  | fetch | load => unfold perform; dsimp only; split <;> rfl
  | _ => simp [perform]

@[simp] theorem perform_status (command : Command) : (perform self command w).status = w.status := by
  cases command with
  | fetch | load => unfold perform; dsimp only; split <;> rfl
  | _ => simp [perform]

end Frame

end World

/-! ## A small world -/
namespace Trial

def self : FolderSyncEngine where
  folderId := 1
  folderRole := "inbox"
  lookups := SyncEngine.Sample.lookups

/-- Each UID below UIDNEXT has been given to a message with one version. -/
def mailbox (uidnext highestmodseq : Nat) (version : Nat → Version) : Mailbox where
  uidnext
  highestmodseq
  history uid := if 0 < uid ∧ uid < uidnext then [version uid] else []
  expunged _ := false
  content _ := { body := some "Hi", gThrid := none, gMsgid := none }
  below uid given := by
    by_contra outside
    exact given (if_neg outside)
  newest uid := by
    split
    · exact List.pairwise_singleton _ _
    · exact List.Pairwise.nil

def server (uidvalidity : Nat) (mailbox : Mailbox) : Server where
  uidvalidity
  mailbox _ := mailbox
  fault := none
  delivery _ := .whole
  statusUidnext := true
  selectUidnext := true
  condstore := true
  idles := false
  arrange uids := uids
  arrange_perm _ := List.Perm.refl _
  rounds := []

def info (uidvalidity : Nat) : ImapFolderInfo where
  uidvalidity
  highestmodseq := none
  uidnext := none
  lastSlowRefresh := none

/-- A process that has just started, with nothing saved but the row of the folder. -/
def world (server : Server) (info : Option ImapFolderInfo) : World where
  server
  store := { db := SyncEngine.Sample.account, info, fault := none }
  memory := Memory.fresh
  status := { state := "initial", uidinvalidCount := 0, saved := some "initial"
              account := { syncShouldRun := true, syncState := "running", syncDisabledReason := none } }
  trace := Trace.fresh server.uidvalidity
  now := 0

end Trial

end Imap
end SyncEngine
