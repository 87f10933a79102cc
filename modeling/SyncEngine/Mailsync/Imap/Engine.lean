import SyncEngine.Mailsync.Imap.World
import SyncEngine.Util.Itert

/-! The routines of a folder engine, command by command. Acquiring `syncmanager_lock` is left out:
the engine's other greenlet never waits for it longer than one command of this model. -/
namespace SyncEngine
namespace Imap
open Cooperative

abbrev Call (α : Type) := Routine World Command Exc α

def CONDSTORE_FLAGS_REFRESH_BATCH_SIZE : Nat := 200
def SLOW_FLAGS_REFRESH_LIMIT : Nat := 2000
def FAST_FLAGS_REFRESH_LIMIT : Nat := 100
def SLOW_REFRESH_INTERVAL : Nat := 3600
def FAST_REFRESH_INTERVAL : Nat := 30

/-! ## Commands and their answers -/

/-- An IMAP command answers, or fails. -/
def remote (command : Command) (answer : Server → Except Fault α) : Call α :=
  .issue command fun w =>
    match w.server.fault with
    | some fault => .error fault.exc
    | none => (answer w.server).mapError Fault.exc

def imap (answer : Server → α) : Call α := remote .ask (fun server => .ok (answer server))

/-- A transaction answers from the state it finds; `refused` says that the database rejects it. -/
def transact (command : Command) (answer : World → Option α) : Call α :=
  .issue command fun w =>
    match w.store.fault, answer w with
    | none, some value => .ok value
    | _, _ => .error .error

def query (answer : World → α) : Call α := transact .ask (fun w => some (answer w))

/-- Something the engine reads of itself. -/
def own (answer : World → α) : Call α := .issue .ask (fun w => .ok (answer w))

def local_ (command : Command) : Call Unit := .issue command (fun _ => .ok ())

/-! ## Attributes of the row -/

/-- A property getter: the copy, or the row, of which a copy is then kept. -/
def load (column : Column) (copy : Memory → Option α) (row : ImapFolderInfo → α) : Call α :=
  .step .ask fun w =>
    match copy w.memory with
    | some value => .ret value
    | none => transact (.load column) (fun w => w.store.info.map row)

def uidvalidity : Call Nat := load .uidvalidity Memory.uidvalidity ImapFolderInfo.uidvalidity
def uidnext : Call (Option Nat) := load .uidnext Memory.uidnext ImapFolderInfo.uidnext
def highestmodseq : Call (Option Nat) :=
  load .highestmodseq Memory.highestmodseq ImapFolderInfo.highestmodseq
def lastSlowRefresh : Call (Option Nat) :=
  load .lastSlowRefresh Memory.lastSlowRefresh ImapFolderInfo.lastSlowRefresh

def updateImapFolderInfo (write : Write) : Call Unit :=
  transact (.write write) (fun w => w.store.info.map fun _ => ())

/-- The setters that write the row first. -/
def setAttribute (write : Write) : Call Unit := do
  updateImapFolderInfo write
  local_ (.cache write)

/-- Which changes are not stored when the modseq is. No routine reads it. -/
def noteWaiting (waiting : Nat → Bool) : Call Unit := local_ (.note waiting)

/-- The setter of `highestmodseq` keeps the copy first. -/
def setHighestmodseq (value : Option Nat) : Call Unit := do
  local_ (.cache (.highestmodseq value))
  updateImapFolderInfo (.highestmodseq value)

/-! ## Selecting -/

/-- `lambda *args: True` -/
def noCb (_ : Session) : Call Unit := .ret ()

/-- The engine's own callback, against the copy. -/
def uidvalidityCb (session : Session) : Call Unit := do
  let cached ← uidvalidity
  if session.uidvalidity ≤ cached then .ret ()
  else .raise (.uidInvalid session.uidvalidity cached)

/-- The callback of the module, against the row. -/
def moduleUidvalidityCb (session : Session) : Call Unit := do
  let saved ← query (fun w => w.store.info.map ImapFolderInfo.uidvalidity)
  match saved with
  | none => .ret ()
  | some saved =>
    if session.uidvalidity ≤ saved then .ret ()
    else .raise (.uidInvalid session.uidvalidity saved)

def selectFolder (cb : Session → Call Unit) : Call Session := do
  let session ← imap Server.selectInfo
  cb session
  .ret session

variable (self : FolderSyncEngine)

/-! ## Downloading -/

/-- `crispin_client.uids(uids)` -/
def fetchUids (greenlet : Greenlet) (session : Session) : List Nat → Call (List RawMessage)
  | [] => .ret []
  | uid :: rest => do
    let messages ← remote (.fetch greenlet session uid) (fun server => server.deliver session uid)
    let others ← fetchUids greenlet session rest
    .ret (messages ++ others)

def downloadAndCommitUids (greenlet : Greenlet) (session : Session) (uids : List Nat) :
    Call Unit := do
  let rawMessages ← fetchUids greenlet session uids
  if rawMessages = [] then .ret ()
  else transact (.save greenlet rawMessages) (fun _ => some ())

/-- The Gmail engine commits each message by itself: those that are already known first. -/
def downloadAndCommitUidsGmail (greenlet : Greenlet) (session : Session) (uids : List Nat) :
    Call Unit := do
  let rawMessages ← fetchUids greenlet session uids
  if rawMessages = [] then .ret ()
  else do
    let known ← query fun w => rawMessages.filter fun msg =>
      w.store.db.messages.any (fun message => message.gMsgid = msg.gMsgid)
    .each known fun msg => transact (.saveKnown msg) fun w =>
      (CreateMessage.deduplicate self.lookups w.now self.folderId msg w.store.db).map fun _ => ()
    -- A known message that has disappeared by now is created like a new one.
    let created ← query fun w => rawMessages.filter fun msg =>
      !w.store.db.messages.any (fun message => message.gMsgid = msg.gMsgid)
    .each created fun msg => transact (.saveNew msg) (fun _ => some ())

/-- Which engine class the folder has. -/
inductive Backend where
  | generic
  | gmail
deriving DecidableEq, Repr

def download : Backend → Greenlet → Session → List Nat → Call Unit
  | .generic => downloadAndCommitUids
  | .gmail => downloadAndCommitUidsGmail self

def lastseenuid : Call Nat := query (fun w => Common.lastseenuid w.store.db self.folderId)
def localUids : Call (List Nat) := query (fun w => Common.localUids w.store.db self.folderId)

/-- The largest of some UIDs, or 0. -/
def largest (uids : List Nat) : Nat := uids.foldr max 0

def getNewUids (backend : Backend) (greenlet : Greenlet) : Call Unit := do
  let remoteUidnext ← imap fun server =>
    if server.statusUidnext then some (server.mailbox server.uidvalidity).uidnext else none
  let saved ← uidnext
  if remoteUidnext ≠ none ∧ remoteUidnext = saved then .ret ()
  else do
    let session ← selectFolder uidvalidityCb
    let lastseen ← lastseenuid self
    let latestUids ← imap (fun server => (server.folder session).uidsFrom (lastseen + 1))
    let newUids := (latestUids.filter (· ≠ lastseen)).insertionSort (· ≤ ·)
    .each newUids (fun uid => download self backend greenlet session [uid])
    setAttribute (.uidnext remoteUidnext)

/-! ## Refreshing flags -/

def updateMetadata (newFlags : List (Nat × Flags)) : Call Unit :=
  if newFlags = [] then .ret ()
  else do
    let items ← transact (.lookup newFlags) fun w =>
      some ((Common.localUids w.store.db self.folderId).filter fun uid => (newFlags.lookup uid).isSome)
    .each items fun uid =>
      match newFlags.lookup uid with
      | none => .ret ()
      | some flags => transact (.updateItem uid flags) (fun _ => some ())

def removeDeletedUids (uids : List Nat) : Call Unit :=
  .each uids (fun uid => transact (.removeUid uid) (fun _ => some ()))

/-- In the order of Python 2, `None` lies below every number. -/
def modseqKey : Option Nat → Nat
  | none => 0
  | some modseq => modseq + 1

def byModseq (changedFlags : List (Nat × Flags)) : List (Nat × Flags) :=
  changedFlags.insertionSort (fun a b => modseqKey a.2.modseq ≤ modseqKey b.2.modseq)

/-- `max(v.modseq for k, v in flag_batch)` -/
def maxModseq (flagBatch : List (Nat × Flags)) : Option Nat :=
  flagBatch.foldl (fun best entry =>
    if modseqKey best < modseqKey entry.2.modseq then entry.2.modseq else best) none

/-- After a full batch. -/
def checkpoint (flagBatch : List (Nat × Flags)) (rest : List (List (Nat × Flags))) : Call Unit :=
  if flagBatch.length = CONDSTORE_FLAGS_REFRESH_BATCH_SIZE then do
    noteWaiting fun uid => rest.any fun later => later.any fun entry => entry.1 = uid
    setHighestmodseq (maxModseq flagBatch)
  else .ret ()

/-- The loop over the batches. -/
def refreshBatches : List (List (Nat × Flags)) → Call Unit
  | [] => .ret ()
  | flagBatch :: rest => do
    updateMetadata self flagBatch
    checkpoint flagBatch rest
    refreshBatches rest

def expunge (backend : Backend) (greenlet : Greenlet) (remoteUids expungedUids : List Nat) :
    Call Unit :=
  if expungedUids = [] then .ret ()
  else do
    let lastseen ← lastseenuid self
    if remoteUids ≠ [] ∧ lastseen < largest remoteUids then do
      getNewUids self backend greenlet
      removeDeletedUids expungedUids
    else removeDeletedUids expungedUids

/-- From the SELECT on, once the server's HIGHESTMODSEQ is known to have grown. -/
def refreshChanged (backend : Backend) (greenlet : Greenlet) (newHighestmodseq : Nat) :
    Call Unit := do
  let session ← selectFolder uidvalidityCb
  let saved ← highestmodseq
  let changedFlags ← imap (fun server => server.changedFlags session (saved.getD 0))
  let remoteUids ← imap (fun server => (server.folder session).allUids)
  refreshBatches self (chunk (byModseq changedFlags) CONDSTORE_FLAGS_REFRESH_BATCH_SIZE)
  let local_ ← localUids self
  expunge self backend greenlet remoteUids (local_.filter (· ∉ remoteUids))
  noteWaiting fun _ => false
  setHighestmodseq (some newHighestmodseq)

/-- The first value is stored before any change has been fetched. -/
def initHighestmodseq (newHighestmodseq : Nat) : Option Nat → Call Unit
  | none => do
    noteWaiting fun _ => true
    setHighestmodseq (some newHighestmodseq)
  | some _ => .ret ()

def condstoreRefreshFlags (backend : Backend) (greenlet : Greenlet) : Call Unit := do
  let newHighestmodseq ← imap (fun server => (server.mailbox server.uidvalidity).highestmodseq)
  let saved ← highestmodseq
  initHighestmodseq newHighestmodseq saved
  let saved ← highestmodseq
  if some newHighestmodseq = saved then .ret ()
  else if modseqKey (some newHighestmodseq) < modseqKey saved then .ret ()
  else refreshChanged self backend greenlet newHighestmodseq

def refreshFlagsImpl (maxUids : Nat) : Call Unit := do
  let session ← selectFolder uidvalidityCb
  let local_ ← query (fun w => Common.localUidsLimit w.store.db self.folderId maxUids)
  let flags ← imap (fun server => server.flagsOf session local_)
  let last ← own (fun w => w.memory.flagsFetchResults maxUids)
  match last with
  | some (lastLocal, lastFlags) =>
    if lastLocal.isPerm local_ ∧ lastFlags.isPerm flags then .ret ()
    else persist local_ flags
  | none => persist local_ flags
where
  persist (local_ : List Nat) (flags : List (Nat × Flags)) : Call Unit := do
    removeDeletedUids (local_.filter (· ∉ flags.map Prod.fst))
    updateMetadata self flags
    Imap.local_ (.rememberFlags maxUids local_ flags)

/-- `refresh_due`: never refreshed, or longer ago than the interval. -/
def due (now interval : Nat) (last : Option Nat) : Bool := last.all (fun last => last + interval < now)

def genericRefreshFlags : Call Unit := do
  let now ← own World.now
  let slow ← lastSlowRefresh
  let fast ← own (fun w => w.memory.lastFastRefresh)
  if due now SLOW_REFRESH_INTERVAL slow then do
    refreshFlagsImpl self SLOW_FLAGS_REFRESH_LIMIT
    let now ← own World.now
    setAttribute (.lastSlowRefresh (some now))
  else if due now FAST_REFRESH_INTERVAL fast then do
    refreshFlagsImpl self FAST_FLAGS_REFRESH_LIMIT
    let now ← own World.now
    local_ (.remember (some now))
  else .ret ()

def checkUidChanges (backend : Backend) (greenlet : Greenlet) : Call Unit := do
  getNewUids self backend greenlet
  let condstore ← imap Server.condstore
  if condstore then condstoreRefreshFlags self backend greenlet else genericRefreshFlags self

/-- With the connection taken from the pool; idling is one more command that may fail. -/
def pollImpl (backend : Backend) (greenlet : Greenlet) : Call Unit := do
  imap (fun _ => ())
  checkUidChanges self backend greenlet
  let idles ← imap Server.idles
  if idles then do
    let _ ← selectFolder uidvalidityCb
    imap (fun _ => ())
  else .ret ()

/-! ## Initial sync -/

/-- What both engines do before they spawn the poller: UIDs that are gone are deleted, and the
UIDs to download are known. -/
def compareUids (session : Session) : Call (List Nat) := do
  let remoteUids ← imap (fun server => (server.folder session).allUids)
  let local_ ← localUids self
  removeDeletedUids (local_.filter (· ∉ remoteUids))
  -- `update_uid_counts`
  query (fun _ => ())
  .ret (remoteUids.filter (· ∉ local_))

def initialSyncImplGeneric (session : Session) : Call Unit := do
  let newUids ← compareUids self session
  local_ .spawn
  (Routine.each (newUids.insertionSort (fun a b => b ≤ a)) fun uid =>
    downloadAndCommitUids .engine session [uid]).ensure (local_ .kill)

/-- Thread expansion decides which of the UIDs are downloaded in which rounds. -/
def initialSyncImplGmail (session : Session) : Call Unit := do
  let _ ← compareUids self session
  local_ .spawn
  Routine.ensure (do
    let rounds ← imap Server.rounds
    .each rounds fun uids => downloadAndCommitUidsGmail self .engine session uids)
    (local_ .kill)

def initialSyncImpl : Backend → Session → Call Unit
  | .generic => initialSyncImplGeneric self
  | .gmail => initialSyncImplGmail self

def initialSync (backend : Backend) : Call String := do
  imap (fun _ => ())
  let session ← selectFolder moduleUidvalidityCb
  transact (.createInfo session) (fun _ => some ())
  initialSyncImpl self backend session
  query (fun _ => ())
  .ret "poll"

def poll (backend : Backend) : Call String := do
  pollImpl self backend .engine
  .ret "poll"

/-! ## Resync -/

def discardUids (session : Session) : Call Unit := do
  let invalidUids ← localUids self
  removeDeletedUids invalidUids
  setAttribute (.uidvalidity session.uidvalidity)
  setHighestmodseq none
  setAttribute (.uidnext session.uidnext)

/-- A spurious change is discarded. -/
def unlessUnchanged (session : Session) (saved : Nat) (changed : Call Unit) : Call Unit :=
  if session.uidvalidity ≤ saved then .ret () else changed

def resyncUidsImplGeneric : Call Unit := do
  let session ← selectFolder noCb
  let saved ← uidvalidity
  unlessUnchanged session saved (discardUids self session)
  local_ (.resynced session.uidvalidity)

def resyncUidsImplGmail : Call Unit := do
  let saved ← transact .ask (fun w => w.store.info.map ImapFolderInfo.uidvalidity)
  let session ← selectFolder noCb
  unlessUnchanged session saved do
    let mapping ← imap fun server => fun gMsgid : Nat =>
      (server.folder session).allUids.find? fun uid =>
        ((server.folder session).content uid).gMsgid = some gMsgid
    transact (.remap session mapping) fun w =>
      match Gmail.remapUids self.folderId mapping w.store.db with
      | none => none
      | some _ => w.store.info.map fun _ => ()
  local_ (.resynced session.uidvalidity)

def resyncUidsImpl : Backend → Call Unit
  | .generic => resyncUidsImplGeneric self
  | .gmail => resyncUidsImplGmail self

def resyncUids (backend : Backend) : Call String := do
  resyncUidsImpl self backend
  .ret "initial"

end Imap
end SyncEngine
