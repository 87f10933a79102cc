import SyncEngine.Mailsync.Imap.Greenlets
import SyncEngine.Mailsync.Imap.RetainedFlags

/-! Initial sync beside the poller that it spawns. A body is fetched with the flags of that moment and saved
some time later; meanwhile the poller stores up to which modseq it has seen the changes of saved messages. -/
namespace SyncEngine
namespace Imap
namespace InitialSync
open Cooperative Contract

/-! ## Rows and the stored modseq -/

/-- Of all changes of its message up to `modseq`, the row has the flags of the last one, or later flags. -/
def Incorporates (mailbox : Mailbox) (modseq : Nat) (row : ImapUid) : Prop :=
  ∀ old ∈ mailbox.history row.msgUid, old.modseq ≤ modseq →
    ∃ version ∈ mailbox.history row.msgUid, old.modseq ≤ version.modseq ∧
      row.toFlagColumns = version.columns

instance : Decidable (Incorporates mailbox modseq row) :=
  inferInstanceAs (Decidable (∀ old ∈ mailbox.history row.msgUid, old.modseq ≤ modseq →
    ∃ version ∈ mailbox.history row.msgUid, old.modseq ≤ version.modseq ∧
      row.toFlagColumns = version.columns))

/-- The invariant that the column documents. -/
def Incorporated (engine : FolderSyncEngine) (w : World) : Prop :=
  ∀ modseq ∈ w.storedModseq, ∀ row ∈ w.rows engine, Incorporates (mailboxOf w.server) modseq row

instance : Decidable (Incorporated engine w) :=
  inferInstanceAs (Decidable (∀ modseq ∈ w.storedModseq, ∀ row ∈ w.rows engine,
    Incorporates (mailboxOf w.server) modseq row))

/-- No change has a modseq above HIGHESTMODSEQ. -/
def Truthful (mailbox : Mailbox) : Prop :=
  ∀ uid, ∀ version ∈ mailbox.history uid, version.modseq ≤ mailbox.highestmodseq

/-- Flags change and messages come and go, and each change has a modseq that is new. -/
structure Evolves (server later : Server) : Prop where
  uidvalidity : later.uidvalidity = server.uidvalidity
  mailbox : (mailboxOf server).Advances (mailboxOf later)
  truthful : Truthful (mailboxOf later)
  condstore : later.condstore = true

/-- Initial sync, which is tried again when it has failed, and the poller that it spawns. A UIDVALIDITY that
is not valid any more ends both. -/
def plan (engine : FolderSyncEngine) (admits : Command → World → Prop) :
    Plan World Command Exc String Unit where
  perform := World.perform engine
  admits
  signal := Command.signal
  helper := pollImpl engine .generic .poller
  resume w result t next := (∃ exc, result = .error exc ∧ exc.isUidInvalid = false) ∧ t = w ∧
    next = initialSync engine .generic
  again result := result = .ok () ∨ result = .error .connection
  env := Moves engine Evolves
  restart w t next := t = w.restart ∧ next = initialSync engine .generic

instance {admits : Command → World → Prop} [∀ command w, Decidable (admits command w)] (command : Command)
    (w : World) : Decidable ((plan engine admits).admits command w) :=
  inferInstanceAs (Decidable (admits command w))

def started (engine : FolderSyncEngine) (w : World) : Crew World Command Exc String Unit where
  shared := w.restart
  main := initialSync engine .generic
  helper := none

def Reaches (engine : FolderSyncEngine) (admits : Command → World → Prop) (w : World)
    (crew : Crew World Command Exc String Unit) : Prop :=
  Relation.ReflTransGen (Crew.Step (plan engine admits)) (started engine w) crew

/-! ## What the code leaves to chance -/

/-- The body was fetched after every change of its message up to `modseq`. -/
def UpTo (modseq : Nat) (mailbox : Mailbox) (msg : RawMessage) : Prop :=
  ∀ version ∈ mailbox.history msg.uid, version.modseq ≤ modseq → version.modseq ≤ msg.modseq

/-- The UID has a row, or what the downloader has in hand of it is up to `modseq`. -/
def Held (engine : FolderSyncEngine) (modseq uid : Nat) (w : World) : Prop :=
  uid ∈ Common.localUids w.store.db engine.folderId ∨
    ∀ msg ∈ w.trace.inHand .engine, msg.uid = uid → UpTo modseq (mailboxOf w.server) msg

/-- No change up to `modseq` is missing from the rows of the UID, nor will be from one that is saved next. -/
def Ready (engine : FolderSyncEngine) (modseq uid : Nat) (w : World) : Prop :=
  (∀ row ∈ w.rows engine, row.msgUid = uid → Incorporates (mailboxOf w.server) modseq row) ∧
    Held engine modseq uid w

/-- The UIDs that have a row, or a body that the downloader has in hand. -/
def named (engine : FolderSyncEngine) (w : World) : List Nat :=
  Common.localUids w.store.db engine.folderId ++ (w.trace.inHand .engine).map RawMessage.uid

/-- No change is reported for a message without a row of which the downloader has an older body in hand, no
row is removed while it has one, and what a stored modseq passes over has been saved before: the changes of
UIDs that wait, and those of messages that are gone. -/
def Calm (engine : FolderSyncEngine) : Command → World → Prop
  | .lookup newFlags, w => ∀ msg ∈ w.trace.inHand .engine,
    msg.uid ∉ Common.localUids w.store.db engine.folderId →
      ∀ flags ∈ newFlags.lookup msg.uid, ∀ modseq ∈ flags.modseq, modseq ≤ msg.modseq
  | .removeUid uid, w => ∀ msg ∈ w.trace.inHand .engine, msg.uid = uid →
    ∀ version ∈ (mailboxOf w.server).history msg.uid, version.modseq ≤ msg.modseq
  | .cache (.highestmodseq (some modseq)), w => ∀ uid ∈ named engine w,
    w.trace.waiting uid = true ∨ (mailboxOf w.server).expunged uid = true → Ready engine modseq uid w
  | _, _ => True

instance : Decidable (UpTo modseq mailbox msg) :=
  inferInstanceAs (Decidable (∀ version ∈ mailbox.history msg.uid, version.modseq ≤ modseq →
    version.modseq ≤ msg.modseq))

instance : Decidable (Held engine modseq uid w) :=
  inferInstanceAs (Decidable (_ ∨ ∀ msg ∈ w.trace.inHand .engine, msg.uid = uid →
    UpTo modseq (mailboxOf w.server) msg))

instance : Decidable (Ready engine modseq uid w) :=
  inferInstanceAs (Decidable ((∀ row ∈ w.rows engine, row.msgUid = uid →
    Incorporates (mailboxOf w.server) modseq row) ∧ Held engine modseq uid w))

instance (engine : FolderSyncEngine) (w : World) : (command : Command) → Decidable (Calm engine command w)
  | .lookup _ => inferInstanceAs (Decidable (∀ msg ∈ _, _ → ∀ flags ∈ _, ∀ modseq ∈ _, _))
  | .removeUid _ => inferInstanceAs (Decidable (∀ msg ∈ _, _ → ∀ version ∈ _, _))
  | .cache (.highestmodseq (some _)) => inferInstanceAs (Decidable (∀ uid ∈ _, _ → _))
  | .cache (.highestmodseq none) | .cache (.uidvalidity _) | .cache (.uidnext _) | .cache (.lastSlowRefresh _)
  | .ask | .fetch .. | .save .. | .saveKnown _ | .saveNew _ | .updateItem .. | .load _ | .write _ | .note _
  | .createInfo _ | .remap .. | .resynced _ | .remember _ | .rememberFlags .. | .spawn | .kill =>
    .isTrue trivial

/-! ## One row, one body -/
section Row
variable {mailbox a b : Mailbox} {row : ImapUid}

theorem Incorporates.mono (known : Incorporates mailbox modseq row) (below : smaller ≤ modseq) :
    Incorporates mailbox smaller row :=
  fun old member bound => known old member (Nat.le_trans bound below)

theorem Incorporates.later (known : Incorporates a modseq row) (advances : a.Advances b)
    (bound : modseq ≤ a.highestmodseq) : Incorporates b modseq row := by
  intro old member below
  obtain ⟨version, among, newer, same⟩ :=
    known old (advances.old_mem member (Nat.le_trans below bound)) below
  exact ⟨version, advances.mem_history among, newer, same⟩

theorem UpTo.mono (known : UpTo modseq mailbox msg) (below : smaller ≤ modseq) : UpTo smaller mailbox msg :=
  fun version member bound => known version member (Nat.le_trans bound below)

theorem UpTo.later (known : UpTo modseq a msg) (advances : a.Advances b)
    (bound : modseq ≤ a.highestmodseq) : UpTo modseq b msg :=
  fun version among below => known version (advances.old_mem among (Nat.le_trans below bound)) below

/-- No change is later than the one that a message has now. -/
theorem current_last (current : mailbox.current uid = some version) :
    version ∈ mailbox.history uid ∧ ∀ old ∈ mailbox.history uid, old.modseq ≤ version.modseq := by
  obtain ⟨_, older, head⟩ := current_history current
  have ordered := mailbox.newest uid
  rw [head, List.pairwise_cons] at ordered
  rw [head]
  refine ⟨List.mem_cons_self, fun old member => ?_⟩
  rcases List.mem_cons.mp member with rfl | before
  · exact Nat.le_refl _
  · exact Nat.le_of_lt (ordered.1 old before)

/-- A row with the flags that its message had when the mailbox was `a`. -/
theorem incorporates_listed (advances : a.Advances b) (current : a.current row.msgUid = some version)
    (same : row.toFlagColumns = version.columns) : Incorporates b a.highestmodseq row := by
  obtain ⟨among, last⟩ := current_last current
  intro old member below
  exact ⟨version, advances.mem_history among, last old (advances.old_mem member below), same⟩

/-- What a body in hand says of the flags was true when its last change was `msg.modseq`. -/
def Fetched (mailbox : Mailbox) (msg : RawMessage) : Prop :=
  ∃ version ∈ mailbox.history msg.uid, msg.flags = version.flags ∧ msg.gLabels = version.labels ∧
    msg.modseq = version.modseq

theorem Fetched.later (fetched : Fetched a msg) (advances : a.Advances b) : Fetched b msg := by
  obtain ⟨version, among, same⟩ := fetched
  exact ⟨version, advances.mem_history among, same⟩

theorem fetched_deliver {server : Server} (here : session.uidvalidity = server.uidvalidity)
    (delivered : server.deliver session uid = .ok messages) (member : msg ∈ messages) :
    Fetched (mailboxOf server) msg ∧ ∀ modseq, UpTo modseq (mailboxOf server) msg := by
  obtain ⟨rfl, _, version, current, flags, labels, modseq⟩ := mem_deliver delivered member
  have folder : server.folder session = mailboxOf server := by rw [Server.folder, here, mailboxOf]
  obtain ⟨among, last⟩ := current_last (folder ▸ current)
  exact ⟨⟨version, among, flags, labels, modseq⟩, fun _ old member _ => modseq ▸ last old member⟩

theorem incorporates_saved (L : Lookups) (fetched : Fetched mailbox msg) (known : UpTo modseq mailbox msg) :
    Incorporates mailbox modseq (Common.flaggedRow L folderId messageId msg) := by
  obtain ⟨version, among, flags, labels, same⟩ := fetched
  intro old member below
  rw [flaggedRow_msgUid] at member ⊢
  exact ⟨version, among, same ▸ known old member below, flaggedRow_columns L version flags labels⟩

end Row

/-! ## Steps -/

/-- A modseq that is stored, or that the engine has a copy of. -/
def Known (w : World) (modseq : Nat) : Prop :=
  w.storedModseq = some modseq ∨ Copied (some (some modseq)) w

/-- What each step keeps. -/
structure Sound (engine : FolderSyncEngine) (w : World) : Prop where
  truthful : Truthful (mailboxOf w.server)
  condstore : w.server.condstore = true
  hand : ∀ msg ∈ w.trace.inHand .engine, Fetched (mailboxOf w.server) msg
  bound : ∀ modseq, Known w modseq → modseq ≤ (mailboxOf w.server).highestmodseq
  ready : ∀ modseq, Known w modseq → ∀ uid, Ready engine modseq uid w

/-- The server goes on. -/
structure Goes (s t : World) : Prop where
  uidvalidity : t.server.uidvalidity = s.server.uidvalidity
  mailbox : (mailboxOf s.server).Advances (mailboxOf t.server)

/-- No modseq becomes known, and what was ready for one up to `limit` stays so. -/
structure Carries (engine : FolderSyncEngine) (limit : Nat) (s t : World) : Prop extends Goes s t where
  known : ∀ modseq, Known t modseq → Known s modseq
  held : ∀ modseq uid, modseq ≤ limit → Held engine modseq uid s → Held engine modseq uid t
  ready : ∀ modseq uid, modseq ≤ limit → Ready engine modseq uid s → Ready engine modseq uid t

/-- What happens between two commands of the poller. -/
structure Beside (engine : FolderSyncEngine) (s t : World) : Prop
    extends Carries engine (mailboxOf s.server).highestmodseq s t where
  copy : t.memory.highestmodseq = s.memory.highestmodseq
  stored : t.storedModseq = s.storedModseq
  waiting : t.trace.waiting = s.trace.waiting

/-- The changes were listed when the mailbox was `listed`; those of the UIDs that are `coming` are still to be
stored, and of these the `items` have a row. -/
structure Since (engine : FolderSyncEngine) (listed : Mailbox) (items coming : List Nat) (t : World) :
    Prop where
  later : listed.Advances (mailboxOf t.server)
  bound : ∀ modseq, Known t modseq → modseq ≤ listed.highestmodseq
  ready : ∀ uid, uid ∈ items ∧ Held engine listed.highestmodseq uid t ∨ uid ∈ coming ∨
    (mailboxOf t.server).expunged uid = true ∨ Ready engine listed.highestmodseq uid t

section Steps
variable {engine : FolderSyncEngine} {limit : Nat} {listed : Mailbox} {items coming : List Nat} {s t u w : World}

theorem Goes.refl (s : World) : Goes s s := ⟨rfl, .refl _⟩

theorem Goes.trans (first : Goes s t) (second : Goes t u) : Goes s u :=
  ⟨second.uidvalidity.trans first.uidvalidity, first.mailbox.trans second.mailbox⟩

theorem goes_perform (command : Command) : Goes w (World.perform engine command w) := by
  constructor <;> rw [World.perform_server]
  exact .refl _

theorem Held.mono (held : Held engine modseq uid w) (below : smaller ≤ modseq) : Held engine smaller uid w :=
  held.imp_right fun hands msg member same => (hands msg member same).mono below

theorem Ready.mono (ready : Ready engine modseq uid w) (below : smaller ≤ modseq) :
    Ready engine smaller uid w :=
  ⟨fun row member same => (ready.1 row member same).mono below, ready.2.mono below⟩

theorem ready_unnamed (absent : uid ∉ named engine w) : Ready engine modseq uid w := by
  rw [named, List.mem_append, not_or] at absent
  refine ⟨fun row member same => ?_, .inr fun msg member same => ?_⟩
  · exact absurd (mem_localUids.mpr ⟨row, member, same⟩) absent.1
  · exact absurd (List.mem_map.mpr ⟨msg, member, same⟩) absent.2

theorem Carries.mono (carries : Carries engine limit s t) (below : smaller ≤ limit) :
    Carries engine smaller s t :=
  { carries with
    held := fun modseq uid bound => carries.held modseq uid (Nat.le_trans bound below)
    ready := fun modseq uid bound => carries.ready modseq uid (Nat.le_trans bound below) }

theorem Beside.refl (s : World) : Beside engine s s where
  toGoes := .refl s
  known _ known := known
  held _ _ _ held := held
  ready _ _ _ ready := ready
  copy := rfl
  stored := rfl
  waiting := rfl

theorem Beside.trans (first : Beside engine s t) (second : Beside engine t u) : Beside engine s u where
  toGoes := first.toGoes.trans second.toGoes
  known modseq known := first.known modseq (second.known modseq known)
  held modseq uid bound held :=
    second.held modseq uid (Nat.le_trans bound first.mailbox.grown) (first.held modseq uid bound held)
  ready modseq uid bound ready :=
    second.ready modseq uid (Nat.le_trans bound first.mailbox.grown) (first.ready modseq uid bound ready)
  copy := second.copy.trans first.copy
  stored := second.stored.trans first.stored
  waiting := second.waiting.trans first.waiting

theorem known_congr (copy : t.memory.highestmodseq = s.memory.highestmodseq)
    (stored : t.storedModseq = s.storedModseq) (modseq : Nat) (known : Known t modseq) : Known s modseq := by
  unfold Known Copied at *
  rwa [← copy, ← stored]

theorem Sound.carried (good : Sound engine s) (carries : Carries engine limit s t)
    (bound : ∀ modseq, Known s modseq → modseq ≤ limit) (truthful : Truthful (mailboxOf t.server))
    (condstore : t.server.condstore = true)
    (hand : ∀ msg ∈ t.trace.inHand .engine, Fetched (mailboxOf t.server) msg) : Sound engine t where
  truthful := truthful
  condstore := condstore
  hand := hand
  bound modseq known := Nat.le_trans (good.bound modseq (carries.known modseq known)) carries.mailbox.grown
  ready modseq known uid := by
    have before := carries.known modseq known
    exact carries.ready modseq uid (bound modseq before) (good.ready modseq before uid)

theorem Since.carried (held : Since engine listed items coming s)
    (carries : Carries engine listed.highestmodseq s t) : Since engine listed items coming t where
  later := held.later.trans carries.mailbox
  bound modseq known := held.bound modseq (carries.known modseq known)
  ready uid := by
    rcases held.ready uid with ⟨item, hands⟩ | waits | gone | ready
    · exact .inl ⟨item, carries.held _ uid (Nat.le_refl _) hands⟩
    · exact .inr (.inl waits)
    · exact .inr (.inr (.inl (carries.mailbox.expunged _ gone)))
    · exact .inr (.inr (.inr (carries.ready _ uid (Nat.le_refl _) ready)))

/-- No row and no body in hand is new, and where the last row of a UID went no older body is in hand. -/
theorem carries_sub (goes : Goes s t) (known : ∀ modseq, Known t modseq → Known s modseq)
    (within : limit ≤ (mailboxOf s.server).highestmodseq)
    (rows : ∀ row ∈ t.rows engine, row ∈ s.rows engine)
    (hand : ∀ msg ∈ t.trace.inHand .engine, msg ∈ s.trace.inHand .engine)
    (gone : ∀ uid ∈ Common.localUids s.store.db engine.folderId, Held engine limit uid t) :
    Carries engine limit s t := by
  have held : ∀ modseq uid, modseq ≤ limit → Held engine modseq uid s → Held engine modseq uid t := by
    intro modseq uid below held
    rcases held with saved | hands
    · exact (gone uid saved).mono below
    · refine .inr fun msg member same => ?_
      exact (hands msg (hand msg member) same).later goes.mailbox (Nat.le_trans below within)
  refine { toGoes := goes, known, held
           ready := fun modseq uid below ready => ⟨?_, held _ _ below ready.2⟩ }
  intro row member same
  exact (ready.1 row (rows row member) same).later goes.mailbox (Nat.le_trans below within)

theorem carries_same (goes : Goes s t) (known : ∀ modseq, Known t modseq → Known s modseq)
    (within : limit ≤ (mailboxOf s.server).highestmodseq) (rows : t.rows engine = s.rows engine)
    (hand : t.trace.inHand .engine = s.trace.inHand .engine) : Carries engine limit s t := by
  refine carries_sub goes known within (fun row member => rows ▸ member) (fun msg member => hand ▸ member)
    fun uid saved => .inl ?_
  obtain ⟨row, member, same⟩ := mem_localUids.mp saved
  refine mem_localUids.mpr ⟨row, ?_, same⟩
  change row ∈ t.rows engine
  rwa [rows]

/-! ## The commands that no assertion is about -/

/-- The commands that leave rows, bodies in hand and the modseq alone. -/
def Command.quiet : Command → Bool
  | .ask => true
  | .fetch greenlet _ _ => greenlet ≠ .engine
  | .lookup _ => true
  | .createInfo _ => true
  | .spawn => true
  | .kill => true
  | .load column => column ≠ .highestmodseq
  | .cache write => write.column ≠ .highestmodseq
  | .write write => write.column ≠ .highestmodseq
  | _ => false

/-- Quiet commands, and those that remove a row. -/
def Command.plain : Command → Bool
  | .removeUid _ => true
  | command => Command.quiet command

theorem commit_rows {change : Store → Store}
    (same : (change w.store).db.rows engine.folderId = w.rows engine) :
    (w.commit change).rows engine = w.rows engine := by
  rcases w.commit_cases change with kept | kept <;> rw [kept]
  exact same

theorem commit_stored {change : Store → Store}
    (same : (change w.store).info.bind ImapFolderInfo.highestmodseq = w.storedModseq) :
    (w.commit change).storedModseq = w.storedModseq := by
  rcases w.commit_cases change with kept | kept <;> rw [kept]
  exact same

theorem quiet_rows (quiet : Command.quiet command) :
    (World.perform engine command w).rows engine = w.rows engine := by
  cases command with
  | createInfo => exact commit_rows rfl
  | write write =>
    have kept := @commit_rows engine w (fun store =>
      { store with info := store.info.map fun info => info.write write }) rfl
    exact kept
  | fetch | load =>
    unfold World.perform
    dsimp only
    split <;> rfl
  | ask | lookup | spawn | kill | cache => rfl
  | _ => cases quiet

theorem quiet_hand (quiet : Command.quiet command) :
    (World.perform engine command w).trace.inHand .engine = w.trace.inHand .engine := by
  cases command with
  | fetch greenlet =>
    unfold World.perform
    dsimp only
    split
    · rfl
    · cases greenlet with
      | engine => cases quiet
      | poller => rfl
  | load =>
    unfold World.perform
    dsimp only
    split <;> rfl
  | createInfo => exact congrArg (fun trace : Trace => trace.inHand .engine) (World.commit_trace ..)
  | ask | lookup | spawn | kill | cache | write => rfl
  | _ => cases quiet

theorem quiet_copy (quiet : Command.quiet command) :
    (World.perform engine command w).memory.highestmodseq = w.memory.highestmodseq := by
  cases command with
  | load column =>
    unfold World.perform
    dsimp only
    split
    · cases column with
      | highestmodseq => cases quiet
      | _ => rfl
    · rfl
  | cache write =>
    cases write with
    | highestmodseq => cases quiet
    | _ => rfl
  | fetch =>
    unfold World.perform
    dsimp only
    split <;> rfl
  | createInfo | write => exact congrArg Memory.highestmodseq (World.commit_memory ..)
  | ask | lookup | spawn | kill => rfl
  | _ => cases quiet

theorem quiet_stored (quiet : Command.quiet command) :
    (World.perform engine command w).storedModseq = w.storedModseq := by
  cases command with
  | createInfo =>
    refine commit_stored ?_
    rw [World.storedModseq]
    cases w.store.info <;> rfl
  | write write =>
    have kept := @commit_stored w (fun store =>
      { store with info := store.info.map fun info => info.write write }) (by
        rw [World.storedModseq, Option.bind_map]
        cases write with
        | highestmodseq => cases quiet
        | _ => rfl)
    exact kept
  | fetch | load =>
    unfold World.perform
    dsimp only
    split <;> rfl
  | ask | lookup | spawn | kill | cache => rfl
  | _ => cases quiet

theorem commit_waiting {change : Store → Store} : (w.commit change).trace.waiting = w.trace.waiting :=
  congrArg Trace.waiting (World.commit_trace ..)

theorem quiet_waiting (quiet : Command.quiet command) :
    (World.perform engine command w).trace.waiting = w.trace.waiting := by
  cases command with
  | createInfo => exact commit_waiting
  | fetch | load =>
    unfold World.perform
    dsimp only
    split <;> rfl
  | ask | lookup | spawn | kill | cache | write => rfl
  | _ => cases quiet

theorem beside_quiet (quiet : Command.quiet command) : Beside engine w (World.perform engine command w) where
  toCarries := carries_same (goes_perform command) (known_congr (quiet_copy quiet) (quiet_stored quiet))
    (Nat.le_refl _) (quiet_rows quiet) (quiet_hand quiet)
  copy := quiet_copy quiet
  stored := quiet_stored quiet
  waiting := quiet_waiting quiet

theorem removed_cases (uid : Nat) :
    (World.perform engine (.removeUid uid) w).rows engine = w.rows engine ∨
      (World.perform engine (.removeUid uid) w).rows engine =
        (w.rows engine).filter fun row => row.msgUid ≠ uid := by
  unfold World.perform
  dsimp only
  rcases w.commit_cases fun store =>
    { store with db := Common.removeDeletedUid w.now engine.folderId uid store.db } with kept | kept <;> rw [kept]
  · exact .inl rfl
  · right
    exact removeDeletedUid_rows ..

theorem beside_removeUid (calm : Calm engine (.removeUid uid) w) :
    Beside engine w (World.perform engine (.removeUid uid) w) := by
  have copy : (World.perform engine (.removeUid uid) w).memory.highestmodseq = w.memory.highestmodseq :=
    congrArg Memory.highestmodseq (World.commit_memory ..)
  have stored : (World.perform engine (.removeUid uid) w).storedModseq = w.storedModseq := commit_stored rfl
  have hand : (World.perform engine (.removeUid uid) w).trace.inHand .engine = w.trace.inHand .engine :=
    congrArg (fun trace : Trace => trace.inHand .engine) (World.commit_trace ..)
  have sub : Carries engine _ w _ := carries_sub (goes_perform (.removeUid uid)) (known_congr copy stored)
    (Nat.le_refl _) ?_ (fun msg member => hand ▸ member) ?_
  · exact { toCarries := sub, copy, stored, waiting := commit_waiting }
  · intro row member
    rcases removed_cases (w := w) uid with same | same <;> rw [same] at member
    · exact member
    · exact (List.mem_filter.mp member).1
  · intro other saved
    by_cases same : other = uid
    · subst same
      right
      intro msg member named version among _
      rw [World.perform_server] at among
      exact calm msg (hand ▸ member) named version among
    · left
      obtain ⟨row, member, named⟩ := mem_localUids.mp saved
      refine mem_localUids.mpr ⟨row, ?_, named⟩
      change row ∈ (World.perform engine (.removeUid uid) w).rows engine
      rcases removed_cases (w := w) uid with kept | kept <;> rw [kept]
      · exact member
      · exact List.mem_filter.mpr ⟨member, by simpa [named] using same⟩

theorem beside_plain (plain : Command.plain command) (calm : Calm engine command w) :
    Beside engine w (World.perform engine command w) := by
  cases command with
  | removeUid => exact beside_removeUid calm
  | _ => exact beside_quiet plain

theorem plain_hand (plain : Command.plain command) :
    (World.perform engine command w).trace.inHand .engine = w.trace.inHand .engine := by
  cases command with
  | removeUid => exact congrArg (fun trace : Trace => trace.inHand .engine) (World.commit_trace ..)
  | _ => exact quiet_hand plain

/-! ## What the downloader does -/

theorem beside_fetch {session : Session} (here : session.uidvalidity = w.server.uidvalidity) (uid : Nat) :
    Beside engine w (World.perform engine (.fetch .engine session uid) w) ∧
      ∀ msg ∈ (World.perform engine (.fetch .engine session uid) w).trace.inHand .engine,
        msg ∈ w.trace.inHand .engine ∨
          Fetched (mailboxOf w.server) msg ∧ ∀ modseq, UpTo modseq (mailboxOf w.server) msg := by
  have hand : ∀ msg ∈ (World.perform engine (.fetch .engine session uid) w).trace.inHand .engine,
      msg ∈ w.trace.inHand .engine ∨
        Fetched (mailboxOf w.server) msg ∧ ∀ modseq, UpTo modseq (mailboxOf w.server) msg := by
    intro msg member
    unfold World.perform at member
    dsimp only at member
    split at member
    · exact .inl member
    · simp only [if_true, List.mem_append] at member
      rcases member with old | new
      · exact .inl old
      · right
        cases delivered : w.server.deliver session uid with
        | error => simp [delivered, Except.toOption] at new
        | ok messages =>
          simp only [delivered, Except.toOption, Option.getD_some] at new
          exact fetched_deliver here delivered new
  have store : (World.perform engine (.fetch .engine session uid) w).store = w.store := by
    unfold World.perform
    dsimp only
    split <;> rfl
  have memory : (World.perform engine (.fetch .engine session uid) w).memory = w.memory := by
    unfold World.perform
    dsimp only
    split <;> rfl
  have copy := congrArg Memory.highestmodseq memory
  have stored : (World.perform engine (.fetch .engine session uid) w).storedModseq = w.storedModseq := by
    rw [World.storedModseq, store, World.storedModseq]
  have held : ∀ modseq uid', Held engine modseq uid' w →
      Held engine modseq uid' (World.perform engine (.fetch .engine session uid) w) := by
    intro modseq other before
    unfold Held at before ⊢
    rw [store, World.perform_server]
    refine before.imp_right fun hands msg member same => ?_
    rcases hand msg member with old | ⟨_, recent⟩
    · exact hands msg old same
    · exact recent modseq
  have waiting : (World.perform engine (.fetch .engine session uid) w).trace.waiting = w.trace.waiting := by
    unfold World.perform
    dsimp only
    split <;> rfl
  refine ⟨{ toGoes := goes_perform _, known := known_congr copy stored, copy, stored, waiting
            held := fun _ _ _ => held _ _, ready := fun _ _ _ ready => ⟨?_, held _ _ ready.2⟩ }, hand⟩
  intro row member same
  rw [World.perform_server]
  rw [World.rows, store] at member
  exact ready.1 row member same

theorem save_copy (greenlet : Greenlet) (rawMessages : List RawMessage) :
    (World.perform engine (.save greenlet rawMessages) w).memory.highestmodseq = w.memory.highestmodseq :=
  congrArg Memory.highestmodseq (World.commit_memory ..)

theorem save_stored (greenlet : Greenlet) (rawMessages : List RawMessage) :
    (World.perform engine (.save greenlet rawMessages) w).storedModseq = w.storedModseq := by
  let saves := CreateMessage.commitMessages engine.lookups w.now engine.folderId engine.folderRole rawMessages
  have kept := @commit_stored w (fun store => { store with db := saves store.db }) rfl
  exact kept

/-- The rows that a transaction adds are those of messages that had none. -/
theorem save_rows (greenlet : Greenlet) (rawMessages : List RawMessage) :
    ∃ added, (World.perform engine (.save greenlet rawMessages) w).rows engine = w.rows engine ++ added ∧
      ∀ row ∈ added, row.msgUid ∉ Common.localUids w.store.db engine.folderId ∧ ∃ msg ∈ rawMessages,
        ∃ messageId, row = Common.flaggedRow engine.lookups engine.folderId messageId msg := by
  obtain ⟨added, rows, origins, _⟩ := commitMessages_rows engine.lookups w.now engine.folderId
    engine.folderRole rawMessages w.store.db
  let saves := CreateMessage.commitMessages engine.lookups w.now engine.folderId engine.folderRole rawMessages
  let change := fun store : Store => { store with db := saves store.db }
  have committed : ∃ added, (w.commit change).rows engine = w.rows engine ++ added ∧
      ∀ row ∈ added, row.msgUid ∉ Common.localUids w.store.db engine.folderId ∧ ∃ msg ∈ rawMessages,
        ∃ messageId, row = Common.flaggedRow engine.lookups engine.folderId messageId msg := by
    rcases w.commit_cases change with kept | kept <;> rw [kept]
    · exact ⟨[], (List.append_nil _).symm, by simp⟩
    · exact ⟨added, rows, origins⟩
  exact committed

theorem save_localUids (greenlet : Greenlet) (rawMessages : List RawMessage)
    (saved : uid ∈ Common.localUids w.store.db engine.folderId) :
    uid ∈ Common.localUids (World.perform engine (.save greenlet rawMessages) w).store.db engine.folderId := by
  obtain ⟨added, rows, _⟩ := save_rows (w := w) greenlet rawMessages
  obtain ⟨row, member, same⟩ := mem_localUids.mp saved
  refine mem_localUids.mpr ⟨row, ?_, same⟩
  change row ∈ (World.perform engine (.save greenlet rawMessages) w).rows engine
  rw [rows]
  exact List.mem_append_left _ member

theorem beside_save (good : Sound engine w) {rawMessages : List RawMessage}
    (inHand : ∀ msg ∈ rawMessages, msg ∈ w.trace.inHand .engine) :
    Beside engine w (World.perform engine (.save .engine rawMessages) w) := by
  have empty : (World.perform engine (.save .engine rawMessages) w).trace.inHand .engine = [] := rfl
  have held : ∀ modseq uid, Held engine modseq uid (World.perform engine (.save .engine rawMessages) w) := by
    refine fun modseq uid => .inr fun msg member => ?_
    rw [empty] at member
    cases member
  have copy := @save_copy engine w .engine rawMessages
  have stored := @save_stored engine w .engine rawMessages
  refine { toGoes := goes_perform _, known := known_congr copy stored, copy, stored, waiting := rfl
           held := fun _ _ _ _ => held _ _, ready := fun modseq uid _ ready => ⟨?_, held _ _⟩ }
  obtain ⟨added, rows, origins⟩ := save_rows (w := w) .engine rawMessages
  intro row member same
  rw [World.perform_server]
  rw [rows] at member
  rcases List.mem_append.mp member with old | new
  · exact ready.1 row old same
  · obtain ⟨absent, msg, among, messageId, rfl⟩ := origins row new
    rw [flaggedRow_msgUid] at absent same
    subst same
    have hands := ready.2.resolve_left absent
    exact incorporates_saved _ (good.hand msg (inHand msg among)) (hands msg (inHand msg among) rfl)

/-! ## What the poller does -/

/-- The poller saves bodies that it fetched after the changes of interest. -/
theorem carries_save {rawMessages : List RawMessage}
    (fetched : ∀ msg ∈ rawMessages, Fetched (mailboxOf w.server) msg ∧ UpTo limit (mailboxOf w.server) msg) :
    Carries engine limit w (World.perform engine (.save .poller rawMessages) w) := by
  have hand : (World.perform engine (.save .poller rawMessages) w).trace.inHand .engine =
      w.trace.inHand .engine := rfl
  have held : ∀ modseq uid, Held engine modseq uid w →
      Held engine modseq uid (World.perform engine (.save .poller rawMessages) w) := by
    intro modseq uid before
    unfold Held at before ⊢
    rw [hand, World.perform_server]
    exact before.imp_left (save_localUids .poller rawMessages)
  refine { toGoes := goes_perform _, known := known_congr (save_copy ..) (save_stored ..)
           held := fun _ _ _ => held _ _, ready := fun modseq uid below ready => ⟨?_, held _ _ ready.2⟩ }
  obtain ⟨added, rows, origins⟩ := save_rows (w := w) .poller rawMessages
  intro row member same
  rw [World.perform_server]
  rw [rows] at member
  rcases List.mem_append.mp member with old | new
  · exact ready.1 row old same
  · obtain ⟨_, msg, among, messageId, rfl⟩ := origins row new
    obtain ⟨real, known⟩ := fetched msg among
    exact incorporates_saved _ real (known.mono below)

/-- An update leaves the rows of the UID with the flags that were listed, or is refused. -/
theorem carries_updateItem (later : listed.Advances (mailboxOf w.server)) {version : Version}
    (current : listed.current uid = some version) :
    Carries engine listed.highestmodseq w (World.perform engine (.updateItem uid version.item) w) ∧
      (w.store.fault = none → Held engine listed.highestmodseq uid w →
        Ready engine listed.highestmodseq uid (World.perform engine (.updateItem uid version.item) w)) := by
  let t := World.perform engine (.updateItem uid version.item) w
  have server : t.server = w.server := World.perform_server ..
  have hand : t.trace.inHand .engine = w.trace.inHand .engine :=
    congrArg (fun trace : Trace => trace.inHand .engine) (World.commit_trace ..)
  have copy : t.memory.highestmodseq = w.memory.highestmodseq :=
    congrArg Memory.highestmodseq (World.commit_memory ..)
  have stored : t.storedModseq = w.storedModseq := commit_stored rfl
  let updated := fun row : ImapUid =>
    if row.msgUid = uid then Common.updatedRow engine.lookups version.item row else row
  have keys : ∀ row, (updated row).msgUid = row.msgUid := by
    intro row
    simp only [updated]
    split
    · exact (updatedRow_keys engine.lookups version.item row).2
    · rfl
  have rows : t.rows engine = w.rows engine ∧ w.store.fault ≠ none ∨
      t.rows engine = (w.rows engine).map updated := by
    simp only [t, World.perform, World.commit]
    split
    · rename_i refused
      exact .inl ⟨rfl, by rw [refused]; exact Option.some_ne_none _⟩
    · right
      rw [World.rows, updateMetadataItem_rows]
      rfl
  have fresh : ∀ row : ImapUid, row.msgUid = uid → Incorporates (mailboxOf w.server) listed.highestmodseq
      (updated row) := by
    intro row same
    have now : listed.current (updated row).msgUid = some version := by rw [keys, same, current]
    refine incorporates_listed later now ?_
    simp only [updated, if_pos same]
    exact updatedRow_columns ..
  have held : ∀ modseq other, Held engine modseq other w → Held engine modseq other t := by
    intro modseq other before
    unfold Held at before ⊢
    rw [hand, server]
    refine before.imp_left fun saved => ?_
    obtain ⟨row, member, same⟩ := mem_localUids.mp saved
    rcases rows with ⟨kept, _⟩ | mapped
    · refine mem_localUids.mpr ⟨row, ?_, same⟩
      change row ∈ t.rows engine
      rwa [kept]
    · refine mem_localUids.mpr ⟨updated row, ?_, (keys row).trans same⟩
      change updated row ∈ t.rows engine
      rw [mapped]
      exact List.mem_map_of_mem member
  refine ⟨{ toGoes := goes_perform _, known := known_congr copy stored
            held := fun _ _ _ => held _ _
            ready := fun modseq other below ready => ⟨?_, held _ _ ready.2⟩ },
          fun calm hands => ⟨?_, held _ _ hands⟩⟩
  · intro row member same
    change Incorporates (mailboxOf t.server) modseq row
    rw [server]
    rcases rows with ⟨kept, _⟩ | mapped
    · exact ready.1 row (kept ▸ member) same
    · change row ∈ t.rows engine at member
      rw [mapped, List.mem_map] at member
      obtain ⟨old, before, rfl⟩ := member
      rw [keys] at same
      by_cases named : old.msgUid = uid
      · exact (fresh old named).mono below
      · simp only [updated, if_neg named]
        exact ready.1 old before same
  · intro row member same
    change Incorporates (mailboxOf t.server) _ row
    rw [server]
    rcases rows with ⟨_, fault⟩ | mapped
    · exact absurd calm fault
    · change row ∈ t.rows engine at member
      rw [mapped, List.mem_map] at member
      obtain ⟨old, before, rfl⟩ := member
      exact fresh old ((keys old).symm.trans same)

theorem load_cases (column : Column) : World.perform engine (.load column) w = w ∨
    ∃ info, w.store.info = some info ∧
      World.perform engine (.load column) w = { w with memory := w.memory.cache (info.read column) } := by
  unfold World.perform
  dsimp only
  split
  · rename_i info _ found
    exact .inr ⟨info, found, rfl⟩
  · exact .inl rfl

theorem carries_note (waiting : Nat → Bool) (within : limit ≤ (mailboxOf w.server).highestmodseq) :
    Carries engine limit w (World.perform engine (.note waiting) w) :=
  carries_same (goes_perform _) (fun _ known => known) within rfl rfl

theorem carries_load (within : limit ≤ (mailboxOf w.server).highestmodseq) :
    Carries engine limit w (World.perform engine (.load .highestmodseq) w) := by
  rcases load_cases (w := w) .highestmodseq with same | ⟨info, found, same⟩ <;> rw [same]
  · exact (Beside.refl w).toCarries.mono within
  · refine carries_same ⟨rfl, .refl _⟩ (fun modseq known => ?_) within rfl rfl
    rcases known with stored | copied
    · exact .inl stored
    · left
      rw [World.storedModseq, found]
      exact Option.some.inj copied

theorem carries_write (within : limit ≤ (mailboxOf w.server).highestmodseq) {value : Option Nat}
    (copied : Copied (some value) w) :
    Carries engine limit w (World.perform engine (.write (.highestmodseq value)) w) := by
  have copy : (World.perform engine (.write (.highestmodseq value)) w).memory.highestmodseq =
      w.memory.highestmodseq := congrArg Memory.highestmodseq (World.commit_memory ..)
  have rows : (World.perform engine (.write (.highestmodseq value)) w).rows engine = w.rows engine := by
    have kept := @commit_rows engine w (fun store =>
      { store with info := store.info.map fun info => info.write (.highestmodseq value) }) rfl
    exact kept
  have stored : (World.perform engine (.write (.highestmodseq value)) w).storedModseq = w.storedModseq ∨
      (World.perform engine (.write (.highestmodseq value)) w).storedModseq =
        w.store.info.bind fun _ => value := by
    have written : ∀ change : Store → Store,
        (change w.store).info.bind ImapFolderInfo.highestmodseq = (w.store.info.bind fun _ => value) →
        (w.commit change).storedModseq = w.storedModseq ∨
          (w.commit change).storedModseq = w.store.info.bind fun _ => value := by
      intro change same
      rcases w.commit_cases change with kept | kept <;> rw [kept]
      · exact .inl rfl
      · exact .inr same
    have kept := written (fun store =>
      { store with info := store.info.map fun info => info.write (.highestmodseq value) }) (by
        rw [Option.bind_map]
        rfl)
    exact kept
  refine carries_same (goes_perform _) (fun modseq known => ?_) within rows rfl
  rcases known with was | held
  · rcases stored with same | same <;> rw [same] at was
    · exact .inl was
    · obtain ⟨_, _, rfl⟩ := Option.bind_eq_some_iff.mp was
      exact .inr copied
  · right
    unfold Copied at held ⊢
    rwa [copy] at held

/-- What a stored modseq passes over is ready for it, and so is all the rest. -/
theorem sound_cache (good : Sound engine w) {value : Option Nat}
    (calm : Calm engine (.cache (.highestmodseq value)) w)
    (within : ∀ modseq ∈ value, modseq ≤ (mailboxOf w.server).highestmodseq)
    (ready : ∀ modseq ∈ value, ∀ uid, w.trace.waiting uid = true ∨ (mailboxOf w.server).expunged uid = true ∨
      Ready engine modseq uid w) :
    Sound engine (World.perform engine (.cache (.highestmodseq value)) w) := by
  have known : ∀ modseq, Known (World.perform engine (.cache (.highestmodseq value)) w) modseq →
      Known w modseq ∨ value = some modseq := by
    rintro modseq (stored | copied)
    · exact .inl (.inl stored)
    · exact .inr (Option.some.inj copied)
  refine { truthful := good.truthful, condstore := good.condstore, hand := good.hand
           bound := fun modseq new => ?_, ready := fun modseq new uid => ?_ }
  · rcases known modseq new with old | rfl
    · exact good.bound modseq old
    · exact within modseq rfl
  · change Ready engine modseq uid w
    rcases known modseq new with old | rfl
    · exact good.ready modseq old uid
    · by_cases absent : uid ∈ named engine w
      · rcases ready modseq rfl uid with waits | gone | done
        · exact calm uid absent (.inl waits)
        · exact calm uid absent (.inr gone)
        · exact done
      · exact ready_unnamed absent

end Steps

end InitialSync
end Imap
end SyncEngine
