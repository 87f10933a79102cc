import SyncEngine.Mailsync.FolderRows
import SyncEngine.Mailsync.Imap.Flags
import SyncEngine.Mailsync.Imap.Greenlets

/-! UIDs mean something only together with the UIDVALIDITY that they were given out under. The
rows of a folder never come from two of them. -/
namespace SyncEngine
namespace Imap
open Cooperative Contract

/-- All rows were given out under one UIDVALIDITY, and it is the stored one if there are any. -/
def OneEpoch (engine : FolderSyncEngine) (w : World) : Prop :=
  ∃ epoch, (∀ row ∈ w.rows engine, row.uidvalidity = epoch) ∧
    (w.rows engine ≠ [] → w.epoch = some epoch)

/-- At a reset the server takes a larger UIDVALIDITY; else it may do what it likes. -/
def Server.Ages (server later : Server) : Prop := server.uidvalidity ≤ later.uidvalidity

/-- What each command keeps: neither the row nor the copy of it is ahead of the server. -/
structure Epoch (engine : FolderSyncEngine) (w : World) : Prop where
  rows : ∀ row ∈ w.rows engine, w.epoch = some row.uidvalidity
  behind : ∀ saved ∈ w.epoch, saved ≤ w.server.uidvalidity
  cached : ∀ value ∈ w.memory.uidvalidity, ∃ saved ∈ w.epoch, value ≤ saved

theorem oneEpoch_iff {engine : FolderSyncEngine} {w : World} :
    OneEpoch engine w ↔ ∀ row ∈ w.rows engine, w.epoch = some row.uidvalidity := by
  constructor
  · rintro ⟨epoch, same, stored⟩ row member
    rw [stored (List.ne_nil_of_mem member), same row member]
  · intro stored
    cases rows : w.rows engine with
    | nil => exact ⟨0, by simp [rows], by simp [rows]⟩
    | cons first rest =>
      have epoch := stored first (by simp [rows])
      rw [rows] at stored
      refine ⟨first.uidvalidity, fun row member => ?_, fun _ => epoch⟩
      rw [rows] at member
      exact Option.some.inj ((stored row member).symm.trans epoch)

/-! ## Commands that leave the UIDVALIDITY alone -/

@[simp] theorem updatedRow_uidvalidity (L : Lookups) (newFlags : Flags) (row : ImapUid) :
    (Common.updatedRow L newFlags row).uidvalidity = row.uidvalidity := by
  unfold Common.updatedRow
  split <;> rfl

@[simp] theorem flaggedRow_uidvalidity (L : Lookups) :
    (Common.flaggedRow L folderId messageId msg).uidvalidity = msg.uidvalidity := by
  unfold Common.flaggedRow
  split <;> rfl

structure Gentle (engine : FolderSyncEngine) (w t : World) : Prop where
  server : t.server = w.server
  epoch : t.epoch = w.epoch
  polling : t.trace.polling = w.trace.polling
  rows : ∀ row ∈ t.rows engine, w.epoch = some row.uidvalidity ∨
    ∃ old ∈ w.rows engine, row.uidvalidity = old.uidvalidity
  cached : ∀ value ∈ t.memory.uidvalidity, value ∈ w.memory.uidvalidity ∨ value ∈ w.epoch

section Gentle
variable {engine : FolderSyncEngine} {w t : World}

theorem Gentle.epochs (gentle : Gentle engine w t) (good : Epoch engine w) : Epoch engine t where
  rows row member := by
    rw [gentle.epoch]
    rcases gentle.rows row member with same | ⟨old, among, same⟩
    · exact same
    · rw [same]
      exact good.rows old among
  behind saved stored := by
    rw [gentle.server]
    rw [gentle.epoch] at stored
    exact good.behind saved stored
  cached value held := by
    rw [gentle.epoch]
    rcases gentle.cached value held with before | stored
    · exact good.cached value before
    · exact ⟨value, stored, Nat.le_refl _⟩

theorem Gentle.refl (w : World) : Gentle engine w w where
  server := rfl
  epoch := rfl
  polling := rfl
  rows row member := .inr ⟨row, member, rfl⟩
  cached _ held := .inl held

/-- Only what no statement about UIDVALIDITYs speaks of has changed. -/
theorem Epoch.congr (good : Epoch engine w) (server : t.server = w.server) (store : t.store = w.store)
    (memory : t.memory.uidvalidity = w.memory.uidvalidity) : Epoch engine t := by
  have epoch : t.epoch = w.epoch := by rw [World.epoch, store, World.epoch]
  constructor
  · rw [World.rows, store, epoch]
    exact good.rows
  · rw [epoch, server]
    exact good.behind
  · rw [memory, epoch]
    exact good.cached

/-- A transaction that keeps the stored UIDVALIDITY. -/
theorem gentle_commit {change : Store → Store}
    (info : (change w.store).info.map ImapFolderInfo.uidvalidity = w.epoch)
    (rows : ∀ row ∈ (change w.store).db.rows engine.folderId, w.epoch = some row.uidvalidity ∨
      ∃ old ∈ w.rows engine, row.uidvalidity = old.uidvalidity) :
    Gentle engine w (w.commit change) := by
  rcases w.commit_cases change with same | same
  · rw [same]
    exact .refl w
  · rw [same]
    exact ⟨rfl, info, rfl, rows, fun _ held => .inl held⟩

theorem gentle_removeUid (uid : Nat) : Gentle engine w (World.perform engine (.removeUid uid) w) := by
  rw [World.perform]
  apply gentle_commit
  · rfl
  · intro row member
    rw [removeDeletedUid_rows] at member
    exact .inr ⟨row, (List.mem_filter.mp member).1, rfl⟩

theorem gentle_updateItem (uid : Nat) (newFlags : Flags) :
    Gentle engine w (World.perform engine (.updateItem uid newFlags) w) := by
  rw [World.perform]
  apply gentle_commit
  · rfl
  · intro row member
    rw [updateMetadataItem_rows] at member
    obtain ⟨old, among, rfl⟩ := List.mem_map.mp member
    refine .inr ⟨old, among, ?_⟩
    split
    · rw [updatedRow_uidvalidity]
    · rfl

theorem gentle_write {write : Write} (other : write.column ≠ .uidvalidity) :
    Gentle engine w (World.perform engine (.write write) w) := by
  have kept : (w.store.info.map fun info => info.write write).map ImapFolderInfo.uidvalidity =
      w.epoch := by
    rw [Option.map_map]
    cases write with
    | uidvalidity => exact absurd rfl other
    | _ => rfl
  rcases w.commit_cases fun store =>
    { store with info := store.info.map fun info => info.write write } with same | same
  · refine ⟨by simp, ?_, by simp [World.perform], ?_, ?_⟩
    · rw [World.epoch, World.perform, same, World.epoch]
    · intro row member
      rw [World.rows, World.perform, same] at member
      exact .inr ⟨row, member, rfl⟩
    · intro value held
      simp only [World.perform, World.commit_memory] at held
      exact .inl held
  · refine ⟨by simp, ?_, by simp [World.perform], ?_, ?_⟩
    · rw [World.epoch, World.perform, same]
      exact kept
    · intro row member
      rw [World.rows, World.perform, same] at member
      exact .inr ⟨row, member, rfl⟩
    · intro value held
      simp only [World.perform, World.commit_memory] at held
      exact .inl held

theorem gentle_load (column : Column) : Gentle engine w (World.perform engine (.load column) w) := by
  unfold World.perform
  dsimp only
  split
  · rename_i info _ saved
    refine ⟨rfl, rfl, rfl, fun row member => .inr ⟨row, member, rfl⟩, fun value held => ?_⟩
    cases column with
    | uidvalidity =>
      obtain rfl := Option.some.inj held
      right
      simp [World.epoch, saved]
    | _ => exact .inl held
  · exact .refl w

theorem gentle_cache {write : Write} (other : write.column ≠ .uidvalidity) :
    Gentle engine w (World.perform engine (.cache write) w) := by
  refine ⟨rfl, rfl, rfl, fun row member => .inr ⟨row, member, rfl⟩, fun value held => ?_⟩
  cases write with
  | uidvalidity => exact absurd rfl other
  | _ => exact .inl held

theorem gentle_minor (minor : command.minor) : Gentle engine w (World.perform engine command w) := by
  cases command with
  | ask | lookup => exact .refl w
  | updateItem => exact gentle_updateItem _ _
  | removeUid => exact gentle_removeUid _
  | load => exact gentle_load _
  | note | remember =>
    exact ⟨rfl, rfl, rfl, fun row member => .inr ⟨row, member, rfl⟩, fun _ held => .inl held⟩
  | rememberFlags =>
    exact ⟨rfl, rfl, rfl, fun row member => .inr ⟨row, member, rfl⟩, fun _ held => .inl held⟩
  | _ => cases minor

theorem gentle_issues {routine : Call α} (minor : Minor routine) :
    routine.Issues (fun command => ∀ t, Gentle engine t (World.perform engine command t)) :=
  Routine.issues_mono minor.issues fun _ minor _ => gentle_minor minor

theorem gentle_fetch (greenlet : Greenlet) (session : Session) (uid : Nat) :
    Gentle engine w (World.perform engine (.fetch greenlet session uid) w) := by
  unfold World.perform
  dsimp only
  split
  · exact .refl w
  · exact ⟨rfl, rfl, rfl, fun row member => .inr ⟨row, member, rfl⟩, fun _ held => .inl held⟩

theorem gentle_save {rawMessages : List RawMessage}
    (fetched : ∀ msg ∈ rawMessages, w.epoch = some msg.uidvalidity) (greenlet : Greenlet) :
    Gentle engine w (World.perform engine (.save greenlet rawMessages) w) := by
  let change := fun store : Store => { store with
    db := CreateMessage.commitMessages engine.lookups w.now engine.folderId engine.folderRole rawMessages
      store.db }
  have committed : Gentle engine w (w.commit change) := by
    refine gentle_commit rfl fun row member => ?_
    obtain ⟨added, rows, origins, _⟩ := commitMessages_rows engine.lookups w.now engine.folderId
      engine.folderRole rawMessages w.store.db
    rw [rows] at member
    rcases List.mem_append.mp member with old | new
    · exact .inr ⟨row, old, rfl⟩
    · obtain ⟨_, msg, among, messageId, rfl⟩ := origins row new
      rw [flaggedRow_uidvalidity]
      exact .inl (fetched msg among)
  refine ⟨by simp, committed.epoch, ?_, committed.rows, ?_⟩
  · simp [World.perform]
  · intro value held
    simp only [World.perform, World.commit_memory] at held
    exact .inl held

end Gentle

/-! ## Greenlets -/

/-- What a greenlet keeps its hands off while the other one lives. -/
structure Side (engine : FolderSyncEngine) (K : Contract (World.perform engine)) (P : World → Prop) :
    Prop where
  inv : ∀ t, K.inv t ↔ Epoch engine t
  stable : K.Stable P
  epoch : ∀ s t, P s → K.rely s t → t.epoch = s.epoch
  gentle : ∀ command t, P t → Gentle engine t (World.perform engine command t) →
    K.guar command t ∧ P (World.perform engine command t)

/-- The session was opened under the stored UIDVALIDITY. -/
def OfEpoch (session : Session) (w : World) : Prop := w.epoch = some session.uidvalidity

namespace Side
variable {engine : FolderSyncEngine} {K : Contract (World.perform engine)} {P : World → Prop}
  {session : Session}

/-- What is known of the stored UIDVALIDITY stays known. -/
theorem keeps (side : Side engine K P) (known : Option Nat → Prop) :
    K.Stable (fun t => P t ∧ known t.epoch) := by
  rintro s t ⟨held, knew⟩ moved good
  refine ⟨side.stable s t held moved good, ?_⟩
  rw [side.epoch s t held moved]
  exact knew

theorem step (side : Side engine K P) {t : World} (good : K.inv t) (held : P t)
    (gentle : Gentle engine t (World.perform engine command t)) :
    K.inv (World.perform engine command t) ∧ K.guar command t ∧
      P (World.perform engine command t) := by
  obtain ⟨promised, still⟩ := side.gentle command t held gentle
  exact ⟨(side.inv _).mpr (gentle.epochs ((side.inv t).mp good)), promised, still⟩

/-- Gentle commands keep what is known of the stored UIDVALIDITY. -/
theorem issues (side : Side engine K P) (known : Option Nat → Prop) {routine : Call α}
    (issued : routine.Issues (fun command => ∀ t, Gentle engine t (World.perform engine command t))) :
    K.Spec (fun t => P t ∧ known t.epoch) routine
      (fun _ t => P t ∧ known t.epoch) (fun _ t => P t ∧ known t.epoch) := by
  refine spec_issues (side.keeps known) issued ?_
  rintro command t gentle good ⟨held, knew⟩ _
  obtain ⟨kept, promised, still⟩ := side.step good held (gentle t)
  refine ⟨kept, promised, still, ?_⟩
  rw [(gentle t).epoch]
  exact knew

theorem does (side : Side engine K P) {routine : Call α}
    (issued : routine.Issues (fun command => ∀ t, Gentle engine t (World.perform engine command t))) :
    K.Spec P routine (fun _ => P) (fun _ => P) :=
  spec_mono (side.issues (fun _ => True) issued) (fun _ _ held => ⟨held, trivial⟩)
    (fun _ _ _ held => held.1) (fun _ _ _ held => held.1)

theorem sets (side : Side engine K P) {write : Write} (other : write.column ≠ .uidvalidity) :
    K.Spec P (setAttribute write) (fun _ => P) (fun _ => P) :=
  side.does (issues_setAttribute (fun _ => gentle_write other) fun _ => gentle_cache other)

theorem setsHighestmodseq (side : Side engine K P) (value : Option Nat) :
    K.Spec P (setHighestmodseq value) (fun _ => P) (fun _ => P) := by
  have other : (Write.highestmodseq value).column ≠ .uidvalidity := nofun
  exact side.does (issues_setHighestmodseq (fun _ => gentle_cache other)
    fun _ => gentle_write other)

theorem asks (side : Side engine K P) : Asks K P :=
  fun t good held => (side.step good held (.refl t)).2.1

/-- Neither copy is ahead of the server, so a session that is not ahead of the copy is neither
ahead of the row nor behind it. -/
theorem selects (side : Side engine K P) :
    K.Spec P (selectFolder uidvalidityCb) (fun session t => P t ∧ OfEpoch session t) (fun _ => P) := by
  let opened := fun (session : Session) (t : World) =>
    P t ∧ ∀ saved ∈ t.epoch, saved ≤ session.uidvalidity
  let cached := fun (session : Session) (value : Nat) (t : World) =>
    P t ∧ ∃ saved ∈ t.epoch, value ≤ saved ∧ saved ≤ session.uidvalidity
  have ofEpoch : ∀ session, K.Stable (fun t => P t ∧ OfEpoch session t) :=
    fun session => side.keeps (· = some session.uidvalidity)
  have opens : ∀ session, K.Stable (opened session) :=
    fun session => side.keeps fun epoch => ∀ saved ∈ epoch, saved ≤ session.uidvalidity
  have caches : ∀ session value, K.Stable (cached session value) := fun session value =>
    side.keeps fun epoch => ∃ saved ∈ epoch, value ≤ saved ∧ saved ≤ session.uidvalidity
  refine spec_selectFolder opened side.stable opens ofEpoch (fun _ _ _ held => held) side.asks ?_
    fun session => ?_
  · intro t good held
    exact ⟨held, ((side.inv t).mp good).behind⟩
  · refine spec_uidvalidityCb (cached session) (caches session) ?_ ?_ fun _ _ _ held _ => held.1
    · refine spec_load (opens session) (caches session) side.stable
        (fun t good held => side.asks t good held.1) ?_ ?_
      · rintro t value good ⟨held, ahead⟩ copy
        obtain ⟨saved, stored, below⟩ := ((side.inv t).mp good).cached value copy
        exact ⟨held, saved, stored, below, ahead saved stored⟩
      · rintro t good ⟨held, ahead⟩ _
        have gentle : Gentle engine t (World.perform engine (.load .uidvalidity) t) := gentle_load _
        obtain ⟨kept, promised, still⟩ := side.step good held gentle
        refine ⟨kept, promised, still, fun info _ saved => ⟨still, info.uidvalidity, ?_, ?_⟩⟩
        · rw [gentle.epoch, World.epoch, saved]
          rfl
        · refine ⟨Nat.le_refl _, ahead _ ?_⟩
          rw [World.epoch, saved]
          rfl
    · rintro value t _ ⟨held, saved, stored, below, ahead⟩ valid
      refine ⟨held, ?_⟩
      have same : saved = session.uidvalidity := by omega
      rw [OfEpoch, ← same]
      exact stored

theorem downloads (side : Side engine K P) (greenlet : Greenlet) (session : Session) (uids : List Nat) :
    K.Spec (fun t => P t ∧ OfEpoch session t) (downloadAndCommitUids greenlet session uids)
      (fun _ t => P t ∧ OfEpoch session t) (fun _ => P) := by
  let holding := fun (messages : List RawMessage) (t : World) =>
    P t ∧ (OfEpoch session t ∧ ∀ msg ∈ messages, msg.uidvalidity = session.uidvalidity)
  have stable : ∀ messages, K.Stable (holding messages) := fun messages => side.keeps fun epoch =>
    epoch = some session.uidvalidity ∧ ∀ msg ∈ messages, msg.uidvalidity = session.uidvalidity
  have ofEpoch : K.Stable (fun t => P t ∧ OfEpoch session t) :=
    side.keeps (· = some session.uidvalidity)
  have fetched : K.Spec (holding []) (fetchUids greenlet session uids)
      (fun fetched => holding ([] ++ fetched)) (fun _ => P) := by
    refine spec_fetchUids holding stable side.stable (fun uid messages t good held _ => ?_) uids []
    obtain ⟨still, known, origins⟩ := held
    have gentle : Gentle engine t (World.perform engine (.fetch greenlet session uid) t) :=
      gentle_fetch ..
    obtain ⟨kept, promised, after⟩ := side.step good still gentle
    refine ⟨kept, promised, after, fun delivered _ answer => ⟨after, ?_, fun msg member => ?_⟩⟩
    · exact gentle.epoch.trans known
    · rcases List.mem_append.mp member with old | new
      · exact origins msg old
      · exact (mem_deliver answer new).2.1
  refine spec_downloadAndCommitUids holding (spec_mono fetched ?_ (fun _ _ _ held => held)
    (fun _ _ _ held => held)) (spec_ret (stable []) fun _ _ held => ⟨held.1, held.2.1⟩) fun messages => ?_
  · rintro t _ ⟨held, known⟩
    exact ⟨held, known, by simp⟩
  · refine spec_transact (stable messages) (fun _ => ofEpoch) side.stable fun t good held _ => ?_
    obtain ⟨still, known, origins⟩ := held
    have gentle : Gentle engine t (World.perform engine (.save greenlet messages) t) :=
      gentle_save (fun msg member => by rw [origins msg member]; exact known) greenlet
    obtain ⟨kept, promised, after⟩ := side.step good still gentle
    exact ⟨kept, promised, after, fun _ _ _ => ⟨after, gentle.epoch.trans known⟩⟩

theorem upkeep (side : Side engine K P) (greenlet : Greenlet) :
    Upkeep engine K .generic greenlet P (fun session t => P t ∧ OfEpoch session t) (fun _ => P) where
  stable := side.stable
  knows session := side.keeps (· = some session.uidvalidity)
  fails _ _ _ held := held
  minor _ _ minor good held _ := side.step good held (gentle_minor minor)
  asks := side.asks
  selects := spec_mono side.selects (fun _ _ held => held) (fun _ _ _ held => ⟨held.1, held⟩)
    (fun _ _ _ held => held)
  downloads session uid := spec_mono (side.downloads greenlet session [uid])
    (fun _ _ held => held.2) (fun _ _ _ held => ⟨held.1, held⟩) (fun _ _ _ held => held)
  counts _ := side.sets nofun
  refreshes _ := side.sets nofun
  checks := side.setsHighestmodseq

end Side

/-! ## The engine's own greenlet -/

/-- What the others may do while the engine's own greenlet waits. -/
structure Around (engine : FolderSyncEngine) (s t : World) : Prop where
  polling : t.trace.polling = s.trace.polling
  epoch : t.epoch = s.epoch
  server : s.server.uidvalidity ≤ t.server.uidvalidity
  rows : s.trace.polling = false → t.rows engine = s.rows engine

/-- What the poller counts on as long as it lives. -/
def Beside (s t : World) : Prop :=
  s.trace.polling = true → t.trace.polling = true ∧ t.epoch = s.epoch

def owner (engine : FolderSyncEngine) : Contract (World.perform engine) where
  inv := Epoch engine
  admits _ _ := True
  rely := Around engine
  guar command s := command.signal = .none → Beside s (World.perform engine command s)
  rely_refl _ := ⟨rfl, rfl, Nat.le_refl _, fun _ => rfl⟩
  rely_trans first second :=
    ⟨second.polling.trans first.polling, second.epoch.trans first.epoch,
      first.server.trans second.server, fun alone =>
        (second.rows (first.polling.trans alone)).trans (first.rows alone)⟩

section Owner
variable {engine : FolderSyncEngine} {session : Session}

theorem owner_gentle {t : World} (gentle : Gentle engine t (World.perform engine command t)) :
    (owner engine).guar command t :=
  fun _ polling => ⟨gentle.polling.trans polling, gentle.epoch⟩

/-- Alone, it may do anything. -/
theorem owner_alone {t : World} (alone : Alone t) : (owner engine).guar command t := by
  intro _ polling
  rw [Alone, polling] at alone
  cases alone

theorem side_alone (engine : FolderSyncEngine) : Side engine (owner engine) Alone where
  inv _ := Iff.rfl
  stable _ _ alone moved _ := moved.polling.trans alone
  epoch _ _ _ moved := moved.epoch
  gentle _ _ alone gentle := ⟨owner_alone alone, gentle.polling.trans alone⟩

theorem side_owner (engine : FolderSyncEngine) : Side engine (owner engine) (fun _ => True) where
  inv _ := Iff.rfl
  stable _ _ _ _ _ := trivial
  epoch _ _ _ moved := moved.epoch
  gentle _ _ _ gentle := ⟨owner_gentle gentle, trivial⟩

theorem owner_issues {routine : Call α} (minor : Minor routine) :
    (owner engine).Spec Alone routine (fun _ => Alone) (fun _ => Alone) :=
  (side_alone engine).does (gentle_issues minor)

/-- The poller is not there, and the session is neither ahead of the server nor behind the row. -/
structure Opened (session : Session) (t : World) : Prop where
  alone : Alone t
  server : session.uidvalidity ≤ t.server.uidvalidity
  saved : ∀ saved ∈ t.epoch, saved ≤ session.uidvalidity

theorem opened_stable (engine : FolderSyncEngine) (session : Session) :
    (owner engine).Stable (Opened session) := by
  rintro s t ⟨alone, server, saved⟩ moved _
  refine ⟨moved.polling.trans alone, server.trans moved.server, ?_⟩
  rw [moved.epoch]
  exact saved

theorem owner_selects {cb : Session → Call Unit} {post : Session → World → Prop}
    (posts : ∀ session, (owner engine).Stable (post session))
    (checks : ∀ session, (owner engine).Spec (Opened session) (cb session) (fun _ => post session)
      (fun _ => Alone)) :
    (owner engine).Spec Alone (selectFolder cb) post (fun _ => Alone) :=
  spec_selectFolder Opened (side_alone engine).stable (opened_stable engine) posts
    (fun _ _ _ held => held) (side_alone engine).asks (fun _ good alone => ⟨alone, Nat.le_refl _, good.behind⟩) checks

theorem Opened.gentle {t : World} (opened : Opened session t)
    (gentle : Gentle engine t (World.perform engine command t)) :
    Opened session (World.perform engine command t) where
  alone := gentle.polling.trans opened.alone
  server := by
    rw [World.perform_server]
    exact opened.server
  saved := by
    rw [gentle.epoch]
    exact opened.saved

/-! ## Resync -/

/-- Every row of the folder is still to be removed. -/
def Emptying (engine : FolderSyncEngine) (session : Session) (uids : List Nat) (t : World) : Prop :=
  Opened session t ∧ ∀ row ∈ t.rows engine, row.msgUid ∈ uids

theorem emptying_stable (engine : FolderSyncEngine) (session : Session) (uids : List Nat) :
    (owner engine).Stable (Emptying engine session uids) := by
  rintro s t ⟨opened, rows⟩ moved good
  refine ⟨opened_stable engine session s t opened moved good, ?_⟩
  rw [moved.rows opened.alone]
  exact rows

theorem owner_removes (uids : List Nat) :
    (owner engine).Spec (Emptying engine session uids) (removeDeletedUids uids)
      (fun _ => Emptying engine session []) (fun _ => Alone) := by
  refine spec_each (Emptying engine session) (emptying_stable engine session []) fun uid rest => ?_
  refine spec_transact (emptying_stable engine session _) (fun _ => emptying_stable engine session rest)
    (side_alone engine).stable fun t good emptying _ => ?_
  have gentle : Gentle engine t (World.perform engine (.removeUid uid) t) := gentle_removeUid uid
  have opened := emptying.1.gentle gentle
  refine ⟨gentle.epochs good, owner_alone emptying.1.alone, opened.alone, fun _ calm _ => ⟨opened, ?_⟩⟩
  intro row member
  simp only [World.rows, World.perform, World.commit, calm, removeDeletedUid_rows] at member
  obtain ⟨old, other⟩ := List.mem_filter.mp member
  rcases List.mem_cons.mp (emptying.2 row old) with same | later
  · simp [same] at other
  · exact later

theorem epoch_write_uidvalidity {t : World} (good : Epoch engine t) (opened : Opened session t)
    (empty : t.rows engine = []) :
    Epoch engine (World.perform engine (.write (.uidvalidity session.uidvalidity)) t) := by
  rcases t.commit_cases fun store => { store with
    info := store.info.map fun info => info.write (.uidvalidity session.uidvalidity) } with same | same
  · refine good.congr (World.perform_server ..) ?_ ?_ <;> simp only [World.perform, same]
  · have epoch : (World.perform engine (.write (.uidvalidity session.uidvalidity)) t).epoch =
        t.epoch.map fun _ => session.uidvalidity := by
      simp only [World.perform, same, World.epoch, Option.map_map]
      rfl
    constructor
    · intro row member
      simp only [World.rows, World.perform, same] at member
      rw [show t.store.db.rows engine.folderId = [] from empty] at member
      cases member
    · intro saved stored
      rw [epoch] at stored
      obtain ⟨_, _, rfl⟩ := Option.map_eq_some_iff.mp stored
      rw [World.perform_server]
      exact opened.server
    · intro value held
      simp only [World.perform, World.commit_memory] at held
      obtain ⟨saved, stored, below⟩ := good.cached value held
      refine ⟨session.uidvalidity, ?_, below.trans (opened.saved saved stored)⟩
      rw [epoch, show t.epoch = some saved from stored]
      rfl

/-- The empty folder takes the UIDVALIDITY of the session, and then the engine its copy. -/
theorem owner_adopts : (owner engine).Spec (Emptying engine session [])
    (setAttribute (.uidvalidity session.uidvalidity)) (fun _ => Alone) (fun _ => Alone) := by
  have alone := (side_alone engine).stable
  have known : (owner engine).Stable fun t => Alone t ∧ OfEpoch session t :=
    (side_alone engine).keeps (· = some session.uidvalidity)
  have written : (owner engine).Spec (Emptying engine session [])
      (updateImapFolderInfo (.uidvalidity session.uidvalidity))
      (fun _ t => Alone t ∧ OfEpoch session t) (fun _ => Alone) := by
    refine spec_transact (emptying_stable engine session []) (fun _ => known) alone
      fun t good emptying _ => ?_
    obtain ⟨opened, rows⟩ := emptying
    have empty : t.rows engine = [] := List.eq_nil_iff_forall_not_mem.mpr fun row member =>
      List.not_mem_nil (rows row member)
    have still : Alone (World.perform engine (.write (.uidvalidity session.uidvalidity)) t) := by
      simpa [Alone, World.perform] using opened.alone
    refine ⟨epoch_write_uidvalidity good opened empty, owner_alone opened.alone, still,
      fun _ calm reply => ⟨still, ?_⟩⟩
    obtain ⟨info, saved, _⟩ := Option.map_eq_some_iff.mp reply
    simp only [OfEpoch, World.epoch, World.perform, World.commit, calm, saved]
    rfl
  refine spec_bind written fun _ => spec_issue known (fun _ => alone) (fun _ => alone) ?_
  rintro t good ⟨held, stored⟩ _
  refine ⟨?_, owner_alone held, held⟩
  constructor
  · exact good.rows
  · exact good.behind
  · rintro value ⟨⟩
    exact ⟨_, stored, Nat.le_refl _⟩

theorem owner_discardUids :
    (owner engine).Spec (Opened session) (discardUids engine session) (fun _ => Alone)
      (fun _ => Alone) := by
  have listed : (owner engine).Spec (Opened session) (localUids engine)
      (fun uids => Emptying engine session uids) (fun _ => Alone) := by
    refine spec_query (opened_stable engine session) (emptying_stable engine session)
      (side_alone engine).stable (fun t _ opened => owner_alone opened.alone)
      (fun _ opened => opened.alone) fun t _ opened _ => ⟨opened, fun row member => ?_⟩
    exact mem_localUids.mpr ⟨row, member, rfl⟩
  refine spec_bind listed fun invalidUids => spec_bind (owner_removes invalidUids) fun _ => ?_
  refine spec_bind owner_adopts fun _ => ?_
  refine spec_bind ((side_alone engine).setsHighestmodseq none) fun _ => ?_
  exact (side_alone engine).sets nofun

theorem owner_resyncUids : (owner engine).Spec Alone (resyncUids engine .generic)
    (fun _ => Alone) (fun _ => Alone) := by
  have alone := (side_alone engine).stable
  have selected : (owner engine).Spec Alone (selectFolder noCb) Opened (fun _ => Alone) :=
    owner_selects (opened_stable engine) fun session =>
      spec_ret (opened_stable engine session) fun _ _ opened => opened
  have loaded : ∀ session, (owner engine).Spec (Opened session) uidvalidity
      (fun _ => Opened session) (fun _ => Alone) := by
    intro session
    have stable := opened_stable engine session
    refine spec_load stable (fun _ => stable) alone (fun t _ opened => owner_alone opened.alone)
      (fun _ _ _ opened _ => opened) fun t good opened _ => ?_
    have gentle : Gentle engine t (World.perform engine (.load .uidvalidity) t) := gentle_load _
    have still := opened.gentle gentle
    exact ⟨gentle.epochs good, owner_alone opened.alone, still.alone, fun _ _ _ => still⟩
  refine spec_bind (spec_bind selected fun session => spec_bind (loaded session) fun saved => ?_)
    fun _ => spec_ret alone fun _ _ held => held
  have finished : (owner engine).Spec Alone (local_ (.resynced session.uidvalidity))
      (fun _ => Alone) (fun _ => Alone) := by
    refine spec_issue alone (fun _ => alone) (fun _ => alone) fun t good held _ => ?_
    exact ⟨good.congr rfl rfl rfl, owner_alone held, held⟩
  refine spec_bind ?_ fun _ => finished
  unfold unlessUnchanged
  split
  · exact spec_ret (opened_stable engine session) fun _ _ opened => opened.alone
  · exact owner_discardUids

/-! ## Initial sync -/

/-- The callback of the module looks at the row itself. -/
theorem owner_moduleUidvalidityCb : (owner engine).Spec (Opened session) (moduleUidvalidityCb session)
    (fun _ t => Opened session t ∧ (t.epoch = none ∨ OfEpoch session t)) (fun _ => Alone) := by
  have opened := opened_stable engine session
  have known : ∀ known : Option Nat → Prop,
      (owner engine).Stable fun t => Opened session t ∧ known t.epoch := by
    rintro known s t ⟨held, knew⟩ moved good
    refine ⟨opened s t held moved good, ?_⟩
    rw [moved.epoch]
    exact knew
  have reads : (owner engine).Spec (Opened session)
      (query fun w => w.store.info.map ImapFolderInfo.uidvalidity)
      (fun saved t => Opened session t ∧ t.epoch = saved) (fun _ => Alone) :=
    spec_query opened (fun saved => known (· = saved)) (side_alone engine).stable
      (fun t _ held => owner_alone held.alone) (fun _ held => held.alone) fun _ _ held _ => ⟨held, rfl⟩
  refine spec_bind reads fun saved => ?_
  cases saved with
  | none => exact spec_ret (known (· = none)) fun _ _ held => ⟨held.1, .inl held.2⟩
  | some saved =>
    dsimp only
    split
    · rename_i valid
      refine spec_ret (known (· = some saved)) fun t _ held => ⟨held.1, .inr ?_⟩
      have below := held.1.saved saved held.2
      have same : saved = session.uidvalidity := by omega
      rw [OfEpoch, held.2, same]
    · exact spec_raise (known (· = some saved)) fun _ _ held => held.1.alone

/-- A folder that has no row yet has no UIDs and no copy either. -/
theorem epoch_createInfo {t : World} (good : Epoch engine t) (opened : Opened session t)
    (checked : t.epoch = none ∨ OfEpoch session t) :
    Epoch engine (World.perform engine (.createInfo session) t) ∧
      (t.store.fault = none → OfEpoch session (World.perform engine (.createInfo session) t)) := by
  rcases checked with unsaved | saved
  · have missing : t.store.info = none := Option.map_eq_none_iff.mp unsaved
    have empty : t.rows engine = [] := by
      refine List.eq_nil_iff_forall_not_mem.mpr fun row member => ?_
      have stored := good.rows row member
      rw [unsaved] at stored
      cases stored
    constructor
    · rw [World.perform]
      rcases t.commit_cases fun store => { store with
        info := some (store.info.getD
          { uidvalidity := session.uidvalidity, highestmodseq := none, uidnext := session.uidnext
            lastSlowRefresh := none }) } with same | same
      · rw [same]
        exact good
      · rw [same]
        constructor
        · intro row member
          rw [World.rows] at member
          rw [show t.store.db.rows engine.folderId = [] from empty] at member
          cases member
        · simpa [World.epoch, missing] using opened.server
        · intro value held
          obtain ⟨saved, stored, _⟩ := good.cached value held
          rw [unsaved] at stored
          cases stored
    · intro calm
      simp [OfEpoch, World.epoch, World.perform, World.commit, calm, missing]
  · obtain ⟨info, found, same⟩ := Option.map_eq_some_iff.mp saved
    have gentle : Gentle engine t (World.perform engine (.createInfo session) t) := by
      rw [World.perform]
      apply gentle_commit
      · simp [World.epoch, found]
      · exact fun row member => .inr ⟨row, member, rfl⟩
    exact ⟨gentle.epochs good, fun _ => gentle.epoch.trans saved⟩

theorem owner_initialSyncImpl : (owner engine).Spec (fun t => Alone t ∧ OfEpoch session t)
    (initialSyncImpl engine .generic session) (fun _ => Alone) (fun _ => Alone) := by
  have alone := (side_alone engine).stable
  have known : (owner engine).Stable fun t => Alone t ∧ OfEpoch session t :=
    (side_alone engine).keeps (· = some session.uidvalidity)
  have compared : (owner engine).Spec (fun t => Alone t ∧ OfEpoch session t)
      (compareUids engine session) (fun _ t => Alone t ∧ OfEpoch session t) (fun _ => Alone) :=
    spec_mono ((side_alone engine).issues (· = some session.uidvalidity) (gentle_issues minor_compareUids))
      (fun _ _ held => held) (fun _ _ _ held => held) (fun _ _ _ held => held.1)
  have polled : (owner engine).Stable fun t => True ∧ OfEpoch session t :=
    (side_owner engine).keeps (· = some session.uidvalidity)
  have spawned : (owner engine).Spec (fun t => Alone t ∧ OfEpoch session t) (local_ .spawn)
      (fun _ t => True ∧ OfEpoch session t) (fun _ => Alone) := by
    refine spec_issue known (fun _ => polled) (fun _ => alone) fun t good held _ => ?_
    exact ⟨good.congr rfl rfl rfl, owner_alone held.1, trivial, held.2⟩
  have killed : (owner engine).Spec (fun _ => True) (local_ .kill) (fun _ => Alone) (fun _ => Alone) := by
    refine spec_issue (side_owner engine).stable (fun _ => alone) (fun _ => alone) fun t good _ _ => ?_
    exact ⟨good.congr rfl rfl rfl, by rintro ⟨⟩, rfl⟩
  refine spec_bind compared fun newUids => spec_bind spawned fun _ => ?_
  refine spec_ensure (spec_each (fun _ t => True ∧ OfEpoch session t) polled
    fun uid _ => (side_owner engine).downloads .engine session [uid]) (fun _ => ?_) fun _ => killed
  exact spec_mono killed (fun _ _ _ => trivial) (fun _ _ _ held => held) (fun _ _ _ held => held)

theorem owner_initialSync : (owner engine).Spec Alone (initialSync engine .generic)
    (fun _ => Alone) (fun _ => Alone) := by
  have checkedStable : ∀ session, (owner engine).Stable fun t =>
      Opened session t ∧ (t.epoch = none ∨ OfEpoch session t) := by
    rintro session s t ⟨held, checked⟩ moved good
    refine ⟨opened_stable engine session s t held moved good, ?_⟩
    rw [OfEpoch, moved.epoch]
    exact checked
  have created : ∀ session, (owner engine).Spec
      (fun t => Opened session t ∧ (t.epoch = none ∨ OfEpoch session t))
      (transact (.createInfo session) fun _ => some ()) (fun _ t => Alone t ∧ OfEpoch session t)
      (fun _ => Alone) := by
    intro session
    refine spec_transact (checkedStable session)
      (fun _ => (side_alone engine).keeps (· = some session.uidvalidity)) (side_alone engine).stable ?_
    rintro t good ⟨opened, checked⟩ _
    obtain ⟨kept, saved⟩ := epoch_createInfo good opened checked
    have still : Alone (World.perform engine (.createInfo session) t) := by
      simpa [Alone, World.perform] using opened.alone
    exact ⟨kept, owner_alone opened.alone, still, fun _ calm _ => ⟨still, saved calm⟩⟩
  refine spec_bind (owner_issues minor_imap) fun _ => ?_
  refine spec_bind (owner_selects checkedStable fun _ => owner_moduleUidvalidityCb) fun session => ?_
  refine spec_bind (created session) fun _ => spec_bind owner_initialSyncImpl fun _ => ?_
  refine spec_bind (owner_issues minor_query) fun _ => ?_
  exact spec_ret (side_alone engine).stable fun _ _ held => held

theorem owner_handle (state : String) : (owner engine).Spec Alone (handle engine .generic state)
    (fun _ => Alone) (fun _ => Alone) := by
  have alone := (side_alone engine).stable
  rcases handle_cases engine .generic state with ⟨_, same | same⟩ | ⟨_, same | same⟩ <;> rw [same]
  · exact owner_initialSync
  · exact spec_bind ((side_alone engine).upkeep .engine).pollImpl fun _ =>
      spec_ret alone fun _ _ held => held
  · exact owner_resyncUids
  · exact spec_raise alone fun _ _ held => held

end Owner

/-! ## Both greenlets -/

def poller (engine : FolderSyncEngine) : Contract (World.perform engine) where
  inv := Epoch engine
  admits _ _ := True
  rely := Beside
  guar command s := s.trace.polling = true ∧ Gentle engine s (World.perform engine command s)
  rely_refl _ polling := ⟨polling, rfl⟩
  rely_trans first second polling := by
    obtain ⟨still, epoch⟩ := first polling
    obtain ⟨last, same⟩ := second still
    exact ⟨last, same.trans epoch⟩

section Poller
variable {engine : FolderSyncEngine}

theorem side_poller (engine : FolderSyncEngine) :
    Side engine (poller engine) (fun t => t.trace.polling = true) where
  inv _ := Iff.rfl
  stable _ _ polling moved _ := (moved polling).1
  epoch _ _ polling moved := (moved polling).2
  gentle _ _ polling gentle := ⟨⟨polling, gentle⟩, gentle.polling.trans polling⟩

theorem poller_pollImpl {w : World} (good : Epoch engine w) (polling : w.trace.polling = true) :
    (poller engine).wp (fun _ t => t.trace.polling = true) (fun _ t => t.trace.polling = true)
      (pollImpl engine .generic .poller) w :=
  ((side_poller engine).upkeep .poller).pollImpl w good polling

theorem moves_epoch {w t : World} (good : Epoch engine w) (moved : Moves engine Server.Ages w t) :
    Epoch engine t ∧ t.epoch = w.epoch ∧ t.trace.polling = w.trace.polling := by
  have epoch : t.epoch = w.epoch := by rw [World.epoch, moved.info, World.epoch]
  refine ⟨⟨?_, ?_, ?_⟩, epoch, ?_⟩
  · rw [moved.rows, epoch]
    exact good.rows
  · rw [epoch]
    exact fun saved stored => (good.behind saved stored).trans moved.server
  · rw [moved.memory, epoch]
    exact good.cached
  · rw [moved.trace]
    split <;> rfl

/-- The two greenlets get along with each other, and a new process starts like the first one. -/
def epochProtocol (engine : FolderSyncEngine) :
    Crew.Protocol (plan engine .generic Server.Ages fun _ _ => True) where
  main := owner engine
  helper := poller engine
  mainEnd _ := Alone
  helperEnd _ t := t.trace.polling = true
  same_inv _ := Iff.rfl
  admits_main _ := trivial
  admits_helper _ := trivial
  main_to_helper quiet _ promised := promised quiet
  helper_to_main := by
    rintro command s _ ⟨polling, gentle⟩
    refine ⟨gentle.polling, gentle.epoch, Nat.le_of_eq (congrArg _ gentle.server.symm), fun alone => ?_⟩
    rw [polling] at alone
    cases alone
  env_moves := by
    intro s t good moved
    obtain ⟨kept, epoch, polling⟩ := moves_epoch good moved
    exact ⟨kept, ⟨polling, epoch, moved.server, fun _ => moved.rows⟩,
      fun before => ⟨polling.trans before, epoch⟩⟩
  spawned := by
    intro command s spawn good _
    cases command with
    | spawn => exact poller_pollImpl (good.congr rfl rfl rfl) rfl
    | _ => cases spawn
  again good _ polling := poller_pollImpl good polling
  resumed := by
    intro s result t next good alone resumed
    obtain ⟨same, rfl⟩ := resumed.frame
    have kept : Epoch engine t := by
      rw [same]
      exact good.congr rfl rfl rfl
    have still : Alone t := by
      rw [same]
      exact alone
    refine ⟨kept, fun polling => ?_, owner_handle _ t kept still⟩
    rw [show s.trace.polling = false from alone] at polling
    cases polling
  restarted := by
    rintro s t next good ⟨rfl, rfl⟩
    have kept : Epoch engine s.restart := ⟨good.rows, good.behind, by rintro _ ⟨⟩⟩
    exact ⟨kept, owner_handle _ _ kept rfl⟩

end Poller

/-- From any start at which the rows of the folder are of the stored UIDVALIDITY, a folder without
rows among them, they are so in every state that the greenlets reach, whatever is interrupted or
killed, if only the server never goes back to a smaller UIDVALIDITY. -/
theorem epochs_never_mixed {engine : FolderSyncEngine} {w : World} (one : OneEpoch engine w)
    (behind : ∀ saved ∈ w.epoch, saved ≤ w.server.uidvalidity)
    (reached : Reaches engine .generic Server.Ages (fun _ _ => True) w crew) :
    OneEpoch engine crew.shared := by
  have fresh : Epoch engine w.restart := ⟨oneEpoch_iff.mp one, behind, by rintro _ ⟨⟩⟩
  have starts : (epochProtocol engine).Runs (started engine .generic w) :=
    ⟨fresh, owner_handle _ _ fresh rfl, by rintro routine ⟨⟩⟩
  exact oneEpoch_iff.mpr ((epochProtocol engine).reach_runs starts reached).1.rows

namespace Trial

/-- A folder with one message, which initial sync downloads while the poller looks for changes. -/
def oneMessage : World := world (server 2 (mailbox 2 1 fun _ => version)) none

def downloading : Option (Crew World Command Exc String Unit) :=
  Crew.follow (plan self .generic Server.Ages fun _ _ => True)
    (List.replicate 10 .main ++ List.replicate 3 .helper) (started self .generic oneMessage)

end Trial

open Trial in
theorem one_epoch_while_downloading :
    ∃ crew ∈ downloading, crew.helper.isSome ∧ crew.shared.rows self ≠ [] ∧ OneEpoch self crew.shared := by
  have run : downloading.any fun crew => crew.helper.isSome ∧ crew.shared.rows self ≠ [] := by decide
  obtain ⟨crew, followed, downloaded⟩ := (Option.any_eq_true _ _).mp run
  obtain ⟨helping, rows⟩ := of_decide_eq_true downloaded
  have reached : Reaches self .generic Server.Ages (fun _ _ => True) oneMessage crew :=
    Crew.follow_reach followed
  exact ⟨crew, followed, helping, rows, epochs_never_mixed ⟨0, by decide⟩ (by decide) reached⟩

end Imap
end SyncEngine
