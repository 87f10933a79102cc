import SyncEngine.Mailsync.FolderRows
import SyncEngine.Mailsync.Imap.Alone

/-! The generic resync as the sequence of its commits, and what a process that starts again after
each of them makes of the folder. -/
namespace SyncEngine
namespace Imap
open Cooperative

def Store.removed (self : FolderSyncEngine) (now : Nat) (uids : List Nat) (store : Store) : Store :=
  { store with db := Common.removeDeletedUids now self.folderId uids store.db }

/-- After the first of the removals, after the second, and so on. -/
def removalStores (self : FolderSyncEngine) (now : Nat) : List Nat → Store → List Store
  | [], _ => []
  | uid :: rest, store =>
    store.removed self now [uid] :: removalStores self now rest (store.removed self now [uid])

def Store.withInfo (store : Store) (info : ImapFolderInfo) : Store := { store with info := some info }

section Removals
variable {self : FolderSyncEngine} {w : World}

theorem length_removalStores (now : Nat) (uids : List Nat) (store : Store) :
    (removalStores self now uids store).length = uids.length := by
  induction uids generalizing store with
  | nil => rfl
  | cons uid rest ih => simp only [removalStores, List.length_cons, ih]

theorem removalStores_frame (member : store ∈ removalStores self now uids before) :
    store.info = before.info ∧ store.fault = before.fault := by
  induction uids generalizing before with
  | nil => cases member
  | cons uid rest ih =>
    rcases List.mem_cons.mp member with rfl | later
    · exact ⟨rfl, rfl⟩
    · have frame := ih later
      exact frame

theorem does_removals (quiet : w.Quiet) (uids : List Nat) :
    Does self (removeDeletedUids uids) w () (removalStores self w.now uids w.store)
      { w with store := w.store.removed self w.now uids } := by
  induction uids generalizing w with
  | nil => exact does_ret
  | cons uid rest ih =>
    have removed : World.perform self (.removeUid uid) w =
        { w with store := w.store.removed self w.now [uid] } := by
      simp only [World.perform, World.commit_quiet quiet]
      rfl
    have first : Does self (transact (.removeUid uid) fun _ => some ()) w () _ _ :=
      does_transact quiet rfl
    rw [removed] at first
    exact does_bind first (ih quiet)

end Removals

/-! ## One resync -/
section Resync
variable (self : FolderSyncEngine) {w : World} {info : ImapFolderInfo}

theorem does_write (quiet : w.Quiet) (saved : w.store.info = some info) (write : Write) :
    Does self (updateImapFolderInfo write) w () [w.store.withInfo (info.write write)]
      { w with
        store := w.store.withInfo (info.write write)
        trace := { w.trace with setting := w.setting (.write write) } } := by
  have written : Does self (updateImapFolderInfo write) w () _ _ :=
    does_transact quiet (by rw [saved]; rfl)
  simpa only [World.perform, World.commit_quiet quiet, saved, Option.map_some, Command.commits,
    if_true, Store.withInfo] using written

theorem does_setAttribute (quiet : w.Quiet) (saved : w.store.info = some info) (write : Write) :
    ∃ t, Does self (setAttribute write) w () [w.store.withInfo (info.write write)] t ∧
      t.store = w.store.withInfo (info.write write) ∧ t.server = w.server ∧ t.now = w.now :=
  ⟨_, does_bind (does_write self quiet saved write) (does_local rfl), rfl, rfl, rfl⟩

theorem does_setHighestmodseq (quiet : w.Quiet) (saved : w.store.info = some info)
    (value : Option Nat) :
    ∃ t, Does self (setHighestmodseq value) w ()
        [w.store.withInfo (info.write (.highestmodseq value))] t ∧
      t.store = w.store.withInfo (info.write (.highestmodseq value)) ∧ t.server = w.server ∧
        t.now = w.now ∧ t.memory.highestmodseq = some value := by
  let a := World.perform self (.cache (.highestmodseq value)) w
  have cached : Does self (local_ (.cache (.highestmodseq value))) w () [] a := does_local rfl
  have quietA : a.Quiet := quiet
  have written := does_write self quietA saved (.highestmodseq value)
  exact ⟨_, does_bind cached written, rfl, rfl, rfl, rfl⟩

theorem does_noteWaiting (self : FolderSyncEngine) (w : World) (waiting : Nat → Bool) :
    ∃ t, Does self (noteWaiting waiting) w () [] t ∧ t.store = w.store ∧ t.server = w.server :=
  ⟨_, does_local rfl, rfl, rfl⟩

/-- The row while the resync to `session` is under way. -/
def ImapFolderInfo.inEpoch (info : ImapFolderInfo) (session : Session) : ImapFolderInfo :=
  { info with uidvalidity := session.uidvalidity }

def ImapFolderInfo.forgotten (info : ImapFolderInfo) (session : Session) : ImapFolderInfo :=
  { info.inEpoch session with highestmodseq := none }

def ImapFolderInfo.resynced (info : ImapFolderInfo) (session : Session) : ImapFolderInfo :=
  { info.forgotten session with uidnext := session.uidnext }

theorem does_discardUids (quiet : w.Quiet) (saved : w.store.info = some info) (session : Session) :
    let uids := Common.localUids w.store.db self.folderId
    let emptied := w.store.removed self w.now uids
    ∃ t, Does self (discardUids self session) w ()
        (removalStores self w.now uids w.store ++
          [emptied.withInfo (info.inEpoch session), emptied.withInfo (info.forgotten session),
            emptied.withInfo (info.resynced session)]) t ∧
      t.store = emptied.withInfo (info.resynced session) := by
  intro uids emptied
  have removed : Does self (removeDeletedUids uids) w () _ _ := does_removals quiet uids
  obtain ⟨a, epoch, epochStore, epochServer, epochNow⟩ := does_setAttribute self
    (w := { w with store := emptied }) quiet saved (.uidvalidity session.uidvalidity)
  have quietA : a.Quiet := ⟨epochServer ▸ quiet.1, epochStore ▸ quiet.2⟩
  obtain ⟨b, forgot, forgotStore, forgotServer, forgotNow, _⟩ := does_setHighestmodseq self
    quietA (by rw [epochStore]; rfl) none
  have quietB : b.Quiet := ⟨forgotServer ▸ quietA.1, forgotStore ▸ quietA.2⟩
  obtain ⟨c, counted, countedStore, _⟩ := does_setAttribute self quietB
    (by rw [forgotStore]; rfl) (.uidnext session.uidnext)
  refine ⟨c, ?_, ?_⟩
  · rw [forgotStore] at counted
    rw [epochStore] at forgot counted
    have last : Does self (do
        setHighestmodseq none
        setAttribute (.uidnext session.uidnext)) a () _ c := does_bind forgot counted
    have writes : Does self (do
        setAttribute (.uidvalidity session.uidvalidity)
        setHighestmodseq none
        setAttribute (.uidnext session.uidnext)) _ () _ c := does_bind epoch last
    have all : Does self (discardUids self session) w () ([] ++ _) c :=
      does_bind (does_query quiet) (does_bind removed writes)
    exact all
  · rw [countedStore, forgotStore, epochStore]
    rfl

/-- The stores of all commits of the resync of `w`. -/
def resyncStores (info : ImapFolderInfo) (w : World) : List Store :=
  let uids := Common.localUids w.store.db self.folderId
  let emptied := w.store.removed self w.now uids
  let session := w.server.selectInfo
  removalStores self w.now uids w.store ++ [emptied.withInfo (info.inEpoch session),
    emptied.withInfo (info.forgotten session), emptied.withInfo (info.resynced session)]

theorem does_select (quiet : w.Quiet) :
    Does self (selectFolder noCb) w w.server.selectInfo [] w := by
  have checked : Does self (do noCb w.server.selectInfo; .ret w.server.selectInfo) w
      w.server.selectInfo ([] ++ []) w := does_bind does_ret does_ret
  have all : Does self (selectFolder noCb) w w.server.selectInfo ([] ++ ([] ++ [])) w :=
    does_bind (does_imap quiet) checked
  exact all

theorem does_uidvalidity (quiet : w.Quiet) (saved : w.store.info = some info)
    (cached : ∀ value ∈ w.memory.uidvalidity, value = info.uidvalidity) :
    ∃ t, Does self uidvalidity w info.uidvalidity [] t ∧
      t.store = w.store ∧ t.server = w.server ∧ t.now = w.now := by
  obtain ⟨t, loaded, same⟩ := does_load self quiet saved cached
  refine ⟨t, loaded, ?_⟩
  rcases same with rfl | rfl <;> exact ⟨rfl, rfl, rfl⟩

/-- What follows the comparison of the UIDVALIDITYs decides about the whole resync. -/
theorem does_resync (quiet : w.Quiet) (saved : w.store.info = some info)
    (cached : ∀ value ∈ w.memory.uidvalidity, value = info.uidvalidity)
    (rest : ∀ t : World, t.store = w.store → t.server = w.server → t.now = w.now → ∃ last,
      Does self (unlessUnchanged w.server.selectInfo info.uidvalidity
        (discardUids self w.server.selectInfo)) t () stores last ∧ last.store = final) :
    ∃ last, Does self (resyncUids self .generic) w "initial" stores last ∧ last.store = final := by
  obtain ⟨t, loaded, sameStore, sameServer, sameNow⟩ := does_uidvalidity self quiet saved cached
  obtain ⟨last, discarded, left⟩ := rest t sameStore sameServer sameNow
  let note := Command.resynced w.server.selectInfo.uidvalidity
  have noted : Does self (local_ note) last () [] (World.perform self note last) := does_local rfl
  have compared : Does self (do
      let saved ← uidvalidity
      unlessUnchanged w.server.selectInfo saved (discardUids self w.server.selectInfo)
      local_ note) w () ([] ++ (stores ++ [])) (World.perform self note last) :=
    does_bind loaded (does_bind discarded noted)
  have impl : Does self (resyncUidsImpl self .generic) w () ([] ++ ([] ++ (stores ++ []))) _ :=
    does_bind (does_select self quiet) compared
  have all : Does self (resyncUids self .generic) w "initial" _ _ := does_bind impl does_ret
  refine ⟨World.perform self note last, ?_, left⟩
  simpa only [List.nil_append, List.append_nil] using all

theorem does_resync_changed (quiet : w.Quiet) (saved : w.store.info = some info)
    (cached : ∀ value ∈ w.memory.uidvalidity, value = info.uidvalidity)
    (changed : info.uidvalidity < w.server.uidvalidity) :
    ∃ last, Does self (resyncUids self .generic) w "initial" (resyncStores self info w) last ∧
      last.store = (w.store.removed self w.now (Common.localUids w.store.db self.folderId)).withInfo
        (info.resynced w.server.selectInfo) := by
  refine does_resync self quiet saved cached fun t sameStore sameServer sameNow => ?_
  have quietT : t.Quiet := ⟨sameServer ▸ quiet.1, sameStore ▸ quiet.2⟩
  obtain ⟨last, discarded, left⟩ := does_discardUids self quietT (sameStore ▸ saved) w.server.selectInfo
  have larger : ¬ w.server.selectInfo.uidvalidity ≤ info.uidvalidity := Nat.not_le.mpr changed
  rw [sameStore, sameNow] at discarded left
  refine ⟨last, ?_, left⟩
  rw [unlessUnchanged, if_neg larger]
  exact discarded

theorem does_resync_unchanged (quiet : w.Quiet) (saved : w.store.info = some info)
    (cached : ∀ value ∈ w.memory.uidvalidity, value = info.uidvalidity)
    (unchanged : w.server.uidvalidity ≤ info.uidvalidity) :
    ∃ last, Does self (resyncUids self .generic) w "initial" [] last ∧ last.store = w.store := by
  refine does_resync self quiet saved cached fun t sameStore _ _ => ⟨t, ?_, sameStore⟩
  rw [unlessUnchanged, if_pos (show w.server.selectInfo.uidvalidity ≤ info.uidvalidity from unchanged)]
  exact does_ret

end Resync

/-! ## A crash and a new process -/

/-- What a resync is to leave: no UID of the old epoch, and no attribute of it. `reported` are
the values of UIDNEXT that the server gave in the new epoch. -/
structure Resynced (folderId uidvalidity : Nat) (reported : List (Option Nat)) (store : Store) :
    Prop where
  empty : store.db.rows folderId = []
  info : ∃ info, store.info = some info ∧ info.uidvalidity = uidvalidity ∧
    info.highestmodseq = none ∧ info.uidnext ∈ reported

/-- The handler of the state in which a new process finds the folder. -/
def recover (self : FolderSyncEngine) (w : World) : World :=
  ((handle self .generic w.restart.status.state).run (World.perform self) w.restart).2

section Crash
variable {self : FolderSyncEngine} {w later : World} {info : ImapFolderInfo}

theorem handle_restart (saved : w.status.saved = some state)
    (invalid : stateHandlers.lookup state = some .resyncUids) :
    handle self .generic w.restart.status.state = resyncUids self .generic := by
  have same : w.restart.status.state = state := by simp [World.restart, Status.start, saved]
  rw [handle, same, invalid]
  rfl

/-- A new process that finds the old UIDVALIDITY resyncs once more. -/
theorem recover_changed (self : FolderSyncEngine) (saved : later.status.saved = some state)
    (invalid : stateHandlers.lookup state = some .resyncUids) (quiet : later.Quiet)
    (found : later.store.info = some info) (changed : info.uidvalidity < later.server.uidvalidity) :
    Resynced self.folderId later.server.uidvalidity [later.server.selectInfo.uidnext]
      (recover self later).store := by
  obtain ⟨last, done, left⟩ := does_resync_changed self (w := later.restart) quiet found
    (by rintro value ⟨⟩) changed
  have recovered : recover self later = last := by rw [recover, handle_restart saved invalid, done.1]
  rw [recovered, left]
  exact ⟨removeDeletedUids_all _ _, _, rfl, rfl, rfl, List.mem_singleton_self _⟩

/-- One that finds the new UIDVALIDITY leaves everything as it is. -/
theorem recover_unchanged (saved : later.status.saved = some state)
    (invalid : stateHandlers.lookup state = some .resyncUids) (quiet : later.Quiet)
    (found : later.store.info = some info) (unchanged : later.server.uidvalidity ≤ info.uidvalidity) :
    (recover self later).store = later.store := by
  obtain ⟨last, done, left⟩ := does_resync_unchanged self (w := later.restart) quiet found
    (by rintro value ⟨⟩) unchanged
  have recovered : recover self later = last := by rw [recover, handle_restart saved invalid, done.1]
  rw [recovered, left]
  rfl

/-- Which commit of a resync is the last one, by its number. -/
theorem resyncStores_cases (found : w.store.info = some info)
    (crash : (resyncStores self info w)[j]? = some store) :
    let n := (Common.localUids w.store.db self.folderId).length
    let emptied := w.store.removed self w.now (Common.localUids w.store.db self.folderId)
    let session := w.server.selectInfo
    store.fault = w.store.fault ∧
      (j < n ∧ store.info = some info ∨ j = n ∧ store = emptied.withInfo (info.inEpoch session) ∨
        j = n + 1 ∧ store = emptied.withInfo (info.forgotten session) ∨
        j = n + 2 ∧ store = emptied.withInfo (info.resynced session)) := by
  intro n emptied session
  have many : (removalStores self w.now (Common.localUids w.store.db self.folderId) w.store).length = n :=
    length_removalStores _ _ _
  rcases Nat.lt_or_ge j n with before | after
  · rw [resyncStores, List.getElem?_append_left (many ▸ before)] at crash
    obtain ⟨sameInfo, sameFault⟩ := removalStores_frame (List.mem_of_getElem? crash)
    exact ⟨sameFault, .inl ⟨before, sameInfo.trans found⟩⟩
  · rw [resyncStores, List.getElem?_append_right (many ▸ after), many] at crash
    obtain ⟨k, rfl⟩ := Nat.exists_eq_add_of_le after
    rw [Nat.add_sub_cancel_left] at crash
    match k with
    | 0 =>
      cases crash
      exact ⟨rfl, .inr (.inl ⟨rfl, rfl⟩)⟩
    | 1 =>
      cases crash
      exact ⟨rfl, .inr (.inr (.inl ⟨rfl, rfl⟩))⟩
    | 2 =>
      cases crash
      exact ⟨rfl, .inr (.inr (.inr ⟨rfl, rfl⟩))⟩
    | k + 3 => cases crash

/-- The result of the restarted engine is that of an uninterrupted resync exactly when the process
died before the new UIDVALIDITY was written or after the last commit, or when the attributes that
were not written yet happened to have values of the new epoch. -/
theorem crash_recovers_iff (quiet : w.Quiet) (found : w.store.info = some info)
    (cached : ∀ value ∈ w.memory.uidvalidity, value = info.uidvalidity)
    (changed : info.uidvalidity < w.server.uidvalidity)
    (saved : w.status.saved = some state) (invalid : stateHandlers.lookup state = some .resyncUids)
    (crash : (commits self (resyncUids self .generic) w)[j]? = some later.store)
    (kept : later.status.saved = w.status.saved) (calm : later.server.fault = none)
    (epoch : later.server.uidvalidity = w.server.uidvalidity) :
    let n := (Common.localUids w.store.db self.folderId).length
    let reported := [w.server.selectInfo.uidnext, later.server.selectInfo.uidnext]
    Resynced self.folderId w.server.uidvalidity reported (recover self later).store ↔
      j < n ∨ j = n + 2 ∨
        (info.uidnext ∈ reported ∧ (j = n + 1 ∨ j = n ∧ info.highestmodseq = none)) := by
  intro n reported
  obtain ⟨_, done, _⟩ := does_resync_changed self quiet found cached changed
  rw [done.2] at crash
  obtain ⟨sameFault, point⟩ := resyncStores_cases found crash
  have quietLater : later.Quiet := ⟨calm, sameFault.trans quiet.2⟩
  have savedLater : later.status.saved = some state := kept.trans saved
  have unwritten : ∀ partly : ImapFolderInfo, partly.uidvalidity = w.server.uidvalidity →
      later.store = (w.store.removed self w.now (Common.localUids w.store.db self.folderId)).withInfo
        partly → (Resynced self.folderId w.server.uidvalidity reported (recover self later).store ↔
          partly.highestmodseq = none ∧ partly.uidnext ∈ reported) := by
    intro partly same stored
    rw [recover_unchanged savedLater invalid quietLater (by rw [stored]; rfl)
      (by rw [epoch, same]), stored]
    constructor
    · rintro ⟨_, _, ⟨⟩, _, forgotten, counted⟩
      exact ⟨forgotten, counted⟩
    · rintro ⟨forgotten, counted⟩
      exact ⟨removeDeletedUids_all _ _, partly, rfl, same, forgotten, counted⟩
  rcases point with ⟨before, info⟩ | ⟨rfl, stored⟩ | ⟨rfl, stored⟩ | ⟨rfl, stored⟩
  · have again := recover_changed self savedLater invalid quietLater info (by rw [epoch]; exact changed)
    obtain ⟨empty, row, written, same, forgotten, counted⟩ := again
    refine iff_of_true ⟨empty, row, written, same.trans epoch, forgotten, ?_⟩ (.inl before)
    exact List.mem_cons_of_mem _ counted
  · rw [unwritten _ rfl stored]
    simp [ImapFolderInfo.inEpoch, and_comm, n]
  · rw [unwritten _ rfl stored]
    simp [ImapFolderInfo.forgotten, ImapFolderInfo.inEpoch, n]
  · rw [unwritten _ rfl stored]
    simp [ImapFolderInfo.resynced, ImapFolderInfo.forgotten, reported, n]

end Crash

namespace Trial

/-- The folder had one message when the server came to UIDVALIDITY 2. -/
def beforeResync : World :=
  let start := world (server 2 (mailbox 3 8 fun _ => version))
    (some { info 1 with highestmodseq := some 50, uidnext := some 9 })
  { start with
    store := { start.store with
      db := CreateMessage.commitMessages self.lookups 0 1 "inbox" [SyncEngine.Sample.msg] start.store.db }
    status := { initialStatus 1 with state := "poll uidinvalid", saved := some "poll uidinvalid" } }

/-- The process has died after commit number `j`. -/
def crashed (j : Nat) : World :=
  { beforeResync with
    store := (commits self (resyncUids self .generic) beforeResync)[j]?.getD beforeResync.store }

end Trial

open Trial in
theorem crash_recovers_after_last_write :
    Resynced 1 2 [some 3, some 3] (recover Trial.self (crashed 3)).store := by
  have crash : (commits Trial.self (resyncUids Trial.self .generic) beforeResync)[3]? =
      some (crashed 3).store := rfl
  exact (crash_recovers_iff ⟨rfl, rfl⟩ rfl (by rintro _ ⟨⟩) (by decide) rfl (by decide) crash rfl rfl
    rfl).mpr (.inr (.inl rfl))

open Trial in
/-- The modseq of the old epoch stays when the process dies after the new UIDVALIDITY is written. -/
theorem crash_keeps_old_modseq :
    (commits Trial.self (resyncUids Trial.self .generic) beforeResync)[1]? = some (crashed 1).store ∧
      ¬ Resynced 1 2 [some 3, some 3] (recover Trial.self (crashed 1)).store := by
  refine ⟨rfl, ?_⟩
  rintro ⟨_, _, ⟨⟩, _, ⟨⟩, _⟩

end Imap
end SyncEngine
