import SyncEngine.Mailsync.Imap.Attributes
import SyncEngine.Mailsync.Imap.Condstore

/-! The flags and labels of the rows that a Gmail resync keeps, and what the refresh that follows it
makes of them while the server goes on changing and other greenlets go on saving. -/
namespace SyncEngine
namespace Imap
open Cooperative Contract

/-! ## Flags and labels -/

/-- The label is one that `update_labels` leaves on a row, or puts on it, for this key. -/
def StandsFor (L : Lookups) (label : Label) (key : String × Option String) : Prop :=
  (label.name, some label.canonicalName) = key ∨ label = L.labelFindOrCreate key.1 key.2

/-- The row has the flags and the labels of this version of its message. -/
structure Shows (L : Lookups) (version : Version) (row : ImapUid) : Prop where
  columns : row.toFlagColumns = version.columns
  known : ∀ labels ∈ version.labels, ∀ label ∈ row.labels,
    ∃ key ∈ ImapUid.remoteLabels labels, StandsFor L label key
  complete : ∀ labels ∈ version.labels, ∀ key ∈ ImapUid.remoteLabels labels,
    ∃ label ∈ row.labels, StandsFor L label key

theorem updatedRow_labels (L : Lookups) (version : Version) (row : ImapUid)
    (listed : version.labels = some labels) :
    ∃ other : ImapUid, (Common.updatedRow L version.item row).labels =
      (other.updateLabels L.labelFindOrCreate labels).labels := by
  unfold Common.updatedRow Version.item
  rw [listed]
  exact ⟨_, rfl⟩

theorem shows_updatedRow (L : Lookups) (version : Version) (row : ImapUid) :
    Shows L version (Common.updatedRow L version.item row) := by
  refine ⟨updatedRow_columns L version row, fun labels listed => ?_, fun labels listed => ?_⟩
  · obtain ⟨other, same⟩ := updatedRow_labels L version row listed
    intro label member
    simp only [same, ImapUid.updateLabels, List.mem_append, List.mem_filter, List.mem_map,
      decide_eq_true_eq] at member
    rcases member with ⟨_, kept⟩ | ⟨key, added, rfl⟩
    · exact ⟨_, kept, .inl rfl⟩
    · exact ⟨key, added.1, .inr rfl⟩
  · obtain ⟨other, same⟩ := updatedRow_labels L version row listed
    intro key member
    simp only [same, ImapUid.updateLabels, List.mem_append, List.mem_filter, List.mem_map,
      decide_eq_true_eq]
    by_cases held : ∃ label ∈ other.labels, (label.name, some label.canonicalName) = key
    · obtain ⟨label, among, rfl⟩ := held
      exact ⟨label, .inl ⟨among, member⟩, .inl rfl⟩
    · exact ⟨_, .inr ⟨key, ⟨member, held⟩, rfl⟩, .inr rfl⟩

/-! ## A mailbox that goes on -/

/-- The row shows its message as it was at `modseq`, or as it has been later. -/
def AsOf (L : Lookups) (mailbox : Mailbox) (modseq : Nat) (row : ImapUid) : Prop :=
  ∀ old ∈ mailbox.history row.msgUid, old.modseq ≤ modseq →
    ∃ version ∈ mailbox.history row.msgUid, old.modseq ≤ version.modseq ∧ Shows L version row

/-- Messages change and disappear, and each change has a modseq that is new. -/
structure Mailbox.Advances (before after : Mailbox) : Prop where
  grown : before.highestmodseq ≤ after.highestmodseq
  expunged : ∀ uid, before.expunged uid → after.expunged uid
  history : ∀ uid, ∃ newer, after.history uid = newer ++ before.history uid ∧
    ∀ version ∈ newer, before.highestmodseq < version.modseq

namespace Mailbox.Advances
variable {a b c : Mailbox}

theorem refl (a : Mailbox) : a.Advances a where
  grown := Nat.le_refl _
  expunged _ gone := gone
  history _ := ⟨[], rfl, nofun⟩

theorem trans (first : a.Advances b) (second : b.Advances c) : a.Advances c where
  grown := Nat.le_trans first.grown second.grown
  expunged uid gone := second.expunged uid (first.expunged uid gone)
  history uid := by
    obtain ⟨early, grewEarly, newEarly⟩ := first.history uid
    obtain ⟨late, grewLate, newLate⟩ := second.history uid
    refine ⟨late ++ early, by rw [grewLate, grewEarly, List.append_assoc], fun version member => ?_⟩
    rcases List.mem_append.mp member with recent | older
    · exact Nat.lt_of_le_of_lt first.grown (newLate version recent)
    · exact newEarly version older

/-- What has a modseq of before was there before. -/
theorem old_mem (advances : a.Advances b) (member : version ∈ b.history uid)
    (old : version.modseq ≤ a.highestmodseq) : version ∈ a.history uid := by
  obtain ⟨newer, grew, fresh⟩ := advances.history uid
  rw [grew] at member
  rcases List.mem_append.mp member with recent | older
  · exact absurd (fresh version recent) (Nat.not_lt_of_le old)
  · exact older

theorem mem_history (advances : a.Advances b) (member : version ∈ a.history uid) :
    version ∈ b.history uid := by
  obtain ⟨newer, grew, _⟩ := advances.history uid
  rw [grew]
  exact List.mem_append_right _ member

theorem asOf (advances : a.Advances b) (bound : modseq ≤ a.highestmodseq)
    (shown : AsOf L a modseq row) : AsOf L b modseq row := by
  intro old member below
  have before := advances.old_mem member (Nat.le_trans below bound)
  obtain ⟨version, among, newer, shows⟩ := shown old before below
  exact ⟨version, advances.mem_history among, newer, shows⟩

end Mailbox.Advances

theorem current_history {mailbox : Mailbox} (current : mailbox.current uid = some version) :
    mailbox.expunged uid = false ∧ ∃ older, mailbox.history uid = version :: older := by
  unfold Mailbox.current at current
  split at current
  · cases current
  · rename_i present
    obtain ⟨older, same⟩ := List.head?_eq_some_iff.mp current
    exact ⟨by simpa using present, older, same⟩

/-- A row that shows the message as it is now. -/
theorem asOf_current {mailbox : Mailbox} (current : mailbox.current row.msgUid = some version)
    (shows : Shows L version row) : AsOf L mailbox modseq row := by
  obtain ⟨_, older, same⟩ := current_history current
  have ordered := mailbox.newest row.msgUid
  rw [same, List.pairwise_cons] at ordered
  intro old member _
  refine ⟨version, by rw [same]; exact List.mem_cons_self, ?_, shows⟩
  rw [same] at member
  rcases List.mem_cons.mp member with rfl | before
  · exact Nat.le_refl _
  · exact Nat.le_of_lt (ordered.1 old before)

/-! ## The row of one UID -/
section Rows
variable {self : FolderSyncEngine} {uid : Nat} {w t : World}

/-- A row of this UID stays, and is left as it is. -/
def Keeps (self : FolderSyncEngine) (uid : Nat) (w t : World) : Prop :=
  uid ∈ Common.localUids w.store.db self.folderId →
    uid ∈ Common.localUids t.store.db self.folderId ∧
      ∀ row ∈ t.rows self, row.msgUid = uid → row ∈ w.rows self

def Spares (self : FolderSyncEngine) (uid : Nat) (command : Command) : Prop :=
  ∀ w : World, Keeps self uid w (World.perform self command w)

theorem keeps_rows (same : t.rows self = w.rows self) : Keeps self uid w t := by
  intro held
  obtain ⟨row, member, named⟩ := mem_localUids.mp held
  refine ⟨mem_localUids.mpr ⟨row, ?_, named⟩, fun row member _ => ?_⟩
  · change row ∈ t.rows self
    rw [same]
    exact member
  · rwa [← same]

theorem keeps_added (added : List ImapUid) (grown : t.rows self = w.rows self ++ added)
    (apart : ∀ row ∈ added, row.msgUid ∉ Common.localUids w.store.db self.folderId) :
    Keeps self uid w t := by
  intro held
  obtain ⟨row, member, named⟩ := mem_localUids.mp held
  refine ⟨mem_localUids.mpr ⟨row, ?_, named⟩, fun row member same => ?_⟩
  · change row ∈ t.rows self
    rw [grown]
    exact List.mem_append_left _ member
  · rw [grown] at member
    rcases List.mem_append.mp member with old | new
    · exact old
    · subst same
      exact absurd held (apart row new)

theorem keeps_commit {change : Store → Store} (kept : Keeps self uid w { w with store := change w.store }) :
    Keeps self uid w (w.commit change) := by
  rcases w.commit_cases change with refused | committed
  · rw [refused]
    exact keeps_rows rfl
  · rwa [committed]

theorem spares_saveKnown : Spares self uid (.saveKnown msg) := by
  intro w
  apply keeps_commit
  obtain ⟨added, rows, origins⟩ := deduplicate_rows self.lookups w.now self.folderId msg w.store.db
  refine keeps_added added rows fun row member => ?_
  obtain ⟨absent, messageId, rfl⟩ := origins row member
  exact absent

theorem spares_saveNew : Spares self uid (.saveNew msg) := by
  intro w
  apply keeps_commit
  obtain ⟨messageId, created⟩ := createMessage_rows self.lookups
    (KeepsStatus.addMessageToThreadGmail self.lookups) w.now self.folderId self.folderRole msg w.store.db
  refine keeps_added _ created fun row member => ?_
  split at member
  · cases member
  · rename_i absent
    rw [not_or] at absent
    obtain rfl := List.mem_singleton.mp member
    rw [flaggedRow_msgUid]
    exact absent.1

theorem spares_save : Spares self uid (.save greenlet rawMessages) := by
  intro w
  let change := fun store : Store => { store with
    db := CreateMessage.commitMessages self.lookups w.now self.folderId self.folderRole rawMessages
      store.db }
  have committed : Keeps self uid w (w.commit change) := by
    apply keeps_commit
    obtain ⟨added, rows, origins, _⟩ := commitMessages_rows self.lookups w.now self.folderId
      self.folderRole rawMessages w.store.db
    exact keeps_added added rows fun row member => (origins row member).1
  exact committed

theorem spares_saves (saves : command.saves) : Spares self uid command := by
  cases command with
  | ask => exact fun _ => keeps_rows rfl
  | fetch =>
    intro w
    unfold World.perform
    dsimp only
    split <;> exact keeps_rows rfl
  | save => exact spares_save
  | saveKnown => exact spares_saveKnown
  | saveNew => exact spares_saveNew
  | _ => cases saves

theorem spares_load : Spares self uid (.load column) := by
  intro w
  unfold World.perform
  dsimp only
  split <;> exact keeps_rows rfl

theorem spares_cache : Spares self uid (.cache write) := fun _ => keeps_rows rfl

theorem spares_note : Spares self uid (.note waiting) := fun _ => keeps_rows rfl

theorem spares_write : Spares self uid (.write write) := by
  intro w
  have committed : Keeps self uid w (w.commit fun store =>
      { store with info := store.info.map fun info => info.write write }) := by
    apply keeps_commit
    exact keeps_rows rfl
  exact committed

theorem spares_removeUid (apart : other ≠ uid) : Spares self uid (.removeUid other) := by
  intro w
  apply keeps_commit
  intro held
  obtain ⟨row, member, named⟩ := mem_localUids.mp held
  refine ⟨mem_localUids.mpr ⟨row, ?_, named⟩, fun row member _ => ?_⟩
  · rw [removeDeletedUid_rows, List.mem_filter]
    exact ⟨member, by simpa [named] using apart.symm⟩
  · rw [World.rows, removeDeletedUid_rows] at member
    exact (List.mem_filter.mp member).1

theorem spares_updateItem (apart : other ≠ uid) : Spares self uid (.updateItem other newFlags) := by
  intro w
  apply keeps_commit
  intro held
  obtain ⟨row, member, named⟩ := mem_localUids.mp held
  refine ⟨mem_localUids.mpr ⟨row, ?_, named⟩, fun row member same => ?_⟩
  · rw [updateMetadataItem_rows, List.mem_map]
    exact ⟨row, member, if_neg (named ▸ apart.symm)⟩
  · rw [World.rows, updateMetadataItem_rows, List.mem_map] at member
    obtain ⟨old, before, rfl⟩ := member
    split at same
    · rename_i renamed
      rw [(updatedRow_keys self.lookups newFlags old).2] at same
      exact absurd (renamed.symm.trans same) apart
    · rename_i differs
      rwa [if_neg differs]

end Rows

/-! ## One refresh among others -/

def World.storedModseq (w : World) : Option Nat := w.store.info.bind ImapFolderInfo.highestmodseq

/-- What happens between two commands of a refresh: the server goes on, and messages are saved. -/
structure Onward (engine : FolderSyncEngine) (s t : World) : Prop where
  uidvalidity : t.server.uidvalidity = s.server.uidvalidity
  mailbox : (mailboxOf s.server).Advances (mailboxOf t.server)
  copy : t.memory.highestmodseq = s.memory.highestmodseq
  stored : t.storedModseq = s.storedModseq
  rows : ∀ uid, Keeps engine uid s t

/-- A refresh that began at `start`. -/
def refreshing (engine : FolderSyncEngine) (start : World) : Contract (World.perform engine) where
  inv t := t.server.uidvalidity = start.server.uidvalidity
  admits _ _ := True
  rely := Onward engine
  guar _ _ := True
  rely_refl s := ⟨rfl, .refl _, rfl, rfl, fun _ => keeps_rows rfl⟩
  rely_trans first second := {
    uidvalidity := second.uidvalidity.trans first.uidvalidity
    mailbox := first.mailbox.trans second.mailbox
    copy := second.copy.trans first.copy
    stored := second.stored.trans first.stored
    rows uid held := by
      obtain ⟨middle, early⟩ := first.rows uid held
      obtain ⟨last, late⟩ := second.rows uid middle
      exact ⟨last, fun row member same => early row (late row member same) same⟩ }

section Refreshing
variable {engine : FolderSyncEngine} {start s t : World} {uid : Nat}

theorem refreshing_perform (command : Command) (good : (refreshing engine start).inv t) :
    (refreshing engine start).inv (World.perform engine command t) := by
  change _ = _
  rw [World.perform_server]
  exact good

/-- There was no message with this UID, or it is gone. -/
def Gone (start : World) (uid : Nat) (t : World) : Prop :=
  (mailboxOf start.server).history uid = [] ∨ (mailboxOf t.server).expunged uid

/-- A message that is there has rows, and what is said of them holds. -/
def At (engine : FolderSyncEngine) (start : World) (uid : Nat) (P : Mailbox → ImapUid → Prop)
    (t : World) : Prop :=
  (mailboxOf start.server).Advances (mailboxOf t.server) ∧ (Gone start uid t ∨
    uid ∈ Common.localUids t.store.db engine.folderId ∧
      ∀ row ∈ t.rows engine, row.msgUid = uid → P (mailboxOf t.server) row)

/-- What is said of a row stays true while the server goes on. -/
def Lasting (start : World) (P : Mailbox → ImapUid → Prop) : Prop :=
  ∀ a b row, (mailboxOf start.server).highestmodseq ≤ a.highestmodseq → a.Advances b → P a row → P b row

/-- An assertion that only an update or a removal of the UID can make false. -/
structure Lasts (engine : FolderSyncEngine) (start : World) (uid : Nat) (P : World → Prop) : Prop where
  stable : (refreshing engine start).Stable P
  spares : ∀ command t, Spares engine uid command → P t → P (World.perform engine command t)

theorem Lasts.and {P Q : World → Prop} (first : Lasts engine start uid P)
    (second : Lasts engine start uid Q) : Lasts engine start uid (fun t => P t ∧ Q t) where
  stable := stable_and first.stable second.stable
  spares command t spares held :=
    ⟨first.spares command t spares held.1, second.spares command t spares held.2⟩

theorem Lasts.or {P Q : World → Prop} (first : Lasts engine start uid P)
    (second : Lasts engine start uid Q) : Lasts engine start uid (fun t => P t ∨ Q t) where
  stable s t held moved good :=
    held.imp (fun held => first.stable s t held moved good) fun held => second.stable s t held moved good
  spares command t spares held :=
    held.imp (first.spares command t spares) (second.spares command t spares)

theorem lasts_const (P : Prop) : Lasts engine start uid (fun _ => P) where
  stable _ _ held _ _ := held
  spares _ _ _ held := held

/-- What is said of the server only, and stays true while it goes on. -/
theorem lasts_server (P : Server → Prop)
    (later : ∀ a b, (mailboxOf a).Advances (mailboxOf b) → P a → P b) :
    Lasts engine start uid (fun t => P t.server) where
  stable _ _ held moved _ := later _ _ moved.mailbox held
  spares command t _ held := by rwa [World.perform_server]

theorem lasts_gone : Lasts engine start uid (Gone start uid) where
  stable _ _ held moved _ := held.imp_right (moved.mailbox.expunged uid)
  spares command t _ held := by rwa [Gone, World.perform_server]

theorem at_keeps {P : Mailbox → ImapUid → Prop} (lasting : Lasting start P)
    (advances : (mailboxOf s.server).Advances (mailboxOf t.server)) (kept : Keeps engine uid s t)
    (held : At engine start uid P s) : At engine start uid P t := by
  obtain ⟨since, gone | ⟨saved, known⟩⟩ := held
  · exact ⟨since.trans advances, .inl (gone.imp_right (advances.expunged uid))⟩
  · obtain ⟨still, rows⟩ := kept saved
    refine ⟨since.trans advances, .inr ⟨still, fun row member same => ?_⟩⟩
    exact lasting _ _ row since.grown advances (known row (rows row member same) same)

theorem lasts_at {P : Mailbox → ImapUid → Prop} (lasting : Lasting start P) :
    Lasts engine start uid (At engine start uid P) where
  stable _ _ held moved _ := at_keeps lasting moved.mailbox (moved.rows uid) held
  spares command t spares held := by
    refine at_keeps lasting ?_ (spares t) held
    rw [World.perform_server]
    exact .refl _

theorem Lasts.issues {P : World → Prop} (lasts : Lasts engine start uid P) {routine : Call α}
    (issued : routine.Issues (Spares engine uid)) :
    (refreshing engine start).Spec P routine (fun _ => P) (fun _ _ => True) := by
  refine spec_mono (spec_issues lasts.stable issued ?_) (fun _ _ held => held)
    (fun _ _ _ held => held) (fun _ _ _ _ => trivial)
  exact fun command t spares good held _ =>
    ⟨refreshing_perform command good, trivial, lasts.spares command t spares held⟩

/-! ## The copy of the modseq -/

def Copied (copy : Option (Option Nat)) (t : World) : Prop := t.memory.highestmodseq = copy

theorem copied_stable (copy : Option (Option Nat)) : (refreshing engine start).Stable (Copied copy) :=
  fun _ _ held moved _ => moved.copy.trans held

theorem stored_stable (stored : Option Nat) :
    (refreshing engine start).Stable (fun t => t.storedModseq = stored) :=
  fun _ _ held moved _ => moved.stored.trans held

theorem asks_refreshing {P : World → Prop} : Asks (refreshing engine start) P := fun _ _ _ => trivial

/-- A getter that has its copy leaves the row alone. -/
theorem spec_copied {P : World → Prop} {value : Option Nat}
    (stable : (refreshing engine start).Stable P) (copied : ∀ t, P t → Copied (some value) t) :
    (refreshing engine start).Spec P highestmodseq (fun found t => found = value ∧ P t)
      (fun _ _ => True) := by
  refine spec_step stable fun t good ready _ => ⟨good, trivial, ?_⟩
  have held : t.memory.highestmodseq = some value := copied t ready
  rw [held]
  exact fun u moved here => ⟨rfl, stable t u ready moved here⟩

theorem write_stored (calm : t.store.fault = none) (found : t.store.info = some info) (value : Option Nat) :
    (World.perform engine (.write (.highestmodseq value)) t).storedModseq = value := by
  simp only [World.perform, World.commit, calm, World.storedModseq, found, Option.map_some,
    Option.bind_some, ImapFolderInfo.write]

theorem spec_setHighestmodseq {P : World → Prop} (lasts : Lasts engine start uid P) (value : Option Nat) :
    (refreshing engine start).Spec P (setHighestmodseq value)
      (fun _ t => P t ∧ Copied (some value) t ∧ t.storedModseq = value) (fun _ _ => True) := by
  have both : (refreshing engine start).Stable (fun t => P t ∧ Copied (some value) t) :=
    stable_and lasts.stable (copied_stable _)
  have caches : (refreshing engine start).Spec P (local_ (.cache (.highestmodseq value)))
      (fun _ t => P t ∧ Copied (some value) t) (fun _ _ => True) := by
    refine spec_issue lasts.stable (fun _ => both) (fun _ => stable_true) fun t good held _ => ?_
    exact ⟨refreshing_perform _ good, trivial, lasts.spares _ t spares_cache held, rfl⟩
  refine spec_bind caches fun _ => ?_
  refine spec_transact both (fun _ => stable_and lasts.stable (stable_and (copied_stable _)
    (stored_stable value))) stable_true fun t good held _ => ?_
  refine ⟨refreshing_perform _ good, trivial, trivial, fun _ calm reply => ?_⟩
  obtain ⟨info, found, _⟩ := Option.map_eq_some_iff.mp reply
  refine ⟨lasts.spares _ t spares_write held.1, ?_, write_stored calm found value⟩
  exact (congrArg Memory.highestmodseq (World.commit_memory ..)).trans held.2

/-! ## Commands that spare every row -/

theorem issues_selectFolder {allowed : Command → Prop} (ask : allowed .ask)
    (loads : allowed (.load .uidvalidity)) : (selectFolder uidvalidityCb).Issues allowed := by
  refine Routine.issues_bind (Routine.issues_issue.mpr ask) fun session => ?_
  refine Routine.issues_bind ?_ fun _ => trivial
  refine Routine.issues_bind (issues_load ask loads) fun cached => ?_
  split <;> trivial

theorem spares_getNewUids (backend : Backend) (greenlet : Greenlet) :
    (getNewUids engine backend greenlet).Issues (Spares engine uid) := by
  have asks : Spares engine uid .ask := spares_saves rfl
  refine Routine.issues_bind (Routine.issues_issue.mpr asks) fun remoteUidnext => ?_
  refine Routine.issues_bind (issues_load asks spares_load) fun saved => ?_
  split
  · trivial
  · refine Routine.issues_bind (issues_selectFolder asks spares_load) fun session => ?_
    refine Routine.issues_bind (Routine.issues_issue.mpr asks) fun lastseen => ?_
    refine Routine.issues_bind (Routine.issues_issue.mpr asks) fun latestUids => ?_
    refine Routine.issues_bind (Routine.issues_each fun newUid _ => ?_) fun _ => ?_
    · exact Routine.issues_mono (issues_download engine backend) fun command saves => spares_saves saves
    · exact issues_setAttribute spares_write spares_cache

/-! ## The batches -/

/-- The rows of the UID show the message as of what was the server's HIGHESTMODSEQ at the start. -/
def Shown (engine : FolderSyncEngine) (start : World) (uid : Nat) : World → Prop :=
  At engine start uid fun mailbox row =>
    AsOf engine.lookups mailbox (mailboxOf start.server).highestmodseq row

def Held (engine : FolderSyncEngine) (start : World) (uid : Nat) : World → Prop :=
  At engine start uid fun _ _ => True

/-- The changes were listed when the mailbox was `listed`, and those of the UIDs that are `coming` are
still to be stored. -/
def Pending (engine : FolderSyncEngine) (start : World) (uid : Nat) (listed : Mailbox)
    (coming : List Nat) (t : World) : Prop :=
  listed.Advances (mailboxOf t.server) ∧
    (Shown engine start uid t ∨ uid ∈ coming ∧ Held engine start uid t)

theorem lasts_shown : Lasts engine start uid (Shown engine start uid) :=
  lasts_at fun _ _ _ bound advances shown => advances.asOf bound shown

theorem lasts_held : Lasts engine start uid (Held engine start uid) := lasts_at fun _ _ _ _ _ _ => trivial

theorem lasts_pending {listed : Mailbox} {coming : List Nat} :
    Lasts engine start uid (Pending engine start uid listed coming) := by
  have server : Lasts engine start uid fun t => listed.Advances (mailboxOf t.server) :=
    lasts_server (fun server => listed.Advances (mailboxOf server)) fun _ _ later since =>
      since.trans later
  exact server.and (lasts_shown.or ((lasts_const _).and lasts_held))

theorem shown_updateItem {listed : Mailbox} {version : Version}
    (since : (mailboxOf start.server).Advances listed) (current : listed.current uid = some version)
    (later : listed.Advances (mailboxOf t.server)) (held : Held engine start uid t)
    (calm : t.store.fault = none) :
    Shown engine start uid (World.perform engine (.updateItem uid version.item) t) := by
  obtain ⟨began, gone | ⟨saved, _⟩⟩ := held
  · exact ⟨by rwa [World.perform_server], .inl (by rwa [Gone, World.perform_server])⟩
  have rows : (World.perform engine (.updateItem uid version.item) t).rows engine =
      (t.rows engine).map fun row =>
        if row.msgUid = uid then Common.updatedRow engine.lookups version.item row else row := by
    simp only [World.perform, World.commit, calm, World.rows, updateMetadataItem_rows]
  refine ⟨by rwa [World.perform_server], .inr ⟨?_, fun row member same => ?_⟩⟩
  · obtain ⟨row, member, named⟩ := mem_localUids.mp saved
    refine mem_localUids.mpr ⟨_, rows ▸ List.mem_map_of_mem member, ?_⟩
    rw [if_pos named, (updatedRow_keys engine.lookups version.item row).2, named]
  · rw [World.perform_server]
    rw [rows, List.mem_map] at member
    obtain ⟨old, _, rfl⟩ := member
    split at same
    · rename_i named
      rw [if_pos named]
      refine later.asOf since.grown (asOf_current ?_ (shows_updatedRow _ _ old))
      rw [same]
      exact current
    · exact absurd same (by assumption)

/-- A row that is shown is there. -/
theorem held_of_shown (shown : Shown engine start uid t) : Held engine start uid t :=
  ⟨shown.1, shown.2.imp_right fun known => ⟨known.1, fun _ _ _ => trivial⟩⟩

/-- Before the loop in `update_metadata` has come to these items. -/
def Updating (engine : FolderSyncEngine) (start : World) (uid : Nat) (listed : Mailbox)
    (newFlags : List (Nat × Flags)) (rest items : List Nat) (t : World) : Prop :=
  (∀ item ∈ items, (newFlags.lookup item).isSome) ∧ Pending engine start uid listed (items ++ rest) t

theorem lasts_updating {listed : Mailbox} {newFlags : List (Nat × Flags)} {rest items : List Nat} :
    Lasts engine start uid (Updating engine start uid listed newFlags rest items) :=
  Lasts.and (lasts_const _) lasts_pending

theorem spec_updateItem {listed : Mailbox} (since : (mailboxOf start.server).Advances listed)
    {newFlags : List (Nat × Flags)} (reported : ∀ entry ∈ newFlags, Reports listed entry)
    (item : Nat) (items rest : List Nat) :
    (refreshing engine start).Spec (Updating engine start uid listed newFlags rest (item :: items))
      (match newFlags.lookup item with
        | none => .ret ()
        | some flags => transact (.updateItem item flags) fun _ => some ())
      (fun _ => Updating engine start uid listed newFlags rest items) (fun _ _ => True) := by
  cases found : newFlags.lookup item with
  | none =>
    intro s _ ready
    have named := ready.1 item List.mem_cons_self
    rw [found] at named
    cases named
  | some flags =>
    obtain ⟨version, current, rfl⟩ := reported _ (mem_of_lookup_eq_some found)
    refine spec_transact lasts_updating.stable (fun _ => lasts_updating.stable) stable_true
      fun t good ready _ => ⟨refreshing_perform _ good, trivial, trivial, fun _ calm _ => ?_⟩
    obtain ⟨named, later, shown⟩ := ready
    refine ⟨fun other member => named other (List.mem_cons_of_mem _ member), ?_⟩
    by_cases same : item = uid
    · subst same
      refine ⟨by rwa [World.perform_server], .inl (shown_updateItem since current later ?_ calm)⟩
      exact shown.elim held_of_shown fun coming => coming.2
    · refine lasts_pending.spares _ t (spares_updateItem same) ⟨later, shown.imp_right fun coming => ?_⟩
      exact ⟨(List.mem_cons.mp coming.1).resolve_left (Ne.symm same), coming.2⟩

/-- The UIDs of the batch that have a row are updated. -/
theorem spec_updateMetadata {listed : Mailbox} (since : (mailboxOf start.server).Advances listed)
    {flagBatch : List (Nat × Flags)} (reported : ∀ entry ∈ flagBatch, Reports listed entry)
    (rest : List Nat) :
    (refreshing engine start).Spec (Pending engine start uid listed (flagBatch.map Prod.fst ++ rest))
      (updateMetadata engine flagBatch) (fun _ => Pending engine start uid listed rest)
      (fun _ _ => True) := by
  unfold updateMetadata
  split
  · rename_i none
    subst none
    exact spec_ret lasts_pending.stable fun _ _ held => held
  · have looks : (refreshing engine start).Spec
        (Pending engine start uid listed (flagBatch.map Prod.fst ++ rest))
        (transact (.lookup flagBatch) fun w =>
          some ((Common.localUids w.store.db engine.folderId).filter
            fun uid => (flagBatch.lookup uid).isSome))
        (Updating engine start uid listed flagBatch rest) (fun _ _ => True) := by
      refine spec_transact lasts_pending.stable (fun _ => lasts_updating.stable) stable_true
        fun t good ready _ => ⟨good, trivial, trivial, ?_⟩
      rintro items _ ⟨⟩
      refine ⟨fun item member => by simpa using (List.mem_filter.mp member).2, ready.1, ?_⟩
      rcases ready.2 with shown | ⟨coming, held⟩
      · exact .inl shown
      · rcases held.2 with gone | ⟨saved, _⟩
        · exact .inl ⟨held.1, .inl gone⟩
        · refine .inr ⟨?_, held⟩
          rcases List.mem_append.mp coming with here | later
          · exact List.mem_append_left _ (List.mem_filter.mpr ⟨saved, lookup_isSome here⟩)
          · exact List.mem_append_right _ later
    refine spec_bind looks fun items => ?_
    refine spec_mono (spec_each (Updating engine start uid listed flagBatch rest) lasts_updating.stable
      fun item items => spec_updateItem since reported item items rest) (fun _ _ held => held) ?_
      (fun _ _ _ _ => trivial)
    exact fun _ _ _ held => held.2

/-- After the batches nothing is still to be stored. -/
theorem spec_refreshBatches {listed : Mailbox} (since : (mailboxOf start.server).Advances listed)
    (batches : List (List (Nat × Flags))) (reported : ∀ entry ∈ batches.flatten, Reports listed entry) :
    (refreshing engine start).Spec
      (Pending engine start uid listed (batches.flatten.map Prod.fst)) (refreshBatches engine batches)
      (fun _ => Shown engine start uid) (fun _ _ => True) := by
  induction batches with
  | nil =>
    refine spec_ret lasts_pending.stable fun t _ held => held.2.resolve_right ?_
    rintro ⟨coming, _⟩
    cases coming
  | cons flagBatch rest ih =>
    have updates : (refreshing engine start).Spec
        (Pending engine start uid listed (flagBatch.map Prod.fst ++ rest.flatten.map Prod.fst))
        (updateMetadata engine flagBatch) (fun _ => Pending engine start uid listed
          (rest.flatten.map Prod.fst)) (fun _ _ => True) :=
      spec_updateMetadata since (fun entry member => reported entry (List.mem_append_left _ member)) _
    rw [List.flatten_cons, List.map_append]
    refine spec_bind updates fun _ => spec_bind ?_ fun _ =>
      ih fun entry member => reported entry (List.mem_append_right _ member)
    unfold checkpoint
    split
    · exact lasts_pending.issues (Routine.issues_bind (Routine.issues_issue.mpr spares_note) fun _ =>
        issues_setHighestmodseq spares_cache spares_write)
    · exact spec_ret lasts_pending.stable fun _ _ held => held

/-! ## What the server no longer has -/

theorem spec_removeDeletedUids (uids : List Nat) :
    (refreshing engine start).Spec
      (fun t => Shown engine start uid t ∧ (uid ∉ uids ∨ Gone start uid t)) (removeDeletedUids uids)
      (fun _ => Shown engine start uid) (fun _ _ => True) := by
  by_cases member : uid ∈ uids
  · let gone := fun t : World =>
      (mailboxOf start.server).Advances (mailboxOf t.server) ∧ Gone start uid t
    have stable : (refreshing engine start).Stable gone := fun s t held moved _ =>
      ⟨held.1.trans moved.mailbox, held.2.imp_right (moved.mailbox.expunged uid)⟩
    have issued : (removeDeletedUids uids).Issues fun _ => True :=
      issues_removeDeletedUids fun _ => trivial
    refine spec_mono (spec_issues stable issued fun command t _ good held _ => ?_) ?_ ?_ ?_
    · refine ⟨refreshing_perform command good, trivial, ?_⟩
      simp only [gone, Gone, World.perform_server]
      exact held
    · exact fun t _ held => ⟨held.1.1, held.2.resolve_left fun absent => absent member⟩
    · exact fun _ t _ held => ⟨held.1, .inl held.2⟩
    · exact fun _ _ _ _ => trivial
  · refine spec_mono (lasts_shown.issues ?_) (fun _ _ held => held.1) (fun _ _ _ held => held)
      (fun _ _ _ held => held)
    exact Routine.issues_each fun other among =>
      Routine.issues_issue.mpr (spares_removeUid (ne_of_mem_of_not_mem among member))

theorem spec_expunge (greenlet : Greenlet) (remoteUids expungedUids : List Nat) :
    (refreshing engine start).Spec
      (fun t => Shown engine start uid t ∧ (uid ∉ expungedUids ∨ Gone start uid t))
      (expunge engine .gmail greenlet remoteUids expungedUids) (fun _ => Shown engine start uid)
      (fun _ _ => True) := by
  have lasts : Lasts engine start uid fun t =>
      Shown engine start uid t ∧ (uid ∉ expungedUids ∨ Gone start uid t) :=
    lasts_shown.and ((lasts_const _).or lasts_gone)
  unfold expunge
  split
  · exact spec_ret lasts.stable fun _ _ held => held.1
  · refine spec_bind (lasts.issues (Routine.issues_issue.mpr (spares_saves rfl))) fun lastseen => ?_
    split
    · exact spec_bind (lasts.issues (spares_getNewUids .gmail greenlet)) fun _ =>
        spec_removeDeletedUids expungedUids
    · exact spec_removeDeletedUids expungedUids

/-- What `all_uids` leaves out is gone. -/
theorem listed_or_gone (since : (mailboxOf start.server).Advances (mailboxOf t.server)) :
    uid ∈ (mailboxOf t.server).allUids ∨ Gone start uid t := by
  rw [mem_allUids]
  by_cases gone : (mailboxOf t.server).expunged uid
  · exact .inr (.inr gone)
  · obtain ⟨newer, grew, _⟩ := since.history uid
    cases before : (mailboxOf start.server).history uid with
    | nil => exact .inr (.inl before)
    | cons version older =>
      left
      simp [Mailbox.Exists, Mailbox.current, gone, grew, before]

/-! ## From the SELECT on -/

/-- The rows of the UID are those of the start, and the engine has its copy of the modseq. -/
def Prepared (engine : FolderSyncEngine) (start : World) (uid : Nat) (known : Nat) (t : World) : Prop :=
  At engine start uid (fun _ row => row ∈ start.rows engine) t ∧ Copied (some (some known)) t

theorem ready_stable {known : Nat} : (refreshing engine start).Stable (Prepared engine start uid known) :=
  stable_and (lasts_at fun _ _ _ _ _ held => held).stable (copied_stable _)

theorem ready_load {known : Nat} (ready : Prepared engine start uid known t) :
    Prepared engine start uid known (World.perform engine (.load .uidvalidity) t) := by
  refine ⟨(lasts_at fun _ _ _ _ _ held => held).spares _ t spares_load ready.1, ?_⟩
  unfold World.perform Copied
  dsimp only
  split
  · exact ready.2
  · exact ready.2

theorem spec_selects {known : Nat} :
    (refreshing engine start).Spec (Prepared engine start uid known) (selectFolder uidvalidityCb)
      (fun session t => Prepared engine start uid known t ∧
        session.uidvalidity = start.server.uidvalidity) (fun _ _ => True) := by
  let opened := fun (session : Session) (t : World) => Prepared engine start uid known t ∧
    session.uidvalidity = start.server.uidvalidity
  have stable : ∀ session, (refreshing engine start).Stable (opened session) := fun session =>
    stable_and ready_stable fun _ _ held _ _ => held
  refine spec_selectFolder opened ready_stable stable stable (fun _ _ _ _ => trivial) asks_refreshing
    (fun t good ready => ⟨ready, good⟩) fun session => ?_
  refine spec_uidvalidityCb (fun _ => opened session) (fun _ => stable session) ?_
    (fun _ _ _ held _ => held) (fun _ _ _ _ _ => trivial)
  refine spec_load (stable session) (fun _ => stable session) stable_true asks_refreshing
    (fun _ _ _ held _ => held) fun t good held _ => ?_
  exact ⟨refreshing_perform _ good, trivial, trivial, fun _ _ _ => ⟨ready_load held.1, held.2⟩⟩

/-- What the refresh has to find: a row whose message has not changed since the modseq that the engine
remembers, or any row if it remembers none, shows its message already. -/
def Seen (engine : FolderSyncEngine) (start : World) (uid : Nat) : Prop :=
  ∀ version, (mailboxOf start.server).current uid = some version →
    (∀ known, start.memory.highestmodseq.join = some known → version.modseq ≤ known) →
    ∀ row ∈ start.rows engine, row.msgUid = uid → Shows engine.lookups version row

/-- A row that is as it was shows the message if the message is as it was, too. -/
theorem asOf_unchanged {mailbox : Mailbox} (since : (mailboxOf start.server).Advances mailbox)
    (present : mailbox.expunged uid = false) (same : row.msgUid = uid)
    (shows : ∀ version, (mailboxOf start.server).current uid = some version →
      mailbox.current uid = some version → Shows engine.lookups version row)
    (unchanged : ∀ version, mailbox.current uid = some version →
      version.modseq ≤ (mailboxOf start.server).highestmodseq) :
    AsOf engine.lookups mailbox (mailboxOf start.server).highestmodseq row := by
  subst same
  have remained : (mailboxOf start.server).expunged row.msgUid = false := by
    by_contra gone
    rw [since.expunged _ (Bool.eq_true_of_not_eq_false gone)] at present
    cases present
  obtain ⟨newer, grew, fresh⟩ := since.history row.msgUid
  have now : mailbox.current row.msgUid = (newer ++ (mailboxOf start.server).history row.msgUid).head? := by
    rw [Mailbox.current, present, grew]
    rfl
  cases newer with
  | cons version others =>
    have old := unchanged version now
    exact absurd (fresh version List.mem_cons_self) (Nat.not_lt_of_le old)
  | nil =>
    cases before : (mailboxOf start.server).history row.msgUid with
    | nil =>
      intro old member
      rw [grew, before] at member
      cases member
    | cons version older =>
      rw [before] at now
      refine asOf_current now (shows version ?_ now)
      rw [Mailbox.current, remained, before]
      rfl

/-- The server lists the UID, or its row shows the message already. -/
theorem pending_listed {known : Nat} (older : known < (mailboxOf start.server).highestmodseq)
    (remembered : start.memory.highestmodseq = some (some known)) (seen : Seen engine start uid)
    (ready : Prepared engine start uid known t) (session : Session)
    (here : session.uidvalidity = t.server.uidvalidity) :
    Pending engine start uid (mailboxOf t.server)
      ((t.server.changedFlags session known).map Prod.fst) t := by
  have folder : t.server.folder session = mailboxOf t.server := by rw [Server.folder, here, mailboxOf]
  obtain ⟨⟨since, there⟩, _⟩ := ready
  refine ⟨.refl _, ?_⟩
  by_cases named : uid ∈ (t.server.changedFlags session known).map Prod.fst
  · exact .inr ⟨named, since, there.imp_right fun held => ⟨held.1, fun _ _ _ => trivial⟩⟩
  left
  have unchanged : ∀ version, (mailboxOf t.server).current uid = some version →
      version.modseq ≤ known := by
    intro version current
    by_contra newer
    refine named (List.mem_map.mpr ⟨(uid, version.item), mem_changedFlags.mpr ⟨version, ?_, ?_, rfl⟩, rfl⟩)
    · rwa [folder]
    · exact Nat.lt_of_not_le newer
  by_cases gone : (mailboxOf t.server).expunged uid
  · exact ⟨since, .inl (.inr gone)⟩
  refine ⟨since, there.imp_right fun held => ⟨held.1, fun row member same => ?_⟩⟩
  refine asOf_unchanged since (Bool.eq_false_of_not_eq_true gone) same (fun version before now => ?_)
    fun version now => Nat.le_trans (unchanged version now) (Nat.le_of_lt older)
  refine seen version before (fun other stored => ?_) row (held.2 row member same) same
  rw [remembered] at stored
  cases stored
  exact unchanged version now

theorem pending_sub {listed : Mailbox} {coming others : List Nat} (sub : ∀ uid ∈ coming, uid ∈ others)
    (pending : Pending engine start uid listed coming t) :
    Pending engine start uid listed others t :=
  ⟨pending.1, pending.2.imp_right fun coming => ⟨sub uid coming.1, coming.2⟩⟩

theorem pending_since {listed : Mailbox} {coming : List Nat}
    (pending : Pending engine start uid listed coming t) :
    (mailboxOf start.server).Advances (mailboxOf t.server) :=
  pending.2.elim (fun shown => shown.1) fun coming => coming.2.1

/-- From the listing of the changes on. -/
theorem spec_stores {listed : Mailbox} (since : (mailboxOf start.server).Advances listed)
    {changedFlags : List (Nat × Flags)} (reported : ∀ entry ∈ changedFlags, Reports listed entry)
    (greenlet : Greenlet) (session : Session)
    (here : session.uidvalidity = start.server.uidvalidity) (newHighestmodseq : Nat) :
    (refreshing engine start).Spec (Pending engine start uid listed (changedFlags.map Prod.fst))
      (do
        let remoteUids ← imap (fun server => (server.folder session).allUids)
        refreshBatches engine (chunk (byModseq changedFlags) CONDSTORE_FLAGS_REFRESH_BATCH_SIZE)
        let local_ ← localUids engine
        expunge engine .gmail greenlet remoteUids (local_.filter (· ∉ remoteUids))
        noteWaiting fun _ => false
        setHighestmodseq (some newHighestmodseq))
      (fun _ t => Shown engine start uid t ∧ t.storedModseq = some newHighestmodseq)
      (fun _ _ => True) := by
  let left := fun (remoteUids : List Nat) (t : World) => uid ∈ remoteUids ∨ Gone start uid t
  have lasts : ∀ remoteUids, Lasts engine start uid (left remoteUids) := fun remoteUids =>
    (lasts_const _).or lasts_gone
  have lists : (refreshing engine start).Spec
      (Pending engine start uid listed (changedFlags.map Prod.fst))
      (imap fun server => (server.folder session).allUids)
      (fun remoteUids t => Pending engine start uid listed (changedFlags.map Prod.fst) t ∧
        left remoteUids t) (fun _ _ => True) := by
    refine spec_imap lasts_pending.stable (fun _ => (lasts_pending.and (lasts _)).stable) stable_true
      asks_refreshing (fun _ _ => trivial) fun t good pending => ⟨pending, ?_⟩
    have folder : t.server.folder session = mailboxOf t.server := by
      rw [Server.folder, here, mailboxOf, show t.server.uidvalidity = _ from good]
    rw [folder]
    exact listed_or_gone (pending_since pending)
  let batches := chunk (byModseq changedFlags) CONDSTORE_FLAGS_REFRESH_BATCH_SIZE
  have flatten : batches.flatten = byModseq changedFlags := chunk_flatten (by decide) _
  have stores : ∀ remoteUids, (refreshing engine start).Spec
      (fun t => Pending engine start uid listed (changedFlags.map Prod.fst) t ∧ left remoteUids t)
      (refreshBatches engine batches) (fun _ t => Shown engine start uid t ∧ left remoteUids t)
      (fun _ _ => True) := by
    intro remoteUids
    have entries : ∀ entry ∈ batches.flatten, Reports listed entry := fun entry member =>
      reported entry ((byModseq_perm changedFlags).mem_iff.mp (flatten ▸ member))
    refine spec_mono (spec_frame (lasts remoteUids).stable (fun command t held => ?_)
      (spec_refreshBatches since batches entries)) (fun t _ held => ⟨pending_sub ?_ held.1, held.2⟩)
      (fun _ _ _ held => held) (fun _ _ _ held => held)
    · simpa only [left, Gone, World.perform_server] using held
    · rw [flatten]
      exact fun _ member => ((byModseq_perm changedFlags).map Prod.fst).mem_iff.mpr member
  refine spec_bind lists fun remoteUids => spec_bind (stores remoteUids) fun _ => ?_
  refine spec_bind ((lasts_shown.and (lasts remoteUids)).issues
    (Routine.issues_issue.mpr (spares_saves rfl))) fun local_ => ?_
  refine spec_bind (spec_mono (spec_expunge greenlet remoteUids _)
    (fun t _ held => ⟨held.1, held.2.imp_left fun member => ?_⟩) (fun _ _ _ held => held)
    (fun _ _ _ held => held)) fun _ => ?_
  · simp [member]
  · refine spec_bind (lasts_shown.issues (Routine.issues_issue.mpr spares_note)) fun _ => ?_
    exact spec_mono (spec_setHighestmodseq lasts_shown _) (fun _ _ held => held)
      (fun _ _ _ held => ⟨held.1, held.2.2⟩) (fun _ _ _ held => held)

theorem spec_refreshChanged {known : Nat} (older : known < (mailboxOf start.server).highestmodseq)
    (remembered : start.memory.highestmodseq = some (some known)) (seen : Seen engine start uid)
    (greenlet : Greenlet) (newHighestmodseq : Nat) :
    (refreshing engine start).Spec (Prepared engine start uid known)
      (refreshChanged engine .gmail greenlet newHighestmodseq)
      (fun _ t => Shown engine start uid t ∧ t.storedModseq = some newHighestmodseq)
      (fun _ _ => True) := by
  refine spec_bind spec_selects fun session => ?_
  have stable : (refreshing engine start).Stable fun t => Prepared engine start uid known t ∧
      session.uidvalidity = start.server.uidvalidity :=
    stable_and ready_stable fun _ _ held _ _ => held
  refine spec_bind (spec_copied stable fun t held => held.1.2) fun saved => ?_
  let changes := fun (changedFlags : List (Nat × Flags)) (t : World) =>
    session.uidvalidity = start.server.uidvalidity ∧ ∃ listed, (mailboxOf start.server).Advances listed ∧
      (∀ entry ∈ changedFlags, Reports listed entry) ∧
      Pending engine start uid listed (changedFlags.map Prod.fst) t
  have lists : (refreshing engine start).Spec (fun t => saved = some known ∧
        Prepared engine start uid known t ∧ session.uidvalidity = start.server.uidvalidity)
      (imap fun server => server.changedFlags session (saved.getD 0)) changes (fun _ _ => True) := by
    refine spec_imap (stable_and (fun _ _ held _ _ => held) stable) (fun changedFlags => ?_) stable_true
      asks_refreshing (fun _ _ => trivial) fun t good ready => ?_
    · rintro s t ⟨here, listed, since, reported, pending⟩ moved good
      exact ⟨here, listed, since, reported, lasts_pending.stable s t pending moved good⟩
    · obtain ⟨rfl, ready, here⟩ := ready
      have now : session.uidvalidity = t.server.uidvalidity := here.trans (Eq.symm good)
      have folder : t.server.folder session = mailboxOf t.server := by rw [Server.folder, now, mailboxOf]
      refine ⟨here, mailboxOf t.server, ready.1.1, fun entry member => ?_,
        pending_listed older remembered seen ready session now⟩
      obtain ⟨version, current, _, same⟩ := mem_changedFlags.mp member
      exact ⟨version, folder ▸ current, same⟩
  refine spec_bind lists fun changedFlags s good held => ?_
  obtain ⟨here, listed, since, reported, pending⟩ := held
  exact spec_stores since reported greenlet session here newHighestmodseq s good pending

/-! ## A whole refresh -/

/-- The refresh after its first command has read HIGHESTMODSEQ. -/
def refreshFrom (engine : FolderSyncEngine) (greenlet : Greenlet) (newHighestmodseq : Nat) : Call Unit := do
  let saved ← highestmodseq
  initHighestmodseq newHighestmodseq saved
  let saved ← highestmodseq
  if some newHighestmodseq = saved then .ret ()
  else if modseqKey (some newHighestmodseq) < modseqKey saved then .ret ()
  else refreshChanged engine .gmail greenlet newHighestmodseq

/-- Either nothing has been stored, or the server's value, and then the rows of the UID show it. -/
def Settled (engine : FolderSyncEngine) (start : World) (uid : Nat) (t : World) : Prop :=
  t.storedModseq = none ∨
    Shown engine start uid t ∧ t.storedModseq = some (mailboxOf start.server).highestmodseq

/-- The engine remembers a modseq. -/
theorem spec_known {known : Nat} (remembered : start.memory.highestmodseq = some (some known))
    (seen : Seen engine start uid) (greenlet : Greenlet) :
    (refreshing engine start).Spec
      (fun t => Prepared engine start uid known t ∧ t.storedModseq = none)
      (refreshFrom engine greenlet (mailboxOf start.server).highestmodseq)
      (fun _ => Settled engine start uid) (fun _ _ => True) := by
  have stable : (refreshing engine start).Stable fun t =>
      Prepared engine start uid known t ∧ t.storedModseq = none :=
    stable_and ready_stable (stored_stable none)
  have reads := spec_copied stable fun t held => held.1.2
  refine spec_bind reads fun saved s good held => ?_
  obtain ⟨rfl, held⟩ := held
  have unset : (refreshing engine start).Spec
      (fun t => Prepared engine start uid known t ∧ t.storedModseq = none)
      (initHighestmodseq (mailboxOf start.server).highestmodseq (some known))
      (fun _ t => Prepared engine start uid known t ∧ t.storedModseq = none) (fun _ _ => True) :=
    spec_ret stable fun _ _ held => held
  refine spec_bind unset (fun _ => ?_) s good held
  refine spec_bind reads fun saved s good held => ?_
  obtain ⟨rfl, held⟩ := held
  have idle : (refreshing engine start).wp (fun _ => Settled engine start uid) (fun _ _ => True)
      (.ret () : Call Unit) s := fun t moved _ => .inl (moved.stored.trans held.2)
  split
  · exact idle
  · split
    · exact idle
    · rename_i differs smaller
      have older : known < (mailboxOf start.server).highestmodseq := by
        simp only [modseqKey, Option.some.injEq] at differs smaller
        omega
      exact spec_mono (spec_refreshChanged older remembered seen greenlet _) (fun _ _ held => held)
        (fun _ _ _ held => .inr held) (fun _ _ _ held => held) s good held.1

/-- The engine remembers no modseq, and stores the server's one before it has fetched anything. -/
theorem spec_forgotten (greenlet : Greenlet) :
    (refreshing engine start).Spec
      (fun t => Shown engine start uid t ∧ t.storedModseq = none ∧ t.memory.highestmodseq.join = none)
      (refreshFrom engine greenlet (mailboxOf start.server).highestmodseq)
      (fun _ => Settled engine start uid) (fun _ _ => True) := by
  let newHighestmodseq := (mailboxOf start.server).highestmodseq
  have stable : (refreshing engine start).Stable fun t =>
      Shown engine start uid t ∧ t.storedModseq = none ∧ t.memory.highestmodseq.join = none :=
    stable_and lasts_shown.stable (stable_and (stored_stable none)
      fun _ _ held moved _ => moved.copy ▸ held)
  have reads : (refreshing engine start).Spec
      (fun t => Shown engine start uid t ∧ t.storedModseq = none ∧ t.memory.highestmodseq.join = none)
      highestmodseq (fun value t => value = none ∧ Shown engine start uid t) (fun _ _ => True) := by
    refine spec_load stable (fun _ => stable_and (fun _ _ held _ _ => held) lasts_shown.stable) stable_true
      asks_refreshing (fun t value _ held copied => ?_) fun t good held _ => ?_
    · have empty := held.2.2
      rw [copied] at empty
      exact ⟨empty, held.1⟩
    · refine ⟨refreshing_perform _ good, trivial, trivial, fun info _ found => ?_⟩
      refine ⟨?_, lasts_shown.spares _ t spares_load held.1⟩
      have empty := held.2.1
      rwa [World.storedModseq, found] at empty
  refine spec_bind reads fun saved s good held => ?_
  obtain ⟨rfl, shown⟩ := held
  have unset : (refreshing engine start).Spec (Shown engine start uid)
      (initHighestmodseq newHighestmodseq none) (fun _ t => Shown engine start uid t ∧
        Copied (some (some newHighestmodseq)) t ∧ t.storedModseq = some newHighestmodseq) (fun _ _ => True) :=
    spec_bind (lasts_shown.issues (Routine.issues_issue.mpr spares_note))
      fun _ => spec_setHighestmodseq lasts_shown (some newHighestmodseq)
  refine spec_bind unset (fun _ => ?_) s good shown
  have after : (refreshing engine start).Stable fun t => Shown engine start uid t ∧
      Copied (some (some newHighestmodseq)) t ∧ t.storedModseq = some newHighestmodseq :=
    stable_and lasts_shown.stable (stable_and (copied_stable _) (stored_stable _))
  refine spec_bind (spec_copied after fun t held => held.2.1) fun saved s good held => ?_
  obtain ⟨rfl, held⟩ := held
  rw [if_pos rfl]
  intro t moved here
  obtain ⟨shown, _, stored⟩ := after s t held moved here
  exact .inr ⟨shown, stored⟩

theorem amid_imap {others : World → World → Prop} {answer : Server → α}
    (ended : Amid (World.perform engine) others (imap answer) s (.ok value) t) :
    value = answer s.server ∧ others s t := by
  obtain ⟨reply, moved⟩ := amid_issue ended
  split at reply
  · cases reply
  · cases reply
    exact ⟨rfl, moved⟩

theorem amid_transact {others : World → World → Prop} {answer : World → Option α}
    (ended : Amid (World.perform engine) others (transact command answer) s (.ok value) t) :
    s.store.fault = none ∧ answer s = some value ∧ others (World.perform engine command s) t := by
  obtain ⟨reply, moved⟩ := amid_issue ended
  split at reply
  · rename_i calm found
    cases reply
    exact ⟨calm, found, moved⟩
  · cases reply

/-- Once a modseq is stored, the rows of the UID show the message as of it. -/
theorem refresh_shows (greenlet : Greenlet)
    (refreshed : Amid (World.perform engine) (Onward engine)
      (condstoreRefreshFlags engine .gmail greenlet) start (.ok ()) t)
    (forgotten : start.storedModseq = none) (stored : t.storedModseq = some modseq)
    (saved : uid ∈ Common.localUids start.store.db engine.folderId) (seen : Seen engine start uid) :
    ∀ row ∈ t.rows engine, row.msgUid = uid → (mailboxOf t.server).Exists uid →
      AsOf engine.lookups (mailboxOf t.server) modseq row := by
  obtain ⟨newHighestmodseq, first, asked, later⟩ := amid_bind refreshed
  obtain ⟨rfl, moved⟩ := amid_imap asked
  have good : (refreshing engine start).inv first := moved.uidvalidity
  have settled : Settled engine start uid t := by
    cases remembered : start.memory.highestmodseq.join with
    | some known =>
      have copied : start.memory.highestmodseq = some (some known) := Option.join_eq_some_iff.mp remembered
      have ready : Prepared engine start uid known start :=
        ⟨⟨.refl _, .inr ⟨saved, fun _ member _ => member⟩⟩, copied⟩
      exact (wp_amid (spec_known copied seen greenlet first good
        ⟨ready_stable _ _ ready moved good, moved.stored.trans forgotten⟩) good (fun _ _ => trivial)
        (fun s t here moved => ⟨moved, moved.uidvalidity.trans here⟩) later).2
    | none =>
      have shown : Shown engine start uid start := by
        refine ⟨.refl _, ?_⟩
        rcases listed_or_gone (.refl (mailboxOf start.server)) with listed | gone
        · obtain ⟨version, current⟩ := Option.isSome_iff_exists.mp (mem_allUids.mp listed)
          refine .inr ⟨saved, fun row member same => ?_⟩
          refine asOf_current (same ▸ current) (seen version current (fun known other => ?_) row member same)
          rw [remembered] at other
          cases other
        · exact .inl gone
      exact (wp_amid (spec_forgotten greenlet first good ⟨lasts_shown.stable _ _ shown moved good,
        moved.stored.trans forgotten, moved.copy ▸ remembered⟩) good (fun _ _ => trivial)
        (fun s t here moved => ⟨moved, moved.uidvalidity.trans here⟩) later).2
  rcases settled with none | ⟨⟨since, there⟩, same⟩
  · rw [none] at stored
    cases stored
  · obtain rfl := Option.some.inj (same.symm.trans stored)
    intro row member named present
    rcases there with (empty | expunged) | ⟨_, rows⟩
    · intro old among below
      subst named
      have before := since.old_mem among below
      rw [empty] at before
      cases before
    · simp [Mailbox.Exists, Mailbox.current, expunged] at present
    · exact rows row member named

end Refreshing

/-! ## From the resync to the refresh -/

/-- Others leave the row of the folder and the UIDVALIDITY alone. -/
def Aside (s t : World) : Prop :=
  t.store.info = s.store.info ∧ t.server.uidvalidity = s.server.uidvalidity

/-- Commands of the engine that do not write the modseq, and anything that leaves the row alone: a
server that changes, a process that starts again. -/
inductive Between (engine : FolderSyncEngine) : World → World → Prop
  | command (other : ∀ value, command ≠ .write (.highestmodseq value)) :
    Between engine w (World.perform engine command w)
  | others (same : t.store.info = w.store.info) : Between engine w t

section Forgotten
variable {engine : FolderSyncEngine} {s t : World}

theorem remap_forgets (calm : s.store.fault = none) (remapped : Gmail.remapUids engine.folderId mapping
    s.store.db = some db) (session : Session) :
    (World.perform engine (.remap session mapping) s).storedModseq = none := by
  simp only [World.perform, World.commit, calm, remapped, World.storedModseq]
  cases s.store.info <;> rfl

/-- A resync that returns has forgotten the modseq, if the UIDVALIDITY has changed. -/
theorem resync_forgets (changed : ∀ info ∈ s.store.info, info.uidvalidity < s.server.uidvalidity)
    (committed : Amid (World.perform engine) Aside (resyncUidsImpl engine .gmail) s (.ok ()) t) :
    t.storedModseq = none := by
  obtain ⟨saved, a, asks, afterAsk⟩ := amid_bind committed
  obtain ⟨_, found, asideA⟩ := amid_transact asks
  obtain ⟨info, here, rfl⟩ := Option.map_eq_some_iff.mp found
  obtain ⟨session, b, selects, afterSelect⟩ := amid_bind afterAsk
  obtain ⟨_, c, opens, afterOpen⟩ := amid_bind selects
  obtain ⟨rfl, asideC⟩ := amid_imap opens
  cases afterOpen
  obtain ⟨_, d, remaps, marks⟩ := amid_bind afterSelect
  have invalid : ¬ a.server.selectInfo.uidvalidity ≤ info.uidvalidity := by
    have smaller := changed info here
    have same : a.server.uidvalidity = s.server.uidvalidity := asideA.2
    rw [← same] at smaller
    exact Nat.not_le_of_lt smaller
  unfold unlessUnchanged at remaps
  rw [if_neg invalid] at remaps
  obtain ⟨mapping, e, lists, writes⟩ := amid_bind remaps
  obtain ⟨calm, answered, asideD⟩ := amid_transact writes
  obtain ⟨_, asideT⟩ := amid_issue marks
  split at answered
  · cases answered
  · rename_i db remapped
    have forgotten := remap_forgets calm remapped a.server.selectInfo
    simpa only [World.storedModseq, asideT.1, World.perform, asideD.1] using forgotten

theorem commit_storedModseq {change : Store → Store} (forgotten : s.storedModseq = none)
    (changed : ∀ info ∈ (change s.store).info, info.highestmodseq = none) :
    (s.commit change).storedModseq = none := by
  rcases s.commit_cases change with refused | committed
  · rw [refused]
    exact forgotten
  · rw [committed]
    exact Option.bind_eq_none_iff.mpr changed

/-- Only one kind of write makes the row have a modseq again. -/
theorem perform_storedModseq (other : ∀ value, command ≠ .write (.highestmodseq value))
    (forgotten : s.storedModseq = none) : (World.perform engine command s).storedModseq = none := by
  have before : ∀ info ∈ s.store.info, info.highestmodseq = none := Option.bind_eq_none_iff.mp forgotten
  cases command with
  | write write =>
    have written : (s.commit fun store =>
        { store with info := store.info.map fun info => info.write write }).storedModseq = none := by
      apply commit_storedModseq forgotten
      rintro _ changed
      obtain ⟨info, here, rfl⟩ := Option.map_eq_some_iff.mp changed
      cases write with
      | highestmodseq value => exact absurd rfl (other value)
      | _ => exact before info here
    exact written
  | createInfo session =>
    apply commit_storedModseq forgotten
    rintro _ ⟨⟩
    cases found : s.store.info with
    | none => rfl
    | some info => exact before info found
  | remap session mapping =>
    apply commit_storedModseq forgotten
    intro info here
    split at here
    · exact before info here
    · obtain ⟨_, _, rfl⟩ := Option.map_eq_some_iff.mp here
      rfl
  | saveKnown | saveNew | updateItem | removeUid => exact commit_storedModseq forgotten before
  | save greenlet rawMessages =>
    let change := fun store : Store => { store with
      db := CreateMessage.commitMessages engine.lookups s.now engine.folderId engine.folderRole
        rawMessages store.db }
    have committed : (s.commit change).storedModseq = none := commit_storedModseq forgotten before
    exact committed
  | fetch | load =>
    unfold World.perform
    dsimp only
    split <;> exact forgotten
  | _ => exact forgotten

theorem between_forgotten (run : Relation.ReflTransGen (Between engine) s t)
    (forgotten : s.storedModseq = none) : t.storedModseq = none := by
  induction run with
  | refl => exact forgotten
  | tail _ step ih =>
    cases step with
    | others same => rwa [World.storedModseq, same]
    | command other => exact perform_storedModseq other ih

end Forgotten

/-- The UIDs whose rows are there when the resync is done and still when the refresh begins. -/
def Retained (engine : FolderSyncEngine) (resynced start : World) (uid : Nat) : Prop :=
  uid ∈ Common.localUids resynced.store.db engine.folderId ∧
    uid ∈ Common.localUids start.store.db engine.folderId

/-- The refresh after a resync leaves every row that was kept with the flags and labels of the modseq
that it stores, if it finds the rows right that it does not fetch anything for. -/
theorem retained_rows_current (engine : FolderSyncEngine) (greenlet : Greenlet)
    (before resynced start t : World) (modseq : Nat)
    (changed : ∀ info ∈ before.store.info, info.uidvalidity < before.server.uidvalidity)
    (committed : Amid (World.perform engine) Aside (resyncUidsImpl engine .gmail) before (.ok ()) resynced)
    (between : Relation.ReflTransGen (Between engine) resynced start)
    (refreshed : Amid (World.perform engine) (Onward engine)
      (condstoreRefreshFlags engine .gmail greenlet) start (.ok ()) t)
    (stored : t.storedModseq = some modseq)
    (seen : ∀ uid, Retained engine resynced start uid → Seen engine start uid) :
    ∀ uid, Retained engine resynced start uid → ∀ row ∈ t.rows engine, row.msgUid = uid →
      (mailboxOf t.server).Exists uid → AsOf engine.lookups (mailboxOf t.server) modseq row := by
  intro uid retained
  have forgotten := between_forgotten between (resync_forgets changed committed)
  exact refresh_shows greenlet refreshed forgotten stored retained.2 (seen uid retained)

/-- What the engine does leaves the server as it is. -/
theorem run_server (engine : FolderSyncEngine) (routine : Call α) (w : World) :
    (routine.run (World.perform engine) w).2.server = w.server := by
  induction routine generalizing w with
  | ret | raise => rfl
  | step command next ih => exact (ih w _).trans (World.perform_server ..)

/-! ## A message that was read in the meantime -/
namespace Trial

def labelled (flags : List String) : Version where
  flags
  labels := some []
  modseq := 5

/-- One message of Gmail, in a folder whose UIDVALIDITY is 2 now. -/
def gmailServer (flags : List String) : Server :=
  server 2 { mailbox 2 5 (fun _ => labelled flags) with
    content _ := { body := some "Hi", gThrid := some 6, gMsgid := some 7 } }

/-- The message is known under the UID 4 of before, without any flag. -/
def known (flags : List String) : World :=
  let start := world (gmailServer flags) (some { info 1 with highestmodseq := some 3 })
  { start with store := { start.store with
      db := { start.store.db with
        imapuids := [unseenRow 4]
        messages := [{ SyncEngine.Sample.lookups.createFromSynced SyncEngine.Sample.msg with id := 4 }] } } }

def afterResync (flags : List String) : World :=
  ((resyncUidsImpl self .gmail).run (World.perform self) (known flags)).2

def afterRefresh (flags : List String) : World :=
  ((condstoreRefreshFlags self .gmail .engine).run (World.perform self) (afterResync flags).restart).2

theorem resync_done (flags : List String) : (resyncUidsImpl self .gmail).run (World.perform self)
    (known flags) = (.ok (), afterResync flags) := rfl

theorem refresh_ok (flags : List String) : ((condstoreRefreshFlags self .gmail .engine).run
    (World.perform self) (afterResync flags).restart).1 = .ok () := rfl

theorem refresh_done (flags : List String) : (condstoreRefreshFlags self .gmail .engine).run
    (World.perform self) (afterResync flags).restart = (.ok (), afterRefresh flags) := by
  unfold afterRefresh
  rw [← refresh_ok flags]

theorem kept_row (member : row ∈ (afterResync flags).restart.rows self) :
    row = { unseenRow 4 with msgUid := 1 } := List.mem_singleton.mp member

theorem changed_epoch (flags : List String) : ∀ info ∈ (known flags).store.info,
    info.uidvalidity < (known flags).server.uidvalidity := by
  rintro _ ⟨⟩
  exact Nat.lt_succ_self 1

theorem row_retained (flags : List String) :
    Retained self (afterResync flags) (afterResync flags).restart 1 :=
  ⟨List.mem_singleton_self 1, List.mem_singleton_self 1⟩

theorem exists_still (flags : List String) : (mailboxOf (afterRefresh flags).server).Exists 1 := by
  unfold afterRefresh
  rw [run_server]
  rfl

theorem stale_row (shows : Shows L (labelled ["\\Seen"]) { unseenRow 4 with msgUid := 1 }) : False := by
  have seen : false = decide ("\\Seen" ∈ ["\\Seen"]) := congrArg FlagColumns.isSeen shows.columns
  simp at seen

theorem resync_amid (flags : List String) : Amid (World.perform self) Aside (resyncUidsImpl self .gmail)
    (known flags) (.ok ()) (afterResync flags) := amid_run (fun _ => ⟨rfl, rfl⟩) (resync_done flags)

theorem refresh_amid (flags : List String) : Amid (World.perform self) (Onward self)
    (condstoreRefreshFlags self .gmail .engine) (afterResync flags).restart (.ok ())
    (afterRefresh flags) :=
  amid_run (refreshing self (known flags)).rely_refl (refresh_done flags)

theorem unread_seen (uid : Nat) : Seen self (afterResync []).restart uid := by
  intro version current _ row member same
  obtain rfl := kept_row member
  subst same
  cases current
  refine ⟨rfl, ?_, ?_⟩
  · rintro _ ⟨⟩ label among
    cases among
  · rintro _ ⟨⟩ key among
    cases among

end Trial

open Trial in
theorem unread_row_current : AsOf self.lookups (mailboxOf (afterRefresh []).server) 5
    { unseenRow 4 with msgUid := 1 } :=
  retained_rows_current self .engine (known []) (afterResync []) (afterResync []).restart
    (afterRefresh []) 5 (changed_epoch []) (resync_amid []) (.single (.others rfl)) (refresh_amid []) rfl
    (fun uid _ => unread_seen uid) 1 (row_retained []) _ List.mem_cons_self rfl (exists_still [])

open Trial in
/-- The message has been read before the UIDVALIDITY changed. The new process stores the modseq and
fetches nothing, and the row stays unread. -/
theorem read_row_stale : ¬ ∀ engine greenlet before resynced start t modseq,
    (∀ info ∈ before.store.info, info.uidvalidity < before.server.uidvalidity) →
    Amid (World.perform engine) Aside (resyncUidsImpl engine .gmail) before (.ok ()) resynced →
    Relation.ReflTransGen (Between engine) resynced start →
    Amid (World.perform engine) (Onward engine) (condstoreRefreshFlags engine .gmail greenlet) start
      (.ok ()) t →
    t.storedModseq = some modseq →
    ∀ uid, Retained engine resynced start uid → ∀ row ∈ t.rows engine, row.msgUid = uid →
      (mailboxOf t.server).Exists uid → AsOf engine.lookups (mailboxOf t.server) modseq row := by
  intro always
  have shown := always self .engine (known ["\\Seen"]) _ _ _ 5 (changed_epoch _) (resync_amid _)
    (.single (.others rfl)) (refresh_amid _) rfl 1 (row_retained _) { unseenRow 4 with msgUid := 1 }
    List.mem_cons_self rfl (exists_still _)
  obtain ⟨version, among, _, shows⟩ := shown (labelled ["\\Seen"]) List.mem_cons_self (Nat.le_refl 5)
  obtain rfl : version = labelled ["\\Seen"] := List.mem_singleton.mp among
  exact stale_row shows

end Imap
end SyncEngine
