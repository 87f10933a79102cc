import SyncEngine.Mailsync.Imap.Flags
import SyncEngine.Mailsync.Imap.Resync
import SyncEngine.Mailsync.Imap.Upkeep
import SyncEngine.Util.Lookup

/-! The refresh of flags by modseq: batches in ascending order, checkpoints between them, and what
a crash after each commit leaves to a new process. -/
namespace SyncEngine
namespace Imap
open Cooperative Contract

/-- Every saved row of this UID has the flags that the server has now. -/
def UpToDate (mailbox : Mailbox) (folderId : Nat) (db : Db) (uid : Nat) : Prop :=
  ∀ row ∈ db.rows folderId, row.msgUid = uid → ∀ version ∈ mailbox.current uid,
    row.toFlagColumns = version.columns

instance : Decidable (UpToDate mailbox folderId db uid) :=
  inferInstanceAs (Decidable (∀ row ∈ db.rows folderId, row.msgUid = uid →
    ∀ version ∈ mailbox.current uid, row.toFlagColumns = version.columns))

/-- The invariant of the column: changes up to the stored modseq have been incorporated. -/
def Applied (mailbox : Mailbox) (folderId : Nat) (store : Store) : Prop :=
  ∀ info ∈ store.info, ∀ modseq ∈ info.highestmodseq, ∀ uid, ∀ version ∈ mailbox.current uid,
    version.modseq ≤ modseq → UpToDate mailbox folderId store.db uid

/-! ## One transaction -/
section Transactions
variable {mailbox : Mailbox}

theorem upToDate_updateItem (L : Lookups) (now folderId : Nat) (folderRole : String)
    {version : Version} (db : Db) (current : mailbox.current uid = some version) :
    UpToDate mailbox folderId (Common.updateMetadataItem L now folderId folderRole uid version.item db)
      uid := by
  intro row member same held other
  cases current.symm.trans other
  rw [updateMetadataItem_rows, List.mem_map] at member
  obtain ⟨old, _, rfl⟩ := member
  split
  · exact updatedRow_columns L version old
  · rename_i differs
    exact absurd same (by rwa [if_neg differs])

theorem upToDate_updateItem_other (L : Lookups) (now folderId : Nat) (folderRole : String)
    (newFlags : Flags) (db : Db) (apart : other ≠ uid) :
    UpToDate mailbox folderId (Common.updateMetadataItem L now folderId folderRole uid newFlags db)
      other ↔ UpToDate mailbox folderId db other := by
  unfold UpToDate
  rw [updateMetadataItem_rows]
  simp only [List.forall_mem_map]
  refine forall₂_congr fun row _ => ?_
  by_cases same : row.msgUid = uid
  · have keys := (updatedRow_keys L newFlags row).2
    simp [same, keys, apart.symm]
  · simp [same]

theorem upToDate_sub (sub : ∀ row ∈ later.rows folderId, row ∈ Db.rows db folderId)
    (fresh : UpToDate mailbox folderId db uid) : UpToDate mailbox folderId later uid :=
  fun row member => fresh row (sub row member)

/-- Messages that came with their flags of now. -/
theorem upToDate_commitMessages (L : Lookups) (now folderId : Nat) (folderRole : String)
    {rawMessages : List RawMessage} {db : Db}
    (fetched : ∀ msg ∈ rawMessages, ∃ version, mailbox.current msg.uid = some version ∧
      msg.flags = version.flags ∧ msg.gLabels = version.labels)
    (fresh : UpToDate mailbox folderId db uid) :
    UpToDate mailbox folderId
      (CreateMessage.commitMessages L now folderId folderRole rawMessages db) uid := by
  obtain ⟨added, rows, origins, _⟩ := commitMessages_rows L now folderId folderRole rawMessages db
  intro row member same version current
  rw [rows] at member
  rcases List.mem_append.mp member with old | new
  · exact fresh row old same version current
  · obtain ⟨_, msg, among, messageId, rfl⟩ := origins row new
    obtain ⟨found, has, flags, labels⟩ := fetched msg among
    rw [flaggedRow_msgUid] at same
    subst same
    cases has.symm.trans current
    exact flaggedRow_columns L version flags labels

/-- Gmail sends the labels of every message. -/
def Labelled (backend : Backend) (mailbox : Mailbox) : Prop :=
  backend = .gmail → ∀ uid, ∀ version ∈ mailbox.current uid, version.labels.isSome

/-- What a download has of a message are its flags of now. -/
def FlagsOfNow (mailbox : Mailbox) (msg : RawMessage) : Prop :=
  ∃ version, mailbox.current msg.uid = some version ∧ msg.flags = version.flags ∧ msg.gLabels = version.labels

/-- The rows that are added have the flags that the server has. -/
theorem upToDate_added {db later : Db} {added : List ImapUid}
    (rows : later.rows folderId = db.rows folderId ++ added)
    (columns : ∀ row ∈ added, ∀ version ∈ mailbox.current row.msgUid, row.toFlagColumns = version.columns)
    (fresh : UpToDate mailbox folderId db uid) : UpToDate mailbox folderId later uid := by
  intro row member same version current
  rw [rows] at member
  rcases List.mem_append.mp member with old | new
  · exact fresh row old same version current
  · exact columns row new version (same ▸ current)

theorem upToDate_createMessage (L : Lookups) (now folderId : Nat) (folderRole : String) {db : Db}
    (fetched : FlagsOfNow mailbox msg) (fresh : UpToDate mailbox folderId db uid) :
    UpToDate mailbox folderId (CreateMessage.createMessage L (CreateMessage.addMessageToThreadGmail L) now
      folderId folderRole msg db).1 uid := by
  obtain ⟨messageId, rows⟩ := createMessage_rows L (KeepsStatus.addMessageToThreadGmail L) now folderId
    folderRole msg db
  refine upToDate_added rows (fun row member other current => ?_) fresh
  split at member
  · cases member
  · obtain rfl := List.mem_singleton.mp member
    obtain ⟨version, has, flags, labels⟩ := fetched
    rw [flaggedRow_msgUid] at current
    cases has.symm.trans current
    exact flaggedRow_columns L other flags labels

theorem upToDate_deduplicate (L : Lookups) (now folderId : Nat) {db : Db} (fetched : FlagsOfNow mailbox msg)
    (labelled : Labelled .gmail mailbox) (fresh : UpToDate mailbox folderId db uid) :
    UpToDate mailbox folderId (((CreateMessage.deduplicate L now folderId msg db).map Prod.fst).getD db)
      uid := by
  obtain ⟨added, rows, origins⟩ := deduplicate_rows L now folderId msg db
  refine upToDate_added rows (fun row member other current => ?_) fresh
  obtain ⟨_, messageId, rfl⟩ := origins row member
  obtain ⟨version, has, flags, labels⟩ := fetched
  cases has.symm.trans current
  obtain ⟨listed, some⟩ := Option.isSome_iff_exists.mp (labelled rfl msg.uid other has)
  rw [labels, some, Option.getD_some, Version.columns, some, flags]
  rfl

end Transactions

/-! ## One batch -/
section Batches
variable (self : FolderSyncEngine) {mailbox : Mailbox} {w : World}

/-- What a phase of the refresh leaves alone, and what it does to single UIDs. -/
structure Refreshed (mailbox : Mailbox) (folderId : Nat) (uids : List Nat) (w : World)
    (stores : List Store) (t : World) : Prop where
  server : t.server = w.server
  fault : t.store.fault = w.store.fault
  keeps : ∀ uid, UpToDate mailbox folderId w.store.db uid →
    ∀ store ∈ t.store :: stores, UpToDate mailbox folderId store.db uid
  updates : ∀ uid ∈ uids, UpToDate mailbox folderId t.store.db uid
  leaves : ∀ uid ∉ uids, ¬ UpToDate mailbox folderId w.store.db uid →
    ¬ UpToDate mailbox folderId t.store.db uid

theorem Refreshed.refl (w : World) : Refreshed mailbox folderId [] w [] w where
  server := rfl
  fault := rfl
  keeps uid fresh store member := by
    obtain rfl := List.mem_singleton.mp member
    exact fresh
  updates uid member := by cases member
  leaves uid _ stale := stale

theorem Refreshed.trans (first : Refreshed mailbox folderId before w firsts t)
    (second : Refreshed mailbox folderId after t seconds last) :
    Refreshed mailbox folderId (before ++ after) w (firsts ++ seconds) last where
  server := second.server.trans first.server
  fault := second.fault.trans first.fault
  keeps uid fresh store member := by
    have kept := second.keeps uid (first.keeps uid fresh t.store List.mem_cons_self)
    rcases List.mem_cons.mp member with rfl | among
    · exact kept _ List.mem_cons_self
    · rcases List.mem_append.mp among with early | late
      · exact first.keeps uid fresh store (List.mem_cons_of_mem _ early)
      · exact kept store (List.mem_cons_of_mem _ late)
  updates uid member := by
    rcases List.mem_append.mp member with early | late
    · exact second.keeps uid (first.updates uid early) last.store List.mem_cons_self
    · exact second.updates uid late
  leaves uid absent stale := by
    rw [List.mem_append, not_or] at absent
    exact second.leaves uid absent.2 (first.leaves uid absent.1 stale)

theorem Refreshed.quiet (done : Refreshed mailbox folderId uids w stores t) (quiet : w.Quiet) :
    t.Quiet := ⟨done.server ▸ quiet.1, done.fault.trans quiet.2⟩

/-- A phase that leaves the row of the folder alone. -/
structure Updated (mailbox : Mailbox) (folderId : Nat) (uids : List Nat) (w : World)
    (stores : List Store) (t : World) : Prop extends Refreshed mailbox folderId uids w stores t where
  infos : ∀ store ∈ t.store :: stores, store.info = w.store.info

theorem Updated.refl (w : World) : Updated mailbox folderId [] w [] w where
  toRefreshed := .refl w
  infos store member := by
    obtain rfl := List.mem_singleton.mp member
    rfl

theorem Updated.trans (first : Updated mailbox folderId before w firsts t)
    (second : Updated mailbox folderId after t seconds last) :
    Updated mailbox folderId (before ++ after) w (firsts ++ seconds) last where
  toRefreshed := first.toRefreshed.trans second.toRefreshed
  infos store member := by
    have middle := first.infos t.store List.mem_cons_self
    rcases List.mem_cons.mp member with rfl | among
    · exact (second.infos _ List.mem_cons_self).trans middle
    · rcases List.mem_append.mp among with early | late
      · exact first.infos store (List.mem_cons_of_mem _ early)
      · exact (second.infos store (List.mem_cons_of_mem _ late)).trans middle

variable (mailbox)

/-- One turn of the loop in `update_metadata`. -/
theorem does_updateItem (quiet : w.Quiet) {version : Version}
    (current : mailbox.current uid = some version) :
    ∃ stores t, Does self (transact (.updateItem uid version.item) fun _ => some ()) w () stores t ∧
      Updated mailbox self.folderId [uid] w stores t := by
  let db := Common.updateMetadataItem self.lookups w.now self.folderId self.folderRole uid version.item
    w.store.db
  have updated : World.perform self (.updateItem uid version.item) w =
      { w with store := { w.store with db } } := by
    simp only [World.perform, World.commit_quiet quiet, db]
  have fresh := upToDate_updateItem self.lookups w.now self.folderId self.folderRole w.store.db current
  have others : ∀ other, other ≠ uid → (UpToDate mailbox self.folderId db other ↔
      UpToDate mailbox self.folderId w.store.db other) :=
    fun _ apart => upToDate_updateItem_other _ _ _ _ _ _ apart
  have done : Does self (transact (.updateItem uid version.item) fun _ => some ()) w () _ _ :=
    does_transact quiet rfl
  rw [updated] at done
  refine ⟨_, _, done, ⟨rfl, rfl, ?_, ?_, ?_⟩, ?_⟩
  · intro other held store member
    obtain rfl : store = { w.store with db } := by simpa [Command.commits] using member
    by_cases equal : other = uid
    · subst equal
      exact fresh
    · exact (others other equal).mpr held
  · intro other member
    obtain rfl := List.mem_singleton.mp member
    exact fresh
  · intro other apart stale held
    rw [List.mem_singleton] at apart
    exact stale ((others other apart).mp held)
  · intro store member
    obtain rfl : store = { w.store with db } := by simpa [Command.commits] using member
    rfl

theorem does_updates (quiet : w.Quiet) {newFlags : List (Nat × Flags)} (items : List Nat)
    (reported : ∀ uid ∈ items, ∃ version, mailbox.current uid = some version ∧
      newFlags.lookup uid = some version.item) :
    ∃ stores t, Does self (.each items fun uid =>
        match newFlags.lookup uid with
        | none => .ret ()
        | some flags => transact (.updateItem uid flags) fun _ => some ()) w () stores t ∧
      Updated mailbox self.folderId items w stores t := by
  induction items generalizing w with
  | nil => exact ⟨[], w, does_ret, .refl w⟩
  | cons uid rest ih =>
    obtain ⟨version, current, found⟩ := reported uid List.mem_cons_self
    obtain ⟨firsts, t, first, updated⟩ := does_updateItem self mailbox quiet current
    obtain ⟨seconds, last, later, others⟩ := ih (updated.quiet quiet)
      (fun other member => reported other (List.mem_cons_of_mem _ member))
    have turn : Does self (match newFlags.lookup uid with
        | none => .ret ()
        | some flags => transact (.updateItem uid flags) fun _ => some ()) w () firsts t := by
      simpa only [found] using first
    exact ⟨firsts ++ seconds, last, does_bind turn later, updated.trans others⟩

/-- A transaction for each local UID that the batch names. -/
theorem does_updateMetadata (quiet : w.Quiet) {flagBatch : List (Nat × Flags)}
    (reported : ∀ entry ∈ flagBatch, Reports mailbox entry) :
    ∃ stores t, Does self (updateMetadata self flagBatch) w () stores t ∧
      Updated mailbox self.folderId (flagBatch.map Prod.fst) w stores t := by
  unfold updateMetadata
  split
  · rename_i none
    subst none
    exact ⟨[], w, does_ret, .refl w⟩
  · let items := (Common.localUids w.store.db self.folderId).filter
      fun uid => (flagBatch.lookup uid).isSome
    have looked : Does self (transact (.lookup flagBatch) fun w =>
        some ((Common.localUids w.store.db self.folderId).filter
          fun uid => (flagBatch.lookup uid).isSome)) w items [] w := does_transact quiet rfl
    have named : ∀ uid ∈ items, ∃ flags, flagBatch.lookup uid = some flags :=
      fun uid member => Option.isSome_iff_exists.mp (by simpa using (List.mem_filter.mp member).2)
    have updates : ∀ uid ∈ items, ∃ version, mailbox.current uid = some version ∧
        flagBatch.lookup uid = some version.item := by
      intro uid member
      obtain ⟨flags, found⟩ := named uid member
      obtain ⟨version, current, same⟩ := reported _ (mem_of_lookup_eq_some found)
      exact ⟨version, current, found.trans (congrArg some same)⟩
    obtain ⟨stores, t, done, updated⟩ := does_updates self mailbox quiet items updates
    refine ⟨[] ++ stores, t, does_bind looked done, ⟨updated.server, updated.fault, updated.keeps, ?_, ?_⟩,
      updated.infos⟩
    · intro uid member
      by_cases saved : uid ∈ items
      · exact updated.updates uid saved
      · refine updated.keeps uid (fun row held same => ?_) t.store List.mem_cons_self
        have absent : uid ∉ Common.localUids w.store.db self.folderId := by
          intro held
          exact saved (List.mem_filter.mpr ⟨held, lookup_isSome member⟩)
        exact absurd (mem_localUids.mpr ⟨row, held, same⟩) absent
    · intro uid absent stale
      refine updated.leaves uid (fun member => absent ?_) stale
      obtain ⟨flags, found⟩ := named uid member
      exact List.mem_map_of_mem (mem_of_lookup_eq_some found)

theorem does_checkpoint (quiet : w.Quiet) (found : w.store.info = some info)
    (flagBatch : List (Nat × Flags)) (rest : List (List (Nat × Flags))) :
    ∃ stores t, Does self (checkpoint flagBatch rest) w () stores t ∧
      t.server = w.server ∧ if flagBatch.length = CONDSTORE_FLAGS_REFRESH_BATCH_SIZE then
        stores = [t.store] ∧ t.store = w.store.withInfo { info with highestmodseq := maxModseq flagBatch }
      else stores = [] ∧ t.store = w.store := by
  unfold checkpoint
  split
  · obtain ⟨a, noted, store, server⟩ := does_noteWaiting self w fun uid =>
      rest.any fun later => later.any fun entry => entry.1 = uid
    obtain ⟨t, done, stored, same, _⟩ := does_setHighestmodseq self (w := a)
      ⟨server ▸ quiet.1, store ▸ quiet.2⟩ (store ▸ found) (maxModseq flagBatch)
    rw [store] at done stored
    exact ⟨_, t, does_bind noted done, same.trans server, by rw [stored]; rfl, stored⟩
  · exact ⟨_, w, does_ret, rfl, rfl, rfl⟩

end Batches

/-! ## Modseqs in order -/
section Order
variable {flagBatch : List (Nat × Flags)}

theorem byModseq_perm (changedFlags : List (Nat × Flags)) :
    (byModseq changedFlags).Perm changedFlags := List.perm_insertionSort _ _

def Ascending (entries : List (Nat × Flags)) : Prop :=
  entries.Pairwise fun a b => modseqKey a.2.modseq ≤ modseqKey b.2.modseq

theorem byModseq_ascending (changedFlags : List (Nat × Flags)) : Ascending (byModseq changedFlags) := by
  have : Std.Total fun a b : Nat × Flags => modseqKey a.2.modseq ≤ modseqKey b.2.modseq :=
    ⟨fun a b => Nat.le_total _ _⟩
  have : IsTrans (Nat × Flags) fun a b => modseqKey a.2.modseq ≤ modseqKey b.2.modseq :=
    ⟨fun _ _ _ => Nat.le_trans⟩
  exact List.pairwise_insertionSort _ _

/-- The largest modseq of a batch is that of one of its entries. -/
theorem maxModseq_mem (some : flagBatch ≠ []) (known : ∀ entry ∈ flagBatch, entry.2.modseq ≠ none) :
    ∃ entry ∈ flagBatch, entry.2.modseq = maxModseq flagBatch := by
  have folded : ∀ (entries : List (Nat × Flags)) (best : Option Nat),
      let result := entries.foldl (fun best entry =>
        if modseqKey best < modseqKey entry.2.modseq then entry.2.modseq else best) best
      modseqKey best ≤ modseqKey result ∧ (result = best ∨ ∃ entry ∈ entries, entry.2.modseq = result) ∧
        ∀ entry ∈ entries, modseqKey entry.2.modseq ≤ modseqKey result := by
    intro entries
    induction entries with
    | nil => intro best; simp
    | cons entry rest ih =>
      intro best
      obtain ⟨grown, origin, bounds⟩ := ih
        (if modseqKey best < modseqKey entry.2.modseq then entry.2.modseq else best)
      grind
  obtain ⟨_, origin, bounds⟩ := folded flagBatch none
  rcases origin with none | found
  · obtain ⟨entry, member⟩ := List.exists_mem_of_ne_nil _ some
    have bound := bounds entry member
    rw [none] at bound
    cases modseq : entry.2.modseq with
    | none => exact absurd modseq (known entry member)
    | some value => simp [modseq, modseqKey] at bound
  · exact found

end Order

/-! ## All batches -/

/-- The changes that have the modseq of an earlier checkpoint are already stored. -/
def TiesStored (mailbox : Mailbox) (folderId : Nat) (db : Db) (batches : List (List (Nat × Flags))) :
    Prop :=
  ∀ before flagBatch after, batches = before ++ flagBatch :: after →
    flagBatch.length = CONDSTORE_FLAGS_REFRESH_BATCH_SIZE → ∀ entry ∈ after.flatten,
      entry.2.modseq = maxModseq flagBatch → UpToDate mailbox folderId db entry.1

section Loop
variable {self : FolderSyncEngine} {mailbox : Mailbox} {w : World} {info : ImapFolderInfo}
  {flagBatch : List (Nat × Flags)} {rest : List (List (Nat × Flags))}

theorem Applied.mono {store : Store} (applied : Applied mailbox folderId store)
    (same : later.info = store.info)
    (kept : ∀ uid, UpToDate mailbox folderId store.db uid → UpToDate mailbox folderId later.db uid) :
    Applied mailbox folderId later := by
  intro info found modseq saved uid version current below
  rw [same] at found
  exact kept uid (applied info found modseq saved uid version current below)

/-- A checkpoint is right when no change with its modseq is still to come. -/
theorem applied_checkpoint {t : World} (full : flagBatch ≠ [])
    (reported : ∀ entry ∈ (flagBatch :: rest).flatten, Reports mailbox entry)
    (ascending : Ascending (flagBatch :: rest).flatten)
    (covered : ∀ uid, UpToDate mailbox folderId t.store.db uid ∨ uid ∈ rest.flatten.map Prod.fst)
    (ties : ∀ entry ∈ rest.flatten, entry.2.modseq = maxModseq flagBatch →
      UpToDate mailbox folderId t.store.db entry.1) :
    Applied mailbox folderId
      (t.store.withInfo { info with highestmodseq := maxModseq flagBatch }) := by
  rintro _ ⟨⟩ modseq saved uid version current below
  rcases covered uid with fresh | waiting
  · exact fresh
  · obtain ⟨entry, member, rfl⟩ := List.mem_map.mp waiting
    refine ties entry member ?_
    have known : ∀ entry ∈ flagBatch, entry.2.modseq ≠ none := by
      intro entry member
      obtain ⟨found, _, same⟩ := reported entry (List.mem_append_left _ member)
      simp [same, Version.item]
    obtain ⟨largest, among, same⟩ := maxModseq_mem full known
    have order : modseqKey largest.2.modseq ≤ modseqKey entry.2.modseq :=
      (List.pairwise_append.mp ascending).2.2 largest among entry member
    obtain ⟨found, has, item⟩ := reported entry (List.mem_append_right _ member)
    cases has.symm.trans current
    rw [same, show maxModseq flagBatch = some modseq from saved, item] at order
    have equal : version.modseq = modseq := by
      simp only [Version.item, modseqKey] at order
      omega
    rw [show maxModseq flagBatch = some modseq from saved, item, ← equal]
    rfl

/-- A checkpoint is wrong as soon as one such change is not stored. -/
theorem not_applied_checkpoint {t : World} (report : Reports mailbox entry)
    (tie : entry.2.modseq = maxModseq flagBatch)
    (stale : ¬ UpToDate mailbox folderId t.store.db entry.1) :
    ¬ Applied mailbox folderId
      (t.store.withInfo { info with highestmodseq := maxModseq flagBatch }) := by
  intro applied
  obtain ⟨version, current, item⟩ := report
  rw [item] at tie
  exact stale (applied _ rfl version.modseq tie.symm entry.1 version current (Nat.le_refl _))

/-- What the loop over the batches comes to, and when all its checkpoints are right. -/
structure LoopDone (mailbox : Mailbox) (folderId : Nat) (batches : List (List (Nat × Flags)))
    (w : World) (stores : List Store) (t : World) : Prop where
  server : t.server = w.server
  fault : t.store.fault = w.store.fault
  keeps : ∀ uid, UpToDate mailbox folderId w.store.db uid → UpToDate mailbox folderId t.store.db uid
  updates : ∀ entry ∈ batches.flatten, UpToDate mailbox folderId t.store.db entry.1
  applied : Ascending batches.flatten → Applied mailbox folderId w.store →
    (∀ uid, UpToDate mailbox folderId w.store.db uid ∨ uid ∈ batches.flatten.map Prod.fst) →
    TiesStored mailbox folderId w.store.db batches → ∀ store ∈ stores, Applied mailbox folderId store
  ties : (batches.flatten.map Prod.fst).Nodup → (∀ store ∈ stores, Applied mailbox folderId store) →
    TiesStored mailbox folderId w.store.db batches

/-- One turn of the loop: the batch is stored, and then its checkpoint, if it is full. -/
theorem LoopDone.cons {a b t : World}
    (reported : ∀ entry ∈ (flagBatch :: rest).flatten, Reports mailbox entry)
    (updated : Updated mailbox folderId (flagBatch.map Prod.fst) w firsts a)
    (server : b.server = a.server) (checked :
      if flagBatch.length = CONDSTORE_FLAGS_REFRESH_BATCH_SIZE then
        seconds = [b.store] ∧ b.store = a.store.withInfo { info with highestmodseq := maxModseq flagBatch }
      else seconds = [] ∧ b.store = a.store)
    (later : LoopDone mailbox folderId rest b thirds t) :
    LoopDone mailbox folderId (flagBatch :: rest) w (firsts ++ (seconds ++ thirds)) t := by
  have sameDb : b.store.db = a.store.db := by
    split at checked <;> rw [checked.2]
    rfl
  have sameFault : b.store.fault = a.store.fault := by
    split at checked <;> rw [checked.2]
    rfl
  have kept : ∀ uid, UpToDate mailbox folderId w.store.db uid →
      UpToDate mailbox folderId b.store.db uid := by
    intro uid fresh
    rw [sameDb]
    exact updated.keeps uid fresh a.store List.mem_cons_self
  have stored : ∀ entry ∈ flagBatch, UpToDate mailbox folderId b.store.db entry.1 := by
    intro entry member
    rw [sameDb]
    exact updated.updates _ (List.mem_map_of_mem member)
  constructor
  · rw [later.server, server, updated.server]
  · rw [later.fault, sameFault, updated.fault]
  · exact fun uid fresh => later.keeps uid (kept uid fresh)
  · intro entry member
    rcases List.mem_append.mp member with now | after
    · exact later.keeps _ (stored entry now)
    · exact later.updates entry after
  · intro ascending applied covered ties
    have coveredAfter : ∀ uid, UpToDate mailbox folderId b.store.db uid ∨
        uid ∈ rest.flatten.map Prod.fst := by
      intro uid
      rcases covered uid with fresh | named
      · exact .inl (kept uid fresh)
      · obtain ⟨entry, member, rfl⟩ := List.mem_map.mp named
        rcases List.mem_append.mp member with now | after
        · exact .inl (stored entry now)
        · exact .inr (List.mem_map_of_mem after)
    have during : ∀ store ∈ a.store :: firsts, Applied mailbox folderId store :=
      fun store member => applied.mono (updated.infos store member)
        (fun uid fresh => updated.keeps uid fresh store member)
    have after : Applied mailbox folderId b.store := by
      by_cases full : flagBatch.length = CONDSTORE_FLAGS_REFRESH_BATCH_SIZE
      · rw [if_pos full] at checked
        have some : flagBatch ≠ [] := by
          rintro rfl
          cases full
        rw [checked.2]
        refine applied_checkpoint some reported ascending ?_ ?_
        · simpa only [sameDb] using coveredAfter
        · intro entry member tie
          rw [← sameDb]
          exact kept _ (ties [] flagBatch rest rfl full entry member tie)
      · rw [if_neg full] at checked
        rw [checked.2]
        exact during a.store List.mem_cons_self
    have tiesAfter : TiesStored mailbox folderId b.store.db rest := by
      rintro before other after rfl full entry member tie
      exact kept _ (ties (flagBatch :: before) other after rfl full entry member tie)
    have rests := later.applied (List.pairwise_append.mp ascending).2.1 after coveredAfter tiesAfter
    intro store member
    rcases List.mem_append.mp member with early | late
    · exact during store (List.mem_cons_of_mem _ early)
    · rcases List.mem_append.mp late with middle | last
      · by_cases full : flagBatch.length = CONDSTORE_FLAGS_REFRESH_BATCH_SIZE
        · rw [if_pos full] at checked
          rw [checked.1] at middle
          rwa [List.mem_singleton.mp middle]
        · rw [if_neg full] at checked
          rw [checked.1] at middle
          cases middle
      · exact rests store last
  · intro nodup allApplied before other after split full entry member tie
    by_contra stale
    have apart : ∀ entry ∈ rest.flatten, entry.1 ∉ flagBatch.map Prod.fst := by
      intro entry member named
      rw [List.flatten_cons, List.map_append, List.nodup_append] at nodup
      exact nodup.2.2 _ named _ (List.mem_map_of_mem member) rfl
    have still : entry ∈ rest.flatten → ¬ UpToDate mailbox folderId b.store.db entry.1 := by
      intro among
      rw [sameDb]
      exact updated.leaves _ (apart entry among) stale
    cases before with
    | nil =>
      obtain ⟨rfl, rfl⟩ := List.cons.inj split
      rw [if_pos full] at checked
      have wrong : ¬ Applied mailbox folderId
          (a.store.withInfo { info with highestmodseq := maxModseq flagBatch }) :=
        not_applied_checkpoint (reported entry (List.mem_append_right _ member)) tie
          (by simpa only [sameDb] using still member)
      rw [← checked.2] at wrong
      exact wrong (allApplied _ (List.mem_append_right _ (List.mem_append_left _ (by simp [checked.1]))))
    | cons first before =>
      obtain ⟨rfl, rfl⟩ := List.cons.inj split
      have among : entry ∈ (before ++ other :: after).flatten := by
        simp only [List.flatten_append, List.flatten_cons, List.mem_append]
        exact .inr (.inr member)
      have tiesAfter := later.ties (by
          rw [List.flatten_cons, List.map_append, List.nodup_append] at nodup
          exact nodup.2.1)
        (fun store held => allApplied store (List.mem_append_right _ (List.mem_append_right _ held)))
      exact still among (tiesAfter before other after rfl full entry member tie)

theorem does_refreshBatches (self : FolderSyncEngine) (mailbox : Mailbox) (quiet : w.Quiet)
    (found : w.store.info = some info) (batches : List (List (Nat × Flags)))
    (reported : ∀ entry ∈ batches.flatten, Reports mailbox entry) :
    ∃ stores t, Does self (refreshBatches self batches) w () stores t ∧
      LoopDone mailbox self.folderId batches w stores t := by
  induction batches generalizing w info with
  | nil =>
    refine ⟨[], w, does_ret, rfl, rfl, fun _ fresh => fresh, ?_, ?_, ?_⟩
    · intro entry member
      cases member
    · intro _ _ _ _ store member
      cases member
    · intro _ _ before flagBatch after split
      simp at split
  | cons flagBatch rest ih =>
    obtain ⟨firsts, a, first, updated⟩ := does_updateMetadata self mailbox quiet
      (fun entry member => reported entry (List.mem_append_left _ member))
    have foundA : a.store.info = some info := (updated.infos _ List.mem_cons_self).trans found
    have quietA := updated.quiet quiet
    obtain ⟨seconds, b, second, server, checked⟩ := does_checkpoint self quietA foundA flagBatch rest
    have foundB : ∃ later, b.store.info = some later := by
      split at checked
      · exact ⟨_, by rw [checked.2]; rfl⟩
      · exact ⟨info, by rw [checked.2, foundA]⟩
    have quietB : b.Quiet := by
      refine ⟨server ▸ quietA.1, ?_⟩
      split at checked <;> rw [checked.2]
      · exact quietA.2
      · exact quietA.2
    obtain ⟨_, foundB⟩ := foundB
    obtain ⟨thirds, t, third, later⟩ := ih quietB foundB
      (fun entry member => reported entry (List.mem_append_right _ member))
    exact ⟨_, t, does_bind first (does_bind second third), .cons reported updated server checked later⟩

end Loop

/-! ## The rest of the refresh -/
section Rest
variable {self : FolderSyncEngine}

/-- Everything is up to date, and the server stays as it is. -/
def current (self : FolderSyncEngine) (server : Server) : Contract (World.perform self) where
  inv w := w.server = server ∧
    ∀ uid, UpToDate (server.mailbox server.uidvalidity) self.folderId w.store.db uid
  admits _ _ := True
  rely s t := s = t
  guar _ _ := True
  rely_refl _ := rfl
  rely_trans := Eq.trans

theorem current_stable (server : Server) (P : World → Prop) : (current self server).Stable P := by
  rintro s t held rfl _
  exact held

/-- A command that gives the folder no rows that it did not have. -/
def Shrinks (self : FolderSyncEngine) (command : Command) : Prop :=
  ∀ w : World, ∀ row ∈ (World.perform self command w).rows self, row ∈ w.rows self

theorem shrinks_commit {w : World} {change : Store → Store}
    (sub : ∀ row ∈ (change w.store).db.rows self.folderId, row ∈ w.rows self) :
    ∀ row ∈ (w.commit change).rows self, row ∈ w.rows self := by
  unfold World.commit
  split
  · exact fun row member => member
  · exact sub

theorem shrinks_ask : Shrinks self .ask := fun _ _ member => member

theorem shrinks_cache : Shrinks self (.cache write) := fun _ _ member => member

theorem shrinks_note : Shrinks self (.note waiting) := fun _ _ member => member

theorem shrinks_write : Shrinks self (.write write) := fun _ => shrinks_commit fun _ member => member

theorem shrinks_load : Shrinks self (.load column) := by
  intro w row member
  unfold World.perform at member
  dsimp only at member
  split at member <;> exact member

theorem shrinks_fetch : Shrinks self (.fetch greenlet session uid) := by
  intro w row member
  unfold World.perform at member
  dsimp only at member
  split at member <;> exact member

theorem shrinks_removeUid : Shrinks self (.removeUid uid) := by
  refine fun w => shrinks_commit fun row member => ?_
  rw [removeDeletedUid_rows] at member
  exact (List.mem_filter.mp member).1

theorem current_shrinks {server : Server} {w : World} (shrinks : Shrinks self command)
    (good : (current self server).inv w) : (current self server).inv (World.perform self command w) :=
  ⟨(World.perform_server ..).trans good.1, fun uid => upToDate_sub (shrinks w) (good.2 uid)⟩

theorem current_issues {server : Server} {routine : Call α} {P : World → Prop}
    (issued : routine.Issues (Shrinks self)) :
    (current self server).Spec P routine (fun _ _ => True) (fun _ _ => True) := by
  refine spec_mono (spec_issues (current_stable server fun _ => True) issued ?_) (fun _ _ _ => trivial)
    (fun _ _ _ held => held) (fun _ _ _ held => held)
  exact fun command t shrinks good _ _ => ⟨current_shrinks shrinks good, trivial, trivial⟩

theorem current_fetch (self : FolderSyncEngine) (server : Server) (greenlet : Greenlet) (session : Session)
    (uids : List Nat) :
    (current self server).Spec (fun _ => session.uidvalidity = server.uidvalidity)
      (fetchUids greenlet session uids) (fun messages _ => session.uidvalidity = server.uidvalidity ∧
        ∀ msg ∈ messages, FlagsOfNow (server.mailbox server.uidvalidity) msg) (fun _ _ => True) := by
  let holding := fun (messages : List RawMessage) (_ : World) => session.uidvalidity = server.uidvalidity ∧
    ∀ msg ∈ messages, FlagsOfNow (server.mailbox server.uidvalidity) msg
  have stable : ∀ P, (current self server).Stable P := current_stable server
  have fetched : (current self server).Spec (holding []) (fetchUids greenlet session uids)
      (fun fetched => holding ([] ++ fetched)) (fun _ _ => True) := by
    refine spec_fetchUids holding (fun _ => stable _) (stable _) (fun uid messages t good held _ => ?_) uids []
    refine ⟨current_shrinks shrinks_fetch good, trivial, trivial, fun delivered _ answer => ?_⟩
    refine ⟨held.1, fun msg member => ?_⟩
    rcases List.mem_append.mp member with old | new
    · exact held.2 msg old
    · obtain ⟨rfl, _, version, has, flags, labels, _⟩ := mem_deliver answer new
      rw [good.1, Server.folder, held.1] at has
      exact ⟨version, has, flags, labels⟩
  exact spec_mono fetched (fun _ _ known => ⟨known, by simp⟩) (fun _ _ _ held => held) (fun _ _ _ held => held)

theorem current_commit {server : Server} {w : World} (good : (current self server).inv w)
    {change : Store → Store}
    (fresh : ∀ uid, UpToDate (server.mailbox server.uidvalidity) self.folderId w.store.db uid →
      UpToDate (server.mailbox server.uidvalidity) self.folderId (change w.store).db uid) :
    (current self server).inv (w.commit change) := by
  refine ⟨(World.commit_server ..).trans good.1, fun uid => ?_⟩
  unfold World.commit
  split
  · exact good.2 uid
  · exact fresh uid (good.2 uid)

theorem current_transact {server : Server} {command : Command} {answer : World → Option Unit} {P : Prop}
    (keeps : P → ∀ t, (current self server).inv t → (current self server).inv (World.perform self command t)) :
    (current self server).Spec (fun _ => P) (transact command answer) (fun _ _ => P)
      (fun _ _ => True) := by
  have stable : ∀ P, (current self server).Stable P := current_stable server
  exact spec_transact (stable _) (fun _ => stable _) (stable _) fun t good held _ =>
    ⟨keeps held t good, trivial, trivial, fun _ _ _ => held⟩

/-- The messages of a download have the flags that the server has. -/
theorem current_download (self : FolderSyncEngine) (server : Server) (backend : Backend)
    (labelled : Labelled backend (server.mailbox server.uidvalidity)) (greenlet : Greenlet)
    (session : Session) (uids : List Nat) :
    (current self server).Spec (fun _ => session.uidvalidity = server.uidvalidity)
      (download self backend greenlet session uids)
      (fun _ _ => session.uidvalidity = server.uidvalidity) (fun _ _ => True) := by
  let mailbox := server.mailbox server.uidvalidity
  have stable : ∀ P, (current self server).Stable P := current_stable server
  cases backend with
  | generic =>
    refine spec_downloadAndCommitUids _ (current_fetch self server greenlet session uids)
      (spec_ret (stable _) fun _ _ held => held.1) fun messages => ?_
    refine spec_mono (current_transact fun held t good => ?_) (fun _ _ held => held)
      (fun _ _ _ held => held.1) (fun _ _ _ held => held)
    exact current_commit good fun uid fresh => upToDate_commitMessages _ _ _ _ held.2 fresh
  | gmail =>
    have keeps : ∀ (messages : List RawMessage) (save : RawMessage → Command)
        (answer : RawMessage → World → Option Unit), (∀ msg, FlagsOfNow mailbox msg → ∀ t,
          (current self server).inv t → (current self server).inv (World.perform self (save msg) t)) →
        (current self server).Spec (fun _ => ∀ msg ∈ messages, FlagsOfNow mailbox msg)
          (.each messages fun msg => transact (save msg) (answer msg)) (fun _ _ => True) (fun _ _ => True) := by
      intro messages save answer keeps
      refine spec_mono (spec_each (fun rest _ => ∀ msg ∈ rest, FlagsOfNow mailbox msg) (stable _)
        fun msg rest => ?_) (fun _ _ held => held) (fun _ _ _ _ => trivial) (fun _ _ _ held => held)
      exact spec_mono (current_transact fun held => keeps msg (held msg List.mem_cons_self))
        (fun _ _ held => held) (fun _ _ _ held => (List.forall_mem_cons.mp held).2) (fun _ _ _ held => held)
    refine spec_bind (current_fetch self server greenlet session uids) fun messages s good held => ?_
    have among : ∀ (some : World → RawMessage → Bool), (current self server).Spec (fun _ => True)
        (query fun w => messages.filter (some w)) (fun chosen _ => ∀ msg ∈ chosen, FlagsOfNow mailbox msg)
        (fun _ _ => True) := fun some =>
      spec_query (stable _) (fun _ => stable _) (stable _) (fun _ _ _ => trivial) (fun _ _ => trivial)
        fun _ _ _ _ msg member => held.2 msg (List.mem_filter.mp member).1
    split
    · exact spec_ret (stable fun _ => True) (fun _ _ _ => held.1) s good trivial
    · refine (show (current self server).Spec (fun _ => True) _
        (fun _ _ => session.uidvalidity = server.uidvalidity) (fun _ _ => True) from ?_) s good trivial
      refine spec_bind (among _) fun known => spec_bind (keeps known Command.saveKnown _ ?_) fun _ =>
        spec_bind (among _) fun created => spec_mono (keeps created Command.saveNew _ ?_)
          (fun _ _ held => held) (fun _ _ _ _ => held.1) (fun _ _ _ held => held)
      · exact fun msg fetched t good => current_commit good fun _ fresh =>
          upToDate_deduplicate _ _ _ fetched labelled fresh
      · exact fun msg fetched t good => current_commit good fun _ fresh =>
          upToDate_createMessage _ _ _ _ fetched fresh

theorem current_downloads (self : FolderSyncEngine) (server : Server) (backend : Backend)
    (labelled : Labelled backend (server.mailbox server.uidvalidity)) (greenlet : Greenlet) :
    Downloads self (current self server) backend greenlet (fun _ => True)
      (fun session _ => session.uidvalidity = server.uidvalidity) (fun _ _ => True) where
  stable := current_stable server _
  knows _ := current_stable server _
  fails _ _ _ _ := trivial
  asks _ _ _ := trivial
  readsUidnext := current_issues (issues_load shrinks_ask shrinks_load)
  selects := by
    have stable : ∀ P, (current self server).Stable P := current_stable server
    let known := fun (session : Session) (_ : World) => session.uidvalidity = server.uidvalidity
    refine spec_selectFolder known (stable _) (fun _ => stable _) (fun _ => stable _)
      (fun _ _ _ _ => trivial) (fun _ _ _ => trivial) (fun t good _ => ?_) fun session => ?_
    · exact congrArg Server.uidvalidity good.1
    · refine spec_uidvalidityCb (fun _ => known session) (fun _ => stable _) ?_
        (fun _ _ _ held _ => ⟨trivial, held⟩) (fun _ _ _ _ _ => trivial)
      refine spec_load (stable _) (fun _ => stable _) (stable _) (fun _ _ _ => trivial)
        (fun _ _ _ held _ => held) (fun t good held _ => ?_)
      exact ⟨current_shrinks shrinks_load good, trivial, trivial, fun _ _ _ => held⟩
  downloads session uid := spec_mono (current_download self server backend labelled greenlet session [uid])
    (fun _ _ held => held.2) (fun _ _ _ held => ⟨trivial, held⟩) (fun _ _ _ held => held)
  counts value := current_issues (issues_setAttribute shrinks_write shrinks_cache)

/-- From the end of the loop on, everything stays up to date. -/
theorem current_rest (self : FolderSyncEngine) (server : Server) (backend : Backend)
    (labelled : Labelled backend (server.mailbox server.uidvalidity)) (greenlet : Greenlet)
    (newHighestmodseq : Nat) (remoteUids : List Nat) :
    (current self server).Spec (fun _ => True)
      (do
        let local_ ← localUids self
        expunge self backend greenlet remoteUids (local_.filter (· ∉ remoteUids))
        noteWaiting fun _ => false
        setHighestmodseq (some newHighestmodseq))
      (fun _ _ => True) (fun _ _ => True) := by
  have removes : ∀ uids, (current self server).Spec (fun _ => True) (removeDeletedUids uids)
      (fun _ _ => True) (fun _ _ => True) :=
    fun uids => current_issues (issues_removeDeletedUids fun _ => shrinks_removeUid)
  have asks : ∀ {α : Type} {answer : World → α}, (current self server).Spec (fun _ => True)
      (query answer) (fun _ _ => True) (fun _ _ => True) :=
    current_issues (Routine.issues_issue.mpr shrinks_ask)
  have expunges : ∀ expungedUids, (current self server).Spec (fun _ => True)
      (expunge self backend greenlet remoteUids expungedUids) (fun _ _ => True) (fun _ _ => True) := by
    intro expungedUids
    unfold expunge
    split
    · exact spec_ret (current_stable server _) fun _ _ _ => trivial
    · refine spec_bind asks fun lastseen => ?_
      split
      · exact spec_bind (current_downloads self server backend labelled greenlet).getNewUids fun _ => removes _
      · exact removes _
  refine spec_bind asks fun local_ => spec_bind (expunges _) fun _ => ?_
  refine spec_bind (current_issues (Routine.issues_issue.mpr shrinks_note)) fun _ => ?_
  exact current_issues (issues_setHighestmodseq shrinks_cache shrinks_write)

end Rest

/-! ## One refresh -/
section Refresh
variable {self : FolderSyncEngine} {w t last : World} {info : ImapFolderInfo} {backend : Backend}
  {greenlet : Greenlet}

/-- A routine has come to its rest. -/
def Leads (self : FolderSyncEngine) (routine : Call α) (w : World) (stores : List Store)
    (rest : Call α) (t : World) : Prop :=
  routine.run (World.perform self) w = rest.run (World.perform self) t ∧
    commits self routine w = stores ++ commits self rest t

theorem leads_bind {routine : Call α} (rest : α → Call β)
    (first : Does self routine w value stores t) :
    Leads self (routine.bind rest) w stores (rest value) t := by
  constructor
  · rw [Routine.run_bind_ok _ first.1]
  · rw [commits, Routine.steps_bind_ok _ first.1, List.filter_append, List.map_append]
    exact congrArg (· ++ _) first.2

theorem Leads.trans {a b c : Call α} (first : Leads self a w firsts b t)
    (second : Leads self b t seconds c last) : Leads self a w (firsts ++ seconds) c last :=
  ⟨first.1.trans second.1, by rw [first.2, second.2, List.append_assoc]⟩

/-- The same, for a world whose store and server are not changed by reading. -/
structure Reads (info : ImapFolderInfo) (w t : World) : Prop where
  store : t.store = w.store
  server : t.server = w.server
  agrees : t.memory.Agrees info

theorem does_read (self : FolderSyncEngine) {column : Column} {copy : Memory → Option α}
    {row : ImapFolderInfo → α} (quiet : w.Quiet) (found : w.store.info = some info)
    (agrees : w.memory.Agrees info) (cached : ∀ value ∈ copy w.memory, value = row info) :
    ∃ t, Does self (load column copy row) w (row info) [] t ∧ Reads info w t := by
  obtain ⟨t, loaded, same⟩ := does_load self quiet found cached
  refine ⟨t, loaded, ?_⟩
  rcases same with rfl | rfl
  · exact ⟨rfl, rfl, agrees⟩
  · exact ⟨rfl, rfl, agrees.cache column⟩

theorem Reads.trans (first : Reads info w t) (later : Reads info t last) : Reads info w last :=
  ⟨later.store.trans first.store, later.server.trans first.server, later.agrees⟩

theorem Reads.quiet (reads : Reads info w t) (quiet : w.Quiet) : t.Quiet :=
  ⟨reads.server ▸ quiet.1, reads.store ▸ quiet.2⟩

/-- Up to the comparison with the server's value. -/
theorem leads_compare (self : FolderSyncEngine) (quiet : w.Quiet) (found : w.store.info = some info)
    (agrees : w.memory.Agrees info) (saved : info.highestmodseq = some modseq) (newHighestmodseq : Nat) :
    ∃ t, Reads info w t ∧ ∀ rest : Option Nat → Call Unit, Leads self (do
        let saved ← highestmodseq
        initHighestmodseq newHighestmodseq saved
        let saved ← highestmodseq
        rest saved) w [] (rest (some modseq)) t := by
  obtain ⟨a, first, readsA⟩ := does_read self quiet found agrees agrees.highestmodseq
  have foundA : a.store.info = some info := readsA.store ▸ found
  obtain ⟨b, second, readsB⟩ := does_read self (readsA.quiet quiet) foundA readsA.agrees
    readsA.agrees.highestmodseq
  rw [saved] at first second
  have unset : Does self (initHighestmodseq newHighestmodseq (some modseq)) a () [] a := does_ret
  refine ⟨b, readsA.trans readsB, fun rest => ?_⟩
  exact (leads_bind _ first).trans ((leads_bind _ unset).trans (leads_bind rest second))

/-- Up to the loop over the batches: the server lists what has changed since the stored value. -/
theorem leads_loop (self : FolderSyncEngine) (backend : Backend) (greenlet : Greenlet) (quiet : w.Quiet)
    (found : w.store.info = some info) (agrees : w.memory.Agrees info)
    (epoch : w.server.uidvalidity ≤ info.uidvalidity) (saved : info.highestmodseq = some modseq)
    (newHighestmodseq : Nat) :
    let session := w.server.selectInfo
    let remoteUids := (w.server.folder session).allUids
    ∃ t, Reads info w t ∧ Leads self (refreshChanged self backend greenlet newHighestmodseq) w []
      (do
        refreshBatches self (chunk (byModseq (w.server.changedFlags session modseq))
          CONDSTORE_FLAGS_REFRESH_BATCH_SIZE)
        let local_ ← localUids self
        expunge self backend greenlet remoteUids (local_.filter (· ∉ remoteUids))
        noteWaiting fun _ => false
        setHighestmodseq (some newHighestmodseq)) t := by
  intro session remoteUids
  obtain ⟨a, cached, readsA⟩ := does_read self quiet found agrees agrees.uidvalidity
  have valid : Does self (uidvalidityCb session) w () ([] ++ []) a := by
    refine does_bind cached ?_
    rw [if_pos (show session.uidvalidity ≤ info.uidvalidity from epoch)]
    exact does_ret
  have selected : Does self (selectFolder uidvalidityCb) w session ([] ++ ([] ++ [] ++ [])) a :=
    does_bind (does_imap quiet) (does_bind valid does_ret)
  have quietA := readsA.quiet quiet
  have foundA : a.store.info = some info := readsA.store ▸ found
  obtain ⟨b, stored, readsB⟩ := does_read self quietA foundA readsA.agrees readsA.agrees.highestmodseq
  have quietB := readsB.quiet quietA
  have serverB : b.server = w.server := readsB.server.trans readsA.server
  have changed : Does self (imap fun server => server.changedFlags session ((some modseq).getD 0)) b
      (w.server.changedFlags session modseq) [] b := serverB ▸ does_imap quietB
  have listed : Does self (imap fun server => (server.folder session).allUids) b remoteUids [] b := by
    have done : Does self (imap fun server => (server.folder session).allUids) b _ [] b :=
      does_imap quietB
    rwa [serverB] at done
  rw [saved] at stored
  refine ⟨b, readsA.trans readsB, ?_⟩
  exact (leads_bind _ selected).trans ((leads_bind _ stored).trans
    ((leads_bind _ changed).trans (leads_bind _ listed)))

theorem LoopDone.of_reads (reads : Reads info w t)
    (done : LoopDone mailbox folderId batches t stores last) :
    LoopDone mailbox folderId batches w stores last := by
  obtain ⟨server, fault, keeps, updates, applied, ties⟩ := done
  rw [reads.store] at fault keeps applied ties
  exact ⟨server.trans reads.server, fault, keeps, updates, applied, ties⟩

/-- The batches of a refresh. -/
def batchesOf (server : Server) (modseq : Nat) : List (List (Nat × Flags)) :=
  chunk (byModseq (server.changedFlags server.selectInfo modseq)) CONDSTORE_FLAGS_REFRESH_BATCH_SIZE

def mailboxOf (server : Server) : Mailbox := server.mailbox server.uidvalidity

theorem batchesOf_flatten (server : Server) (modseq : Nat) :
    (batchesOf server modseq).flatten = byModseq (server.changedFlags server.selectInfo modseq) :=
  chunk_flatten (by decide) _

theorem mem_batchesOf {server : Server} : entry ∈ (batchesOf server modseq).flatten ↔
    ∃ version, (mailboxOf server).current entry.1 = some version ∧ modseq < version.modseq ∧
      entry.2 = version.item := by
  rw [batchesOf_flatten, (byModseq_perm _).mem_iff]
  exact mem_changedFlags

theorem batchesOf_covers {store : Store} {server : Server} (found : store.info = some info)
    (saved : info.highestmodseq = some modseq)
    (applied : Applied (mailboxOf server) folderId store) (uid : Nat) :
    UpToDate (mailboxOf server) folderId store.db uid ∨
      uid ∈ (batchesOf server modseq).flatten.map Prod.fst := by
  cases current : (mailboxOf server).current uid with
  | none =>
    left
    intro row _ _ version held
    rw [current] at held
    cases held
  | some version =>
    rcases Nat.lt_or_ge modseq version.modseq with newer | older
    · exact .inr (List.mem_map.mpr ⟨(uid, version.item),
        mem_batchesOf.mpr ⟨version, current, newer, rfl⟩, rfl⟩)
    · exact .inl (applied info found modseq saved uid version current older)

/-- The decision that a refresh takes after the comparison. -/
def afterCompare (self : FolderSyncEngine) (backend : Backend) (greenlet : Greenlet)
    (newHighestmodseq : Nat) (saved : Option Nat) : Call Unit :=
  if some newHighestmodseq = saved then .ret ()
  else if modseqKey (some newHighestmodseq) < modseqKey saved then .ret ()
  else refreshChanged self backend greenlet newHighestmodseq

theorem afterCompare_idle (same : newHighestmodseq ≤ modseq) :
    afterCompare self backend greenlet newHighestmodseq (some modseq) = .ret () := by
  unfold afterCompare
  split
  · rfl
  · rename_i differs
    rw [if_pos]
    simp only [Option.some.injEq, modseqKey] at *
    omega

theorem leads_afterCompare (self : FolderSyncEngine) (backend : Backend) (greenlet : Greenlet) (quiet : w.Quiet)
    (found : w.store.info = some info) (agrees : w.memory.Agrees info)
    (saved : info.highestmodseq = some modseq) :
    ∃ t, Reads info w t ∧ Leads self (condstoreRefreshFlags self backend greenlet) w []
      (afterCompare self backend greenlet (mailboxOf w.server).highestmodseq (some modseq)) t := by
  let newHighestmodseq := (mailboxOf w.server).highestmodseq
  obtain ⟨t, reads, compared⟩ := leads_compare self quiet found agrees saved newHighestmodseq
  have asked : Does self (imap fun server => (server.mailbox server.uidvalidity).highestmodseq) w
      newHighestmodseq [] w := does_imap quiet
  have first : Leads self (condstoreRefreshFlags self backend greenlet) w [] _ w := leads_bind _ asked
  exact ⟨t, reads, first.trans (compared (afterCompare self backend greenlet newHighestmodseq))⟩

/-- Nothing has changed, or the server has gone back. -/
theorem refresh_unchanged (self : FolderSyncEngine) (backend : Backend) (greenlet : Greenlet) (quiet : w.Quiet)
    (found : w.store.info = some info) (agrees : w.memory.Agrees info)
    (saved : info.highestmodseq = some modseq)
    (same : (mailboxOf w.server).highestmodseq ≤ modseq)
    (ended : (condstoreRefreshFlags self backend greenlet).run (World.perform self) w = (.ok (), t)) :
    t.store = w.store := by
  obtain ⟨a, reads, leads⟩ := leads_afterCompare self backend greenlet quiet found agrees saved
  rw [leads.1, afterCompare_idle same] at ended
  cases ended
  exact reads.store

/-- Where no modseq is stored yet, the server's is, and nothing is fetched. -/
theorem refresh_first (self : FolderSyncEngine) (backend : Backend) (greenlet : Greenlet) (quiet : w.Quiet)
    (found : w.store.info = some info) (agrees : w.memory.Agrees info) (unset : info.highestmodseq = none) :
    ∃ last, Does self (condstoreRefreshFlags self backend greenlet) w () [last.store] last ∧
      last.store = w.store.withInfo
        { info with highestmodseq := some (mailboxOf w.server).highestmodseq } := by
  let newHighestmodseq := (mailboxOf w.server).highestmodseq
  obtain ⟨a, first, reads⟩ := does_read self quiet found agrees agrees.highestmodseq
  obtain ⟨b, noted, store, server⟩ := does_noteWaiting self a fun _ => true
  have storeB : b.store = w.store := store.trans reads.store
  have quietB : b.Quiet := ⟨server ▸ reads.server ▸ quiet.1, storeB ▸ quiet.2⟩
  obtain ⟨c, set, stored, serverC, _, copied⟩ := does_setHighestmodseq self quietB (storeB ▸ found)
    (some newHighestmodseq)
  have quietC : c.Quiet := ⟨serverC ▸ quietB.1, stored ▸ quietB.2⟩
  have foundC : c.store.info = some { info with highestmodseq := some newHighestmodseq } := by
    rw [stored]
    rfl
  have again : ∃ last, Does self highestmodseq c (some newHighestmodseq) [] last ∧
      (last = c ∨ last = { c with memory := c.memory.cache _ }) :=
    does_load self quietC foundC fun value held => by
      rw [copied] at held
      exact (Option.some.inj held).symm
  obtain ⟨last, second, same⟩ := again
  have stays : last.store = c.store := by rcases same with rfl | rfl <;> rfl
  rw [unset] at first
  have asked : Does self (imap fun server => (server.mailbox server.uidvalidity).highestmodseq) w
      newHighestmodseq [] w := does_imap quiet
  have final : Does self (afterCompare self backend greenlet newHighestmodseq (some newHighestmodseq)) last ()
      [] last := by
    rw [afterCompare, if_pos rfl]
    exact does_ret
  have unseen : Does self (initHighestmodseq newHighestmodseq none) a () ([] ++ [last.store]) c := by
    rw [stays, stored]
    exact does_bind noted set
  refine ⟨last, ?_, by rw [stays, stored, storeB]; rfl⟩
  exact does_bind asked (does_bind first (does_bind unseen (does_bind second final)))

/-- A refresh that finds changes: the loop over the batches, and then everything is up to date
whatever happens. -/
theorem refresh_grown (self : FolderSyncEngine) (backend : Backend) (greenlet : Greenlet) (quiet : w.Quiet)
    (found : w.store.info = some info) (agrees : w.memory.Agrees info)
    (epoch : w.server.uidvalidity ≤ info.uidvalidity) (saved : info.highestmodseq = some modseq)
    (grown : modseq < (mailboxOf w.server).highestmodseq)
    (labelled : Labelled backend (mailboxOf w.server))
    (applied : Applied (mailboxOf w.server) self.folderId w.store) :
    ∃ stores last, LoopDone (mailboxOf w.server) self.folderId (batchesOf w.server modseq) w stores last ∧
      (∀ store ∈ stores, store ∈ commits self (condstoreRefreshFlags self backend greenlet) w) ∧
      (∀ store ∈ commits self (condstoreRefreshFlags self backend greenlet) w, store ∈ stores ∨
        ∀ uid, UpToDate (mailboxOf w.server) self.folderId store.db uid) ∧
      ∀ t, (condstoreRefreshFlags self backend greenlet).run (World.perform self) w = (.ok (), t) →
        ∀ uid, UpToDate (mailboxOf w.server) self.folderId t.store.db uid := by
  let newHighestmodseq := (mailboxOf w.server).highestmodseq
  obtain ⟨a, readsA, compared⟩ := leads_afterCompare self backend greenlet quiet found agrees saved
  have changes : afterCompare self backend greenlet newHighestmodseq (some modseq) =
      refreshChanged self backend greenlet newHighestmodseq := by
    rw [afterCompare, if_neg, if_neg]
    · simp only [modseqKey]
      omega
    · simp only [Option.some.injEq]
      omega
  rw [changes] at compared
  have foundA : a.store.info = some info := readsA.store ▸ found
  obtain ⟨b, readsB, begun⟩ := leads_loop self backend greenlet (readsA.quiet quiet) foundA readsA.agrees
    (readsA.server ▸ epoch) saved newHighestmodseq
  have reads := readsA.trans readsB
  rw [readsA.server] at begun
  obtain ⟨stores, last, looped, done⟩ := does_refreshBatches self (mailboxOf w.server)
    (reads.quiet quiet) (reads.store ▸ found) (batchesOf w.server modseq) fun entry member => by
      obtain ⟨version, current, _, same⟩ := mem_batchesOf.mp member
      exact ⟨version, current, same⟩
  have all := done.of_reads reads
  have leads := (compared.trans begun).trans (leads_bind _ looped)
  have good : (current self w.server).inv last := by
    refine ⟨all.server, fun uid => ?_⟩
    rcases batchesOf_covers found saved applied uid with fresh | named
    · exact all.keeps uid fresh
    · obtain ⟨entry, member, rfl⟩ := List.mem_map.mp named
      exact all.updates entry member
  have rest := current_rest self w.server backend labelled greenlet newHighestmodseq
    (w.server.folder w.server.selectInfo).allUids last good trivial
  refine ⟨stores, last, all, ?_, ?_, ?_⟩
  · intro store member
    rw [leads.2]
    exact List.mem_append_left _ member
  · intro store member
    rw [leads.2] at member
    rcases List.mem_append.mp member with early | late
    · exact .inl early
    · obtain ⟨step, among, rfl⟩ := List.mem_map.mp late
      have kept := wp_steps rest good (fun _ _ => trivial) step (List.mem_filter.mp among).1
      exact .inr kept.2
  · intro t ended
    rw [leads.1] at ended
    exact (wp_run rest good (fun _ _ => trivial) ended).1.2

theorem batchesOf_nodup (server : Server) (modseq : Nat) :
    ((batchesOf server modseq).flatten.map Prod.fst).Nodup := by
  rw [batchesOf_flatten, ((byModseq_perm _).map Prod.fst).nodup_iff]
  exact changedFlags_keys_nodup modseq

theorem batchesOf_ascending (server : Server) (modseq : Nat) :
    Ascending (batchesOf server modseq).flatten := by
  rw [batchesOf_flatten]
  exact byModseq_ascending _

/-! ## A crash and a new process -/

/-- A process that starts from `store`, while the server has the messages that it had in `w` and
reports the modseqs of all their changes. -/
structure Resumes (w : World) (store : Store) (info : ImapFolderInfo) (later : World) : Prop where
  store : later.store = store
  quiet : later.Quiet
  epoch : later.server.uidvalidity ≤ info.uidvalidity
  unchanged : ∀ uid, (mailboxOf later.server).current uid = (mailboxOf w.server).current uid
  complete : ∀ uid, ∀ version ∈ (mailboxOf later.server).current uid,
    version.modseq ≤ (mailboxOf later.server).highestmodseq

def SameFlags (mailbox : Mailbox) (folderId : Nat) (db other : Db) : Prop :=
  ∀ row ∈ db.rows folderId, ∀ again ∈ other.rows folderId, again.msgUid = row.msgUid →
    mailbox.Exists row.msgUid → again.toFlagColumns = row.toFlagColumns

/-- The refresh of a restarted process ends with the flags of a refresh that was not interrupted. -/
def RestartAgrees (self : FolderSyncEngine) (backend : Backend) (greenlet : Greenlet) (w : World)
    (store : Store) : Prop :=
  ∀ info ∈ store.info, info.highestmodseq.isSome → ∀ later t again, Resumes w store info later →
    (condstoreRefreshFlags self backend greenlet).run (World.perform self) w = (.ok (), t) →
    (condstoreRefreshFlags self backend greenlet).run (World.perform self) later.restart =
      (.ok (), again) →
    SameFlags (mailboxOf w.server) self.folderId t.store.db again.store.db

theorem upToDate_congr {mailbox other : Mailbox} (same : other.current uid = mailbox.current uid) :
    UpToDate other folderId db uid ↔ UpToDate mailbox folderId db uid := by
  unfold UpToDate
  rw [same]

theorem sameFlags_of_upToDate {mailbox : Mailbox} (first : ∀ uid, UpToDate mailbox folderId db uid)
    (second : ∀ uid, UpToDate mailbox folderId other uid) : SameFlags mailbox folderId db other := by
  intro row member again held same present
  obtain ⟨version, current⟩ := Option.isSome_iff_exists.mp present
  rw [first _ row member rfl version current, second _ again held same version current]

/-- A restart from a store whose checkpoint is right brings everything up to date. -/
theorem resume_upToDate {store : Store} {later again : World} (found : info ∈ store.info)
    (saved : info.highestmodseq.isSome) (labelled : Labelled backend (mailboxOf w.server))
    (applied : Applied (mailboxOf w.server) self.folderId store)
    (resumes : Resumes w store info later)
    (ended : (condstoreRefreshFlags self backend greenlet).run (World.perform self) later.restart =
      (.ok (), again)) :
    ∀ uid, UpToDate (mailboxOf w.server) self.folderId again.store.db uid := by
  obtain ⟨modseq, saved⟩ := Option.isSome_iff_exists.mp saved
  have here : later.restart.store.info = some info := (congrArg Store.info resumes.store).trans found
  have agrees : later.restart.memory.Agrees info := .fresh info
  have stored : Applied (mailboxOf later.restart.server) self.folderId later.restart.store := by
    intro _ other _ value uid version current below
    have held : version ∈ (mailboxOf w.server).current uid := resumes.unchanged uid ▸ current
    exact (upToDate_congr (resumes.unchanged uid)).mpr
      (resumes.store ▸ applied _ (resumes.store ▸ other) _ value uid version held below)
  have laterLabelled : Labelled backend (mailboxOf later.restart.server) := fun gmail uid version current =>
    labelled gmail uid version (resumes.unchanged uid ▸ current)
  intro uid
  refine (upToDate_congr (resumes.unchanged uid)).mp ?_
  rcases Nat.lt_or_ge modseq (mailboxOf later.restart.server).highestmodseq with grown | same
  · obtain ⟨_, _, _, _, _, final⟩ := refresh_grown self backend greenlet (w := later.restart) resumes.quiet here
      agrees resumes.epoch saved grown laterLabelled stored
    exact final again ended uid
  · rw [refresh_unchanged self backend greenlet (w := later.restart) resumes.quiet here agrees saved same ended]
    intro row member named version current
    exact stored info here modseq saved uid version current
      (Nat.le_trans (resumes.complete uid version current) same) row member named version current

theorem tiesStored_of_applied (quiet : w.Quiet) (found : w.store.info = some info)
    (agrees : w.memory.Agrees info) (epoch : w.server.uidvalidity ≤ info.uidvalidity)
    (saved : info.highestmodseq = some modseq)
    (grown : modseq < (mailboxOf w.server).highestmodseq)
    (labelled : Labelled backend (mailboxOf w.server))
    (applied : Applied (mailboxOf w.server) self.folderId w.store)
    (safe : ∀ store ∈ commits self (condstoreRefreshFlags self backend greenlet) w,
      Applied (mailboxOf w.server) self.folderId store) :
    TiesStored (mailboxOf w.server) self.folderId w.store.db (batchesOf w.server modseq) := by
  obtain ⟨stores, _, done, among, _⟩ :=
    refresh_grown self backend greenlet quiet found agrees epoch saved grown labelled applied
  exact done.ties (batchesOf_nodup _ _) fun store member => safe store (among store member)

theorem tiesStored_of_short {mailbox : Mailbox}
    (short : batches.flatten.length < CONDSTORE_FLAGS_REFRESH_BATCH_SIZE) :
    TiesStored mailbox folderId db batches := by
  rintro before flagBatch after rfl full
  simp only [List.flatten_append, List.flatten_cons, List.length_append] at short
  omega

/-- The first modseq that is stored has no stale flags below it, and no change is still to come after a
checkpoint that has its modseq and is not stored already. -/
def CheckpointsFit (self : FolderSyncEngine) (w : World) : Option Nat → Prop
  | none => ∀ uid, UpToDate (mailboxOf w.server) self.folderId w.store.db uid
  | some modseq => modseq < (mailboxOf w.server).highestmodseq →
    TiesStored (mailboxOf w.server) self.folderId w.store.db (batchesOf w.server modseq)

theorem commits_unchanged (self : FolderSyncEngine) (backend : Backend) (greenlet : Greenlet) (quiet : w.Quiet)
    (found : w.store.info = some info) (agrees : w.memory.Agrees info)
    (saved : info.highestmodseq = some modseq) (same : (mailboxOf w.server).highestmodseq ≤ modseq) :
    commits self (condstoreRefreshFlags self backend greenlet) w = [] := by
  obtain ⟨a, _, leads⟩ := leads_afterCompare self backend greenlet quiet found agrees saved
  rw [leads.2, afterCompare_idle same]
  rfl

/-- Every commit of a refresh is a safe place to die exactly when its checkpoints fit what is stored. -/
theorem checkpoints_safe_iff (quiet : w.Quiet) (found : w.store.info = some info)
    (agrees : w.memory.Agrees info) (epoch : w.server.uidvalidity ≤ info.uidvalidity)
    (labelled : Labelled backend (mailboxOf w.server))
    (complete : ∀ uid, ∀ version ∈ (mailboxOf w.server).current uid,
      version.modseq ≤ (mailboxOf w.server).highestmodseq)
    (applied : Applied (mailboxOf w.server) self.folderId w.store) :
    (∀ store ∈ commits self (condstoreRefreshFlags self backend greenlet) w,
      Applied (mailboxOf w.server) self.folderId store ∧ RestartAgrees self backend greenlet w store) ↔
    CheckpointsFit self w info.highestmodseq := by
  cases saved : info.highestmodseq with
  | none =>
    obtain ⟨last, done, stored⟩ := refresh_first self backend greenlet quiet found agrees saved
    rw [done.2]
    simp only [List.forall_mem_singleton]
    constructor
    · rintro ⟨right, _⟩ uid row member same version current
      rw [stored] at right
      exact right _ rfl _ rfl uid version current (complete uid version current) row member same version current
    · intro fresh
      have right : Applied (mailboxOf w.server) self.folderId last.store := by
        rw [stored]
        exact fun _ _ _ _ uid _ _ _ => fresh uid
      refine ⟨right, fun info found saved later t again resumes ended restarted => ?_⟩
      rw [done.1] at ended
      cases ended
      refine sameFlags_of_upToDate ?_ (resume_upToDate found saved labelled right resumes restarted)
      rw [stored]
      exact fresh
  | some modseq =>
    rcases Nat.lt_or_ge modseq (mailboxOf w.server).highestmodseq with grown | same
    · rw [CheckpointsFit, imp_iff_right grown]
      obtain ⟨stores, last, done, among, either, final⟩ :=
        refresh_grown self backend greenlet quiet found agrees epoch saved grown labelled applied
      constructor
      · intro safe
        exact tiesStored_of_applied quiet found agrees epoch saved grown labelled applied
          fun store member => (safe store member).1
      · intro ties store member
        have right : Applied (mailboxOf w.server) self.folderId store := by
          rcases either store member with early | late
          · exact done.applied (batchesOf_ascending _ _) applied (batchesOf_covers found saved applied)
              ties store early
          · exact fun _ _ _ _ uid _ _ _ => late uid
        refine ⟨right, fun info found saved later t again resumes ended restarted => ?_⟩
        exact sameFlags_of_upToDate (final t ended)
          (resume_upToDate found saved labelled right resumes restarted)
    · rw [commits_unchanged self backend greenlet quiet found agrees saved same]
      exact ⟨fun _ grown => absurd grown (Nat.not_lt.mpr same), fun _ _ member => absurd member List.not_mem_nil⟩

end Refresh

namespace Trial

def seen : Version where
  flags := ["\\Seen"]
  labels := none
  modseq := 5

def unseenRow (uid : Nat) : ImapUid where
  isDraft := false
  isSeen := false
  isFlagged := false
  isRecent := false
  isAnswered := false
  extraFlags := []
  folderId := 1
  msgUid := uid
  messageId := uid
  labels := []
  uidvalidity := 1
  modseq := 1

/-- One command has set the flag of all messages, which are saved without it. -/
def marked (count : Nat) : World :=
  let start := world (server 1 (mailbox (count + 1) 5 fun _ => seen))
    (some { info 1 with highestmodseq := some 3 })
  { start with store := { start.store with
      db := { start.store.db with imapuids := ((List.range count).map (· + 1)).map unseenRow } } }

theorem marked_current : (mailboxOf (marked count).server).current uid =
    if 0 < uid ∧ uid < count + 1 then some seen else none := by
  simp only [marked, mailboxOf, world, server, mailbox, Mailbox.current]
  rw [if_neg Bool.false_ne_true]
  split <;> rfl

/-- Every entry is about a saved message, and all have one modseq. -/
theorem marked_entry (member : entry ∈ (batchesOf (marked count).server 3).flatten) :
    (0 < entry.1 ∧ entry.1 < count + 1) ∧ entry.2.modseq = some 5 := by
  obtain ⟨version, current, _, item⟩ := mem_batchesOf.mp member
  rw [marked_current] at current
  split at current
  · rename_i inside
    cases current
    exact ⟨inside, by rw [item]; rfl⟩
  · cases current

theorem marked_applied (count : Nat) :
    Applied (mailboxOf (marked count).server) 1 (marked count).store := by
  rintro _ ⟨⟩ _ ⟨⟩ uid version current below
  rw [marked_current] at current
  split at current
  · cases current
    contradiction
  · cases current

theorem marked_complete (count : Nat) : ∀ uid, ∀ version ∈ (mailboxOf (marked count).server).current uid,
    version.modseq ≤ (mailboxOf (marked count).server).highestmodseq := by
  intro uid version current
  rw [marked_current] at current
  split at current
  · cases current
    exact Nat.le_refl 5
  · cases current

theorem generic_labelled (mailbox : Mailbox) : Labelled .generic mailbox := by
  intro gmail
  cases gmail

theorem marked_stale (inside : 0 < uid ∧ uid < count + 1) :
    ¬ UpToDate (mailboxOf (marked count).server) 1 (marked count).store.db uid := by
  intro fresh
  have row : unseenRow uid ∈ (marked count).store.db.rows 1 := by
    simp only [marked, Db.rows, List.mem_filter, List.mem_map, List.mem_range]
    exact ⟨⟨uid, ⟨uid - 1, by omega, by omega⟩, rfl⟩, rfl⟩
  have columns := fresh _ row rfl seen (by rw [marked_current, if_pos inside]; rfl)
  cases congrArg FlagColumns.isSeen columns

end Trial

open Trial in
theorem checkpoints_safe_for_one_message :
    (commits Trial.self (condstoreRefreshFlags Trial.self .generic .engine) (marked 1)).length = 2 ∧
    ∀ store ∈ commits Trial.self (condstoreRefreshFlags Trial.self .generic .engine) (marked 1),
      Applied (mailboxOf (marked 1).server) 1 store ∧
        RestartAgrees Trial.self .generic .engine (marked 1) store := by
  have found : (marked 1).store.info = some { info 1 with highestmodseq := some 3 } := rfl
  refine ⟨by decide +kernel, ?_⟩
  exact (checkpoints_safe_iff ⟨rfl, rfl⟩ found (.fresh _) (by decide) (generic_labelled _)
    (marked_complete 1) (marked_applied 1)).mpr fun _ => tiesStored_of_short (by decide)

open Trial in
/-- The flags of 201 messages were set at once: after the first checkpoint one change is not stored,
and the stored modseq says that it is. -/
theorem checkpoint_loses_change :
    ∃ store ∈ commits Trial.self (condstoreRefreshFlags Trial.self .generic .engine) (marked 201),
      ¬ Applied (mailboxOf (marked 201).server) 1 store := by
  by_contra none
  have safe : ∀ store ∈ commits Trial.self (condstoreRefreshFlags Trial.self .generic .engine)
      (marked 201), Applied (mailboxOf (marked 201).server) 1 store := by
    intro store member
    by_contra wrong
    exact none ⟨store, member, wrong⟩
  have ties := tiesStored_of_applied (w := marked 201) ⟨rfl, rfl⟩ rfl (.fresh _) (by decide) rfl
    (by decide) (generic_labelled _) (marked_applied 201) safe
  let entries := byModseq ((marked 201).server.changedFlags (marked 201).server.selectInfo 3)
  have length : entries.length = 201 := (byModseq_perm _).length_eq.trans (by decide +kernel)
  have flatten : (batchesOf (marked 201).server 3).flatten = entries := batchesOf_flatten _ _
  have split : batchesOf (marked 201).server 3 = entries.take 200 :: chunk (entries.drop 200) 200 := by
    refine chunk_eq_cons (by decide) fun none => ?_
    have empty := congrArg List.length none
    rw [length] at empty
    cases empty
  have entryOf : ∀ entry ∈ entries, (0 < entry.1 ∧ entry.1 < 202) ∧ entry.2.modseq = some 5 :=
    fun entry member => marked_entry (flatten ▸ member)
  obtain ⟨last, member⟩ : ∃ last, last ∈ entries.drop 200 :=
    List.exists_mem_of_length_pos (by rw [List.length_drop, length]; decide)
  have full : (entries.take 200).length = 200 := by rw [List.length_take, length]; rfl
  obtain ⟨largest, among, same⟩ := maxModseq_mem
    (List.length_pos_iff.mp (by rw [full]; decide)) fun entry early => by
      rw [(entryOf entry (List.mem_of_mem_take early)).2]
      exact Option.some_ne_none 5
  have lastOf := entryOf last (List.mem_of_mem_drop member)
  refine marked_stale lastOf.1 (ties [] _ _ split full last ?_ ?_)
  · rwa [chunk_flatten (by decide)]
  · rw [lastOf.2, ← same, (entryOf largest (List.mem_of_mem_take among)).2]

end Imap
end SyncEngine
