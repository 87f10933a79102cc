import Mathlib.Logic.Relation
import SyncEngine.Mailsync.FolderRows
import SyncEngine.Mailsync.Imap.FolderNames

/-! Which folder row each engine works on that the account monitor has started. Engines are known
by the names of the server, rows by the names that the column holds. -/
namespace SyncEngine
namespace Naming

structure Engine where
  folderName : Unicode
  folderId : Nat
  folderRole : String
deriving DecidableEq, Repr

/-- `FolderSyncEngine.__init__`: the row whose name the query finds. -/
def startEngine (t : Tables) (folderName : Unicode) : Except Error Engine :=
  match t.folders.filter (·.name = storedName folderName) with
  | [] => .error .mailsyncError
  | [row] => .ok { folderName, folderId := row.id, folderRole := row.canonicalName }
  | _ => .error .multipleResultsFound

structure Monitor where
  tables : Tables
  engines : List Engine
deriving DecidableEq, Repr

inductive Event where
  /-- `prepare_sync` with a list that differs from the last one. -/
  | refresh (rawFolders : List RawFolder)
  /-- One turn of the loop over the folders to sync. -/
  | start (folderName : Unicode)
  | exit (folderName : Unicode)

/-- An error rolls the transaction back, or starts no engine. -/
def Monitor.step (s : Monitor) : Event → Monitor
  | .refresh rawFolders =>
    match saveFolderNames rawFolders s.tables with
    | .ok tables => { s with tables }
    | .error _ => s
  | .start folderName =>
    if folderName ∈ s.engines.map Engine.folderName then s
    else match startEngine s.tables folderName with
      | .ok engine => { s with engines := s.engines ++ [engine] }
      | .error _ => s
  | .exit folderName => { s with engines := s.engines.filter (·.folderName ≠ folderName) }

/-- Every engine's row was there, and if it still is, it has the engine's name. -/
structure Monitor.Sound (s : Monitor) : Prop where
  valid : s.tables.Valid
  unique : UniqueNames s.tables
  below : ∀ engine ∈ s.engines, engine.folderId < s.tables.nextId
  named : ∀ engine ∈ s.engines, ∀ row ∈ s.tables.folders, row.id = engine.folderId →
    row.name = storedName engine.folderName
  shared : ∀ a ∈ s.engines, ∀ b ∈ s.engines, a.folderId = b.folderId →
    storedName a.folderName = storedName b.folderName

theorem startEngine_row (started : startEngine t folderName = .ok engine) :
    ∃ row ∈ t.folders, row.name = storedName folderName ∧ engine.folderId = row.id ∧
      engine.folderName = folderName := by
  unfold startEngine at started
  split at started
  · cases started
  · rename_i row only
    obtain ⟨member, name, _⟩ := Tables.eq_singleton_filter only
    cases started
    exact ⟨row, member, by simpa using name, rfl, rfl⟩
  · cases started

theorem Monitor.Sound.step {s : Monitor} (sound : s.Sound) (event : Event) : (s.step event).Sound := by
  cases event with
  | refresh rawFolders =>
    cases saved : saveFolderNames rawFolders s.tables with
    | error => simpa only [Monitor.step, saved] using sound
    | ok later =>
      simp only [Monitor.step, saved]
      obtain ⟨_, run⟩ := saveFolderNames_saved sound.valid sound.unique saved
      refine {
        valid := run.valid
        unique := run.unique
        below := fun engine member => (sound.below engine member).trans_le run.nextId
        named := fun engine member row held same => ?_
        shared := sound.shared }
      obtain ⟨old, inside, key⟩ | ⟨fresh, _⟩ := run.origin row held
      · rw [← name_of_key key]
        exact sound.named engine member old (List.mem_of_mem_filter inside) ((id_of_key key).trans same)
      · have earlier := sound.below engine member
        have later : s.tables.nextId ≤ row.id := fresh
        omega
  | start folderName =>
    unfold Monitor.step
    dsimp only
    split
    · exact sound
    · split
      · rename_i engine started
        obtain ⟨row, member, name, id, rfl⟩ := startEngine_row started
        have own : ∀ other ∈ s.engines, other.folderId = engine.folderId →
            storedName other.folderName = storedName engine.folderName := by
          intro other running same
          exact (sound.named other running row member (id.symm.trans same.symm)).symm.trans name
        refine {
          valid := sound.valid
          unique := sound.unique
          below := List.forall_mem_append.mpr ⟨sound.below, ?_⟩
          named := List.forall_mem_append.mpr ⟨sound.named, ?_⟩
          shared := List.forall_mem_append.mpr ⟨fun a running => List.forall_mem_append.mpr
            ⟨sound.shared a running, ?_⟩, ?_⟩ }
        · simpa [id] using sound.valid.folderBelow row member
        · simp only [List.mem_singleton, forall_eq]
          intro other held same
          rw [sound.valid.eq_of_id held member (same.trans id)]
          exact name
        · simp only [List.mem_singleton, forall_eq]
          exact own a running
        · simp only [List.mem_singleton, forall_eq]
          refine List.forall_mem_append.mpr ⟨fun b running same => ?_, by simp⟩
          exact (own b running same.symm).symm
      · exact sound
  | exit folderName =>
    exact {
      valid := sound.valid
      unique := sound.unique
      below := fun engine member => sound.below engine (List.mem_of_mem_filter member)
      named := fun engine member => sound.named engine (List.mem_of_mem_filter member)
      shared := fun a one b other => sound.shared a (List.mem_of_mem_filter one) b
        (List.mem_of_mem_filter other) }

theorem sound_start (valid : t.Valid) (unique : UniqueNames t) : (Monitor.mk t []).Sound where
  valid := valid
  unique := unique
  below _ member := absurd member List.not_mem_nil
  named _ member := absurd member List.not_mem_nil
  shared _ member := absurd member List.not_mem_nil

theorem run_sound {s : Monitor} (sound : s.Sound) (events : List Event) : (events.foldl Monitor.step s).Sound := by
  induction events generalizing s with
  | nil => exact sound
  | cons event rest ih => exact ih (sound.step event)

/-- Engines for names that are stored differently work on different rows, however the folders of
the server change while they run: neither records a UID among the other's nor removes one there. -/
theorem engines_keep_apart (valid : t.Valid) (unique : UniqueNames t) (events : List Event) :
    let s := events.foldl Monitor.step ⟨t, []⟩
    ∀ a ∈ s.engines, ∀ b ∈ s.engines, storedName a.folderName ≠ storedName b.folderName →
      a.folderId ≠ b.folderId ∧
      (∀ L now rawMessages db,
        (CreateMessage.commitMessages L now a.folderId a.folderRole rawMessages db).rows b.folderId =
          db.rows b.folderId) ∧
      ∀ now uids db, (Common.removeDeletedUids now a.folderId uids db).rows b.folderId =
        db.rows b.folderId := by
  intro s a one b other differ
  have sound : s.Sound := run_sound (sound_start valid unique) events
  have apart : a.folderId ≠ b.folderId := fun same => differ (sound.shared a one b other same)
  refine ⟨apart, fun L now rawMessages db => ?_, fun now uids db => ?_⟩
  · exact commitMessages_other L now a.folderRole rawMessages db apart
  · exact removeDeletedUids_other now uids db apart

/-- The engines of an account with the folders `Work` and `Notes`. -/
theorem work_and_notes_keep_apart :
    let folders : List RawFolder :=
      [⟨"INBOX".toList, some "inbox"⟩, ⟨"Work".toList, none⟩, ⟨"Notes".toList, none⟩]
    let s := [Event.refresh folders, .start "Work".toList, .start "Notes".toList].foldl Monitor.step
      ⟨.empty, []⟩
    s.engines.map Engine.folderId = [4, 6] ∧
      ∀ a ∈ s.engines, ∀ b ∈ s.engines, storedName a.folderName ≠ storedName b.folderName →
        a.folderId ≠ b.folderId :=
  ⟨by decide +kernel, fun a one b other differ =>
    (engines_keep_apart Tables.empty_valid .nil _ a one b other differ).1⟩

/-- `Work` and `Work ` are two folders of the server and one row here. -/
theorem trailing_blank_shares_row :
    let folders : List RawFolder :=
      [⟨"INBOX".toList, some "inbox"⟩, ⟨"Work".toList, none⟩, ⟨"Work ".toList, none⟩]
    let s := [Event.refresh folders, .start "Work".toList, .start "Work ".toList].foldl Monitor.step
      ⟨.empty, []⟩
    s.engines.map Engine.folderName = ["Work".toList, "Work ".toList] ∧
      s.engines.map Engine.folderId = [4, 4] := by
  decide +kernel

end Naming
end SyncEngine
