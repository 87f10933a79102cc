import SyncEngine.Mailsync.Imap.Greenlets

/-! The engine keeps copies of the attributes of the folder's row. Between two handlers they are
those of the row, as long as no step changes one of the two and not the other; then a finished
resync is the last one for its UIDVALIDITY. -/
namespace SyncEngine
namespace Imap
open Cooperative Contract

def Memory.copy (memory : Memory) : Column → Option Write
  | .uidvalidity => memory.uidvalidity.map .uidvalidity
  | .highestmodseq => memory.highestmodseq.map .highestmodseq
  | .uidnext => memory.uidnext.map .uidnext
  | .lastSlowRefresh => memory.lastSlowRefresh.map .lastSlowRefresh

namespace World

/-- The copy of the attribute, when it is set, is what the row has. -/
def SameCopies (w : World) (column : Column) : Prop :=
  ∀ copy ∈ w.memory.copy column, w.store.info.map (fun info => info.read column) = some copy

instance : Decidable (SameCopies w column) :=
  inferInstanceAs (Decidable (∀ copy ∈ _, _))

/-- The attributes that the callbacks and the refreshes rely on. -/
def Agrees (w : World) : Prop :=
  w.SameCopies .uidvalidity ∧ w.SameCopies .uidnext ∧ w.SameCopies .highestmodseq

end World

/-- The steps that may leave one of the two copies behind leave none behind: a setter is not broken
off between its halves, neither by a failing commit nor by a kill, and the row that Gmail's resync
writes without a setter has no other copy. -/
def Whole (engine : FolderSyncEngine) : Command → World → Prop
  | .write (.highestmodseq _), w => w.store.fault = some .refused ∨ w.store.info = none →
      w.SameCopies .highestmodseq
  | .write write, w => w.store.fault = some .lost → write.column ≠ .lastSlowRefresh →
      ∀ copy ∈ w.memory.copy write.column, copy = write
  | .kill, w => ∀ write ∈ w.trace.setting, write.column ≠ .lastSlowRefresh → w.SameCopies write.column
  | .remap session mapping, w => w.store.fault ≠ some .refused →
      (Gmail.remapUids engine.folderId mapping w.store.db).isSome →
      (∀ copy ∈ w.memory.copy .uidvalidity, copy = .uidvalidity session.uidvalidity) ∧
        ∀ copy ∈ w.memory.copy .highestmodseq, copy = .highestmodseq none
  | _, _ => True

instance : Decidable (Whole engine command w) := by
  cases command with
  | write write => cases write <;> exact inferInstanceAs (Decidable (_ → _))
  | kill => exact inferInstanceAs (Decidable (∀ write ∈ _, _))
  | remap => exact inferInstanceAs (Decidable (_ → _))
  | _ => exact isTrue trivial

/-! ## Copies -/
section Copies
variable {w t : World}

theorem copy_cache (memory : Memory) (write : Write) (column : Column) :
    (memory.cache write).copy column =
      if write.column = column then some write else memory.copy column := by
  cases write <;> cases column <;> rfl

theorem read_write (info : ImapFolderInfo) (write : Write) (column : Column) :
    (info.write write).read column = if write.column = column then write else info.read column := by
  cases write <;> cases column <;> rfl

@[simp] theorem read_column (info : ImapFolderInfo) (column : Column) :
    (info.read column).column = column := by
  cases column <;> rfl

/-- The select is let through. -/
def Passes (uidvalidity : Nat) (w : World) : Prop := ∃ saved ∈ w.epoch, uidvalidity ≤ saved

/-- Nothing but the copy of an attribute that is just being set differs from the row, every
finished resync has left its mark on the row, and the counter has a change for each `UidInvalid`. -/
structure Coherent (w : World) : Prop where
  copies : ∀ column, column ≠ .lastSlowRefresh → (∀ write ∈ w.trace.setting, write.column ≠ column) →
    w.SameCopies column
  resynced : ∀ uidvalidity ∈ w.trace.resynced, Passes uidvalidity w
  counted : w.status.uidinvalidCount ≤ w.trace.epochs.length

theorem sameCopies_epoch (same : w.SameCopies .uidvalidity) (held : w.memory.uidvalidity = some value) :
    w.epoch = some value := by
  have copy : Write.uidvalidity value ∈ w.memory.copy .uidvalidity := by
    simp [Memory.copy, held]
  obtain ⟨info, found, read⟩ := Option.map_eq_some_iff.mp (same _ copy)
  cases read
  exact congrArg (Option.map _) found

/-- What no step of a poll touches. -/
structure Polls (w t : World) : Prop where
  server : t.server = w.server
  status : t.status = w.status
  epoch : t.epoch = w.epoch
  polling : t.trace.polling = w.trace.polling
  epochs : t.trace.epochs = w.trace.epochs
  resynced : t.trace.resynced = w.trace.resynced

theorem Polls.refl (w : World) : Polls w w := ⟨rfl, rfl, rfl, rfl, rfl, rfl⟩

theorem Polls.coherent (polls : Polls w t) (good : Coherent w)
    (copies : ∀ column, column ≠ .lastSlowRefresh → (∀ write ∈ t.trace.setting, write.column ≠ column) →
      t.SameCopies column) : Coherent t where
  copies := copies
  resynced uidvalidity member := by
    rw [polls.resynced] at member
    rw [Passes, polls.epoch]
    exact good.resynced uidvalidity member
  counted := by
    rw [polls.status, polls.epochs]
    exact good.counted

/-- The row, the copies and the setters under way are as before. -/
structure Still (w t : World) : Prop where
  memory : t.memory = w.memory
  info : t.store.info = w.store.info
  setting : t.trace.setting = w.trace.setting

theorem Still.refl (w : World) : Still w w := ⟨rfl, rfl, rfl⟩

theorem Still.trans (first : Still s w) (second : Still w t) : Still s t :=
  ⟨second.memory.trans first.memory, second.info.trans first.info, second.setting.trans first.setting⟩

theorem Still.epoch (still : Still w t) : t.epoch = w.epoch := by
  rw [World.epoch, still.info, World.epoch]

theorem Still.sameCopies (still : Still w t) (same : w.SameCopies column) : t.SameCopies column := by
  rw [World.SameCopies, still.memory, still.info]
  exact same

/-! ## Single commands -/
variable {engine : FolderSyncEngine}

/-- The commands of a download touch neither the row nor the copies. -/
def Command.saves : Command → Bool
  | .ask => true
  | .fetch _ _ _ => true
  | .save _ _ => true
  | .saveKnown _ => true
  | .saveNew _ => true
  | _ => false

theorem commit_info (w : World) {change : Store → Store} (same : (change w.store).info = w.store.info) :
    (w.commit change).store.info = w.store.info := by
  rcases w.commit_cases change with refused | committed
  · rw [refused]
  · rw [committed]
    exact same

/-- A transaction that leaves the row alone. -/
theorem still_commit {change : Store → Store} (same : (change w.store).info = w.store.info) :
    Polls w (w.commit change) ∧ Still w (w.commit change) := by
  have info := commit_info w same
  refine ⟨⟨by simp, by simp, ?_, by simp, by simp, by simp⟩, ⟨by simp, info, by simp⟩⟩
  rw [World.epoch, info, World.epoch]

theorem still_saves (saves : command.saves) :
    Polls w (World.perform engine command w) ∧ Still w (World.perform engine command w) := by
  cases command with
  | ask => exact ⟨.refl w, .refl w⟩
  | fetch =>
    unfold World.perform
    dsimp only
    split
    · exact ⟨.refl w, .refl w⟩
    · exact ⟨⟨rfl, rfl, rfl, rfl, rfl, rfl⟩, ⟨rfl, rfl, rfl⟩⟩
  | save greenlet rawMessages =>
    let change := fun store : Store => { store with
      db := CreateMessage.commitMessages engine.lookups w.now engine.folderId engine.folderRole
        rawMessages store.db }
    obtain ⟨polls, still⟩ : Polls w (w.commit change) ∧ Still w (w.commit change) := still_commit rfl
    exact ⟨⟨polls.server, polls.status, polls.epoch, rfl, rfl, rfl⟩, ⟨still.memory, still.info, rfl⟩⟩
  | saveKnown | saveNew =>
    rw [World.perform]
    exact still_commit rfl
  | _ => cases saves

/-- Nothing comes to differ that did not differ before. -/
structure Tame (w t : World) : Prop extends Polls w t where
  setting : t.trace.setting = w.trace.setting
  copies : ∀ column, w.SameCopies column → t.SameCopies column

theorem Tame.of_still (polls : Polls w t) (still : Still w t) : Tame w t where
  toPolls := polls
  setting := still.setting
  copies _ same := still.sameCopies same

theorem Tame.coherent (tame : Tame w t) (good : Coherent w) : Coherent t := by
  refine tame.toPolls.coherent good fun column other apart => tame.copies column ?_
  rw [tame.setting] at apart
  exact good.copies column other apart

/-- A getter takes its copy from the row. -/
theorem tame_load (column : Column) : Tame w (World.perform engine (.load column) w) := by
  unfold World.perform
  dsimp only
  split
  · rename_i info _ found
    refine ⟨⟨rfl, rfl, rfl, rfl, rfl, rfl⟩, rfl, fun other same copy member => ?_⟩
    rw [copy_cache, read_column] at member
    split at member
    · rename_i equal
      cases member
      rw [found, ← equal]
      rfl
    · exact same copy member
  · exact .of_still (.refl w) (.refl w)

theorem tame_minor (minor : command.minor) : Tame w (World.perform engine command w) := by
  cases command with
  | ask | lookup => exact .of_still (.refl w) (.refl w)
  | updateItem | removeUid =>
    rw [World.perform]
    exact .of_still (still_commit rfl).1 (still_commit rfl).2
  | load => exact tame_load _
  | note | remember | rememberFlags => exact ⟨⟨rfl, rfl, rfl, rfl, rfl, rfl⟩, rfl, fun _ same => same⟩
  | _ => cases minor

theorem tame_saves (saves : command.saves) : Tame w (World.perform engine command w) :=
  .of_still (still_saves saves).1 (still_saves saves).2

/-! ## Setters -/

/-- What a write leaves, if it is not refused. -/
theorem write_info {write : Write} (fault : w.store.fault ≠ some .refused) :
    (World.perform engine (.write write) w).store.info =
      w.store.info.map (fun info => info.write write) := by
  rw [World.perform, World.commit]
  split
  · rename_i refused
    exact absurd refused fault
  · rfl

theorem write_refused {write : Write} (fault : w.store.fault = some .refused) :
    (World.perform engine (.write write) w).store = w.store := by
  simp only [World.perform, World.commit, fault]

@[simp] theorem write_memory {write : Write} :
    (World.perform engine (.write write) w).memory = w.memory := by
  simp [World.perform]

theorem write_setting {write : Write} (rowFirst : write.column ≠ .highestmodseq) :
    (World.perform engine (.write write) w).trace.setting =
      if w.store.fault = none ∧ w.store.info.isSome then some write else w.trace.setting := by
  cases write with
  | highestmodseq => exact absurd rfl rowFirst
  | _ => rfl

/-- A written row still has the copies that it had, but for the attribute that is written. -/
theorem sameCopies_written {write : Write} (memory : t.memory = w.memory)
    (info : t.store.info = w.store.info.map (fun info => info.write write)) (same : w.SameCopies column)
    (copies : write.column = column → ∀ copy ∈ w.memory.copy column, copy = write) :
    t.SameCopies column := by
  intro copy member
  rw [memory] at member
  obtain ⟨before, found, read⟩ := Option.map_eq_some_iff.mp (same copy member)
  rw [info, found, Option.map_some, Option.map_some, read_write]
  split
  · rename_i equal
    rw [copies equal copy member]
  · rw [read]

/-- The first half of most setters. -/
theorem copies_write {write : Write} (good : Coherent w) (idle : w.trace.setting = none)
    (rowFirst : write.column ≠ .highestmodseq) (whole : Whole engine (.write write) w) :
    ∀ column, column ≠ .lastSlowRefresh →
      (∀ half ∈ (World.perform engine (.write write) w).trace.setting, half.column ≠ column) →
        (World.perform engine (.write write) w).SameCopies column := by
  intro column other apart
  have same := good.copies column other (by simp [idle])
  rw [write_setting rowFirst] at apart
  cases fault : w.store.fault with
  | none =>
    refine sameCopies_written write_memory (write_info (by simp [fault])) same fun equal copy member => ?_
    obtain ⟨info, found, _⟩ := Option.map_eq_some_iff.mp (same copy member)
    exact absurd equal (apart write (by simp [fault, found]))
  | some failure =>
    cases failure with
    | refused =>
      rw [World.SameCopies, write_refused fault, write_memory]
      exact same
    | lost =>
      refine sameCopies_written write_memory (write_info (by simp [fault])) same ?_
      rintro rfl
      cases write with
      | highestmodseq => exact absurd rfl rowFirst
      | _ => exact whole fault other

/-- The second half. -/
theorem copies_cache {write : Write} (good : Coherent w) (half : w.trace.setting = some write)
    (rowFirst : write.column ≠ .highestmodseq)
    (written : w.store.info.map (fun info => info.read write.column) = some write) :
    (World.perform engine (.cache write) w).trace.setting = none ∧
      ∀ column, column ≠ .lastSlowRefresh →
        (World.perform engine (.cache write) w).SameCopies column := by
  constructor
  · cases write with
    | highestmodseq => exact absurd rfl rowFirst
    | _ => rfl
  · intro column other copy member
    have held : copy ∈ (w.memory.cache write).copy column := member
    rw [copy_cache] at held
    split at held
    · rename_i equal
      cases held
      rw [← equal]
      exact written
    · rename_i differs
      exact good.copies column other (by simp [half, differs]) copy held

/-- The setter of the modseq keeps its copy first. -/
theorem copies_cache_highestmodseq (good : Coherent w) (idle : w.trace.setting = none)
    (value : Option Nat) :
    ∀ column, column ≠ .lastSlowRefresh → (∀ half ∈ (World.perform engine
      (.cache (.highestmodseq value)) w).trace.setting, half.column ≠ column) →
        (World.perform engine (.cache (.highestmodseq value)) w).SameCopies column := by
  intro column other apart copy member
  have differs : (Write.highestmodseq value).column ≠ column := apart (.highestmodseq value) rfl
  have held : copy ∈ (w.memory.cache (.highestmodseq value)).copy column := member
  rw [copy_cache, if_neg differs] at held
  exact good.copies column other (by simp [idle]) copy held

theorem copies_write_highestmodseq (good : Coherent w)
    (half : w.trace.setting = some (.highestmodseq value)) (kept : w.memory.highestmodseq = some value)
    (whole : Whole engine (.write (.highestmodseq value)) w) :
    ∀ column, column ≠ .lastSlowRefresh →
      (World.perform engine (.write (.highestmodseq value)) w).SameCopies column := by
  intro column other
  by_cases refused : w.store.fault = some .refused
  · rw [World.SameCopies, write_refused refused, write_memory]
    by_cases differs : (Write.highestmodseq value).column = column
    · rw [← differs]
      exact whole (.inl refused)
    · exact good.copies column other (by simpa [half] using differs)
  · by_cases differs : (Write.highestmodseq value).column = column
    · rw [← differs]
      intro copy member
      rw [write_memory] at member
      have same : .highestmodseq value = copy := by simpa [Memory.copy, kept, Write.column] using member
      cases found : w.store.info with
      | none =>
        have row := whole (.inr found) copy member
        rw [found] at row
        cases row
      | some info =>
        rw [write_info refused, found, ← same]
        rfl
    · have same := good.copies column other (by simpa [half] using differs)
      exact sameCopies_written write_memory (write_info refused) same fun equal => absurd equal differs

theorem polls_write {write : Write} (other : write.column ≠ .uidvalidity) :
    Polls w (World.perform engine (.write write) w) := by
  refine ⟨by simp, by simp, ?_, by simp [World.perform], by simp [World.perform], by simp [World.perform]⟩
  by_cases refused : w.store.fault = some .refused
  · rw [World.epoch, write_refused refused, World.epoch]
  · rw [World.epoch, write_info refused, World.epoch, Option.map_map]
    cases write with
    | uidvalidity => exact absurd rfl other
    | _ => rfl

theorem polls_cache (write : Write) :
    Polls w (World.perform engine (.cache write) w) := ⟨rfl, rfl, rfl, rfl, rfl, rfl⟩

end Copies

/-! ## The greenlet that sets attributes -/

/-- `B` is what such a greenlet knows. When a session is ahead of the row, it knows `S` too. -/
structure Setter (engine : FolderSyncEngine) (K : Contract (World.perform engine))
    (B S : World → Prop) : Prop where
  inv : ∀ t, K.inv t ↔ Coherent t
  admits : ∀ command t, K.admits command t → Whole engine command t
  stable : K.Stable B
  still : ∀ s t, B s → K.rely s t → Still s t
  spare : ∀ s t, B s → S s → K.rely s t → S t
  polls : ∀ command t, B t → Polls t (World.perform engine command t) → K.guar command t ∧
    B (World.perform engine command t) ∧ (S t → S (World.perform engine command t))
  opens : ∀ t, K.inv t → B t → S t ∨ Passes t.server.uidvalidity t

/-- No setter is under way. -/
def Idle (B : World → Prop) (t : World) : Prop := B t ∧ t.trace.setting = none

/-- Whatever is raised, no setter was broken off; and `UidInvalid` is raised for a UIDVALIDITY that
is larger than the stored one. -/
def Refuses (B S : World → Prop) (exc : Exc) (t : World) : Prop :=
  Idle B t ∧ ∀ remote cached, exc = .uidInvalid remote cached → S t ∧ ¬ Passes remote t

/-- A session that is ahead of the row only if `S` is known. -/
def Checked (B S : World → Prop) (session : Session) (t : World) : Prop :=
  Idle B t ∧ (S t ∨ Passes session.uidvalidity t)

namespace Setter
variable {engine : FolderSyncEngine} {K : Contract (World.perform engine)} {B S : World → Prop}

theorem keeps (setter : Setter engine K B S) {P : World → Prop}
    (same : ∀ s t, P s → Still s t → P t) : K.Stable (fun t => B t ∧ P t) := by
  rintro s t ⟨held, known⟩ moved good
  exact ⟨setter.stable s t held moved good, same s t known (setter.still s t held moved)⟩

theorem idle_stable (setter : Setter engine K B S) : K.Stable (Idle B) :=
  setter.keeps fun _ _ idle still => still.setting.trans idle

theorem checked_stable (setter : Setter engine K B S) (session : Session) (known : Option Nat → Prop) :
    K.Stable (fun t => Checked B S session t ∧ known t.epoch) := by
  rintro s t ⟨⟨idle, spare⟩, knew⟩ moved good
  have epoch := (setter.still s t idle.1 moved).epoch
  refine ⟨⟨setter.idle_stable s t idle moved good, ?_⟩, by rwa [epoch]⟩
  rw [Passes, epoch]
  exact spare.imp_left fun spare => setter.spare s t idle.1 spare moved

theorem tame (setter : Setter engine K B S) {t : World} (good : K.inv t) (idle : Idle B t)
    (tame : Tame t (World.perform engine command t)) :
    K.inv (World.perform engine command t) ∧ K.guar command t ∧
      Idle B (World.perform engine command t) := by
  obtain ⟨promised, still, _⟩ := setter.polls command t idle.1 tame.toPolls
  exact ⟨(setter.inv _).mpr (tame.coherent ((setter.inv t).mp good)), promised, still,
    tame.setting.trans idle.2⟩

theorem asks (setter : Setter engine K B S) : Asks K (Idle B) := fun t _ idle =>
  (setter.polls .ask t idle.1 (.refl t)).1

theorem fails (exc : Exc) (t : World) (other : exc.isUidInvalid = false) (idle : Idle B t) :
    Refuses B S exc t := by
  refine ⟨idle, ?_⟩
  rintro remote cached rfl
  cases other

/-- The two halves of a setter, each with what is known in between. -/
theorem sets (setter : Setter engine K B S) {write : Write} (other : write.column ≠ .uidvalidity)
    (rowFirst : write.column ≠ .highestmodseq) :
    K.Spec (Idle B) (setAttribute write) (fun _ => Idle B) (fun _ => Idle B) := by
  let half := fun t : World => B t ∧ (t.trace.setting = some write ∧
    t.store.info.map (fun info => info.read write.column) = some write)
  have halfStable : K.Stable half := setter.keeps fun s t known still => by
    rw [still.setting, still.info]
    exact known
  have written : K.Spec (Idle B) (updateImapFolderInfo write) (fun _ => half) (fun _ => Idle B) := by
    refine spec_issue setter.idle_stable (fun _ => halfStable) (fun _ => setter.idle_stable)
      fun t good idle admitted => ?_
    have coherent := (setter.inv t).mp good
    have polls : Polls t (World.perform engine (.write write) t) := polls_write other
    have copies := copies_write coherent idle.2 rowFirst (setter.admits _ t admitted)
    obtain ⟨promised, still, _⟩ := setter.polls _ t idle.1 polls
    refine ⟨(setter.inv _).mpr (polls.coherent coherent copies), promised, ?_⟩
    have failed : ¬ (t.store.fault = none ∧ t.store.info.isSome) →
        Idle B (World.perform engine (.write write) t) := by
      intro failed
      refine ⟨still, ?_⟩
      rw [write_setting rowFirst, if_neg failed]
      exact idle.2
    cases fault : t.store.fault with
    | some => exact failed (by simp [fault])
    | none =>
      cases found : t.store.info with
      | none =>
        have idle := failed (by simp [found])
        simpa [found] using idle
      | some info =>
        have begun : half (World.perform engine (.write write) t) := by
          refine ⟨still, ?_, ?_⟩
          · rw [write_setting rowFirst, if_pos ⟨fault, by simp [found]⟩]
          · rw [write_info (by simp [fault]), found, Option.map_some, Option.map_some, read_write,
              if_pos rfl]
        simpa [found] using begun
  refine spec_bind written fun _ => ?_
  refine spec_issue halfStable (fun _ => setter.idle_stable) (fun _ => setter.idle_stable) ?_
  rintro t good ⟨held, setting, row⟩ _
  have coherent := (setter.inv t).mp good
  have polls : Polls t (World.perform engine (.cache write) t) := polls_cache ..
  obtain ⟨done, copies⟩ := copies_cache coherent setting rowFirst row
  obtain ⟨promised, still, _⟩ := setter.polls _ t held polls
  exact ⟨(setter.inv _).mpr (polls.coherent coherent fun column other _ => copies column other),
    promised, still, done⟩

theorem setsHighestmodseq (setter : Setter engine K B S) (value : Option Nat) :
    K.Spec (Idle B) (setHighestmodseq value) (fun _ => Idle B) (fun _ => Idle B) := by
  let half := fun t : World => B t ∧ (t.trace.setting = some (.highestmodseq value) ∧
    t.memory.highestmodseq = some value)
  have halfStable : K.Stable half := setter.keeps fun s t known still => by
    rw [still.setting, still.memory]
    exact known
  have kept : K.Spec (Idle B) (local_ (.cache (.highestmodseq value))) (fun _ => half)
      (fun _ => Idle B) := by
    refine spec_issue setter.idle_stable (fun _ => halfStable) (fun _ => setter.idle_stable)
      fun t good idle _ => ?_
    have coherent := (setter.inv t).mp good
    have polls : Polls t (World.perform engine (.cache (.highestmodseq value)) t) :=
      polls_cache ..
    obtain ⟨promised, still, _⟩ := setter.polls _ t idle.1 polls
    refine ⟨(setter.inv _).mpr (polls.coherent coherent ?_), promised, still, rfl, rfl⟩
    exact copies_cache_highestmodseq coherent idle.2 value
  refine spec_bind kept fun _ => ?_
  refine spec_issue halfStable (fun _ => setter.idle_stable) (fun _ => setter.idle_stable) ?_
  rintro t good ⟨held, setting, cached⟩ admitted
  have coherent := (setter.inv t).mp good
  have polls : Polls t (World.perform engine (.write (.highestmodseq value)) t) := polls_write nofun
  have copies := copies_write_highestmodseq coherent setting cached (setter.admits _ t admitted)
  obtain ⟨promised, still, _⟩ := setter.polls _ t held polls
  refine ⟨(setter.inv _).mpr (polls.coherent coherent fun column other _ => copies column other),
    promised, ?_⟩
  have idle : Idle B (World.perform engine (.write (.highestmodseq value)) t) := ⟨still, rfl⟩
  split <;> exact idle

/-- A session is checked against a copy that is that of the row. -/
theorem selects (setter : Setter engine K B S) :
    K.Spec (Idle B) (selectFolder uidvalidityCb) (fun _ => Idle B) (Refuses B S) := by
  have stable := setter.idle_stable
  let opened := fun (session : Session) (t : World) => Checked B S session t ∧ True
  let cached := fun (session : Session) (value : Nat) (t : World) =>
    Checked B S session t ∧ t.epoch = some value
  have opens : ∀ session, K.Stable (opened session) :=
    fun session => setter.checked_stable session fun _ => True
  have caches : ∀ session value, K.Stable (cached session value) :=
    fun session value => setter.checked_stable session (· = some value)
  refine spec_selectFolder opened stable opens (fun _ => stable) fails setter.asks ?_ fun session => ?_
  · intro t good idle
    exact ⟨⟨idle, setter.opens t good idle.1⟩, trivial⟩
  · have reads : K.Spec (opened session) uidvalidity (cached session) (Refuses B S) := by
      refine spec_raising fails (spec_load (opens session) (caches session) stable
        (fun t good held => setter.asks t good held.1.1) ?_ ?_) load_raises
      · rintro t value good ⟨held, _⟩ copy
        have same := ((setter.inv t).mp good).copies .uidvalidity nofun (by simp [held.1.2])
        exact ⟨held, sameCopies_epoch same copy⟩
      · rintro t good ⟨⟨idle, known⟩, _⟩ _
        have tame : Tame t (World.perform engine (.load .uidvalidity) t) := tame_load _
        obtain ⟨kept, promised, still⟩ := setter.tame good idle tame
        refine ⟨kept, promised, still, fun info _ found => ⟨⟨still, ?_⟩, ?_⟩⟩
        · rw [Passes, tame.epoch]
          exact known.imp_left (setter.polls _ t idle.1 tame.toPolls).2.2
        · rw [tame.epoch, World.epoch, found]
          rfl
    refine spec_uidvalidityCb (cached session) (caches session) reads (fun _ _ _ held _ => held.1.1) ?_
    rintro value t _ ⟨⟨idle, known⟩, epoch⟩ smaller
    have ahead : ¬ Passes session.uidvalidity t := by
      rintro ⟨saved, stored, below⟩
      cases epoch.symm.trans stored
      exact absurd below (Nat.not_le_of_lt smaller)
    refine ⟨idle, ?_⟩
    rintro remote held ⟨⟩
    exact ⟨known.resolve_right ahead, ahead⟩

theorem issues (setter : Setter engine K B S) {routine : Call α}
    (issued : routine.Issues (fun command => ∀ t, Tame t (World.perform engine command t))) :
    K.Spec (Idle B) routine (fun _ => Idle B) (fun _ => Idle B) :=
  spec_issues setter.idle_stable issued fun _ t tame good idle _ => setter.tame good idle (tame t)

end Setter

theorem issues_download (engine : FolderSyncEngine) (backend : Backend) {greenlet : Greenlet}
    {session : Session} {uids : List Nat} :
    (download engine backend greenlet session uids).Issues (fun command => command.saves) := by
  have fetches : (fetchUids greenlet session uids).Issues (fun command => command.saves) := by
    induction uids with
    | nil => trivial
    | cons uid rest ih =>
      exact Routine.issues_bind (Routine.issues_issue.mpr rfl) fun _ =>
        Routine.issues_bind ih fun _ => trivial
  cases backend with
  | generic =>
    refine Routine.issues_bind fetches fun rawMessages => ?_
    split
    · trivial
    · exact Routine.issues_issue.mpr rfl
  | gmail =>
    refine Routine.issues_bind fetches fun rawMessages => ?_
    split
    · trivial
    · refine Routine.issues_bind (Routine.issues_issue.mpr rfl) fun known => ?_
      refine Routine.issues_bind (Routine.issues_each fun _ _ => Routine.issues_issue.mpr rfl) fun _ => ?_
      exact Routine.issues_bind (Routine.issues_issue.mpr rfl) fun created =>
        Routine.issues_each fun _ _ => Routine.issues_issue.mpr rfl

section Setter
variable {engine : FolderSyncEngine} {K : Contract (World.perform engine)} {B S : World → Prop}

theorem tames_minor {routine : Call α} (minor : Minor routine) :
    routine.Issues (fun command => ∀ t, Tame t (World.perform engine command t)) :=
  Routine.issues_mono minor.issues fun _ minor _ => tame_minor minor

theorem Setter.upkeep (setter : Setter engine K B S) (backend : Backend) (greenlet : Greenlet) :
    Upkeep engine K backend greenlet (Idle B) (fun _ => Idle B) (Refuses B S) where
  stable := setter.idle_stable
  knows _ := setter.idle_stable
  fails := Setter.fails
  minor _ _ minor good idle _ := setter.tame good idle (tame_minor minor)
  asks := setter.asks
  selects := spec_mono setter.selects (fun _ _ held => held) (fun _ _ _ held => ⟨held, held⟩)
    (fun _ _ _ held => held)
  downloads _ _ := spec_mono (setter.issues (Routine.issues_mono (issues_download engine backend)
    fun _ saves _ => tame_saves saves)) (fun _ _ held => held.1) (fun _ _ _ held => ⟨held, held⟩)
    (fun _ _ _ held => held)
  counts _ := setter.sets nofun nofun
  refreshes _ := setter.sets nofun nofun
  checks := setter.setsHighestmodseq

end Setter

end Imap
end SyncEngine
