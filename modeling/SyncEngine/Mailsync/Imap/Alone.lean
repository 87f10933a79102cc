import SyncEngine.Mailsync.Imap.StateMachine

/-! Handlers that run alone and whose commands succeed: what they leave behind, and what each of
their commits leaves in case the process dies right after it. -/
namespace SyncEngine
namespace Imap
open Cooperative

/-- The commands that end with a commit. -/
def Command.commits : Command → Bool
  | .save _ _ => true
  | .saveKnown _ => true
  | .saveNew _ => true
  | .updateItem _ _ => true
  | .removeUid _ => true
  | .write _ => true
  | .createInfo _ => true
  | .remap _ _ => true
  | _ => false

section Runs
variable (self : FolderSyncEngine)

/-- The stores that the commits of a routine leave, in their order. -/
def commits (routine : Call α) (w : World) : List Store :=
  ((routine.steps (World.perform self) w).filter (fun step => step.1.commits)).map
    (fun step => step.2.store)

/-- What a routine running alone returns, leaves and has committed. -/
def Does (routine : Call α) (w : World) (value : α) (stores : List Store) (t : World) : Prop :=
  routine.run (World.perform self) w = (.ok value, t) ∧ commits self routine w = stores

end Runs

namespace World

/-- Nothing fails. -/
def Quiet (w : World) : Prop := w.server.fault = none ∧ w.store.fault = none

/-- A new process finds what is stored, and nothing else. -/
def restart (w : World) : World :=
  { w with
    memory := Memory.fresh
    status := w.status.start
    trace := { Trace.fresh w.server.uidvalidity with resynced := w.trace.resynced } }

end World

/-- Every copy that the engine keeps is that of the row. -/
structure Memory.Agrees (memory : Memory) (info : ImapFolderInfo) : Prop where
  uidvalidity : ∀ value ∈ memory.uidvalidity, value = info.uidvalidity
  highestmodseq : ∀ value ∈ memory.highestmodseq, value = info.highestmodseq
  uidnext : ∀ value ∈ memory.uidnext, value = info.uidnext
  lastSlowRefresh : ∀ value ∈ memory.lastSlowRefresh, value = info.lastSlowRefresh

theorem Memory.Agrees.fresh (info : ImapFolderInfo) : Memory.fresh.Agrees info := by
  constructor <;> rintro _ ⟨⟩

theorem Memory.Agrees.cache {memory : Memory} (agrees : memory.Agrees info) (column : Column) :
    (memory.cache (info.read column)).Agrees info := by
  cases column with
  | uidvalidity =>
    exact { agrees with uidvalidity := by rintro _ ⟨⟩; rfl }
  | highestmodseq =>
    exact { agrees with highestmodseq := by rintro _ ⟨⟩; rfl }
  | uidnext =>
    exact { agrees with uidnext := by rintro _ ⟨⟩; rfl }
  | lastSlowRefresh =>
    exact { agrees with lastSlowRefresh := by rintro _ ⟨⟩; rfl }

namespace World

theorem commit_quiet {w : World} (quiet : w.Quiet) (change : Store → Store) :
    w.commit change = { w with store := change w.store } := by
  simp only [commit, quiet.2]

end World

section Rules
variable {self : FolderSyncEngine} {w t last : World}

theorem does_ret {value : α} : Does self (.ret value) w value [] w := ⟨rfl, rfl⟩

theorem does_bind {routine : Call α} {rest : α → Call β} (first : Does self routine w value before t)
    (later : Does self (rest value) t result after last) :
    Does self (routine.bind rest) w result (before ++ after) last := by
  constructor
  · rw [Routine.run_bind_ok _ first.1, later.1]
  · rw [commits, Routine.steps_bind_ok _ first.1, List.filter_append, List.map_append]
    exact congrArg₂ _ first.2 later.2

theorem does_issue {command : Command} {answer : World → Except Exc α} (reply : answer w = .ok value) :
    Does self (.issue command answer) w value
      (if command.commits then [(World.perform self command w).store] else [])
      (World.perform self command w) := by
  constructor
  · rw [Routine.run_issue, reply]
  · rw [commits, Routine.steps_issue]
    cases kind : command.commits <;> simp [kind]

theorem does_imap {answer : Server → α} (quiet : w.Quiet) :
    Does self (imap answer) w (answer w.server) [] w :=
  does_issue (by simp only [quiet.1, Except.mapError])

theorem does_transact {command : Command} {answer : World → Option α} (quiet : w.Quiet)
    (reply : answer w = some value) :
    Does self (transact command answer) w value
      (if command.commits then [(World.perform self command w).store] else [])
      (World.perform self command w) :=
  does_issue (by simp only [quiet.2, reply])

theorem does_query {answer : World → α} (quiet : w.Quiet) :
    Does self (query answer) w (answer w) [] w := does_transact quiet rfl

theorem does_local {command : Command} (silent : command.commits = false) :
    Does self (local_ command) w () [] (World.perform self command w) := by
  have done : Does self (local_ command) w () _ (World.perform self command w) := does_issue rfl
  simpa only [silent, Bool.false_eq_true, if_false] using done

/-- A getter returns the copy, or the stored value of which it then keeps a copy. -/
theorem does_load (self : FolderSyncEngine) {column : Column} {copy : Memory → Option α} {row : ImapFolderInfo → α}
    (quiet : w.Quiet) (saved : w.store.info = some info)
    (cached : ∀ value ∈ copy w.memory, value = row info) :
    ∃ t, Does self (load column copy row) w (row info) [] t ∧
      (t = w ∨ t = { w with memory := w.memory.cache (info.read column) }) := by
  cases held : copy w.memory with
  | some value =>
    refine ⟨w, ⟨?_, ?_⟩, .inl rfl⟩
    · simp only [load, Routine.run, World.perform, held]
      rw [cached value held]
    · simp [load, commits, Routine.steps, World.perform, held, Command.commits]
  | none =>
    have loaded : Does self (transact (.load column) fun w => w.store.info.map row) w _ _ _ :=
      does_transact quiet (by rw [saved]; rfl)
    have same : World.perform self (.load column) w =
        { w with memory := w.memory.cache (info.read column) } := by
      simp only [World.perform, quiet.2, saved]
    rw [same] at loaded
    refine ⟨_, ⟨?_, ?_⟩, .inr rfl⟩
    · simpa only [load, Routine.run, World.perform, held] using loaded.1
    · simpa [load, commits, Routine.steps, World.perform, held, Command.commits] using loaded.2

end Rules

end Imap
end SyncEngine
