import SyncEngine.Cooperative.Crew
import SyncEngine.Mailsync.Imap.Alone
import SyncEngine.Mailsync.Imap.Upkeep

/-! The greenlets of a folder engine: its own, which calls one handler after the other, and the
poller that initial sync spawns and kills. Between two commands of either the server and the rest
of the account move on, and at any moment the process may die. -/
namespace SyncEngine
namespace Imap
open Cooperative

def Command.signal : Command → Signal
  | .spawn => .spawn
  | .kill => .kill
  | _ => .none

/-- What others do meanwhile. They leave the rows of the folder and the engine object alone. -/
structure Moves (engine : FolderSyncEngine) (evolves : Server → Server → Prop) (w t : World) : Prop where
  server : evolves w.server t.server
  rows : t.rows engine = w.rows engine
  info : t.store.info = w.store.info
  memory : t.memory = w.memory
  status : { t.status with account := w.status.account } = w.status
  trace : t.trace = if t.server.uidvalidity = w.server.uidvalidity then w.trace
    else { w.trace with epochs := t.server.uidvalidity :: w.trace.epochs }

/-- `retry_crispin` calls a handler that lost its connection again; after any other outcome
`_run_impl` settles the state, and unless it has raised `MailsyncDone` it is called again. -/
inductive Resumed (engine : FolderSyncEngine) (backend : Backend) (w : World) :
    Except Exc String → World → Call String → Prop where
  | retried : Resumed engine backend w (.error .connection) w (handle engine backend w.status.state)
  | ran (left : result ≠ .error .connection) (fault : Option DbFault)
      (live : (w.status.runImpl result fault).1 ≠ .done) :
      Resumed engine backend w result { w with status := (w.status.runImpl result fault).2 }
        (handle engine backend (w.status.runImpl result fault).2.state)

/-- `poll_for_changes` polls until an exception other than a lost connection ends it. -/
def plan (engine : FolderSyncEngine) (backend : Backend) (evolves : Server → Server → Prop)
    (admits : Command → World → Prop) : Plan World Command Exc String Unit where
  perform := World.perform engine
  admits
  signal := Command.signal
  helper := pollImpl engine backend .poller
  resume := Resumed engine backend
  again result := result = .ok () ∨ result = .error .connection
  env := Moves engine evolves
  restart w t next := t = w.restart ∧ next = handle engine backend w.restart.status.state

instance {admits : Command → World → Prop} [∀ command w, Decidable (admits command w)] (command : Command)
    (w : World) : Decidable ((plan engine backend evolves admits).admits command w) :=
  inferInstanceAs (Decidable (admits command w))

/-- The crew of a process that has just started. -/
def started (engine : FolderSyncEngine) (backend : Backend) (w : World) :
    Crew World Command Exc String Unit where
  shared := w.restart
  main := handle engine backend w.restart.status.state
  helper := none

/-- Every state that the greenlets of an engine started on `w` come to. -/
def Reaches (engine : FolderSyncEngine) (backend : Backend) (evolves : Server → Server → Prop)
    (admits : Command → World → Prop) (w : World) (crew : Crew World Command Exc String Unit) : Prop :=
  Relation.ReflTransGen (Crew.Step (plan engine backend evolves admits)) (started engine backend w) crew

/-- The poller is not there. -/
def Alone (w : World) : Prop := w.trace.polling = false

section Resume
variable {engine : FolderSyncEngine} {backend : Backend}

/-- Only the status changes between two handlers. -/
theorem Resumed.frame {w t : World} (resumed : Resumed engine backend w result t next) :
    t = { w with status := t.status } ∧ next = handle engine backend t.status.state := by
  cases resumed with
  | retried | ran => exact ⟨rfl, rfl⟩

/-- The handlers of the normal states, and those of all others. -/
theorem handle_cases (engine : FolderSyncEngine) (backend : Backend) (state : String) :
    (state ∈ normalStates ∧ (handle engine backend state = initialSync engine backend ∨
      handle engine backend state = poll engine backend)) ∨
    (state ∉ normalStates ∧ (handle engine backend state = resyncUids engine backend ∨
      handle engine backend state = .raise .error)) := by
  by_cases known : state ∈ states
  · simp only [states, stateHandlers, List.map_cons, List.map_nil, List.mem_cons, List.not_mem_nil,
      or_false] at known
    rcases known with rfl | rfl | rfl | rfl
    · exact .inl ⟨by decide, .inl rfl⟩
    · exact .inr ⟨by decide, .inl rfl⟩
    · exact .inl ⟨by decide, .inr rfl⟩
    · exact .inr ⟨by decide, .inl rfl⟩
  · refine .inr ⟨fun normal => known (normal_known normal), .inr ?_⟩
    have missing : stateHandlers.lookup state = none := by
      rw [List.lookup_eq_none_iff]
      rintro ⟨name, handler⟩ member
      rw [bne_iff_ne]
      rintro rfl
      exact known (List.mem_map_of_mem member)
    simp only [handle, missing]

end Resume

/-! ## Handlers that run alone -/
section Turns
variable (engine : FolderSyncEngine) (backend : Backend) (admits : Command → World → Prop)
  [∀ command w, Decidable (admits command w)]

def ranAlone (w : World) : Except Exc String × World :=
  (handle engine backend w.status.state).run (World.perform engine) w

/-- Some handlers, each of which runs to its end without the poller getting a turn. -/
def turns : Nat → World → Option World
  | 0, w => some w
  | count + 1, w =>
    let (result, t) := ranAlone engine backend w
    if Crew.AdmitsAlone (plan engine backend (fun _ _ => True) admits)
        (handle engine backend w.status.state) w ∧
      result ≠ .error .connection ∧ (t.status.runImpl result none).1 ≠ .done then
      turns count { t with status := (t.status.runImpl result none).2 }
    else none

theorem turns_reach {w t : World} {count : Nat} (turned : turns engine backend admits count w = some t)
    (helping : Option (Call Unit)) :
    ∃ helper, Relation.ReflTransGen (Crew.Step (plan engine backend (fun _ _ => True) admits))
      ⟨w, handle engine backend w.status.state, helping⟩
      ⟨t, handle engine backend t.status.state, helper⟩ := by
  induction count generalizing w helping with
  | zero =>
    cases turned
    exact ⟨helping, .refl⟩
  | succ count ih =>
    simp only [turns] at turned
    split at turned
    · rename_i live
      obtain ⟨admitted, left, running⟩ := live
      obtain ⟨final, helper, ended, ran⟩ := Crew.reach_alone admitted helping
      obtain ⟨last, rest⟩ := ih turned helper
      exact ⟨last, ran.trans (.head (.mainEnds ended (.ran left none running)) rest)⟩
    · cases turned

end Turns

namespace World

/-- A transaction is refused, or commits its change. -/
theorem commit_cases (w : World) (change : Store → Store) :
    w.commit change = w ∨ w.commit change = { w with store := change w.store } := by
  unfold commit
  split
  · exact .inl rfl
  · exact .inr rfl

end World

end Imap
end SyncEngine
