import Mathlib.Data.List.Nodup
import SyncEngine.Transactions.Syncback

/-! The last failure of an action. One that has not created an event takes with it what is pending for the
same record, and records of all tables share one column. -/
namespace SyncEngine.ActionFailure
open Syncback (ActionName Status ACTION_MAX_NR_OF_RETRIES)

structure ActionLog where
  id : Nat
  namespaceId : Nat
  action : ActionName
  recordId : Nat
  tableName : String
  status : Status
  retries : Nat
deriving DecidableEq

structure Event where
  id : Nat
  deletedAt : Option Nat
deriving DecidableEq

structure Db where
  actionLogs : List ActionLog
  events : List Event
  unique : (actionLogs.map ActionLog.id).Nodup

inductive Exc
  | attributeError
deriving DecidableEq

namespace Db

/-- Changes of entries that leave their ids alone. -/
def amend (db : Db) (change : ActionLog → ActionLog) (same : ∀ entry, (change entry).id = entry.id) : Db where
  actionLogs := db.actionLogs.map change
  events := db.events
  unique := by
    have ids : ActionLog.id ∘ change = ActionLog.id := funext same
    rw [List.map_map, ids]
    exact db.unique

def setStatus (db : Db) (status : Status) (chosen : ActionLog → Bool) : Db :=
  db.amend (fun entry => if chosen entry then { entry with status } else entry)
    fun entry => by split <;> rfl

/-- What the query of `_mark_action_as_failed` names. -/
def pendingFor (actionLogEntry entry : ActionLog) : Bool :=
  entry.recordId = actionLogEntry.recordId ∧ entry.namespaceId = actionLogEntry.namespaceId ∧
    entry.status = .pending

/-- An exception leaves the transaction to be rolled back. -/
def markActionAsFailed (db : Db) (actionLogEntry : ActionLog) (now : Nat) : Except Exc Db :=
  let db := db.setStatus .failed (·.id = actionLogEntry.id)
  if actionLogEntry.action = .createEvent then
    let db := db.setStatus .failed (pendingFor actionLogEntry)
    if db.events.any (·.id = actionLogEntry.recordId) then
      .ok { db with events := db.events.map fun event =>
        if event.id = actionLogEntry.recordId then { event with deletedAt := some now } else event }
    else .error .attributeError
  else .ok db

/-- What a failed attempt commits for one of its entries. -/
def countFailure (db : Db) (actionLogEntry : ActionLog) (now : Nat) : Except Exc Db :=
  let counted := db.amend
    (fun entry => if entry.id = actionLogEntry.id then { entry with retries := entry.retries + 1 } else entry)
    fun entry => by split <;> rfl
  if actionLogEntry.retries + 1 = ACTION_MAX_NR_OF_RETRIES then
    counted.markActionAsFailed actionLogEntry now
  else .ok counted

end Db

/-- The entry is about the object of the other one. -/
def SameObject (actionLogEntry entry : ActionLog) : Prop :=
  entry.tableName = actionLogEntry.tableName ∧ entry.recordId = actionLogEntry.recordId

/-- Of all entries only the action itself and pending ones about its object have another status. -/
def FailsOnly (actionLogEntry : ActionLog) (before after : Db) : Prop :=
  ∀ entry ∈ before.actionLogs, ∀ later ∈ after.actionLogs, later.id = entry.id →
    later.status ≠ entry.status →
      entry.id = actionLogEntry.id ∨ entry.status = .pending ∧ SameObject actionLogEntry entry

section Failure
variable {db after : Db} {actionLogEntry entry : ActionLog} {now : Nat}

/-- What becomes of each entry when the last attempt to create an event has failed. -/
def settled (actionLogEntry entry : ActionLog) : ActionLog :=
  { entry with
    retries := if entry.id = actionLogEntry.id then entry.retries + 1 else entry.retries
    status := if entry.id = actionLogEntry.id ∨ Db.pendingFor actionLogEntry entry then .failed else entry.status }

theorem countFailure_settles (creates : actionLogEntry.action = .createEvent)
    (last : actionLogEntry.retries + 1 = ACTION_MAX_NR_OF_RETRIES)
    (counted : db.countFailure actionLogEntry now = .ok after) :
    after.actionLogs = db.actionLogs.map (settled actionLogEntry) := by
  simp only [Db.countFailure, last, if_true, Db.markActionAsFailed, creates] at counted
  split at counted
  · cases counted
    simp only [Db.setStatus, Db.amend, List.map_map]
    refine List.map_congr_left fun entry _ => ?_
    by_cases own : entry.id = actionLogEntry.id
    · simp [settled, own, Db.pendingFor]
    · by_cases other : Db.pendingFor actionLogEntry entry = true
      · simp [settled, own, other]
      · simp [settled, own, other]
  · cases counted

/-- An event that is gone raises, so that nothing is committed. -/
theorem countFailure_ok_iff (creates : actionLogEntry.action = .createEvent)
    (last : actionLogEntry.retries + 1 = ACTION_MAX_NR_OF_RETRIES) :
    (∃ after, db.countFailure actionLogEntry now = .ok after) ↔
      ∃ event ∈ db.events, event.id = actionLogEntry.recordId := by
  have outcome : ∃ left, db.countFailure actionLogEntry now =
      if db.events.any (·.id = actionLogEntry.recordId) then .ok left else .error .attributeError := by
    simp only [Db.countFailure, last, if_true, Db.markActionAsFailed, creates]
    exact ⟨_, rfl⟩
  obtain ⟨left, same⟩ := outcome
  rw [same]
  split
  next found => simpa using found
  next missing => simpa using missing

theorem later_settled (settles : after.actionLogs = db.actionLogs.map (settled actionLogEntry))
    (member : entry ∈ db.actionLogs) (among : later ∈ after.actionLogs) (same : later.id = entry.id) :
    later = settled actionLogEntry entry := by
  rw [settles] at among
  obtain ⟨old, here, rfl⟩ := List.mem_map.mp among
  rw [List.inj_on_of_nodup_map db.unique here member same]

end Failure

/-- When the last attempt to create an event has failed, only the action and pending ones on the same event
fail with it, exactly when nothing else that is pending in the namespace has the number of the event. -/
theorem failure_spares_others_iff (db : Db) (actionLogEntry : ActionLog) (now : Nat)
    (creates : actionLogEntry.action = .createEvent)
    (last : actionLogEntry.retries + 1 = ACTION_MAX_NR_OF_RETRIES) :
    (∀ after, db.countFailure actionLogEntry now = .ok after → FailsOnly actionLogEntry db after) ↔
      ((∃ event ∈ db.events, event.id = actionLogEntry.recordId) →
        ∀ entry ∈ db.actionLogs, entry.id ≠ actionLogEntry.id → Db.pendingFor actionLogEntry entry →
          entry.tableName = actionLogEntry.tableName) := by
  have counts : (∃ after, db.countFailure actionLogEntry now = .ok after) ↔ _ :=
    countFailure_ok_iff creates last
  rw [← counts]
  constructor
  · rintro spares ⟨after, counted⟩ entry member other pending
    have settles := countFailure_settles creates last counted
    have among : settled actionLogEntry entry ∈ after.actionLogs :=
      settles ▸ List.mem_map_of_mem member
    have failed : (settled actionLogEntry entry).status = .failed := if_pos (.inr pending)
    have waiting : entry.status = .pending := (of_decide_eq_true pending).2.2
    have moved : (settled actionLogEntry entry).status ≠ entry.status := by
      rw [failed, waiting]
      decide
    exact ((spares after counted entry member _ among rfl moved).resolve_left other).2.1
  · intro clear after counted entry member later among same moved
    rw [later_settled (countFailure_settles creates last counted) member among same] at moved
    by_cases own : entry.id = actionLogEntry.id
    · exact .inl own
    · right
      by_cases pending : Db.pendingFor actionLogEntry entry = true
      · have ⟨record, _, waiting⟩ := of_decide_eq_true pending
        exact ⟨waiting, clear ⟨after, counted⟩ entry member own pending, record⟩
      · exact absurd (if_neg (not_or.mpr ⟨own, pending⟩)) moved

/-! ## An event and a message with one number -/
namespace Trial

def creation : ActionLog where
  id := 1
  namespaceId := 1
  action := .createEvent
  recordId := 5
  tableName := "event"
  status := .pending
  retries := 19

/-- A message has been marked as read while the event was waiting. -/
def reading (recordId : Nat) : ActionLog where
  id := 2
  namespaceId := 1
  action := .markUnread
  recordId
  tableName := "message"
  status := .pending
  retries := 0

def db (recordId : Nat) : Db where
  actionLogs := [creation, reading recordId]
  events := [⟨5, none⟩]
  unique := by simp [creation, reading]

end Trial

open Trial in
theorem failure_spares_message : (∃ after, (db 6).countFailure creation 0 = .ok after) ∧
    ∀ after, (db 6).countFailure creation 0 = .ok after → FailsOnly creation (db 6) after :=
  ⟨⟨_, rfl⟩, (failure_spares_others_iff (db 6) creation 0 rfl rfl).mpr fun _ => by decide⟩

open Trial in
/-- The message is never marked as read on the server. -/
theorem failure_drops_message : ¬ ∀ (db : Db) (actionLogEntry : ActionLog) (now : Nat),
    actionLogEntry.action = .createEvent → actionLogEntry.retries + 1 = ACTION_MAX_NR_OF_RETRIES →
      ∀ after, db.countFailure actionLogEntry now = .ok after → FailsOnly actionLogEntry db after := by
  intro always
  have only := always (db 5) creation 0 rfl rfl _ rfl (reading 5) (.tail _ (.head _))
    { reading 5 with status := .failed } (.tail _ (.head _)) rfl (by decide)
  rcases only with own | ⟨_, table, _⟩
  · exact absurd own (by decide)
  · exact absurd table (by decide)

end SyncEngine.ActionFailure
