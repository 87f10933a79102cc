import Mathlib.Data.Finset.Basic
import Mathlib.Data.Finset.Dedup

/-! The syncback service on the action log of one account: how it batches and merges the pending
entries, and what its worker does with a batch, one commit at a time. -/
namespace SyncEngine
namespace Syncback

inductive ActionName
  | markUnread | markStarred | move | changeLabels | saveDraft | updateDraft | deleteDraft
  | saveSentEmail | deleteSentEmail | createFolder | createLabel | updateFolder | deleteFolder
  | updateLabel | deleteLabel | createEvent | deleteEvent | updateEvent
  deriving DecidableEq, Repr

inductive Status
  | pending
  | successful
  | failed
  deriving DecidableEq, Repr

/-- An entry of the log. Only `change_labels` has the labels. `tries` counts the attempts that have
included the entry, and `expired` is the age at which it has been given up for an account that is
invalid or stopped. -/
structure Entry where
  action : ActionName
  recordId : Nat
  removedLabels : List String
  addedLabels : List String
  createdAt : Nat
  status : Status
  retries : Nat
  tries : Nat
  expired : Option Nat
  deriving DecidableEq

/-- An entry's id is its place in the log. -/
abbrev Log := List Entry

def ACTION_MAX_NR_OF_RETRIES : Nat := 20
def INVALID_ACCOUNT_GRACE_PERIOD : Nat := 60 * 60 * 2
def batchSize : Nat := 10

structure Task where
  action : ActionName
  actionLogIds : List Nat
  recordIds : List Nat
  removedLabels : List String
  addedLabels : List String
  deriving DecidableEq

/-- Every action has a function of its own, and all tasks of an account have one provider. -/
def Task.tryMergeWith (self other : Task) : Option Task :=
  if self.action ≠ other.action then none
  else if self.action = .changeLabels then
    if self.removedLabels.toFinset ≠ other.removedLabels.toFinset then none
    else if self.addedLabels.toFinset ≠ other.addedLabels.toFinset then none
    else if self.actionLogIds = other.actionLogIds ∨ self.recordIds = other.recordIds then none
    else some { self with
      actionLogIds := self.actionLogIds ++ other.actionLogIds
      recordIds := self.recordIds ++ other.recordIds }
  else none

section Batch
variable (running : List Nat) (invalid : Bool) (now : Nat)

def taskOf (entry : Entry) (id : Nat) : Task where
  action := entry.action
  actionLogIds := [id]
  recordIds := [entry.recordId]
  removedLabels := entry.removedLabels
  addedLabels := entry.addedLabels

/-- The loop over the entries that the query has returned. It comes to the entries that it gives up on
the way, with their ages, and to the tasks of a batch, or to none when an entry is still running. -/
def batchLogEntries (tasks : List Task) (lastTask : Option Task) (expired : List (Nat × Nat)) :
    List (Entry × Nat) → List (Nat × Nat) × Option (List Task)
  | [] =>
    match tasks ++ lastTask.toList with
    | [] => (expired, none)
    | tasks => (expired, some tasks)
  | (entry, id) :: rest =>
    if id ∈ running then (expired, none)
    else if invalid then
      let actionAge := now - entry.createdAt
      if actionAge > INVALID_ACCOUNT_GRACE_PERIOD then
        batchLogEntries tasks lastTask (expired ++ [(id, actionAge)]) rest
      else batchLogEntries tasks lastTask expired rest
    else
      let task := taskOf entry id
      match lastTask with
      | none => batchLogEntries tasks (some task) expired rest
      | some last =>
        match last.tryMergeWith task with
        | none => batchLogEntries (tasks ++ [last]) (some task) expired rest
        | some merged => batchLogEntries tasks (some merged) expired rest

end Batch

/-- What a failed attempt commits for one of its entries. `_mark_action_as_failed` also gives up what is
pending for the record of an event that has not been created. -/
def countFailure (id : Nat) (entry : Entry) (other : Nat) (e : Entry) : Entry :=
  let exhausted := entry.retries + 1 = ACTION_MAX_NR_OF_RETRIES
  if other = id then
    { e with retries := entry.retries + 1, status := if exhausted then .failed else e.status }
  else if exhausted ∧ entry.action = .createEvent ∧ e.recordId = entry.recordId ∧ e.status = .pending then
    { e with status := .failed }
  else e

/-- A task under way: the entries that it processes, its attempt, and what is left of its batch. -/
structure Job where
  ids : List Nat
  attempt : Nat
  rest : List Task
  batch : List Nat

/-- Where the worker that holds the account's semaphore is. -/
inductive Place
  | free
  | between (tasks : List Task) (batch : List Nat)
  | trying (job : Job)
  | succeeding (job : Job) (left : List Nat)
  | failing (job : Job) (left : List Nat) (markedAsFailed : Bool)
  | sleeping (job : Job)

namespace Place

/-- The entries whose attempt is still to be recorded if it comes to nothing. -/
def due : Place → List Nat
  | .trying job | .succeeding job _ => job.ids
  | .failing _ left _ => left
  | .free | .between _ _ | .sleeping _ => []

def batch : Place → List Nat
  | .free => []
  | .between _ batch => batch
  | .trying job | .succeeding job _ | .failing job _ _ | .sleeping job => job.batch

end Place

/-- The log is in the database, `invalid` tells the account's state, and the rest is the service's
memory. `asserted` is set when the assertion on merged tasks has failed. -/
structure World where
  log : Log
  invalid : Bool
  entries : List (Entry × Nat)
  queue : List (List Task)
  running : List Nat
  place : Place
  asserted : Bool

inductive Event
  | arrive (action : ActionName) (recordId : Nat) (removedLabels addedLabels : List String) (now : Nat)
  | account (invalid : Bool)
  | select
  | batch (now : Nat)
  | take (n : Nat)
  | drop (n : Nat)
  | start
  | outcome (success : Bool)
  | succeed (id : Nat)
  | record (id : Nat)
  | leave
  | wake
  | timeout
  | restart

namespace World
variable (w : World)

def initial : World :=
  { log := [], invalid := false, entries := [], queue := [], running := [], place := .free, asserted := false }

/-- Commits a change of some entries. -/
def amend (f : Nat → Entry → Entry) : World := { w with log := w.log.mapIdx f }

def ids (tasks : List Task) : List Nat := tasks.flatMap Task.actionLogIds

/-- The worker is done with its batch, one way or the other. -/
def abandon : World :=
  { w with place := .free, running := w.running.filter (· ∉ w.place.batch) }

/-- The entries of a task that are still pending when it starts. -/
def toProcess (task : Task) : List Nat :=
  task.actionLogIds.filter fun id => (w.log[id]?).any fun entry => entry.status = .pending

def attempt (job : Job) : World :=
  { w.amend fun id entry => if id ∈ job.ids then { entry with tries := entry.tries + 1 } else entry with
    place := .trying job }

/-- One entry of a failed attempt. An assertion that fails rolls the entry back. -/
def recordFailure (job : Job) (left : List Nat) (markedAsFailed : Bool) (id : Nat) : World :=
  let left := left.filter (· ≠ id)
  match w.log[id]? with
  | none => { w with place := .failing job left markedAsFailed }
  | some entry =>
    let markedAsFailed := markedAsFailed || entry.retries + 1 = ACTION_MAX_NR_OF_RETRIES
    if markedAsFailed && entry.retries + 1 ≠ ACTION_MAX_NR_OF_RETRIES then
      { w.abandon with asserted := true }
    else { w.amend (countFailure id entry) with place := .failing job left markedAsFailed }

/-- A timeout or another exception. Inside the `try` it is a failure of the attempt; anywhere else it
ends the batch. -/
def timeout : Option World :=
  match w.place with
  | .free => none
  | .trying job | .succeeding job _ => some { w with place := .failing job job.ids false }
  | .between _ _ | .failing _ _ _ | .sleeping _ => some w.abandon

/-- The next task of the batch with the entries that are still pending. -/
def start : Option World :=
  match w.place with
  | .between [] _ => some w.abandon
  | .between (task :: rest) batch =>
    match w.toProcess task with
    | [] => some { w with place := .between rest batch }
    | ids => some (w.attempt ⟨ids, 0, rest, batch⟩)
  | _ => none

def outcome (success : Bool) : Option World :=
  match w.place with
  | .trying job =>
    some { w with place := if success then .succeeding job job.ids else .failing job job.ids false }
  | _ => none

def succeed (id : Nat) : Option World :=
  match w.place with
  | .succeeding job left =>
    if id ∈ left then
      some { w.amend fun other entry => if other = id then { entry with status := .successful } else entry with
        place := .succeeding job (left.filter (· ≠ id)) }
    else none
  | _ => none

def record (id : Nat) : Option World :=
  match w.place with
  | .failing job left markedAsFailed =>
    if id ∈ left then some (w.recordFailure job left markedAsFailed id) else none
  | _ => none

/-- The end of a loop over the entries. -/
def leave : Option World :=
  match w.place with
  | .succeeding job [] => some { w with place := .between job.rest job.batch }
  | .failing job [] markedAsFailed =>
    some { w with place := if markedAsFailed then .between job.rest job.batch else .sleeping job }
  | _ => none

def wake : Option World :=
  match w.place with
  | .sleeping job =>
    if job.attempt + 1 < ACTION_MAX_NR_OF_RETRIES then some (w.attempt { job with attempt := job.attempt + 1 })
    else some { w with place := .between job.rest job.batch }
  | _ => none

def select : World :=
  { w with entries := (w.log.zipIdx.filter fun (entry, _) => entry.status = .pending).take batchSize }

/-- What the pass over the selected entries commits and queues. -/
def process (now : Nat) : World :=
  let (expired, tasks) := batchLogEntries w.running w.invalid now [] none [] w.entries
  { w.amend fun id entry =>
      match expired.lookup id with
      | some actionAge => { entry with status := .failed, expired := some actionAge }
      | none => entry with
    entries := []
    queue := w.queue ++ tasks.toList
    running := w.running ++ (tasks.map ids).getD [] }

/-- A batch waits for the account's semaphore, and its worker may time out meanwhile. -/
def step : Event → Option World
  | .arrive action recordId removedLabels addedLabels now => some { w with
      log := w.log ++ [{
        action, recordId, removedLabels, addedLabels
        createdAt := now, status := .pending, retries := 0, tries := 0, expired := none }] }
  | .account invalid => some { w with invalid }
  | .select => some w.select
  | .batch now => some (w.process now)
  | .take n =>
    match w.place, w.queue[n]? with
    | .free, some tasks => some { w with queue := w.queue.eraseIdx n, place := .between tasks (ids tasks) }
    | _, _ => none
  | .drop n => (w.queue[n]?).map fun tasks =>
    { w with queue := w.queue.eraseIdx n, running := w.running.filter (· ∉ ids tasks) }
  | .start => w.start
  | .outcome success => w.outcome success
  | .succeed id => w.succeed id
  | .record id => w.record id
  | .leave => w.leave
  | .wake => w.wake
  | .timeout => w.timeout
  | .restart => some { w with entries := [], queue := [], running := [], place := .free }

def run (w : World) : List Event → Option World
  | [] => some w
  | event :: events => (w.step event).bind fun next => next.run events

def retries (id : Nat) : Option Nat := (w.log[id]?).map Entry.retries

/-- The entries that a task is about to process have failed equally often. -/
def InStep : Event → Prop
  | .start =>
    match w.place with
    | .between (task :: _) _ => ∀ id ∈ w.toProcess task, ∀ other ∈ w.toProcess task, w.retries id = w.retries other
    | _ => True
  | _ => True

instance (event : Event) : Decidable (w.InStep event) :=
  match event with
  | .start =>
    match place : w.place with
    | .between (task :: _) _ => decidable_of_iff (∀ id ∈ w.toProcess task, ∀ other ∈ w.toProcess task,
        w.retries id = w.retries other) (by simp only [InStep, place])
    | .between [] _ | .free | .trying _ | .succeeding _ _ | .failing _ _ _ | .sleeping _ =>
      isTrue (by simp only [InStep, place])
  | .arrive .. | .account _ | .select | .batch _ | .take _ | .drop _ | .outcome _ | .succeed _
  | .record _ | .leave | .wake | .timeout | .restart => isTrue trivial

def AllInStep (w : World) : List Event → Prop
  | [] => True
  | event :: events => w.InStep event ∧ ∀ next ∈ w.step event, next.AllInStep events

instance decidableAllInStep (w : World) : (events : List Event) → Decidable (w.AllInStep events)
  | [] => isTrue trivial
  | event :: events =>
    have := fun next : World => decidableAllInStep next events
    inferInstanceAs (Decidable (w.InStep event ∧ ∀ next ∈ w.step event, next.AllInStep events))

end World

end Syncback
end SyncEngine
