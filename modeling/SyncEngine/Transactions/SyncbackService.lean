import Mathlib.Logic.Function.Basic
import SyncEngine.Transactions.Syncback

/-! The syncback service with all its accounts and workers: one greenlet that forms batches, and the
workers that wait for the semaphore of a batch's account and execute it. -/
namespace SyncEngine.Syncback

/-- An account is held by one executing batch at a time. -/
inductive Stage
  | queued
  | waiting
  | executing (place : Place)
  | done

structure Batch (A : Type) where
  account : A
  tasks : List Task
  stage : Stage

/-- `_batch_log_entries` under way on what the query has returned. The session holds the account's
`sync_state` until a commit. `skipped` are the entries that were left for later. -/
structure Pass (A : Type) where
  account : A
  entries : List (Entry × Nat)
  syncState : Option Bool
  tasks : List Task
  lastTask : Option Task
  skipped : List Nat

/-- Batches stay in the order in which they were queued. -/
structure Service (A : Type) where
  log : A → Log
  invalid : A → Bool
  pass : Option (Pass A)
  batches : List (Batch A)
  runningActionIds : List (A × Nat)

inductive Step (A : Type)
  | commit (account : A) (action : ActionName) (recordId : Nat) (removedLabels addedLabels : List String)
      (now : Nat)
  | account (account : A) (invalid : Bool)
  | query (account : A)
  | examine (now : Nat)
  | queue
  | abort
  | take
  | acquire (batch : Nat)
  | giveUp (batch : Nat)
  | work (batch : Nat) (event : Event)

def Batch.live {A : Type} (b : Batch A) : Bool :=
  match b.stage with
  | .done => false
  | _ => true

def Batch.executing {A : Type} (b : Batch A) : Bool :=
  match b.stage with
  | .executing _ => true
  | _ => false

def Batch.busy {A : Type} (b : Batch A) : Bool :=
  match b.stage with
  | .waiting | .executing _ => true
  | _ => false

def Batch.ids {A : Type} (b : Batch A) : List Nat := World.ids b.tasks

/-- What the worker of a batch does. -/
def Event.working : Event → Bool
  | .start | .outcome _ | .succeed _ | .record _ | .leave | .wake | .timeout => true
  | _ => false

/-- The entry has been attempted, or it is no longer pending. -/
def Log.settled (log : Log) (id : Nat) : Bool :=
  (log[id]?).any fun entry => entry.status ≠ .pending || 0 < entry.tries

namespace Service
variable {A : Type} [DecidableEq A] (numWorkers : Nat) (s : Service A)

def initial (log : A → Log) (invalid : A → Bool) : Service A :=
  { log, invalid, pass := none, batches := [], runningActionIds := [] }

def running (account : A) (id : Nat) : Bool := (account, id) ∈ s.runningActionIds

/-- Commits a change of the log of an account. -/
def amend (account : A) (log : Log) : Service A := { s with log := Function.update s.log account log }

/-- `notify_worker_finished` -/
def finish (n : Nat) (b : Batch A) : Service A :=
  { s with
    batches := s.batches.set n { b with stage := .done }
    runningActionIds := s.runningActionIds.filter fun (account, id) => account ≠ b.account || id ∉ b.ids }

/-- Whether the account is found invalid or stopped. -/
def found (pass : Pass A) : Bool := pass.syncState.getD (s.invalid pass.account)

/-- The body of the loop in `_batch_log_entries`. -/
def examine (pass : Pass A) (entry : Entry) (id : Nat) (now : Nat) : Service A :=
  if s.running pass.account id then { s with pass := none }
  else if s.found pass then
    let actionAge := now - entry.createdAt
    if actionAge > INVALID_ACCOUNT_GRACE_PERIOD then
      { s.amend pass.account ((s.log pass.account).modify id fun entry =>
          { entry with status := .failed, expired := some actionAge }) with
        pass := some { pass with entries := pass.entries.tail, syncState := none } }
    else
      { s with pass := some { pass with
          entries := pass.entries.tail, syncState := some true, skipped := pass.skipped ++ [id] } }
  else
    let task := taskOf entry id
    let pass := { pass with entries := pass.entries.tail, syncState := some false }
    match pass.lastTask with
    | none => { s with pass := some { pass with lastTask := some task } }
    | some last =>
      match last.tryMergeWith task with
      | none => { s with pass := some { pass with tasks := pass.tasks ++ [last], lastTask := some task } }
      | some merged => { s with pass := some { pass with lastTask := some merged } }

/-- The end of `_batch_log_entries`, and the new batch in the queue. -/
def queue (pass : Pass A) : Service A :=
  match pass.tasks ++ pass.lastTask.toList with
  | [] => { s with pass := none }
  | tasks =>
    { s with
      pass := none
      batches := s.batches ++ [{ account := pass.account, tasks := tasks, stage := .queued }]
      runningActionIds := s.runningActionIds ++ (World.ids tasks).map (pass.account, ·) }

/-- What the worker of a batch sees of the service. -/
def view (b : Batch A) (place : Place) : World :=
  { log := s.log b.account, invalid := s.invalid b.account, entries := [], queue := [], running := [],
    place := place, asserted := false }

def work (n : Nat) (b : Batch A) (next : World) : Service A :=
  match next.place with
  | .free => (s.amend b.account next.log).finish n b
  | place =>
    { s.amend b.account next.log with batches := s.batches.set n { b with stage := .executing place } }

/-- One step. The assertion that an account is still the same, by `is` on its id, may fail once the
account is loaded anew; like any other exception it ends the pass. -/
def step : Step A → Option (Service A)
  | .commit account action recordId removedLabels addedLabels now =>
    some (s.amend account (s.log account ++ [{
      action, recordId, removedLabels, addedLabels
      createdAt := now, status := .pending, retries := 0, tries := 0, expired := none }]))
  | .account account invalid => some { s with invalid := Function.update s.invalid account invalid }
  | .query account =>
    match s.pass with
    | some _ => none
    | none =>
      let pending := (s.log account).zipIdx.filter fun (entry, _) => entry.status = .pending
      some { s with pass := some {
        account, entries := pending.take batchSize, syncState := none, tasks := [], lastTask := none,
        skipped := [] } }
  | .examine now =>
    match s.pass with
    | some pass => pass.entries.head?.map fun (entry, id) => s.examine pass entry id now
    | none => none
  | .queue =>
    match s.pass with
    | some pass => if pass.entries = [] then some (s.queue pass) else none
    | none => none
  | .abort => s.pass.map fun _ => { s with pass := none }
  | .take =>
    match s.batches.findIdx? (·.stage matches .queued) with
    | none => none
    | some n =>
      if (s.batches.filter Batch.busy).length < numWorkers then
        (s.batches[n]?).map fun b => { s with batches := s.batches.set n { b with stage := .waiting } }
      else none
  | .acquire n =>
    match s.batches[n]? with
    | some b =>
      match b.stage with
      | .waiting =>
        if s.batches.any fun c => c.executing && c.account = b.account then none
        else some { s with
          batches := s.batches.set n { b with stage := .executing (.between b.tasks b.ids) } }
      | _ => none
    | none => none
  | .giveUp n =>
    match s.batches[n]? with
    | some b =>
      match b.stage with
      | .waiting => some (s.finish n b)
      | _ => none
    | none => none
  | .work n event =>
    match s.batches[n]? with
    | some b =>
      match b.stage with
      | .executing place =>
        if event.working then ((s.view b place).step event).map fun next => s.work n b next else none
      | _ => none
    | none => none

def run (s : Service A) : List (Step A) → Option (Service A)
  | [] => some s
  | step :: steps => (s.step numWorkers step).bind fun next => next.run steps

/-- A step away from the two slips. What an exception interrupts once an entry has been marked as
successful is not looked at again before the next attempt, and an account found valid after one of its
entries was skipped gets its later entries executed first. -/
def calm : Step A → Bool
  | .work n .timeout =>
    match s.batches[n]? with
    | some ⟨_, _, .executing (.succeeding job left)⟩ => left = job.ids
    | _ => true
  | .examine _ =>
    s.pass.all fun pass => pass.entries.head?.all fun (_, id) =>
      s.running pass.account id || s.found pass || pass.skipped.all (s.log pass.account).settled
  | _ => true

def allCalm (s : Service A) : List (Step A) → Bool
  | [] => true
  | step :: steps => s.calm step && (s.step numWorkers step).all fun next => next.allCalm steps

/-- What the service promises, in any state. -/
structure Orderly : Prop where
  unique : ∀ (i j : Nat) (b c : Batch A), s.batches[i]? = some b → s.batches[j]? = some c →
    b.live = true → c.live = true → b.account = c.account → ∀ id ∈ b.ids, id ∈ c.ids → i = j
  running : ∀ account id, s.running account id = true ↔
    ∃ b ∈ s.batches, b.live = true ∧ b.account = account ∧ id ∈ b.ids
  exclusive : ∀ (i j : Nat) (b c : Batch A), s.batches[i]? = some b → s.batches[j]? = some c →
    b.executing = true → c.executing = true → b.account = c.account → i = j
  pending : ∀ b ∈ s.batches, ∀ job, b.stage = .executing (.trying job) → ∀ id ∈ job.ids,
    ∃ entry, (s.log b.account)[id]? = some entry ∧ entry.status = .pending
  ordered : ∀ b ∈ s.batches, ∀ job, b.stage = .executing (.trying job) → ∀ id ∈ job.ids, ∀ j < id,
    (s.log b.account).settled j = true

end Service

end SyncEngine.Syncback
