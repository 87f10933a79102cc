import Mathlib.Data.List.Basic
import Mathlib.Data.String.Basic
import Mathlib.Logic.Function.Basic
import SyncEngine.Util.Runs

/-! The processes that run the monitors of accounts, and the columns of the account by which they agree
on who runs them. -/
namespace SyncEngine
namespace SyncService

/-- The columns of an account that say whether and where it is synced. -/
structure Account where
  syncShouldRun : Bool
  syncHost : Option String
  desiredSyncHost : Option String
deriving DecidableEq

namespace Account

/-- Nobody syncs the account, and nobody in particular wants to. -/
def unassigned (acc : Account) : Bool :=
  acc.syncShouldRun && acc.syncHost.isNone && acc.desiredSyncHost.isNone

/-- `start_sync` goes on with the account. -/
def startable (acc : Account) (processIdentifier : String) : Bool :=
  acc.syncShouldRun && acc.desiredSyncHost.all (· == processIdentifier) &&
    acc.syncHost.all (· == processIdentifier)

def syncStopped (acc : Account) (requestingHost : String) : Option Account :=
  if acc.syncHost = some requestingHost then some { acc with syncHost := none } else none

/-- The filter of `account_ids_to_sync`. -/
def toSync (acc : Account) (processIdentifier : String) : Bool :=
  acc.syncShouldRun &&
    (acc.desiredSyncHost == some processIdentifier && acc.syncHost == none ||
      acc.desiredSyncHost == none && acc.syncHost == some processIdentifier ||
      acc.desiredSyncHost == some processIdentifier && acc.syncHost == some processIdentifier)

/-- A session that has read the columns `read` writes those of `acc` that differ from them. -/
def write (read acc current : Account) : Account where
  syncShouldRun := if acc.syncShouldRun = read.syncShouldRun then current.syncShouldRun else acc.syncShouldRun
  syncHost := if acc.syncHost = read.syncHost then current.syncHost else acc.syncHost
  desiredSyncHost :=
    if acc.desiredSyncHost = read.desiredSyncHost then current.desiredSyncHost else acc.desiredSyncHost

end Account

/-- What a process runs for an account, in the order in which it is started. -/
inductive Monitor
  | email
  | contacts
  | events
deriving DecidableEq

def Monitor.all : List Monitor := [.email, .contacts, .events]

/-- The calls that `poll` still has to make. `startSync` is left out for accounts in
`syncing_accounts`. -/
inductive Call
  | startSync (id : Nat)
  | accountIdsOwned (startAccounts : List Nat)
  | stopSync (id : Nat)
deriving DecidableEq

/-- Where a process is. `starting` and `stopping` have the monitors that are still to be started or
killed, and `stopped` the columns that `stop_sync` has read. -/
inductive Phase
  | ready
  | claiming (id : Nat)
  | declining (id : Nat)
  | starting (id : Nat) (monitors : List Monitor)
  | stopping (id : Nat) (monitors : List Monitor)
  | stopped (id : Nat) (read : Account)
deriving DecidableEq

/-- `monitors` are the three dictionaries of monitors. `running` are all that run, each with the number
it got when it was `created`. -/
structure Process where
  stealingEnabled : Bool
  syncingAccounts : List Nat
  monitors : Monitor → Nat → Option Nat
  running : List (Nat × Nat)
  created : Nat
  phase : Phase
  agenda : List Call

/-- `locks` are the locks of `SELECT ... FOR UPDATE`, and `sessions` what other programs have read of
accounts that they may change. -/
structure State where
  ids : List Nat
  accounts : Nat → Option Account
  locks : Nat → Option String
  sessions : List (Nat × Account)
  sharedQueue : List Nat
  privateQueue : String → List Nat
  processes : String → Process

def maxAccountsPerProcess : Nat := 150

section
variable (s : State) (host : String) (id : Nat)

def setProcess (process : Process) : State :=
  { s with processes := Function.update s.processes host process }

def sendMigrationEvents (acc : Account) : State :=
  let send (queue : String) := { s with
    privateQueue := Function.update s.privateQueue queue (s.privateQueue queue ++ [id]) }
  match acc.syncHost with
  | some syncHost =>
    if !acc.syncShouldRun || (acc.desiredSyncHost != some syncHost && acc.desiredSyncHost.isSome)
    then send syncHost else s
  | none =>
    if !acc.syncShouldRun then s else
      match acc.desiredSyncHost with
      | some desiredSyncHost => send desiredSyncHost
      | none => { s with sharedQueue := s.sharedQueue ++ [id] }

/-- The session commits `acc`, and its listener sends what the columns of `acc` ask for. -/
def commit (read acc : Account) : State :=
  if acc = read then s
  else sendMigrationEvents
    { s with accounts := Function.update s.accounts id ((s.accounts id).map (read.write acc)) } id acc

/-- The scope of the session commits once more. Only what goes to the shared queue is not sent
again. -/
def commitAgain (read acc : Account) : State :=
  if acc = read || acc.unassigned then s else sendMigrationEvents s id acc

/-- `start_sync` up to its first change. It waits as long as another session has the lock. -/
def startSync : Option State :=
  let process := s.processes host
  if (s.locks id).isSome then none
  else match s.accounts id with
  | none => some (setProcess s host { process with phase := .ready })
  | some acc =>
    if acc.startable host && !process.syncingAccounts.contains id then
      some { setProcess s host { process with phase := .starting id Monitor.all } with
        locks := Function.update s.locks id (some host) }
    else some (setProcess s host { process with phase := .ready })

/-- The transaction of `start_sync` is over. -/
def unlock : State := { s with locks := Function.update s.locks id none }

/-- `start_sync` commits `sync_host`, with or without an exception before. -/
def commitStart (acc : Account) : State :=
  unlock (commit s id acc { acc with syncHost := some host }) id

end

/-- What is no step of a process happens in another program (`read`, `update`, `create`), and a monitor
may end by itself (`finish`). `fail` is an exception among the monitors, `rollback` one of the
database in `start_sync` and `abandon` any exception in `stop_sync`; `caught` says whether `poll` goes on
after it. -/
inductive Event
  | read (id : Nat)
  | update (session : Nat) (syncShouldRun : Bool) (desiredSyncHost : Option String)
  | create (id : Nat) (syncShouldRun : Bool) (desiredSyncHost : Option String)
  | poll (host : String) (startAccounts : List Nat)
  | receive (host : String) (pendingAvgsOverThreshold : Bool)
  | call (host : String) (stopAccounts : List Nat)
  | monitor (host : String) (wanted : Bool)
  | fail (host : String)
  | rollback (host : String) (added caught : Bool)
  | abandon (host : String) (caught : Bool)
  | advance (host : String)
  | finish (host : String) (number : Nat)
deriving DecidableEq

section
variable (s : State) (host : String)

def poll (startAccounts : List Nat) : Option State :=
  let process := s.processes host
  if process.phase = .ready ∧ process.agenda = [] ∧
      startAccounts.Perm (s.ids.filter fun id => (s.accounts id).any (·.toSync host)) then
    some (setProcess s host { process with
      agenda := startAccounts.map .startSync ++ [.accountIdsOwned startAccounts] })
  else none

/-- The beginning of `poll_shared_queue`. -/
def receive (pendingAvgsOverThreshold : Bool) : Option State :=
  let process := s.processes host
  match s.sharedQueue with
  | [] => none
  | id :: rest =>
    if process.phase = .ready ∧ process.agenda = [] then
      let claims := process.stealingEnabled && !pendingAvgsOverThreshold &&
        process.syncingAccounts.length < maxAccountsPerProcess
      some { setProcess s host { process with
          phase := if claims then .claiming id else .declining id } with sharedQueue := rest }
    else none

/-- The next call of `poll`. -/
def call (stopAccounts : List Nat) : Option State :=
  let process := s.processes host
  match process.phase, process.agenda with
  | .ready, .startSync id :: agenda =>
    let s := setProcess s host { process with agenda }
    if process.syncingAccounts.contains id then some s else startSync s host id
  | .ready, .accountIdsOwned startAccounts :: _ =>
    if stopAccounts.Perm (s.ids.filter fun id => id ∉ startAccounts ∧
        (s.accounts id).any (·.syncHost == some host)) then
      some (setProcess s host { process with agenda := stopAccounts.map .stopSync })
    else none
  | .ready, .stopSync id :: agenda =>
    some (setProcess s host { process with agenda, phase := .stopping id Monitor.all })
  | _, _ => none

/-- The next monitor is started, if the account wants it. -/
def monitor (wanted : Bool) : Option State :=
  let process := s.processes host
  match process.phase with
  | .starting id (kind :: monitors) =>
    let process := { process with phase := .starting id monitors }
    some (setProcess s host (if wanted then { process with
      monitors := Function.update process.monitors kind
        (Function.update (process.monitors kind) id (some process.created))
      running := (process.created, id) :: process.running
      created := process.created + 1 } else process))
  | _ => none

def fail : Option State :=
  let process := s.processes host
  match process.phase with
  | .starting id _ => (s.accounts id).map fun acc =>
    commitStart (setProcess s host { process with phase := .ready }) host id acc
  | _ => none

/-- `added` if the account was already in `syncing_accounts`. -/
def rollback (added caught : Bool) : Option State :=
  let process := s.processes host
  match process.phase with
  | .starting id monitors =>
    if added && !monitors.isEmpty then none else
      some (unlock (setProcess s host { process with
        phase := .ready
        agenda := if caught then process.agenda else []
        syncingAccounts := if added then id :: process.syncingAccounts else process.syncingAccounts }) id)
  | _ => none

def abandon (caught : Bool) : Option State :=
  let process := s.processes host
  match process.phase with
  | .stopped _ _ => some (setProcess s host { process with
      phase := .ready, agenda := if caught then process.agenda else [] })
  | _ => none

/-- A monitor is killed, and forgotten. -/
def kill (process : Process) (kind : Monitor) (id : Nat) : Process :=
  match process.monitors kind id with
  | none => process
  | some number => { process with
      running := process.running.filter fun monitor => monitor.1 ≠ number
      monitors := Function.update process.monitors kind (Function.update (process.monitors kind) id none) }

/-- What follows where nothing else can happen but an exception. -/
def advance : Option State :=
  let process := s.processes host
  match process.phase with
  | .ready => none
  | .claiming id => startSync s host id
  | .declining id =>
    some { setProcess s host { process with phase := .ready } with sharedQueue := s.sharedQueue ++ [id] }
  | .starting _ (_ :: _) => none
  | .starting id [] => (s.accounts id).map fun acc =>
    commitStart (setProcess s host { process with
      phase := .ready, syncingAccounts := id :: process.syncingAccounts }) host id acc
  | .stopping id (kind :: monitors) =>
    some (setProcess s host { kill process kind id with phase := .stopping id monitors })
  | .stopping id [] =>
    match s.accounts id with
    | none => some (setProcess s host { process with phase := .ready, agenda := [] })
    | some acc => some (setProcess s host { process with phase := .stopped id acc })
  | .stopped id read =>
    let s := setProcess s host { process with
      phase := .ready, syncingAccounts := process.syncingAccounts.filter (· ≠ id) }
    match read.syncStopped host with
    | none => some s
    | some acc => if (s.locks id).isSome then none
      else some (commitAgain (commit s id read acc) id read acc)

end

def step (s : State) : Event → Option State
  | .read id => (s.accounts id).map fun acc => { s with sessions := s.sessions ++ [(id, acc)] }
  | .update session syncShouldRun desiredSyncHost => s.sessions[session]?.bind fun (id, read) =>
    if (s.locks id).isSome then none
    else some (commit { s with sessions := s.sessions.eraseIdx session } id read
      { read with syncShouldRun, desiredSyncHost })
  | .create id syncShouldRun desiredSyncHost =>
    let acc := ⟨syncShouldRun, none, desiredSyncHost⟩
    if (s.accounts id).isSome then none
    else some (sendMigrationEvents { s with
      ids := s.ids ++ [id], accounts := Function.update s.accounts id (some acc) } id acc)
  | .poll host startAccounts => poll s host startAccounts
  | .receive host pendingAvgsOverThreshold => receive s host pendingAvgsOverThreshold
  | .call host stopAccounts => call s host stopAccounts
  | .monitor host wanted => monitor s host wanted
  | .fail host => fail s host
  | .rollback host added caught => rollback s host added caught
  | .abandon host caught => abandon s host caught
  | .advance host => advance s host
  | .finish host number =>
    let process := s.processes host
    some (setProcess s host { process with
      running := process.running.filter fun monitor => monitor.1 ≠ number })

/-- A process that has just been started. -/
def Process.new (stealingEnabled : Bool) : Process where
  stealingEnabled
  syncingAccounts := []
  monitors := fun _ _ => none
  running := []
  created := 0
  phase := .ready
  agenda := []

/-- Nothing has happened yet in any process, whatever the table and the queues hold. -/
structure Fresh (s : State) : Prop where
  new : ∀ host, ∃ stealingEnabled, s.processes host = .new stealingEnabled
  unlocked : ∀ id, s.locks id = none

/-! ## What a step can do -/

@[simp] theorem setProcess_self (s : State) (host : String) (process : Process) :
    (setProcess s host process).processes host = process := Function.update_self ..

@[simp] theorem setProcess_ne (s : State) (host : String) (process : Process) {other : String}
    (ne : other ≠ host) : (setProcess s host process).processes other = s.processes other :=
  Function.update_of_ne ne ..

/-- The process is about to handle an event of the account. -/
def Handles (process : Process) (id : Nat) : Prop :=
  process.phase = .claiming id ∨ process.phase = .declining id ∨
    ∃ monitors, process.phase = .starting id monitors

/-- A step of one process by which nobody's row or lock changes. -/
structure Quiet (s : State) (host : String) (process : Process) (queue : List Nat) : Prop where
  starting : ∀ id monitors, process.phase = .starting id monitors →
    ∃ before, (s.processes host).phase = .starting id before
  stopped : ∀ id read, process.phase = .stopped id read →
    (s.processes host).phase = .stopped id read ∨ s.accounts id = some read
  syncing : ∀ id ∈ process.syncingAccounts, id ∈ (s.processes host).syncingAccounts
  running : ∀ number id, (number, id) ∈ process.running →
    (number, id) ∈ (s.processes host).running ∨ ∃ monitors, process.phase = .starting id monitors
  keeps_starting : ∀ id monitors, (s.processes host).phase = .starting id monitors →
    ∃ after, process.phase = .starting id after
  hands : ∀ id, id ∈ s.sharedQueue ∨ Handles (s.processes host) id → id ∈ queue ∨ Handles process id

inductive Transition (s : State) : Event → State → Prop
  | read {id : Nat} (found : s.accounts id = some acc) :
    Transition s (.read id) { s with sessions := s.sessions ++ [(id, acc)] }
  | update {id : Nat} {read : Account} (opened : s.sessions[session]? = some (id, read))
    (unlocked : s.locks id = none) :
    Transition s (.update session syncShouldRun desiredSyncHost)
      (commit { s with sessions := s.sessions.eraseIdx session } id read
        { read with syncShouldRun, desiredSyncHost })
  | create {id : Nat} (absent : s.accounts id = none) :
    Transition s (.create id syncShouldRun desiredSyncHost) (sendMigrationEvents { s with
      ids := s.ids ++ [id]
      accounts := Function.update s.accounts id (some ⟨syncShouldRun, none, desiredSyncHost⟩) } id
        ⟨syncShouldRun, none, desiredSyncHost⟩)
  | quiet (quiet : Quiet s host process queue) :
    Transition s event { setProcess s host process with sharedQueue := queue }
  | startSync {id : Nat}
    (phase : (s.processes host).phase = .ready ∨ (s.processes host).phase = .claiming id)
    (started : startSync (setProcess s host { s.processes host with agenda }) host id = some next) :
    Transition s event next
  | commitStart {id : Nat} (starting : (s.processes host).phase = .starting id monitors)
    (found : s.accounts id = some acc) (ready : process.phase = .ready)
    (syncing : ∀ other ∈ process.syncingAccounts,
      other = id ∨ other ∈ (s.processes host).syncingAccounts)
    (running : process.running = (s.processes host).running) :
    Transition s event (commitStart (setProcess s host process) host id acc)
  | rollback {id : Nat} (starting : (s.processes host).phase = .starting id monitors)
    (ready : process.phase = .ready)
    (syncing : ∀ other ∈ process.syncingAccounts,
      other ∈ (s.processes host).syncingAccounts ∨ added = true) :
    Transition s (.rollback host added caught) (unlock (setProcess s host process) id)
  | release {id : Nat} {read : Account} (stopped : (s.processes host).phase = .stopped id read)
    (own : read.syncHost = some host) (unlocked : s.locks id = none) (ready : process.phase = .ready)
    (syncing : ∀ other ∈ process.syncingAccounts,
      other ≠ id ∧ other ∈ (s.processes host).syncingAccounts)
    (running : process.running = (s.processes host).running) :
    Transition s (.advance host) (commitAgain (commit (setProcess s host process) id read
      { read with syncHost := none }) id read { read with syncHost := none })

section
variable {s next : State} {event : Event} {host : String} {id : Nat} {process : Process}

theorem Transition.local (quiet : Quiet s host process s.sharedQueue) :
    Transition s event (setProcess s host process) := .quiet quiet

/-- A step before which the process has no account in hand. -/
theorem quiet_of_not_handles (phase : ∀ id, ¬ Handles (s.processes host) id)
    (starting : ∀ id monitors, process.phase ≠ .starting id monitors)
    (stopped : ∀ id read, process.phase = .stopped id read → s.accounts id = some read)
    (syncing : ∀ id ∈ process.syncingAccounts, id ∈ (s.processes host).syncingAccounts)
    (running : ∀ monitor ∈ process.running, monitor ∈ (s.processes host).running) :
    Quiet s host process s.sharedQueue where
  starting id monitors now := absurd now (starting id monitors)
  stopped id read phase := .inr (stopped id read phase)
  syncing := syncing
  running _ _ runs := .inl (running _ runs)
  keeps_starting id monitors before := absurd (.inr (.inr ⟨monitors, before⟩)) (phase id)
  hands id held := .inl (held.resolve_right (phase id))

theorem not_handles (phase : process.phase = now) (claiming : ∀ id, now ≠ .claiming id)
    (declining : ∀ id, now ≠ .declining id) (starting : ∀ id monitors, now ≠ .starting id monitors)
    (id : Nat) : ¬ Handles process id := by
  rw [Handles, phase]
  rintro (same | same | ⟨monitors, same⟩)
  · exact claiming id same
  · exact declining id same
  · exact starting id monitors same

/-- A process with nothing in hand does something else that keeps its phase `ready`. -/
theorem quiet_of_ready (now : (s.processes host).phase = .ready) (ready : process.phase = .ready)
    (syncing : process.syncingAccounts = (s.processes host).syncingAccounts)
    (running : process.running = (s.processes host).running) :
    Quiet s host process s.sharedQueue := by
  apply quiet_of_not_handles (not_handles now nofun nofun nofun)
  · rw [ready]
    exact nofun
  · rw [ready]
    exact nofun
  · rw [syncing]
    exact fun _ member => member
  · rw [running]
    exact fun _ member => member

theorem poll_transition (polled : poll s host startAccounts = some next) :
    Transition s event next := by
  simp only [poll] at polled
  split at polled
  · rename_i idle
    cases polled
    exact .local (quiet_of_ready idle.1 idle.1 rfl rfl)
  · cases polled

theorem receive_transition (received : receive s host pendingAvgsOverThreshold = some next) :
    Transition s event next := by
  simp only [receive] at received
  split at received
  · cases received
  · rename_i first rest queue
    split at received
    · rename_i idle
      cases received
      apply Transition.quiet
      constructor
      · intro id monitors phase
        split at phase <;> cases phase
      · intro id read phase
        split at phase <;> cases phase
      · exact fun _ member => member
      · exact fun _ _ runs => .inl runs
      · intro id monitors phase
        rw [idle.1] at phase
        cases phase
      · rintro id (queued | handled)
        · rw [queue] at queued
          rcases List.mem_cons.mp queued with rfl | later
          · refine .inr ?_
            split
            · exact .inl rfl
            · exact .inr (.inl rfl)
          · exact .inl later
        · exact absurd handled (not_handles idle.1 nofun nofun nofun id)
    · cases received

theorem call_transition (called : call s host stopAccounts = some next) : Transition s event next := by
  simp only [call] at called
  split at called
  · rename_i id agenda ready calls
    split at called
    · cases called
      exact .local (quiet_of_ready ready ready rfl rfl)
    · exact .startSync (.inl ready) called
  · rename_i startAccounts calls ready _
    split at called
    · cases called
      exact .local (quiet_of_ready ready ready rfl rfl)
    · cases called
  · rename_i id agenda ready calls
    cases called
    apply Transition.local
    apply quiet_of_not_handles (not_handles ready nofun nofun nofun)
    · exact nofun
    · exact nofun
    · exact fun _ member => member
    · exact fun _ member => member
  · cases called

/-- The process goes on with the start of the account. -/
theorem quiet_starting {before after : List Monitor} (now : (s.processes host).phase = .starting id before)
    (later : process.phase = .starting id after)
    (syncing : process.syncingAccounts = (s.processes host).syncingAccounts)
    (running : ∀ number other, (number, other) ∈ process.running →
      (number, other) ∈ (s.processes host).running ∨ other = id) :
    Quiet s host process s.sharedQueue where
  starting other monitors phase := by
    rw [later] at phase
    cases phase
    exact ⟨before, now⟩
  stopped other read phase := by
    rw [later] at phase
    cases phase
  syncing other member := syncing ▸ member
  running number other runs := by
    rcases running number other runs with already | rfl
    · exact .inl already
    · exact .inr ⟨after, later⟩
  keeps_starting other monitors phase := by
    rw [now] at phase
    cases phase
    exact ⟨after, later⟩
  hands other held := by
    rcases held with queued | handled
    · exact .inl queued
    · rw [Handles, now] at handled
      rcases handled with same | same | ⟨_, same⟩
      · cases same
      · cases same
      · cases same
        exact .inr (.inr (.inr ⟨after, later⟩))

theorem monitor_transition (started : monitor s host wanted = some next) : Transition s event next := by
  simp only [monitor] at started
  split at started
  · rename_i id kind monitors starting
    cases started
    apply Transition.local
    split
    · apply quiet_starting starting
      · rfl
      · rfl
      · intro number other runs
        rcases List.mem_cons.mp runs with same | before
        · exact .inr (Prod.mk.inj same).2
        · exact .inl before
    · apply quiet_starting starting
      · rfl
      · rfl
      · exact fun _ _ runs => .inl runs
  · cases started

theorem fail_transition (failed : fail s host = some next) : Transition s event next := by
  simp only [fail] at failed
  split at failed
  · rename_i id monitors starting
    obtain ⟨acc, found, rfl⟩ := Option.map_eq_some_iff.mp failed
    exact .commitStart starting found rfl (fun _ member => .inr member) rfl
  · cases failed

theorem abandon_transition (abandoned : abandon s host caught = some next) :
    Transition s event next := by
  simp only [abandon] at abandoned
  split at abandoned
  · rename_i id read stopped
    cases abandoned
    apply Transition.local
    apply quiet_of_not_handles (not_handles stopped nofun nofun nofun)
    · exact nofun
    · exact nofun
    · exact fun _ member => member
    · exact fun _ member => member
  · cases abandoned

theorem kill_running (process : Process) (kind : Monitor) (id : Nat) :
    ∀ monitor ∈ (kill process kind id).running, monitor ∈ process.running := by
  unfold kill
  split
  · exact fun _ member => member
  · exact fun _ member => (List.mem_filter.mp member).1

theorem kill_frame (process : Process) (kind : Monitor) (id : Nat) :
    (kill process kind id).syncingAccounts = process.syncingAccounts := by
  unfold kill
  split <;> rfl

theorem advance_transition (advanced : advance s host = some next) :
    Transition s (.advance host) next := by
  simp only [advance] at advanced
  split at advanced
  · cases advanced
  · rename_i id claiming
    have same : setProcess s host { s.processes host with agenda := (s.processes host).agenda } = s := by
      simp only [setProcess, Function.update_eq_self]
    exact .startSync (.inr claiming) (same.symm ▸ advanced)
  · rename_i id declining
    cases advanced
    apply Transition.quiet
    constructor
    · exact nofun
    · exact nofun
    · exact fun _ member => member
    · exact fun _ _ runs => .inl runs
    · intro _ _ phase
      rw [declining] at phase
      cases phase
    · rintro other (queued | handled)
      · exact .inl (List.mem_append_left _ queued)
      · rw [Handles, declining] at handled
        rcases handled with same | same | ⟨_, same⟩
        · cases same
        · cases same
          exact .inl (List.mem_append_right _ List.mem_cons_self)
        · cases same
  · cases advanced
  · rename_i id starting
    obtain ⟨acc, found, rfl⟩ := Option.map_eq_some_iff.mp advanced
    refine .commitStart starting found rfl ?_ rfl
    exact fun _ member => List.mem_cons.mp member
  · rename_i id kind monitors stopping
    cases advanced
    apply Transition.local
    apply quiet_of_not_handles (not_handles stopping nofun nofun nofun)
    · exact nofun
    · exact nofun
    · rw [kill_frame]
      exact fun _ member => member
    · exact kill_running _ kind id
  · rename_i id stopping
    split at advanced
    · cases advanced
      apply Transition.local
      apply quiet_of_not_handles (not_handles stopping nofun nofun nofun)
      · exact nofun
      · exact nofun
      · exact fun _ member => member
      · exact fun _ member => member
    · rename_i acc found
      cases advanced
      apply Transition.local
      apply quiet_of_not_handles (not_handles stopping nofun nofun nofun)
      · exact nofun
      · rintro _ _ ⟨⟩
        exact found
      · exact fun _ member => member
      · exact fun _ member => member
  · rename_i id read stopped
    split at advanced
    · rename_i others
      cases advanced
      apply Transition.local
      apply quiet_of_not_handles (not_handles stopped nofun nofun nofun)
      · exact nofun
      · exact nofun
      · exact fun _ member => (List.mem_filter.mp member).1
      · exact fun _ member => member
    · rename_i acc own
      split at advanced
      · cases advanced
      · rename_i unlocked
        cases advanced
        unfold Account.syncStopped at own
        split at own
        · rename_i owner
          cases own
          refine .release stopped owner ?_ rfl ?_ rfl
          · exact Option.not_isSome_iff_eq_none.mp unlocked
          · intro other member
            obtain ⟨before, different⟩ := List.mem_filter.mp member
            exact ⟨by simpa using different, before⟩
        · cases own

theorem rollback_transition (rolled : rollback s host added caught = some next) :
    Transition s (.rollback host added caught) next := by
  simp only [rollback] at rolled
  split at rolled
  · rename_i id monitors starting
    split at rolled
    · cases rolled
    · cases rolled
      refine .rollback starting rfl ?_
      intro other member
      cases added with
      | true => exact .inr rfl
      | false => exact .inl member
  · cases rolled

/-- Each step is one of the transitions. -/
theorem step_transition (stepped : step s event = some next) : Transition s event next := by
  cases event with
  | read id =>
    obtain ⟨acc, found, rfl⟩ := Option.map_eq_some_iff.mp stepped
    exact .read found
  | update session syncShouldRun desiredSyncHost =>
    obtain ⟨⟨id, read⟩, opened, stepped⟩ := Option.bind_eq_some_iff.mp stepped
    simp only at stepped
    split at stepped
    · cases stepped
    · rename_i unlocked
      cases stepped
      exact .update opened (by simpa using unlocked)
  | create id syncShouldRun desiredSyncHost =>
    simp only [step] at stepped
    split at stepped
    · cases stepped
    · rename_i absent
      cases stepped
      exact .create (by simpa using absent)
  | poll host startAccounts => exact poll_transition stepped
  | receive host pendingAvgsOverThreshold => exact receive_transition stepped
  | call host stopAccounts => exact call_transition stepped
  | monitor host wanted => exact monitor_transition stepped
  | fail host => exact fail_transition stepped
  | rollback host added caught => exact rollback_transition stepped
  | abandon host caught => exact abandon_transition stepped
  | advance host => exact advance_transition stepped
  | finish host number =>
    cases stepped
    apply Transition.local
    constructor
    · exact fun id monitors phase => ⟨monitors, phase⟩
    · exact fun id read phase => .inl phase
    · exact fun _ member => member
    · exact fun _ _ runs => .inl (List.mem_filter.mp runs).1
    · exact fun id monitors phase => ⟨monitors, phase⟩
    · exact fun _ held => held

theorem startSync_cases (started : startSync s host id = some next) :
    next = setProcess s host { s.processes host with phase := .ready } ∧
        (∀ acc, s.accounts id = some acc → acc.startable host →
          id ∈ (s.processes host).syncingAccounts) ∨
      s.locks id = none ∧ (∃ acc, s.accounts id = some acc ∧ acc.startable host) ∧
        next = { setProcess s host { s.processes host with phase := .starting id Monitor.all } with
          locks := Function.update s.locks id (some host) } := by
  unfold startSync at started
  simp only [Option.isSome_iff_ne_none, ne_eq] at started
  split at started
  · cases started
  · rename_i unlocked
    split at started
    · rename_i missing
      cases started
      refine .inl ⟨rfl, ?_⟩
      intro acc found
      rw [missing] at found
      cases found
    · rename_i acc found
      split at started
      · rename_i startable
        cases started
        simp only [Bool.and_eq_true] at startable
        exact .inr ⟨not_not.mp unlocked, ⟨acc, found, startable.1⟩, rfl⟩
      · rename_i declined
        cases started
        refine .inl ⟨rfl, ?_⟩
        intro _ same startable
        rw [found] at same
        cases same
        simpa [startable] using declined

end

end SyncService
end SyncEngine
