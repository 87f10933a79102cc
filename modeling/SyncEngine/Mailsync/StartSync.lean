import SyncEngine.Mailsync.SyncService

/-! One process that starts and stops the monitors of accounts, and what an exception in `start_sync` leaves
behind in it. -/
namespace SyncEngine.StartSync
open SyncService (Account Monitor Call maxAccountsPerProcess)

/-- An account, with what `provider_info` says of its provider. -/
structure Row where
  account : Account
  syncEmail : Bool
  syncContacts : Bool
  syncEvents : Bool
  contacts : Bool
  events : Bool

def Row.wants (row : Row) : Monitor → Bool
  | .email => row.syncEmail
  | .contacts => row.contacts && row.syncContacts
  | .events => row.events && row.syncEvents

/-- A monitor that was started and has not ended. -/
@[ext]
structure Live where
  number : Nat
  kind : Monitor
  id : Nat
deriving DecidableEq

/-- `monitors` are the three dictionaries. Each monitor has the number it got when it was `created`. -/
structure Process where
  syncingAccounts : List Nat
  monitors : Monitor → Nat → Option Nat
  running : List Live
  created : Nat

/-- `agenda` are the calls that `poll`, or `poll_shared_queue`, still has to make. -/
structure State where
  ids : List Nat
  rows : Nat → Option Row
  process : Process
  agenda : List Call

/-! ## Starting -/

/-- Where an exception happens in `start_sync`: before the account is accepted, up to the entry of a monitor in
its dictionary, in `start`, in `sync_started`, or in `commit` and what is logged after it. -/
inductive Point
  | reading
  | making (kind : Monitor)
  | starting (kind : Monitor)
  | recording
  | committing (durable : Bool)
deriving DecidableEq

/-- How a call of `start_sync` goes. `caught` if the exception is an `Exception`, `scopeFails` if the commit at
the end of the scope raises, `operational` if `poll` goes on after what is raised, and `ended` for the new
monitors that end before the call does. -/
structure Course where
  fault : Option Point
  caught : Bool
  scopeFails : Bool
  operational : Bool
  ended : Monitor → Bool

inductive Answer
  | returned (value : Bool)
  | raised
deriving DecidableEq

/-- `session_scope` commits when its body is left without an exception. -/
def Course.leave (course : Course) (value : Bool) : Answer :=
  if course.scopeFails then .raised else .returned value

/-- A monitor in its dictionary, which need not be the first one there. -/
def Process.make (process : Process) (kind : Monitor) (id : Nat) : Process :=
  { process with
    monitors := Function.update process.monitors kind
      (Function.update (process.monitors kind) id (some process.created))
    created := process.created + 1 }

def Process.start (process : Process) (kind : Monitor) (id : Nat) : Process :=
  { process.make kind id with running := ⟨process.created, kind, id⟩ :: process.running }

/-- The monitors one after the other, and whether no exception happens among them. -/
def startMonitors (row : Row) (id : Nat) (fault : Option Point) : List Monitor → Process → Process × Bool
  | [], process => (process, true)
  | kind :: kinds, process =>
    if fault = some (.making kind) then (process, false)
    else if row.wants kind then
      if fault = some (.starting kind) then (process.make kind id, false)
      else startMonitors row id fault kinds (process.start kind id)
    else startMonitors row id fault kinds process

structure Tried where
  process : Process
  committed : Bool
  succeeded : Bool

/-- The body of the `try` -/
def attempt (row : Row) (id : Nat) (fault : Option Point) (process : Process) : Tried :=
  let started := startMonitors row id fault Monitor.all process
  if !started.2 || fault = some .recording then ⟨started.1, false, false⟩
  else
    let process := { started.1 with syncingAccounts := id :: started.1.syncingAccounts }
    match fault with
    | some (.committing durable) => ⟨process, durable, false⟩
    | _ => ⟨process, true, true⟩

/-- A commit that fails leaves nothing for the scope to commit. -/
def Point.rollsBack : Point → Bool
  | .committing _ => true
  | _ => false

def Process.ends (process : Process) (since : Nat) (ended : Monitor → Bool) : Process :=
  { process with running := process.running.filter fun live => live.number < since || !ended live.kind }

def startSync (host : String) (s : State) (id : Nat) (course : Course) : State × Answer :=
  if course.fault = some .reading then (s, .raised)
  else match s.rows id with
  | none => (s, course.leave false)
  | some row =>
    if row.account.startable host && id ∉ s.process.syncingAccounts then
      let tried := attempt row id course.fault s.process
      let answer := if tried.succeeded then course.leave true
        else if course.caught then course.leave false else .raised
      -- `return False` in the handler leaves the scope, which commits `sync_host`
      let owned := tried.committed || answer = .returned false && !course.fault.any Point.rollsBack
      ({ s with
        rows := if owned then
            Function.update s.rows id (some { row with account.syncHost := some host })
          else s.rows
        process := tried.process.ends s.process.created course.ended }, answer)
    else (s, course.leave false)

/-! ## Stopping -/

def Process.kill (process : Process) (id : Nat) (kind : Monitor) : Process :=
  match process.monitors kind id with
  | none => process
  | some number => { process with
      running := process.running.filter fun live => live.number ≠ number
      monitors := Function.update process.monitors kind (Function.update (process.monitors kind) id none) }

def Process.discard (process : Process) (id : Nat) : Process :=
  { process with syncingAccounts := process.syncingAccounts.filter (· ≠ id) }

/-- How the database takes part in a call of `stop_sync`. -/
inductive Halt
  | reading
  | committing (durable : Bool)
  | scopeFails
  | fine
deriving DecidableEq

/-- Whether it raises is the second part. -/
def stopSync (host : String) (s : State) (id : Nat) (halt : Halt) : State × Bool :=
  let killed := Monitor.all.foldl (fun process => process.kill id) s.process
  if halt = .reading then ({ s with process := killed }, true)
  else match s.rows id with
  | none => ({ s with process := killed }, true)
  | some row =>
    match row.account.syncStopped host with
    | none => ({ s with process := killed.discard id }, halt ≠ .fine)
    | some acc =>
      let rows := Function.update s.rows id (some { row with account := acc })
      match halt with
      | .committing durable => ({ s with process := killed, rows := if durable then rows else s.rows }, true)
      | _ => ({ s with process := killed.discard id, rows }, halt ≠ .fine)

/-! ## Polls -/

/-- `update` is a change by another program, and `finish` the end of a monitor. A process takes up its agenda
from `poll`, or from an event of the shared queue that it claims. -/
inductive Event
  | update (id : Nat) (row : Option Row)
  | finish (number : Nat)
  | poll (startAccounts : List Nat)
  | receive (id : Nat)
  | startSync (course : Course)
  | accountIdsOwned (stopAccounts : List Nat)
  | stopSync (operational : Bool) (halt : Halt)

/-- `poll` catches an `OperationalError`, and leaves the rest after another exception. -/
def State.afterCall (s : State) (agenda : List Call) (goesOn : Bool) : State :=
  { s with agenda := if goesOn then agenda else [] }

def step (host : String) (s : State) : Event → Option State
  | .update id row => some { s with
      ids := if id ∈ s.ids then s.ids else s.ids ++ [id], rows := Function.update s.rows id row }
  | .finish number => some { s with
      process.running := s.process.running.filter fun live => live.number ≠ number }
  | .poll startAccounts =>
    if s.agenda = [] ∧ startAccounts.Perm (s.ids.filter fun id => (s.rows id).any (·.account.toSync host)) then
      some { s with agenda := startAccounts.map .startSync ++ [.accountIdsOwned startAccounts] }
    else none
  | .receive id =>
    if s.agenda = [] ∧ s.process.syncingAccounts.length < maxAccountsPerProcess then
      some { s with agenda := [.startSync id] }
    else none
  | .startSync course =>
    match s.agenda with
    | .startSync id :: agenda =>
      if id ∈ s.process.syncingAccounts then some { s with agenda }
      else
        let called := startSync host s id course
        some (called.1.afterCall agenda (called.2 ≠ .raised || course.operational))
    | _ => none
  | .accountIdsOwned stopAccounts =>
    match s.agenda with
    | .accountIdsOwned startAccounts :: _ =>
      if stopAccounts.Perm (s.ids.filter fun id => id ∉ startAccounts ∧
          (s.rows id).any (·.account.syncHost == some host)) then
        some { s with agenda := stopAccounts.map .stopSync }
      else none
    | _ => none
  | .stopSync operational halt =>
    match s.agenda with
    | .stopSync id :: agenda =>
      let called := stopSync host s id halt
      some (called.1.afterCall agenda (!called.2 || operational))
    | _ => none

/-- A process that was just started. -/
def State.new (ids : List Nat) (rows : Nat → Option Row) : State :=
  ⟨ids, rows, ⟨[], fun _ _ => none, [], 0⟩, []⟩

/-! ## The property -/

/-- A call of `start_sync` that does not return `True` leaves no new monitor running. -/
def Quiet (host : String) (s : State) (event : Event) (next : State) : Prop :=
  ∀ id course, event = .startSync course → s.agenda.head? = some (.startSync id) →
    (startSync host s id course).2 ≠ .returned true → ∀ live ∈ next.process.running, live ∈ s.process.running

/-- One live monitor of each kind for an account. -/
def Single (process : Process) : Prop :=
  ∀ kind id, (process.running.filter fun live => live.kind = kind ∧ live.id = id).length ≤ 1

/-- The exception happens at this kind of monitor. -/
def Row.stopsAt (row : Row) (fault : Option Point) (kind : Monitor) : Bool :=
  fault = some (.making kind) || row.wants kind && fault = some (.starting kind)

/-- The monitors that are started, of those that are still to come. -/
def Row.startedOf (row : Row) (fault : Option Point) (kinds : List Monitor) : List Monitor :=
  (kinds.takeWhile fun kind => !row.stopsAt fault kind).filter row.wants

/-- An exception happens among the monitors or after them. -/
def Row.fails (row : Row) (course : Course) : Bool :=
  course.scopeFails || Monitor.all.any (row.stopsAt course.fault) ||
    course.fault.any fun point => point = .recording || point.rollsBack

/-- `start_sync` goes on to start the account. -/
structure Accepted (host : String) (s : State) (id : Nat) (course : Course) (row : Row) : Prop where
  read : course.fault ≠ some .reading
  found : s.rows id = some row
  startable : row.account.startable host = true
  idle : id ∉ s.process.syncingAccounts

/-- An exception happens while a monitor that the call has started is running. -/
def Spoils (host : String) (s : State) (id : Nat) (course : Course) : Prop :=
  ∃ row, Accepted host s id course row ∧ row.fails course = true ∧
    ∃ kind ∈ row.startedOf course.fault Monitor.all, course.ended kind = false

/-- No exception happens in `start_sync` after a monitor was started, unless the monitor has ended. -/
def Clean (host : String) (s : State) (event : Event) : Prop :=
  ∀ id course, event = .startSync course → s.agenda.head? = some (.startSync id) → ¬Spoils host s id course

/-! ## The monitors of a process -/

/-- What runs is what the dictionaries hold. -/
structure Tracked (process : Process) : Prop where
  referred : ∀ live ∈ process.running, process.monitors live.kind live.id = some live.number
  numbers : ∀ live ∈ process.running, live.number < process.created
  nodup : process.running.Nodup

section
variable {row : Row} {fault : Option Point} {process : Process} {id : Nat} {kind : Monitor}
  {kinds : List Monitor}

/-- The dictionary of the kind refers to one monitor. -/
theorem Tracked.unique (tracked : Tracked process) {first second : Live} (runs : first ∈ process.running)
    (runs' : second ∈ process.running) (kind : first.kind = second.kind) (id : first.id = second.id) :
    first = second := by
  have number := tracked.referred second runs'
  rw [← kind, ← id, tracked.referred first runs] at number
  exact Live.ext (Option.some.inj number) kind id

theorem Tracked.single (tracked : Tracked process) : Single process := by
  intro kind id
  have nodup := tracked.nodup.filter fun live => live.kind = kind ∧ live.id = id
  cases found : process.running.filter fun live => live.kind = kind ∧ live.id = id with
  | nil => exact Nat.zero_le 1
  | cons first rest =>
    cases rest with
    | nil => exact le_rfl
    | cons second rest =>
      have both (live : Live) (member : live ∈ first :: second :: rest) :
          live ∈ process.running ∧ live.kind = kind ∧ live.id = id := by
        rw [← found] at member
        exact ⟨(List.mem_filter.mp member).1, of_decide_eq_true (List.mem_filter.mp member).2⟩
      obtain ⟨runs, sameKind, sameId⟩ := both first (by simp)
      obtain ⟨runs', sameKind', sameId'⟩ := both second (by simp)
      obtain rfl := tracked.unique runs runs' (sameKind.trans sameKind'.symm) (sameId.trans sameId'.symm)
      rw [found] at nodup
      simp at nodup

/-- Fewer monitors run. -/
theorem Tracked.of_sublist (tracked : Tracked process) {fewer : List Live}
    (sub : fewer.Sublist process.running) : Tracked { process with running := fewer } where
  referred live runs := tracked.referred live (sub.subset runs)
  numbers live runs := tracked.numbers live (sub.subset runs)
  nodup := tracked.nodup.sublist sub

/-- An entry of a dictionary may be replaced where no monitor of that kind runs for the account. -/
theorem Tracked.make (tracked : Tracked process)
    (free : ∀ live ∈ process.running, live.id = id → live.kind ≠ kind) : Tracked (process.make kind id) where
  referred live runs := by
    rw [← tracked.referred live runs]
    by_cases sameKind : live.kind = kind
    · have other : live.id ≠ id := fun sameId => free live runs sameId sameKind
      simp [Process.make, sameKind, other]
    · simp [Process.make, sameKind]
  numbers live runs := by
    have below := tracked.numbers live runs
    simp only [Process.make]
    omega
  nodup := tracked.nodup

theorem Tracked.start (tracked : Tracked process)
    (free : ∀ live ∈ process.running, live.id = id → live.kind ≠ kind) : Tracked (process.start kind id) where
  referred live runs := by
    rcases List.mem_cons.mp runs with rfl | before
    · simp [Process.start, Process.make]
    · exact (tracked.make free).referred live before
  numbers live runs := by
    rcases List.mem_cons.mp runs with rfl | before
    · exact Nat.lt_succ_self _
    · exact (tracked.make free).numbers live before
  nodup := by
    refine List.nodup_cons.mpr ⟨?_, tracked.nodup⟩
    intro runs
    exact absurd (tracked.numbers _ runs) (lt_irrefl _)

theorem startMonitors_tracked (tracked : Tracked process) (nodup : kinds.Nodup)
    (free : ∀ live ∈ process.running, live.id = id → live.kind ∉ kinds) :
    Tracked (startMonitors row id fault kinds process).1 := by
  induction kinds generalizing process with
  | nil => exact tracked
  | cons kind kinds ih =>
    obtain ⟨fresh, rest⟩ := List.nodup_cons.mp nodup
    have freeKind : ∀ live ∈ process.running, live.id = id → live.kind ≠ kind := by
      intro live runs named same
      exact free live runs named (same ▸ List.mem_cons_self)
    have freeKinds : ∀ live ∈ process.running, live.id = id → live.kind ∉ kinds := by
      intro live runs named later
      exact free live runs named (List.mem_cons_of_mem kind later)
    rw [startMonitors]
    split_ifs
    · exact tracked
    · exact tracked.make freeKind
    · apply ih (tracked.start freeKind) rest
      intro live runs named
      rcases List.mem_cons.mp runs with rfl | before
      · exact fresh
      · exact freeKinds live before named
    · exact ih tracked rest freeKinds

theorem startMonitors_of_stopsAt (stops : row.stopsAt fault kind = true) :
    ∃ made, startMonitors row id fault (kind :: kinds) process = (made, false) ∧
      made.running = process.running ∧ made.syncingAccounts = process.syncingAccounts := by
  rw [startMonitors]
  split_ifs with making wants starting
  · exact ⟨process, rfl, rfl, rfl⟩
  · exact ⟨process.make kind id, rfl, rfl, rfl⟩
  · simp [Row.stopsAt, making, starting] at stops
  · simp [Row.stopsAt, making, wants] at stops

theorem startMonitors_of_passes (passes : row.stopsAt fault kind = false) :
    startMonitors row id fault (kind :: kinds) process = startMonitors row id fault kinds
      (if row.wants kind then process.start kind id else process) := by
  obtain ⟨making, starting⟩ : fault ≠ some (.making kind) ∧
      (row.wants kind = true → fault ≠ some (.starting kind)) := by
    simpa [Row.stopsAt] using passes
  rw [startMonitors, if_neg making]
  by_cases wants : row.wants kind
  · rw [if_pos wants, if_neg (starting wants), if_pos wants]
  · rw [if_neg wants, if_neg wants]

theorem startedOf_of_stopsAt (stops : row.stopsAt fault kind = true) :
    row.startedOf fault (kind :: kinds) = [] := by
  simp [Row.startedOf, stops]

theorem startedOf_of_passes (passes : row.stopsAt fault kind = false) :
    row.startedOf fault (kind :: kinds) =
      if row.wants kind then kind :: row.startedOf fault kinds else row.startedOf fault kinds := by
  rw [Row.startedOf, List.takeWhile_cons_of_pos (by simp [passes]), List.filter_cons]
  rfl

/-- What runs afterwards and is new has been started for the account. -/
theorem startMonitors_new {live : Live} (runs : live ∈ (startMonitors row id fault kinds process).1.running) :
    live ∈ process.running ∨
      process.created ≤ live.number ∧ live.id = id ∧ live.kind ∈ row.startedOf fault kinds := by
  induction kinds generalizing process with
  | nil => exact .inl runs
  | cons kind kinds ih =>
    cases stops : row.stopsAt fault kind with
    | true =>
      obtain ⟨made, stopped, running, -⟩ := startMonitors_of_stopsAt stops
      rw [stopped, running] at runs
      exact .inl runs
    | false =>
      rw [startMonitors_of_passes stops] at runs
      rw [startedOf_of_passes stops]
      split_ifs at runs ⊢ with wants
      · rcases ih runs with member | ⟨later, named, started⟩
        · rcases List.mem_cons.mp member with rfl | before
          · exact .inr ⟨le_rfl, rfl, List.mem_cons_self⟩
          · exact .inl before
        · exact .inr ⟨Nat.le_of_succ_le later, named, List.mem_cons_of_mem kind started⟩
      · exact ih runs

theorem startMonitors_keeps {live : Live} (runs : live ∈ process.running) :
    live ∈ (startMonitors row id fault kinds process).1.running := by
  induction kinds generalizing process with
  | nil => exact runs
  | cons kind kinds ih =>
    cases stops : row.stopsAt fault kind with
    | true =>
      obtain ⟨made, stopped, running, -⟩ := startMonitors_of_stopsAt stops
      rw [stopped, running]
      exact runs
    | false =>
      rw [startMonitors_of_passes stops]
      split_ifs
      · exact ih (List.mem_cons_of_mem _ runs)
      · exact ih runs

theorem startMonitors_started (started : kind ∈ row.startedOf fault kinds) :
    ∃ live ∈ (startMonitors row id fault kinds process).1.running,
      process.created ≤ live.number ∧ live.kind = kind := by
  induction kinds generalizing process with
  | nil => cases started
  | cons first kinds ih =>
    cases stops : row.stopsAt fault first with
    | true =>
      rw [startedOf_of_stopsAt stops] at started
      cases started
    | false =>
      rw [startMonitors_of_passes stops]
      rw [startedOf_of_passes stops] at started
      split_ifs at started ⊢ with wants
      · rcases List.mem_cons.mp started with rfl | later
        · exact ⟨_, startMonitors_keeps List.mem_cons_self, le_rfl, rfl⟩
        · obtain ⟨live, runs, number, same⟩ := @ih (process.start first id) later
          exact ⟨live, runs, Nat.le_of_succ_le number, same⟩
      · exact ih started

/-- Whether no exception happens among the monitors. -/
theorem startMonitors_done :
    (startMonitors row id fault kinds process).2 = !kinds.any (row.stopsAt fault) := by
  induction kinds generalizing process with
  | nil => rfl
  | cons kind kinds ih =>
    cases stops : row.stopsAt fault kind with
    | true =>
      obtain ⟨made, stopped, -⟩ := startMonitors_of_stopsAt stops
      rw [stopped]
      simp [stops]
    | false => simp [startMonitors_of_passes stops, ih, stops]

theorem startMonitors_syncing :
    (startMonitors row id fault kinds process).1.syncingAccounts = process.syncingAccounts := by
  induction kinds generalizing process with
  | nil => rfl
  | cons kind kinds ih =>
    cases stops : row.stopsAt fault kind with
    | true =>
      obtain ⟨made, stopped, -, syncing⟩ := startMonitors_of_stopsAt stops
      rw [stopped, syncing]
    | false =>
      rw [startMonitors_of_passes stops, ih]
      split_ifs <;> rfl

theorem attempt_process :
    (attempt row id fault process).process = (startMonitors row id fault Monitor.all process).1 ∨
    (attempt row id fault process).process = { (startMonitors row id fault Monitor.all process).1 with
      syncingAccounts := id :: (startMonitors row id fault Monitor.all process).1.syncingAccounts } := by
  dsimp only [attempt]
  split_ifs
  · exact .inl rfl
  · split <;> exact .inr rfl

theorem attempt_running : (attempt row id fault process).process.running =
    (startMonitors row id fault Monitor.all process).1.running := by
  rcases attempt_process with same | same <;> rw [same]

theorem attempt_succeeded : (attempt row id fault process).succeeded =
    !(Monitor.all.any (row.stopsAt fault) || fault.any fun point => point = .recording || point.rollsBack) := by
  dsimp only [attempt]
  rw [startMonitors_done]
  cases Monitor.all.any (row.stopsAt fault) with
  | true => rfl
  | false =>
    cases fault with
    | none => rfl
    | some point => cases point <;> rfl

theorem attempt_syncing (succeeded : (attempt row id fault process).succeeded = true) :
    id ∈ (attempt row id fault process).process.syncingAccounts := by
  revert succeeded
  dsimp only [attempt]
  split_ifs
  · exact nofun
  · split
    · exact nofun
    · exact fun _ => List.mem_cons_self

theorem attempt_keeps_syncing {other : Nat} (member : other ∈ process.syncingAccounts) :
    other ∈ (attempt row id fault process).process.syncingAccounts := by
  rcases attempt_process with same | same <;> rw [same]
  · rwa [startMonitors_syncing]
  · exact List.mem_cons_of_mem id (by rwa [startMonitors_syncing])

theorem attempt_tracked (tracked : Tracked process) (idle : ∀ live ∈ process.running, live.id ≠ id) :
    Tracked (attempt row id fault process).process := by
  have started : Tracked (startMonitors row id fault Monitor.all process).1 :=
    startMonitors_tracked tracked (by decide) fun live runs named => absurd named (idle live runs)
  rcases attempt_process with same | same <;> rw [same]
  · exact started
  · exact ⟨started.referred, started.numbers, started.nodup⟩

end

/-! ## One call -/

/-- Only accounts in `syncing_accounts` have monitors. -/
structure Sound (process : Process) : Prop extends Tracked process where
  syncing : ∀ live ∈ process.running, live.id ∈ process.syncingAccounts

section
variable {host : String} {s : State} {id : Nat} {course : Course} {row : Row}

theorem startSync_of_accepted (accepted : Accepted host s id course row) :
    (startSync host s id course).1.process =
        (attempt row id course.fault s.process).process.ends s.process.created course.ended ∧
      ((startSync host s id course).2 = .returned true ↔ row.fails course = false) := by
  have started : (row.account.startable host && decide (id ∉ s.process.syncingAccounts)) = true := by
    simp [accepted.startable, accepted.idle]
  rw [startSync, if_neg accepted.read]
  simp only [accepted.found, started, if_true, true_and]
  rw [Row.fails, attempt_succeeded, Bool.or_assoc]
  cases Monitor.all.any (row.stopsAt course.fault) ||
      course.fault.any fun point => point = .recording || point.rollsBack with
  | true => cases caught : course.caught <;> cases fails : course.scopeFails <;> simp [Course.leave, fails]
  | false => cases fails : course.scopeFails <;> simp [Course.leave, fails]

theorem startSync_of_not_accepted (declined : ∀ row, ¬Accepted host s id course row) :
    (startSync host s id course).1 = s ∧ (startSync host s id course).2 ≠ .returned true := by
  have left : course.leave false ≠ .returned true := by
    unfold Course.leave
    split <;> simp
  by_cases reading : course.fault = some .reading
  · rw [startSync, if_pos reading]
    exact ⟨rfl, nofun⟩
  · rw [startSync, if_neg reading]
    cases found : s.rows id with
    | none => exact ⟨rfl, left⟩
    | some row =>
      have refused : (row.account.startable host && decide (id ∉ s.process.syncingAccounts)) = false := by
        by_contra accepts
        simp only [Bool.not_eq_false, Bool.and_eq_true, decide_eq_true_eq] at accepts
        exact declined row ⟨reading, found, accepts.1, accepts.2⟩
      simp only [refused]
      exact ⟨rfl, left⟩

/-- A monitor that runs after the call ran before it, or was started by it and has not ended. -/
theorem startSync_running (accepted : Accepted host s id course row) {live : Live}
    (runs : live ∈ (startSync host s id course).1.process.running) :
    live ∈ s.process.running ∨ live.id = id ∧
      live.kind ∈ row.startedOf course.fault Monitor.all ∧ course.ended live.kind = false := by
  rw [(startSync_of_accepted accepted).1, Process.ends] at runs
  obtain ⟨runs, stays⟩ := List.mem_filter.mp runs
  rw [attempt_running] at runs
  rcases startMonitors_new runs with before | ⟨number, named, started⟩
  · exact .inl before
  · refine .inr ⟨named, started, ?_⟩
    simpa [Nat.not_lt.mpr number] using stays

theorem startSync_sound (sound : Sound s.process) (clean : ¬Spoils host s id course) :
    Sound (startSync host s id course).1.process := by
  by_cases accepts : ∃ row, Accepted host s id course row
  · obtain ⟨row, accepted⟩ := accepts
    have idle : ∀ live ∈ s.process.running, live.id ≠ id := by
      rintro live runs rfl
      exact accepted.idle (sound.syncing live runs)
    have tracked : Tracked (startSync host s id course).1.process := by
      rw [(startSync_of_accepted accepted).1]
      exact (attempt_tracked sound.toTracked idle).of_sublist List.filter_sublist
    refine ⟨tracked, ?_⟩
    intro live runs
    rcases startSync_running accepted runs with before | ⟨rfl, started, stays⟩
    · rw [(startSync_of_accepted accepted).1]
      exact attempt_keeps_syncing (sound.syncing live before)
    · have fine : row.fails course = false := by
        by_contra fails
        exact clean ⟨row, accepted, by simpa using fails, live.kind, started, stays⟩
      rw [(startSync_of_accepted accepted).1]
      apply attempt_syncing
      rw [attempt_succeeded]
      rw [Row.fails, Bool.or_assoc, Bool.or_eq_false_iff] at fine
      simpa using fine.2
  · rw [(startSync_of_not_accepted (not_exists.mp accepts)).1]
    exact sound

/-- The call leaves a new monitor running just when it is spoilt. -/
theorem startSync_quiet_iff (sound : Sound s.process) :
    ((startSync host s id course).2 ≠ .returned true →
      ∀ live ∈ (startSync host s id course).1.process.running, live ∈ s.process.running) ↔
        ¬Spoils host s id course := by
  by_cases accepts : ∃ row, Accepted host s id course row
  · obtain ⟨row, accepted⟩ := accepts
    rw [ne_eq, (startSync_of_accepted accepted).2]
    constructor
    · rintro quiet ⟨row', accepted', fails, kind, started, stays⟩
      obtain rfl : row = row' := Option.some.inj (accepted.found.symm.trans accepted'.found)
      obtain ⟨live, runs, number, rfl⟩ := @startMonitors_started row course.fault s.process id _ _ started
      have left : live ∈ (startSync host s id course).1.process.running := by
        rw [(startSync_of_accepted accepted).1, Process.ends, attempt_running]
        exact List.mem_filter.mpr ⟨runs, by simp [stays]⟩
      have before := sound.numbers live (quiet (by simp [fails]) live left)
      omega
    · intro clean fails live runs
      rcases startSync_running accepted runs with before | ⟨-, started, stays⟩
      · exact before
      · exact absurd ⟨row, accepted, by simpa using fails, live.kind, started, stays⟩ clean
  · have declined := startSync_of_not_accepted (not_exists.mp accepts)
    refine iff_of_true ?_ ?_
    · rw [declined.1]
      exact fun _ _ runs => runs
    · rintro ⟨row, accepted, -⟩
      exact accepts ⟨row, accepted⟩

end

section
variable {process : Process} {id : Nat} {kind : Monitor} {kinds : List Monitor}

theorem kill_running (tracked : Tracked process) {live : Live} (runs : live ∈ (process.kill id kind).running) :
    live ∈ process.running ∧ ¬(live.kind = kind ∧ live.id = id) := by
  cases found : process.monitors kind id with
  | none =>
    have before : live ∈ process.running := by rwa [Process.kill, found] at runs
    refine ⟨before, ?_⟩
    rintro ⟨rfl, rfl⟩
    rw [tracked.referred live before] at found
    cases found
  | some number =>
    rw [Process.kill, found] at runs
    obtain ⟨before, other⟩ := List.mem_filter.mp runs
    refine ⟨before, ?_⟩
    rintro ⟨rfl, rfl⟩
    rw [tracked.referred live before] at found
    simp [Option.some.inj found] at other

theorem Tracked.kill (tracked : Tracked process) : Tracked (process.kill id kind) where
  referred live runs := by
    obtain ⟨before, other⟩ := kill_running tracked runs
    rw [← tracked.referred live before, Process.kill]
    split
    · rfl
    · by_cases sameKind : live.kind = kind
      · have otherId : live.id ≠ id := fun sameId => other ⟨sameKind, sameId⟩
        simp [sameKind, otherId]
      · simp [sameKind]
  numbers live runs := by
    have below := tracked.numbers live (kill_running tracked runs).1
    rw [Process.kill]
    split <;> exact below
  nodup := by
    rw [Process.kill]
    split
    · exact tracked.nodup
    · exact tracked.nodup.filter _

@[simp] theorem kill_syncing : (process.kill id kind).syncingAccounts = process.syncingAccounts := by
  rw [Process.kill]
  split <;> rfl

/-- After all kinds are killed, no monitor of the account runs. -/
theorem killed_running (tracked : Tracked process) :
    Tracked (kinds.foldl (fun process => process.kill id) process) ∧
      ∀ live ∈ (kinds.foldl (fun process => process.kill id) process).running,
        live ∈ process.running ∧ ¬(live.kind ∈ kinds ∧ live.id = id) := by
  induction kinds generalizing process with
  | nil => exact ⟨tracked, fun live runs => ⟨runs, by simp⟩⟩
  | cons kind kinds ih =>
    obtain ⟨kept, others⟩ := @ih (process.kill id kind) tracked.kill
    refine ⟨kept, ?_⟩
    intro live runs
    obtain ⟨runs, later⟩ := others live runs
    obtain ⟨before, other⟩ := kill_running tracked runs
    refine ⟨before, ?_⟩
    rintro ⟨member, named⟩
    rcases List.mem_cons.mp member with same | member
    · exact other ⟨same, named⟩
    · exact later ⟨member, named⟩

theorem killed_syncing :
    (kinds.foldl (fun process => process.kill id) process).syncingAccounts = process.syncingAccounts := by
  induction kinds generalizing process with
  | nil => rfl
  | cons kind kinds ih => rw [List.foldl_cons, ih, kill_syncing]

theorem mem_all (kind : Monitor) : kind ∈ Monitor.all := by cases kind <;> decide

/-- `stop_sync` ends all monitors of the account, also when it raises afterwards. -/
theorem stopSync_cases (host : String) (s : State) (id : Nat) (halt : Halt) :
    (stopSync host s id halt).1.process = Monitor.all.foldl (fun process => process.kill id) s.process ∨
      (stopSync host s id halt).1.process =
        (Monitor.all.foldl (fun process => process.kill id) s.process).discard id := by
  dsimp only [stopSync]
  split_ifs
  · exact .inl rfl
  · split
    · exact .inl rfl
    · split
      · exact .inr rfl
      · split
        · exact .inl rfl
        · exact .inr rfl

theorem stopSync_sound {host : String} {s : State} {halt : Halt} (sound : Sound s.process) :
    Sound (stopSync host s id halt).1.process := by
  obtain ⟨tracked, others⟩ := @killed_running s.process id Monitor.all sound.toTracked
  have syncing : ∀ live ∈ (Monitor.all.foldl (fun process => process.kill id) s.process).running,
      live.id ∈ s.process.syncingAccounts := fun live runs => sound.syncing live (others live runs).1
  rcases stopSync_cases host s id halt with same | same <;> rw [same]
  · exact ⟨tracked, by rwa [killed_syncing]⟩
  · refine ⟨⟨tracked.referred, tracked.numbers, tracked.nodup⟩, ?_⟩
    intro live runs
    have other : live.id ≠ id := fun same => (others live runs).2 ⟨mem_all live.kind, same⟩
    have member := syncing live runs
    rw [Process.discard, killed_syncing]
    exact List.mem_filter.mpr ⟨member, by simpa using other⟩

end

/-! ## Runs -/

section
variable {host : String} {s next : State} {event : Event}

/-- Only a spoilt call of `start_sync` leaves a monitor of an account that is not in `syncing_accounts`. -/
theorem step_sound (sound : Sound s.process) (clean : Clean host s event)
    (stepped : step host s event = some next) : Sound next.process := by
  cases event with
  | update id row =>
    cases stepped
    exact sound
  | finish number =>
    cases stepped
    exact ⟨sound.toTracked.of_sublist List.filter_sublist,
      fun live runs => sound.syncing live (List.mem_filter.mp runs).1⟩
  | poll startAccounts | receive id =>
    obtain ⟨-, ⟨⟩⟩ := Option.ite_none_right_eq_some.mp stepped
    exact sound
  | startSync course =>
    simp only [step] at stepped
    split at stepped
    · rename_i id agenda calls
      split_ifs at stepped with already
      · cases stepped
        exact sound
      · cases stepped
        exact startSync_sound sound (clean id course rfl (by rw [calls]; rfl))
    · cases stepped
  | accountIdsOwned stopAccounts =>
    simp only [step] at stepped
    split at stepped
    · obtain ⟨-, ⟨⟩⟩ := Option.ite_none_right_eq_some.mp stepped
      exact sound
    · cases stepped
  | stopSync operational halt =>
    simp only [step] at stepped
    split at stepped
    · cases stepped
      exact stopSync_sound sound
    · cases stepped

/-- A call of `start_sync` leaves nothing just when it is not spoilt. -/
theorem quiet_iff (sound : Sound s.process) (stepped : step host s event = some next) :
    Quiet host s event next ↔ Clean host s event := by
  have called (id : Nat) (course : Course) (same : event = .startSync course)
      (head : s.agenda.head? = some (.startSync id)) :
      ((startSync host s id course).2 ≠ .returned true →
        ∀ live ∈ next.process.running, live ∈ s.process.running) ↔ ¬Spoils host s id course := by
    subst same
    obtain ⟨agenda, calls⟩ := List.head?_eq_some_iff.mp head
    simp only [step, calls] at stepped
    split_ifs at stepped with already
    · cases stepped
      refine iff_of_true (fun _ _ runs => runs) ?_
      rintro ⟨row, accepted, -⟩
      exact accepted.idle already
    · cases stepped
      exact startSync_quiet_iff sound
  constructor
  · exact fun quiet id course same head => (called id course same head).mp (quiet id course same head)
  · exact fun clean id course same head => (called id course same head).mpr (clean id course same head)

/-- In a run from the start of the process, each call of `start_sync` that does not return `True` leaves none of
its monitors running, and no account has two live monitors of a kind, just when no exception happens in
`start_sync` while a monitor that it has started is running. -/
theorem monitors_single_iff (ids : List Nat) (rows : Nat → Option Row) (events : List Event) :
    Runs.Each (step host) (fun s event next => Quiet host s event next ∧ Single next.process)
        (.new ids rows) events ↔
      Runs.Each (step host) (fun s event _ => Clean host s event) (.new ids rows) events := by
  apply Runs.each_iff_within (fun s => Sound s.process) (fun _ => True)
  · exact ⟨⟨nofun, nofun, List.nodup_nil⟩, nofun⟩
  · exact fun _ _ => trivial
  · exact fun s event next sound _ stepped clean => step_sound sound clean stepped
  · intro s event next sound _ stepped
    rw [quiet_iff sound stepped]
    refine and_iff_left_of_imp ?_
    exact fun clean => (step_sound sound clean stepped).toTracked.single

end

/-- An account with mail and contacts that process `a` is to sync. -/
def wanted : State := .new [1] fun id =>
  if id = 1 then some ⟨⟨true, none, some "a"⟩, true, true, false, true, false⟩ else none

/-- The contacts provider cannot be reached. -/
def unreachable : Course := ⟨some (.making .contacts), true, false, false, fun _ => false⟩

def fine : Course := ⟨none, true, false, false, fun _ => false⟩

/-- `start_sync` returns `False` with its mail monitor running, and the next poll starts a second one. -/
theorem mail_monitor_twice :
    ¬Runs.Each (step "a") (fun s event next => Quiet "a" s event next) wanted
      [.poll [1], .startSync unreachable] ∧
    ¬Runs.Each (step "a") (fun _ _ next => Single next.process) wanted
      [.poll [1], .startSync unreachable, .accountIdsOwned [], .poll [1], .startSync fine] := by
  constructor
  · intro quiet
    have left := ((quiet _ rfl).2 _ rfl).1 1 unreachable rfl rfl (by decide) ⟨0, .email, 1⟩ (by decide)
    revert left
    decide
  · intro single
    have many : Runs.Each (step "a") (fun _ _ next =>
        (next.process.running.filter fun live => live.kind = .email ∧ live.id = 1).length ≤ 1) wanted
          [.poll [1], .startSync unreachable, .accountIdsOwned [], .poll [1], .startSync fine] :=
      single.mono fun _ _ _ one => one .email 1
    revert many
    decide

end SyncEngine.StartSync
