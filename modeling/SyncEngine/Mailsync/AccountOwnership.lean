import SyncEngine.Mailsync.SyncService

/-! At most one process runs the monitors of an account, and it is the account's `sync_host`. -/
namespace SyncEngine
namespace SyncService
variable {s next : State} {host : String} {id : Nat}

def HostOf (s : State) (id : Nat) (host : String) : Prop :=
  ∃ acc, s.accounts id = some acc ∧ acc.syncHost = some host

theorem HostOf.unique {other : String} (first : HostOf s id host) (second : HostOf s id other) :
    host = other := by
  obtain ⟨acc, found, owner⟩ := first
  obtain ⟨_, same, other_owner⟩ := second
  rw [found] at same
  cases same
  exact Option.some.inj (owner.symm.trans other_owner)

/-- What the locks and the columns say of a process, as long as no `start_sync` is rolled back. -/
structure SoundAt (s : State) (host : String) (process : Process) : Prop where
  locked : ∀ id monitors, process.phase = .starting id monitors → s.locks id = some host
  startable : ∀ id monitors, process.phase = .starting id monitors →
    ∃ acc, s.accounts id = some acc ∧ acc.startable host
  stopped : ∀ id read, process.phase = .stopped id read → read.syncHost = some host → HostOf s id host
  syncing : ∀ id ∈ process.syncingAccounts, HostOf s id host

def Sound (s : State) : Prop := ∀ host, SoundAt s host (s.processes host)

/-- What a process with a lock or an account still finds as it was. -/
structure Keeps (s next : State) (host : String) : Prop where
  lock : ∀ id acc, s.locks id = some host → s.accounts id = some acc →
    next.locks id = some host ∧ next.accounts id = some acc
  owner : ∀ id, HostOf s id host → HostOf next id host

theorem Keeps.of_same (accounts : next.accounts = s.accounts) (locks : next.locks = s.locks) :
    Keeps s next host := by
  constructor
  · intro id acc held found
    exact ⟨locks ▸ held, accounts ▸ found⟩
  · rintro id ⟨acc, found, owner⟩
    exact ⟨acc, (congrFun accounts id).trans found, owner⟩

theorem SoundAt.mono {process : Process} (sound : SoundAt s host process) (keeps : Keeps s next host) :
    SoundAt next host process where
  locked id monitors phase := by
    obtain ⟨acc, found, _⟩ := sound.startable id monitors phase
    exact (keeps.lock id acc (sound.locked id monitors phase) found).1
  startable id monitors phase := by
    obtain ⟨acc, found, startable⟩ := sound.startable id monitors phase
    exact ⟨acc, (keeps.lock id acc (sound.locked id monitors phase) found).2, startable⟩
  stopped id read phase owner := keeps.owner id (sound.stopped id read phase owner)
  syncing id member := keeps.owner id (sound.syncing id member)

theorem SoundAt.of_ready {process : Process} (ready : process.phase = .ready)
    (syncing : ∀ id ∈ process.syncingAccounts, HostOf s id host) : SoundAt s host process := by
  constructor
  · intro _ _ phase
    rw [ready] at phase
    cases phase
  · intro _ _ phase
    rw [ready] at phase
    cases phase
  · intro _ _ phase
    rw [ready] at phase
    cases phase
  · exact syncing

theorem HostOf.update {other : Nat} (owner : HostOf s other host) (different : other ≠ id)
    (accounts : next.accounts = Function.update s.accounts id row) : HostOf next other host := by
  obtain ⟨acc, found, owns⟩ := owner
  exact ⟨acc, by rw [accounts, Function.update_of_ne different, found], owns⟩

/-- A step of one process, which leaves the others what they have. -/
theorem Sound.update (sound : Sound s) {process : Process}
    (processes : next.processes = Function.update s.processes host process)
    (mine : SoundAt next host process) (others : ∀ other ≠ host, Keeps s next other) : Sound next := by
  intro other
  rw [processes]
  by_cases same : other = host
  · subst same
    rw [Function.update_self]
    exact mine
  · rw [Function.update_of_ne same]
    exact (sound other).mono (others other same)

theorem Sound.of_keeps (sound : Sound s) (processes : next.processes = s.processes)
    (keeps : ∀ host, Keeps s next host) : Sound next := by
  intro host
  rw [processes]
  exact (sound host).mono (keeps host)

section Commits

theorem Account.write_self (read current : Account) : read.write read current = current := by
  simp [Account.write]

theorem Account.write_same (read acc : Account) : read.write acc read = acc := by
  obtain ⟨_, _, _⟩ := acc
  simp only [Account.write, Account.mk.injEq]
  refine ⟨?_, ?_, ?_⟩ <;> split <;> simp_all

theorem sendMigrationEvents_frame (s : State) (id : Nat) (acc : Account) :
    (sendMigrationEvents s id acc).accounts = s.accounts ∧ (sendMigrationEvents s id acc).locks = s.locks ∧
      (sendMigrationEvents s id acc).processes = s.processes := by
  unfold sendMigrationEvents
  repeat' split
  all_goals exact ⟨rfl, rfl, rfl⟩

theorem commit_accounts (s : State) (id : Nat) (read acc : Account) : (commit s id read acc).accounts =
    Function.update s.accounts id ((s.accounts id).map (read.write acc)) := by
  unfold commit
  split
  · rename_i same
    have unwritten : (s.accounts id).map (read.write acc) = s.accounts id := by
      rw [same]
      cases s.accounts id with
      | none => rfl
      | some current => exact congrArg some (read.write_self current)
    rw [unwritten, Function.update_eq_self]
  · exact (sendMigrationEvents_frame _ _ _).1

theorem commit_frame (s : State) (id : Nat) (read acc : Account) : (commit s id read acc).locks = s.locks ∧
    (commit s id read acc).processes = s.processes := by
  unfold commit
  split
  · exact ⟨rfl, rfl⟩
  · exact (sendMigrationEvents_frame _ _ _).2

theorem commitAgain_frame (s : State) (id : Nat) (read acc : Account) :
    (commitAgain s id read acc).accounts = s.accounts ∧
    (commitAgain s id read acc).locks = s.locks ∧ (commitAgain s id read acc).processes = s.processes := by
  unfold commitAgain
  split
  · exact ⟨rfl, rfl, rfl⟩
  · exact sendMigrationEvents_frame _ _ acc

/-- A commit of another program's session, which does not change who syncs the account. -/
theorem Keeps.commit {read acc : Account} (same : acc.syncHost = read.syncHost)
    (unlocked : s.locks id = none) : Keeps s (commit s id read acc) host := by
  constructor
  · intro id' row held found
    have other : id' ≠ id := by
      rintro rfl
      rw [unlocked] at held
      cases held
    rw [(commit_frame _ _ read acc).1, commit_accounts, Function.update_of_ne other]
    exact ⟨held, found⟩
  · rintro id' ⟨current, found, owner⟩
    rw [HostOf, commit_accounts]
    by_cases which : id' = id
    · subst which
      refine ⟨read.write acc current, by rw [Function.update_self, found]; rfl, ?_⟩
      simp only [Account.write, if_pos same, owner]
    · exact ⟨current, by rw [Function.update_of_ne which, found], owner⟩

variable {acc : Account}

/-- `start_sync` commits on the row that it has locked. -/
theorem commitStart_accounts (host : String) (found : s.accounts id = some acc) :
    (commitStart s host id acc).accounts =
    Function.update s.accounts id (some { acc with syncHost := some host }) := by
  show (SyncService.commit s id acc _).accounts = _
  rw [commit_accounts, found, Option.map_some, Account.write_same]

theorem commitStart_frame (s : State) (host : String) (id : Nat) (acc : Account) :
    (commitStart s host id acc).locks = Function.update s.locks id none ∧
    (commitStart s host id acc).processes = s.processes := by
  obtain ⟨locks, processes⟩ := commit_frame s id acc { acc with syncHost := some host }
  constructor
  · rw [← locks]
    rfl
  · exact processes

end Commits

section Transitions

theorem Keeps.lock_free (unlocked : s.locks id = none) {process : Process} :
    Keeps s { setProcess s host process with locks := Function.update s.locks id (some host) } other := by
  constructor
  · intro id' row held found
    have different : id' ≠ id := by
      rintro rfl
      rw [unlocked] at held
      cases held
    exact ⟨(Function.update_of_ne different ..).trans held, found⟩
  · exact fun id' owner => owner

theorem Sound.startSync (sound : Sound s) (started : startSync s host id = some next) : Sound next := by
  rcases startSync_cases started with ⟨rfl, _⟩ | ⟨unlocked, startable, rfl⟩
  · refine sound.update rfl ?_ fun other _ => .of_same rfl rfl
    exact ⟨nofun, nofun, nofun, (sound host).syncing⟩
  · refine sound.update rfl ?_ fun other _ => .lock_free unlocked
    constructor
    · rintro id' monitors ⟨⟩
      exact Function.update_self ..
    · rintro id' monitors ⟨⟩
      exact startable
    · exact nofun
    · exact (sound host).syncing

theorem startable_owner {acc : Account} {other : String} (found : s.accounts id = some acc)
    (startable : acc.startable host) (owner : HostOf s id other) : host = other := by
  obtain ⟨_, same, own⟩ := owner
  rw [found] at same
  cases same
  simp only [Account.startable, own, Option.all_some, Bool.and_eq_true, beq_iff_eq] at startable
  exact startable.2.symm

section CommitStart
variable {process : Process} {acc : Account} (sound : Sound s)
  (starting : (s.processes host).phase = .starting id monitors) (found : s.accounts id = some acc)
include sound starting found

theorem Keeps.commitStart {other : String} (others : other ≠ host) :
    Keeps s (commitStart (setProcess s host process) host id acc) other := by
  have held := (sound host).locked id monitors starting
  have accounts := commitStart_accounts (s := setProcess s host process) host found
  have locks := (commitStart_frame (setProcess s host process) host id acc).1
  constructor
  · intro id' row theirs there
    have different : id' ≠ id := by
      rintro rfl
      rw [held] at theirs
      exact others (Option.some.inj theirs).symm
    rw [locks, accounts, Function.update_of_ne different, Function.update_of_ne different]
    exact ⟨theirs, there⟩
  · intro id' owner
    have different : id' ≠ id := by
      rintro rfl
      obtain ⟨_, again, startable⟩ := (sound host).startable id' monitors starting
      exact others (startable_owner again startable owner).symm
    exact owner.update different accounts

omit sound starting in
theorem HostOf.commitStart {other : Nat} (owner : other = id ∨ HostOf s other host) :
    HostOf (commitStart (setProcess s host process) host id acc) other host := by
  have accounts := commitStart_accounts (s := setProcess s host process) host found
  by_cases same : other = id
  · subst same
    exact ⟨_, by rw [accounts, Function.update_self], rfl⟩
  · exact (owner.resolve_left same).update same accounts

/-- With or without an exception, the process owns the account afterwards. -/
theorem Sound.commitStart (ready : process.phase = .ready)
    (syncing : ∀ other ∈ process.syncingAccounts, other = id ∨ HostOf s other host) :
    Sound (commitStart (setProcess s host process) host id acc) := by
  refine sound.update (commitStart_frame _ _ _ _).2 ?_ fun other others => .commitStart sound starting found others
  apply SoundAt.of_ready ready
  exact fun other member => HostOf.commitStart found (syncing other member)

end CommitStart

section Release
variable {process : Process} {read acc : Account} (sound : Sound s)
  (stopped : (s.processes host).phase = .stopped id read) (own : read.syncHost = some host)
  (unlocked : s.locks id = none)
  (accounts : next.accounts = Function.update s.accounts id ((s.accounts id).map (read.write acc)))
  (locks : next.locks = s.locks)
include sound stopped own unlocked accounts locks

theorem Keeps.release {other : String} (others : other ≠ host) : Keeps s next other := by
  constructor
  · intro id' row theirs there
    have different : id' ≠ id := by
      rintro rfl
      rw [unlocked] at theirs
      cases theirs
    rw [locks, accounts, Function.update_of_ne different]
    exact ⟨theirs, there⟩
  · intro id' owner
    have different : id' ≠ id := by
      rintro rfl
      exact others (owner.unique ((sound host).stopped id' read stopped own))
    exact owner.update different accounts

/-- `stop_sync` gives the account up that is still its own. -/
theorem Sound.release (ready : process.phase = .ready)
    (syncing : ∀ other ∈ process.syncingAccounts, other ≠ id ∧ HostOf s other host)
    (processes : next.processes = Function.update s.processes host process) : Sound next := by
  refine sound.update processes ?_ fun other others =>
    .release sound stopped own unlocked accounts locks others
  apply SoundAt.of_ready ready
  exact fun other member => (syncing other member).2.update (syncing other member).1 accounts

end Release

/-- The table after `stop_sync` has given the account up. -/
theorem release_frame (s : State) (host : String) (id : Nat) (process : Process) (read acc : Account) :
    (commitAgain (commit (setProcess s host process) id read acc) id read acc).accounts =
        Function.update s.accounts id ((s.accounts id).map (read.write acc)) ∧
      (commitAgain (commit (setProcess s host process) id read acc) id read acc).locks = s.locks ∧
      (commitAgain (commit (setProcess s host process) id read acc) id read acc).processes =
        Function.update s.processes host process := by
  obtain ⟨accounts, locks, processes⟩ := commitAgain_frame
    (commit (setProcess s host process) id read acc) id read acc
  obtain ⟨locks', processes'⟩ := commit_frame (setProcess s host process) id read acc
  exact ⟨accounts.trans (commit_accounts _ _ _ _), locks.trans locks', processes.trans processes'⟩

theorem Sound.quiet (sound : Sound s) (quiet : Quiet s host process queue) :
    Sound { setProcess s host process with sharedQueue := queue } := by
  refine sound.update rfl ?_ fun other _ => .of_same rfl rfl
  constructor
  · intro id monitors phase
    obtain ⟨before, began⟩ := quiet.starting id monitors phase
    exact (sound host).locked id before began
  · intro id monitors phase
    obtain ⟨before, began⟩ := quiet.starting id monitors phase
    exact (sound host).startable id before began
  · intro id read phase own
    rcases quiet.stopped id read phase with already | found
    · exact (sound host).stopped id read already own
    · exact ⟨read, found, own⟩
  · exact fun id member => (sound host).syncing id (quiet.syncing id member)

/-- The process does not take an account for synced whose `start_sync` is rolled back. -/
def Event.kept : Event → Bool
  | .rollback _ added _ => !added
  | _ => true

/-- The database does not fail in a `start_sync`. -/
def Event.durable : Event → Bool
  | .rollback _ _ _ => false
  | _ => true

theorem Keeps.create (absent : s.accounts id = none)
    (accounts : next.accounts = Function.update s.accounts id row) (locks : next.locks = s.locks) :
    Keeps s next host := by
  have exists_ne : ∀ other acc, s.accounts other = some acc → other ≠ id := by
    rintro other acc found rfl
    rw [absent] at found
    cases found
  constructor
  · intro other acc held found
    rw [locks, accounts, Function.update_of_ne (exists_ne other acc found)]
    exact ⟨held, found⟩
  · rintro other ⟨acc, found, owner⟩
    exact HostOf.update ⟨acc, found, owner⟩ (exists_ne other acc found) accounts

theorem Keeps.update {read acc : Account} (same : acc.syncHost = read.syncHost)
    (unlocked : s.locks id = none) (sessions : List (Nat × Account)) :
    Keeps s (SyncService.commit { s with sessions } id read acc) host := by
  have commits := @Keeps.commit { s with sessions } host id read acc same unlocked
  exact ⟨commits.lock, commits.owner⟩

theorem create_frame (s : State) (id : Nat) (acc : Account) (ids : List Nat) :
    (sendMigrationEvents { s with ids, accounts := Function.update s.accounts id (some acc) } id
        acc).accounts = Function.update s.accounts id (some acc) ∧
      (sendMigrationEvents { s with ids, accounts := Function.update s.accounts id (some acc) } id
        acc).locks = s.locks ∧
      (sendMigrationEvents { s with ids, accounts := Function.update s.accounts id (some acc) } id
        acc).processes = s.processes :=
  sendMigrationEvents_frame _ _ acc

theorem Event.kept_of_durable {event : Event} (durable : event.durable) : event.kept := by
  cases event with
  | rollback host added caught => cases durable
  | _ => rfl

theorem Sound.rollback {process : Process} (sound : Sound s)
    (starting : (s.processes host).phase = .starting id monitors) (ready : process.phase = .ready)
    (syncing : ∀ other ∈ process.syncingAccounts, other ∈ (s.processes host).syncingAccounts) :
    Sound (unlock (setProcess s host process) id) := by
  refine sound.update rfl ?_ ?_
  · apply SoundAt.of_ready ready
    exact fun other member => (sound host).syncing other (syncing other member)
  · intro other others
    constructor
    · intro id' acc held found
      have different : id' ≠ id := by
        rintro rfl
        rw [(sound host).locked id' monitors starting] at held
        exact others (Option.some.inj held).symm
      exact ⟨(Function.update_of_ne different ..).trans held, found⟩
    · exact fun id' owner => owner

/-- What a process has still to call has no part in it. -/
theorem Sound.called (sound : Sound s) :
    Sound (setProcess s host { s.processes host with agenda }) := by
  refine sound.update rfl ?_ fun other _ => .of_same rfl rfl
  exact ⟨(sound host).locked, (sound host).startable, (sound host).stopped, (sound host).syncing⟩

theorem Sound.step (sound : Sound s) (kept : event.kept)
    (stepped : SyncService.step s event = some next) : Sound next := by
  cases step_transition stepped with
  | read found => exact sound.of_keeps rfl fun _ => .of_same rfl rfl
  | update opened unlocked =>
    apply sound.of_keeps
    · exact (commit_frame _ _ _ _).2
    · intro host
      apply Keeps.update
      · rfl
      · exact unlocked
  | create absent =>
    obtain ⟨accounts, locks, processes⟩ := create_frame s _ _ _
    exact sound.of_keeps processes fun _ => .create absent accounts locks
  | quiet quiet => exact sound.quiet quiet
  | startSync phase started =>
    rename_i host agenda id
    exact sound.called.startSync started
  | commitStart starting found ready syncing running =>
    rename_i host monitors acc process id
    refine sound.commitStart starting found ready ?_
    exact fun other member => (syncing other member).imp_right ((sound host).syncing other)
  | rollback starting ready syncing =>
    rename_i host monitors added caught process id
    apply sound.rollback starting ready
    intro other member
    apply (syncing other member).resolve_right
    rintro rfl
    cases kept
  | release stopped own unlocked ready syncing running =>
    rename_i host process id read
    obtain ⟨accounts, locks, processes⟩ := release_frame s host id process
      read { read with syncHost := none }
    refine sound.release stopped own unlocked accounts locks ready ?_ processes
    intro other member
    obtain ⟨different, before⟩ := syncing other member
    exact ⟨different, (sound host).syncing other before⟩

end Transitions

/-! ## Who runs monitors -/
section Monitors

/-- The process runs a monitor of the account. -/
def Syncs (s : State) (host : String) (id : Nat) : Prop :=
  ∃ number, (number, id) ∈ (s.processes host).running

def Exclusive (s : State) : Prop :=
  ∀ id host other, Syncs s host id → Syncs s other id → host = other

/-- A process that runs monitors of an account is its `sync_host`, or has not yet committed that it
is. -/
def Owned (s : State) : Prop := ∀ host id, Syncs s host id →
  (∃ monitors, (s.processes host).phase = .starting id monitors) ∨ HostOf s id host

/-- No account is given up whose monitors the process still runs. -/
def Clean (s : State) (event : Event) (_ : State) : Prop := ∀ host id read, event = .advance host →
  (s.processes host).phase = .stopped id read → read.syncHost = some host → ¬ Syncs s host id

theorem exclusive_of_owned (sound : Sound s) (owned : Owned s) : Exclusive s := by
  intro id host other first second
  rcases owned host id first with ⟨monitors, starting⟩ | owner
  · rcases owned other id second with ⟨_, starting'⟩ | owner'
    · have held := (sound host).locked id monitors starting
      rw [(sound other).locked id _ starting'] at held
      exact (Option.some.inj held).symm
    · obtain ⟨_, found, startable⟩ := (sound host).startable id monitors starting
      exact startable_owner found startable owner'
  · rcases owned other id second with ⟨monitors, starting⟩ | owner'
    · obtain ⟨_, found, startable⟩ := (sound other).startable id monitors starting
      exact (startable_owner found startable owner).symm
    · exact owner.unique owner'

theorem Owned.update (owned : Owned s) {process : Process}
    (processes : next.processes = Function.update s.processes host process)
    (mine : ∀ number id, (number, id) ∈ process.running →
      (∃ monitors, process.phase = .starting id monitors) ∨ HostOf next id host)
    (others : ∀ other ≠ host, Keeps s next other) : Owned next := by
  intro other id runs
  by_cases same : other = host
  · subst same
    obtain ⟨number, runs⟩ := runs
    rw [processes, Function.update_self] at runs ⊢
    exact mine number id runs
  · have untouched : next.processes other = s.processes other := by
      rw [processes, Function.update_of_ne same]
    rw [Syncs, untouched] at runs
    rw [untouched]
    exact (owned other id runs).imp_right ((others other same).owner id)

theorem Owned.of_keeps (owned : Owned s) (processes : next.processes = s.processes)
    (keeps : ∀ host, Keeps s next host) : Owned next := by
  intro host id runs
  rw [Syncs, processes] at runs
  rw [processes]
  exact (owned host id runs).imp_right ((keeps host).owner id)

theorem Owned.startSync (owned : Owned s)
    (before : ∀ id monitors, (s.processes host).phase ≠ .starting id monitors)
    (started : startSync s host id = some next) : Owned next := by
  have owner : ∀ number other, (number, other) ∈ (s.processes host).running → HostOf s other host := by
    intro number other runs
    rcases owned host other ⟨number, runs⟩ with ⟨monitors, starting⟩ | owner
    · exact absurd starting (before other monitors)
    · exact owner
  rcases startSync_cases started with ⟨rfl, _⟩ | ⟨unlocked, _, rfl⟩
  · refine owned.update rfl ?_ fun _ _ => .of_same rfl rfl
    exact fun number other runs => .inr (owner number other runs)
  · refine owned.update rfl ?_ fun _ _ => .lock_free unlocked
    exact fun number other runs => .inr (owner number other runs)

theorem Owned.step (sound : Sound s) (owned : Owned s) (durable : event.durable)
    (clean : Clean s event next) (stepped : SyncService.step s event = some next) : Owned next := by
  cases step_transition stepped with
  | read found => exact owned.of_keeps rfl fun _ => .of_same rfl rfl
  | update opened unlocked =>
    apply owned.of_keeps
    · exact (commit_frame _ _ _ _).2
    · intro host
      apply Keeps.update
      · rfl
      · exact unlocked
  | create absent =>
    obtain ⟨accounts, locks, processes⟩ := create_frame s _ _ _
    exact owned.of_keeps processes fun _ => .create absent accounts locks
  | quiet quiet =>
    rename_i host process queue
    refine owned.update rfl ?_ fun _ _ => .of_same rfl rfl
    intro number id runs
    rcases quiet.running number id runs with before | starting
    · rcases owned host id ⟨number, before⟩ with ⟨monitors, starting⟩ | owner
      · exact .inl (quiet.keeps_starting id monitors starting)
      · exact .inr owner
    · exact .inl starting
  | startSync phase started =>
    rename_i host agenda id
    have called : Owned (setProcess s host { s.processes host with agenda }) := by
      refine owned.update rfl ?_ fun _ _ => .of_same rfl rfl
      exact fun number other runs => owned host other ⟨number, runs⟩
    apply called.startSync ?_ started
    intro other monitors
    rw [setProcess_self]
    rcases phase with ready | claiming
    · rw [ready]
      exact nofun
    · rw [claiming]
      exact nofun
  | commitStart starting found ready syncing running =>
    rename_i host monitors acc process id
    refine owned.update (commitStart_frame _ _ _ _).2 ?_ fun _ others => .commitStart sound starting found others
    intro number other runs
    rw [running] at runs
    refine .inr (HostOf.commitStart found ?_)
    rcases owned host other ⟨number, runs⟩ with ⟨_, same⟩ | owner
    · rw [starting] at same
      cases same
      exact .inl rfl
    · exact .inr owner
  | rollback => cases durable
  | release stopped own unlocked ready syncing running =>
    rename_i host process id read
    obtain ⟨accounts, locks, processes⟩ := release_frame s host id process
      read { read with syncHost := none }
    refine owned.update processes ?_ fun _ others => .release sound stopped own unlocked accounts locks others
    intro number other runs
    rw [running] at runs
    have different : other ≠ id := by
      rintro rfl
      exact clean host other read rfl stopped own ⟨number, runs⟩
    rcases owned host other ⟨number, runs⟩ with ⟨_, same⟩ | owner
    · rw [stopped] at same
      cases same
    · exact .inr (owner.update different accounts)

/-- After `stop_sync` the account is not the process's any more. -/
theorem not_hostOf_release {process : Process} {read : Account} (own : read.syncHost = some host) :
    ¬ HostOf (commitAgain (commit (setProcess s host process) id read { read with syncHost := none }) id
      read { read with syncHost := none }) id host := by
  obtain ⟨accounts, _, _⟩ := release_frame s host id process read
    { read with syncHost := none }
  rintro ⟨acc, found, owner⟩
  rw [accounts, Function.update_self] at found
  obtain ⟨current, _, rfl⟩ := Option.map_eq_some_iff.mp found
  simp [Account.write, own] at owner

theorem clean_of_owned (owned : Owned next) (stepped : SyncService.step s event = some next) :
    Clean s event next := by
  rintro host id read rfl stopped own ⟨number, runs⟩
  simp only [SyncService.step, advance, stopped, Account.syncStopped, own, ↓reduceIte] at stepped
  split at stepped
  · cases stepped
  · cases stepped
    have processes := (release_frame s host id { s.processes host with
      phase := .ready, syncingAccounts := (s.processes host).syncingAccounts.filter (· ≠ id) }
      read { read with syncHost := none }).2.2
    have mine := owned host id
    rw [Syncs, processes, Function.update_self] at mine
    rcases mine ⟨number, runs⟩ with ⟨_, phase⟩ | owner
    · cases phase
    · exact absurd owner (not_hostOf_release own)

theorem Fresh.sound (fresh : Fresh s) : Sound s := by
  intro host
  obtain ⟨stealingEnabled, new⟩ := fresh.new host
  rw [new]
  exact .of_ready rfl nofun

theorem Fresh.owned (fresh : Fresh s) : Owned s := by
  rintro host id ⟨number, runs⟩
  obtain ⟨stealingEnabled, new⟩ := fresh.new host
  rw [new] at runs
  cases runs

/-- Only the `sync_host` of an account runs its monitors, just when no process gives an account up
whose monitors it still runs. -/
theorem monitors_owned_iff (s : State) (events : List Event) (fresh : Fresh s)
    (durable : ∀ event ∈ events, event.durable) :
    Runs.Each SyncService.step (fun _ _ next => Exclusive next ∧ Owned next) s events ↔
      Runs.Each SyncService.step Clean s events := by
  apply Runs.each_iff_within (fun s => Sound s ∧ Owned s) (·.durable) ⟨fresh.sound, fresh.owned⟩ durable
  · intro s event next held durable stepped clean
    exact ⟨held.1.step (Event.kept_of_durable durable) stepped, held.2.step held.1 durable clean stepped⟩
  · intro s event next held durable stepped
    constructor
    · exact fun both => clean_of_owned both.2 stepped
    · intro clean
      have owned := held.2.step held.1 durable clean stepped
      exact ⟨exclusive_of_owned (held.1.step (Event.kept_of_durable durable) stepped) owned, owned⟩

end Monitors

/-- One account that nobody syncs, and the event that says so. -/
def offered : State where
  ids := [1]
  accounts := fun id => if id = 1 then some ⟨true, none, none⟩ else none
  locks := fun _ => none
  sessions := []
  sharedQueue := [1]
  privateQueue := fun _ => []
  processes := fun _ => .new true

theorem offered_fresh : Fresh offered := ⟨fun _ => ⟨true, rfl⟩, fun _ => rfl⟩

/-- `Clean` as the process itself could check it. -/
def cleanAt (s : State) : Event → Bool
  | .advance host =>
    match (s.processes host).phase with
    | .stopped id read => read.syncHost != some host ||
      (s.processes host).running.all fun monitor => monitor.2 != id
    | _ => true
  | _ => true

theorem clean_iff : Clean s event next ↔ cleanAt s event := by
  constructor
  · intro clean
    unfold cleanAt
    split
    · rename_i host
      split
      · rename_i id read stopped
        by_cases own : read.syncHost = some host
        · have none_runs := clean host id read rfl stopped own
          simp only [own, bne_self_eq_false, Bool.false_or, List.all_eq_true, bne_iff_ne, ne_eq]
          rintro ⟨number, _⟩ runs rfl
          exact none_runs ⟨number, runs⟩
        · simp [own]
      · rfl
    · rfl
  · rintro clean host id read rfl stopped own ⟨number, runs⟩
    simp only [cleanAt, stopped, own, bne_self_eq_false, Bool.false_or, List.all_eq_true] at clean
    simpa using clean _ runs

instance : Decidable (Clean s event next) := decidable_of_iff _ clean_iff.symm

/-- A process claims the account and syncs it, until the account is to be synced elsewhere. -/
theorem account_handed_over : Runs.Each SyncService.step (fun _ _ next => Exclusive next ∧ Owned next) offered
    [.receive "a" false, .advance "a", .monitor "a" true, .monitor "a" false, .monitor "a" true,
      .advance "a", .read 1, .update 0 true (some "b"), .poll "a" [], .call "a" [1], .call "a" [],
      .advance "a", .advance "a", .advance "a", .advance "a", .advance "a", .poll "b" [1], .call "b" [],
      .monitor "b" true] :=
  (monitors_owned_iff offered _ offered_fresh (by decide)).mpr (by decide +kernel)

/-- The first start raises after it has started the mail monitor, and the second replaces the monitor:
nobody kills the first one. -/
def interrupted : List Event :=
  [.receive "a" false, .advance "a", .monitor "a" true, .fail "a", .poll "a" [1], .call "a" [],
    .monitor "a" true, .monitor "a" true, .monitor "a" false, .advance "a", .call "a" [], .read 1,
    .update 0 true (some "b"), .poll "a" [], .call "a" [1], .call "a" [], .advance "a", .advance "a",
    .advance "a", .advance "a", .advance "a", .poll "b" [1], .call "b" [], .monitor "b" true]

theorem account_synced_twice : ¬ ∀ (s : State) (events : List Event), Fresh s →
    (∀ event ∈ events, event.durable) →
      Runs.Each SyncService.step (fun _ _ next => Exclusive next ∧ Owned next) s events := by
  intro owned
  have apart : Runs.Each SyncService.step (fun _ _ next =>
      ¬ ((0, 1) ∈ (next.processes "a").running ∧ (0, 1) ∈ (next.processes "b").running))
        offered interrupted := by
    apply (owned offered interrupted offered_fresh (by decide)).mono
    rintro _ _ next ⟨exclusive, _⟩ ⟨first, second⟩
    exact absurd (exclusive 1 "a" "b" ⟨0, first⟩ ⟨0, second⟩) (by decide)
  revert apart
  decide +kernel

end SyncService
end SyncEngine
