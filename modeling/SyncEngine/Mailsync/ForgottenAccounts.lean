import SyncEngine.Mailsync.AccountOwnership

/-! An account that nobody syncs is announced in the shared queue, or a process is about to handle what
announced it. -/
namespace SyncEngine
namespace SyncService
variable {s next : State} {host : String} {id : Nat}

def Announced (s : State) (id : Nat) : Prop :=
  id ∈ s.sharedQueue ∨ ∃ host, Handles (s.processes host) id

def Remembered (s : State) : Prop :=
  ∀ id acc, s.accounts id = some acc → acc.unassigned → Announced s id

/-- A session commits on the columns that it has read, and no `start_sync` is rolled back unless `poll`
will find the account again. -/
def careful (s : State) : Event → Bool
  | .update session _ _ => s.sessions[session]?.all fun (id, read) => s.accounts id == some read
  | .advance host =>
    match (s.processes host).phase with
    | .stopped id read => read.syncHost != some host || s.accounts id == some read
    | _ => true
  | .rollback host added _ => !added &&
    match (s.processes host).phase with
    | .starting id _ => !(s.accounts id).any (·.unassigned)
    | _ => true
  | _ => true

section Notices

theorem sendMigrationEvents_keeps (acc : Account) (member : other ∈ s.sharedQueue) :
    other ∈ (sendMigrationEvents s id acc).sharedQueue := by
  unfold sendMigrationEvents
  repeat' split
  all_goals first
    | exact member
    | exact List.mem_append_left _ member

theorem sendMigrationEvents_unassigned {acc : Account} (unassigned : acc.unassigned) :
    id ∈ (sendMigrationEvents s id acc).sharedQueue := by
  obtain ⟨syncShouldRun, syncHost, desiredSyncHost⟩ := acc
  simp only [Account.unassigned, Bool.and_eq_true, Option.isNone_iff_eq_none] at unassigned
  obtain ⟨⟨rfl, rfl⟩, rfl⟩ := unassigned
  exact List.mem_append_right _ List.mem_cons_self

theorem commit_keeps (read acc : Account) (member : other ∈ s.sharedQueue) :
    other ∈ (commit s id read acc).sharedQueue := by
  unfold commit
  split
  · exact member
  · exact sendMigrationEvents_keeps acc member

theorem commitAgain_keeps (read acc : Account) (member : other ∈ s.sharedQueue) :
    other ∈ (commitAgain s id read acc).sharedQueue := by
  unfold commitAgain
  split
  · exact member
  · exact sendMigrationEvents_keeps acc member

theorem commit_unassigned {read acc : Account} (changed : acc ≠ read) (unassigned : acc.unassigned) :
    id ∈ (commit s id read acc).sharedQueue := by
  unfold commit
  rw [if_neg changed]
  exact sendMigrationEvents_unassigned unassigned

end Notices

section Steps

theorem Announced.mono (announced : Announced s id) (queue : id ∈ s.sharedQueue → id ∈ next.sharedQueue)
    (processes : next.processes = s.processes) : Announced next id := by
  rcases announced with queued | ⟨host, handles⟩
  · exact .inl (queue queued)
  · refine .inr ⟨host, ?_⟩
    rw [processes]
    exact handles

/-- One process goes on, with the account or with none. -/
theorem Announced.update (announced : Announced s id) {process : Process}
    (queue : id ∈ s.sharedQueue → Announced next id)
    (mine : Handles (s.processes host) id → Announced next id)
    (processes : next.processes = Function.update s.processes host process) : Announced next id := by
  rcases announced with queued | ⟨other, handles⟩
  · exact queue queued
  · by_cases same : other = host
    · subst same
      exact mine handles
    · refine .inr ⟨other, ?_⟩
      rw [processes, Function.update_of_ne same]
      exact handles

/-- A session that has read the row of the account as it is announces what it leaves unassigned. -/
theorem Remembered.commit {read acc : Account} (remembered : Remembered s)
    (current : s.accounts id = some read) : Remembered (commit s id read acc) := by
  intro other row found unassigned
  rw [commit_accounts, current, Option.map_some, Account.write_same] at found
  by_cases same : other = id
  · subst same
    rw [Function.update_self] at found
    cases found
    by_cases changed : acc = read
    · refine (remembered other read current (changed ▸ unassigned)).mono ?_ (commit_frame _ _ _ _).2
      exact commit_keeps read acc
    · exact .inl (commit_unassigned changed unassigned)
  · rw [Function.update_of_ne same] at found
    refine (remembered other row found unassigned).mono ?_ (commit_frame _ _ _ _).2
    exact commit_keeps read acc

theorem Handles.unique (starting : process.phase = .starting id monitors) (handles : Handles process other) :
    other = id := by
  rw [Handles, starting] at handles
  rcases handles with same | same | ⟨_, same⟩
  · cases same
  · cases same
  · cases same
    rfl

theorem not_unassigned_of_host {acc : Account} (owner : acc.syncHost = some host) : ¬ acc.unassigned := by
  simp [Account.unassigned, owner]

theorem Remembered.quiet (remembered : Remembered s) (quiet : Quiet s host process queue) :
    Remembered { setProcess s host process with sharedQueue := queue } := by
  intro id acc found unassigned
  have still : id ∈ queue ∨ Handles process id →
      Announced { setProcess s host process with sharedQueue := queue } id := by
    rintro (queued | handles)
    · exact .inl queued
    · refine .inr ⟨host, ?_⟩
      show Handles ((setProcess s host process).processes host) id
      rwa [setProcess_self]
  apply (remembered id acc found unassigned).update
  · exact fun queued => still (quiet.hands id (.inl queued))
  · exact fun handles => still (quiet.hands id (.inr handles))
  · rfl

/-- What `start_sync` declines is assigned, or it is already synced. -/
theorem Remembered.startSync (remembered : Remembered s) (sound : Sound s)
    (mine : ∀ other, Handles (s.processes host) other → other = id)
    (started : startSync s host id = some next) : Remembered next := by
  rcases startSync_cases started with ⟨rfl, declined⟩ | ⟨_, _, rfl⟩
  · intro other acc found unassigned
    apply (remembered other acc found unassigned).update
    · exact .inl
    · intro handles
      cases mine other handles
      have startable : acc.startable host := by
        simp only [Account.unassigned, Bool.and_eq_true, Option.isNone_iff_eq_none] at unassigned
        simp [Account.startable, unassigned]
      obtain ⟨_, same, owner⟩ := (sound host).syncing id (declined acc found startable)
      have found : s.accounts id = some acc := found
      rw [found] at same
      cases same
      exact absurd unassigned (not_unassigned_of_host owner)
    · rfl
  · intro other acc found unassigned
    apply (remembered other acc found unassigned).update
    · exact .inl
    · intro handles
      cases mine other handles
      refine .inr ⟨host, .inr (.inr ⟨Monitor.all, ?_⟩)⟩
      show ((setProcess s host _).processes host).phase = _
      rw [setProcess_self]
    · rfl

theorem Remembered.step (remembered : Remembered s) (sound : Sound s) (careful : careful s event)
    (stepped : SyncService.step s event = some next) : Remembered next := by
  cases step_transition stepped with
  | read found => exact fun id acc found unassigned => (remembered id acc found unassigned).mono (fun h => h) rfl
  | update opened unlocked =>
    rename_i session syncShouldRun desiredSyncHost id read
    have closed : Remembered { s with sessions := s.sessions.eraseIdx session } :=
      fun id acc found unassigned => (remembered id acc found unassigned).mono (fun h => h) rfl
    apply closed.commit
    simpa [SyncService.careful, opened] using careful
  | create absent =>
    rename_i syncShouldRun desiredSyncHost id
    obtain ⟨accounts, locks, processes⟩ := create_frame s id
      ⟨syncShouldRun, none, desiredSyncHost⟩ (s.ids ++ [id])
    intro other acc found unassigned
    rw [accounts] at found
    by_cases same : other = id
    · subst same
      rw [Function.update_self] at found
      cases found
      exact .inl (sendMigrationEvents_unassigned unassigned)
    · rw [Function.update_of_ne same] at found
      apply (remembered other acc found unassigned).mono ?_ processes
      intro queued
      exact sendMigrationEvents_keeps (s := { s with
        ids := s.ids ++ [id]
        accounts := Function.update s.accounts id (some ⟨syncShouldRun, none, desiredSyncHost⟩) }) _ queued
  | quiet quiet => exact remembered.quiet quiet
  | startSync phase started =>
    rename_i host agenda id
    have waiting : Remembered (setProcess s host { s.processes host with agenda }) := by
      intro other acc found unassigned
      apply (remembered other acc found unassigned).update
      · exact .inl
      · intro handles
        refine .inr ⟨host, ?_⟩
        rw [setProcess_self]
        exact handles
      · rfl
    apply waiting.startSync sound.called ?_ started
    intro other handles
    rw [setProcess_self] at handles
    rcases phase with ready | claiming
    · exact absurd handles (not_handles ready (by simp) (by simp) (by simp) other)
    · rw [Handles, claiming] at handles
      rcases handles with same | same | ⟨_, same⟩
      · cases same
        rfl
      · cases same
      · cases same
  | commitStart starting found ready syncing running =>
    rename_i host monitors acc process id
    intro other row there unassigned
    rw [commitStart_accounts (s := setProcess s host process) host found] at there
    by_cases same : other = id
    · subst same
      rw [Function.update_self] at there
      cases there
      exact absurd unassigned (not_unassigned_of_host rfl)
    · rw [Function.update_of_ne same] at there
      apply (remembered other row there unassigned).update
      · exact fun queued => .inl (commit_keeps _ _ queued)
      · exact fun handles => absurd (handles.unique starting) same
      · exact (commitStart_frame _ _ _ _).2
  | rollback starting ready syncing =>
    rename_i host monitors added caught process id
    intro other row there unassigned
    apply (remembered other row there unassigned).update
    · exact .inl
    · intro handles
      cases handles.unique starting
      have there : s.accounts id = some row := there
      simp [SyncService.careful, starting, there, unassigned] at careful
    · rfl
  | release stopped own unlocked ready syncing running =>
    rename_i host process id read
    have current : s.accounts id = some read := by
      simpa [SyncService.careful, stopped, own] using careful
    obtain ⟨accounts, locks, processes⟩ := release_frame s host id process
      read { read with syncHost := none }
    have settled : Remembered (setProcess s host process) := by
      intro other row there unassigned
      apply (remembered other row there unassigned).update
      · exact .inl
      · exact fun handles => absurd handles (not_handles stopped (by simp) (by simp) (by simp) other)
      · rfl
    have committed : Remembered (SyncService.commit (setProcess s host process) id read
        { read with syncHost := none }) := settled.commit current
    obtain ⟨accounts', _, processes'⟩ := commitAgain_frame (SyncService.commit
      (setProcess s host process) id read { read with syncHost := none }) id read
        { read with syncHost := none }
    intro other row there unassigned
    rw [accounts'] at there
    exact (committed other row there unassigned).mono (commitAgain_keeps _ _) processes'

end Steps

/-- The process that takes the step. -/
def Event.actor : Event → Option String
  | .read _ | .update _ _ _ | .create _ _ _ => none
  | .poll host _ | .receive host _ | .call host _ | .monitor host _ | .fail host | .rollback host _ _
  | .abandon host _ | .advance host | .finish host _ => some host

theorem startSync_other (started : startSync s host id = some next) (different : other ≠ host) :
    next.processes other = s.processes other := by
  rcases startSync_cases started with ⟨rfl, _⟩ | ⟨_, _, rfl⟩
  · exact setProcess_ne _ _ _ different
  · exact setProcess_ne _ _ _ different

theorem call_other (stepped : call s host outcome = some next) (different : other ≠ host) :
    next.processes other = s.processes other := by
  simp only [call] at stepped
  split at stepped
  · split at stepped
    · cases stepped
      exact setProcess_ne _ _ _ different
    · exact (startSync_other stepped different).trans (setProcess_ne _ _ _ different)
  · split at stepped
    · cases stepped
      exact setProcess_ne _ _ _ different
    · cases stepped
  · cases stepped
    exact setProcess_ne _ _ _ different
  · cases stepped

theorem advance_other (stepped : advance s host = some next) (different : other ≠ host) :
    next.processes other = s.processes other := by
  simp only [advance] at stepped
  split at stepped
  · cases stepped
  · exact startSync_other stepped different
  · cases stepped
    exact setProcess_ne _ _ _ different
  · cases stepped
  · obtain ⟨_, _, rfl⟩ := Option.map_eq_some_iff.mp stepped
    rw [(commitStart_frame _ _ _ _).2]
    exact setProcess_ne _ _ _ different
  · cases stepped
    exact setProcess_ne _ _ _ different
  · split at stepped
    · cases stepped
      exact setProcess_ne _ _ _ different
    · cases stepped
      exact setProcess_ne _ _ _ different
  · split at stepped
    · cases stepped
      exact setProcess_ne _ _ _ different
    · split at stepped
      · cases stepped
      · cases stepped
        rw [(release_frame _ _ _ _ _ _).2.2, Function.update_of_ne different]

theorem step_other {other : String} (stepped : SyncService.step s event = some next)
    (different : event.actor ≠ some other) : next.processes other = s.processes other := by
  have ne : ∀ host, event.actor = some host → other ≠ host := by
    rintro host acting rfl
    exact different acting
  cases event with
  | read =>
    obtain ⟨_, _, rfl⟩ := Option.map_eq_some_iff.mp stepped
    rfl
  | update =>
    obtain ⟨_, _, stepped⟩ := Option.bind_eq_some_iff.mp stepped
    simp only at stepped
    split at stepped
    · cases stepped
    · cases stepped
      rw [(commit_frame _ _ _ _).2]
  | create =>
    simp only [SyncService.step] at stepped
    split at stepped
    · cases stepped
    · cases stepped
      rw [(sendMigrationEvents_frame _ _ _).2.2]
  | poll host =>
    simp only [SyncService.step, poll] at stepped
    split at stepped
    · cases stepped
      exact setProcess_ne _ _ _ (ne host rfl)
    · cases stepped
  | receive host =>
    simp only [SyncService.step, receive] at stepped
    split at stepped
    · cases stepped
    · split at stepped
      · cases stepped
        exact setProcess_ne _ _ _ (ne host rfl)
      · cases stepped
  | call host => exact call_other stepped (ne host rfl)
  | monitor host =>
    simp only [SyncService.step, monitor] at stepped
    split at stepped
    · cases stepped
      exact setProcess_ne _ _ _ (ne host rfl)
    · cases stepped
  | fail host =>
    simp only [SyncService.step, fail] at stepped
    split at stepped
    · obtain ⟨_, _, rfl⟩ := Option.map_eq_some_iff.mp stepped
      rw [(commitStart_frame _ _ _ _).2]
      exact setProcess_ne _ _ _ (ne host rfl)
    · cases stepped
  | rollback host =>
    simp only [SyncService.step, rollback] at stepped
    split at stepped
    · split at stepped
      · cases stepped
      · cases stepped
        exact setProcess_ne _ _ _ (ne host rfl)
    · cases stepped
  | abandon host =>
    simp only [SyncService.step, abandon] at stepped
    split at stepped
    · cases stepped
      exact setProcess_ne _ _ _ (ne host rfl)
    · cases stepped
  | advance host => exact advance_other stepped (ne host rfl)
  | finish host =>
    cases stepped
    exact setProcess_ne _ _ _ (ne host rfl)

/-- When nobody commits over what another session has changed and no `start_sync` of an unassigned account
is rolled back, every unassigned account stays announced. -/
theorem accounts_remembered (s : State) (events : List Event) (fresh : Fresh s)
    (remembered : Remembered s) (careful : Runs.Each SyncService.step (fun s event _ => careful s event) s events) :
    Runs.Each SyncService.step (fun _ _ next => Remembered next) s events := by
  apply careful.of_invariant (fun s => Sound s ∧ Remembered s) ⟨fresh.sound, remembered⟩
  rintro s event next ⟨sound, remembered⟩ careful stepped
  have still := remembered.step sound careful stepped
  refine ⟨⟨sound.step ?_ stepped, still⟩, still⟩
  cases event with
  | rollback host added caught => exact (Bool.and_eq_true _ _ ▸ careful).1
  | _ => rfl

theorem offered_remembered : Remembered offered := by
  intro id acc found unassigned
  by_cases same : id = 1
  · exact .inl (same ▸ List.mem_cons_self)
  · simp [offered, same] at found

/-- An account that is stopped and enabled again, one after the other. -/
theorem account_remembered : Runs.Each SyncService.step (fun _ _ next => Remembered next) offered
    [.receive "a" false, .advance "a", .monitor "a" true, .monitor "a" false, .monitor "a" false,
      .advance "a", .read 1, .update 0 false none, .poll "a" [], .call "a" [1], .call "a" [],
      .advance "a", .advance "a", .advance "a", .advance "a", .advance "a", .read 1, .update 0 true none] :=
  accounts_remembered offered _ offered_fresh offered_remembered (by decide +kernel)

/-- The account is enabled again while `stop_sync` is about to commit. -/
def enabledAgain : List Event :=
  [.receive "a" false, .advance "a", .monitor "a" true, .monitor "a" false, .monitor "a" false,
    .advance "a", .read 1, .update 0 false none, .poll "a" [], .call "a" [1], .call "a" [],
    .advance "a", .advance "a", .advance "a", .advance "a", .read 1, .update 0 true none, .advance "a"]

theorem account_forgotten : ¬ ∀ (s : State) (events : List Event), Fresh s → Remembered s →
    Runs.Each SyncService.step (fun _ _ next => Remembered next) s events := by
  intro remembered
  have alone : Runs.Each SyncService.step (fun _ _ next => ∀ host ≠ "a", next.processes host = .new true)
      offered enabledAgain := by
    have start : ∀ host ≠ "a", offered.processes host = .new true := fun _ _ => rfl
    have acting : Runs.Each SyncService.step (fun _ event _ => event.actor.all (· == "a")) offered
        enabledAgain := by decide +kernel
    apply acting.of_invariant (fun s => ∀ host ≠ "a", s.processes host = .new true) start
    intro s event next before acting stepped
    have after : ∀ host ≠ "a", next.processes host = .new true := by
      intro host different
      rw [step_other stepped, before host different]
      intro same
      rw [same] at acting
      exact different (by simpa using acting)
    exact ⟨after, after⟩
  have known : Runs.Each SyncService.step (fun _ _ next =>
      (next.accounts 1).any (·.unassigned) → 1 ∈ next.sharedQueue ∨
        (next.processes "a").phase ≠ .ready) offered enabledAgain := by
    apply (Runs.each_and.mpr ⟨remembered offered enabledAgain offered_fresh offered_remembered, alone⟩).mono
    rintro _ _ next ⟨held, others⟩ unassigned
    rw [Option.any_eq_true] at unassigned
    obtain ⟨acc, found, unassigned⟩ := unassigned
    rcases held 1 acc found unassigned with queued | ⟨host, handles⟩
    · exact .inl queued
    · by_cases same : host = "a"
      · subst same
        exact .inr fun ready => not_handles ready nofun nofun nofun 1 handles
      · rw [others host same] at handles
        have ready : (Process.new true).phase = .ready := rfl
        exact absurd handles (not_handles ready nofun nofun nofun 1)
  revert known
  decide +kernel

end SyncService
end SyncEngine
