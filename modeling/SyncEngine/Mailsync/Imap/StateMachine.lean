import SyncEngine.Mailsync.Imap.Engine

/-! The states of a folder engine. The name of the next state is put together from the present
one; which names come up follows from how each handler may end. -/
namespace SyncEngine
namespace Imap
open Cooperative

def Exc.isUidInvalid : Exc → Bool
  | .uidInvalid _ _ => true
  | _ => false

section Handlers
variable (self : FolderSyncEngine) (backend : Backend)

def Handler.program : Handler → Call String
  | .initialSync => Imap.initialSync self backend
  | .poll => Imap.poll self backend
  | .resyncUids => Imap.resyncUids self backend

/-- `self.state_handlers[old_state]()`, which for any other name is a `KeyError`. -/
def handle (state : String) : Call String :=
  match stateHandlers.lookup state with
  | some handler => handler.program self backend
  | none => .raise .error

end Handlers

/-! ## How the handlers may end -/
section Outcomes
variable {self : FolderSyncEngine} {backend : Backend}

theorem fault_exc_isUidInvalid (fault : Fault) : fault.exc.isUidInvalid = false := by
  cases fault <;> rfl

theorem remote_raises {command : Command} {answer : Server → Except Fault α} :
    (remote command answer).Raises (fun exc => exc.isUidInvalid = false) := by
  refine Routine.raises_issue fun w exc raised => ?_
  cases fault : w.server.fault with
  | some fault =>
    simp only [fault, Except.error.injEq] at raised
    rw [← raised]
    exact fault_exc_isUidInvalid _
  | none =>
    cases result : answer w.server with
    | ok value => simp [fault, result, Except.mapError] at raised
    | error fault =>
      simp only [*, Except.mapError, Except.error.injEq] at raised
      rw [← raised]
      exact fault_exc_isUidInvalid _

theorem transact_raises {command : Command} {answer : World → Option α} :
    (transact command answer).Raises (fun exc => exc.isUidInvalid = false) := by
  refine Routine.raises_issue fun w exc raised => ?_
  split at raised
  · cases raised
  · cases raised
    rfl

theorem load_raises {column : Column} {copy : Memory → Option α} {row : ImapFolderInfo → α} :
    (load column copy row).Raises (fun exc => exc.isUidInvalid = false) := by
  rintro exc ⟨w, raised⟩
  dsimp only at raised
  split at raised
  · cases raised
  · exact transact_raises exc raised

theorem local_raises {command : Command} :
    (local_ command).Raises (fun exc => exc.isUidInvalid = false) := by
  refine Routine.raises_issue fun _ _ raised => ?_
  cases raised

theorem setAttribute_raises {write : Write} :
    (setAttribute write).Raises (fun exc => exc.isUidInvalid = false) :=
  Routine.raises_bind transact_raises fun _ => local_raises

theorem selectFolder_raises :
    (selectFolder noCb).Raises (fun exc => exc.isUidInvalid = false) :=
  Routine.raises_bind remote_raises fun _ =>
    Routine.raises_bind Routine.raises_ret fun _ => Routine.raises_ret

theorem discardUids_raises {session : Session} :
    (discardUids self session).Raises (fun exc => exc.isUidInvalid = false) := by
  refine Routine.raises_bind transact_raises fun _ => ?_
  refine Routine.raises_bind (Routine.raises_each fun _ => transact_raises) fun _ => ?_
  refine Routine.raises_bind setAttribute_raises fun _ => ?_
  exact Routine.raises_bind (Routine.raises_bind local_raises fun _ => transact_raises)
    fun _ => setAttribute_raises

theorem unlessUnchanged_raises {session : Session} {saved : Nat} {changed : Call Unit}
    (raises : changed.Raises (fun exc => exc.isUidInvalid = false)) :
    (unlessUnchanged session saved changed).Raises (fun exc => exc.isUidInvalid = false) := by
  unfold unlessUnchanged
  split
  · exact Routine.raises_ret
  · exact raises

/-- The handler of the two invalid states selects the folder without a check. -/
theorem resyncUids_raises :
    (resyncUids self backend).Raises (fun exc => exc.isUidInvalid = false) := by
  refine Routine.raises_bind ?_ fun _ => Routine.raises_ret
  cases backend with
  | generic =>
    refine Routine.raises_bind selectFolder_raises fun _ => ?_
    refine Routine.raises_bind load_raises fun _ => ?_
    exact Routine.raises_bind (unlessUnchanged_raises discardUids_raises) fun _ => local_raises
  | gmail =>
    refine Routine.raises_bind transact_raises fun _ => ?_
    refine Routine.raises_bind selectFolder_raises fun _ => ?_
    refine Routine.raises_bind (unlessUnchanged_raises ?_) fun _ => local_raises
    exact Routine.raises_bind remote_raises fun _ => transact_raises

theorem resyncUids_returns (ended : (resyncUids self backend).MayEnd (.ok state)) :
    state = "initial" := by
  obtain ⟨_, last⟩ := Routine.mayEnd_last ended
  cases last
  rfl

theorem poll_returns (ended : (poll self backend).MayEnd (.ok state)) : state = "poll" := by
  obtain ⟨_, last⟩ := Routine.mayEnd_last ended
  cases last
  rfl

theorem initialSync_returns (ended : (initialSync self backend).MayEnd (.ok state)) :
    state = "poll" := by
  obtain ⟨_, selected⟩ := Routine.mayEnd_last ended
  obtain ⟨_, created⟩ := Routine.mayEnd_last selected
  obtain ⟨_, synced⟩ := Routine.mayEnd_last created
  obtain ⟨_, reported⟩ := Routine.mayEnd_last synced
  obtain ⟨_, last⟩ := Routine.mayEnd_last reported
  cases last
  rfl

end Outcomes

/-! ## Runs -/

def normalStates : List String := ["initial", "poll"]
def states : List String := stateHandlers.map Prod.fst

/-- What happened in a run: a process was started, or `_run_impl` was gone through once. -/
inductive Entry where
  | started
  | ran (oldState : String) (result : Except Exc String) (ending : Ending)
deriving DecidableEq

namespace Entry

/-- The loop of `_run` goes on after it. -/
def isLive : Entry → Bool
  | .started => true
  | .ran _ _ ending => ending ≠ .done

def isUidInvalid : Entry → Bool
  | .started => false
  | .ran _ (.ok _) _ => false
  | .ran _ (.error exc) _ => exc.isUidInvalid

def returnsToSame : Entry → Bool
  | .started => false
  | .ran oldState (.ok state) _ => state = oldState && state ∈ normalStates
  | .ran _ (.error _) _ => false

/-- A new process counts from zero. -/
def resets : Entry → Bool
  | .started => true
  | entry => entry.returnsToSame

/-- `_run_impl` had a new state and raised before it was stored. -/
def writeFailed : Entry → Bool
  | .started => false
  | .ran _ (.ok _) ending => ending = .raised
  | .ran _ (.error exc) ending => exc.isUidInvalid && ending = .raised

end Entry

/-- The log is read from its newest entry back to the last one that resets. -/
def uidInvalidsSince (resets : Entry → Bool) (log : List Entry) : Nat :=
  (log.takeWhile (fun entry => !resets entry)).countP Entry.isUidInvalid

/-- The runs of one engine, each with its log, newest entry first. A connection error never
leaves a handler. -/
inductive Runs (self : FolderSyncEngine) (backend : Backend) : List Entry → Status → Prop where
  | start {status : Status} (known : ∀ state ∈ status.saved, state ∈ states) :
      Runs self backend [.started] status.start
  | restart (runs : Runs self backend log status) (account : Account) :
      Runs self backend (.started :: log) { status with account }.start
  | runImpl (runs : Runs self backend log status) (live : ∀ entry ∈ log.head?, entry.isLive)
      (ended : (handle self backend status.state).MayEnd result)
      (left : result ≠ .error .connection) (fault : Option DbFault) :
      Runs self backend (.ran status.state result (status.runImpl result fault).1 :: log)
        (status.runImpl result fault).2

/-! ## One `_run_impl` -/
namespace Status
variable {status : Status} {fault : Option DbFault}

theorem settle_state : (status.settle oldState fault).2.state = status.state := by
  unfold settle updateFolderSyncStatus commit
  rcases fault with _ | _ | _ <;> grind

theorem stop_state : (status.stop fault change).2.state = status.state := by
  unfold stop commit
  rcases fault with _ | _ | _ <;> rfl

/-- What the next `_run_impl` starts with. -/
theorem runImpl_state : (status.runImpl result fault).2.state = match result with
    | .ok state => state
    | .error exc => if exc.isUidInvalid then status.state ++ " uidinvalid" else status.state := by
  cases result with
  | ok => exact settle_state
  | error exc =>
    cases exc with
    | uidInvalid =>
      unfold runImpl
      dsimp only
      split
      · exact stop_state
      · exact settle_state
    | validation => exact stop_state
    | connection | folderMissing | error => rfl

theorem settle_saved (changes : (status.settle oldState fault).1 = .returned)
    (agrees : status.state = oldState → status.saved = some oldState) :
    (status.settle oldState fault).2.saved = some status.state := by
  unfold settle updateFolderSyncStatus commit at *
  rcases fault with _ | _ | _ <;> grind

theorem stop_ne_returned : (status.stop fault change).1 ≠ .returned := by
  unfold stop commit
  rcases fault with _ | _ | _ <;> simp

/-- The two copies agree after a normal return, if they did before. -/
theorem runImpl_saved (returned : (status.runImpl result fault).1 = .returned)
    (agrees : status.saved = some status.state) :
    (status.runImpl result fault).2.saved = some (status.runImpl result fault).2.state := by
  cases result with
  | ok state =>
    rw [runImpl_state]
    exact settle_saved returned (fun _ => agrees)
  | error exc =>
    cases exc with
    | uidInvalid =>
      rw [runImpl_state]
      unfold runImpl at *
      dsimp only at *
      split at returned
      · exact absurd returned stop_ne_returned
      · rw [if_neg ‹_›]
        exact settle_saved returned (fun _ => agrees)
    | validation => exact absurd returned stop_ne_returned
    | connection | folderMissing | error => cases returned

/-- What the guard leaves behind. -/
def StoppedByGuard (status : Status) : Prop := status.account.stopResyncLoop = status.account

instance : Decidable (StoppedByGuard status) := inferInstanceAs (Decidable (_ = _))

theorem settle_account : (status.settle oldState fault).2.account = status.account := by
  unfold settle updateFolderSyncStatus commit
  rcases fault with _ | _ | _ <;> grind

/-- Only the guard stops the account in its way, and only when its transaction is not refused. -/
theorem runImpl_stopped (before : ¬ status.StoppedByGuard) :
    (status.runImpl result fault).2.StoppedByGuard ↔
      (Entry.ran oldState result ending).isUidInvalid ∧
        MAX_UIDINVALID_RESYNCS < status.uidinvalidCount + 1 ∧ fault ≠ some .refused := by
  cases result with
  | ok =>
    have same : (status.runImpl (.ok ‹_›) fault).2.account = status.account := settle_account
    simpa [Entry.isUidInvalid, StoppedByGuard, same] using before
  | error exc =>
    cases exc with
    | uidInvalid =>
      simp only [Entry.isUidInvalid, Exc.isUidInvalid, runImpl, true_and]
      split
      · rename_i many
        rcases fault with _ | _ | _
        · simp [stop, commit, StoppedByGuard, many, Account.stopResyncLoop, Account.disableSync]
        · simpa [stop, commit, StoppedByGuard, many] using before
        · simp [stop, commit, StoppedByGuard, many, Account.stopResyncLoop, Account.disableSync]
      · rename_i few
        simpa [StoppedByGuard, settle_account, few] using before
    | validation =>
      rcases fault with _ | _ | _
      · simp [runImpl, stop, commit, StoppedByGuard, Account.stopResyncLoop, Account.disableSync,
          Account.markInvalid, Entry.isUidInvalid, Exc.isUidInvalid]
      · simpa [runImpl, stop, commit, StoppedByGuard, Entry.isUidInvalid, Exc.isUidInvalid] using before
      · simp [runImpl, stop, commit, StoppedByGuard, Account.stopResyncLoop, Account.disableSync,
          Account.markInvalid, Entry.isUidInvalid, Exc.isUidInvalid]
    | connection | folderMissing | error => simpa [runImpl, Entry.isUidInvalid, Exc.isUidInvalid] using before

theorem stop_count : (status.stop fault change).2.uidinvalidCount = status.uidinvalidCount := by
  unfold stop commit
  rcases fault with _ | _ | _ <;> rfl

theorem settle_count : (status.settle oldState fault).2.uidinvalidCount =
    if status.state = oldState ∧ status.state ∈ normalStates then 0 else status.uidinvalidCount := by
  unfold settle updateFolderSyncStatus commit normalStates
  rcases fault with _ | _ | _ <;> grind

theorem append_uidinvalid_ne (state : String) : state ++ " uidinvalid" ≠ state := by
  intro same
  have lengths := congrArg String.length same
  simp only [String.length_append] at lengths
  have longer : 0 < " uidinvalid".length := by decide
  omega

/-- The counter follows the log. -/
theorem runImpl_count : (status.runImpl result fault).2.uidinvalidCount =
    if (Entry.ran status.state result ending).resets then 0
    else status.uidinvalidCount +
      if (Entry.ran status.state result ending).isUidInvalid then 1 else 0 := by
  cases result with
  | ok state =>
    refine settle_count.trans ?_
    simp [Entry.resets, Entry.returnsToSame, Entry.isUidInvalid]
  | error exc =>
    cases exc with
    | uidInvalid =>
      simp only [runImpl, Entry.resets, Entry.returnsToSame, Entry.isUidInvalid, Exc.isUidInvalid]
      split
      · exact stop_count
      · refine settle_count.trans (if_neg ?_)
        exact fun held => append_uidinvalid_ne _ held.1
    | validation => exact stop_count
    | connection | folderMissing | error => rfl

end Status

/-! ## All runs -/
section Run
variable {self : FolderSyncEngine} {backend : Backend} {status : Status} {fault : Option DbFault}

theorem uidInvalidsSince_cons : uidInvalidsSince resets (entry :: log) =
    if resets entry then 0
    else uidInvalidsSince resets log + if entry.isUidInvalid then 1 else 0 := by
  unfold uidInvalidsSince
  cases reset : resets entry <;> simp [reset, List.countP_cons]

/-- A handler returns a normal state, and only those of the normal states raise `UidInvalid`. -/
theorem handle_mayEnd (known : state ∈ states) (ended : (handle self backend state).MayEnd result) :
    match result with
    | .ok next => next ∈ normalStates
    | .error exc => exc.isUidInvalid → state ∈ normalStates := by
  simp only [states, stateHandlers, List.map_cons, List.map_nil, List.mem_cons, List.not_mem_nil,
    or_false] at known
  rcases known with rfl | rfl | rfl | rfl
  · cases result with
    | ok => simp [initialSync_returns ended, normalStates]
    | error => simp [normalStates]
  · cases result with
    | ok => simp [resyncUids_returns ended, normalStates]
    | error exc => simp [resyncUids_raises exc ended]
  · cases result with
    | ok => simp [poll_returns ended, normalStates]
    | error => simp [normalStates]
  · cases result with
    | ok => simp [resyncUids_returns ended, normalStates]
    | error exc => simp [resyncUids_raises exc ended]

theorem invalid_known (normal : state ∈ normalStates) : state ++ " uidinvalid" ∈ states := by
  simp only [normalStates, List.mem_cons, List.not_mem_nil, or_false] at normal
  rcases normal with rfl | rfl <;> decide

theorem normal_known (normal : state ∈ normalStates) : state ∈ states := by
  simp only [normalStates, List.mem_cons, List.not_mem_nil, or_false] at normal
  rcases normal with rfl | rfl <;> decide

/-- What holds along a run: the two copies of the state agree in each process as long as no write
of it has failed and the engine has not ended. -/
structure Recorded (log : List Entry) (status : Status) : Prop where
  known : status.state ∈ states
  saved : ∀ state ∈ status.saved, state ∈ states
  agrees : (∀ entry ∈ log.takeWhile (· ≠ .started), ¬ entry.writeFailed) →
    (∀ entry ∈ log.head?, entry.isLive) → status.saved = some status.state
  counted : status.uidinvalidCount = uidInvalidsSince Entry.resets log

theorem recorded_start {status : Status} (known : ∀ state ∈ status.saved, state ∈ states) :
    Recorded (.started :: log) status.start where
  known := by
    cases saved : status.saved with
    | none => simp [Status.start, saved, states, stateHandlers]
    | some state => simpa [Status.start, saved] using known state saved
  saved := by
    cases saved : status.saved with
    | none => simp [Status.start, saved, states, stateHandlers]
    | some state => simpa [Status.start, saved] using known state saved
  agrees _ _ := rfl
  counted := by simp [uidInvalidsSince_cons, Entry.resets, Status.start]

theorem runImpl_known (known : status.state ∈ states)
    (ended : (handle self backend status.state).MayEnd result) :
    (status.runImpl result fault).2.state ∈ states := by
  have outcome := handle_mayEnd known ended
  rw [Status.runImpl_state]
  cases result with
  | ok => exact normal_known outcome
  | error exc =>
    dsimp only
    split
    · exact invalid_known (outcome ‹_›)
    · exact known

theorem settle_saved_known (known : ∀ state ∈ status.saved, state ∈ states)
    (next : status.state ∈ states) :
    ∀ state ∈ (status.settle oldState fault).2.saved, state ∈ states := by
  unfold Status.settle Status.updateFolderSyncStatus Status.commit
  rcases fault with _ | _ | _ <;> grind

theorem stop_saved : (Status.stop fault change status).2.saved = status.saved := by
  unfold Status.stop Status.commit
  rcases fault with _ | _ | _ <;> rfl

theorem runImpl_saved_known (known : ∀ state ∈ status.saved, state ∈ states)
    (next : (status.runImpl result fault).2.state ∈ states) :
    ∀ state ∈ (status.runImpl result fault).2.saved, state ∈ states := by
  rw [Status.runImpl_state] at next
  cases result with
  | ok => exact settle_saved_known known next
  | error exc =>
    cases exc with
    | uidInvalid =>
      unfold Status.runImpl
      dsimp only
      split
      · rw [stop_saved]
        exact known
      · exact settle_saved_known known next
    | validation =>
      unfold Status.runImpl
      rw [stop_saved]
      exact known
    | connection | folderMissing | error => exact known

/-- Without a new state there is nothing to write. -/
theorem runImpl_raised (written : (Entry.ran oldState result
      (status.runImpl result fault).1).writeFailed = false)
    (live : (status.runImpl result fault).1 ≠ .done) :
    (status.runImpl result fault).1 = .returned ∨ (∃ exc, result = .error exc ∧
      exc.isUidInvalid = false ∧ (status.runImpl result fault).2.saved = status.saved) := by
  cases ending : (status.runImpl result fault).1 with
  | returned => exact .inl rfl
  | done => exact absurd ending live
  | raised =>
    right
    cases result with
    | ok => simp [Entry.writeFailed, ending] at written
    | error exc =>
      refine ⟨exc, rfl, ?_⟩
      cases exc with
      | uidInvalid => simp [Entry.writeFailed, Exc.isUidInvalid, ending] at written
      | validation => exact ⟨rfl, stop_saved⟩
      | connection | folderMissing | error => exact ⟨rfl, rfl⟩

theorem recorded_runImpl (before : Recorded log status) (live : ∀ entry ∈ log.head?, entry.isLive)
    (ended : (handle self backend status.state).MayEnd result) (fault : Option DbFault) :
    Recorded (.ran status.state result (status.runImpl result fault).1 :: log)
      (status.runImpl result fault).2 where
  known := runImpl_known before.known ended
  saved := runImpl_saved_known before.saved (runImpl_known before.known ended)
  agrees written stillLive := by
    have first := written _ (List.mem_cons_self)
    have agreed := before.agrees (fun entry member => written entry (List.mem_cons_of_mem _ member)) live
    rcases runImpl_raised (Bool.eq_false_iff.mpr first) (by simpa [Entry.isLive] using stillLive) with
      returned | ⟨exc, rfl, other, same⟩
    · exact Status.runImpl_saved returned agreed
    · rw [same, agreed, Status.runImpl_state]
      simp [other]
  counted := by
    rw [Status.runImpl_count, uidInvalidsSince_cons, before.counted]

theorem recorded (runs : Runs self backend log status) : Recorded log status := by
  induction runs with
  | start known => exact recorded_start known
  | restart _ account ih => exact recorded_start ih.saved
  | runImpl _ live ended _ fault ih => exact recorded_runImpl ih live ended fault

/-- Every `_run_impl` of a run starts in one of the four states, of which it finds the handler,
and comes to one of them. When it returns, the state is stored, if all writes of the state in
this process have succeeded. The guard stops the account exactly when it is not refused and this
is more than the greatest number of `UidInvalid` since the process started or a normal state was
returned to. -/
theorem runImpl_in_run (runs : Runs self backend log status)
    (live : ∀ entry ∈ log.head?, entry.isLive)
    (ended : (handle self backend status.state).MayEnd result) (fault : Option DbFault) :
    let entry := Entry.ran status.state result (status.runImpl result fault).1
    let next := (status.runImpl result fault).2
    status.state ∈ states ∧ (stateHandlers.lookup status.state).isSome ∧ next.state ∈ states ∧
      ((∀ entry ∈ log.takeWhile (· ≠ .started), ¬ entry.writeFailed) →
        (status.runImpl result fault).1 = .returned → next.saved = some next.state) ∧
      (¬ status.StoppedByGuard → (next.StoppedByGuard ↔ entry.isUidInvalid ∧
        MAX_UIDINVALID_RESYNCS < uidInvalidsSince Entry.resets (entry :: log) ∧
          fault ≠ some .refused)) := by
  intro entry next
  have before := recorded runs
  have handled : ∀ state ∈ states, (stateHandlers.lookup state).isSome := by decide
  refine ⟨before.known, handled _ before.known, runImpl_known before.known ended, ?_, ?_⟩
  · intro written returned
    exact Status.runImpl_saved returned (before.agrees written live)
  · intro running
    have guard : next.StoppedByGuard ↔ entry.isUidInvalid ∧ _ := Status.runImpl_stopped running
    refine guard.trans (and_congr_right fun invalid => ?_)
    have notReset : entry.resets = false := by
      cases result with
      | ok => cases invalid
      | error => rfl
    rw [uidInvalidsSince_cons, notReset, before.counted, if_pos invalid]
    exact Iff.rfl

end Run

namespace Trial

def account : Account where
  syncShouldRun := true
  syncState := "running"
  syncDisabledReason := none

def version : Version where
  flags := []
  labels := none
  modseq := 1

/-- The server has come to UIDVALIDITY 2. -/
def changed (saved : Nat) : World := world (server 2 (mailbox 1 1 fun _ => version)) (some (info saved))

theorem initial_invalid : (handle self .generic "initial").MayEnd (.error (.uidInvalid 2 1)) :=
  Routine.mayEnd_run (World.perform self) _ (changed 1)

theorem invalid_initial : (handle self .generic "initial uidinvalid").MayEnd (.ok "initial") :=
  Routine.mayEnd_run (World.perform self) _ (changed 2)

def initialStatus (count : Nat) : Status where
  state := "initial"
  uidinvalidCount := count
  saved := some "initial"
  account

/-- The entries of one failed initial sync and the resync after it. -/
def resyncEntries : List Entry :=
  [.ran "initial uidinvalid" (.ok "initial") .returned,
    .ran "initial" (.error (.uidInvalid 2 1)) .returned]

theorem runs_resync (runs : Runs self .generic log (initialStatus count))
    (live : ∀ entry ∈ log.head?, entry.isLive) (few : count < MAX_UIDINVALID_RESYNCS) :
    Runs self .generic (resyncEntries ++ log) (initialStatus (count + 1)) := by
  have invalid := Runs.runImpl runs live initial_invalid (by decide) none
  have notMany : ¬ MAX_UIDINVALID_RESYNCS < count + 1 := by omega
  simp only [Status.runImpl, initialStatus, notMany, if_false] at invalid
  exact Runs.runImpl invalid (by rintro entry ⟨⟩; rfl) invalid_initial (by decide) none

end Trial

open Trial in
theorem runImpl_in_first_run :
    let next := ((initialStatus 0).runImpl (.error (.uidInvalid 2 1)) none).2
    next.state = "initial uidinvalid" ∧ next.saved = some next.state := by
  have run : Runs self .generic [.started] (initialStatus 0) :=
    @Runs.start _ _ (initialStatus 0) (by decide)
  obtain ⟨_, _, _, saved, _⟩ := runImpl_in_run run (by rintro entry ⟨⟩; rfl) initial_invalid none
  exact ⟨rfl, saved (by decide) rfl⟩

namespace Trial

theorem runs_thrice (runs : Runs self .generic log (initialStatus 0))
    (live : ∀ entry ∈ log.head?, entry.isLive) :
    Runs self .generic (resyncEntries ++ (resyncEntries ++ (resyncEntries ++ log)))
      (initialStatus 3) := by
  have resynced : ∀ log, ∀ entry ∈ (resyncEntries ++ log).head?, entry.isLive := by
    rintro log entry ⟨⟩
    rfl
  have first := runs_resync runs live (by decide)
  exact runs_resync (runs_resync first (resynced _) (by decide)) (resynced _) (by decide)

theorem initial_poll : (handle self .generic "initial").MayEnd (.ok "poll") :=
  Routine.mayEnd_run (World.perform self) _ (changed 2)

theorem poll_poll : (handle self .generic "poll").MayEnd (.ok "poll") :=
  Routine.mayEnd_run (World.perform self) _ (changed 2)

end Trial

open Trial in
/-- Three resyncs, a new process and three more: the guard has not noticed. And once the write of
a state was refused, later calls return with a state that is not the stored one. -/
theorem six_invalid_across_restart :
    (∃ log status, Runs self .generic log status ∧ (∀ entry ∈ log, ¬ entry.writeFailed) ∧
      MAX_UIDINVALID_RESYNCS < uidInvalidsSince Entry.returnsToSame log ∧
        ¬ status.StoppedByGuard) ∧
    ∃ log status, Runs self .generic (.ran "poll" (.ok "poll") .returned :: log) status ∧
      status.saved ≠ some status.state := by
  have started : Runs self .generic [.started] (initialStatus 0) :=
    @Runs.start _ _ (initialStatus 0) (by decide)
  have live : ∀ log, ∀ entry ∈ (Entry.started :: log).head?, entry.isLive := by
    rintro log entry ⟨⟩
    rfl
  constructor
  · have restarted := (runs_thrice started (live _)).restart account
    exact ⟨_, _, runs_thrice restarted (live _), by decide, by decide, by decide⟩
  · have refused := Runs.runImpl started (live _) initial_poll (by decide) (some .refused)
    have returned := Runs.runImpl refused (by rintro entry ⟨⟩; rfl) poll_poll (by decide) none
    exact ⟨_, _, returned, by decide⟩

end Imap
end SyncEngine
