import SyncEngine.Transactions.SyncbackBatches

/-! In which order the service executes the entries of an account, and that it executes none twice. -/
namespace SyncEngine.Syncback

/-! ## The service -/

def Batch.Fine {A : Type} (log : Log) (b : Batch A) : Prop :=
  match b.stage with
  | .queued | .waiting => Lined log b.ids
  | .executing place => place.Fine log b.ids
  | .done => True

theorem Batch.Fine.grown {A : Type} {log log' : Log} {b : Batch A} (fine : b.Fine log)
    (grown : log.Grown log') (pending : b.executing = true → ∀ some_ids : List Nat,
      (∀ id ∈ some_ids, id ∈ b.ids) → log.Pending some_ids → log'.Pending some_ids) : b.Fine log' := by
  unfold Batch.Fine at fine ⊢
  cases stage : b.stage with
  | queued | waiting =>
    simp only [stage] at fine ⊢
    exact fine.grown grown
  | executing place =>
    simp only [stage] at fine ⊢
    exact Place.Fine.grown fine grown (pending (by simp [Batch.executing, stage]))
  | done => trivial

namespace Service
variable {A : Type} [DecidableEq A] {s next : Service A}

structure Valid (s : Service A) : Prop where
  registered : Registered s.batches s.runningActionIds
  fine : ∀ (i : Nat) (b : Batch A), s.batches[i]? = some b → b.Fine (s.log b.account)
  pass : ∀ pass, s.pass = some pass → pass.Fine (s.log pass.account) (s.running pass.account)

theorem valid_initial (log : A → Log) (invalid : A → Bool) : (initial log invalid).Valid where
  registered := by constructor <;> simp [initial]
  fine := by simp [initial]
  pass := by simp [initial]

theorem Valid.mem_running (valid : s.Valid) {i id : Nat} {b : Batch A} (at_i : s.batches[i]? = some b)
    (live : b.live = true) (mem : id ∈ b.ids) : s.running b.account id = true :=
  decide_eq_true ((valid.registered.running _ _).mpr ⟨b, List.mem_of_getElem? at_i, live, rfl, mem⟩)

omit [DecidableEq A] in
theorem executing_live {b : Batch A} (executing : b.executing = true) : b.live = true := by
  unfold Batch.executing at executing
  unfold Batch.live
  split at executing
  next stage => simp [stage]
  next => cases executing

omit [DecidableEq A] in
theorem amend_other [DecidableEq A] {account a : A} (log : Log) (other : a ≠ account) :
    (s.amend account log).log a = s.log a := Function.update_of_ne other _ _

theorem amend_own (account : A) (log : Log) : (s.amend account log).log account = log :=
  Function.update_self _ _ _

theorem amend_grown {account : A} {log : Log} (grown : (s.log account).Grown log) (a : A) :
    (s.log a).Grown ((s.amend account log).log a) := by
  by_cases same : a = account
  · subst same
    rwa [amend_own]
  · rw [amend_other log same]
    exact .refl _

/-- The log of an account changes, and not for what is running. -/
theorem Valid.amend (valid : s.Valid) {account : A} {log : Log} (grown : (s.log account).Grown log)
    (kept : ∀ id, s.running account id = true → ∀ e, (s.log account)[id]? = some e → log[id]? = some e) :
    (s.amend account log).Valid := by
  constructor
  · exact valid.registered
  · intro i b at_i
    refine (valid.fine i b at_i).grown (amend_grown grown b.account) ?_
    intro executing some_ids own pending id mem
    obtain ⟨e, at_id, status⟩ := pending id mem
    by_cases same : b.account = account
    · have running := valid.mem_running at_i (executing_live executing) (own id mem)
      rw [same] at running at_id ⊢
      rw [amend_own]
      exact ⟨e, kept id running e at_id, status⟩
    · rw [amend_other log same]
      exact ⟨e, at_id, status⟩
  · intro pass under_way
    exact (valid.pass pass under_way).grown (amend_grown grown pass.account)

/-- Another pass, or none. -/
theorem Valid.withPass (valid : s.Valid) {pass : Option (Pass A)}
    (fine : ∀ p, pass = some p → p.Fine (s.log p.account) (s.running p.account)) :
    Valid { s with pass := pass } where
  registered := valid.registered
  fine := valid.fine
  pass := fine

theorem Valid.commit (valid : s.Valid) (account : A) (e : Entry) :
    (s.amend account (s.log account ++ [e])).Valid :=
  valid.amend (.concat _ e) fun id _ old at_id => by
    rw [List.getElem?_append_left (List.getElem?_eq_some_iff.mp at_id).1, at_id]

theorem Valid.query (valid : s.Valid) (account : A) : Valid { s with pass := some {
    account, entries := ((s.log account).zipIdx.filter fun (entry, _) => entry.status = .pending).take batchSize,
    syncState := none, tasks := [], lastTask := none, skipped := [] } } := by
  refine valid.withPass fun p is_p => ?_
  cases is_p
  exact query_fine account (s.log account) (s.running account)

/-- An entry that is not running is given up. -/
theorem Valid.expire (valid : s.Valid) {account : A} {id : Nat} (idle : s.running account id = false)
    (age : Nat) : (s.amend account ((s.log account).modify id fun entry =>
      { entry with status := .failed, expired := some age })).Valid := by
  refine valid.amend ?_ ?_
  · intro j e at_j
    rw [List.getElem?_modify, at_j]
    refine ⟨_, rfl, ?_, ?_⟩
    · split
      · exact fun _ => Status.noConfusion
      · exact fun past => past
    · split <;> exact Nat.le_refl _
  · intro j running e at_j
    have other : id ≠ j := by
      rintro rfl
      simp [running] at idle
    rw [List.getElem?_modify_ne _ _ other, at_j]

theorem expired_settled {log : Log} {id : Nat} (age : Nat) (known : ∃ e, log[id]? = some e) :
    Log.settled (log.modify id fun entry => { entry with status := .failed, expired := some age }) id =
      true := by
  obtain ⟨e, at_id⟩ := known
  refine settled_iff.mpr ⟨{ e with status := .failed, expired := some age }, ?_, .inl Status.noConfusion⟩
  rw [List.getElem?_modify_eq, at_id]
  rfl

/-- Merging keeps the ids of a task's entries in their order. -/
theorem tryMergeWith_ids {last task merged : Task} (merges : last.tryMergeWith task = some merged) :
    merged.actionLogIds = last.actionLogIds ++ task.actionLogIds := by
  unfold Task.tryMergeWith at merges
  repeat' split at merges
  all_goals cases merges
  rfl

/-- The body of the loop over the entries. -/
theorem Valid.examine (valid : s.Valid) {pass : Pass A} {entry : Entry} {id : Nat} (now : Nat)
    (under_way : s.pass = some pass) (head : pass.entries.head? = some (entry, id))
    (calm : s.running pass.account id = false → s.found pass = false →
      ∀ j ∈ pass.skipped, (s.log pass.account).settled j = true) :
    (s.examine pass entry id now).Valid := by
  have fine := valid.pass pass under_way
  obtain ⟨rest, entries⟩ : ∃ rest, pass.entries = (entry, id) :: rest := by
    cases all : pass.entries with
    | nil => simp [all] at head
    | cons first rest =>
      rw [all, List.head?_cons, Option.some.injEq] at head
      exact ⟨rest, by rw [head]⟩
  have ahead : pass.ahead = id :: rest.map (·.2) := by simp [Pass.ahead, entries]
  unfold Service.examine
  split
  next => exact valid.withPass (by simp)
  next idle =>
    rw [Bool.not_eq_true] at idle
    split
    next =>
      dsimp only
      split
      next =>
        have expired := valid.expire idle (now - entry.createdAt)
        refine expired.withPass fun p is_p => ?_
        cases is_p
        refine (expired.pass pass under_way).skip ahead (by simp [Pass.ahead, entries]) rfl
          (fun j mem => mem) (.inl ?_)
        have settled := expired_settled (now - entry.createdAt) (fine.known id (by simp [ahead]))
        simpa [Service.amend] using settled
      next =>
        refine valid.withPass fun p is_p => ?_
        cases is_p
        exact fine.skip ahead (by simp [Pass.ahead, entries]) rfl
          (fun j mem => List.mem_append_left _ mem) (.inr (List.mem_append_right _ (List.mem_singleton_self id)))
    next valid_account =>
      rw [Bool.not_eq_true] at valid_account
      have settled := calm idle valid_account
      have takes : ∀ {next : Pass A}, next.account = pass.account → next.ahead = rest.map (·.2) →
          next.skipped = pass.skipped → next.ids = pass.ids ++ [id] → Valid { s with pass := some next } := by
        intro next own behind skipped ids
        refine valid.withPass fun p is_p => ?_
        cases is_p
        rw [own]
        exact fine.take ahead behind ids skipped idle settled
      dsimp only
      split
      next no_last =>
        refine takes rfl (by simp [Pass.ahead, entries]) rfl ?_
        simp [Pass.ids, no_last, World.ids, taskOf]
      next last is_last =>
        split
        next =>
          refine takes rfl (by simp [Pass.ahead, entries]) rfl ?_
          simp [Pass.ids, is_last, World.ids, taskOf]
        next merged merges =>
          refine takes rfl (by simp [Pass.ahead, entries]) rfl ?_
          have ids := tryMergeWith_ids merges
          simp [Pass.ids, is_last, World.ids, taskOf, ids]

/-- The end of a pass. -/
theorem Valid.queue (valid : s.Valid) {pass : Pass A} (under_way : s.pass = some pass) :
    (s.queue pass).Valid := by
  have fine := valid.pass pass under_way
  unfold Service.queue
  split
  next => exact valid.withPass (by simp)
  next tasks _ =>
    have fresh : ∀ id ∈ World.ids (pass.tasks ++ pass.lastTask.toList),
        (pass.account, id) ∉ s.runningActionIds :=
      fun id mem => of_decide_eq_false (fine.fresh id mem)
    refine ⟨valid.registered.queue rfl fresh, ?_, by simp⟩
    intro i b at_i
    rcases getElem?_concat.mp at_i with old | ⟨-, rfl⟩
    · exact valid.fine i b old
    · exact fine.lined

/-- While a batch executes, its account's log changes for it, and no other batch of the account has a
place in it. -/
theorem Valid.others (valid : s.Valid) {n : Nat} {b : Batch A} (at_n : s.batches[n]? = some b) {log : Log}
    (grown : (s.log b.account).Grown log) (executing : log = s.log b.account ∨ b.executing = true)
    {i : Nat} {c : Batch A} (other : i ≠ n) (at_i : s.batches[i]? = some c) :
    c.Fine ((s.amend b.account log).log c.account) := by
  refine (valid.fine i c at_i).grown (amend_grown grown c.account) ?_
  intro c_executing some_ids _ pending
  by_cases same : c.account = b.account
  · rcases executing with unchanged | b_executing
    · rw [same] at pending ⊢
      rwa [amend_own, unchanged]
    · exact absurd (valid.registered.exclusive i n c b at_i at_n c_executing b_executing same) other
  · rwa [amend_other log same]

/-- A batch moves on, and the log with it. -/
theorem Valid.move (valid : s.Valid) {n : Nat} {b : Batch A} (at_n : s.batches[n]? = some b)
    (live : b.live = true) (stage : Stage) {log : Log} (grown : (s.log b.account).Grown log)
    (executing : log = s.log b.account ∨ b.executing = true)
    (still : Batch.live { b with stage := stage } = true)
    (alone : Batch.executing { b with stage := stage } = true → ∀ (i : Nat) (c : Batch A),
      s.batches[i]? = some c → c.executing = true → c.account = b.account → i = n)
    (fine : Batch.Fine log { b with stage := stage }) :
    Valid { s.amend b.account log with batches := s.batches.set n { b with stage := stage } } := by
  constructor
  · exact valid.registered.move at_n live still alone
  · intro i c at_i
    rcases (getElem?_stage at_n).mp at_i with ⟨-, rfl⟩ | ⟨other, old⟩
    · exact (amend_own (s := s) b.account log).symm ▸ fine
    · exact valid.others at_n grown executing other old
  · intro pass under_way
    exact (valid.pass pass under_way).grown (amend_grown grown pass.account)

/-- A worker is done with its batch, and leaves the log as it is then. -/
theorem Valid.finish (valid : s.Valid) {n : Nat} {b : Batch A} (at_n : s.batches[n]? = some b)
    (live : b.live = true) {log : Log} (grown : (s.log b.account).Grown log)
    (executing : log = s.log b.account ∨ b.executing = true) :
    ((s.amend b.account log).finish n b).Valid := by
  constructor
  · exact valid.registered.finish at_n live
  · intro i c at_i
    rcases (getElem?_stage at_n).mp at_i with ⟨-, rfl⟩ | ⟨other, old⟩
    · trivial
    · exact valid.others at_n grown executing other old
  · intro pass under_way
    have fine := (valid.pass pass under_way).grown (amend_grown grown pass.account)
    refine ⟨?_, fine.lined, fine.ascending, fine.later, fine.known, fine.complete⟩
    intro id mem
    have idle := of_decide_eq_false (fine.fresh id mem)
    exact decide_eq_false fun running => idle (List.mem_of_mem_filter running)

theorem amend_self (account : A) : s.amend account (s.log account) = s := by
  simp [Service.amend]

omit [DecidableEq A] in
theorem queued_first {n : Nat} {b : Batch A}
    (first : s.batches.findIdx? (·.stage matches .queued) = some n) (at_n : s.batches[n]? = some b) :
    b.stage = .queued := by
  obtain ⟨inside, is_queued, -⟩ := List.findIdx?_eq_some_iff_getElem.mp first
  obtain ⟨_, rfl⟩ := List.getElem?_eq_some_iff.mp at_n
  split at is_queued
  next stage => exact stage
  next => cases is_queued

/-- A worker's step with its batch. -/
theorem Valid.work (valid : s.Valid) {n : Nat} {b : Batch A} {place : Place} {w : World} {event : Event}
    (at_n : s.batches[n]? = some b) (executes : b.stage = .executing place)
    (working : event.working = true) (stepped : (s.view b place).step event = some w)
    (calm : event = .timeout → ∀ job left, place = .succeeding job left → left = job.ids) :
    (s.work n b w).Valid := by
  have executing : b.executing = true := by simp [Batch.executing, executes]
  have fine := valid.fine n b at_n
  unfold Batch.Fine at fine
  rw [executes] at fine
  obtain ⟨grown, place⟩ := worked_step (w := s.view b place) fine working stepped calm
  unfold Service.work
  split
  next => exact valid.finish at_n (executing_live executing) grown (.inr executing)
  next not_free =>
    refine valid.move at_n (executing_live executing) _ grown (.inr executing) rfl ?_ ?_
    · intro _ i c at_i c_executing same
      exact valid.registered.exclusive i n c b at_i at_n c_executing executing same
    · rcases place with is_free | fine
      · exact absurd is_free not_free
      · exact fine

theorem Valid.take (valid : s.Valid) {numWorkers : Nat}
    (stepped : s.step numWorkers .take = some next) : next.Valid := by
  simp only [Service.step] at stepped
  split at stepped
  next => cases stepped
  next n first =>
    split at stepped
    next =>
      obtain ⟨b, at_n, rfl⟩ := Option.map_eq_some_iff.mp stepped
      have is_queued := queued_first first at_n
      have moved := valid.move at_n (by simp [Batch.live, is_queued]) .waiting
        (.refl _) (.inl rfl) rfl (by simp [Batch.executing]) (by
          have fine := valid.fine n b at_n
          unfold Batch.Fine at fine
          rwa [is_queued] at fine)
      rwa [amend_self] at moved
    next => cases stepped

theorem Valid.acquire (valid : s.Valid) {numWorkers : Nat} {n : Nat}
    (stepped : s.step numWorkers (.acquire n) = some next) : next.Valid := by
  simp only [Service.step] at stepped
  split at stepped
  next b at_n =>
    split at stepped
    next is_waiting =>
      split at stepped
      next => cases stepped
      next free =>
        cases stepped
        have fine := valid.fine n b at_n
        unfold Batch.Fine at fine
        rw [is_waiting] at fine
        have moved := valid.move at_n (by simp [Batch.live, is_waiting])
          (.executing (.between b.tasks b.ids)) (.refl _) (.inl rfl) rfl ?_ ⟨fun _ mem => mem, fine⟩
        · rwa [amend_self] at moved
        · intro _ i c at_i executing same
          refine absurd (List.any_eq_true.mpr ⟨c, List.mem_of_getElem? at_i, ?_⟩) free
          simp [executing, same]
    next => cases stepped
  next => cases stepped

theorem Valid.giveUp (valid : s.Valid) {numWorkers : Nat} {n : Nat}
    (stepped : s.step numWorkers (.giveUp n) = some next) : next.Valid := by
  simp only [Service.step] at stepped
  split at stepped
  next b at_n =>
    split at stepped
    next is_waiting =>
      cases stepped
      have finished := valid.finish at_n (by simp [Batch.live, is_waiting]) (.refl _) (.inl rfl)
      rwa [amend_self] at finished
    next => cases stepped
  next => cases stepped

theorem Valid.workStep (valid : s.Valid) {numWorkers : Nat} {n : Nat} {event : Event} (calm : s.calm (.work n event) = true)
    (stepped : s.step numWorkers (.work n event) = some next) : next.Valid := by
  simp only [Service.step] at stepped
  split at stepped
  next b at_n =>
    split at stepped
    next place executes =>
      split at stepped
      next working =>
        obtain ⟨w, worked, rfl⟩ := Option.map_eq_some_iff.mp stepped
        exact valid.work at_n executes working worked fun is_timeout job left is_place => by
          subst is_timeout is_place
          obtain ⟨account, tasks, stage⟩ := b
          obtain rfl : stage = .executing (.succeeding job left) := executes
          simpa [Service.calm, at_n] using calm
      next => cases stepped
    next => cases stepped
  next => cases stepped

theorem Valid.step (valid : s.Valid) {numWorkers : Nat} {step : Step A} (calm : s.calm step = true)
    (stepped : s.step numWorkers step = some next) : next.Valid := by
  cases step with
  | commit account action recordId removedLabels addedLabels now =>
    cases stepped
    exact valid.commit account _
  | account account invalid =>
    cases stepped
    exact ⟨valid.registered, valid.fine, valid.pass⟩
  | query account =>
    simp only [Service.step] at stepped
    split at stepped
    next => cases stepped
    next =>
      cases stepped
      exact valid.query account
  | examine now =>
    simp only [Service.step] at stepped
    split at stepped
    next pass under_way =>
      obtain ⟨⟨entry, id⟩, head, rfl⟩ := Option.map_eq_some_iff.mp stepped
      refine valid.examine now under_way head fun idle valid_account => ?_
      simpa [Service.calm, under_way, head, idle, valid_account] using calm
    next => cases stepped
  | queue =>
    simp only [Service.step] at stepped
    split at stepped
    next pass under_way =>
      split at stepped
      next =>
        cases stepped
        exact valid.queue under_way
      next => cases stepped
    next => cases stepped
  | abort =>
    obtain ⟨pass, -, rfl⟩ := Option.map_eq_some_iff.mp stepped
    exact valid.withPass (by simp)
  | take => exact valid.take stepped
  | acquire n => exact valid.acquire stepped
  | giveUp n => exact valid.giveUp stepped
  | work n event => exact valid.workStep calm stepped

theorem Valid.run {numWorkers : Nat} {steps : List (Step A)} (valid : s.Valid)
    (calm : s.allCalm numWorkers steps = true) (ran : s.run numWorkers steps = some next) : next.Valid := by
  induction steps generalizing s with
  | nil =>
    cases ran
    exact valid
  | cons step steps ih =>
    obtain ⟨between, stepped, ran⟩ := Option.bind_eq_some_iff.mp ran
    simp only [Service.allCalm, stepped, Option.all_some, Bool.and_eq_true] at calm
    exact ih (valid.step calm.1 stepped) calm.2 ran

theorem Valid.orderly (valid : s.Valid) : s.Orderly := by
  have trying {b : Batch A} (mem : b ∈ s.batches) {job : Job} (executes : b.stage = .executing (.trying job)) :
      job.Fine (s.log b.account) b.ids ∧ (s.log b.account).Pending job.ids := by
    obtain ⟨i, at_i⟩ := List.mem_iff_getElem?.mp mem
    have fine := valid.fine i b at_i
    unfold Batch.Fine at fine
    rwa [executes] at fine
  constructor
  · exact valid.registered.unique
  · exact fun account id => decide_eq_true_iff.trans (valid.registered.running account id)
  · exact valid.registered.exclusive
  · exact fun b mem job executes => (trying mem executes).2
  · exact fun b mem job executes => (trying mem executes).1.ordered

/-- In every run away from the slips: no entry is in two live batches, `running_action_ids` has those
of the live batches, an account's batches execute one at a time, and an entry executes while it is
pending, after every earlier entry of its account. -/
theorem orderly_while_calm (numWorkers : Nat) (log : A → Log) (invalid : A → Bool) (steps : List (Step A))
    (calm : (initial log invalid).allCalm numWorkers steps = true)
    (ran : (initial log invalid).run numWorkers steps = some s) : s.Orderly :=
  ((valid_initial log invalid).run calm ran).orderly

def oneEntry : Log := [{
  action := .move, recordId := 1, removedLabels := [], addedLabels := [], createdAt := 0
  status := .pending, retries := 0, tries := 0, expired := none }]

/-- Two workers, each with an account. -/
def inTurn : List (Step Bool) :=
  [.query false, .examine 0, .queue, .query true, .examine 0, .queue, .take, .take, .acquire 1, .acquire 0,
    .work 0 .start, .work 1 .start, .work 1 (.outcome true), .work 1 (.succeed 0), .work 1 .leave,
    .work 1 .start]

theorem two_accounts_orderly :
    ∃ s, (initial (fun _ : Bool => oneEntry) fun _ => false).run 2 inTurn = some s ∧ s.Orderly :=
  ⟨_, rfl, orderly_while_calm 2 (fun _ => oneEntry) (fun _ => false) inTurn (by decide) rfl⟩

/-- The worker's timeout strikes when the entry has been marked as successful: the attempt counts as
failed, and the next one executes the entry again. -/
theorem executed_twice : ¬∀ (log : Unit → Log) (steps : List (Step Unit)) s,
    (initial log fun _ => false).run 1 steps = some s → s.Orderly := by
  intro orderly
  have again := (orderly (fun _ => oneEntry)
    [.query (), .examine 0, .queue, .take, .acquire 0, .work 0 .start, .work 0 (.outcome true),
      .work 0 (.succeed 0), .work 0 .timeout, .work 0 (.record 0), .work 0 .leave, .work 0 .wake] _ rfl).pending
    _ (List.mem_singleton_self _) _ rfl 0 (by decide)
  obtain ⟨entry, at_zero, pending⟩ := again
  obtain rfl := Option.some.inj at_zero
  cases pending

end Service

end SyncEngine.Syncback
