import SyncEngine.Transactions.SyncbackService
import SyncEngine.Transactions.SyncbackRetries

/-! A worker with its batch: what no step takes back in the log, and what holds of the entries wherever
the worker is. -/
namespace SyncEngine.Syncback

/-! ## The log -/

/-- What no step takes back: an entry that is no longer pending, and attempts. -/
def Log.Grown (log log' : Log) : Prop :=
  ∀ (id : Nat) (e : Entry), log[id]? = some e → ∃ e', log'[id]? = some e' ∧
    (e.status ≠ .pending → e'.status ≠ .pending) ∧ e.tries ≤ e'.tries

theorem Log.Grown.refl (log : Log) : log.Grown log := fun _ e at_id => ⟨e, at_id, id, Nat.le_refl _⟩

theorem settled_iff {log : Log} {id : Nat} : log.settled id = true ↔
    ∃ e : Entry, log[id]? = some e ∧ (e.status ≠ .pending ∨ 0 < e.tries) := by
  unfold Log.settled
  cases log[id]? with
  | none | some e => simp

theorem Log.Grown.settled {log log' : Log} (grown : log.Grown log') {id : Nat}
    (settled : log.settled id = true) : log'.settled id = true := by
  obtain ⟨e, at_id, past⟩ := settled_iff.mp settled
  obtain ⟨e', at_id', status, tries⟩ := grown id e at_id
  refine settled_iff.mpr ⟨e', at_id', ?_⟩
  rcases past with past | past
  · exact .inl (status past)
  · exact .inr (Nat.lt_of_lt_of_le past tries)

theorem Log.Grown.mapIdx {log : Log} {f : Nat → Entry → Entry}
    (status : ∀ (id : Nat) (e : Entry), e.status ≠ .pending → (f id e).status ≠ .pending)
    (tries : ∀ (id : Nat) (e : Entry), e.tries ≤ (f id e).tries) : log.Grown (log.mapIdx f) := by
  intro id e at_id
  rw [List.getElem?_mapIdx, at_id]
  exact ⟨f id e, rfl, status id e, tries id e⟩

theorem Log.Grown.concat (log : Log) (e : Entry) : log.Grown (log ++ [e]) := by
  intro id old at_id
  rw [List.getElem?_append_left (List.getElem?_eq_some_iff.mp at_id).1, at_id]
  exact ⟨old, rfl, fun past => past, Nat.le_refl _⟩

/-- The entries are still pending. -/
def Log.Pending (log : Log) (ids : List Nat) : Prop :=
  ∀ id ∈ ids, ∃ entry, log[id]? = some entry ∧ entry.status = .pending

/-- Entries in the order of their ids, none left out that is not settled. -/
structure Lined (log : Log) (ids : List Nat) : Prop where
  known : ∀ id ∈ ids, ∃ e, log[id]? = some e
  ascending : ids.Pairwise (· < ·)
  complete : ∀ id ∈ ids, ∀ j < id, log.settled j = true ∨ j ∈ ids

theorem Lined.grown {log log' : Log} {ids : List Nat} (lined : Lined log ids) (grown : log.Grown log') :
    Lined log' ids where
  known id mem := by
    obtain ⟨e, at_id⟩ := lined.known id mem
    obtain ⟨e', at_id', -⟩ := grown id e at_id
    exact ⟨e', at_id'⟩
  ascending := lined.ascending
  complete id mem j less := (lined.complete id mem j less).imp_left grown.settled

/-- The first of the entries settled, the others are lined up again. -/
theorem Lined.rest {log : Log} {first rest : List Nat} (lined : Lined log (first ++ rest))
    (settled : ∀ id ∈ first, log.settled id = true) : Lined log rest where
  known id mem := lined.known id (List.mem_append_right first mem)
  ascending := (List.pairwise_append.mp lined.ascending).2.1
  complete id mem j less := by
    rcases lined.complete id (List.mem_append_right first mem) j less with past | ahead
    · exact .inl past
    · exact (List.mem_append.mp ahead).imp_left (settled j)

theorem Lined.first {log : Log} {first rest : List Nat} (lined : Lined log (first ++ rest)) {id j : Nat}
    (mem : id ∈ first) (less : j < id) : log.settled j = true ∨ j ∈ first := by
  rcases lined.complete id (List.mem_append_left rest mem) j less with past | ahead
  · exact .inl past
  · rcases List.mem_append.mp ahead with here | later
    · exact .inr here
    · exact absurd ((List.pairwise_append.mp lined.ascending).2.2 id mem j later) (by omega)

/-! ## A worker with its batch -/

/-- A task under way, of a batch with these entries. -/
structure Job.Fine (log : Log) (ids : List Nat) (job : Job) : Prop where
  own : ∀ id ∈ job.ids, id ∈ ids
  rest : ∀ id ∈ World.ids job.rest, id ∈ ids
  lined : Lined log (World.ids job.rest)
  ordered : ∀ id ∈ job.ids, ∀ j < id, log.settled j = true

theorem Job.Fine.grown {log log' : Log} {ids : List Nat} {job : Job} (fine : job.Fine log ids)
    (grown : log.Grown log') : job.Fine log' ids where
  own := fine.own
  rest := fine.rest
  lined := fine.lined.grown grown
  ordered id mem j less := grown.settled (fine.ordered id mem j less)

/-- Where a worker may be with a batch of these entries. What is marked as successful is not pending,
nor is what is given up. -/
def Place.Fine (log : Log) (ids : List Nat) : Place → Prop
  | .free => False
  | .between tasks _ => (∀ id ∈ World.ids tasks, id ∈ ids) ∧ Lined log (World.ids tasks)
  | .trying job => job.Fine log ids ∧ log.Pending job.ids
  | .succeeding job left =>
    job.Fine log ids ∧ (∀ id ∈ left, id ∈ job.ids) ∧ (left = job.ids → log.Pending job.ids)
  | .failing job left marked =>
    job.Fine log ids ∧ (∀ id ∈ left, id ∈ job.ids) ∧ (marked = false → log.Pending job.ids)
  | .sleeping job => job.Fine log ids ∧ log.Pending job.ids

/-- A change of the log that leaves the batch's pending entries pending. -/
theorem Place.Fine.grown {log log' : Log} {ids : List Nat} {place : Place} (fine : place.Fine log ids)
    (grown : log.Grown log') (pending : ∀ some_ids : List Nat, (∀ id ∈ some_ids, id ∈ ids) →
      log.Pending some_ids → log'.Pending some_ids) : place.Fine log' ids := by
  cases place with
  | free => exact fine
  | between tasks batch => exact ⟨fine.1, fine.2.grown grown⟩
  | trying job => exact ⟨fine.1.grown grown, pending _ fine.1.own fine.2⟩
  | succeeding job left =>
    exact ⟨fine.1.grown grown, fine.2.1, fun all => pending _ fine.1.own (fine.2.2 all)⟩
  | failing job left marked =>
    exact ⟨fine.1.grown grown, fine.2.1, fun unmarked => pending _ fine.1.own (fine.2.2 unmarked)⟩
  | sleeping job => exact ⟨fine.1.grown grown, pending _ fine.1.own fine.2⟩

section Work
variable {w next : World} {ids : List Nat}

/-- The worker is done, or where it may be. -/
def Worked (ids : List Nat) (w next : World) : Prop :=
  w.log.Grown next.log ∧ (next.place = .free ∨ next.place.Fine next.log ids)

theorem Worked.move (log : next.log = w.log) (place : next.place = .free ∨ next.place.Fine w.log ids) :
    Worked ids w next := by
  rw [Worked, log]
  exact ⟨.refl _, place⟩

/-- An attempt at pending entries settles them. -/
theorem attempt_grown (w : World) (job : Job) : w.log.Grown (w.attempt job).log := by
  refine .mapIdx (fun id e past => ?_) fun id e => ?_
  · split <;> exact past
  · split
    · exact Nat.le_succ _
    · exact Nat.le_refl _

theorem attempt_pending (job : Job) {some_ids : List Nat} (pending : w.log.Pending some_ids) :
    (w.attempt job).log.Pending some_ids := by
  intro id mem
  obtain ⟨e, at_id, status⟩ := pending id mem
  refine ⟨_, (getElem?_amend w _ id).trans (congrArg _ at_id), ?_⟩
  split <;> exact status

theorem attempt_settled {job : Job} (pending : w.log.Pending job.ids) :
    ∀ id ∈ job.ids, (w.attempt job).log.settled id = true := by
  intro id mem
  obtain ⟨e, at_id, -⟩ := pending id mem
  have at_id' : (w.attempt job).log[id]? = some { e with tries := e.tries + 1 } := by
    rw [World.attempt, getElem?_amend, at_id, Option.map_some, if_pos mem]
  simp [Log.settled, at_id']

theorem mem_toProcess {task : Task} {id : Nat} : id ∈ w.toProcess task ↔
    id ∈ task.actionLogIds ∧ ∃ entry, w.log[id]? = some entry ∧ entry.status = .pending := by
  unfold World.toProcess
  rw [List.mem_filter]
  cases w.log[id]? with
  | none | some e => simp

theorem toProcess_pending (w : World) (task : Task) : w.log.Pending (w.toProcess task) :=
  fun _ mem => (mem_toProcess.mp mem).2

/-- Entries that a task leaves out are settled. -/
theorem settled_or_toProcess {task : Task} (known : ∀ id ∈ task.actionLogIds, ∃ e, w.log[id]? = some e)
    {id : Nat} (mem : id ∈ task.actionLogIds) : w.log.settled id = true ∨ id ∈ w.toProcess task := by
  obtain ⟨e, at_id⟩ := known id mem
  by_cases pending : e.status = .pending
  · exact .inr (mem_toProcess.mpr ⟨mem, e, at_id, pending⟩)
  · exact .inl (settled_iff.mpr ⟨e, at_id, .inl pending⟩)

theorem ids_cons (task : Task) (rest : List Task) :
    World.ids (task :: rest) = task.actionLogIds ++ World.ids rest := List.flatMap_cons

theorem worked_start (fine : w.place.Fine w.log ids) (started : w.start = some next) : Worked ids w next := by
  unfold World.start at started
  split at started
  next =>
    cases started
    exact .move rfl (.inl rfl)
  next task rest batch place =>
    rw [place] at fine
    obtain ⟨own, lined⟩ := fine
    rw [ids_cons] at own lined
    have known : ∀ id ∈ task.actionLogIds, ∃ e, w.log[id]? = some e :=
      fun id mem => lined.known id (List.mem_append_left _ mem)
    split at started
    next none_left =>
      cases started
      have past : ∀ id ∈ task.actionLogIds, w.log.settled id = true := by
        intro id mem
        rcases settled_or_toProcess known mem with past | left
        · exact past
        · rw [none_left] at left
          cases left
      exact .move rfl (.inr ⟨fun id mem => own id (List.mem_append_right _ mem), lined.rest past⟩)
    next =>
      cases started
      have pending := toProcess_pending w task
      set job : Job := ⟨w.toProcess task, 0, rest, batch⟩ with job_def
      have grown := attempt_grown w job
      have past : ∀ id ∈ task.actionLogIds, (w.attempt job).log.settled id = true := by
        intro id mem
        rcases settled_or_toProcess known mem with past | left
        · exact grown.settled past
        · exact attempt_settled pending id left
      refine ⟨grown, .inr ⟨⟨?_, ?_, (lined.grown grown).rest past, ?_⟩, attempt_pending job pending⟩⟩
      · exact fun id mem => own id (List.mem_append_left _ (mem_toProcess.mp mem).1)
      · exact fun id mem => own id (List.mem_append_right _ mem)
      · intro id mem j less
        rcases (lined.grown grown).first (mem_toProcess.mp mem).1 less with settled | here
        · exact settled
        · exact past j here
  next => cases started

theorem worked_outcome (fine : w.place.Fine w.log ids) {success : Bool}
    (ended : w.outcome success = some next) : Worked ids w next := by
  unfold World.outcome at ended
  split at ended
  next job place =>
    cases ended
    rw [place] at fine
    cases success with
    | true | false => exact .move rfl (.inr ⟨fine.1, fun _ mem => mem, fun _ => fine.2⟩)
  next => cases ended

/-- Marks an entry as successful: from now on the job may not be attempted again. -/
theorem worked_succeed (fine : w.place.Fine w.log ids) {id : Nat} (marked : w.succeed id = some next) :
    Worked ids w next := by
  unfold World.succeed at marked
  split at marked
  next job left place =>
    rw [place] at fine
    obtain ⟨fine, own, -⟩ := fine
    split at marked
    next mem =>
      cases marked
      have grown : w.log.Grown (w.amend fun other entry =>
          if other = id then { entry with status := .successful } else entry).log := by
        refine .mapIdx (fun other e past => ?_) fun other e => ?_
        · split
          · exact Status.noConfusion
          · exact past
        · split <;> exact Nat.le_refl _
      refine ⟨grown, .inr ⟨fine.grown grown, fun other inside => own other (List.mem_of_mem_filter inside), ?_⟩⟩
      intro all
      have kept := own id mem
      rw [← all] at kept
      simp at kept
    next => cases marked
  next => cases marked

theorem countFailure_grown (w : World) (id : Nat) (entry : Entry) :
    w.log.Grown (w.amend (countFailure id entry)).log := by
  refine .mapIdx (fun other e past => ?_) fun other e => (countFailure_later id entry other e).tries
  unfold countFailure
  dsimp only
  split
  · split
    · exact Status.noConfusion
    · exact past
  · split
    · exact Status.noConfusion
    · exact past

theorem countFailure_status {id other : Nat} {entry e : Entry}
    (remaining : ¬entry.retries + 1 = ACTION_MAX_NR_OF_RETRIES) :
    (countFailure id entry other e).status = e.status := by
  unfold countFailure
  simp only [remaining, if_false, false_and]
  split <;> rfl

/-- Counts a failure. Unless it was the last one, no entry is given up. -/
theorem worked_record (fine : w.place.Fine w.log ids) {id : Nat} (recorded : w.record id = some next) :
    Worked ids w next := by
  unfold World.record at recorded
  split at recorded
  next job left marked place =>
    rw [place] at fine
    obtain ⟨fine, own, pending⟩ := fine
    have fewer : ∀ other ∈ left.filter (· ≠ id), other ∈ job.ids :=
      fun other inside => own other (List.mem_of_mem_filter inside)
    split at recorded
    next mem =>
      cases recorded
      unfold World.recordFailure
      dsimp only
      split
      next => exact .move rfl (.inr ⟨fine, fewer, pending⟩)
      next entry at_id =>
        split
        next => exact .move rfl (.inl rfl)
        next =>
          have grown := countFailure_grown w id entry
          refine ⟨grown, .inr ⟨fine.grown grown, fewer, ?_⟩⟩
          intro unmarked
          simp only [Bool.or_eq_false_iff, decide_eq_false_iff_not] at unmarked
          intro other inside
          obtain ⟨e, at_other, status⟩ := pending unmarked.1 other inside
          refine ⟨_, (getElem?_amend w _ other).trans (congrArg _ at_other), ?_⟩
          rw [countFailure_status unmarked.2, status]
    next => cases recorded
  next => cases recorded

theorem worked_leave (fine : w.place.Fine w.log ids) (left : w.leave = some next) : Worked ids w next := by
  unfold World.leave at left
  split at left
  next job place =>
    cases left
    rw [place] at fine
    exact .move rfl (.inr ⟨fine.1.rest, fine.1.lined⟩)
  next job marked place =>
    cases left
    rw [place] at fine
    obtain ⟨fine, -, pending⟩ := fine
    cases marked with
    | true => exact .move rfl (.inr ⟨fine.rest, fine.lined⟩)
    | false => exact .move rfl (.inr ⟨fine, pending rfl⟩)
  next => cases left

theorem worked_wake (fine : w.place.Fine w.log ids) (woken : w.wake = some next) : Worked ids w next := by
  unfold World.wake at woken
  split at woken
  next job place =>
    rw [place] at fine
    obtain ⟨fine, pending⟩ := fine
    split at woken
    next =>
      cases woken
      set again : Job := { job with attempt := job.attempt + 1 } with again_def
      have grown := attempt_grown w again
      have still := fine.grown grown
      exact ⟨grown, .inr ⟨⟨still.own, still.rest, still.lined, still.ordered⟩,
        attempt_pending again pending⟩⟩
    next =>
      cases woken
      exact .move rfl (.inr ⟨fine.rest, fine.lined⟩)
  next => cases woken

/-- An exception ends the attempt, if no entry was marked as successful, or the batch. -/
theorem worked_timeout (fine : w.place.Fine w.log ids) (ended : w.timeout = some next)
    (calm : ∀ job left, w.place = .succeeding job left → left = job.ids) : Worked ids w next := by
  unfold World.timeout at ended
  split at ended
  next => cases ended
  next job place =>
    cases ended
    rw [place] at fine
    exact .move rfl (.inr ⟨fine.1, fun _ mem => mem, fun _ => fine.2⟩)
  next job left place =>
    cases ended
    rw [place] at fine
    exact .move rfl (.inr ⟨fine.1, fun _ mem => mem, fun _ => fine.2.2 (calm job left place)⟩)
  all_goals
    cases ended
    exact .move rfl (.inl rfl)

theorem worked_step (fine : w.place.Fine w.log ids) {event : Event} (working : event.working = true)
    (stepped : w.step event = some next)
    (calm : event = .timeout → ∀ job left, w.place = .succeeding job left → left = job.ids) :
    Worked ids w next := by
  cases event with
  | start => exact worked_start fine stepped
  | outcome => exact worked_outcome fine stepped
  | succeed => exact worked_succeed fine stepped
  | record => exact worked_record fine stepped
  | leave => exact worked_leave fine stepped
  | wake => exact worked_wake fine stepped
  | timeout => exact worked_timeout fine stepped (calm rfl)
  | _ => cases working

end Work

end SyncEngine.Syncback
