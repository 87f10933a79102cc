import SyncEngine.Transactions.Syncback
import SyncEngine.Util.Lookup

/-! How often the entries of the log have been tried when they are given up, and what keeps the entries
of a merged task in step. -/
namespace SyncEngine
namespace Syncback

section Excused
variable {log : Log} {e e' : Entry} {f : Nat → Entry → Entry}

/-- Given up for an account that is invalid or stopped, past the grace period. -/
def Entry.Expired (e : Entry) : Prop := ∃ age ∈ e.expired, INVALID_ACCOUNT_GRACE_PERIOD < age

/-- Why an entry may have been given up: it has been tried often enough itself, its account has been
invalid for too long, or the event of the same record could not be created. -/
inductive Excused (log : Log) (e : Entry) : Prop
  | tried (tried : ACTION_MAX_NR_OF_RETRIES ≤ e.tries)
  | expired (expired : e.Expired)
  | uncreated (c : Entry) (member : c ∈ log) (create : c.action = .createEvent)
      (same : c.recordId = e.recordId) (tried : ACTION_MAX_NR_OF_RETRIES ≤ c.tries)

/-- What no step takes back of an entry. -/
structure Entry.Later (e e' : Entry) : Prop where
  action : e'.action = e.action
  recordId : e'.recordId = e.recordId
  tries : e.tries ≤ e'.tries
  expired : e.Expired → e'.Expired

theorem Entry.Later.refl (e : Entry) : e.Later e := ⟨rfl, rfl, Nat.le_refl _, id⟩

theorem Excused.mono (excused : Excused log e) (grown : ∀ c ∈ log, ∃ c' ∈ later, c.Later c')
    (same : e.Later e') : Excused later e' := by
  cases excused with
  | tried tried => exact .tried (Nat.le_trans tried same.tries)
  | expired expired => exact .expired (same.expired expired)
  | uncreated c member create record tried =>
    obtain ⟨c', inside, kept⟩ := grown c member
    exact .uncreated c' inside (kept.action.trans create)
      ((kept.recordId.trans record).trans same.recordId.symm) (Nat.le_trans tried kept.tries)

theorem grown_mapIdx (later : ∀ id (e : Entry), e.Later (f id e)) : ∀ c ∈ log, ∃ c' ∈ log.mapIdx f, c.Later c' := by
  intro c member
  obtain ⟨id, inside, rfl⟩ := List.getElem_of_mem member
  exact ⟨f id log[id], List.mem_mapIdx.mpr ⟨id, inside, rfl⟩, later id _⟩

end Excused

/-- The entries that the worker has in hand. -/
def Place.entries : Place → List Nat
  | .trying job | .succeeding job _ | .sleeping job => job.ids
  | .failing job left _ => job.ids ++ left
  | .free | .between _ _ => []

theorem Place.due_entries {place : Place} {id : Nat} (due : id ∈ place.due) : id ∈ place.entries := by
  cases place with
  | free | between | sleeping => cases due
  | trying | succeeding => exact due
  | failing => exact List.mem_append_right _ due

section Counted
variable {w next : World}

/-- An entry has been tried at least as often as its failures have been counted, and more often while
an attempt is still to be counted. -/
structure Counted (w : World) : Prop where
  known : ∀ id ∈ w.place.entries, id < w.log.length
  retries : ∀ (id : Nat) (e : Entry), w.log[id]? = some e → e.retries ≤ e.tries
  due : ∀ id ∈ w.place.due, ∀ (e : Entry), w.log[id]? = some e → e.retries < e.tries
  failed : ∀ (id : Nat) (e : Entry), w.log[id]? = some e → e.status = .failed → Excused w.log e

theorem getElem?_amend (w : World) (f : Nat → Entry → Entry) (id : Nat) :
    (w.amend f).log[id]? = (w.log[id]?).map (f id) := by
  simp [World.amend]

/-- A step that commits a change of some entries. -/
theorem Counted.amend (counted : Counted w) {f : Nat → Entry → Entry} (log : next.log = w.log.mapIdx f)
    (known : ∀ id ∈ next.place.entries, id < w.log.length) (later : ∀ id (e : Entry), e.Later (f id e))
    (retries : ∀ (id : Nat) (e : Entry), w.log[id]? = some e → (f id e).retries ≤ (f id e).tries)
    (due : ∀ id ∈ next.place.due, ∀ (e : Entry), w.log[id]? = some e → (f id e).retries < (f id e).tries)
    (failed : ∀ (id : Nat) (e : Entry), w.log[id]? = some e → (f id e).status = .failed → e.status ≠ .failed →
      Excused next.log (f id e)) : Counted next := by
  constructor
  · intro id member
    rw [log, List.length_mapIdx]
    exact known id member
  · intro id e present
    rw [log, List.getElem?_mapIdx] at present
    obtain ⟨before, stored, rfl⟩ := Option.map_eq_some_iff.mp present
    exact retries id before stored
  · intro id member e present
    rw [log, List.getElem?_mapIdx] at present
    obtain ⟨before, stored, rfl⟩ := Option.map_eq_some_iff.mp present
    exact due id member before stored
  · intro id e present gone
    rw [log, List.getElem?_mapIdx] at present
    obtain ⟨before, stored, rfl⟩ := Option.map_eq_some_iff.mp present
    by_cases old : before.status = .failed
    · refine (counted.failed id before stored old).mono ?_ (later id before)
      rw [log]
      exact grown_mapIdx later
    · exact failed id before stored gone old

/-- A step in the service's memory alone that leaves no more to be counted. -/
theorem Counted.move (counted : Counted w) (log : next.log = w.log)
    (known : ∀ id ∈ next.place.entries, id < w.log.length)
    (due : ∀ id ∈ next.place.due, id ∈ w.place.due) : Counted next := by
  constructor
  · rw [log]
    exact known
  · intro id e present
    rw [log] at present
    exact counted.retries id e present
  · intro id member e present
    rw [log] at present
    exact counted.due id (due id member) e present
  · intro id e present failed
    rw [log] at present ⊢
    exact counted.failed id e present failed

theorem Counted.attempt (counted : Counted w) {job : Job}
    (known : ∀ id ∈ job.ids, id < w.log.length) : Counted (w.attempt job) := by
  refine counted.amend rfl known ?_ ?_ ?_ ?_
  · intro id e
    split
    · exact ⟨rfl, rfl, Nat.le_succ _, fun expired => expired⟩
    · exact .refl e
  · intro id e present
    have before := counted.retries id e present
    split
    · exact Nat.le_succ_of_le before
    · exact before
  · intro id member e present
    rw [if_pos (show id ∈ job.ids from member)]
    exact Nat.lt_succ_of_le (counted.retries id e present)
  · intro id e _ failed old
    split at failed <;> exact absurd failed old

theorem batchLogEntries_expired (running : List Nat) (invalid : Bool) (now : Nat)
    (entries : List (Entry × Nat)) (tasks : List Task) (lastTask : Option Task)
    (expired : List (Nat × Nat)) (old : ∀ item ∈ expired, INVALID_ACCOUNT_GRACE_PERIOD < item.2) :
    ∀ item ∈ (batchLogEntries running invalid now tasks lastTask expired entries).1,
      INVALID_ACCOUNT_GRACE_PERIOD < item.2 := by
  induction entries generalizing tasks lastTask expired with
  | nil =>
    unfold batchLogEntries
    split <;> exact old
  | cons first rest ih =>
    obtain ⟨entry, id⟩ := first
    unfold batchLogEntries
    split
    · exact old
    · split
      · dsimp only
        split
        · next aged =>
          refine ih _ _ _ fun item member => ?_
          rcases List.mem_append.mp member with before | new
          · exact old item before
          · rw [List.mem_singleton.mp new]
            exact aged
        · exact ih _ _ _ old
      · split
        · exact ih _ _ _ old
        · dsimp only
          split <;> exact ih _ _ _ old

/-- Entries are given up unprocessed only past the grace period. -/
theorem Counted.process (counted : Counted w) (now : Nat) : Counted (w.process now) := by
  have aged := batchLogEntries_expired w.running w.invalid now w.entries [] none [] nofun
  refine counted.amend rfl counted.known ?_ ?_ ?_ ?_
  · intro id e
    split
    · next age found => exact ⟨rfl, rfl, Nat.le_refl _, fun _ => ⟨age, rfl, aged _ (mem_of_lookup_eq_some found)⟩⟩
    · exact .refl e
  · intro id e present
    have before := counted.retries id e present
    split <;> exact before
  · intro id member e present
    have before := counted.due id member e present
    split <;> exact before
  · intro id e present failed old
    split at failed
    · next age found =>
      exact .expired ⟨age, rfl, aged _ (mem_of_lookup_eq_some found)⟩
    · exact absurd failed old

theorem countFailure_later (id : Nat) (entry : Entry) (other : Nat) (e : Entry) :
    e.Later (countFailure id entry other e) := by
  unfold countFailure
  dsimp only
  split
  · exact ⟨rfl, rfl, Nat.le_refl _, fun expired => expired⟩
  · split
    · exact ⟨rfl, rfl, Nat.le_refl _, fun expired => expired⟩
    · exact .refl e

theorem countFailure_same (id : Nat) (entry : Entry) :
    (countFailure id entry id e).retries = entry.retries + 1 := by
  simp [countFailure]

theorem countFailure_other {id j : Nat} (entry e : Entry) (other : j ≠ id) :
    (countFailure id entry j e).retries = e.retries := by
  unfold countFailure
  dsimp only
  rw [if_neg other]
  split <;> rfl

/-- An entry is given up by a failure only after its own last attempt, or after that of the entry that
was to create the event. -/
theorem countFailure_failed {id other : Nat} {entry e : Entry}
    (failed : (countFailure id entry other e).status = .failed) (before : e.status ≠ .failed) :
    entry.retries + 1 = ACTION_MAX_NR_OF_RETRIES ∧
      (other = id ∨ entry.action = .createEvent ∧ e.recordId = entry.recordId) := by
  unfold countFailure at failed
  dsimp only at failed
  split at failed
  · next same =>
    split at failed
    · next exhausted => exact ⟨exhausted, .inl same⟩
    · exact absurd failed before
  · split at failed
    · next cascade => exact ⟨cascade.1, .inr ⟨cascade.2.1, cascade.2.2.1⟩⟩
    · exact absurd failed before

theorem Counted.recordFailure (counted : Counted w) {id : Nat}
    (place : w.place = .failing job left marked) (member : id ∈ left) :
    Counted (w.recordFailure job left marked id) := by
  have known := counted.known
  rw [place] at known
  have fewer : ∀ other ∈ left.filter (· ≠ id), other ∈ w.place.due := by
    intro other inside
    rw [place]
    exact List.mem_of_mem_filter inside
  have still : ∀ other ∈ Place.entries (.failing job (left.filter (· ≠ id)) marked),
      other < w.log.length := by
    intro other inside
    rcases List.mem_append.mp inside with here | here
    · exact known other (List.mem_append_left _ here)
    · exact known other (List.mem_append_right _ (List.mem_of_mem_filter here))
  unfold World.recordFailure
  dsimp only
  split
  · exact counted.move rfl still fewer
  · next entry present =>
    have tried : entry.retries < entry.tries := counted.due id (by rw [place]; exact member) entry present
    split
    · exact counted.move rfl nofun nofun
    · refine counted.amend rfl still (countFailure_later id entry) ?_ ?_ ?_
      · intro other e stored
        have grown := (countFailure_later id entry other e).tries
        by_cases same : other = id
        · subst same
          cases Option.some.inj (stored.symm.trans present)
          rw [countFailure_same]
          omega
        · rw [countFailure_other entry e same]
          exact Nat.le_trans (counted.retries other e stored) grown
      · intro other inside e stored
        have different : other ≠ id := by simpa using (List.mem_filter.mp inside).2
        rw [countFailure_other entry e different]
        exact Nat.lt_of_lt_of_le (counted.due other (fewer other inside) e stored)
          (countFailure_later id entry other e).tries
      · intro other e stored failed old
        obtain ⟨exhausted, cause⟩ := countFailure_failed failed old
        have kept := countFailure_later id entry other e
        rcases cause with same | ⟨create, record⟩
        · subst same
          cases Option.some.inj (stored.symm.trans present)
          exact .tried (Nat.le_trans (by omega) kept.tries)
        · obtain ⟨created, inside, later⟩ := grown_mapIdx (countFailure_later id entry) entry
            (List.mem_of_getElem? present)
          refine .uncreated created inside (later.action.trans create) ?_ ?_
          · exact (later.recordId.trans record.symm).trans kept.recordId.symm
          · exact Nat.le_trans (by omega) later.tries

theorem Counted.arrive (counted : Counted w) {e : Entry} (log : next.log = w.log ++ [e])
    (place : next.place = w.place) (untried : e.retries = 0) (pending : e.status = .pending) :
    Counted next := by
  have old : ∀ id other, next.log[id]? = some other → w.log[id]? = some other ∨
      id = w.log.length ∧ other = e := by
    intro id other present
    rw [log, List.getElem?_append] at present
    split at present
    · exact .inl present
    · next beyond =>
      obtain ⟨inside, same⟩ := List.getElem?_eq_some_iff.mp present
      simp only [List.length_singleton] at inside
      exact .inr ⟨by omega, by simpa [show id - w.log.length = 0 by omega] using same.symm⟩
  constructor
  · intro id member
    rw [place] at member
    have inside := counted.known id member
    rw [log, List.length_append]
    omega
  · intro id other present
    rcases old id other present with before | ⟨rfl, rfl⟩
    · exact counted.retries id other before
    · rw [untried]
      exact Nat.zero_le _
  · intro id member other present
    rw [place] at member
    rcases old id other present with before | ⟨rfl, rfl⟩
    · exact counted.due id member other before
    · exact absurd (counted.known _ (Place.due_entries member)) (Nat.lt_irrefl _)
  · intro id other present failed
    rcases old id other present with before | ⟨rfl, rfl⟩
    · refine (counted.failed id other before failed).mono (fun c member => ⟨c, ?_, .refl c⟩) (.refl other)
      rw [log]
      exact List.mem_append_left _ member
    · rw [pending] at failed
      cases failed

theorem Counted.succeed (counted : Counted w) {id : Nat} (place : w.place = .succeeding job left) :
    Counted { w.amend fun other entry => if other = id then { entry with status := .successful } else entry with
      place := .succeeding job (left.filter (· ≠ id)) } := by
  have known := counted.known
  rw [place] at known
  refine counted.amend rfl known ?_ ?_ ?_ ?_
  · intro other e
    split
    · exact ⟨rfl, rfl, Nat.le_refl _, fun expired => expired⟩
    · exact .refl e
  · intro other e present
    have before := counted.retries other e present
    split <;> exact before
  · intro other member e present
    have before := counted.due other (by rw [place]; exact member) e present
    split <;> exact before
  · intro other e _ failed old
    split at failed
    · cases failed
    · exact absurd failed old

theorem toProcess_known {task : Task} {id : Nat} (member : id ∈ w.toProcess task) : id < w.log.length := by
  have pending := (List.mem_filter.mp member).2
  cases present : w.log[id]? with
  | none => simp [present] at pending
  | some entry => exact (List.getElem?_eq_some_iff.mp present).1

/-! ### What the events of the worker come to -/

theorem start_cases (stepped : w.start = some next) :
    (∃ batch, w.place = .between [] batch ∧ next = w.abandon) ∨
    ∃ task rest batch, w.place = .between (task :: rest) batch ∧
      (next = { w with place := .between rest batch } ∨
        w.toProcess task ≠ [] ∧ next = w.attempt ⟨w.toProcess task, 0, rest, batch⟩) := by
  unfold World.start at stepped
  split at stepped
  · next batch place =>
    cases stepped
    exact .inl ⟨batch, place, rfl⟩
  · next task rest batch place =>
    refine .inr ⟨task, rest, batch, place, ?_⟩
    split at stepped
    · cases stepped
      exact .inl rfl
    · next some_id =>
      cases stepped
      exact .inr ⟨some_id, rfl⟩
  · cases stepped

theorem outcome_cases (stepped : w.outcome success = some next) : ∃ job, w.place = .trying job ∧
    next = { w with place := if success then .succeeding job job.ids else .failing job job.ids false } := by
  unfold World.outcome at stepped
  split at stepped
  · next job place =>
    cases stepped
    exact ⟨job, place, rfl⟩
  · cases stepped

theorem succeed_cases {id : Nat} (stepped : w.succeed id = some next) : ∃ job left,
    w.place = .succeeding job left ∧
    next = { w.amend fun other entry => if other = id then { entry with status := .successful } else entry with
      place := .succeeding job (left.filter (· ≠ id)) } := by
  unfold World.succeed at stepped
  split at stepped
  · next job left place =>
    split at stepped
    · cases stepped
      exact ⟨job, left, place, rfl⟩
    · cases stepped
  · cases stepped

theorem record_cases {id : Nat} (stepped : w.record id = some next) : ∃ job left marked,
    w.place = .failing job left marked ∧ id ∈ left ∧ next = w.recordFailure job left marked id := by
  unfold World.record at stepped
  split at stepped
  · next job left marked place =>
    split at stepped
    · next member =>
      cases stepped
      exact ⟨job, left, marked, place, member, rfl⟩
    · cases stepped
  · cases stepped

theorem leave_cases (stepped : w.leave = some next) : ∃ job,
    next = { w with place := .between job.rest job.batch } ∨
    w.place = .failing job [] false ∧ next = { w with place := .sleeping job } := by
  unfold World.leave at stepped
  split at stepped
  · next job place =>
    cases stepped
    exact ⟨job, .inl rfl⟩
  · next job marked place =>
    cases stepped
    cases marked with
    | true => exact ⟨job, .inl rfl⟩
    | false => exact ⟨job, .inr ⟨place, rfl⟩⟩
  · cases stepped

theorem wake_cases (stepped : w.wake = some next) : ∃ job, w.place = .sleeping job ∧
    (next = w.attempt { job with attempt := job.attempt + 1 } ∨
      next = { w with place := .between job.rest job.batch }) := by
  unfold World.wake at stepped
  split at stepped
  · next job place =>
    refine ⟨job, place, ?_⟩
    split at stepped
    · cases stepped
      exact .inl rfl
    · cases stepped
      exact .inr rfl
  · cases stepped

theorem timeout_cases (stepped : w.timeout = some next) : next = w.abandon ∨
    ∃ job, (w.place = .trying job ∨ ∃ left, w.place = .succeeding job left) ∧
      next = { w with place := .failing job job.ids false } := by
  unfold World.timeout at stepped
  split at stepped
  · cases stepped
  · next job place =>
    cases stepped
    exact .inr ⟨job, .inl place, rfl⟩
  · next job left place =>
    cases stepped
    exact .inr ⟨job, .inr ⟨left, place⟩, rfl⟩
  · cases stepped
    exact .inl rfl
  · cases stepped
    exact .inl rfl
  · cases stepped
    exact .inl rfl

theorem take_cases {n : Nat} (stepped : w.step (.take n) = some next) : ∃ tasks,
    next = { w with queue := w.queue.eraseIdx n, place := .between tasks (World.ids tasks) } := by
  simp only [World.step] at stepped
  split at stepped
  · next tasks _ _ =>
    cases stepped
    exact ⟨tasks, rfl⟩
  · cases stepped

/-! ### The counts along a run -/

/-- The worker leaves its entries for the next task, or altogether. -/
theorem Counted.clear (counted : Counted w) (log : next.log = w.log)
    (none : next.place.entries = []) (due : next.place.due = []) : Counted next := by
  refine counted.move log ?_ ?_
  · rw [none]
    exact nofun
  · rw [due]
    exact nofun

/-- An attempt that comes to nothing owes the failure of each of its entries. -/
theorem Counted.fail (counted : Counted w) {job : Job} (entries : w.place.entries = job.ids)
    (due : w.place.due = job.ids) : Counted { w with place := .failing job job.ids false } := by
  have known := counted.known
  rw [entries] at known
  refine counted.move rfl ?_ fun id member => by rwa [due]
  exact fun id member => (List.mem_append.mp member).elim (known id) (known id)

theorem Counted.start (counted : Counted w) (stepped : w.start = some next) : Counted next := by
  obtain ⟨_, _, rfl⟩ | ⟨task, rest, batch, _, rfl | ⟨_, rfl⟩⟩ := start_cases stepped
  · exact counted.clear rfl rfl rfl
  · exact counted.clear rfl rfl rfl
  · exact counted.attempt fun id member => toProcess_known member

theorem Counted.outcome (counted : Counted w) (stepped : w.outcome success = some next) : Counted next := by
  obtain ⟨job, place, rfl⟩ := outcome_cases stepped
  have known := counted.known
  rw [place] at known
  cases success with
  | true => exact counted.move rfl known fun id member => by rwa [place]
  | false => exact counted.fail (by rw [place]; rfl) (by rw [place]; rfl)

theorem Counted.leave (counted : Counted w) (stepped : w.leave = some next) : Counted next := by
  obtain ⟨job, rfl | ⟨place, rfl⟩⟩ := leave_cases stepped
  · exact counted.clear rfl rfl rfl
  · have known := counted.known
    rw [place] at known
    exact counted.move rfl (fun id member => known id (List.mem_append_left _ member)) nofun

theorem Counted.wake (counted : Counted w) (stepped : w.wake = some next) : Counted next := by
  obtain ⟨job, place, rfl | rfl⟩ := wake_cases stepped
  · have known := counted.known
    rw [place] at known
    exact counted.attempt known
  · exact counted.clear rfl rfl rfl

theorem Counted.timeout (counted : Counted w) (stepped : w.timeout = some next) : Counted next := by
  obtain rfl | ⟨job, place | ⟨left, place⟩, rfl⟩ := timeout_cases stepped
  · exact counted.clear rfl rfl rfl
  · exact counted.fail (by rw [place]; rfl) (by rw [place]; rfl)
  · exact counted.fail (by rw [place]; rfl) (by rw [place]; rfl)

theorem Counted.step (counted : Counted w) (stepped : w.step event = some next) : Counted next := by
  cases event with
  | arrive action recordId removedLabels addedLabels now =>
    cases stepped
    exact counted.arrive rfl rfl rfl rfl
  | account | select =>
    cases stepped
    exact counted.move rfl counted.known fun _ member => member
  | batch now =>
    cases stepped
    exact counted.process now
  | take n =>
    obtain ⟨tasks, rfl⟩ := take_cases stepped
    exact counted.clear rfl rfl rfl
  | drop n =>
    obtain ⟨tasks, _, rfl⟩ := Option.map_eq_some_iff.mp stepped
    exact counted.move rfl counted.known fun _ member => member
  | start => exact counted.start stepped
  | outcome success => exact counted.outcome stepped
  | succeed id =>
    obtain ⟨job, left, place, rfl⟩ := succeed_cases stepped
    exact counted.succeed place
  | record id =>
    obtain ⟨job, left, marked, place, member, rfl⟩ := record_cases stepped
    exact counted.recordFailure place member
  | leave => exact counted.leave stepped
  | wake => exact counted.wake stepped
  | timeout => exact counted.timeout stepped
  | restart =>
    cases stepped
    exact counted.clear rfl rfl rfl

end Counted

section Level
variable {w next : World} {job : Job} {left : List Nat} {marked : Bool}

/-- The entries in hand have failed equally often, but for those whose last failure has been recorded
before the others'. -/
def Level (w : World) : Place → Prop
  | .free | .between _ _ => True
  | .trying job | .succeeding job _ | .sleeping job => ∃ r, ∀ id ∈ job.ids, w.retries id = some r
  | .failing job left marked => ∃ r, (∀ id ∈ left, w.retries id = some r) ∧
      (∀ id ∈ job.ids, id ∈ left ∨ w.retries id = some (r + 1)) ∧
      (marked = true → r + 1 = ACTION_MAX_NR_OF_RETRIES)

theorem Level.mono (level : Level w place)
    (keeps : ∀ id r, w.retries id = some r → next.retries id = some r) : Level next place := by
  cases place with
  | free | between => trivial
  | trying | succeeding | sleeping =>
    obtain ⟨r, all⟩ := level
    exact ⟨r, fun id member => keeps id r (all id member)⟩
  | failing =>
    obtain ⟨r, due, recorded, last⟩ := level
    refine ⟨r, fun id member => keeps id r (due id member), fun id member => ?_, last⟩
    exact (recorded id member).imp_right (keeps id (r + 1))

theorem retries_mapIdx {f : Nat → Entry → Entry} {id : Nat} (log : next.log = w.log.mapIdx f)
    (same : ∀ e, (f id e).retries = e.retries) : next.retries id = w.retries id := by
  simp only [World.retries, log, List.getElem?_mapIdx, Option.map_map]
  congr 1
  exact funext same

/-- An attempt changes none of the counts. -/
theorem attempt_level {job : Job} (all : ∀ id ∈ job.ids, w.retries id = some r) :
    Level (w.attempt job) (.trying job) := by
  refine ⟨r, fun id member => (retries_mapIdx (w := w) rfl fun e => ?_).trans (all id member)⟩
  split <;> rfl

theorem toProcess_level {task : Task} (ids : w.toProcess task = first :: others)
    (calm : ∀ id ∈ w.toProcess task, ∀ other ∈ w.toProcess task, w.retries id = w.retries other) :
    ∃ r, ∀ id ∈ first :: others, w.retries id = some r := by
  have inside : first ∈ w.toProcess task := by
    rw [ids]
    exact List.mem_cons_self
  obtain ⟨entry, stored⟩ : ∃ entry, w.log[first]? = some entry :=
    ⟨_, List.getElem?_eq_getElem (toProcess_known inside)⟩
  refine ⟨entry.retries, fun id member => ?_⟩
  rw [← ids] at member
  rw [calm id member first inside, World.retries, stored]
  rfl

/-- When one of the entries has failed for the last time, so do all that come after it. -/
theorem recordFailure_level {id : Nat} (level : Level w (.failing job left marked)) (member : id ∈ left)
    (unasserted : w.asserted = false) :
    Level (w.recordFailure job left marked id) (w.recordFailure job left marked id).place ∧
      (w.recordFailure job left marked id).asserted = false := by
  obtain ⟨r, due, recorded, last⟩ := level
  have here := due id member
  unfold World.recordFailure
  cases present : w.log[id]? with
  | none => simp [World.retries, present] at here
  | some entry =>
    have count : entry.retries = r := by simpa [World.retries, present] using here
    have agree : (marked || decide (entry.retries + 1 = ACTION_MAX_NR_OF_RETRIES)) = true →
        r + 1 = ACTION_MAX_NR_OF_RETRIES := by
      rw [count, Bool.or_eq_true, decide_eq_true_eq]
      exact fun either => either.elim last fun exhausted => exhausted
    dsimp only
    rw [if_neg]
    · refine ⟨⟨r, ?_, ?_, agree⟩, unasserted⟩
      · intro other inside
        have different : other ≠ id := by simpa using (List.mem_filter.mp inside).2
        refine (retries_mapIdx (w := w) rfl fun e => countFailure_other entry e different).trans ?_
        exact due other (List.mem_of_mem_filter inside)
      · intro other inside
        by_cases same : other = id
        · refine .inr ?_
          simp only [World.retries, World.amend, same, List.getElem?_mapIdx, present, Option.map_some,
            countFailure_same, count]
        · refine (recorded other inside).imp (fun still => ?_) fun counted => ?_
          · simpa [same] using still
          · exact (retries_mapIdx (w := w) rfl fun e => countFailure_other entry e same).trans counted
    · intro fails
      rw [Bool.and_eq_true, decide_eq_true_eq] at fails
      rw [count] at fails
      exact fails.2 (agree (by rw [count]; exact fails.1))

/-- The attempt that fails is about to be recorded for all of its entries. -/
theorem fail_level (all : ∀ id ∈ job.ids, w.retries id = some r) :
    Level { w with place := .failing job job.ids false } (.failing job job.ids false) :=
  ⟨r, all, fun _ member => .inl member, nofun⟩

theorem Level.start (calm : w.InStep .start) (stepped : w.start = some next) : Level next next.place := by
  obtain ⟨_, _, rfl⟩ | ⟨task, rest, batch, place, rfl | ⟨some_id, rfl⟩⟩ := start_cases stepped
  · trivial
  · trivial
  · simp only [World.InStep, place] at calm
    cases pending : w.toProcess task with
    | nil => exact absurd pending some_id
    | cons first others =>
      obtain ⟨r, all⟩ := toProcess_level pending calm
      exact attempt_level all

theorem Level.outcome (level : Level w w.place) (stepped : w.outcome success = some next) :
    Level next next.place := by
  obtain ⟨job, place, rfl⟩ := outcome_cases stepped
  rw [place] at level
  obtain ⟨r, all⟩ := level
  cases success with
  | true => exact ⟨r, all⟩
  | false => exact fail_level all

theorem Level.succeed {id : Nat} (level : Level w w.place) (stepped : w.succeed id = some next) :
    Level next next.place := by
  obtain ⟨job, left, place, rfl⟩ := succeed_cases stepped
  rw [place] at level
  obtain ⟨r, all⟩ := level
  refine ⟨r, fun other member => ?_⟩
  refine (retries_mapIdx (w := w) rfl fun e => ?_).trans (all other member)
  split <;> rfl

theorem Level.leave (level : Level w w.place) (stepped : w.leave = some next) : Level next next.place := by
  obtain ⟨job, rfl | ⟨place, rfl⟩⟩ := leave_cases stepped
  · trivial
  · rw [place] at level
    obtain ⟨r, _, recorded, _⟩ := level
    exact ⟨r + 1, fun id member => (recorded id member).resolve_left List.not_mem_nil⟩

theorem Level.wake (level : Level w w.place) (stepped : w.wake = some next) : Level next next.place := by
  obtain ⟨job, place, rfl | rfl⟩ := wake_cases stepped
  · rw [place] at level
    obtain ⟨r, all⟩ := level
    exact attempt_level all
  · trivial

theorem Level.timeout (level : Level w w.place) (stepped : w.timeout = some next) : Level next next.place := by
  obtain rfl | ⟨job, place, rfl⟩ := timeout_cases stepped
  · trivial
  · obtain ⟨r, all⟩ : ∃ r, ∀ id ∈ job.ids, w.retries id = some r := by
      obtain place | ⟨left, place⟩ := place <;> rwa [place] at level
    exact fail_level all

/-- Only a failure that is recorded can fail the assertion. -/
theorem asserted_step (quiet : ∀ id, event ≠ .record id) (stepped : w.step event = some next) :
    next.asserted = w.asserted := by
  cases event with
  | arrive | account | select | batch | restart =>
    cases stepped
    rfl
  | take n =>
    obtain ⟨tasks, rfl⟩ := take_cases stepped
    rfl
  | drop n =>
    obtain ⟨tasks, _, rfl⟩ := Option.map_eq_some_iff.mp stepped
    rfl
  | start => obtain ⟨_, _, rfl⟩ | ⟨_, _, _, _, rfl | ⟨_, rfl⟩⟩ := start_cases stepped <;> rfl
  | outcome success =>
    obtain ⟨job, _, rfl⟩ := outcome_cases stepped
    rfl
  | succeed id =>
    obtain ⟨job, left, _, rfl⟩ := succeed_cases stepped
    rfl
  | record id => exact absurd rfl (quiet id)
  | leave => obtain ⟨job, rfl | ⟨_, rfl⟩⟩ := leave_cases stepped <;> rfl
  | wake => obtain ⟨job, _, rfl | rfl⟩ := wake_cases stepped <;> rfl
  | timeout => obtain rfl | ⟨job, _, rfl⟩ := timeout_cases stepped <;> rfl

theorem Level.step (level : Level w w.place) (calm : w.InStep event) (unasserted : w.asserted = false)
    (stepped : w.step event = some next) : Level next next.place := by
  cases event with
  | arrive action recordId removedLabels addedLabels now =>
    cases stepped
    refine level.mono fun id r same => ?_
    obtain ⟨entry, stored, count⟩ := Option.map_eq_some_iff.mp same
    have inside := (List.getElem?_eq_some_iff.mp stored).1
    simp only [World.retries, List.getElem?_append_left inside, stored, Option.map_some, count]
  | account | select =>
    cases stepped
    exact level
  | batch now =>
    cases stepped
    refine level.mono fun id r same => ?_
    refine (retries_mapIdx (w := w) rfl fun e => ?_).trans same
    split <;> rfl
  | take n =>
    obtain ⟨tasks, rfl⟩ := take_cases stepped
    trivial
  | drop n =>
    obtain ⟨tasks, _, rfl⟩ := Option.map_eq_some_iff.mp stepped
    exact level
  | start => exact Level.start calm stepped
  | outcome success => exact level.outcome stepped
  | succeed id => exact level.succeed stepped
  | record id =>
    obtain ⟨job, left, marked, place, member, rfl⟩ := record_cases stepped
    rw [place] at level
    exact (recordFailure_level level member unasserted).1
  | leave => exact level.leave stepped
  | wake => exact level.wake stepped
  | timeout => exact level.timeout stepped
  | restart =>
    cases stepped
    trivial

theorem Level.unasserted (level : Level w w.place) (unasserted : w.asserted = false)
    (stepped : w.step event = some next) : next.asserted = false := by
  by_cases recorded : ∃ id, event = .record id
  · obtain ⟨id, rfl⟩ := recorded
    obtain ⟨job, left, marked, place, member, rfl⟩ := record_cases stepped
    rw [place] at level
    exact (recordFailure_level level member unasserted).2
  · exact (asserted_step (fun id same => recorded ⟨id, same⟩) stepped).trans unasserted

end Level

section Runs
variable {w next final : World}

theorem counted_initial : Counted World.initial where
  known := nofun
  retries := by simp [World.initial]
  due := nofun
  failed := by simp [World.initial]

theorem Counted.run (counted : Counted w) (ran : w.run events = some final) : Counted final := by
  induction events generalizing w with
  | nil =>
    cases ran
    exact counted
  | cons event events ih =>
    obtain ⟨next, stepped, later⟩ := Option.bind_eq_some_iff.mp ran
    exact ih (counted.step stepped) later

theorem Level.run (level : Level w w.place) (calm : w.AllInStep events) (unasserted : w.asserted = false)
    (ran : w.run events = some final) : final.asserted = false := by
  induction events generalizing w with
  | nil =>
    cases ran
    exact unasserted
  | cons event events ih =>
    obtain ⟨next, stepped, later⟩ := Option.bind_eq_some_iff.mp ran
    exact ih (level.step calm.1 unasserted stepped) (calm.2 next stepped) (level.unasserted unasserted stepped)
      later

/-- In every run an entry is given up only for a cause, and while the tasks start with entries in step,
the assertion on merged tasks does not fail. -/
theorem retries_accounted (ran : World.initial.run events = some w) :
    (∀ e ∈ w.log, e.status = .failed → Excused w.log e) ∧
      (World.initial.AllInStep events → w.asserted = false) := by
  constructor
  · intro e member failed
    obtain ⟨id, stored⟩ := List.mem_iff_getElem?.mp member
    exact (counted_initial.run ran).failed id e stored failed
  · have level : Level World.initial World.initial.place := trivial
    exact fun calm => level.run calm rfl ran

end Runs

namespace Sample

def changeLabels (recordId : Nat) : Event := .arrive .changeLabels recordId ["inbox"] ["work"] 0

/-- Takes the next batch and starts its first task. -/
def begin : List Event := [.select, .batch 0, .take 0, .start]

/-- `n` attempts that fail for these entries, the service sleeping after each. -/
def failures (n : Nat) (ids : List Nat) : List Event :=
  (List.replicate n ([.outcome false] ++ ids.map .record ++ [.leave, .wake])).flatten

def lastFailure (ids : List Nat) : List Event := [.outcome false] ++ ids.map .record ++ [.leave, .start]

/-- Two entries that are merged fail together. -/
def together : List Event :=
  [changeLabels 1, changeLabels 2] ++ begin ++ failures 19 [0, 1] ++ lastFailure [0, 1]

/-- The first entry has failed once before a restart, and is then merged with a second one. -/
def apart : List Event :=
  [changeLabels 1] ++ begin ++ [.outcome false, .record 0, .leave, .restart, changeLabels 2] ++ begin ++
    failures 18 [0, 1] ++ [.outcome false, .record 0, .record 1]

/-- An event cannot be created while an update of it waits. -/
def uncreated : List Event :=
  [.arrive .createEvent 7 [] [] 0, .arrive .updateEvent 7 [] [] 0] ++ begin ++ failures 19 [0] ++ lastFailure [0]

end Sample

theorem failed_together : ∃ w, World.initial.run Sample.together = some w ∧ w.asserted = false ∧
    ∀ e ∈ w.log, Excused w.log e := by
  have outcome : (World.initial.run Sample.together).map (fun w => w.log.map Entry.status) =
      some [.failed, .failed] := by
    decide +kernel
  obtain ⟨w, ran, same⟩ := Option.map_eq_some_iff.mp outcome
  obtain ⟨excused, unasserted⟩ := retries_accounted ran
  have calm : World.initial.AllInStep Sample.together := by decide +kernel
  refine ⟨w, ran, unasserted calm, fun e member => excused e member ?_⟩
  have status : e.status ∈ w.log.map Entry.status := List.mem_map_of_mem member
  rw [same] at status
  simpa using status

/-- Entries that are merged with different counts do not fail together, and an entry may be given up
without having been tried. -/
theorem out_of_step :
    (¬ ∀ events w, World.initial.run events = some w → w.asserted = false) ∧
      ¬ ∀ events w, World.initial.run events = some w →
        ∀ e ∈ w.log, e.status = .failed → ACTION_MAX_NR_OF_RETRIES ≤ e.tries := by
  constructor
  · intro holds
    have outcome : (World.initial.run Sample.apart).map World.asserted = some true := by decide +kernel
    obtain ⟨w, ran, asserted⟩ := Option.map_eq_some_iff.mp outcome
    rw [holds _ w ran] at asserted
    cases asserted
  · intro holds
    have outcome : (World.initial.run Sample.uncreated).map
        (fun w => w.log.map fun e => (e.status, e.tries)) = some [(.failed, 20), (.failed, 0)] := by
      decide +kernel
    obtain ⟨w, ran, same⟩ := Option.map_eq_some_iff.mp outcome
    have untried : (Status.failed, 0) ∈ w.log.map fun e => (e.status, e.tries) := by
      rw [same]
      simp
    obtain ⟨e, member, facts⟩ := List.mem_map.mp untried
    obtain ⟨failed, tries⟩ := Prod.mk.inj facts
    have enough := holds _ w ran e member failed
    rw [tries] at enough
    exact absurd enough (by decide)

end Syncback
end SyncEngine
