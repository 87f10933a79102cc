import SyncEngine.Transactions.SyncbackWork
import SyncEngine.Util.Itert

/-! The service's books, the batches in the queue and with the workers, and the pass that forms a new
batch from what is pending. -/
namespace SyncEngine.Syncback

/-! ## Which batches are live -/

section Registered
variable {A : Type} {batches : List (Batch A)} {runningIds : List (A × Nat)} {n : Nat} {b : Batch A}

/-- The service's books. -/
structure Registered (batches : List (Batch A)) (runningIds : List (A × Nat)) : Prop where
  unique : ∀ (i j : Nat) (b c : Batch A), batches[i]? = some b → batches[j]? = some c →
    b.live = true → c.live = true → b.account = c.account → ∀ id ∈ b.ids, id ∈ c.ids → i = j
  running : ∀ account id, (account, id) ∈ runningIds ↔
    ∃ b ∈ batches, b.live = true ∧ b.account = account ∧ id ∈ b.ids
  exclusive : ∀ (i j : Nat) (b c : Batch A), batches[i]? = some b → batches[j]? = some c →
    b.executing = true → c.executing = true → b.account = c.account → i = j

theorem Registered.queue (registered : Registered batches runningIds) {c : Batch A}
    (queued : c.stage = .queued) (fresh : ∀ id ∈ c.ids, (c.account, id) ∉ runningIds) :
    Registered (batches ++ [c]) (runningIds ++ c.ids.map (c.account, ·)) := by
  have c_live : c.live = true := by simp [Batch.live, queued]
  have c_waits : c.executing = false := by simp [Batch.executing, queued]
  have apart {x : Batch A} {i : Nat} (at_i : batches[i]? = some x) (live : x.live = true)
      (same : x.account = c.account) {id : Nat} (mem : id ∈ x.ids) : id ∉ c.ids := by
    intro mem_c
    exact fresh id mem_c ((registered.running _ _).mpr ⟨x, List.mem_of_getElem? at_i, live, same, mem⟩)
  constructor
  · intro i j x y at_i at_j x_live y_live same id mem_x mem_y
    rcases getElem?_concat.mp at_i with at_i | ⟨i_last, rfl⟩
    · rcases getElem?_concat.mp at_j with at_j | ⟨-, rfl⟩
      · exact registered.unique i j x y at_i at_j x_live y_live same id mem_x mem_y
      · exact absurd mem_y (apart at_i x_live same mem_x)
    · rcases getElem?_concat.mp at_j with at_j | ⟨j_last, -⟩
      · exact absurd mem_x (apart at_j y_live same.symm mem_y)
      · rw [i_last, j_last]
  · intro account id
    simp only [List.mem_append, registered.running, List.mem_map, Prod.mk.injEq, List.mem_singleton]
    constructor
    · rintro (⟨x, mem, rest⟩ | ⟨_, mem, rfl, rfl⟩)
      · exact ⟨x, .inl mem, rest⟩
      · exact ⟨c, .inr rfl, c_live, rfl, mem⟩
    · rintro ⟨x, mem | rfl, live, rfl, mem_x⟩
      · exact .inl ⟨x, mem, live, rfl, mem_x⟩
      · exact .inr ⟨id, mem_x, rfl, rfl⟩
  · intro i j x y at_i at_j x_executes y_executes same
    rcases getElem?_concat.mp at_i with at_i | ⟨-, rfl⟩
    · rcases getElem?_concat.mp at_j with at_j | ⟨-, rfl⟩
      · exact registered.exclusive i j x y at_i at_j x_executes y_executes same
      · simp [c_waits] at y_executes
    · simp [c_waits] at x_executes

/-- The batches after the stage of one has changed. -/
theorem getElem?_stage (at_n : batches[n]? = some b) {stage : Stage} {x : Batch A} {i : Nat} :
    (batches.set n { b with stage := stage })[i]? = some x ↔
      i = n ∧ { b with stage := stage } = x ∨ i ≠ n ∧ batches[i]? = some x := by
  have inside := (List.getElem?_eq_some_iff.mp at_n).1
  by_cases same : i = n
  · subst same
    simp [List.getElem?_set_self inside]
  · rw [List.getElem?_set_ne (Ne.symm same)]
    simp [same]

/-- The stage of a live batch changes: a batch that is done has its ids taken out. -/
theorem Registered.restage (registered : Registered batches runningIds) (at_n : batches[n]? = some b)
    (live : b.live = true) {stage : Stage} {later : List (A × Nat)}
    (alone : Batch.executing { b with stage := stage } = true → ∀ (i : Nat) (c : Batch A),
      batches[i]? = some c → c.executing = true → c.account = b.account → i = n)
    (left : ∀ account id, (account, id) ∈ later ↔ (account, id) ∈ runningIds ∧
      (Batch.live { b with stage := stage } = true ∨ ¬(account = b.account ∧ id ∈ b.ids))) :
    Registered (batches.set n { b with stage := stage }) later := by
  constructor
  · intro i j x y at_i at_j x_live y_live same id mem_x mem_y
    rcases (getElem?_stage at_n).mp at_i with ⟨rfl, rfl⟩ | ⟨-, at_x⟩ <;>
      rcases (getElem?_stage at_n).mp at_j with ⟨rfl, rfl⟩ | ⟨-, at_y⟩
    · rfl
    · exact registered.unique i j b y at_n at_y live y_live same id mem_x mem_y
    · exact registered.unique i j x b at_x at_n x_live live same id mem_x mem_y
    · exact registered.unique i j x y at_x at_y x_live y_live same id mem_x mem_y
  · intro account id
    rw [left, registered.running]
    constructor
    · rintro ⟨⟨x, mem, x_live, rfl, mem_x⟩, stays⟩
      obtain ⟨i, at_i⟩ := List.mem_iff_getElem?.mp mem
      by_cases same : i = n
      · subst same
        obtain rfl := Option.some.inj (at_n.symm.trans at_i)
        have still := stays.resolve_right fun other => other ⟨rfl, mem_x⟩
        exact ⟨_, List.mem_of_getElem? ((getElem?_stage at_n).mpr (.inl ⟨rfl, rfl⟩)), still, rfl, mem_x⟩
      · exact ⟨x, List.mem_of_getElem? ((getElem?_stage at_n).mpr (.inr ⟨same, at_i⟩)), x_live, rfl, mem_x⟩
    · rintro ⟨x, mem, x_live, rfl, mem_x⟩
      obtain ⟨i, at_i⟩ := List.mem_iff_getElem?.mp mem
      rcases (getElem?_stage at_n).mp at_i with ⟨-, rfl⟩ | ⟨not_n, at_i⟩
      · exact ⟨⟨b, List.mem_of_getElem? at_n, live, rfl, mem_x⟩, .inl x_live⟩
      · refine ⟨⟨x, List.mem_of_getElem? at_i, x_live, rfl, mem_x⟩, .inr ?_⟩
        rintro ⟨same, mem_b⟩
        exact not_n (registered.unique i n x b at_i at_n x_live live same id mem_x mem_b)
  · intro i j x y at_i at_j x_executes y_executes same
    rcases (getElem?_stage at_n).mp at_i with ⟨rfl, rfl⟩ | ⟨-, at_x⟩ <;>
      rcases (getElem?_stage at_n).mp at_j with ⟨rfl, rfl⟩ | ⟨-, at_y⟩
    · rfl
    · exact (alone x_executes j y at_y y_executes same.symm).symm
    · exact alone y_executes i x at_x x_executes same
    · exact registered.exclusive i j x y at_x at_y x_executes y_executes same

/-- A live batch moves on. -/
theorem Registered.move (registered : Registered batches runningIds) (at_n : batches[n]? = some b)
    (live : b.live = true) {stage : Stage} (still : Batch.live { b with stage := stage } = true)
    (alone : Batch.executing { b with stage := stage } = true → ∀ (i : Nat) (c : Batch A),
      batches[i]? = some c → c.executing = true → c.account = b.account → i = n) :
    Registered (batches.set n { b with stage := stage }) runningIds :=
  registered.restage at_n live alone fun account id => by simp [still]

/-- A worker is done with its batch. -/
theorem Registered.finish [DecidableEq A] (registered : Registered batches runningIds)
    (at_n : batches[n]? = some b) (live : b.live = true) :
    Registered (batches.set n { b with stage := .done })
      (runningIds.filter fun (account, id) => account ≠ b.account || id ∉ b.ids) := by
  have dead : Batch.live { b with stage := .done } = false := rfl
  have idle : Batch.executing { b with stage := .done } = false := rfl
  refine registered.restage at_n live (fun executes => ?_) fun account id => ?_
  · rw [idle] at executes
    cases executes
  · rw [List.mem_filter, dead]
    simp [or_iff_not_imp_left]

end Registered

/-! ## A pass -/

def Pass.ids {A : Type} (pass : Pass A) : List Nat := World.ids (pass.tasks ++ pass.lastTask.toList)

/-- The entries that are still to be examined. -/
def Pass.ahead {A : Type} (pass : Pass A) : List Nat := pass.entries.map (·.2)

/-- A pass on its way: its tasks, and what it has not come to, are lined up but for the entries that it
skipped. -/
structure Pass.Fine {A : Type} (log : Log) (running : Nat → Bool) (pass : Pass A) : Prop where
  fresh : ∀ id ∈ pass.ids, running id = false
  lined : Lined log pass.ids
  ascending : pass.ahead.Pairwise (· < ·)
  later : ∀ id ∈ pass.ids, ∀ x ∈ pass.ahead, id < x
  known : ∀ x ∈ pass.ahead, ∃ e, log[x]? = some e
  complete : ∀ x ∈ pass.ahead, ∀ j < x,
    log.settled j = true ∨ j ∈ pass.skipped ∨ j ∈ pass.ids ∨ j ∈ pass.ahead

section Pass
variable {A : Type} {log log' : Log} {running : Nat → Bool} {pass next : Pass A} {id : Nat} {rest : List Nat}

theorem Pass.Fine.grown (fine : pass.Fine log running) (grown : log.Grown log') :
    pass.Fine log' running where
  fresh := fine.fresh
  lined := fine.lined.grown grown
  ascending := fine.ascending
  later := fine.later
  known x mem := by
    obtain ⟨e, at_x⟩ := fine.known x mem
    obtain ⟨e', at_x', -⟩ := grown x e at_x
    exact ⟨e', at_x'⟩
  complete x mem j less := (fine.complete x mem j less).imp_left grown.settled

/-- The pass goes by an entry. -/
theorem Pass.Fine.skip (fine : pass.Fine log running) (head : pass.ahead = id :: rest)
    (ahead : next.ahead = rest) (ids : next.ids = pass.ids) (skipped : ∀ j ∈ pass.skipped, j ∈ next.skipped)
    (this : log.settled id = true ∨ id ∈ next.skipped) : next.Fine log running := by
  have inside {x : Nat} (mem : x ∈ rest) : x ∈ pass.ahead := head ▸ List.mem_cons_of_mem id mem
  constructor
  · rw [ids]
    exact fine.fresh
  · rw [ids]
    exact fine.lined
  · rw [ahead]
    exact (List.pairwise_cons.mp (head ▸ fine.ascending)).2
  · rw [ids, ahead]
    exact fun i mem x mem_x => fine.later i mem x (inside mem_x)
  · rw [ahead]
    exact fun x mem => fine.known x (inside mem)
  · rw [ids, ahead]
    intro x mem j less
    rcases fine.complete x (inside mem) j less with settled | was_skipped | has_task | is_ahead
    · exact .inl settled
    · exact .inr (.inl (skipped j was_skipped))
    · exact .inr (.inr (.inl has_task))
    · rw [head] at is_ahead
      rcases List.mem_cons.mp is_ahead with rfl | further
      · rcases this with settled | now_skipped
        · exact .inl settled
        · exact .inr (.inl now_skipped)
      · exact .inr (.inr (.inr further))

/-- The pass makes a task of an entry. What it has skipped must not wait for it. -/
theorem Pass.Fine.take (fine : pass.Fine log running) (head : pass.ahead = id :: rest)
    (ahead : next.ahead = rest) (ids : next.ids = pass.ids ++ [id]) (skipped : next.skipped = pass.skipped)
    (idle : running id = false) (calm : ∀ j ∈ pass.skipped, log.settled j = true) :
    next.Fine log running := by
  have inside {x : Nat} (mem : x ∈ rest) : x ∈ pass.ahead := head ▸ List.mem_cons_of_mem id mem
  have first : id ∈ pass.ahead := head ▸ List.mem_cons_self
  obtain ⟨least, ascending⟩ := List.pairwise_cons.mp (head ▸ fine.ascending)
  constructor
  · rw [ids]
    intro i mem
    rcases List.mem_append.mp mem with old | new
    · exact fine.fresh i old
    · rwa [List.mem_singleton.mp new]
  · rw [ids]
    constructor
    · intro i mem
      rcases List.mem_append.mp mem with old | new
      · exact fine.lined.known i old
      · exact List.mem_singleton.mp new ▸ fine.known id first
    · refine List.pairwise_append.mpr ⟨fine.lined.ascending, List.pairwise_singleton _ _, ?_⟩
      intro i mem x mem_x
      exact List.mem_singleton.mp mem_x ▸ fine.later i mem id first
    · intro i mem j less
      rw [List.mem_append]
      rcases List.mem_append.mp mem with old | new
      · exact (fine.lined.complete i old j less).imp_right .inl
      · obtain rfl := List.mem_singleton.mp new
        rcases fine.complete i first j less with settled | was_skipped | has_task | is_ahead
        · exact .inl settled
        · exact .inl (calm j was_skipped)
        · exact .inr (.inl has_task)
        · rw [head] at is_ahead
          rcases List.mem_cons.mp is_ahead with rfl | further
          · exact absurd less (lt_irrefl _)
          · exact absurd (least j further) (by omega)
  · rw [ahead]
    exact ascending
  · rw [ids, ahead]
    intro i mem x mem_x
    rcases List.mem_append.mp mem with old | new
    · exact fine.later i old x (inside mem_x)
    · exact List.mem_singleton.mp new ▸ least x mem_x
  · rw [ahead]
    exact fun x mem => fine.known x (inside mem)
  · rw [ids, ahead, skipped]
    intro x mem j less
    rw [List.mem_append]
    rcases fine.complete x (inside mem) j less with settled | was_skipped | has_task | is_ahead
    · exact .inl settled
    · exact .inr (.inl was_skipped)
    · exact .inr (.inr (.inl (.inl has_task)))
    · rw [head] at is_ahead
      rcases List.mem_cons.mp is_ahead with rfl | further
      · exact .inr (.inr (.inl (.inr (List.mem_singleton_self j))))
      · exact .inr (.inr (.inr further))

end Pass

/-- What the query returns: the first of the pending entries. -/
theorem query_fine {A : Type} (account : A) (log : Log) (running : Nat → Bool) :
    Pass.Fine log running {
      account, entries := (log.zipIdx.filter fun (entry, _) => entry.status = .pending).take batchSize,
      syncState := none, tasks := [], lastTask := none, skipped := [] } := by
  set selected := log.zipIdx.filter fun (entry, _) => entry.status = .pending with selected_def
  have ascending : (selected.map (·.2)).Pairwise (· < ·) := by
    refine List.Pairwise.sublist (List.filter_sublist.map _) ?_
    rw [List.zipIdx_map_snd]
    exact List.pairwise_lt_range'
  have split : (selected.take batchSize).map (·.2) ++ (selected.drop batchSize).map (·.2) =
      selected.map (·.2) := by
    rw [← List.map_append, List.take_append_drop]
  have mem_selected {id : Nat} : id ∈ selected.map (·.2) ↔ ∃ e, log[id]? = some e ∧ e.status = .pending := by
    simp [selected_def, List.mem_zipIdx_iff_getElem?]
  have parts := List.pairwise_append.mp (split ▸ ascending)
  constructor
  · intro id mem
    cases mem
  · exact { known := nofun, ascending := List.Pairwise.nil, complete := nofun }
  · exact parts.1
  · intro id mem
    cases mem
  · intro x mem
    obtain ⟨e, at_x, -⟩ := mem_selected.mp (split ▸ List.mem_append_left _ mem)
    exact ⟨e, at_x⟩
  · intro x mem j less
    obtain ⟨e, at_x, -⟩ := mem_selected.mp (split ▸ List.mem_append_left _ mem)
    have inside : j < log.length := less.trans (List.getElem?_eq_some_iff.mp at_x).1
    by_cases pending : log[j].status = .pending
    · have among := mem_selected.mpr ⟨log[j], List.getElem?_eq_getElem inside, pending⟩
      rw [← split] at among
      rcases List.mem_append.mp among with here | beyond
      · exact .inr (.inr (.inr here))
      · exact absurd (parts.2.2 x mem j beyond) (by omega)
    · exact .inl (settled_iff.mpr ⟨log[j], List.getElem?_eq_getElem inside, .inl pending⟩)

end SyncEngine.Syncback
