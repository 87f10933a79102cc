import Mathlib.Data.List.Nodup
import Mathlib.Order.Basic
import SyncEngine.Util.Traversal

/-! The views of a listing: how many objects there are, their ids, and the objects themselves, page by page.
The rows of a query can have an object several times, once for each match of a join. -/
namespace SyncEngine
variable {O ε α β ι : Type}

/-- What a database makes of ORDER BY: rows that tie come in any order, in every query anew. -/
structure OrderBy (before : α → α → Prop) where
  apply : List α → List α
  perm : ∀ rows, (apply rows).Perm rows
  sorted : ∀ rows, (apply rows).Pairwise before

/-- The order that a stable sort by a key makes. -/
def OrderBy.sort (key : α → Int) : OrderBy fun a b : α => key a ≤ key b where
  apply rows := rows.mergeSort fun a b => key a ≤ key b
  perm rows := List.mergeSort_perm ..
  sorted rows := by
    refine (List.pairwise_mergeSort (fun a b c first second => ?_) (fun a b => ?_) rows).imp of_decide_eq_true
    · exact decide_eq_true (Int.le_trans (of_decide_eq_true first) (of_decide_eq_true second))
    · simpa using Int.le_total (key a) (key b)

/-- The views of a listing; a query for a page leaves a choice to the database. -/
structure Views (O ε α ι : Type) where
  count : Except ε Nat
  ids : O → (limit offset : Nat) → Except ε (List ι)
  objects : O → (limit offset : Nat) → Except ε (List α)

namespace Views

/-- OFFSET and LIMIT -/
def page (limit offset : Nat) (rows : List α) : List α := (rows.drop offset).take limit

/-- One page after the other. -/
def paged (view : O → Nat → Nat → Except ε (List β)) (choices : Nat → O) (limit pages : Nat) :
    Except ε (List β) :=
  ((List.range pages).mapM fun i => view (choices i) limit (i * limit)).map List.flatten

/-- The views agree on these objects. The ids come in the order of the objects, and the pages have everything
once, where the sort key orders the objects totally. No limit is a limit that is not reached. -/
structure Agree (views : Views O ε α ι) (publicId : α → ι) (satisfying : List α) (total : Prop) : Prop where
  count : views.count = .ok satisfying.length
  unlimited : ∃ enough, ∀ limit, enough ≤ limit → ∀ choice choice', ∃ objects ids,
    views.objects choice limit 0 = .ok objects ∧ views.ids choice' limit 0 = .ok ids ∧ ids.Nodup ∧
      ids.Perm (objects.map publicId) ∧ (total → ids = objects.map publicId)
  objects_once : total → ∀ limit pages, 0 < limit → satisfying.length ≤ pages * limit → ∀ choices,
    ∃ visited, paged views.objects choices limit pages = .ok visited ∧ visited.Perm satisfying
  ids_once : total → ∀ limit pages, 0 < limit → satisfying.length ≤ pages * limit → ∀ choices,
    ∃ visited, paged views.ids choices limit pages = .ok visited ∧ visited.Perm (satisfying.map publicId)

/-- The views of a query: some rows are counted, and a page is cut from those that are sorted. What is loaded
as objects is there once. -/
def ofRows [BEq α] (before : α → α → Prop) (counted rows : List α) (publicId : α → ι) :
    Views (OrderBy before) ε α ι :=
  { count := .ok counted.length
    ids := fun order limit offset => .ok ((page limit offset (order.apply rows)).map publicId)
    objects := fun order limit offset => .ok (page limit offset (order.apply rows)).eraseDups }

/-- No two of these objects tie. -/
def Total (before : α → α → Prop) (objects : List α) : Prop :=
  ∀ a ∈ objects, ∀ b ∈ objects, before a b → before b a → a = b

/-! ## Pages -/

theorem flatMap_page (rows : List α) (limit pages : Nat) :
    (List.range pages).flatMap (fun i => page limit (i * limit) rows) = rows.take (pages * limit) := by
  induction pages with
  | zero => simp
  | succ pages ih =>
    rw [List.range_succ, List.flatMap_append, ih, Nat.succ_mul, List.take_add]
    simp [page]

theorem paged_ok {view : O → Nat → Nat → Except ε (List β)} (rows : List β) {choices : Nat → O}
    {limit pages : Nat}
    (cut : ∀ i < pages, view (choices i) limit (i * limit) = .ok (page limit (i * limit) rows))
    (enough : rows.length ≤ pages * limit) : paged view choices limit pages = .ok rows := by
  have each : (List.range pages).mapM (fun i => view (choices i) limit (i * limit)) =
      .ok ((List.range pages).map fun i => page limit (i * limit) rows) :=
    mapM_of_forall fun i member => cut i (List.mem_range.mp member)
  rw [paged, each]
  refine congrArg Except.ok ?_
  rw [← List.flatMap_def, flatMap_page, List.take_of_length_le enough]

theorem page_of_length_le {rows : List α} {limit : Nat} (enough : rows.length ≤ limit) :
    page limit 0 rows = rows :=
  List.take_of_length_le enough

theorem map_page (f : α → β) (rows : List α) (limit offset : Nat) :
    (page limit offset rows).map f = page limit offset (rows.map f) := by
  rw [page, page, List.map_take, List.map_drop]

theorem page_sublist (rows : List α) (limit offset : Nat) : (page limit offset rows).Sublist rows :=
  (List.take_sublist _ _).trans (List.drop_sublist _ _)

/-! ## Rows that are there once -/

theorem eraseDups_of_nodup [BEq α] [LawfulBEq α] {rows : List α} (distinct : rows.Nodup) :
    rows.eraseDups = rows := by
  induction rows with
  | nil => rfl
  | cons x rest ih =>
    obtain ⟨new, distinct⟩ := List.nodup_cons.mp distinct
    have kept : rest.filter (fun y => !y == x) = rest := List.filter_eq_self.mpr fun y member => by
      have : y ≠ x := fun same => new (same ▸ member)
      simpa using this
    rw [List.eraseDups_cons, kept, ih distinct]

variable {before : α → α → Prop} {rows : List α}

theorem apply_unique (total : Total before rows) (order order' : OrderBy before) :
    order.apply rows = order'.apply rows :=
  List.Perm.eq_of_pairwise
    (fun a b here there => total a ((order.perm rows).mem_iff.mp here) b ((order'.perm rows).mem_iff.mp there))
    (order.sorted rows) (order'.sorted rows) ((order.perm rows).trans (order'.perm rows).symm)

variable [BEq α] [LawfulBEq α] {counted satisfying : List α} {publicId : α → ι}

/-- A query whose rows are the objects has views that agree, if as many rows are counted. -/
theorem agree_ofRows (ids : (satisfying.map publicId).Nodup) (all : rows.Perm satisfying)
    (counts : counted.length = satisfying.length) :
    (ofRows before counted rows publicId : Views _ ε α ι).Agree publicId satisfying
      (Total before satisfying) := by
  have distinct : rows.Nodup := all.nodup_iff.mpr ids.of_map
  have once : ∀ (order : OrderBy before) limit offset,
      (page limit offset (order.apply rows)).eraseDups = page limit offset (order.apply rows) :=
    fun order limit offset => eraseDups_of_nodup
      (((order.perm rows).nodup_iff.mpr distinct).sublist (page_sublist ..))
  have length : ∀ order : OrderBy before, (order.apply rows).length = satisfying.length :=
    fun order => (order.perm rows).length_eq.trans all.length_eq
  have fixed : Total before satisfying → ∀ order order' : OrderBy before,
      order.apply rows = order'.apply rows := fun total =>
    apply_unique fun a here b there => total a (all.mem_iff.mp here) b (all.mem_iff.mp there)
  refine ⟨congrArg Except.ok counts, ⟨satisfying.length, fun limit enough order order' => ?_⟩, ?_, ?_⟩
  · refine ⟨_, _, rfl, rfl, ?_⟩
    rw [once, page_of_length_le ((length order).trans_le enough),
      page_of_length_le ((length order').trans_le enough)]
    refine ⟨?_, ((order'.perm rows).trans (order.perm rows).symm).map publicId, fun total => ?_⟩
    · exact (((order'.perm rows).trans all).map publicId).nodup_iff.mpr ids
    · rw [fixed total order order']
  · intro total limit pages _ enough orders
    have whole := (orders 0).perm rows |>.trans all
    refine ⟨_, paged_ok ((orders 0).apply rows) (fun i _ => ?_) (whole.length_eq ▸ enough), whole⟩
    exact congrArg Except.ok ((once ..).trans (congrArg _ (fixed total ..)))
  · intro total limit pages _ enough orders
    have whole := ((orders 0).perm rows |>.trans all).map publicId
    refine ⟨_, paged_ok (((orders 0).apply rows).map publicId) (fun i _ => ?_) ?_, whole⟩
    · exact congrArg Except.ok ((congrArg _ (congrArg _ (fixed total ..))).trans (map_page ..))
    · rw [List.length_map, length]
      exact enough

/-! ## Rows of a join -/

/-- The objects with the number of rows that a join gives each. -/
def joined (matching : α → Nat) (objects : List α) : List α :=
  objects.flatMap fun x => List.replicate (matching x) x

variable {matching : α → Nat} {objects : List α}

omit [BEq α] [LawfulBEq α] in
theorem joined_of_le_one (one : ∀ x ∈ objects, matching x ≤ 1) :
    joined matching objects = objects.filter (0 < matching ·) := by
  induction objects with
  | nil => rfl
  | cons x rest ih =>
    have here := one x List.mem_cons_self
    rw [joined, List.flatMap_cons, ← joined, ih fun y member => one y (List.mem_cons_of_mem _ member)]
    rcases Nat.le_one_iff_eq_zero_or_eq_one.mp here with zero | row
    · simp [zero]
    · simp [row]

omit [BEq α] [LawfulBEq α] in
theorem length_joined_cons (x : α) (rest : List α) :
    (joined matching (x :: rest)).length = matching x + (joined matching rest).length := by
  simp [joined]

omit [BEq α] [LawfulBEq α] in
theorem length_filter_cons (x : α) (rest : List α) : ((x :: rest).filter (0 < matching ·)).length =
    min 1 (matching x) + (rest.filter (0 < matching ·)).length := by
  rw [List.filter_cons]
  split
  next some_row =>
    have : 0 < matching x := by simpa using some_row
    rw [List.length_cons, Nat.min_eq_left this, Nat.add_comm]
  next no_row =>
    have : matching x = 0 := by simpa using no_row
    rw [this, Nat.min_zero, Nat.zero_add]

omit [BEq α] [LawfulBEq α] in
theorem filter_length_le_joined :
    (objects.filter (0 < matching ·)).length ≤ (joined matching objects).length := by
  induction objects with
  | nil => exact Nat.le_refl _
  | cons x rest ih =>
    rw [length_joined_cons, length_filter_cons]
    exact Nat.add_le_add (Nat.min_le_right ..) ih

omit [BEq α] [LawfulBEq α] in
/-- There are as many rows as objects only if no object has two. -/
theorem joined_length_iff : (joined matching objects).length = (objects.filter (0 < matching ·)).length ↔
    ∀ x ∈ objects, matching x ≤ 1 := by
  refine ⟨fun same => ?_, fun one => congrArg _ (joined_of_le_one one)⟩
  induction objects with
  | nil => simp
  | cons x rest ih =>
    rw [length_joined_cons, length_filter_cons] at same
    have fewer : (rest.filter (0 < matching ·)).length ≤ (joined matching rest).length :=
      filter_length_le_joined
    rw [List.forall_mem_cons]
    exact ⟨by omega, ih (by omega)⟩

omit [BEq α] [LawfulBEq α] in
theorem joined_filter (p : α → Bool) :
    joined matching (objects.filter p) = joined (fun x => if p x then matching x else 0) objects := by
  induction objects with
  | nil => rfl
  | cons x rest ih =>
    rw [joined, joined] at ih
    cases kept : p x <;> simp [joined, kept, ih]

/-- The views of a join agree on the objects that it matches if and only if it matches none of them twice. -/
theorem agree_joined_iff (ids : (objects.map publicId).Nodup) :
    (ofRows before (joined matching objects) (joined matching objects) publicId : Views _ ε α ι).Agree publicId
      (objects.filter (0 < matching ·)) (Total before (objects.filter (0 < matching ·))) ↔
    ∀ x ∈ objects, matching x ≤ 1 := by
  refine ⟨fun agree => joined_length_iff.mp (Except.ok.inj agree.count), fun one => ?_⟩
  rw [joined_of_le_one one]
  exact agree_ofRows (ids.sublist (List.filter_sublist.map publicId)) (List.Perm.refl _) rfl

/-- Where a page is cut from distinct rows, but all rows are counted, the same is needed. -/
theorem agree_distinct_iff (ids : (objects.map publicId).Nodup) :
    (ofRows before (joined matching objects) (joined matching objects).eraseDups publicId :
      Views _ ε α ι).Agree publicId (objects.filter (0 < matching ·))
      (Total before (objects.filter (0 < matching ·))) ↔
    ∀ x ∈ objects, matching x ≤ 1 := by
  refine ⟨fun agree => joined_length_iff.mp (Except.ok.inj agree.count), fun one => ?_⟩
  have distinct := ids.sublist (List.filter_sublist (p := (0 < matching ·)) |>.map publicId)
  refine agree_ofRows distinct ?_ (joined_length_iff.mpr one)
  rw [joined_of_le_one one, eraseDups_of_nodup distinct.of_map]

omit [BEq α] [LawfulBEq α] in
theorem flatMap_replicate (xs : List β) (n : Nat) (x : α) :
    (xs.flatMap fun _ => List.replicate n x) = List.replicate (xs.length * n) x := by
  induction xs with
  | nil => simp
  | cons _ rest ih =>
    rw [List.flatMap_cons, ih, List.replicate_append_replicate, List.length_cons, Nat.succ_mul, Nat.add_comm]

omit [BEq α] [LawfulBEq α] in
/-- A key that is there once is joined with at most one row. -/
theorem length_filter_le_one {κ : Type} {key : α → κ} {k : κ} {p : α → Bool} (distinct : (rows.map key).Nodup)
    (keyed : ∀ x ∈ rows, p x = true → key x = k) : (rows.filter p).length ≤ 1 := by
  by_contra more
  obtain ⟨x, y, rest, two⟩ : ∃ x y rest, rows.filter p = x :: y :: rest := by
    match rows.filter p, more with
    | [], more => simp at more
    | [_], more => simp at more
    | x :: y :: rest, _ => exact ⟨x, y, rest, rfl⟩
  have kept : (List.map key (x :: y :: rest)).Nodup := two ▸ distinct.sublist (List.filter_sublist.map key)
  have here : ∀ z ∈ x :: y :: rest, key z = k := fun z member => by
    rw [← two] at member
    exact keyed z (List.mem_filter.mp member).1 (List.mem_filter.mp member).2
  have same : key x = key y := (here x List.mem_cons_self).trans (here y (by simp)).symm
  simp [same] at kept

end Views
end SyncEngine
