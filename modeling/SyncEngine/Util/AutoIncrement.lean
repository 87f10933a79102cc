import Mathlib.Data.List.Nodup

/-! Tables that number their rows. What the counter knows of the rows is lost when the server restarts: it then
begins again after the highest row that is left. Nothing here fixes what the numbers mean. -/

structure AutoIncrement where
  /-- The number of the next row. -/
  increment : Nat
  ids : List Nat
  positive : 0 < increment
  below : ∀ id ∈ ids, 0 < id ∧ id < increment
  distinct : ids.Nodup

namespace AutoIncrement
variable {table : AutoIncrement} {id n : Nat}

def empty : AutoIncrement :=
  ⟨1, [], Nat.one_pos, fun _ member => absurd member List.not_mem_nil, List.nodup_nil⟩

/-- A transaction that is rolled back leaves a gap. -/
def insert (table : AutoIncrement) (commits : Bool) : AutoIncrement where
  increment := table.increment + 1
  ids := if commits then table.increment :: table.ids else table.ids
  positive := Nat.succ_pos _
  below := by
    intro id member
    have older : id ∈ table.ids → 0 < id ∧ id < table.increment + 1 := fun earlier =>
      ⟨(table.below id earlier).1, Nat.lt_succ_of_lt (table.below id earlier).2⟩
    split at member
    · rcases List.mem_cons.mp member with rfl | earlier
      · exact ⟨table.positive, Nat.lt_succ_self _⟩
      · exact older earlier
    · exact older member
  distinct := by
    split
    · exact List.nodup_cons.mpr ⟨fun member => Nat.lt_irrefl _ (table.below _ member).2, table.distinct⟩
    · exact table.distinct

def delete (table : AutoIncrement) (id : Nat) : AutoIncrement where
  increment := table.increment
  ids := table.ids.filter (· ≠ id)
  positive := table.positive
  below := fun _ member => table.below _ (List.mem_filter.mp member).1
  distinct := table.distinct.filter _

def highest (ids : List Nat) : Nat := ids.foldr max 0

theorem le_highest {ids : List Nat} (member : id ∈ ids) : id ≤ highest ids := by
  induction ids with
  | nil => cases member
  | cons first rest ih =>
    rcases List.mem_cons.mp member with rfl | later
    · exact Nat.le_max_left _ _
    · exact Nat.le_trans (ih later) (Nat.le_max_right _ _)

theorem highest_mem (ids : List Nat) : highest ids = 0 ∨ highest ids ∈ ids := by
  induction ids with
  | nil => exact .inl rfl
  | cons first rest ih =>
    rcases Nat.le_total first (highest rest) with above | below
    · have same : highest (first :: rest) = highest rest := Nat.max_eq_right above
      rw [same]
      exact ih.imp_right (List.mem_cons_of_mem _)
    · have same : highest (first :: rest) = first := Nat.max_eq_left below
      rw [same]
      exact .inr List.mem_cons_self

/-- What is asked for, but no number that a row has, or a lower one. -/
def alter (table : AutoIncrement) (n : Nat) : AutoIncrement where
  increment := max n (highest table.ids + 1)
  ids := table.ids
  positive := Nat.lt_of_lt_of_le (Nat.succ_pos _) (Nat.le_max_right _ _)
  below := fun id member => ⟨(table.below id member).1,
    Nat.lt_of_lt_of_le (Nat.lt_succ_of_le (le_highest member)) (Nat.le_max_right _ _)⟩
  distinct := table.distinct

def restart (table : AutoIncrement) : AutoIncrement := table.alter 0

theorem alter_alter (m n : Nat) : (table.alter m).alter n = table.alter n := rfl

theorem mem_insert {commits : Bool} (member : id ∈ (table.insert commits).ids) :
    id = table.increment ∨ id ∈ table.ids := by
  cases commits with
  | false => exact .inr member
  | true => exact List.mem_cons.mp member

/-- Nothing is numbered: the counter is what was asked for last. -/
theorem alter_fresh (nothing : table.ids = []) (some_number : 0 < n) : (table.alter n).increment = n := by
  have none_higher : highest table.ids + 1 ≤ n := by
    rw [nothing]
    exact some_number
  exact Nat.max_eq_left none_higher

/-! ## Where the numbers come from -/

/-- At most `steps` after a number that counting began with. -/
def Near (origins : List Nat) (steps n : Nat) : Prop := ∃ origin ∈ origins, origin ≤ n ∧ n ≤ origin + steps

variable {origins : List Nat} {steps : Nat}

theorem Near.later (near : Near origins steps n) : Near origins (steps + 1) n := by
  obtain ⟨origin, among, above, close⟩ := near
  exact ⟨origin, among, above, Nat.le_succ_of_le close⟩

theorem Near.next (near : Near origins steps n) : Near origins (steps + 1) (n + 1) := by
  obtain ⟨origin, among, above, close⟩ := near
  exact ⟨origin, among, Nat.le_succ_of_le above, Nat.succ_le_succ close⟩

/-- The counter and every row are near where counting began. -/
structure Drawn (origins : List Nat) (steps : Nat) (table : AutoIncrement) : Prop where
  counter : Near origins steps table.increment
  rows : ∀ id ∈ table.ids, Near origins steps id

theorem Drawn.later (drawn : Drawn origins steps table) : Drawn origins (steps + 1) table :=
  ⟨drawn.counter.later, fun id member => (drawn.rows id member).later⟩

theorem Drawn.insert (drawn : Drawn origins steps table) (commits : Bool) :
    Drawn origins (steps + 1) (table.insert commits) := by
  refine ⟨drawn.counter.next, fun id member => ?_⟩
  rcases mem_insert member with rfl | earlier
  · exact drawn.counter.later
  · exact (drawn.rows id earlier).later

theorem Drawn.delete (drawn : Drawn origins steps table) (id : Nat) :
    Drawn origins (steps + 1) (table.delete id) :=
  ⟨drawn.counter.later, fun other member => (drawn.rows other (List.mem_filter.mp member).1).later⟩

theorem Drawn.highest (drawn : Drawn origins steps table) (first : 1 ∈ origins) :
    Near origins (steps + 1) (AutoIncrement.highest table.ids + 1) := by
  rcases highest_mem table.ids with none | member
  · rw [none]
    exact ⟨1, first, Nat.le_refl _, Nat.le_add_right _ _⟩
  · exact (drawn.rows _ member).next

theorem Drawn.alter (drawn : Drawn origins steps table) (first : 1 ∈ origins) (origin : n ∈ origins) :
    Drawn origins (steps + 1) (table.alter n) := by
  refine ⟨?_, fun id member => (drawn.rows id member).later⟩
  rcases Nat.le_total n (AutoIncrement.highest table.ids + 1) with below | above
  · have same : (table.alter n).increment = AutoIncrement.highest table.ids + 1 := Nat.max_eq_right below
    rw [same]
    exact drawn.highest first
  · have same : (table.alter n).increment = n := Nat.max_eq_left above
    rw [same]
    exact ⟨n, origin, Nat.le_refl _, Nat.le_add_right _ _⟩

theorem Drawn.restart (drawn : Drawn origins steps table) (first : 1 ∈ origins) :
    Drawn origins (steps + 1) table.restart := by
  refine ⟨?_, fun id member => (drawn.rows id member).later⟩
  have same : table.restart.increment = AutoIncrement.highest table.ids + 1 := Nat.max_eq_right (Nat.zero_le _)
  rw [same]
  exact drawn.highest first

end AutoIncrement
