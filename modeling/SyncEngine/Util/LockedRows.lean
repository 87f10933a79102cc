import Mathlib.Data.List.Pairwise

/-! Transactions on a table of rows. A transaction sees its own changes over what is committed, and
keeps the rows that it has changed locked until it ends. Labels of rows stay apart in every view when
each change keeps them apart from what it sees and from what the others have not committed. -/
namespace SyncEngine.LockedRows

section Definitions
variable {R : Type} (id : R → Nat)

/-- What a transaction has not committed: rows that it put, and the ids of those that it removed. -/
structure Changes (R : Type) where
  own : List R
  gone : List Nat

def Changes.empty : Changes R := ⟨[], []⟩

def Changes.touched (c : Changes R) : List Nat := c.own.map id ++ c.gone

def Changes.view (c : Changes R) (committed : List R) : List R :=
  committed.filter (fun row => id row ∉ c.touched id) ++ c.own

structure Store (R : Type) where
  committed : List R
  sessions : List (Changes R)

variable (s : Store R)

def Store.changes (k : Nat) : Changes R := s.sessions[k]?.getD .empty

def Store.view (k : Nat) : List R := (s.changes k).view id s.committed

/-- The rows that the other transactions have not committed. -/
def Store.uncommitted (k : Nat) : List R :=
  (s.sessions.zipIdx.filter fun (_, j) => j ≠ k).flatMap fun (c, _) => c.own

def Store.locked (k i : Nat) : Bool :=
  s.sessions.zipIdx.any fun (c, j) => j ≠ k && i ∈ c.touched id

def Store.set (k : Nat) (c : Changes R) : Store R := { s with sessions := s.sessions.set k c }

def Store.open : Store R := { s with sessions := s.sessions ++ [.empty] }

/-- Inserts or updates a row. -/
def Store.put (k : Nat) (row : R) : Store R :=
  let c := s.changes k
  s.set k { c with own := c.own.filter (fun old => id old ≠ id row) ++ [row] }

def Store.remove (k i : Nat) : Store R :=
  let c := s.changes k
  s.set k { own := c.own.filter (fun old => id old ≠ i), gone := c.gone ++ [i] }

def Store.commit (k : Nat) : Store R :=
  { s with committed := s.view id k, sessions := s.sessions.set k .empty }

def Store.abort (k : Nat) : Store R := s.set k .empty

end Definitions

variable {R L : Type} {id : R → Nat} {label : R → L} {s : Store R} {j k i : Nat} {a b row : R}

theorem mem_view {c : Changes R} {committed : List R} : a ∈ c.view id committed ↔
    a ∈ c.own ∨ a ∈ committed ∧ id a ∉ c.touched id := by
  simp [Changes.view, or_comm]

@[simp] theorem touched_empty : (Changes.empty : Changes R).touched id = [] := rfl

@[simp] theorem own_empty : (Changes.empty : Changes R).own = [] := rfl

theorem view_empty (committed : List R) : (Changes.empty : Changes R).view id committed = committed := by
  simp [Changes.view]

theorem changes_set (c : Changes R) (inside : k < s.sessions.length) :
    (s.set k c).changes j = if j = k then c else s.changes j := by
  unfold Store.changes Store.set
  by_cases same : j = k
  · subst same
    simp [List.getElem?_set_self inside]
  · simp [List.getElem?_set_ne (Ne.symm same), same]

theorem changes_open : s.open.changes j = s.changes j := by
  unfold Store.changes Store.open
  rw [List.getElem?_append]
  split
  · rfl
  next outside =>
    rw [List.getElem?_eq_none (Nat.le_of_not_lt outside), List.getElem?_singleton]
    split <;> rfl

/-- The sessions that are open are those with changes. -/
theorem session_of_changes {c : Changes R} (at_j : s.sessions[j]? = some c) : s.changes j = c := by
  simp [Store.changes, at_j]

theorem mem_uncommitted : a ∈ s.uncommitted k ↔ ∃ j, j ≠ k ∧ a ∈ (s.changes j).own := by
  unfold Store.uncommitted
  simp only [List.mem_flatMap, List.mem_filter, decide_eq_true_eq]
  constructor
  · rintro ⟨⟨c, j⟩, ⟨mem, other⟩, own⟩
    refine ⟨j, other, ?_⟩
    rwa [session_of_changes (List.mem_zipIdx_iff_getElem?.mp mem)]
  · rintro ⟨j, other, own⟩
    cases at_j : s.sessions[j]? with
    | none => simp [Store.changes, at_j] at own
    | some c =>
      rw [session_of_changes at_j] at own
      exact ⟨(c, j), ⟨List.mem_zipIdx_iff_getElem?.mpr at_j, other⟩, own⟩

theorem locked_iff : s.locked id k i = true ↔ ∃ j, j ≠ k ∧ i ∈ (s.changes j).touched id := by
  unfold Store.locked
  simp only [List.any_eq_true, Bool.and_eq_true, decide_eq_true_eq]
  constructor
  · rintro ⟨⟨c, j⟩, mem, other, touched⟩
    refine ⟨j, other, ?_⟩
    rwa [session_of_changes (List.mem_zipIdx_iff_getElem?.mp mem)]
  · rintro ⟨j, other, touched⟩
    cases at_j : s.sessions[j]? with
    | none => simp [Store.changes, at_j] at touched
    | some c =>
      rw [session_of_changes at_j] at touched
      exact ⟨(c, j), List.mem_zipIdx_iff_getElem?.mpr at_j, other, touched⟩

/-- Labels stand for one row each, in what is committed and in every view of it. -/
structure Apart (id : R → Nat) (label : R → L) (s : Store R) : Prop where
  ids : s.committed.Pairwise fun a b => id a ≠ id b
  ownIds : ∀ k, (s.changes k).own.Pairwise fun a b => id a ≠ id b
  ownStay : ∀ k, ∀ a ∈ (s.changes k).own, id a ∉ (s.changes k).gone
  locks : ∀ j k, j ≠ k → ∀ i ∈ (s.changes j).touched id, i ∉ (s.changes k).touched id
  labels : ∀ k, ∀ a ∈ s.view id k, ∀ b ∈ s.view id k, label a = label b → id a = id b
  uncommitted : ∀ j k, j ≠ k → ∀ a ∈ (s.changes j).own, ∀ b ∈ (s.changes k).own, label a ≠ label b

variable {label : R → L}

/-- Another set of changes for a session, apart from all that it sees. -/
theorem Apart.set (apart : Apart id label s) {c : Changes R} (inside : k < s.sessions.length)
    (ownIds : c.own.Pairwise fun a b => id a ≠ id b) (ownStay : ∀ a ∈ c.own, id a ∉ c.gone)
    (locks : ∀ j, j ≠ k → ∀ i ∈ c.touched id, i ∉ (s.changes j).touched id)
    (labels : ∀ a ∈ c.view id s.committed, ∀ b ∈ c.view id s.committed, label a = label b → id a = id b)
    (uncommitted : ∀ j, j ≠ k → ∀ a ∈ c.own, ∀ b ∈ (s.changes j).own, label a ≠ label b) :
    Apart id label (s.set k c) := by
  have changes (j : Nat) : (s.set k c).changes j = if j = k then c else s.changes j := changes_set c inside
  constructor
  · exact apart.ids
  · intro j
    rw [changes]
    split
    · exact ownIds
    · exact apart.ownIds j
  · intro j
    rw [changes]
    split
    · exact ownStay
    · exact apart.ownStay j
  · intro i j other x
    rw [changes, changes]
    split <;> split
    next i_is_k j_is_k => exact absurd (i_is_k.trans j_is_k.symm) other
    next _ not_k => exact locks j not_k x
    next not_k _ => exact fun touched mine => locks i not_k x mine touched
    next => exact apart.locks i j other x
  · intro j
    unfold Store.view
    rw [changes]
    split
    · exact labels
    · exact apart.labels j
  · intro i j other a mem_a b mem_b
    rw [changes] at mem_a mem_b
    split at mem_a <;> split at mem_b
    next i_is_k j_is_k => exact absurd (i_is_k.trans j_is_k.symm) other
    next _ not_k => exact uncommitted j not_k a mem_a b mem_b
    next not_k _ => exact fun same => uncommitted i not_k b mem_b a mem_a same.symm
    next => exact apart.uncommitted i j other a mem_a b mem_b

theorem Apart.abort (apart : Apart id label s) (k : Nat) : Apart id label (s.abort k) := by
  by_cases inside : k < s.sessions.length
  · refine apart.set inside List.Pairwise.nil (fun _ mem => nomatch mem) (fun _ _ _ mem => nomatch mem) ?_
      (fun _ _ _ mem => nomatch mem)
    rw [view_empty]
    intro a mem_a b mem_b
    have outside : s.changes s.sessions.length = .empty := by simp [Store.changes]
    have committed := apart.labels s.sessions.length
    rw [Store.view, outside, view_empty] at committed
    exact committed a mem_a b mem_b
  · have same : s.abort k = s := by
      simp [Store.abort, Store.set, List.set_eq_of_length_le (Nat.le_of_not_lt inside)]
    rwa [same]

theorem Apart.open (apart : Apart id label s) : Apart id label s.open := by
  have changes (j : Nat) : s.open.changes j = s.changes j := changes_open
  refine ⟨apart.ids, ?_, ?_, ?_, ?_, ?_⟩
  · exact fun j => changes j ▸ apart.ownIds j
  · exact fun j => changes j ▸ apart.ownStay j
  · exact fun i j => changes i ▸ changes j ▸ apart.locks i j
  · intro j
    unfold Store.view
    rw [changes]
    exact apart.labels j
  · exact fun i j => changes i ▸ changes j ▸ apart.uncommitted i j

/-- What a session still sees when it puts a row. -/
theorem mem_view_put {c : Changes R} {committed : List R}
    (mem : a ∈ Changes.view id { c with own := c.own.filter (fun old => id old ≠ id row) ++ [row] } committed) :
    a = row ∨ a ∈ c.view id committed ∧ id a ≠ id row := by
  rcases mem_view.mp mem with own | ⟨committed, untouched⟩
  · rcases List.mem_append.mp own with kept | new
    · obtain ⟨mem, other⟩ := List.mem_filter.mp kept
      exact .inr ⟨mem_view.mpr (.inl mem), of_decide_eq_true other⟩
    · exact .inl (List.mem_singleton.mp new)
  · simp only [Changes.touched, List.map_append, List.map_cons, List.map_nil, List.mem_append,
      List.mem_singleton, not_or] at untouched
    obtain ⟨⟨not_kept, other⟩, stays⟩ := untouched
    refine .inr ⟨mem_view.mpr (.inr ⟨committed, ?_⟩), other⟩
    rw [Changes.touched, List.mem_append, not_or]
    refine ⟨fun touched => not_kept ?_, stays⟩
    obtain ⟨old, mem_old, same⟩ := List.mem_map.mp touched
    exact List.mem_map.mpr ⟨old, List.mem_filter.mpr ⟨mem_old, decide_eq_true (same ▸ other)⟩, same⟩

theorem Apart.put (apart : Apart id label s) (inside : k < s.sessions.length)
    (unlocked : s.locked id k (id row) = false) (stays : id row ∉ (s.changes k).gone)
    (free : ∀ b ∈ s.view id k, label b = label row → id b = id row)
    (unclaimed : ∀ b ∈ s.uncommitted k, label b ≠ label row) : Apart id label (s.put id k row) := by
  have mem_own {a : R} (mem : a ∈ (s.changes k).own.filter (fun old => id old ≠ id row) ++ [row]) :
      a ∈ (s.changes k).own ∨ a = row := by
    rcases List.mem_append.mp mem with kept | new
    · exact .inl (List.mem_filter.mp kept).1
    · exact .inr (List.mem_singleton.mp new)
  refine apart.set inside ?_ ?_ ?_ ?_ ?_
  · refine List.pairwise_append.mpr ⟨(apart.ownIds k).filter _, List.pairwise_singleton _ _, ?_⟩
    intro a mem_a b mem_b
    rw [List.mem_singleton.mp mem_b]
    exact of_decide_eq_true (List.mem_filter.mp mem_a).2
  · intro a mem
    rcases mem_own mem with old | rfl
    · exact apart.ownStay k a old
    · exact stays
  · intro j other i touched mine
    rcases List.mem_append.mp touched with own | gone
    · obtain ⟨a, mem, rfl⟩ := List.mem_map.mp own
      rcases mem_own mem with old | rfl
      · exact apart.locks k j other.symm _ (List.mem_append_left _ (List.mem_map_of_mem old)) mine
      · rw [locked_iff.mpr ⟨j, other, mine⟩] at unlocked
        cases unlocked
    · exact apart.locks k j other.symm i (List.mem_append_right _ gone) mine
  · intro a mem_a b mem_b same
    rcases mem_view_put mem_a with rfl | ⟨old_a, other_a⟩ <;> rcases mem_view_put mem_b with rfl | ⟨old_b, other_b⟩
    · rfl
    · exact (free b old_b same.symm).symm
    · exact free a old_a same
    · exact apart.labels k a old_a b old_b same
  · intro j other a mem_a b mem_b
    rcases mem_own mem_a with old | rfl
    · exact apart.uncommitted k j other.symm a old b mem_b
    · exact (unclaimed b (mem_uncommitted.mpr ⟨j, other, mem_b⟩)).symm

/-- A row that was there keeps its label: nothing else can have come to have it. -/
theorem Apart.unclaimed (apart : Apart id label s) (unlocked : s.locked id k (id row) = false)
    (old : a ∈ s.view id k) (same_id : id a = id row) (same_label : label a = label row) :
    ∀ b ∈ s.uncommitted k, label b ≠ label row := by
  intro b mem same
  obtain ⟨j, other, mem_b⟩ := mem_uncommitted.mp mem
  rcases mem_view.mp old with own | ⟨committed, -⟩
  · exact apart.uncommitted j k other b mem_b a own (same.trans same_label.symm)
  · have untouched : id a ∉ (s.changes j).touched id := by
      intro touched
      rw [same_id] at touched
      rw [locked_iff.mpr ⟨j, other, touched⟩] at unlocked
      cases unlocked
    have same_row := apart.labels j b (mem_view.mpr (.inl mem_b)) a
      (mem_view.mpr (.inr ⟨committed, untouched⟩)) (same.trans same_label.symm)
    exact untouched (same_row ▸ List.mem_append_left _ (List.mem_map_of_mem mem_b))

theorem Apart.remove (apart : Apart id label s) (inside : k < s.sessions.length)
    (unlocked : s.locked id k i = false) : Apart id label (s.remove id k i) := by
  have sees {a : R} (mem : a ∈ Changes.view id
      { own := (s.changes k).own.filter (fun old => id old ≠ i), gone := (s.changes k).gone ++ [i] }
      s.committed) : a ∈ s.view id k := by
    rcases mem_view.mp mem with own | ⟨committed, untouched⟩
    · exact mem_view.mpr (.inl (List.mem_filter.mp own).1)
    · refine mem_view.mpr (.inr ⟨committed, fun touched => untouched ?_⟩)
      rcases List.mem_append.mp touched with own | gone
      · obtain ⟨old, mem_old, same⟩ := List.mem_map.mp own
        by_cases removed : id old = i
        · rw [← same, removed]
          exact List.mem_append_right _ (List.mem_append_right _ (List.mem_singleton_self i))
        · exact List.mem_append_left _ (List.mem_map.mpr
            ⟨old, List.mem_filter.mpr ⟨mem_old, decide_eq_true removed⟩, same⟩)
      · exact List.mem_append_right _ (List.mem_append_left _ gone)
  refine apart.set inside ((apart.ownIds k).filter _) ?_ ?_ ?_ ?_
  · intro a mem
    obtain ⟨old, kept⟩ := List.mem_filter.mp mem
    rw [List.mem_append, not_or, List.mem_singleton]
    exact ⟨apart.ownStay k a old, of_decide_eq_true kept⟩
  · intro j other x touched mine
    rcases List.mem_append.mp touched with own | gone
    · obtain ⟨a, mem, rfl⟩ := List.mem_map.mp own
      exact apart.locks k j other.symm _
        (List.mem_append_left _ (List.mem_map_of_mem (List.mem_filter.mp mem).1)) mine
    · rcases List.mem_append.mp gone with old | new
      · exact apart.locks k j other.symm x (List.mem_append_right _ old) mine
      · rw [List.mem_singleton.mp new] at mine
        rw [locked_iff.mpr ⟨j, other, mine⟩] at unlocked
        cases unlocked
  · exact fun a mem_a b mem_b => apart.labels k a (sees mem_a) b (sees mem_b)
  · exact fun j other a mem_a => apart.uncommitted k j other.symm a (List.mem_filter.mp mem_a).1

theorem Apart.viewIds (apart : Apart id label s) (k : Nat) :
    (s.view id k).Pairwise fun a b => id a ≠ id b := by
  refine List.pairwise_append.mpr ⟨apart.ids.filter _, apart.ownIds k, ?_⟩
  intro a mem_a b mem_b same
  have untouched := of_decide_eq_true (List.mem_filter.mp mem_a).2
  exact untouched (same ▸ List.mem_append_left _ (List.mem_map_of_mem mem_b))

theorem changes_commit : (s.commit id k).changes j = if j = k then .empty else s.changes j := by
  by_cases inside : k < s.sessions.length
  · exact changes_set (s := s) .empty inside
  · have outside : s.sessions.set k .empty = s.sessions := List.set_eq_of_length_le (Nat.le_of_not_lt inside)
    split
    next same =>
      subst same
      simp [Store.changes, Store.commit, outside, Nat.le_of_not_lt inside]
    next => simp only [Store.changes, Store.commit, outside]

/-- What a session sees has not been removed by it. -/
theorem Apart.stays (apart : Apart id label s) (seen : a ∈ s.view id k) : id a ∉ (s.changes k).gone := by
  rcases mem_view.mp seen with own | ⟨-, untouched⟩
  · exact apart.ownStay k a own
  · exact fun gone => untouched (List.mem_append_right _ gone)

theorem Apart.commit (apart : Apart id label s) (k : Nat) : Apart id label (s.commit id k) := by
  have changes (j : Nat) : (s.commit id k).changes j = if j = k then .empty else s.changes j :=
    changes_commit
  -- what another session sees of the rows that it has not touched, it sees of this one's view
  have others {j : Nat} {a : R} (other : j ≠ k) (mem : a ∈ (s.changes j).view id (s.view id k)) :
      a ∈ (s.changes j).own ∨ a ∈ s.view id k ∧ id a ∉ (s.changes j).touched id := mem_view.mp mem
  have across {j : Nat} {a b : R} (other : j ≠ k) (own : a ∈ (s.changes j).own) (seen : b ∈ s.view id k)
      (untouched : id b ∉ (s.changes j).touched id) (same : label a = label b) : id a = id b := by
    rcases mem_view.mp seen with mine | ⟨committed, -⟩
    · exact absurd same (apart.uncommitted j k other a own b mine)
    · exact apart.labels j a (mem_view.mpr (.inl own)) b (mem_view.mpr (.inr ⟨committed, untouched⟩)) same
  refine ⟨?_, ?_, ?_, ?_, ?_, ?_⟩
  · exact apart.viewIds k
  · intro j
    rw [changes]
    split
    · exact List.Pairwise.nil
    · exact apart.ownIds j
  · intro j
    rw [changes]
    split
    · exact nofun
    · exact apart.ownStay j
  · intro i j other x
    rw [changes, changes]
    split
    · exact nofun
    · split
      · exact fun _ => List.not_mem_nil
      · exact apart.locks i j other x
  · intro j a mem_a b mem_b
    unfold Store.view at mem_a mem_b
    rw [changes] at mem_a mem_b
    by_cases same : j = k
    · rw [if_pos same, view_empty] at mem_a mem_b
      exact apart.labels k a mem_a b mem_b
    · rw [if_neg same] at mem_a mem_b
      intro same_label
      rcases others same mem_a with own_a | ⟨seen_a, untouched_a⟩ <;>
        rcases others same mem_b with own_b | ⟨seen_b, untouched_b⟩
      · exact apart.labels j a (mem_view.mpr (.inl own_a)) b (mem_view.mpr (.inl own_b)) same_label
      · exact across same own_a seen_b untouched_b same_label
      · exact (across same own_b seen_a untouched_a same_label.symm).symm
      · exact apart.labels k a seen_a b seen_b same_label
  · intro i j other a mem_a b mem_b
    rw [changes] at mem_a mem_b
    split at mem_a
    · cases mem_a
    · split at mem_b
      · cases mem_b
      · exact apart.uncommitted i j other a mem_a b mem_b

/-- Rows of one label are one row. -/
theorem Apart.filter_length [DecidableEq L] (apart : Apart id label s) (k : Nat) (l : L) :
    ((s.view id k).filter fun row => label row = l).length ≤ 1 := by
  have distinct := (apart.viewIds k).filter fun row => decide (label row = l)
  cases found : (s.view id k).filter fun row => label row = l with
  | nil => exact Nat.zero_le 1
  | cons a rest =>
    cases rest with
    | nil => exact Nat.le_refl 1
    | cons b rest =>
      rw [found, List.pairwise_cons] at distinct
      have labelled {c : R} (mem : c ∈ a :: b :: rest) : c ∈ s.view id k ∧ label c = l := by
        rw [← found] at mem
        exact ⟨(List.mem_filter.mp mem).1, of_decide_eq_true (List.mem_filter.mp mem).2⟩
      obtain ⟨seen_a, label_a⟩ := labelled List.mem_cons_self
      obtain ⟨seen_b, label_b⟩ := labelled (List.mem_cons_of_mem a List.mem_cons_self)
      exact absurd (apart.labels k a seen_a b seen_b (label_a.trans label_b.symm))
        (distinct.1 b List.mem_cons_self)

theorem apart_start {rows : List R} (ids : rows.Pairwise fun a b => id a ≠ id b)
    (labels : ∀ a ∈ rows, ∀ b ∈ rows, label a = label b → id a = id b) :
    Apart id label ⟨rows, []⟩ := by
  have nothing (k : Nat) : (Store.mk rows []).changes k = .empty := by simp [Store.changes]
  constructor
  · exact ids
  · exact fun k => nothing k ▸ List.Pairwise.nil
  · exact fun k => nothing k ▸ nofun
  · exact fun j k _ => nothing j ▸ nofun
  · intro k
    rw [Store.view, nothing, view_empty]
    exact labels
  · exact fun j k _ => nothing j ▸ nofun

end SyncEngine.LockedRows
