import Mathlib.Data.List.Basic

/-! Feeds: lists of items, each of which a step applies to a state or fails on. An item has its say in
a part of the state, and what that part holds in the end is the word of the last such item. -/
namespace Feed

variable {σ ι ε β : Type} {step : σ → ι → Except ε σ} {items : List ι} {s s' : σ}

theorem cons_ok {i : ι} : (i :: items).foldlM step s = .ok s' ↔
    ∃ next, step s i = .ok next ∧ items.foldlM step next = .ok s' := by
  rw [List.foldlM_cons]
  cases step s i with
  | error e | ok next => simp [bind, Except.bind]

theorem append_ok {later : List ι} : (items ++ later).foldlM step s = .ok s' ↔
    ∃ between, items.foldlM step s = .ok between ∧ later.foldlM step between = .ok s' := by
  rw [List.foldlM_append]
  cases items.foldlM step s with
  | error e | ok between => simp [bind, Except.bind]

theorem run_total (total : ∀ s i, ∃ s', step s i = .ok s') (items : List ι) (s : σ) :
    ∃ s', items.foldlM step s = .ok s' := by
  induction items generalizing s with
  | nil => exact ⟨s, rfl⟩
  | cons i items ih =>
    obtain ⟨next, stepped⟩ := total s i
    obtain ⟨s', rest⟩ := ih next
    exact ⟨s', cons_ok.mpr ⟨next, stepped, rest⟩⟩

/-- What no item touches stays as it was. -/
theorem view_kept (view : σ → β) (kept : ∀ i ∈ items, ∀ s s', step s i = .ok s' → view s' = view s)
    (run : items.foldlM step s = .ok s') : view s' = view s := by
  induction items generalizing s with
  | nil =>
    cases run
    rfl
  | cons i items ih =>
    obtain ⟨next, stepped, rest⟩ := cons_ok.mp run
    simp only [List.mem_cons, forall_eq_or_imp] at kept
    rw [ih kept.2 rest, kept.1 s next stepped]

/-- What every item keeps holds at the end. -/
theorem keeps (inv : σ → Prop) (each : ∀ s i s', inv s → step s i = .ok s' → inv s') (start : inv s)
    (run : items.foldlM step s = .ok s') : inv s' := by
  induction items generalizing s with
  | nil =>
    cases run
    exact start
  | cons i items ih =>
    obtain ⟨next, stepped, rest⟩ := cons_ok.mp run
    exact ih (each s i next start stepped) rest

theorem run_flatten (feeds : List (List ι)) (s : σ) :
    feeds.foldlM (fun s feed => feed.foldlM step s) s = feeds.flatten.foldlM step s := by
  induction feeds generalizing s with
  | nil => rfl
  | cons feed feeds ih =>
    rw [List.flatten_cons, List.foldlM_cons, List.foldlM_append]
    congr 1
    funext next
    exact ih next

end Feed
