import Mathlib.Algebra.GroupWithZero.Nat

/-! Items taken from a generator in batches, each bounded by a count and by a size. The generator is
a function that gives the next item of a state or says that there is none. It may fail. -/
namespace Batching

section
variable (next : σ → Except ε (Option α × σ)) (size : σ → α → Nat)

/-- The items that `next` gives one after another from `s` on, and the state after them. -/
inductive Yields : (s : σ) → List α → (s' : σ) → Prop
  | nil (s : σ) : Yields s [] s
  | cons : next s = .ok (some item, s') → Yields s' items s'' → Yields s (item :: items) s''

/-- There is no item, now or when asked again. -/
def Exhausted (s : σ) : Prop :=
  ∃ s', next s = .ok (none, s') ∧ next s' = .ok (none, s')

/-- Reading on does not change the size an item had when it was taken. -/
structure Steady (s : σ) : Prop where
  taken : ∀ ⦃before s₁ item s₂ after s₃⦄, Yields next s before s₁ → next s₁ = .ok (some item, s₂) →
    Yields next s₂ after s₃ → size s₃ item = size s₂ item
  ended : ∀ ⦃before s₁ s₂⦄, Yields next s before s₁ → next s₁ = .ok (none, s₂) → size s₂ = size s₁

/-- A batch, and the state in which it was complete. -/
structure Batch (σ α : Type) where
  items : List α
  state : σ

/-- At most `room` more items, as long as those before have less than `maxBytes` together. -/
def fillBatch (maxBytes : Nat) : (room filled : Nat) → σ → Except ε (List α × σ)
  | 0, _, s => .ok ([], s)
  | room + 1, filled, s =>
    if filled < maxBytes then
      match next s with
      | .error failure => .error failure
      | .ok (none, s') => .ok ([], s')
      | .ok (some item, s') =>
        match fillBatch maxBytes room (filled + size s' item) s' with
        | .error failure => .error failure
        | .ok (items, s'') => .ok (item :: items, s'')
    else .ok ([], s)

/-- Batch after batch, until one stays empty. Nothing when `fuel` batches were not enough. -/
def batches (maxBytes maxCount : Nat) : Nat → σ → Except ε (Option (List (Batch σ α)))
  | 0, _ => .ok none
  | fuel + 1, s =>
    match fillBatch next size maxBytes maxCount 0 s with
    | .error failure => .error failure
    | .ok ([], _) => .ok (some [])
    | .ok (item :: items, s') =>
      match batches maxBytes maxCount fuel s' with
      | .error failure => .error failure
      | .ok later => .ok (later.map (⟨item :: items, s'⟩ :: ·))

/-- What a batch keeps to: some items but not too many, and the last of them was only taken because
those before were small. -/
structure Bounded (maxBytes maxCount : Nat) (batch : Batch σ α) : Prop where
  nonempty : batch.items ≠ []
  count : batch.items.length ≤ maxCount
  bytes : ∀ taken rest, batch.items = taken ++ rest → rest ≠ [] →
    (taken.map (size batch.state)).sum < maxBytes
end

section
variable {next : σ → Except ε (Option α × σ)} {size : σ → α → Nat}

theorem Yields.trans (first : Yields next s items s') (second : Yields next s' more s'') :
    Yields next s (items ++ more) s'' := by
  induction first with
  | nil => exact second
  | cons taken _ ih => exact .cons taken (ih second)

theorem Steady.later (steady : Steady next size s) (passed : Yields next s items s') :
    Steady next size s' :=
  ⟨fun _ _ _ _ _ _ before taken after => steady.taken (passed.trans before) taken after,
    fun _ _ _ before ended => steady.ended (passed.trans before) ended⟩

theorem Yields.invariant {P : σ → Prop}
    (kept : ∀ s item s', P s → next s = .ok (some item, s') → P s')
    (yields : Yields next s items s') (start : P s) : P s' := by
  induction yields with
  | nil => exact start
  | cons taken _ ih => exact ih (kept _ _ _ start taken)

/-- Items have settled once they are taken, and what has settled keeps its size. -/
theorem Steady.of_settled {Good : σ → Prop} {Settled : σ → α → Prop}
    (taken : ∀ s item s', Good s → next s = .ok (some item, s') → Good s' ∧ Settled s' item ∧
      ∀ old, Settled s old → Settled s' old ∧ size s' old = size s old)
    (ended : ∀ s s', Good s → next s = .ok (none, s') → size s' = size s) (start : Good s) :
    Steady next size s where
  taken _ s₁ item s₂ _ s₃ before now after := by
    have good : Good s₁ := before.invariant (fun _ _ _ good step => (taken _ _ _ good step).1) start
    obtain ⟨good, settled, -⟩ := taken _ _ _ good now
    have kept : Good s₃ ∧ Settled s₃ item ∧ size s₃ item = size s₂ item := by
      refine after.invariant (P := fun s => Good s ∧ Settled s item ∧ size s item = size s₂ item) ?_
        ⟨good, settled, rfl⟩
      rintro s other s' ⟨good, settled, same⟩ step
      obtain ⟨good, -, old⟩ := taken _ _ _ good step
      exact ⟨good, (old item settled).1, (old item settled).2.trans same⟩
    exact kept.2.2
  ended _ s₁ s₂ before last :=
    ended _ _ (before.invariant (fun _ _ _ good step => (taken _ _ _ good step).1) start) last

/-- From a state in which `next` does the same. -/
theorem Yields.replace (yields : Yields next s items s') (same : next t = next s) (some : items ≠ []) :
    Yields next t items s' := by
  cases yields with
  | nil => contradiction
  | cons taken later => exact .cons (same.trans taken) later

theorem Yields.exhausts (yields : Yields next s items s') (spent : Exhausted next s')
    (same : next t = next s) : ∃ last, Yields next t items last ∧ Exhausted next last := by
  by_cases some : items = []
  · subst some
    cases yields
    obtain ⟨s'', first, second⟩ := spent
    exact ⟨t, .nil t, s'', same.trans first, second⟩
  · exact ⟨s', yields.replace same some, spent⟩

theorem Yields.stuck (ended : next s = .ok (none, s)) (yields : Yields next s items s') :
    items = [] ∧ s' = s := by
  cases yields with
  | nil => exact ⟨rfl, rfl⟩
  | cons taken _ =>
    rw [ended] at taken
    cases taken

theorem steady_of_stuck (ended : next s = .ok (none, s)) : Steady next size s where
  taken _ _ _ _ _ _ before taken _ := by
    obtain ⟨-, rfl⟩ := before.stuck ended
    rw [ended] at taken
    cases taken
  ended _ _ _ before last := by
    obtain ⟨-, rfl⟩ := before.stuck ended
    rw [ended] at last
    cases last
    rfl

/-- The next items are taken, and the rest is still to come. -/
theorem fillBatch_spec {maxBytes : Nat} {s : σ} (room filled : Nat) {items : List α}
    (steady : Steady next size s) (yields : Yields next s items s') (spent : Exhausted next s') :
    ∃ batch rest s₀ s₁ last, fillBatch next size maxBytes room filled s = .ok (batch, s₁) ∧
      items = batch ++ rest ∧ Yields next s batch s₀ ∧
      (s₁ = s₀ ∨ next s₀ = .ok (none, s₁) ∧ next s₁ = .ok (none, s₁)) ∧
      Yields next s₁ rest last ∧ Exhausted next last ∧ batch.length ≤ room ∧
      (0 < room → filled < maxBytes → batch = [] → items = []) ∧
      ∀ taken more, batch = taken ++ more → more ≠ [] →
        filled + (taken.map (size s₁)).sum < maxBytes := by
  induction room generalizing s items filled with
  | zero =>
    refine ⟨[], items, s, s, s', rfl, rfl, .nil s, .inl rfl, yields, spent, Nat.le_refl _, ?_, ?_⟩
    · intro impossible
      contradiction
    · intro taken more split some
      exact absurd (List.append_eq_nil_iff.mp split.symm).2 some
  | succ room ih =>
    by_cases small : filled < maxBytes
    case neg =>
      refine ⟨[], items, s, s, s', by rw [fillBatch, if_neg small], rfl, .nil s, .inl rfl, yields,
        spent, Nat.zero_le _, fun _ less => absurd less small, ?_⟩
      intro taken more split some
      exact absurd (List.append_eq_nil_iff.mp split.symm).2 some
    cases yields with
    | nil =>
      obtain ⟨s'', first, second⟩ := spent
      refine ⟨[], [], s', s'', s'', ?_, rfl, .nil s', .inr ⟨first, second⟩, .nil s'', ⟨s'', second, second⟩,
        Nat.zero_le _, fun _ _ _ => rfl, ?_⟩
      · rw [fillBatch, if_pos small, first]
      · intro taken more split some
        exact absurd (List.append_eq_nil_iff.mp split.symm).2 some
    | @cons _ item s' items _ taken later =>
      have passed : Yields next s [item] s' := .cons taken (.nil s')
      obtain ⟨batch, rest, s₀, s₁, last, filling, split, reached, stopped, remain, ended, short, -,
        bytes⟩ := ih (filled + size s' item) (steady.later passed) later
      have kept : size s₁ item = size s' item := by
        have same : size s₀ item = size s' item := steady.taken (.nil s) taken reached
        rcases stopped with rfl | stopped
        · exact same
        · rw [steady.ended (.cons taken reached) stopped.1, same]
      refine ⟨item :: batch, rest, s₀, s₁, last, ?_, by rw [split]; rfl, .cons taken reached, stopped,
        remain, ended, Nat.succ_le_succ short, fun _ _ impossible => by contradiction, ?_⟩
      · simp only [fillBatch, if_pos small, taken, filling]
      · intro before more division some
        cases before with
        | nil => simpa using small
        | cons first before =>
          simp only [List.cons_append, List.cons.injEq] at division
          obtain ⟨rfl, division⟩ := division
          have := bytes before more division some
          simp only [List.map_cons, List.sum_cons, kept]
          omega

/-- Every item is handed over once, in order and within the bounds. -/
theorem batches_spec {maxBytes maxCount : Nat} (someBytes : 0 < maxBytes) (someCount : 0 < maxCount)
    {s : σ} {items : List α} (steady : Steady next size s) (yields : Yields next s items s')
    (spent : Exhausted next s') (enough : items.length < fuel) :
    ∃ handed, batches next size maxBytes maxCount fuel s = .ok (some handed) ∧
      (handed.map Batch.items).flatten = items ∧
      ∀ batch ∈ handed, Bounded size maxBytes maxCount batch := by
  induction fuel generalizing s s' items with
  | zero => contradiction
  | succ fuel ih =>
    obtain ⟨batch, rest, s₀, s₁, last, filling, rfl, reached, stopped, remain, ended, short, progress,
      bytes⟩ := fillBatch_spec maxCount 0 steady yields spent
    cases batch with
    | nil =>
      obtain rfl : rest = [] := progress someCount someBytes rfl
      exact ⟨[], by rw [batches, filling], rfl, by simp⟩
    | cons item items =>
      have steady : Steady next size s₁ := by
        rcases stopped with rfl | ⟨-, stuck⟩
        · exact steady.later reached
        · exact steady_of_stuck stuck
      have fewer : rest.length < fuel := by
        simp only [List.cons_append, List.length_cons, List.length_append] at enough
        omega
      obtain ⟨handed, rest, all, bounded⟩ := ih steady remain ended fewer
      refine ⟨⟨item :: items, s₁⟩ :: handed, ?_, ?_, ?_⟩
      · simp only [batches, filling, rest, Option.map_some]
      · rw [List.map_cons, List.flatten_cons, all]
      · intro batch member
        rcases List.mem_cons.mp member with rfl | member
        · exact ⟨by simp, short, fun taken more split some => by
            simpa using bytes taken more split some⟩
        · exact bounded batch member
end

end Batching
