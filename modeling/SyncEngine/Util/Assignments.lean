/-! A body of assignments to one object's attributes, each of which may raise: what the earlier
ones assigned stays. -/
namespace SyncEngine

/-- An assignment that raises, or what it changes. -/
abbrev Assignment (ε σ : Type) := Except ε (σ → σ)

/-- The object after the assignments, and what ended them early. -/
def assign : List (Assignment ε σ) → σ → σ × Option ε
  | [], s => (s, none)
  | .ok change :: rest, s => assign rest (change s)
  | .error e :: _, s => (s, some e)

def raised : Except ε α → Option ε
  | .ok _ => none
  | .error e => some e

@[simp] theorem raised_ok (value : α) : raised (.ok value : Except ε α) = none := rfl

@[simp] theorem raised_map (f : α → β) (x : Except ε α) : raised (x.map f) = raised x := by
  cases x <;> rfl

/-- What ends the assignments does not depend on the object. -/
theorem assign_raised (body : List (Assignment ε σ)) (s : σ) :
    (assign body s).2 = body.findSome? raised := by
  induction body generalizing s with
  | nil => rfl
  | cons first rest ih =>
    cases first with
    | ok change => exact ih (change s)
    | error => rfl

/-- An assignment keeps what holds of the object, if it assigns anything. -/
def Keeps (holds : σ → Prop) (assignment : Assignment ε σ) : Prop :=
  ∀ change, assignment = .ok change → ∀ s, holds s → holds (change s)

theorem keeps_ok {change : σ → σ} (keeps : ∀ s, holds s → holds (change s)) :
    Keeps holds (.ok change : Assignment ε σ) := by
  rintro _ ⟨⟩
  exact keeps

theorem keeps_map {x : Except ε α} {change : α → σ → σ}
    (keeps : ∀ value s, x = .ok value → holds s → holds (change value s)) :
    Keeps holds (x.map change) := by
  intro _ same
  cases x with
  | error => cases same
  | ok value =>
    cases same
    exact fun s => keeps value s rfl

theorem assign_keeps (holds : σ → Prop) {body : List (Assignment ε σ)}
    (keeps : ∀ assignment ∈ body, Keeps holds assignment) (start : holds s) :
    holds (assign body s).1 := by
  induction body generalizing s with
  | nil => exact start
  | cons first rest ih =>
    cases first with
    | error => exact start
    | ok change =>
      have changed := keeps _ List.mem_cons_self change rfl s start
      exact ih (fun later member => keeps later (List.mem_cons_of_mem _ member)) changed

end SyncEngine
