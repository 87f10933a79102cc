import Mathlib.Logic.Basic

/-! Programs over a state that may raise, run against surroundings that may have no answer, and what
they ensure of their outcome. -/
namespace SyncEngine

theorem bind_ok {x : Except ε α} {rest : α → Except ε β} (done : (x >>= rest) = .ok result) :
    ∃ value, x = .ok value ∧ rest value = .ok result := by
  cases x with
  | error _ => cases done
  | ok value => exact ⟨value, rfl, done⟩

abbrev Raising (S E : Type) := ExceptT E (StateT S Option)

namespace Raising
variable {S E A B : Type}

def ofFun (f : S → Option (Except E A × S)) : Raising S E A := ExceptT.mk f

/-- `none` when a question of the program has no answer in the state. -/
def exec (p : Raising S E A) (s : S) : Option (Except E A × S) := StateT.run (ExceptT.run p) s

/-- The outcome of a program as a value, so that nothing is raised. -/
def attempt (p : Raising S E A) : Raising S E (Except E A) :=
  ofFun fun s => (p.exec s).map fun (outcome, later) => (.ok outcome, later)

/-- Every outcome that the program has from `s` satisfies `post`. -/
def Ensures (p : Raising S E A) (s : S) (post : Except E A → S → Prop) : Prop :=
  ∀ outcome later, p.exec s = some (outcome, later) → post outcome later

variable {p : Raising S E A} {f : A → Raising S E B} {s : S} {post weaker : Except E A → S → Prop}

@[simp] theorem exec_ofFun (f : S → Option (Except E A × S)) : (ofFun f).exec s = f s := rfl

@[simp] theorem exec_pure (a : A) : (pure a : Raising S E A).exec s = some (.ok a, s) := rfl

@[simp] theorem exec_throw (e : E) : (throw e : Raising S E A).exec s = some (.error e, s) := rfl

@[simp] theorem exec_get : (get : Raising S E S).exec s = some (.ok s, s) := rfl

@[simp] theorem exec_modify (f : S → S) :
    (modify f : Raising S E PUnit).exec s = some (.ok ⟨⟩, f s) := rfl

theorem exec_bind : (p >>= f).exec s = (p.exec s).bind fun (outcome, later) =>
    match outcome with
    | .ok a => (f a).exec later
    | .error e => some (.error e, later) := by
  change (StateT.run (ExceptT.run (p >>= f)) s) = _
  rw [ExceptT.run_bind, StateT.run_bind]
  unfold exec
  cases outcome : StateT.run (ExceptT.run p) s with
  | none => rfl
  | some pair =>
    obtain ⟨result, later⟩ := pair
    cases result <;> rfl

@[simp] theorem throw_bind (e : E) : (throw e : Raising S E A) >>= f = throw e := rfl

theorem exec_tryCatch (handler : E → Raising S E A) :
    (tryCatch p handler).exec s = (p.exec s).bind fun (outcome, later) =>
      match outcome with
      | .ok a => some (.ok a, later)
      | .error e => (handler e).exec later := by
  change (StateT.run (ExceptT.run (tryCatch p handler)) s) = _
  unfold exec
  change ((StateT.run (ExceptT.run p) s).bind _) = _
  cases outcome : StateT.run (ExceptT.run p) s with
  | none => rfl
  | some pair =>
    obtain ⟨result, later⟩ := pair
    cases result <;> rfl

theorem Ensures.pure {a : A} (holds : post (.ok a) s) : Ensures (pure a) s post := by
  rintro _ _ ⟨⟩
  exact holds

theorem Ensures.throw {e : E} (holds : post (.error e) s) : Ensures (throw e) s post := by
  rintro _ _ ⟨⟩
  exact holds

theorem Ensures.get {post : Except E S → S → Prop} (holds : post (.ok s) s) : Ensures get s post := by
  rintro _ _ ⟨⟩
  exact holds

theorem Ensures.modify {post : Except E PUnit → S → Prop} {f : S → S} (holds : post (.ok ⟨⟩) (f s)) :
    Ensures (modify f) s post := by
  rintro _ _ ⟨⟩
  exact holds

theorem Ensures.mono (first : Ensures p s post) (weaken : ∀ outcome later, post outcome later →
    weaker outcome later) : Ensures p s weaker :=
  fun outcome later ran => weaken outcome later (first outcome later ran)

theorem Ensures.bind {post : Except E A → S → Prop} {final : Except E B → S → Prop}
    (first : Ensures p s post) (ok : ∀ a later, post (.ok a) later → Ensures (f a) later final)
    (error : ∀ e later, post (.error e) later → final (.error e) later) :
    Ensures (p >>= f) s final := by
  intro outcome later ran
  rw [exec_bind] at ran
  obtain ⟨⟨result, between⟩, reached, rest⟩ := Option.bind_eq_some_iff.mp ran
  have held := first result between reached
  cases result with
  | ok a => exact ok a between held outcome later rest
  | error e =>
    cases rest
    exact error e later held

theorem Ensures.tryCatch {handler : E → Raising S E A} {post final : Except E A → S → Prop}
    (first : Ensures p s post) (ok : ∀ a later, post (.ok a) later → final (.ok a) later)
    (error : ∀ e later, post (.error e) later → Ensures (handler e) later final) :
    Ensures (tryCatch p handler) s final := by
  intro outcome later ran
  rw [exec_tryCatch] at ran
  obtain ⟨⟨result, between⟩, reached, rest⟩ := Option.bind_eq_some_iff.mp ran
  have held := first result between reached
  cases result with
  | ok a =>
    cases rest
    exact ok a later held
  | error e => exact error e between held outcome later rest

theorem Ensures.attempt {post : Except E A → S → Prop} {final : Except E (Except E A) → S → Prop}
    (first : Ensures p s post) (any : ∀ outcome later, post outcome later → final (.ok outcome) later) :
    Ensures p.attempt s final := by
  intro outcome later ran
  obtain ⟨⟨result, between⟩, reached, same⟩ := Option.map_eq_some_iff.mp ran
  cases same
  exact any result later (first result later reached)

end Raising
end SyncEngine
