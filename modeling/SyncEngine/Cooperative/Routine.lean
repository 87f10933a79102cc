import Mathlib.Data.List.Basic

/-! Cooperative routines: straight code between the points at which another routine can run.
Each step issues one atomic command; what follows is chosen from the state the command found.
Nothing here fixes the state, the commands or the exceptions. -/
namespace Cooperative

inductive Routine (S C E α : Type) where
  | ret (value : α)
  | raise (exc : E)
  | step (command : C) (next : S → Routine S C E α)

namespace Routine
variable {S C E α β : Type}

def bind : Routine S C E α → (α → Routine S C E β) → Routine S C E β
  | .ret value, rest => rest value
  | .raise exc, _ => .raise exc
  | .step command next, rest => .step command (fun s => (next s).bind rest)

instance : Monad (Routine S C E) where
  pure := .ret
  bind := bind

def ofExcept : Except E α → Routine S C E α
  | .ok value => .ret value
  | .error exc => .raise exc

/-- One command with its answer, read from the state that the command finds. -/
def issue (command : C) (answer : S → Except E α) : Routine S C E α :=
  .step command (fun s => ofExcept (answer s))

/-- `for item in items`. -/
def each (items : List β) (body : β → Routine S C E Unit) : Routine S C E Unit :=
  match items with
  | [] => .ret ()
  | item :: rest => (body item).bind (fun _ => each rest body)

/-- `try: routine; finally: last`. -/
def ensure : Routine S C E α → Routine S C E Unit → Routine S C E α
  | .ret value, last => last.bind (fun _ => .ret value)
  | .raise exc, last => last.bind (fun _ => .raise exc)
  | .step command next, last => .step command (fun s => (next s).ensure last)

/-- How a routine that takes no further step has ended. -/
def outcome : Routine S C E α → Option (Except E α)
  | .ret value => some (.ok value)
  | .raise exc => some (.error exc)
  | .step _ _ => none

@[simp] theorem pure_eq (value : α) : (pure value : Routine S C E α) = .ret value := rfl

@[simp] theorem bind_eq (routine : Routine S C E α) (rest : α → Routine S C E β) :
    routine >>= rest = routine.bind rest := rfl

@[simp] theorem ret_bind (value : α) (rest : α → Routine S C E β) :
    (ret value : Routine S C E α).bind rest = rest value := rfl

theorem bind_assoc {γ : Type} (routine : Routine S C E α) (f : α → Routine S C E β)
    (g : β → Routine S C E γ) : (routine.bind f).bind g = routine.bind (fun a => (f a).bind g) := by
  induction routine with
  | ret | raise => rfl
  | step command next ih => simp only [bind, ih]

/-! ## Running alone -/
section Alone
variable (perform : C → S → S)

/-- The outcome and the last state of a routine that no other routine interrupts. -/
def run : Routine S C E α → S → Except E α × S
  | .ret value, s => (.ok value, s)
  | .raise exc, s => (.error exc, s)
  | .step command next, s => (next s).run (perform command s)

/-- Each command that is issued, with the state that it leaves. -/
def steps : Routine S C E α → S → List (C × S)
  | .ret _, _ => []
  | .raise _, _ => []
  | .step command next, s => (command, perform command s) :: (next s).steps (perform command s)

theorem run_bind (routine : Routine S C E α) (rest : α → Routine S C E β) (s : S) :
    (routine.bind rest).run perform s = match routine.run perform s with
      | (.ok value, t) => (rest value).run perform t
      | (.error exc, t) => (.error exc, t) := by
  induction routine generalizing s with
  | ret | raise => rfl
  | step command next ih => exact ih s (perform command s)

theorem run_bind_ok {routine : Routine S C E α} {rest : α → Routine S C E β}
    (ended : routine.run perform s = (.ok value, t)) :
    (routine.bind rest).run perform s = (rest value).run perform t := by
  rw [run_bind, ended]

theorem steps_bind_ok {routine : Routine S C E α} {rest : α → Routine S C E β}
    (ended : routine.run perform s = (.ok value, t)) :
    (routine.bind rest).steps perform s =
      routine.steps perform s ++ (rest value).steps perform t := by
  induction routine generalizing s with
  | ret =>
    cases ended
    rfl
  | raise => cases ended
  | step command next ih => simp only [bind, steps, ih _ ended, List.cons_append]

@[simp] theorem run_issue (command : C) (answer : S → Except E α) (s : S) :
    (issue command answer).run perform s = (answer s, perform command s) := by
  simp only [issue, run]
  cases answer s <;> rfl

@[simp] theorem steps_issue (command : C) (answer : S → Except E α) (s : S) :
    (issue command answer).steps perform s = [(command, perform command s)] := by
  simp only [issue, steps]
  cases answer s <;> rfl

end Alone

/-! ## Possible outcomes -/

/-- A routine may end so when other routines change the state in any way between its steps. -/
def MayEnd : Routine S C E α → Except E α → Prop
  | .ret value, result => result = .ok value
  | .raise exc, result => result = .error exc
  | .step _ next, result => ∃ s, (next s).MayEnd result

theorem mayEnd_bind {routine : Routine S C E α} {rest : α → Routine S C E β} :
    (routine.bind rest).MayEnd result ↔
      (∃ value, routine.MayEnd (.ok value) ∧ (rest value).MayEnd result) ∨
      (∃ exc, routine.MayEnd (.error exc) ∧ result = .error exc) := by
  induction routine with
  | ret | raise => simp [bind, MayEnd]
  | step command next ih =>
    simp only [bind, MayEnd, ih]
    grind

/-- Only an exception that the body may raise leaves the loop. -/
theorem mayEnd_each {items : List β} {body : β → Routine S C E Unit}
    (ended : (each items body).MayEnd (.error exc)) :
    ∃ item ∈ items, (body item).MayEnd (.error exc) := by
  induction items with
  | nil => cases ended
  | cons item rest ih =>
    rcases mayEnd_bind.mp ended with ⟨_, _, later⟩ | ⟨_, raised, same⟩
    · obtain ⟨found, member, raised⟩ := ih later
      exact ⟨found, List.mem_cons_of_mem _ member, raised⟩
    · cases same
      exact ⟨item, List.mem_cons_self, raised⟩

@[simp] theorem mayEnd_ofExcept (value result : Except E α) :
    (ofExcept value : Routine S C E α).MayEnd result ↔ result = value := by
  cases value <;> rfl

theorem mayEnd_issue {command : C} {answer : S → Except E α} :
    (issue command answer).MayEnd result ↔ ∃ s, answer s = result := by
  simp only [issue, MayEnd, mayEnd_ofExcept, eq_comm]

theorem mayEnd_last {routine : Routine S C E α} {rest : α → Routine S C E β}
    (ended : (routine.bind rest).MayEnd (.ok result)) :
    ∃ value, (rest value).MayEnd (.ok result) := by
  rcases mayEnd_bind.mp ended with ⟨value, _, later⟩ | ⟨_, _, same⟩
  · exact ⟨value, later⟩
  · cases same

/-- What a routine does alone is one of the things it may do. -/
theorem mayEnd_run (perform : C → S → S) (routine : Routine S C E α) (s : S) :
    routine.MayEnd (routine.run perform s).1 := by
  induction routine generalizing s with
  | ret | raise => rfl
  | step command next ih => exact ⟨s, ih s (perform command s)⟩

/-- Only exceptions of this kind leave the routine. -/
def Raises (allowed : E → Prop) (routine : Routine S C E α) : Prop :=
  ∀ exc, routine.MayEnd (.error exc) → allowed exc

theorem raises_ret {allowed : E → Prop} {value : α} :
    (ret value : Routine S C E α).Raises allowed := by
  intro exc ended
  cases ended

theorem raises_bind {allowed : E → Prop} {routine : Routine S C E α}
    {rest : α → Routine S C E β} (first : routine.Raises allowed)
    (later : ∀ value, (rest value).Raises allowed) : (routine.bind rest).Raises allowed := by
  intro exc ended
  rcases mayEnd_bind.mp ended with ⟨value, _, raised⟩ | ⟨_, raised, same⟩
  · exact later value exc raised
  · cases same
    exact first _ raised

theorem raises_each {allowed : E → Prop} {items : List β} {body : β → Routine S C E Unit}
    (bodies : ∀ item, (body item).Raises allowed) : (each items body).Raises allowed := by
  intro exc ended
  obtain ⟨item, _, raised⟩ := mayEnd_each ended
  exact bodies item exc raised

theorem raises_issue {allowed : E → Prop} {command : C} {answer : S → Except E α}
    (answers : ∀ s exc, answer s = .error exc → allowed exc) :
    (issue command answer).Raises allowed := by
  intro exc ended
  obtain ⟨s, same⟩ := mayEnd_issue.mp ended
  exact answers s exc same

/-! ## Commands issued -/

/-- Every command that the routine can issue satisfies `allowed`. -/
def Issues (allowed : C → Prop) : Routine S C E α → Prop
  | .ret _ => True
  | .raise _ => True
  | .step command next => allowed command ∧ ∀ s, (next s).Issues allowed

theorem issues_bind {allowed : C → Prop} {routine : Routine S C E α}
    {rest : α → Routine S C E β} (first : routine.Issues allowed)
    (later : ∀ value, (rest value).Issues allowed) : (routine.bind rest).Issues allowed := by
  induction routine with
  | ret value => exact later value
  | raise => trivial
  | step command next ih => exact ⟨first.1, fun s => ih s (first.2 s)⟩

@[simp] theorem issues_ofExcept {allowed : C → Prop} (value : Except E α) :
    (ofExcept value : Routine S C E α).Issues allowed := by
  cases value <;> trivial

@[simp] theorem issues_issue {allowed : C → Prop} {command : C} {answer : S → Except E α} :
    (issue command answer).Issues allowed ↔ allowed command := by
  simp [issue, Issues]

theorem issues_each {allowed : C → Prop} {items : List β} {body : β → Routine S C E Unit}
    (bodies : ∀ item ∈ items, (body item).Issues allowed) : (each items body).Issues allowed := by
  induction items with
  | nil => trivial
  | cons item rest ih =>
    exact issues_bind (bodies item List.mem_cons_self)
      (fun _ => ih (fun other member => bodies other (List.mem_cons_of_mem _ member)))

theorem issues_mono {allowed wider : C → Prop} {routine : Routine S C E α}
    (issued : routine.Issues allowed) (weaker : ∀ command, allowed command → wider command) :
    routine.Issues wider := by
  induction routine with
  | ret | raise => trivial
  | step command next ih => exact ⟨weaker _ issued.1, fun s => ih s (issued.2 s)⟩

end Routine
end Cooperative
