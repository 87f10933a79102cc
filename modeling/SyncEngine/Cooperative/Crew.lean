import Mathlib.Logic.Relation
import SyncEngine.Cooperative.Contract

/-! A main routine with the one helper it may spawn and kill. Between any two steps the
environment moves, and at any moment the whole crew may be lost and started afresh. -/
namespace Cooperative

inductive Signal where
  | none
  | spawn
  | kill

/-- What a crew runs: its commands, the programs that follow one another, and its surroundings. -/
structure Plan (S C E α β : Type) where
  perform : C → S → S
  /-- The commands are looked at only in runs that issue them in these states. -/
  admits : C → S → Prop
  signal : C → Signal
  helper : Routine S C E β
  /-- What the main routine goes on with after it ended. -/
  resume : S → Except E α → S → Routine S C E α → Prop
  /-- The outcomes after which the helper starts over. -/
  again : Except E β → Prop
  env : S → S → Prop
  restart : S → S → Routine S C E α → Prop

structure Crew (S C E α β : Type) where
  shared : S
  main : Routine S C E α
  helper : Option (Routine S C E β)

namespace Crew
variable {S C E α β : Type}

def signalled (plan : Plan S C E α β) (helper : Option (Routine S C E β)) (command : C) :
    Option (Routine S C E β) :=
  match plan.signal command with
  | .none => helper
  | .spawn => some plan.helper
  | .kill => none

inductive Step (plan : Plan S C E α β) : Crew S C E α β → Crew S C E α β → Prop where
  | main (admitted : plan.admits command s) :
      Step plan ⟨s, .step command next, helping⟩
        ⟨plan.perform command s, next s, signalled plan helping command⟩
  | helper (admitted : plan.admits command s) :
      Step plan ⟨s, routine, some (.step command next)⟩
        ⟨plan.perform command s, routine, some (next s)⟩
  | mainEnds (ended : routine.outcome = some result) (resumed : plan.resume s result t next) :
      Step plan ⟨s, routine, helping⟩ ⟨t, next, helping⟩
  | helperAgain (ended : helping.outcome = some result) (again : plan.again result) :
      Step plan ⟨s, routine, some helping⟩ ⟨s, routine, some plan.helper⟩
  | helperEnds (ended : helping.outcome = some result) :
      Step plan ⟨s, routine, some helping⟩ ⟨s, routine, none⟩
  | env (moved : plan.env s t) : Step plan ⟨s, routine, helping⟩ ⟨t, routine, helping⟩
  | restart (restarted : plan.restart s t next) : Step plan ⟨s, routine, helping⟩ ⟨t, next, none⟩

/-- Every command of a routine that runs alone is issued in a state that admits it. -/
def AdmitsAlone (plan : Plan S C E α β) : Routine S C E α → S → Prop
  | .ret _, _ => True
  | .raise _, _ => True
  | .step command next, s =>
    plan.admits command s ∧ AdmitsAlone plan (next s) (plan.perform command s)

instance decidableAdmitsAlone (plan : Plan S C E α β) [∀ command s, Decidable (plan.admits command s)] :
    (routine : Routine S C E α) → (s : S) → Decidable (AdmitsAlone plan routine s)
  | .ret _, _ => isTrue trivial
  | .raise _, _ => isTrue trivial
  | .step command next, s =>
    have := decidableAdmitsAlone plan (next s) (plan.perform command s)
    inferInstanceAs (Decidable (_ ∧ _))

/-- A main routine may run to its end before anything else happens. -/
theorem reach_alone {plan : Plan S C E α β} {routine : Routine S C E α}
    (admitted : AdmitsAlone plan routine s) (helping : Option (Routine S C E β)) :
    ∃ final helper, final.outcome = some (routine.run plan.perform s).1 ∧
      Relation.ReflTransGen (Step plan) ⟨s, routine, helping⟩
        ⟨(routine.run plan.perform s).2, final, helper⟩ := by
  induction routine generalizing s helping with
  | ret value => exact ⟨.ret value, helping, rfl, .refl⟩
  | raise exc => exact ⟨.raise exc, helping, rfl, .refl⟩
  | step command next ih =>
    obtain ⟨final, helper, ended, rest⟩ := ih s admitted.2 (signalled plan helping command)
    exact ⟨final, helper, ended, .head (.main admitted.1) rest⟩

/-! ## Schedules -/

inductive Turn where
  | main
  | helper

/-- One command of the routine whose turn it is, if it has one that is admitted. -/
def take (plan : Plan S C E α β) [∀ command s, Decidable (plan.admits command s)]
    (crew : Crew S C E α β) : Turn → Option (Crew S C E α β)
  | .main =>
    match crew.main with
    | .step command next =>
      if plan.admits command crew.shared then
        some ⟨plan.perform command crew.shared, next crew.shared, signalled plan crew.helper command⟩
      else none
    | _ => none
  | .helper =>
    match crew.helper with
    | some (.step command next) =>
      if plan.admits command crew.shared then
        some ⟨plan.perform command crew.shared, crew.main, some (next crew.shared)⟩
      else none
    | _ => none

def follow (plan : Plan S C E α β) [∀ command s, Decidable (plan.admits command s)] :
    List Turn → Crew S C E α β → Option (Crew S C E α β)
  | [], crew => some crew
  | turn :: rest, crew => (take plan crew turn).bind (follow plan rest)

theorem take_step {plan : Plan S C E α β} [∀ command s, Decidable (plan.admits command s)]
    {crew next : Crew S C E α β} (taken : take plan crew turn = some next) : Step plan crew next := by
  obtain ⟨s, routine, helping⟩ := crew
  cases turn with
  | main =>
    simp only [take] at taken
    split at taken
    · split at taken
      · cases taken
        exact .main ‹_›
      · cases taken
    · cases taken
  | helper =>
    simp only [take] at taken
    split at taken
    · split at taken
      · cases taken
        exact .helper ‹_›
      · cases taken
    · cases taken

/-- A schedule can be followed, if each command in it is admitted. -/
theorem follow_reach {plan : Plan S C E α β} [∀ command s, Decidable (plan.admits command s)]
    {turns : List Turn} {crew later : Crew S C E α β} (followed : follow plan turns crew = some later) :
    Relation.ReflTransGen (Step plan) crew later := by
  induction turns generalizing crew with
  | nil =>
    cases followed
    exact .refl
  | cons turn rest ih =>
    obtain ⟨next, taken, later⟩ := Option.bind_eq_some_iff.mp followed
    exact .head (take_step taken) (ih later)

/-- The contracts of both routines and how they fit each other, the environment and a restart. -/
structure Protocol (plan : Plan S C E α β) where
  main : Contract plan.perform
  helper : Contract plan.perform
  mainEnd : Except E α → S → Prop
  helperEnd : Except E β → S → Prop
  same_inv : ∀ s, helper.inv s ↔ main.inv s
  admits_main : ∀ {command s}, plan.admits command s → main.admits command s
  admits_helper : ∀ {command s}, plan.admits command s → helper.admits command s
  main_to_helper : ∀ {command s}, plan.signal command = .none → main.inv s →
    main.guar command s → helper.rely s (plan.perform command s)
  helper_to_main : ∀ {command s}, main.inv s →
    helper.guar command s → main.rely s (plan.perform command s)
  env_moves : ∀ {s t}, main.inv s → plan.env s t →
    main.inv t ∧ main.rely s t ∧ helper.rely s t
  spawned : ∀ {command s}, plan.signal command = .spawn → main.inv s → main.guar command s →
    helper.wp (fun value => helperEnd (.ok value)) (fun exc => helperEnd (.error exc))
      plan.helper (plan.perform command s)
  again : ∀ {result s}, main.inv s → plan.again result → helperEnd result s →
    helper.wp (fun value => helperEnd (.ok value)) (fun exc => helperEnd (.error exc))
      plan.helper s
  resumed : ∀ {s result t next}, main.inv s → mainEnd result s → plan.resume s result t next →
    main.inv t ∧ helper.rely s t ∧
      main.wp (fun value => mainEnd (.ok value)) (fun exc => mainEnd (.error exc)) next t
  restarted : ∀ {s t next}, main.inv s → plan.restart s t next →
    main.inv t ∧ main.wp (fun value => mainEnd (.ok value)) (fun exc => mainEnd (.error exc)) next t

namespace Protocol
variable {plan : Plan S C E α β} (P : Protocol plan)

def Runs (crew : Crew S C E α β) : Prop :=
  P.main.inv crew.shared ∧
    P.main.wp (fun value => P.mainEnd (.ok value)) (fun exc => P.mainEnd (.error exc))
      crew.main crew.shared ∧
    ∀ routine ∈ crew.helper, P.helper.wp (fun value => P.helperEnd (.ok value))
      (fun exc => P.helperEnd (.error exc)) routine crew.shared

theorem ends {K : Contract plan.perform} {final : Except E γ → S → Prop}
    {routine : Routine S C E γ} (good : K.inv s)
    (holds : K.wp (fun value => final (.ok value)) (fun exc => final (.error exc)) routine s)
    (ended : routine.outcome = some result) : final result s := by
  cases routine with
  | ret | raise =>
    cases ended
    exact holds s (K.rely_refl s) good
  | step => cases ended

theorem step_runs {crew next : Crew S C E α β} (runs : P.Runs crew)
    (stepped : Step plan crew next) : P.Runs next := by
  obtain ⟨good, mains, helpers⟩ := runs
  cases stepped with
  | @main command s next helping admitted =>
    obtain ⟨kept, promised, rest⟩ :=
      mains _ (P.main.rely_refl _) good (P.admits_main admitted)
    refine ⟨kept, rest, fun routine member => ?_⟩
    cases signal : plan.signal command with
    | none =>
      simp only [signalled, signal] at member
      exact Contract.wp_rely (helpers routine member) (P.main_to_helper signal good promised)
    | spawn =>
      simp only [signalled, signal, Option.mem_def, Option.some.injEq] at member
      subst member
      exact P.spawned signal good promised
    | kill => simp [signalled, signal] at member
  | helper admitted =>
    obtain ⟨kept, promised, rest⟩ := helpers _ rfl _ (P.helper.rely_refl _)
      ((P.same_inv _).mpr good) (P.admits_helper admitted)
    refine ⟨(P.same_inv _).mp kept, Contract.wp_rely mains (P.helper_to_main good promised), ?_⟩
    rintro routine ⟨⟩
    exact rest
  | mainEnds ended resumed =>
    obtain ⟨kept, moved, rest⟩ := P.resumed good (ends good mains ended) resumed
    exact ⟨kept, rest, fun routine member => Contract.wp_rely (helpers routine member) moved⟩
  | helperAgain ended again =>
    refine ⟨good, mains, ?_⟩
    rintro routine ⟨⟩
    exact P.again good again (ends ((P.same_inv _).mpr good) (helpers _ rfl) ended)
  | helperEnds => exact ⟨good, mains, by simp⟩
  | env moved =>
    obtain ⟨kept, mainMoved, helperMoved⟩ := P.env_moves good moved
    exact ⟨kept, Contract.wp_rely mains mainMoved,
      fun routine member => Contract.wp_rely (helpers routine member) helperMoved⟩
  | restart restarted =>
    obtain ⟨kept, rest⟩ := P.restarted good restarted
    exact ⟨kept, rest, by simp⟩

/-- The invariant of the protocol holds in every state that a run of the crew reaches. -/
theorem reach_runs {crew later : Crew S C E α β} (runs : P.Runs crew)
    (reached : Relation.ReflTransGen (Step plan) crew later) : P.Runs later := by
  induction reached with
  | refl => exact runs
  | tail _ stepped ih => exact P.step_runs ih stepped

end Protocol
end Crew
end Cooperative
