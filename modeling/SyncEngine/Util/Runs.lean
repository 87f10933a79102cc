import Mathlib.Data.Option.Basic

/-! Runs of a machine that cannot always take a step, and what holds of every step of a run. Nothing
here fixes the states or the events. -/
namespace SyncEngine.Runs
variable {S E : Type} (step : S → E → Option S)

/-- `none` when one of the events cannot happen. -/
def run (s : S) : List E → Option S
  | [] => some s
  | event :: events => (step s event).bind fun next => run next events

/-- `holds` of the state before each step, the event and the state after it. -/
def Each (holds : S → E → S → Prop) (s : S) : List E → Prop
  | [] => True
  | event :: events => ∀ next ∈ step s event, holds s event next ∧ Each holds next events

instance decidableEach (holds : S → E → S → Prop) [∀ s event next, Decidable (holds s event next)]
    (s : S) : (events : List E) → Decidable (Each step holds s events)
  | [] => isTrue trivial
  | event :: events =>
    have := fun next => decidableEach holds next events
    inferInstanceAs (Decidable (∀ next ∈ step s event, holds s event next ∧ Each step holds next events))

variable {step} {p q : S → E → S → Prop} {s t : S} {event : E} {events : List E}

theorem run_append (first second : List E) :
    run step s (first ++ second) = (run step s first).bind fun next => run step next second := by
  induction first generalizing s with
  | nil => rfl
  | cons event rest ih =>
    simp only [List.cons_append, run, Option.bind_assoc]
    exact congrArg _ (funext fun next => ih)

theorem Each.left (each : Each step p s (first ++ second)) : Each step p s first := by
  induction first generalizing s with
  | nil => trivial
  | cons event rest ih =>
    intro next stepped
    obtain ⟨here, later⟩ := each next stepped
    exact ⟨here, ih later⟩

theorem Each.right (each : Each step p s (first ++ second)) (ran : run step s first = some t) :
    Each step p t second := by
  induction first generalizing s with
  | nil =>
    cases ran
    exact each
  | cons event rest ih =>
    obtain ⟨next, stepped, ran⟩ := Option.bind_eq_some_iff.mp ran
    exact ih (each next stepped).2 ran

theorem Each.append (each : Each step p s first) (ran : run step s first = some t)
    (later : Each step p t second) : Each step p s (first ++ second) := by
  induction first generalizing s with
  | nil =>
    cases ran
    exact later
  | cons event rest ih =>
    obtain ⟨after, stepped, ran⟩ := Option.bind_eq_some_iff.mp ran
    intro next same
    obtain rfl := Option.some.inj (stepped.symm.trans same)
    exact ⟨(each _ stepped).1, ih (each _ stepped).2 ran⟩

theorem Each.here (each : Each step p s (first ++ event :: second)) (ran : run step s first = some t)
    (stepped : step t event = some next) : p t event next :=
  (each.right ran next stepped).1

theorem Each.mono (each : Each step p s events) (weaker : ∀ s event t, p s event t → q s event t) :
    Each step q s events := by
  induction events generalizing s with
  | nil => trivial
  | cons event rest ih =>
    intro next stepped
    obtain ⟨here, later⟩ := each next stepped
    exact ⟨weaker _ _ _ here, ih later⟩

theorem each_and : Each step (fun s event t => p s event t ∧ q s event t) s events ↔
    Each step p s events ∧ Each step q s events := by
  constructor
  · intro both
    exact ⟨both.mono fun _ _ _ h => h.1, both.mono fun _ _ _ h => h.2⟩
  · induction events generalizing s with
    | nil => exact fun _ => trivial
    | cons event rest ih =>
      intro ⟨first, second⟩ next stepped
      have ⟨p_here, p_later⟩ := first next stepped
      have ⟨q_here, q_later⟩ := second next stepped
      exact ⟨⟨p_here, q_here⟩, ih ⟨p_later, q_later⟩⟩

/-- What every one of the events keeps holds at the end. -/
theorem invariant_of_events (inv : S → Prop) (start : inv s)
    (keeps : ∀ event ∈ events, ∀ s t, inv s → step s event = some t → inv t)
    (ran : run step s events = some t) : inv t := by
  induction events generalizing s with
  | nil =>
    cases ran
    exact start
  | cons event rest ih =>
    obtain ⟨next, stepped, ran⟩ := Option.bind_eq_some_iff.mp ran
    have ⟨here, later⟩ := List.forall_mem_cons.mp keeps
    exact ih (here s next start stepped) later ran

/-- What every step with the property `p` keeps holds at the end of a run of such steps. -/
theorem invariant_run (inv : S → Prop) (start : inv s) (each : Each step p s events)
    (keeps : ∀ s event t, inv s → p s event t → step s event = some t → inv t)
    (ran : run step s events = some t) : inv t := by
  induction events generalizing s with
  | nil =>
    cases ran
    exact start
  | cons event rest ih =>
    obtain ⟨next, stepped, ran⟩ := Option.bind_eq_some_iff.mp ran
    obtain ⟨here, later⟩ := each next stepped
    exact ih (keeps s event next start here stepped) later ran

/-- A run whose steps all have the property `p` keeps the invariant, and with it `q` of every step. -/
theorem Each.of_invariant (inv : S → Prop) (start : inv s) (each : Each step p s events)
    (keeps : ∀ s event t, inv s → p s event t → step s event = some t → inv t ∧ q s event t) :
    Each step q s events := by
  induction events generalizing s with
  | nil => trivial
  | cons event rest ih =>
    intro next stepped
    obtain ⟨here, later⟩ := each next stepped
    obtain ⟨kept, holds⟩ := keeps s event next start here stepped
    exact ⟨holds, ih kept later⟩

/-- Two properties of steps that agree wherever the invariant holds, agree along every run, if a step
with one of them keeps the invariant. -/
theorem each_iff_within (inv : S → Prop) (allowed : E → Prop) (start : inv s)
    (events_allowed : ∀ event ∈ events, allowed event)
    (keeps : ∀ s event t, inv s → allowed event → step s event = some t → q s event t → inv t)
    (same : ∀ s event t, inv s → allowed event → step s event = some t → (p s event t ↔ q s event t)) :
    Each step p s events ↔ Each step q s events := by
  induction events generalizing s with
  | nil => exact Iff.rfl
  | cons event rest ih =>
    have ⟨here, later⟩ := List.forall_mem_cons.mp events_allowed
    apply forall_congr'
    intro next
    apply imp_congr_right
    intro stepped
    rw [same s event next start here stepped]
    apply and_congr_right
    intro holds
    exact ih (keeps s event next start here stepped holds) later

/-- Two properties of steps that agree wherever the invariant holds, agree along every run. -/
theorem each_iff (inv : S → Prop) (start : inv s)
    (keeps : ∀ s event t, inv s → step s event = some t → inv t)
    (same : ∀ s event t, inv s → step s event = some t → (p s event t ↔ q s event t)) :
    Each step p s events ↔ Each step q s events :=
  each_iff_within inv (fun _ => True) start (fun _ _ => trivial)
    (fun s event t held _ stepped _ => keeps s event t held stepped)
    fun s event t held _ stepped => same s event t held stepped

/-! ## Events with what came before them -/
section Prefixes
variable {known : List E → E → Prop} {last : E}

theorem prefixes_nil : ∀ before event, before ++ [event] <+: ([] : List E) → known before event :=
  fun _ _ pre => absurd (List.prefix_nil.mp pre) (by simp)

theorem prefixes_init (all : ∀ before event, before ++ [event] <+: events ++ [last] → known before event) :
    ∀ before event, before ++ [event] <+: events → known before event :=
  fun before event pre => all before event (pre.trans (List.prefix_append _ _))

theorem prefixes_append (all : ∀ before event, before ++ [event] <+: events → known before event)
    (next : known events last) :
    ∀ before event, before ++ [event] <+: events ++ [last] → known before event := by
  intro before event pre
  rcases List.prefix_concat_iff.mp pre with same | earlier
  · obtain ⟨rfl, last⟩ := List.append_inj' same rfl
    obtain rfl := List.singleton_inj.mp last
    exact next
  · exact all before event earlier

end Prefixes

end SyncEngine.Runs
