import SyncEngine.Cooperative.Routine

/-! Rely and guarantee for cooperative routines. Between two steps of a routine the state moves
as `rely` allows; each step it takes keeps `inv` and is one that `guar` promises to the others. -/
namespace Cooperative

structure Contract (perform : C → S → S) where
  inv : S → Prop
  /-- The commands that the run is assumed to issue only in these states. -/
  admits : C → S → Prop
  rely : S → S → Prop
  guar : C → S → Prop
  rely_refl : ∀ s, rely s s
  rely_trans : ∀ {s t u}, rely s t → rely t u → rely s u

namespace Contract
variable {S C E α β : Type} {perform : C → S → S}

/-- Whatever the others do meanwhile, the routine keeps the contract and ends in `post` or,
with an exception, in `fails`. -/
def wp (K : Contract perform) (post : α → S → Prop) (fails : E → S → Prop) :
    Routine S C E α → S → Prop
  | .ret value, s => ∀ t, K.rely s t → K.inv t → post value t
  | .raise exc, s => ∀ t, K.rely s t → K.inv t → fails exc t
  | .step command next, s => ∀ t, K.rely s t → K.inv t → K.admits command t →
      K.inv (perform command t) ∧ K.guar command t ∧ wp K post fails (next t) (perform command t)

/-- No step of the others makes it false. -/
def Stable (K : Contract perform) (P : S → Prop) : Prop :=
  ∀ s t, P s → K.rely s t → K.inv t → P t

def Spec (K : Contract perform) (pre : S → Prop) (routine : Routine S C E α)
    (post : α → S → Prop) (fails : E → S → Prop) : Prop :=
  ∀ s, K.inv s → pre s → K.wp post fails routine s

variable {K : Contract perform} {pre : S → Prop} {post : α → S → Prop} {fails : E → S → Prop}
  {s t : S}

theorem wp_rely {routine : Routine S C E α} (holds : K.wp post fails routine s)
    (moved : K.rely s t) : K.wp post fails routine t := by
  cases routine with
  | ret | raise | step => exact fun u later => holds u (K.rely_trans moved later)

theorem wp_mono {post' : α → S → Prop} {fails' : E → S → Prop} {routine : Routine S C E α}
    (holds : K.wp post fails routine s) (posts : ∀ value t, K.inv t → post value t → post' value t)
    (raises : ∀ exc t, K.inv t → fails exc t → fails' exc t) :
    K.wp post' fails' routine s := by
  induction routine generalizing s with
  | ret => exact fun t moved good => posts _ t good (holds t moved good)
  | raise => exact fun t moved good => raises _ t good (holds t moved good)
  | step command next ih =>
    intro t moved good admitted
    obtain ⟨kept, promised, rest⟩ := holds t moved good admitted
    exact ⟨kept, promised, ih t rest⟩

/-- The others may move before the routine begins. -/
theorem wp_start {routine : Routine S C E α}
    (holds : ∀ t, K.rely s t → K.inv t → K.wp post fails routine t) :
    K.wp post fails routine s := by
  cases routine with
  | ret | raise | step => exact fun t moved good => holds t moved good t (K.rely_refl t) good

/-- What holds at the end still holds after the others have moved again. -/
theorem wp_end {routine : Routine S C E α} (holds : K.wp post fails routine s) :
    K.wp (fun value t => ∀ u, K.rely t u → K.inv u → post value u)
      (fun exc t => ∀ u, K.rely t u → K.inv u → fails exc u) routine s := by
  induction routine generalizing s with
  | ret | raise => exact fun t moved _ u later good => holds u (K.rely_trans moved later) good
  | step command next ih =>
    intro t moved good admitted
    obtain ⟨kept, promised, rest⟩ := holds t moved good admitted
    exact ⟨kept, promised, ih t rest⟩

theorem wp_bind {routine : Routine S C E α} {rest : α → Routine S C E β} {post : β → S → Prop}
    (first : K.wp (fun value t => K.wp post fails (rest value) t) fails routine s) :
    K.wp post fails (routine.bind rest) s := by
  induction routine generalizing s with
  | ret => exact wp_start first
  | raise => exact first
  | step command next ih =>
    intro t moved good admitted
    obtain ⟨kept, promised, later⟩ := first t moved good admitted
    exact ⟨kept, promised, ih t later⟩

theorem stable_true : K.Stable fun _ => True := fun _ _ _ _ _ => trivial

theorem stable_and {P Q : S → Prop} (first : K.Stable P) (second : K.Stable Q) :
    K.Stable fun t => P t ∧ Q t := by
  rintro s t ⟨held, other⟩ moved good
  exact ⟨first s t held moved good, second s t other moved good⟩

theorem spec_ret {value : α} (stable : K.Stable pre) (done : ∀ s, K.inv s → pre s → post value s) :
    K.Spec pre (Routine.ret value : Routine S C E α) post fails :=
  fun _ _ ready t moved good => done t good (stable _ t ready moved good)

theorem spec_raise {exc : E} (stable : K.Stable pre)
    (raised : ∀ s, K.inv s → pre s → fails exc s) :
    K.Spec pre (Routine.raise exc : Routine S C E α) post fails :=
  fun _ _ ready t moved good => raised t good (stable _ t ready moved good)

theorem spec_step {command : C} {next : S → Routine S C E α} (stable : K.Stable pre)
    (steps : ∀ t, K.inv t → pre t → K.admits command t → K.inv (perform command t) ∧
      K.guar command t ∧ K.wp post fails (next t) (perform command t)) :
    K.Spec pre (.step command next) post fails :=
  fun _ _ ready t moved good admitted => steps t good (stable _ t ready moved good) admitted

/-- One command: what it leaves behind in each of its two answers, if the others keep that. -/
theorem spec_issue {command : C} {answer : S → Except E α} (stable : K.Stable pre)
    (posts : ∀ value, K.Stable (post value)) (raises : ∀ exc, K.Stable (fails exc))
    (steps : ∀ t, K.inv t → pre t → K.admits command t →
      K.inv (perform command t) ∧ K.guar command t ∧ match answer t with
        | .ok value => post value (perform command t)
        | .error exc => fails exc (perform command t)) :
    K.Spec pre (Routine.issue command answer) post fails := by
  refine spec_step stable fun t good ready admitted => ?_
  obtain ⟨kept, promised, left⟩ := steps t good ready admitted
  refine ⟨kept, promised, ?_⟩
  cases result : answer t with
  | ok value => exact fun u moved held => posts value _ u (by simpa only [result] using left) moved held
  | error exc => exact fun u moved held => raises exc _ u (by simpa only [result] using left) moved held

theorem spec_bind {routine : Routine S C E α} {rest : α → Routine S C E β}
    {post : β → S → Prop} {between : α → S → Prop} (first : K.Spec pre routine between fails)
    (later : ∀ value, K.Spec (between value) (rest value) post fails) :
    K.Spec pre (routine.bind rest) post fails := fun s good ready =>
  wp_bind (wp_mono (first s good ready) (fun value t held here => later value t held here)
    (fun _ _ _ raised => raised))

theorem spec_mono {pre' : S → Prop} {post' : α → S → Prop} {fails' : E → S → Prop}
    {routine : Routine S C E α} (holds : K.Spec pre routine post fails)
    (before : ∀ s, K.inv s → pre' s → pre s)
    (posts : ∀ value s, K.inv s → post value s → post' value s)
    (raises : ∀ exc s, K.inv s → fails exc s → fails' exc s) :
    K.Spec pre' routine post' fails' :=
  fun s good ready => wp_mono (holds s good (before s good ready)) posts raises

/-- Only exceptions that the routine may raise have to be thought of. -/
theorem spec_raises {allowed : E → Prop} {routine : Routine S C E α}
    (holds : K.Spec pre routine post fails) (raises : routine.Raises allowed) :
    K.Spec pre routine post (fun exc t => allowed exc ∧ fails exc t) := by
  intro s good ready
  have here := holds s good ready
  clear ready good holds
  induction routine generalizing s with
  | ret => exact here
  | raise exc => exact fun t moved good => ⟨raises exc rfl, here t moved good⟩
  | step command next ih =>
    intro t moved good admitted
    obtain ⟨kept, promised, rest⟩ := here t moved good admitted
    exact ⟨kept, promised, ih t (fun exc ended => raises exc ⟨t, ended⟩) _ rest⟩

/-- A loop over a list, by an assertion about the items still to come. -/
theorem spec_each {items : List β} {body : β → Routine S C E Unit} (coming : List β → S → Prop)
    (stable : K.Stable (coming []))
    (bodies : ∀ item rest, K.Spec (coming (item :: rest)) (body item) (fun _ => coming rest) fails) :
    K.Spec (coming items) (Routine.each items body) (fun _ => coming []) fails := by
  induction items with
  | nil => exact spec_ret stable (fun _ _ ready => ready)
  | cons item rest ih => exact spec_bind (bodies item rest) (fun _ => ih)

theorem spec_ensure {routine : Routine S C E α} {last : Routine S C E Unit}
    {post' : α → S → Prop} {fails' : E → S → Prop} (body : K.Spec pre routine post fails)
    (returned : ∀ value, K.Spec (post value) last (fun _ => post' value) fails')
    (raised : ∀ exc, K.Spec (fails exc) last (fun _ => fails' exc) fails') :
    K.Spec pre (routine.ensure last) post' fails' := by
  intro s good ready
  have first := body s good ready
  clear ready body good
  induction routine generalizing s with
  | ret value =>
    refine wp_start fun t moved good => wp_bind ?_
    exact wp_mono (wp_end (returned value t good (first t moved good)))
      (fun _ _ _ done => done) (fun _ u here failed => failed u (K.rely_refl u) here)
  | raise exc =>
    refine wp_start fun t moved good => wp_bind ?_
    exact wp_mono (wp_end (raised exc t good (first t moved good)))
      (fun _ _ _ done => done) (fun _ u here failed => failed u (K.rely_refl u) here)
  | step command next ih =>
    intro t moved good admitted
    obtain ⟨kept, promised, rest⟩ := first t moved good admitted
    exact ⟨kept, promised, ih _ _ rest⟩

/-- A routine all of whose commands keep an assertion keeps it. -/
theorem spec_issues {allowed : C → Prop} {routine : Routine S C E α} (stable : K.Stable pre)
    (issued : routine.Issues allowed)
    (keeps : ∀ command t, allowed command → K.inv t → pre t → K.admits command t →
      K.inv (perform command t) ∧ K.guar command t ∧ pre (perform command t)) :
    K.Spec pre routine (fun _ => pre) (fun _ => pre) := by
  intro s good ready
  induction routine generalizing s with
  | ret | raise => exact fun t moved here => stable s t ready moved here
  | step command next ih =>
    intro t moved here admitted
    obtain ⟨kept, promised, held⟩ :=
      keeps command t issued.1 here (stable s t ready moved here) admitted
    exact ⟨kept, promised, ih t (issued.2 t) _ kept held⟩

/-- What no command touches holds beside what the routine does. -/
theorem spec_frame {routine : Routine S C E α} {F : S → Prop} (stable : K.Stable F)
    (keeps : ∀ command t, F t → F (perform command t)) (holds : K.Spec pre routine post fails) :
    K.Spec (fun s => pre s ∧ F s) routine (fun value s => post value s ∧ F s) fails := by
  rintro s good ⟨ready, framed⟩
  have here := holds s good ready
  clear ready good holds
  induction routine generalizing s with
  | ret => exact fun t moved good => ⟨here t moved good, stable s t framed moved good⟩
  | raise => exact here
  | step command next ih =>
    intro t moved good admitted
    obtain ⟨kept, promised, rest⟩ := here t moved good admitted
    exact ⟨kept, promised, ih t _ (keeps command t (stable s t framed moved good)) rest⟩

/-- Past a point of no return nothing is asked of a routine. -/
theorem wp_unless {K L : Contract perform} {gone : S → Prop} {routine : Routine S C E α}
    (moves : ∀ s t, gone s → L.rely s t → gone t) (steps : ∀ command s, gone s → gone (perform command s))
    (invs : ∀ s, L.inv s ↔ gone s ∨ K.inv s) (relies : ∀ s t, K.inv s → L.rely s t → gone t ∨ K.rely s t)
    (admits : ∀ command s, L.admits command s → K.admits command s)
    (promises : ∀ command s, gone s ∨ K.guar command s → L.guar command s)
    (holds : gone s ∨ K.inv s ∧ K.wp post fails routine s) :
    L.wp (fun value t => gone t ∨ post value t) (fun exc t => gone t ∨ fails exc t) routine s := by
  induction routine generalizing s with
  | ret | raise =>
    intro t moved good
    rcases holds with past | ⟨held, done⟩
    · exact .inl (moves s t past moved)
    · rcases (invs t).mp good with past | here
      · exact .inl past
      · exact (relies s t held moved).imp_right fun relied => done t relied here
  | step command next ih =>
    intro t moved good admitted
    have either : gone t ∨ K.inv t ∧ K.wp post fails (.step command next) t := by
      rcases holds with past | ⟨held, done⟩
      · exact .inl (moves s t past moved)
      · rcases (invs t).mp good with past | here
        · exact .inl past
        · exact (relies s t held moved).imp_right fun relied => ⟨here, wp_rely done relied⟩
    rcases either with past | ⟨here, done⟩
    · have later := steps command t past
      exact ⟨(invs _).mpr (.inl later), promises _ _ (.inl past), ih t (.inl later)⟩
    · obtain ⟨kept, promised, rest⟩ := done t (K.rely_refl t) here (admits command t admitted)
      exact ⟨(invs _).mpr (.inr kept), promises _ _ (.inr promised), ih t (.inr ⟨kept, rest⟩)⟩

/-! ## Running alone -/

/-- Nothing that the contract admits is left out of the run. -/
theorem wp_steps {routine : Routine S C E α} (holds : K.wp post fails routine s) (good : K.inv s)
    (admitted : ∀ command t, K.admits command t) :
    ∀ step ∈ routine.steps perform s, K.inv step.2 := by
  induction routine generalizing s with
  | ret | raise =>
    intro step member
    cases member
  | step command next ih =>
    obtain ⟨kept, _, rest⟩ := holds s (K.rely_refl s) good (admitted command s)
    intro step member
    rcases List.mem_cons.mp member with rfl | later
    · exact kept
    · exact ih s rest kept step later

theorem wp_run {routine : Routine S C E α} (holds : K.wp post fails routine s) (good : K.inv s)
    (admitted : ∀ command t, K.admits command t) (ended : routine.run perform s = (.ok value, t)) :
    K.inv t ∧ post value t := by
  induction routine generalizing s with
  | ret =>
    cases ended
    exact ⟨good, holds _ (K.rely_refl _) good⟩
  | raise => cases ended
  | step command next ih =>
    obtain ⟨kept, _, rest⟩ := holds s (K.rely_refl s) good (admitted command s)
    exact ih s rest kept ended

end Contract

/-! ## Running among others -/

/-- A run in which the others move the state after each of its commands. -/
inductive Amid {S C E α : Type} (perform : C → S → S) (others : S → S → Prop) :
    Routine S C E α → S → Except E α → S → Prop where
  | ret : Amid perform others (.ret value) s (.ok value) s
  | raise : Amid perform others (.raise exc) s (.error exc) s
  | step (moved : others (perform command s) t)
      (rest : Amid perform others (next s) t result u) :
      Amid perform others (.step command next) s result u

section Amid
variable {S C E α β : Type} {perform : C → S → S} {others : S → S → Prop} {s t u : S}

theorem amid_run (still : ∀ s, others s s) {routine : Routine S C E α}
    (ended : routine.run perform s = (result, t)) : Amid perform others routine s result t := by
  induction routine generalizing s with
  | ret =>
    cases ended
    exact .ret
  | raise =>
    cases ended
    exact .raise
  | step command next ih => exact .step (still _) (ih s ended)

theorem amid_bind {routine : Routine S C E α} {rest : α → Routine S C E β}
    (ended : Amid perform others (routine.bind rest) s (.ok result) u) :
    ∃ value t, Amid perform others routine s (.ok value) t ∧
      Amid perform others (rest value) t (.ok result) u := by
  induction routine generalizing s with
  | ret value => exact ⟨value, s, .ret, ended⟩
  | raise => cases ended
  | step command next ih =>
    cases ended with
    | step moved later =>
      obtain ⟨value, t, first, second⟩ := ih s later
      exact ⟨value, t, .step moved first, second⟩

theorem amid_issue {command : C} {answer : S → Except E α}
    (ended : Amid perform others (Routine.issue command answer) s (.ok value) t) :
    answer s = .ok value ∧ others (perform command s) t := by
  cases ended with
  | step moved later =>
    cases reply : answer s with
    | ok =>
      simp only [reply] at later
      cases later
      exact ⟨rfl, moved⟩
    | error =>
      simp only [reply] at later
      cases later

/-- What is shown of a routine holds of its runs among others that the contract allows for. -/
theorem Contract.wp_outcome {K : Contract perform} {post : α → S → Prop} {fails : E → S → Prop}
    {routine : Routine S C E α} (holds : K.wp post fails routine s) (good : K.inv s)
    (admitted : ∀ command t, K.admits command t)
    (allowed : ∀ s t, K.inv s → others s t → K.rely s t ∧ K.inv t)
    (ended : Amid perform others routine s result t) :
    K.inv t ∧ (∀ value, result = .ok value → post value t) ∧ ∀ exc, result = .error exc → fails exc t := by
  induction routine generalizing s with
  | ret =>
    cases ended
    exact ⟨good, fun _ same => Except.ok.inj same ▸ holds _ (K.rely_refl _) good, nofun⟩
  | raise =>
    cases ended
    exact ⟨good, nofun, fun _ same => Except.error.inj same ▸ holds _ (K.rely_refl _) good⟩
  | step command next ih =>
    cases ended with
    | step moved later =>
      obtain ⟨kept, _, rest⟩ := holds s (K.rely_refl s) good (admitted command s)
      obtain ⟨relied, here⟩ := allowed _ _ kept moved
      exact ih s (wp_rely rest relied) here later

theorem Contract.wp_amid {K : Contract perform} {post : α → S → Prop} {fails : E → S → Prop}
    {routine : Routine S C E α} (holds : K.wp post fails routine s) (good : K.inv s)
    (admitted : ∀ command t, K.admits command t)
    (allowed : ∀ s t, K.inv s → others s t → K.rely s t ∧ K.inv t)
    (ended : Amid perform others routine s (.ok value) t) : K.inv t ∧ post value t := by
  obtain ⟨here, returned, _⟩ := wp_outcome holds good admitted allowed ended
  exact ⟨here, returned value rfl⟩

end Amid

end Cooperative
