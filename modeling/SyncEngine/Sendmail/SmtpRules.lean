import SyncEngine.Sendmail.Postel

/-! What the steps of sending ensure: the answers that they use, the errors that they raise and what
they add to the trace. -/
namespace SyncEngine
namespace Smtp
open Raising

/-- Answers that make an error which neither the retries nor the handlers know. -/
def Answer.Breaks : Answer → Prop
  | .broken _ | .tokenError _ => True
  | _ => False

def Exc.Escapes : Exc → Prop
  | .socket _ | .token _ => True
  | _ => False

def Session.Clean (session : Session) : Prop := ∀ answer ∈ session.heard, ¬ answer.Breaks

/-- `adds` relates the outcome to what it has added to the trace. -/
structure Orderly (allowed : Exc → Prop) (adds : Except Exc A → List Event → Prop) (start : Session)
    (outcome : Except Exc A) (later : Session) : Prop where
  script : later.heard ++ later.script = start.heard ++ start.script
  clean : start.Clean → (later.Clean ↔ ∀ e, outcome = .error e → ¬ e.Escapes)
  raises : ∀ e, outcome = .error e → allowed e
  trace : ∃ added, later.trace = start.trace ++ added ∧ adds outcome added

abbrev Quiet (allowed : Exc → Prop) (start : Session) (outcome : Except Exc A) (later : Session) : Prop :=
  Orderly allowed (fun _ added => added = []) start outcome later

section Rules
variable {A B : Type} {allowed inner : Exc → Prop} {p : Prog A} {f : A → Prog B} {handler : Exc → Prog A}
  {adds : Except Exc A → List Event → Prop} {s : Session}

theorem orderly_pure (a : A) (nothing : adds (.ok a) []) : (pure a : Prog A).Ensures s (Orderly allowed adds s) :=
  .pure ⟨rfl, fun clean => ⟨nofun, fun _ => clean⟩, nofun, [], by simp, nothing⟩

theorem orderly_throw (e : Exc) (quiet : ¬ e.Escapes) (known : allowed e) (nothing : adds (.error e) []) :
    (throw e : Prog A).Ensures s (Orderly allowed adds s) := by
  refine .throw ⟨rfl, fun clean => ⟨?_, fun _ => clean⟩, ?_, [], by simp, nothing⟩
  · rintro _ _ ⟨⟩
    exact quiet
  · rintro _ ⟨⟩
    exact known

/-- What comes after an outcome that does not escape. -/
theorem Orderly.join {first : Except Exc A → List Event → Prop} {second adds : Except Exc B → List Event → Prop}
    {outcome : Except Exc A} {final : Except Exc B} {between later : Session}
    (held : Orderly inner first s outcome between) (unescaped : ∀ e, outcome = .error e → ¬ e.Escapes)
    (next : Orderly allowed second between final later)
    (joins : ∀ x y, first outcome x → second final y → adds final (x ++ y)) :
    Orderly allowed adds s final later := by
  obtain ⟨x, before, early⟩ := held.trace
  obtain ⟨y, after, late⟩ := next.trace
  refine ⟨next.script.trans held.script, ?_, next.raises, x ++ y, ?_, joins x y early late⟩
  · exact fun clean => next.clean ((held.clean clean).mpr unescaped)
  · rw [after, before, List.append_assoc]

/-- An error that is passed on. -/
theorem Orderly.raise {first : Except Exc A → List Event → Prop} {adds : Except Exc B → List Event → Prop}
    {e : Exc} {later : Session} (held : Orderly inner first s (.error e) later) (known : allowed e)
    (passes : ∀ x, first (.error e) x → adds (.error e) x) : Orderly allowed adds s (.error e) later := by
  obtain ⟨x, before, early⟩ := held.trace
  refine ⟨held.script, fun clean => (held.clean clean).trans ?_, ?_, x, before, passes x early⟩
  · constructor <;> exact fun unescaped _ same => unescaped _ (by cases same; rfl)
  · rintro _ ⟨⟩
    exact known

theorem orderly_bind {first : Except Exc A → List Event → Prop} {adds : Except Exc B → List Event → Prop}
    (head : p.Ensures s (Orderly allowed first s)) (second : A → Except Exc B → List Event → Prop)
    (rest : ∀ a later, (f a).Ensures later (Orderly allowed (second a) later))
    (joins : ∀ a outcome x y, first (.ok a) x → second a outcome y → adds outcome (x ++ y))
    (stops : ∀ e x, first (.error e) x → adds (.error e) x) :
    (p >>= f).Ensures s (Orderly allowed adds s) := by
  refine head.bind (fun a between held outcome later ran => ?_) fun e later held => ?_
  · exact held.join nofun (rest a between outcome later ran) (joins a outcome)
  · exact held.raise (held.raises e rfl) (stops e)

/-- Errors that escape pass through the handler. -/
theorem orderly_catch {first : Except Exc A → List Event → Prop}
    (head : p.Ensures s (Orderly inner first s)) (second : Exc → Except Exc A → List Event → Prop)
    (rest : ∀ e later, inner e → ¬ e.Escapes → (handler e).Ensures later (Orderly allowed (second e) later))
    (escapes : ∀ e, inner e → e.Escapes → handler e = throw e ∧ allowed e)
    (returns : ∀ a x, first (.ok a) x → adds (.ok a) x)
    (joins : ∀ e outcome x y, first (.error e) x → second e outcome y → adds outcome (x ++ y))
    (passes : ∀ e x, first (.error e) x → e.Escapes → adds (.error e) x) :
    (tryCatch p handler).Ensures s (Orderly allowed adds s) := by
  refine head.tryCatch (fun a later held => ?_) fun e between held outcome later ran => ?_
  · obtain ⟨x, before, early⟩ := held.trace
    exact ⟨held.script, held.clean, nofun, x, before, returns a x early⟩
  · by_cases escaped : e.Escapes
    · obtain ⟨rethrown, known⟩ := escapes e (held.raises e rfl) escaped
      rw [rethrown] at ran
      cases ran
      exact held.raise known fun x early => passes e x early escaped
    · refine held.join ?_ (rest e between (held.raises e rfl) escaped outcome later ran) (joins e outcome)
      rintro _ ⟨⟩
      exact escaped

/-- What is done with the outcome of a step as a value. Errors that escape are raised again at once. -/
theorem orderly_attempt {f : Except Exc A → Prog B} {first : Except Exc A → List Event → Prop}
    {adds : Except Exc B → List Event → Prop} (head : p.Ensures s (Orderly inner first s))
    (second : Except Exc A → Except Exc B → List Event → Prop)
    (rest : ∀ outcome later, (∀ e, outcome = .error e → inner e ∧ ¬ e.Escapes) →
      (f outcome).Ensures later (Orderly allowed (second outcome) later))
    (escapes : ∀ e, inner e → e.Escapes → f (.error e) = throw e ∧ allowed e)
    (joins : ∀ outcome final x y, first outcome x → second outcome final y → adds final (x ++ y))
    (passes : ∀ e x, first (.error e) x → e.Escapes → adds (.error e) x) :
    (p.attempt >>= f).Ensures s (Orderly allowed adds s) := by
  have attempted : p.attempt.Ensures s fun result later => ∃ outcome, result = .ok outcome ∧
      Orderly inner first s outcome later :=
    head.attempt fun outcome later held => ⟨outcome, rfl, held⟩
  refine attempted.bind ?_ ?_
  · rintro outcome between ⟨_, ⟨⟩, held⟩ final later ran
    by_cases escaped : ∃ e, outcome = .error e ∧ e.Escapes
    · obtain ⟨e, rfl, escaped⟩ := escaped
      obtain ⟨rethrown, known⟩ := escapes e (held.raises e rfl) escaped
      rw [rethrown] at ran
      cases ran
      exact held.raise known fun x early => passes e x early escaped
    · have unescaped : ∀ e, outcome = .error e → ¬ e.Escapes := fun e same escapes => escaped ⟨e, same, escapes⟩
      have next := rest outcome between (fun e same => ⟨held.raises e same, unescaped e same⟩) final later ran
      exact held.join unescaped next (joins outcome final)
  · rintro e later ⟨_, ⟨⟩, _⟩

theorem quiet_bind (head : p.Ensures s (Quiet allowed s))
    (rest : ∀ a later, (f a).Ensures later (Quiet allowed later)) : (p >>= f).Ensures s (Quiet allowed s) :=
  orderly_bind head _ rest (by rintro _ _ _ _ rfl rfl; rfl) (fun _ _ same => same)

theorem quiet_catch (inner : Exc → Prop) (head : p.Ensures s (Quiet inner s))
    (rest : ∀ e later, inner e → ¬ e.Escapes → (handler e).Ensures later (Quiet allowed later))
    (escapes : ∀ e, inner e → e.Escapes → handler e = throw e ∧ allowed e) :
    (tryCatch p handler).Ensures s (Quiet allowed s) :=
  orderly_catch head _ rest escapes (fun _ _ same => same) (by rintro _ _ _ _ rfl rfl; rfl)
    (fun _ _ same _ => same)

theorem quiet_pure (a : A) : (pure a : Prog A).Ensures s (Quiet allowed s) := orderly_pure a rfl

theorem quiet_throw (e : Exc) (quiet : ¬ e.Escapes) (known : allowed e) :
    (throw e : Prog A).Ensures s (Quiet allowed s) := orderly_throw e quiet known rfl

/-- A step without an error that it may raise. -/
theorem orderly_unfailing (never : p.Ensures s (Quiet (fun _ => False) s)) :
    p.Ensures s (Orderly allowed (fun outcome added => (∃ a, outcome = .ok a) ∧ added = []) s) := by
  refine Ensures.mono never fun outcome later held => ?_
  obtain ⟨added, trace, none⟩ := held.trace
  refine ⟨held.script, held.clean, fun e same => (held.raises e same).elim, added, trace, ?_, none⟩
  cases outcome with
  | ok a => exact ⟨a, rfl⟩
  | error e => exact (held.raises e rfl).elim

theorem quiet_get : (get : Prog Session).Ensures s (Quiet allowed s) :=
  .get ⟨rfl, fun clean => ⟨nofun, fun _ => clean⟩, nofun, [], by simp, rfl⟩

/-- A change of the connection object alone. -/
theorem quiet_modify (change : Session → Session) (heard : (change s).heard = s.heard)
    (script : (change s).script = s.script) (trace : (change s).trace = s.trace) :
    (modify change : Prog PUnit).Ensures s (Quiet allowed s) := by
  refine .modify ⟨by rw [heard, script], fun clean => ⟨nofun, fun _ => ?_⟩, nofun, [], by simp [trace], rfl⟩
  rw [Session.Clean, heard]
  exact clean

theorem orderly_modify {f : PUnit → Prog A} (change : Session → Session)
    (heard : (change s).heard = s.heard) (script : (change s).script = s.script)
    (trace : (change s).trace = s.trace)
    (rest : (f ⟨⟩).Ensures (change s) (Orderly allowed adds (change s))) :
    (modify change >>= f : Prog A).Ensures s (Orderly allowed adds s) := by
  intro outcome later ran
  rw [exec_bind, exec_modify] at ran
  have held := rest outcome later ran
  have clean := held.clean
  rw [Session.Clean, heard] at clean
  obtain ⟨added, after, adds⟩ := held.trace
  exact ⟨by rw [held.script, heard, script], clean, held.raises, added, by rw [after, trace], adds⟩

theorem orderly_record {f : PUnit → Prog A} {event : Event}
    (rest : (f ⟨⟩).Ensures (s.record event) (Orderly allowed adds (s.record event))) :
    (record event >>= f : Prog A).Ensures s
      (Orderly allowed (fun outcome added => ∃ tail, added = event :: tail ∧ adds outcome tail) s) := by
  intro outcome later ran
  rw [record, exec_bind, exec_modify] at ran
  have held := rest outcome later ran
  obtain ⟨added, after, adds⟩ := held.trace
  refine ⟨held.script, held.clean, held.raises, event :: added, ?_, added, rfl, adds⟩
  rw [after, Session.record, List.append_assoc]
  rfl

/-- A first step that adds nothing. -/
theorem quiet_then_orderly {p : Prog B} {f : B → Prog A} (head : p.Ensures s (Quiet allowed s))
    (second : B → Except Exc A → List Event → Prop)
    (rest : ∀ a later, (f a).Ensures later (Orderly allowed (second a) later))
    (joins : ∀ a outcome x, second a outcome x → adds outcome x) (stops : ∀ e, adds (.error e) []) :
    (p >>= f).Ensures s (Orderly allowed adds s) :=
  orderly_bind head _ rest (by rintro a outcome _ x rfl held; exact joins a outcome x held)
    (by rintro e _ rfl; exact stops e)

theorem orderly_mono {weaker : Except Exc A → List Event → Prop} (held : p.Ensures s (Orderly allowed adds s))
    (weaken : ∀ outcome added, adds outcome added → weaker outcome added) :
    p.Ensures s (Orderly allowed weaker s) := by
  refine held.mono fun outcome later known => ⟨known.script, known.clean, known.raises, ?_⟩
  obtain ⟨added, after, adds⟩ := known.trace
  exact ⟨added, after, weaken outcome added adds⟩

/-- Quiet steps after others that add the same whatever they come to. -/
theorem orderly_then_quiet {q : List Event → Prop} (head : p.Ensures s (Orderly allowed (fun _ => q) s))
    (rest : ∀ a later, (f a).Ensures later (Quiet allowed later)) :
    (p >>= f).Ensures s (Orderly allowed (fun _ => q) s) :=
  orderly_bind head _ rest (by rintro _ _ x _ held rfl; rwa [List.append_nil]) (fun _ _ held => held)

/-- A question raises what its answer breaks. -/
theorem quiet_ask {f : Answer → Option (Except Exc A × (Session → Session))}
    (known : ∀ answer outcome change, f answer = some (outcome, change) →
      (answer.Breaks ↔ ∃ e, outcome = .error e ∧ e.Escapes) ∧ (∀ e, outcome = .error e → allowed e) ∧
        ∀ s, (change s).heard = s.heard ∧ (change s).script = s.script ∧ (change s).trace = s.trace) :
    (ask f).Ensures s (Quiet allowed s) := by
  intro outcome later ran
  simp only [ask, exec_ofFun] at ran
  cases coming : s.script with
  | nil => simp [coming] at ran
  | cons answer rest =>
    simp only [coming] at ran
    obtain ⟨⟨result, change⟩, answered, same⟩ := Option.map_eq_some_iff.mp ran
    cases same
    obtain ⟨breaks, allows, keeps⟩ := known answer result change answered
    obtain ⟨heard, script, trace⟩ := keeps (s.hear answer rest)
    refine ⟨?_, ?_, allows, [], ?_, rfl⟩
    · rw [heard, script]
      simp [Session.hear, coming]
    · intro clean
      have after : (change (s.hear answer rest)).Clean ↔ ¬ answer.Breaks := by
        rw [Session.Clean, heard]
        constructor
        · exact fun all => all answer (by simp [Session.hear])
        · intro whole other member
          rcases List.mem_append.mp member with before | last
          · exact clean other before
          · rw [List.mem_singleton.mp last]
            exact whole
      rw [after, breaks]
      simp only [not_exists, not_and]
    · rw [trace]
      simp [Session.hear]

end Rules

end Smtp
end SyncEngine
