import Mathlib.Data.List.Perm.Basic
import Mathlib.Data.List.Nodup
import SyncEngine.Models.Event

/-! The expansion of a recurring event: its overrides, and an instance for every other occurrence. -/
namespace SyncEngine.Events

/-- A recurrence rule as its library expands it: the occurrences between two times, both included. -/
structure Rule where
  occurs : Int → Prop
  between : Int → Int → List Int
  increasing : ∀ start end_, (between start end_).Pairwise (· < ·)
  mem_between : ∀ start end_ t, t ∈ between start end_ ↔ occurs t ∧ start ≤ t ∧ t ≤ end_

/-- A recurring event with what `parse_rrule` and `parse_exdate` make of its columns, and the
overrides whose master it is. -/
structure Series where
  event : Event
  rrules : Option Rule
  exclDates : List Int
  overrides : List Event

def Event.originalStartTime (e : Event) : Option Int :=
  match e.kind with
  | .override _ originalStartTime _ => originalStartTime
  | _ => none

namespace Series

/-- The occurrences of the series: those of the rule but for the excluded ones, or only its start
where there is no rule that can be read. -/
def Occurs (s : Series) (t : Int) : Prop :=
  match s.rrules with
  | none => t = s.event.start
  | some rule => rule.occurs t ∧ t ∉ s.exclDates

/-- `get_start_times`, where `horizon` is a year from now. -/
def getStartTimes (s : Series) (horizon : Int) (start end_ : Option Int) : List Int :=
  match s.rrules with
  | none => [s.event.start]
  | some rule =>
    (rule.between (start.getD s.event.start) (end_.getD horizon)).filter (· ∉ s.exclDates)

/-- What the expansion returns: an override, or an inflated instance with its start. -/
inductive Shown where
  | override (e : Event)
  | inflated (start : Int)
deriving DecidableEq

def Shown.start : Shown → Int
  | .override e => e.start
  | .inflated start => start

/-- The filters of the query for overrides. -/
def matches_ (s : Series) (start end_ : Option Int) (o : Event) : Bool :=
  start.all (· < o.start) && end_.all (o.end_ < ·) && o.calendar = s.event.calendar

def allEvents (s : Series) (horizon : Int) (start end_ : Option Int) : List Shown :=
  let events := s.overrides.filter (s.matches_ start end_)
  let overriddenStarts := events.map (·.originalStartTime)
  let shown := (events.filter (·.status ≠ .cancelled)).map Shown.override
  let inflated := (s.getStartTimes horizon start end_).filter (some · ∉ overriddenStarts)
  (shown ++ inflated.map Shown.inflated).mergeSort fun a b => a.start ≤ b.start

/-- The occurrence that an event of the expansion is, or stands for. -/
def Shown.occurrence : Shown → Option Int
  | .override e => e.originalStartTime
  | .inflated start => some start

/-- The expansion takes account of the exceptions. -/
structure Respects (s : Series) (horizon : Int) (start end_ : Option Int) : Prop where
  suppressed : ∀ t, .inflated t ∈ s.allEvents horizon start end_ →
    ∀ o ∈ s.overrides, o.calendar = s.event.calendar → o.originalStartTime ≠ some t
  uncancelled : ∀ e, .override e ∈ s.allEvents horizon start end_ → e.status ≠ .cancelled
  one : ∀ t, s.Occurs t →
    ((s.allEvents horizon start end_).filter (·.occurrence = some t)).length ≤ 1

/-- For every occurrence of the window that has an exception, one of its exceptions lies inside the
window. -/
def InWindow (s : Series) (horizon : Int) (start end_ : Option Int) : Prop :=
  ∀ t ∈ s.getStartTimes horizon start end_,
    ∀ o ∈ s.overrides, o.calendar = s.event.calendar → o.originalStartTime = some t →
      ∃ inside ∈ s.overrides, s.matches_ start end_ inside = true ∧ inside.originalStartTime = some t

/-- No two overrides of one occurrence lie inside the window and are not cancelled. -/
def OneEach (s : Series) (start end_ : Option Int) : Prop :=
  ∀ t, s.Occurs t → ((s.overrides.filter (s.matches_ start end_)).filter fun o =>
    o.status ≠ .cancelled && o.originalStartTime = some t).length ≤ 1

variable {s : Series} {horizon : Int} {start end_ : Option Int}

theorem nodup_getStartTimes (s : Series) (horizon : Int) (start end_ : Option Int) :
    (s.getStartTimes horizon start end_).Nodup := by
  unfold getStartTimes
  split
  · exact List.nodup_singleton _
  next rule _ =>
    exact List.Nodup.filter _ ((rule.increasing _ _).imp fun before => Int.ne_of_lt before)

theorem mem_inflated {t : Int} : .inflated t ∈ s.allEvents horizon start end_ ↔
    t ∈ s.getStartTimes horizon start end_ ∧
      ∀ o ∈ s.overrides, s.matches_ start end_ o = true → o.originalStartTime ≠ some t := by
  rw [allEvents, List.mem_mergeSort]
  simp only [List.mem_append, List.mem_map, List.mem_filter, decide_eq_true_eq, reduceCtorEq, and_false,
    exists_false, false_or, Shown.inflated.injEq, exists_eq_right, not_exists, not_and, and_imp, Ne]

theorem mem_override {e : Event} : .override e ∈ s.allEvents horizon start end_ ↔
    e ∈ s.overrides ∧ s.matches_ start end_ e = true ∧ e.status ≠ .cancelled := by
  rw [allEvents, List.mem_mergeSort]
  simp only [List.mem_append, List.mem_map, List.mem_filter, decide_eq_true_eq, reduceCtorEq, and_false,
    exists_false, or_false, Shown.override.injEq, exists_eq_right]
  exact and_assoc

/-- The events of an occurrence: its overrides in the window and, unless there are any, its instance. -/
theorem count_occurrence (t : Int) :
    ((s.allEvents horizon start end_).filter (·.occurrence = some t)).length =
      ((s.overrides.filter (s.matches_ start end_)).filter fun o =>
        o.status ≠ .cancelled && o.originalStartTime = some t).length +
      (if .inflated t ∈ s.allEvents horizon start end_ then 1 else 0) := by
  have filtered : ((s.allEvents horizon start end_).filter (·.occurrence = some t)).length =
      ((((s.overrides.filter (s.matches_ start end_)).filter (·.status ≠ .cancelled)).map
        Shown.override).filter (·.occurrence = some t)).length +
      ((((s.getStartTimes horizon start end_).filter
        (some · ∉ (s.overrides.filter (s.matches_ start end_)).map (·.originalStartTime))).map
          Shown.inflated).filter (·.occurrence = some t)).length := by
    rw [allEvents, ((List.mergeSort_perm _ _).filter _).length_eq, List.filter_append,
      List.length_append]
  rw [filtered]
  congr 1
  · rw [List.filter_map, List.length_map, List.filter_filter]
    congr 1
    refine List.filter_congr fun o _ => ?_
    rw [Bool.eq_iff_iff]
    simp only [Function.comp_apply, Shown.occurrence, Bool.and_eq_true, decide_eq_true_eq]
    exact (and_congr_left' decide_eq_true_iff).trans and_comm
  · have once := (nodup_getStartTimes s horizon start end_).filter
      (some · ∉ (s.overrides.filter (s.matches_ start end_)).map (·.originalStartTime))
    have listed : .inflated t ∈ s.allEvents horizon start end_ ↔ t ∈ (s.getStartTimes horizon start end_).filter
        (some · ∉ (s.overrides.filter (s.matches_ start end_)).map (·.originalStartTime)) := by
      rw [mem_inflated]
      simp only [List.mem_filter, List.mem_map, decide_eq_true_eq, not_exists, not_and, and_imp, Ne]
    have same : (fun shown : Shown => decide (shown.occurrence = some t)) ∘ Shown.inflated =
        (· == t) := by
      funext x
      rw [Function.comp_apply, Shown.occurrence, Bool.eq_iff_iff, beq_iff_eq, decide_eq_true_iff,
        Option.some.injEq]
    rw [List.filter_map, List.length_map, same, ← List.countP_eq_length_filter]
    simp only [listed]
    exact once.count

theorem uncancelled (s : Series) (horizon : Int) (start end_ : Option Int) (e : Event)
    (shown : .override e ∈ s.allEvents horizon start end_) : e.status ≠ .cancelled :=
  (mem_override.mp shown).2.2

/-- An expansion respects the exceptions exactly if every occurrence of the window that has any has
one inside the window, and none has two there. -/
theorem respects_iff (s : Series) (horizon : Int) (start end_ : Option Int) :
    s.Respects horizon start end_ ↔ s.InWindow horizon start end_ ∧ s.OneEach start end_ := by
  constructor
  · intro respects
    refine ⟨fun t expanded o mem here original => ?_, fun t occurs => ?_⟩
    · by_contra outside
      refine respects.suppressed t (mem_inflated.mpr ⟨expanded, fun o' mem' inside original' => ?_⟩)
        o mem here original
      exact outside ⟨o', mem', inside, original'⟩
    · have one := respects.one t occurs
      rw [count_occurrence] at one
      omega
  · rintro ⟨inWindow, oneEach⟩
    refine ⟨fun t shown o mem here original => ?_, s.uncancelled horizon start end_, fun t occurs => ?_⟩
    · obtain ⟨expanded, free⟩ := mem_inflated.mp shown
      obtain ⟨inside, mem', matches', original'⟩ := inWindow t expanded o mem here original
      exact free inside mem' matches' original'
    · rw [count_occurrence]
      have few := oneEach t occurs
      split
      next shown =>
        -- Where the instance is shown, no override of it is.
        obtain ⟨-, free⟩ := mem_inflated.mp shown
        have none : ((s.overrides.filter (s.matches_ start end_)).filter fun o =>
            o.status ≠ .cancelled && o.originalStartTime = some t) = [] := by
          rw [List.filter_eq_nil_iff]
          intro o mem taken
          obtain ⟨mem, inside⟩ := List.mem_filter.mp mem
          simp only [Bool.and_eq_true, decide_eq_true_eq] at taken
          exact free o mem inside taken.2
        rw [none]
        rfl
      next => exact few

end Series

/-- Three occurrences, a hundred seconds apart. -/
def threeTimes : Rule where
  occurs t := t ∈ [0, 100, 200]
  between start end_ := [0, 100, 200].filter fun t => start ≤ t && t ≤ end_
  increasing start end_ := List.Pairwise.filter _ (by decide)
  mem_between start end_ t := by simp only [List.mem_filter, Bool.and_eq_true, decide_eq_true_eq]

def plainEvent (start end_ : Int) (kind : Kind) : Event where
  namespace_ := some 1
  calendar := some 1
  uid := ['u']
  providerName := none
  source := .here
  rawData := []
  title := none
  owner := none
  description := none
  location := none
  busy := true
  readOnly := false
  reminders := none
  recurrence := none
  start := start
  end_ := end_
  allDay := false
  isOwner := true
  lastModified := none
  status := .confirmed
  message := none
  participants := []
  sequenceNumber := none
  kind := kind

/-- The second of three instances was moved behind the window, which shows it at its old time. -/
theorem moved_out_of_window : ¬∀ (s : Series) (horizon : Int) (start end_ : Option Int),
    s.Respects horizon start end_ := by
  intro respects
  let master := plainEvent 0 10 (.recurring none none none none)
  let moved := plainEvent 300 310 (.override (some ['u']) (some 100) (some 0))
  have shown : .inflated 100 ∈
      (Series.mk master (some threeTimes) [] [moved]).allEvents 1000 (some 50) (some 150) := by
    rw [Series.mem_inflated]
    decide
  exact (respects _ 1000 (some 50) (some 150)).suppressed 100 shown moved (List.mem_singleton_self _) rfl rfl

end SyncEngine.Events
