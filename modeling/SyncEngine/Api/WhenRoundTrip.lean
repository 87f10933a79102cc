import SyncEngine.Api.EventUpdates

/-! The times of an event as the API returns them, sent back in an update. -/
namespace SyncEngine.EventUpdates

/-- How times and dates are written. -/
structure Rendering (V : Type) where
  number : Int → V
  isoformat : Int → V

variable {V T : Type}

/-- `get_time_dict`, encoded. -/
def ShownWhen.times (rendering : Rendering V) : ShownWhen → List (String × V)
  | .time moment => [("time", rendering.number moment)]
  | .timespan startTime endTime =>
    [("start_time", rendering.number startTime), ("end_time", rendering.number endTime)]
  | .date day => [("date", rendering.isoformat day)]
  | .datespan startDate endDate =>
    [("start_date", rendering.isoformat startDate), ("end_date", rendering.isoformat endDate)]

/-- `_get_lowercase_class_name` -/
def ShownWhen.className : ShownWhen → String
  | .time _ => "time"
  | .timespan .. => "timespan"
  | .date _ => "date"
  | .datespan .. => "datespan"

variable [DecidableEq T] (values : Values V T) (rendering : Rendering V)

/-- The `when` object of an event. -/
def returnedWhen (event : Event V T) : List (String × V) :=
  (shownWhen values event).times rendering ++ [("object", values.string (shownWhen values event).className)]

/-- The object is accepted, and setting it changes none of the columns. -/
def KeepsTimes (event : Event V T) (raw : List (String × V)) : Prop :=
  validWhen values raw = .ok () ∧ ∃ after, event.setWhen values raw = .ok after ∧
    after.start = event.start ∧ after.end_ = event.end_ ∧ after.allDay = event.allDay

variable {values rendering}

omit [DecidableEq T] in
/-- The word is not one of its letters. -/
theorem validWhen_of_object {raw : List (String × V)} (named : "object" ∈ raw.map Prod.fst) :
    validWhen values raw = .error (.inputError "When object had invalid keys.") := by
  have given : "object" ∈ (raw.map Prod.fst).filter (· ∉ ["o", "b", "j", "e", "c", "t"]) :=
    List.mem_filter.mpr ⟨named, by decide⟩
  have other : ∀ keys : List String, "object" ∉ keys →
      ¬((raw.map Prod.fst).filter (· ∉ ["o", "b", "j", "e", "c", "t"])).Perm keys :=
    fun _ missing perm => missing (perm.mem_iff.mp given)
  rw [validWhen]
  simp only [if_neg (other ["start_time", "end_time"] (by decide)), if_neg (other ["time"] (by decide)),
    if_neg (other ["start_date", "end_date"] (by decide)), if_neg (other ["date"] (by decide))]

theorem object_mem_returnedWhen (event : Event V T) :
    "object" ∈ (returnedWhen values rendering event).map Prod.fst := by simp [returnedWhen]

/-- What is returned for an event is never accepted. -/
theorem returned_when_never_accepted (values : Values V T) (rendering : Rendering V) (event : Event V T) :
    ¬KeepsTimes values event (returnedWhen values rendering event) := by
  rintro ⟨accepted, _⟩
  rw [validWhen_of_object (object_mem_returnedWhen event)] at accepted
  cases accepted

/-- Numbers are times, and texts are none. -/
def numbers : Values (Int ⊕ String) Int :=
  { null := .inr "", string := .inr, text := fun _ => none, isBool := fun _ => false, hashable := fun _ => true,
    arrowGet := fun sent => sent.elim .ok fun _ => .error .invalid, dateParse := fun _ => none,
    earlier := (· < ·), date := fun time => time.getD 0 / 86400, seconds := id }

def coffeeBreak : Event (Int ⊕ String) Int :=
  { title := none, description := .inr "", location := none, start := 36000, end_ := some 36000, allDay := false,
    participants := [], busy := .inr "" }

/-- The single time of an event is returned with the word `time` under `object`, and refused. -/
theorem returned_time_refused :
    ¬ ∀ (V T : Type) [DecidableEq T] (values : Values V T) (rendering : Rendering V) (event : Event V T),
      KeepsTimes values event (returnedWhen values rendering event) := by
  intro keeps
  have accepted := (keeps _ _ numbers ⟨.inl, fun _ => .inr "1970-01-01"⟩ coffeeBreak).1
  rw [validWhen_of_object (object_mem_returnedWhen coffeeBreak)] at accepted
  cases accepted

end SyncEngine.EventUpdates
