import SyncEngine.Api.ListingViews

/-! Whether the instances of a recurring event depend on the other events that are expanded with it. -/
namespace SyncEngine.Filtering
variable {T I : Type} [DecidableEq T] [DecidableEq I]

/-- The same tables with other events, in any order. -/
def Database.withEvents (db : Database T I) (events : List (Event T I))
    (distinct : (events.map Event.publicId).Nodup) : Database T I :=
  { db with events, event_public_ids := distinct }

/-- The same tables with only one event. -/
def Database.alone (db : Database T I) (r : Event T I) : Database T I := db.withEvents [r] (List.nodup_singleton _)

variable (texts : Texts T I) (db : Database T I) (namespaceId : Nat) (expansion : Expansion T I)
  (filters : EventFilters T I)

/-- What the query asks of a recurring event. -/
def recurs (r : Event T I) : Bool :=
  r.discriminator = .recurringevent && eventPasses texts namespaceId filters r &&
  filters.calendarPublicId.all (fun publicId => joinCalendar db namespaceId r publicId ≠ []) &&
  (filters.showCancelled ≠ some false || notCancelled r) &&
  filters.startsBefore.all (r.start < ·) && filters.endsBefore.all (r.start < ·) &&
  filters.startsAfter.all (fun time => r.until_.all (· > time)) &&
  filters.endsAfter.all (fun time => r.until_.all (· > time))

/-- The instances of any of the events, listed together in any order, are those that each has alone. -/
def Independent : Prop :=
  ∀ events (distinct : (events.map Event.publicId).Nodup), events ⊆ db.events →
    recurringEvents texts (db.withEvents events distinct) namespaceId expansion filters =
      events.flatMap fun r => recurringEvents texts (db.alone r) namespaceId expansion filters

variable {texts db namespaceId expansion filters}

omit [DecidableEq T] in
theorem recurQuery_eq :
    recurQuery texts db namespaceId filters = db.events.filter (recurs texts db namespaceId filters) := by
  rw [recurQuery, filterEventQuery_eq, List.filter_filter, List.filter_filter]
  refine List.filter_congr fun r _ => ?_
  unfold recurs
  ac_rfl

omit [DecidableEq T] in
theorem mem_recurQuery {r : Event T I} : r ∈ recurQuery texts db namespaceId filters ↔
    r ∈ db.events ∧ recurs texts db namespaceId filters r = true := by
  rw [recurQuery_eq, List.mem_filter]

omit [DecidableEq T] in
theorem recurringEvents_withEvents {events : List (Event T I)} (distinct : (events.map Event.publicId).Nodup) :
    recurringEvents texts (db.withEvents events distinct) namespaceId expansion filters =
      match events.filter (recurs texts db namespaceId filters) with
      | [] => []
      | first :: rest => (first :: rest).flatMap (expansion.within (window expansion filters first)) := by
  rw [recurringEvents_eq, recurQuery_eq]
  rfl

omit [DecidableEq T] in
theorem recurringEvents_alone (r : Event T I) :
    recurringEvents texts (db.alone r) namespaceId expansion filters =
      if recurs texts db namespaceId filters r then expansion.within (window expansion filters r) r else [] := by
  rw [Database.alone, recurringEvents_withEvents]
  cases passes : recurs texts db namespaceId filters r <;> simp [passes]

omit [DecidableEq T] in
theorem flatMap_alone (events : List (Event T I)) :
    (events.flatMap fun r => recurringEvents texts (db.alone r) namespaceId expansion filters) =
      (events.filter (recurs texts db namespaceId filters)).flatMap fun r =>
        expansion.within (window expansion filters r) r := by
  induction events with
  | nil => rfl
  | cons r rest ih =>
    rw [List.flatMap_cons, ih, recurringEvents_alone, List.filter_cons]
    split
    · rw [List.flatMap_cons]
    · rfl

omit [DecidableEq T] in
theorem independent_of_alike (alike : ∀ first ∈ recurQuery texts db namespaceId filters,
    ∀ r ∈ recurQuery texts db namespaceId filters,
      expansion.within (window expansion filters first) r =
        expansion.within (window expansion filters r) r) :
    Independent texts db namespaceId expansion filters := by
  intro events distinct stored
  rw [recurringEvents_withEvents, flatMap_alone]
  have matching : ∀ r ∈ events.filter (recurs texts db namespaceId filters),
      r ∈ recurQuery texts db namespaceId filters := fun r member =>
    mem_recurQuery.mpr ⟨stored (List.mem_filter.mp member).1, (List.mem_filter.mp member).2⟩
  cases listed : events.filter (recurs texts db namespaceId filters) with
  | nil => rfl
  | cons first rest =>
    rw [listed] at matching
    exact List.flatMap_congr fun r member => alike first (matching first List.mem_cons_self) r (matching r member)

omit [DecidableEq T] in
/-- The events are independent if and only if each of those that match expands within the bounds of any other
as it does within its own. -/
theorem recurring_events_independent_iff (texts : Texts T I) (db : Database T I) (namespaceId : Nat)
    (expansion : Expansion T I) (filters : EventFilters T I) :
    Independent texts db namespaceId expansion filters ↔
      ∀ first ∈ recurQuery texts db namespaceId filters, ∀ r ∈ recurQuery texts db namespaceId filters,
        expansion.within (window expansion filters first) r =
          expansion.within (window expansion filters r) r := by
  constructor
  · intro independent first member r member'
    by_cases same : first = r
    · rw [same]
    obtain ⟨stored, passes⟩ := mem_recurQuery.mp member
    obtain ⟨stored', passes'⟩ := mem_recurQuery.mp member'
    have distinct : ([first, r].map Event.publicId).Nodup := by
      have apart : first.publicId ≠ r.publicId := fun one_id =>
        same (List.inj_on_of_nodup_map db.event_public_ids stored stored' one_id)
      simpa using apart
    have both := independent [first, r] distinct (by simp [stored, stored'])
    rw [recurringEvents_withEvents, flatMap_alone] at both
    simpa [passes, passes'] using both
  · exact independent_of_alike

omit [DecidableEq T] [DecidableEq I] in
/-- An end bound that comes without its start bound is the one thing that makes a window depend on a length. -/
theorem window_eq_iff {expansion : Expansion T I} {filters : EventFilters T I} {first r : Event T I} :
    window expansion filters first = window expansion filters r ↔
      (filters.startsAfter = none → filters.endsAfter ≠ none → expansion.length first = expansion.length r) ∧
      (filters.startsBefore = none → filters.endsBefore ≠ none → expansion.length first = expansion.length r) := by
  rw [window, window, Prod.mk.injEq]
  refine and_congr ?_ ?_
  · cases filters.startsAfter <;> cases filters.endsAfter <;> simp [Int.sub_right_inj]
  · cases filters.startsBefore <;> cases filters.endsBefore <;> simp [Int.sub_right_inj]

omit [DecidableEq T] in
/-- So the events are independent whatever they expand to, if no length is used or if those that match are
equally long. -/
theorem independent_of_same_lengths
    (same : ∀ first ∈ recurQuery texts db namespaceId filters, ∀ r ∈ recurQuery texts db namespaceId filters,
      (filters.startsAfter = none → filters.endsAfter ≠ none → expansion.length first = expansion.length r) ∧
      (filters.startsBefore = none → filters.endsBefore ≠ none → expansion.length first = expansion.length r)) :
    Independent texts db namespaceId expansion filters :=
  independent_of_alike fun first member r member' => by
    rw [window_eq_iff.mpr (same first member r member')]

def meeting (publicId : Nat) (start end_ : Int) : Event String Nat :=
  { publicId, namespaceId := 1, calendarId := 1, deletedAt := none, title := none, description := none,
    location := none, busy := true, source := some .here, start, end_ := some end_, status := some .confirmed,
    discriminator := .recurringevent, until_ := none }

theorem no_calendars : (List.map Calendar.id ([] : List (Calendar Nat))).Nodup := List.nodup_nil

/-- A meeting of one hour, and one of four that starts an hour later. -/
def twoMeetings : Database String Nat :=
  { threads := [], messages := [], associations := [], contacts := [], parts := [], blocks := [],
    messagecategories := [], categories := [], calendars := [], events := [meeting 11 6 7, meeting 12 7 11],
    thread_ids := by decide, calendar_ids := no_calendars, thread_public_ids := by decide,
    message_public_ids := by decide, block_public_ids := by decide, event_public_ids := by decide }

def endingBefore (time : Int) : EventFilters String Nat :=
  { eventPublicId := none, calendarPublicId := none, title := none, description := none, location := none,
    busy := none, startsBefore := none, startsAfter := none, endsBefore := some time, endsAfter := none,
    showCancelled := none }

/-- Every event has the one instance that it starts with, if that is before the bound. -/
def firstInstances : Expansion String Nat :=
  ⟨fun r => r.end_.getD r.start - r.start, fun r _ before => if before.all (r.start < ·) then [r] else []⟩

/-- The long meeting does not end in time, but it is listed when the short one comes first. -/
theorem long_meeting_listed :
    ¬ ∀ (T I : Type) [DecidableEq T] [DecidableEq I] (texts : Texts T I) (db : Database T I) (namespaceId : Nat)
      (expansion : Expansion T I) (filters : EventFilters T I),
      Independent texts db namespaceId expansion filters := by
  intro independent
  have both := independent String Nat ⟨id, id, id, fun _ => none, fun _ _ => false⟩ twoMeetings 1 firstInstances
    (endingBefore 10) [meeting 11 6 7, meeting 12 7 11] (by decide) (List.Subset.refl _)
  exact absurd both (by decide)

end SyncEngine.Filtering
