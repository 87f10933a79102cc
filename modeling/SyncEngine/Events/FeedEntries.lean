import SyncEngine.Events.FeedLinks
import SyncEngine.Util.ChangeLog

/-! What a calendar holds once its feeds are handled: which rows there are, and which entry each of
them carries. -/
namespace SyncEngine.Events

variable {namespaceId calendarId : Nat} {eventsExist : Bool}

/-- A row of the calendar that overrides may have as their master. -/
def IsMaster (namespaceId calendarId : Nat) (rows : List Event) (m : Nat) : Prop :=
  ∃ master, rows[m]? = some master ∧ master.isRecurring = true ∧
    inCalendar namespaceId calendarId master = true

/-- What happens to the row of another event while an entry is handled whose row is at `own`, if the
overrides that are linked get masters of which `masters` holds. -/
inductive Touched (masters : Nat → Prop) (own : Nat) (e o : Event) : Event → Prop where
  | kept : Touched masters own e o o
  | linked (no_master : o.master = none) (m : Nat) (master : masters m) :
    Touched masters own e o (o.setMaster m)
  | cancelled (master : o.master = some own) (cancelled : e.status = .cancelled) :
    Touched masters own e o { o with status := .cancelled }

theorem setMaster_columns (e : Event) (m : Nat) :
    e.setMaster m = { e with kind := (e.setMaster m).kind } := by
  unfold Event.setMaster
  split <;> rfl

section Touched
variable {masters : Nat → Prop} {own : Nat} {e o o' : Event}

theorem Touched.uid (touched : Touched masters own e o o') : o'.uid = o.uid := by
  cases touched with
  | kept | cancelled => rfl
  | linked _ m => rw [setMaster_columns]

theorem Touched.here (touched : Touched masters own e o o') :
    inCalendar namespaceId calendarId o' = inCalendar namespaceId calendarId o := by
  cases touched with
  | kept | cancelled => rfl
  | linked _ m =>
    rw [setMaster_columns]
    rfl

/-- Masters stay, and only the overrides of the entry's row change their status. -/
theorem Touched.status (touched : Touched masters own e o o') :
    o'.status = o.status ∨ o.master = some own ∧ e.status = .cancelled ∧ o'.master = some own ∧
      o'.status = .cancelled := by
  cases touched with
  | kept => exact .inl rfl
  | linked _ m =>
    rw [setMaster_columns]
    exact .inl rfl
  | cancelled master cancelled => exact .inr ⟨master, cancelled, master, rfl⟩

theorem Touched.master (touched : Touched masters own e o o') {m : Nat}
    (master : o.master = some m) : o'.master = some m := by
  cases touched with
  | kept | cancelled => exact master
  | linked no_master => simp [no_master] at master

theorem setMaster_master {m k : Nat} (master : (o.setMaster m).master = some k) : k = m := by
  cases kind : o.kind with
  | override => simpa [Event.setMaster, Event.master, kind, eq_comm] using master
  | event | recurring => simp [Event.setMaster, Event.master, kind] at master

/-- A master that a row gets is one of `masters`. -/
theorem Touched.gets (touched : Touched masters own e o o') {m : Nat} (master : o'.master = some m) :
    o.master = some m ∨ masters m := by
  cases touched with
  | kept | cancelled => exact .inl master
  | linked _ _ good =>
    obtain rfl := setMaster_master master
    exact .inr good

end Touched

/-! ## What stays of an event -/

/-- `Event`, `RecurringEvent` or `RecurringEventOverride` -/
def SameClass (a b : Event) : Prop := b.isRecurring = a.isRecurring ∧ b.isOverride = a.isOverride

/-- The row has the class and the source of the other one, and its master if that has one. -/
structure Descends (o row : Event) : Prop where
  sameClass : SameClass o row
  source : row.source = o.source
  master : ∀ m, o.master = some m → row.master = some m

theorem Descends.refl (o : Event) : Descends o o := ⟨⟨rfl, rfl⟩, rfl, fun _ => id⟩

theorem Descends.trans {a b c : Event} (first : Descends a b) (second : Descends b c) : Descends a c where
  sameClass := ⟨second.sameClass.1.trans first.sameClass.1, second.sameClass.2.trans first.sameClass.2⟩
  source := second.source.trans first.source
  master m master := second.master m (first.master m master)

theorem setMaster_sameClass (o : Event) (m : Nat) : SameClass o (o.setMaster m) := by
  cases kind : o.kind <;> simp [SameClass, Event.setMaster, Event.isRecurring, Event.isOverride, kind]

theorem Touched.descends {masters : Nat → Prop} {own : Nat} {e o o' : Event}
    (touched : Touched masters own e o o') : Descends o o' := by
  refine ⟨?_, ?_, fun _ => touched.master⟩
  · cases touched with
    | kept | cancelled => exact ⟨rfl, rfl⟩
    | linked _ m => exact setMaster_sameClass o m
  · cases touched with
    | kept | cancelled => rfl
    | linked _ m => rw [setMaster_columns]

theorem descends_update (row e : Event) :
    Descends row { row.update e with participants := e.participants } := by
  cases row_kind : row.kind <;> cases e_kind : e.kind <;>
    constructor <;> simp [SameClass, Event.update, Event.updateColumns, Event.isRecurring, Event.isOverride,
      Event.master, row_kind, e_kind]

theorem descends_newRow (e : Event) : Descends e (newRow namespaceId calendarId e) :=
  ⟨⟨rfl, rfl⟩, rfl, fun _ => id⟩

theorem update_master (row e : Event) {m : Nat}
    (master : ({ row.update e with participants := e.participants } : Event).master = some m) :
    row.master = some m := by
  cases row_kind : row.kind <;> cases e_kind : e.kind <;>
    simpa [Event.update, Event.updateColumns, Event.master, row_kind, e_kind] using master

/-! ## One entry and the rows -/

theorem getElem?_cancelOverrides (rows : List Event) (i : Nat) (e : Event) {k : Nat} {o : Event}
    (at_k : rows[k]? = some o) : (cancelOverrides rows i e)[k]? = some o ∨
      (o.master = some i ∧ e.status = .cancelled ∧
        (cancelOverrides rows i e)[k]? = some { o with status := .cancelled }) := by
  unfold cancelOverrides
  split
  next cancels =>
    simp only [Bool.and_eq_true, decide_eq_true_eq] at cancels
    rw [List.getElem?_map, at_k, Option.map_some]
    by_cases master : o.master = some i
    · right
      exact ⟨master, cancels.2, by rw [if_pos master]⟩
    · left
      rw [if_neg master]
  next => exact .inl at_k

theorem update_status (self event : Event) (status : Status) :
    ({ self with status := status } : Event).update event = self.update event := by
  unfold Event.update
  rfl

/-- The row that an entry finds takes it over; the overrides of the row may be cancelled. -/
theorem handleEvent_found (table : EventTable) (e : FeedEvent) {i : Nat} {row : Event}
    (found : localEvent namespaceId calendarId eventsExist table.rows e.event.uid = some i)
    (at_i : table.rows[i]? = some row) :
    (handleEvent namespaceId calendarId eventsExist table.rows e.event).length = table.rows.length ∧
    (handleEvent namespaceId calendarId eventsExist table.rows e.event)[i]? =
      some { row.update e.event with participants := e.event.participants } ∧
    ∀ (k : Nat) (o : Event), k ≠ i → table.rows[k]? = some o →
      ∃ o', (handleEvent namespaceId calendarId eventsExist table.rows e.event)[k]? = some o' ∧
        Touched (IsMaster namespaceId calendarId
          (handleEvent namespaceId calendarId eventsExist table.rows e.event)) i e.event o o' := by
  have same_length : (cancelOverrides table.rows i e.event).length = table.rows.length := by
    unfold cancelOverrides
    split
    · exact List.length_map _
    · rfl
  have placed := (table.stored.modify e.event.link i).placed
  rw [localEvent_eq] at found
  rw [← map_updated i e found] at placed
  rw [handleEvent, localEvent_eq, found]
  simp only
  rw [linkEvents_transient placed]
  refine ⟨?_, ?_, ?_⟩
  · rw [List.length_modify, same_length]
  · rw [List.getElem?_modify_eq]
    rcases getElem?_cancelOverrides table.rows i e.event at_i with same | ⟨-, -, cancelled⟩
    · rw [same]
      rfl
    · rw [cancelled, Option.map_eq_map, Option.map_some, update_status]
  · intro k o other at_k
    rw [List.getElem?_modify_ne _ _ other.symm]
    rcases getElem?_cancelOverrides table.rows i e.event at_k with same | ⟨master, cancelled, at_k'⟩
    · exact ⟨o, same, .kept⟩
    · exact ⟨_, at_k', .cancelled master cancelled⟩

/-- The master that the query finds for an override of the calendar. -/
theorem findMaster_isMaster {rows : List Event} {event : Event} {uid : Unicode}
    (here : inCalendar namespaceId calendarId event = true) (found : findMaster rows event uid = some m) :
    ∃ master, rows[m]? = some master ∧ master.isRecurring = true ∧
      inCalendar namespaceId calendarId master = true := by
  obtain ⟨inside, fits, -⟩ := List.findIdx?_eq_some_iff_getElem.mp found
  simp only [inCalendar, Bool.and_eq_true, decide_eq_true_eq] at fits here ⊢
  obtain ⟨⟨⟨⟨recurring, namespace_⟩, calendar⟩, -⟩, -⟩ := fits
  exact ⟨rows[m], List.getElem?_eq_getElem inside, recurring, namespace_.trans here.1, calendar.trans here.2⟩

/-- A new event gets a row behind the others, and nothing but masters change in these. -/
theorem handleEvent_new (rows : List Event) (e : FeedEvent)
    (absent : localEvent namespaceId calendarId eventsExist rows e.event.uid = none) :
    (handleEvent namespaceId calendarId eventsExist rows e.event).length = rows.length + 1 ∧
    ∀ (k : Nat) (o : Event), (rows ++ [newRow namespaceId calendarId e.event])[k]? = some o →
      ∃ o', (handleEvent namespaceId calendarId eventsExist rows e.event)[k]? = some o' ∧
        Touched (IsMaster namespaceId calendarId
          (handleEvent namespaceId calendarId eventsExist rows e.event)) rows.length e.event o o' := by
  rw [handleEvent, absent]
  simp only
  set added := rows ++ [newRow namespaceId calendarId e.event] with added_def
  have length : added.length = rows.length + 1 := by simp [added_def]
  have own : added[rows.length]? = some (newRow namespaceId calendarId e.event) := by
    rw [added_def, List.getElem?_concat_length]
  have new_here : inCalendar namespaceId calendarId (newRow namespaceId calendarId e.event) = true := by
    simp [inCalendar, newRow]
  unfold linkEvents
  split
  next rrule exdate until_ zone kind =>
    simp only [linkOverrides]
    refine ⟨by rw [List.length_map, length], fun k o at_k => ?_⟩
    rw [List.getElem?_map, at_k, Option.map_some]
    split
    next linkable =>
      simp only [Bool.and_eq_true, decide_eq_true_eq] at linkable
      refine ⟨_, rfl, .linked linkable.2 _ ?_⟩
      have recurring : (newRow namespaceId calendarId e.event).isRecurring = true := by
        rw [Event.isRecurring, kind]
      refine ⟨newRow namespaceId calendarId e.event, ?_, recurring, new_here⟩
      rw [List.getElem?_map, own, Option.map_some, if_neg]
      simp [Event.isOverride, kind]
    next => exact ⟨o, rfl, .kept⟩
  next masterEventUid originalStartTime key kind =>
    unfold linkMaster
    split
    next => exact ⟨length, fun k o at_k => ⟨o, at_k, .kept⟩⟩
    next no_master =>
      split
      next => exact ⟨length, fun k o at_k => ⟨o, at_k, .kept⟩⟩
      next m found =>
        obtain ⟨uid, _, found⟩ := Option.bind_eq_some_iff.mp found
        obtain ⟨master, at_m, recurring, here⟩ := findMaster_isMaster new_here found
        have apart : rows.length ≠ m := by
          rintro rfl
          obtain rfl := Option.some.inj (own.symm.trans at_m)
          simp [Event.isRecurring, kind] at recurring
        refine ⟨by rw [List.length_modify, length], fun k o at_k => ?_⟩
        by_cases is_own : rows.length = k
        · subst is_own
          rw [List.getElem?_modify_eq, at_k]
          refine ⟨_, rfl, .linked ?_ m ⟨master, ?_, recurring, here⟩⟩
          · exact Option.some.inj (own.symm.trans at_k) ▸ not_not.mp no_master
          · rw [List.getElem?_modify_ne _ _ apart, at_m]
        · rw [List.getElem?_modify_ne _ _ is_own]
          exact ⟨o, at_k, .kept⟩
  next => exact ⟨length, fun k o at_k => ⟨o, at_k, .kept⟩⟩

/-! ## What a row carries -/

/-- The row has the columns of an entry for it, the status apart. It keeps its class, its source and
its master, the provider's name and the sequence number if the entry has none, and overrides that are
updated have no recurrence. -/
structure Carries (e row : Event) : Prop where
  columns : row = { e with
    namespace_ := row.namespace_, calendar := row.calendar, providerName := row.providerName,
    source := row.source, recurrence := row.recurrence, status := row.status,
    sequenceNumber := row.sequenceNumber, kind := row.kind }
  providerName : e.providerName ≠ none → row.providerName = e.providerName
  sequenceNumber : e.sequenceNumber ≠ none → row.sequenceNumber = e.sequenceNumber
  recurrence : row.recurrence = e.recurrence ∨ row.isOverride = true ∧ row.recurrence = none
  recurring : e.isRecurring = true → row.isRecurring = true → row.kind = e.kind
  override : row.isOverride = true → ∀ masterEventUid originalStartTime m,
    e.kind = .override masterEventUid originalStartTime m →
      ∃ master, row.kind = .override masterEventUid originalStartTime master

theorem carries_newRow (e : Event) : Carries e (newRow namespaceId calendarId e) where
  columns := rfl
  providerName given := by
    cases name : e.providerName with
    | none => exact absurd name given
    | some => simp [newRow, name]
  sequenceNumber _ := rfl
  recurrence := .inl rfl
  recurring _ _ := rfl
  override _ _ _ m kind := ⟨m, kind⟩

theorem carries_update (row e : Event) :
    Carries e { row.update e with participants := e.participants } := by
  have given {α : Type} {x y : Option α} (given : x ≠ none) : x.or y = x := by
    cases x with
    | none => exact absurd rfl given
    | some => rfl
  constructor
  · unfold Event.update
    split <;> rfl
  · intro name
    unfold Event.update
    split <;> exact given name
  · intro number
    unfold Event.update
    split <;> exact given number
  · cases row_kind : row.kind <;> cases e_kind : e.kind <;>
      simp [Event.update, Event.updateColumns, Event.isOverride, row_kind, e_kind]
  · cases row_kind : row.kind <;> cases e_kind : e.kind <;>
      simp [Event.update, Event.updateColumns, Event.isRecurring, row_kind, e_kind]
  · cases row_kind : row.kind <;> cases e_kind : e.kind <;>
      simp [Event.update, Event.updateColumns, Event.isOverride, row_kind, e_kind]

theorem Carries.touched {masters : Nat → Prop} {own : Nat} {e x o o' : Event} (carries : Carries e o)
    (touched : Touched masters own x o o') : Carries e o' := by
  cases touched with
  | kept => exact carries
  | cancelled master cancelled =>
    exact ⟨by rw [carries.columns], carries.providerName, carries.sequenceNumber, carries.recurrence,
      carries.recurring, carries.override⟩
  | linked no_master m =>
    cases kind : o.kind with
    | event | recurring =>
      rw [Event.setMaster, kind]
      exact carries
    | override masterEventUid originalStartTime master =>
      rw [Event.setMaster, kind]
      refine ⟨by rw [carries.columns], carries.providerName, carries.sequenceNumber, ?_, ?_, ?_⟩
      · rcases carries.recurrence with same | ⟨-, none⟩
        · exact .inl same
        · exact .inr ⟨rfl, none⟩
      · intro _ no_recurring
        cases no_recurring
      · intro _ uid time m' e_kind
        obtain ⟨old, old_kind⟩ := carries.override (by simp [Event.isOverride, kind]) uid time m' e_kind
        obtain ⟨rfl, rfl, -⟩ : masterEventUid = uid ∧ originalStartTime = time ∧ master = old := by
          simpa [kind] using old_kind
        exact ⟨some m, rfl⟩

/-! ## One entry -/

variable (namespaceId calendarId)

def OnePerUid (rows : List Event) : Prop :=
  ∀ (i j : Nat) (a b : Event), rows[i]? = some a → rows[j]? = some b →
    inCalendar namespaceId calendarId a = true → inCalendar namespaceId calendarId b = true →
      a.uid = b.uid → i = j

/-- The row at `own` is the one of an entry, before if there was one and after. -/
structure Handled (rows : List Event) (e : Event) (own : Nat) (rows' : List Event) : Prop where
  row : ∃ row, rows'[own]? = some row ∧ inCalendar namespaceId calendarId row = true ∧ row.uid = e.uid ∧
    Carries e row ∧ row.status = e.status ∧ Descends (rows[own]?.getD e) row ∧
      ∀ m, row.master = some m →
        (∃ o, rows[own]? = some o ∧ o.master = some m) ∨ IsMaster namespaceId calendarId rows' m
  old : ∀ o, rows[own]? = some o → o.uid = e.uid ∧ inCalendar namespaceId calendarId o = true
  only : ∀ (k : Nat) (o : Event), rows[k]? = some o → inCalendar namespaceId calendarId o = true →
    o.uid = e.uid → k = own
  others : ∀ k, k ≠ own →
    Option.Rel (Touched (IsMaster namespaceId calendarId rows') own e) rows[k]? rows'[k]?

variable {namespaceId calendarId}

theorem localEvent_none {rows : List Event} {uid : Unicode}
    (absent : localEvent namespaceId calendarId eventsExist rows uid = none)
    (looked : eventsExist = true ∨
      ∀ row ∈ rows, inCalendar namespaceId calendarId row = true → row.uid ≠ uid) :
    ∀ row ∈ rows, inCalendar namespaceId calendarId row = true → row.uid ≠ uid := by
  rcases looked with rfl | fresh
  · rw [localEvent, if_pos rfl, List.findIdx?_eq_none_iff] at absent
    intro row mem here uid
    simpa [here, uid] using absent row mem
  · exact fresh

theorem update_placed (row : Event) (e : FeedEvent) (here : inCalendar namespaceId calendarId row = true) :
    inCalendar namespaceId calendarId { row.update e.event with participants := e.event.participants } = true ∧
      (row.update e.event).status = e.event.status := by
  obtain ⟨namespace_, calendar, -⟩ := e.transient
  simp only [inCalendar, Bool.and_eq_true, decide_eq_true_eq] at here ⊢
  unfold Event.update
  split <;> simp [Event.updateColumns, namespace_, calendar, here]

theorem handleEvent_handled (table : EventTable) (e : FeedEvent)
    (one : OnePerUid namespaceId calendarId table.rows)
    (looked : eventsExist = true ∨ ∀ row ∈ table.rows, inCalendar namespaceId calendarId row = true →
      row.uid ≠ e.event.uid) :
    ∃ own, Handled namespaceId calendarId table.rows e.event own
      (handleEvent namespaceId calendarId eventsExist table.rows e.event) := by
  cases found : localEvent namespaceId calendarId eventsExist table.rows e.event.uid with
  | some i =>
    obtain ⟨l, at_i, l_here, l_uid⟩ := findLocal_some (by rwa [localEvent_eq] at found)
    rw [List.getElem?_map] at at_i
    obtain ⟨row, at_row, rfl⟩ := Option.map_eq_some_iff.mp at_i
    obtain ⟨length, own, others⟩ := handleEvent_found table e found at_row
    obtain ⟨here, status⟩ := update_placed row e l_here
    refine ⟨i, ⟨_, own, here, by simp, carries_update row e.event, status, ?_, ?_⟩, ?_, ?_, ?_⟩
    · rw [at_row]
      exact descends_update row e.event
    · intro m master
      exact .inl ⟨row, at_row, update_master row e.event master⟩
    · intro o at_o
      rw [at_row] at at_o
      cases at_o
      exact ⟨l_uid, l_here⟩
    · intro k o at_o o_here o_uid
      exact one k i o row at_o at_row o_here l_here (o_uid.trans l_uid.symm)
    · intro k other
      cases at_k : table.rows[k]? with
      | none =>
        rw [List.getElem?_eq_none (by rw [length]; exact List.getElem?_eq_none_iff.mp at_k)]
        exact .none
      | some o =>
        obtain ⟨o', at_k', touched⟩ := others k o other at_k
        rw [at_k']
        exact .some touched
  | none =>
    have fresh := localEvent_none found looked
    obtain ⟨length, rows'⟩ := handleEvent_new table.rows e found
    have new_here : inCalendar namespaceId calendarId (newRow namespaceId calendarId e.event) = true := by
      simp [inCalendar, newRow]
    obtain ⟨row, at_own, touched⟩ := rows' table.rows.length _ List.getElem?_concat_length
    refine ⟨table.rows.length,
      ⟨row, at_own, ?_, ?_, (carries_newRow _).touched touched, ?_, ?_, ?_⟩, ?_, ?_, ?_⟩
    · rw [touched.here, new_here]
    · rw [touched.uid]
      rfl
    · rcases touched.status with same | ⟨-, cancelled, -, now⟩
      · rw [same]
        rfl
      · rw [now, cancelled]
    · rw [List.getElem?_eq_none (Nat.le_refl _)]
      exact (descends_newRow e.event).trans touched.descends
    · intro m master
      refine .inr ((touched.gets master).resolve_left ?_)
      obtain ⟨-, -, no_master⟩ := e.transient
      exact fun had => Option.some_ne_none m (had.symm.trans no_master)
    · intro o at_o
      simp at at_o
    · intro k o at_o o_here o_uid
      exact absurd o_uid (fresh o (List.mem_of_getElem? at_o) o_here)
    · intro k other
      cases at_k : table.rows[k]? with
      | none =>
        have outside := List.getElem?_eq_none_iff.mp at_k
        rw [List.getElem?_eq_none (by omega)]
        exact .none
      | some o =>
        obtain ⟨o', at_k', touched⟩ := rows' k o (by
          rw [List.getElem?_append_left (List.getElem?_eq_some_iff.mp at_k).1, at_k])
        rw [at_k']
        exact .some touched

/-! ## All entries -/

/-- What the row at `i` with this uid was first: the row that was there, or the first entry for the uid. -/
def origin (start : List Event) (done : List FeedEvent) (i : Nat) (uid : Unicode) : Option Event :=
  start[i]?.or ((done.find? (·.event.uid = uid)).map FeedEvent.event)

section
variable (namespaceId calendarId)

/-- The row at `i` carries an entry, with the entry's status, unless one of the entries `after` it cancels
the row's master. -/
structure Shows (rows : List Event) (e : Event) (after : List FeedEvent) (i : Nat) (row : Event) : Prop where
  at_i : rows[i]? = some row
  here : inCalendar namespaceId calendarId row = true
  uid : row.uid = e.uid
  carries : Carries e row
  status : row.status = e.status ∨ row.status = .cancelled ∧ ∃ (m : Nat) (master : Event), ∃ cancel ∈ after,
    row.master = some m ∧ rows[m]? = some master ∧ master.uid = cancel.event.uid ∧
      cancel.event.status = .cancelled

/-- Once the entries `done` are handled, of a calendar with the rows `start`: the calendar holds one row
for a uid, which shows the last entry for it. Class and source of a row are those of the row that was
there or of the first entry for it, and so is the master; where there was none, an override may have got
one. -/
structure Kept (start : List Event) (done : List FeedEvent) (rows : List Event) : Prop where
  one : OnePerUid namespaceId calendarId rows
  last : ∀ before (e : FeedEvent) after, done = before ++ e :: after →
    (∀ x ∈ after, x.event.uid ≠ e.event.uid) →
      ∃ i row, Shows namespaceId calendarId rows e.event after i row
  grown : start.length ≤ rows.length
  origins : ∀ (i : Nat) (row : Event), rows[i]? = some row → inCalendar namespaceId calendarId row = true →
    ∃ o, origin start done i row.uid = some o ∧ Descends o row
  masters : ∀ (i : Nat) (row : Event) (m : Nat), rows[i]? = some row → row.master = some m →
    (∃ old, start[i]? = some old ∧ old.master = some m) ∨ IsMaster namespaceId calendarId rows m

end

theorem origin_append {start : List Event} {done : List FeedEvent} {i : Nat} {uid : Unicode} {o : Event}
    (first : origin start done i uid = some o) (more : List FeedEvent) :
    origin start (done ++ more) i uid = some o := by
  unfold origin at first ⊢
  rcases Option.or_eq_some_iff.mp first with old | ⟨new, entry⟩
  · rw [old, Option.some_or]
  · obtain ⟨e, found, rfl⟩ := Option.map_eq_some_iff.mp entry
    rw [new, List.find?_append, found]
    rfl

/-- Where the entry's row is not, rows come from rows and stay. -/
theorem Handled.stays {rows rows' : List Event} {e : Event} {own k : Nat} {o : Event}
    (handled : Handled namespaceId calendarId rows e own rows') (other : k ≠ own)
    (at_k : rows[k]? = some o) :
    ∃ o', rows'[k]? = some o' ∧ Touched (IsMaster namespaceId calendarId rows') own e o o' := by
  have others := handled.others k other
  rw [at_k] at others
  generalize rows'[k]? = after at others ⊢
  cases others with
  | some touched => exact ⟨_, rfl, touched⟩

theorem Handled.was {rows rows' : List Event} {e : Event} {own k : Nat} {o' : Event}
    (handled : Handled namespaceId calendarId rows e own rows') (other : k ≠ own)
    (at_k : rows'[k]? = some o') :
    ∃ o, rows[k]? = some o ∧ Touched (IsMaster namespaceId calendarId rows') own e o o' := by
  have others := handled.others k other
  rw [at_k] at others
  generalize rows[k]? = before at others ⊢
  cases others with
  | some touched => exact ⟨_, rfl, touched⟩

theorem Handled.one {rows rows' : List Event} {e : Event} {own : Nat}
    (handled : Handled namespaceId calendarId rows e own rows')
    (one : OnePerUid namespaceId calendarId rows) : OnePerUid namespaceId calendarId rows' := by
  obtain ⟨row, at_own, -, uid, -⟩ := handled.row
  intro i j a b at_i at_j a_here b_here same
  by_cases i_own : i = own <;> by_cases j_own : j = own
  · rw [i_own, j_own]
  · subst i_own
    obtain rfl := Option.some.inj (at_own.symm.trans at_i)
    obtain ⟨o, at_old, touched⟩ := handled.was j_own at_j
    exact absurd (handled.only j o at_old (touched.here ▸ b_here) (by rw [← touched.uid, ← same, uid])) j_own
  · subst j_own
    obtain rfl := Option.some.inj (at_own.symm.trans at_j)
    obtain ⟨o, at_old, touched⟩ := handled.was i_own at_i
    exact absurd (handled.only i o at_old (touched.here ▸ a_here) (by rw [← touched.uid, same, uid])) i_own
  · obtain ⟨x, at_x, x_touched⟩ := handled.was i_own at_i
    obtain ⟨y, at_y, y_touched⟩ := handled.was j_own at_j
    exact one i j x y at_x at_y (x_touched.here ▸ a_here) (y_touched.here ▸ b_here)
      (by rw [← x_touched.uid, same, y_touched.uid])

theorem Handled.keeps {rows rows' : List Event} {e : Event} {own k : Nat} {o : Event}
    (handled : Handled namespaceId calendarId rows e own rows') (at_k : rows[k]? = some o) :
    ∃ o', rows'[k]? = some o' ∧ o'.uid = o.uid ∧ Descends o o' ∧
      (inCalendar namespaceId calendarId o = true → inCalendar namespaceId calendarId o' = true) := by
  by_cases is_own : k = own
  · subst is_own
    obtain ⟨row, at_own, here, uid, -, -, descends, -⟩ := handled.row
    rw [at_k] at descends
    exact ⟨row, at_own, uid.trans (handled.old o at_k).1.symm, descends, fun _ => here⟩
  · obtain ⟨o', at_k', touched⟩ := handled.stays is_own at_k
    exact ⟨o', at_k', touched.uid, touched.descends, touched.here.trans⟩

theorem Handled.grows {rows rows' : List Event} {e : Event} {own : Nat}
    (handled : Handled namespaceId calendarId rows e own rows') : rows.length ≤ rows'.length := by
  by_contra fewer
  obtain ⟨_, at_end, -⟩ := handled.keeps (List.getElem?_eq_getElem (Nat.not_le.mp fewer))
  exact absurd (List.getElem?_eq_some_iff.mp at_end).1 (Nat.lt_irrefl _)

theorem Handled.isMaster {rows rows' : List Event} {e : Event} {own m : Nat}
    (handled : Handled namespaceId calendarId rows e own rows')
    (master : IsMaster namespaceId calendarId rows m) : IsMaster namespaceId calendarId rows' m := by
  obtain ⟨o, at_m, recurring, here⟩ := master
  obtain ⟨o', at_m', -, descends, stays⟩ := handled.keeps at_m
  exact ⟨o', at_m', descends.sameClass.1.trans recurring, stays here⟩

section Kept
variable {start rows rows' : List Event} {done : List FeedEvent} {e : FeedEvent} {own : Nat}

/-- The entries for a uid have a row. -/
theorem Kept.row (kept : Kept namespaceId calendarId start done rows) (member : e ∈ done) :
    ∃ (i : Nat) (row : Event), rows[i]? = some row ∧ inCalendar namespaceId calendarId row = true ∧
      row.uid = e.event.uid := by
  have some_last : ∃ latest, ChangeLog.lastFor (fun x : FeedEvent => x.event.uid) done e.event.uid = some latest :=
    ChangeLog.lastFor_isSome member rfl
  obtain ⟨latest, is_last⟩ := some_last
  obtain ⟨before, after, split, others⟩ := ChangeLog.lastFor_split is_last
  obtain ⟨-, same⟩ := ChangeLog.lastFor_some is_last
  obtain ⟨i, row, shows⟩ := kept.last before latest after split fun x among => same ▸ others x among
  exact ⟨i, row, shows.at_i, shows.here, shows.uid.trans same⟩

theorem Kept.origins_entry (kept : Kept namespaceId calendarId start done rows)
    (handled : Handled namespaceId calendarId rows e.event own rows') {i : Nat} {row : Event}
    (at_i : rows'[i]? = some row) (here : inCalendar namespaceId calendarId row = true) :
    ∃ o, origin start (done ++ [e]) i row.uid = some o ∧ Descends o row := by
  cases was : rows[i]? with
  | some old =>
    obtain ⟨row', at_i', uid, descends, -⟩ := handled.keeps was
    obtain rfl := Option.some.inj (at_i.symm.trans at_i')
    have old_here : inCalendar namespaceId calendarId old = true := by
      by_cases is_own : i = own
      · exact (handled.old old (is_own ▸ was)).2
      · obtain ⟨row', at_i', touched⟩ := handled.stays is_own was
        obtain rfl := Option.some.inj (at_i.symm.trans at_i')
        exact touched.here ▸ here
    obtain ⟨o, first, from_o⟩ := kept.origins i old was old_here
    exact ⟨o, uid ▸ origin_append first [e], from_o.trans descends⟩
  | none =>
    obtain rfl : i = own := by
      by_contra other
      obtain ⟨old, at_old, -⟩ := handled.was other at_i
      exact Option.some_ne_none old (at_old.symm.trans was)
    obtain ⟨row', at_i', -, uid, -, -, descends, -⟩ := handled.row
    obtain rfl := Option.some.inj (at_i.symm.trans at_i')
    rw [was] at descends
    refine ⟨e.event, ?_, descends⟩
    have fresh : done.find? (·.event.uid = e.event.uid) = none := by
      rw [List.find?_eq_none]
      intro x member same
      obtain ⟨k, old, at_k, old_here, old_uid⟩ := kept.row member
      obtain rfl := handled.only k old at_k old_here (old_uid.trans (by simpa using same))
      exact Option.some_ne_none old (at_k.symm.trans was)
    have none_before : start[i]? = none :=
      List.getElem?_eq_none (Nat.le_trans kept.grown (List.getElem?_eq_none_iff.mp was))
    simp [origin, none_before, uid, fresh]

theorem Kept.masters_entry (kept : Kept namespaceId calendarId start done rows)
    (handled : Handled namespaceId calendarId rows e.event own rows') {i m : Nat} {row : Event}
    (at_i : rows'[i]? = some row) (master : row.master = some m) :
    (∃ old, start[i]? = some old ∧ old.master = some m) ∨ IsMaster namespaceId calendarId rows' m := by
  have had : (∃ old, rows[i]? = some old ∧ old.master = some m) ∨
      IsMaster namespaceId calendarId rows' m := by
    by_cases is_own : i = own
    · subst is_own
      obtain ⟨row', at_i', -, -, -, -, -, masters⟩ := handled.row
      obtain rfl := Option.some.inj (at_i.symm.trans at_i')
      exact masters m master
    · obtain ⟨old, at_old, touched⟩ := handled.was is_own at_i
      exact (touched.gets master).imp (fun had => ⟨old, at_old, had⟩) id
  rcases had with ⟨old, at_old, had⟩ | good
  · exact (kept.masters i old m at_old had).imp id handled.isMaster
  · exact .inr good

theorem Kept.last_entry (kept : Kept namespaceId calendarId start done rows)
    (handled : Handled namespaceId calendarId rows e.event own rows') {before after : List FeedEvent}
    {x : FeedEvent} (split : done ++ [e] = before ++ x :: after)
    (last : ∀ y ∈ after, y.event.uid ≠ x.event.uid) :
    ∃ i row, Shows namespaceId calendarId rows' x.event after i row := by
  obtain ⟨own_row, at_own, own_here, own_uid, own_carries, own_status, -⟩ := handled.row
  rcases List.eq_nil_or_concat after with rfl | ⟨after', e', rfl⟩
  · obtain ⟨-, same⟩ := List.append_inj' split rfl
    obtain rfl : e = x := by simpa using same
    exact ⟨own, own_row, at_own, own_here, own_uid, own_carries, .inl own_status⟩
  · rw [List.concat_eq_append] at last ⊢
    rw [List.concat_eq_append, ← List.cons_append, ← List.append_assoc] at split
    obtain ⟨rfl, same⟩ := List.append_inj' split rfl
    obtain rfl : e = e' := by simpa using same
    have differs : e.event.uid ≠ x.event.uid := last e (by simp)
    obtain ⟨i, row, shows⟩ := kept.last before x after' rfl fun y mem => last y (by simp [mem])
    have other : i ≠ own := by
      rintro rfl
      exact differs ((handled.old row shows.at_i).1.symm.trans shows.uid)
    obtain ⟨row', at_i', touched⟩ := handled.stays other shows.at_i
    refine ⟨i, row', at_i', touched.here.trans shows.here, touched.uid.trans shows.uid,
      shows.carries.touched touched, ?_⟩
    rcases touched.status with same | ⟨-, e_cancelled, master, cancelled⟩
    · rw [same]
      rcases shows.status with status | ⟨cancelled, m, master, cancel, mem, key, at_m, c_uid, c_cancelled⟩
      · exact .inl status
      · obtain ⟨master', at_m', master_uid, -⟩ := handled.keeps at_m
        exact .inr ⟨cancelled, m, master', cancel, by simp [mem], touched.master key, at_m',
          master_uid.trans c_uid, c_cancelled⟩
    · exact .inr ⟨cancelled, own, own_row, e, by simp, master, at_own, own_uid, e_cancelled⟩

theorem Kept.entry (kept : Kept namespaceId calendarId start done rows)
    (handled : Handled namespaceId calendarId rows e.event own rows') :
    Kept namespaceId calendarId start (done ++ [e]) rows' where
  one := handled.one kept.one
  last _ _ _ := kept.last_entry handled
  grown := Nat.le_trans kept.grown handled.grows
  origins _ _ := kept.origins_entry handled
  masters _ _ _ := kept.masters_entry handled

end Kept

/-! ## All feeds -/

/-- The uids of the calendar are the old ones and that of the entry. -/
theorem Handled.uids {rows rows' : List Event} {e row : Event} {own : Nat}
    (handled : Handled namespaceId calendarId rows e own rows') (mem : row ∈ rows')
    (here : inCalendar namespaceId calendarId row = true) : row.uid = e.uid ∨
      ∃ old ∈ rows, inCalendar namespaceId calendarId old = true ∧ old.uid = row.uid := by
  obtain ⟨k, at_k⟩ := List.mem_iff_getElem?.mp mem
  by_cases is_own : k = own
  · subst is_own
    obtain ⟨own_row, at_own, -, uid, -⟩ := handled.row
    obtain rfl := Option.some.inj (at_own.symm.trans at_k)
    exact .inl uid
  · obtain ⟨old, at_old, touched⟩ := handled.was is_own at_k
    exact .inr ⟨old, List.mem_of_getElem? at_old, touched.here ▸ here, touched.uid.symm⟩

theorem Kept.entries {start : List Event} {feed : List FeedEvent} {done : List FeedEvent}
    {table : EventTable} (kept : Kept namespaceId calendarId start done table.rows)
    (looked : eventsExist = true ∨ (feed.map (·.event.uid)).Nodup ∧
      ∀ row ∈ table.rows, inCalendar namespaceId calendarId row = true →
        ∀ e ∈ feed, row.uid ≠ e.event.uid) :
    ∃ after : EventTable, after.rows = feed.foldl (fun rows e =>
        handleEvent namespaceId calendarId eventsExist rows e.event) table.rows ∧
      Kept namespaceId calendarId start (done ++ feed) after.rows := by
  induction feed generalizing done table with
  | nil => exact ⟨table, rfl, by rwa [List.append_nil]⟩
  | cons e feed ih =>
    obtain ⟨own, handled⟩ := handleEvent_handled table e kept.one
      (looked.imp id fun fresh row mem here => fresh.2 row mem here e (List.mem_cons_self ..))
    have looked' : eventsExist = true ∨ (feed.map (·.event.uid)).Nodup ∧
        ∀ row ∈ (table.handle namespaceId calendarId eventsExist e).rows,
          inCalendar namespaceId calendarId row = true → ∀ x ∈ feed, row.uid ≠ x.event.uid := by
      refine looked.imp id fun ⟨distinct, absent⟩ => ?_
      rw [List.map_cons, List.nodup_cons] at distinct
      refine ⟨distinct.2, fun row mem here x x_mem same => ?_⟩
      rcases handled.uids mem here with uid | ⟨old, old_mem, old_here, uid⟩
      · exact distinct.1 (List.mem_map.mpr ⟨x, x_mem, same.symm.trans uid⟩)
      · exact absent old old_mem old_here x (List.mem_cons_of_mem e x_mem) (uid.trans same)
    obtain ⟨after, rows, kept'⟩ := ih (kept.entry handled) looked'
    exact ⟨after, rows, by rwa [List.append_cons]⟩

theorem Kept.feeds {start : List Event} {feeds : List (List FeedEvent)} {done : List FeedEvent}
    {table : EventTable} (kept : Kept namespaceId calendarId start done table.rows)
    (distinct : table.rows.any (inCalendar namespaceId calendarId) = false →
      ∀ first, feeds.find? (!·.isEmpty) = some first → (first.map (·.event.uid)).Nodup) :
    Kept namespaceId calendarId start (done ++ feeds.flatten)
      (handleFeeds namespaceId calendarId table.rows feeds) := by
  induction feeds generalizing done table with
  | nil => simpa [handleFeeds] using kept
  | cons feed feeds ih =>
    rw [List.flatten_cons, ← List.append_assoc]
    have looked : table.rows.any (inCalendar namespaceId calendarId) = true ∨
        (feed.map (·.event.uid)).Nodup ∧ ∀ row ∈ table.rows,
          inCalendar namespaceId calendarId row = true → ∀ e ∈ feed, row.uid ≠ e.event.uid := by
      cases empty : table.rows.any (inCalendar namespaceId calendarId) with
      | true => exact .inl rfl
      | false =>
        refine .inr ⟨?_, fun row mem here => absurd here (List.any_eq_false.mp empty row mem)⟩
        cases feed with
        | nil => exact List.nodup_nil
        | cons e feed => exact distinct empty (e :: feed) rfl
    obtain ⟨after, rows, kept'⟩ := kept.entries looked
    rw [handleFeeds, List.foldl_cons, handleEventUpdates, ← rows]
    refine ih kept' fun empty first found => ?_
    rcases List.eq_nil_or_concat feed with rfl | ⟨before, e, rfl⟩
    · rw [rows] at empty
      exact distinct empty first found
    · rw [List.concat_eq_append, ← List.append_assoc] at kept'
      obtain ⟨i, row, shows⟩ := kept'.last (done ++ before) e [] rfl (by simp)
      exact absurd shows.here (List.any_eq_false.mp empty row (List.mem_of_getElem? shows.at_i))

theorem kept_start {rows : List Event} (one : OnePerUid namespaceId calendarId rows) :
    Kept namespaceId calendarId rows [] rows where
  one := one
  last before e after split := by simp at split
  grown := Nat.le_refl _
  origins i row at_i _ := ⟨row, by rw [origin, at_i, Option.some_or], .refl row⟩
  masters i row m at_i master := .inl ⟨row, at_i, master⟩

/-- After its feeds a calendar holds one row for each uid, which carries the last entry for it and keeps
its class, its source and its master. -/
theorem last_entries_kept (table : EventTable) (feeds : List (List FeedEvent))
    (one : OnePerUid namespaceId calendarId table.rows)
    (distinct : table.rows.any (inCalendar namespaceId calendarId) = false →
      ∀ first, feeds.find? (!·.isEmpty) = some first → (first.map (·.event.uid)).Nodup) :
    Kept namespaceId calendarId table.rows feeds.flatten
      (handleFeeds namespaceId calendarId table.rows feeds) :=
  (kept_start one).feeds distinct

theorem two_feeds_kept :
    let a (status : Status) : FeedEvent := ⟨bareEvent ['a'] status .event, ⟨rfl, rfl, rfl⟩⟩
    let b : FeedEvent := ⟨bareEvent ['b'] .confirmed .event, ⟨rfl, rfl, rfl⟩⟩
    Kept 1 1 [] [a .confirmed, b, a .cancelled, a .tentative]
      (handleFeeds 1 1 [] [[a .confirmed, b], [a .cancelled, a .tentative]]) := by
  intro a b
  refine last_entries_kept ⟨[], by simp, by simp⟩ [[a .confirmed, b], [a .cancelled, a .tentative]]
    (by simp [OnePerUid]) fun _ first found => ?_
  obtain rfl : [a .confirmed, b] = first := Option.some.inj found
  decide

/-- A first feed that repeats a uid, which is not looked up there, and an override of which the last
entry says that it is confirmed, cancelled with its master. -/
theorem repeated_and_cancelled :
    (¬∀ feeds : List (List FeedEvent), OnePerUid 1 1 (handleFeeds 1 1 [] feeds)) ∧
    ¬∀ (feeds : List (List FeedEvent)) before (e : FeedEvent) after, feeds.flatten = before ++ e :: after →
      (∀ x ∈ after, x.event.uid ≠ e.event.uid) →
      ∀ row ∈ handleFeeds 1 1 [] feeds, row.uid = e.event.uid → row.status = e.event.status := by
  constructor
  · intro one
    let e : FeedEvent := ⟨bareEvent ['a'] .confirmed .event, by decide⟩
    exact absurd (one [[e, e]] 0 1 _ _ rfl rfl (by decide) (by decide) rfl) (by decide)
  · intro same
    let master (status : Status) := bareEvent ['a'] status (.recurring none none none none)
    let override : FeedEvent := ⟨bareEvent ['b'] .confirmed (.override (some ['a']) (some 0) none), by decide⟩
    let feeds : List (List FeedEvent) :=
      [[⟨master .confirmed, by decide⟩, override], [⟨master .cancelled, by decide⟩]]
    have kept := same feeds [⟨master .confirmed, by decide⟩] override [⟨master .cancelled, by decide⟩] rfl
      (by simp [override, master, bareEvent])
    exact absurd kept (by decide)

end SyncEngine.Events
