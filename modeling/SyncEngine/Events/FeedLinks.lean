import SyncEngine.Events.EventLinks

/-! The feeds of a calendar, entry by entry, and the overrides that they leave without their master. -/
namespace SyncEngine.Events

variable {namespaceId calendarId : Nat} {eventsExist : Bool}

/-! ## The links of the rows -/

theorem link_here (e : Event) : e.link.here namespaceId calendarId = inCalendar namespaceId calendarId e := rfl

theorem one_class (e : Event) (recurring : e.link.recurring = true) : e.link.override = false := by
  unfold Event.link Event.isRecurring at recurring
  unfold Event.link Event.isOverride
  split at recurring
  next kind => simp [kind]
  next => cases recurring

theorem link_setMaster (e : Event) (override : e.isOverride = true) (m : Nat) :
    (e.setMaster m).link = { e.link with master := some m } := by
  unfold Event.isOverride at override
  split at override
  next kind => simp [Event.setMaster, Event.link, Event.isRecurring, Event.isOverride, Event.masterEventUid,
    Event.master, kind]
  next => cases override

theorem link_updateColumns (self : Event) (e : FeedEvent) (same : e.event.uid = self.uid) :
    (self.updateColumns e.event).link = self.link := by
  obtain ⟨namespace_, calendar, -⟩ := e.transient
  simp [Event.updateColumns, Event.link, Event.isRecurring, Event.isOverride, Event.masterEventUid,
    Event.master, namespace_, calendar, same]

/-- A stored row takes over which master it names, and nothing else that links are made of. -/
theorem link_update (self : Event) (e : FeedEvent) (same : e.event.uid = self.uid) :
    (self.update e.event).link = e.event.link.relink self.link := by
  have columns := link_updateColumns self e same
  unfold Event.update
  split
  all_goals
    rename_i self_kind e_kind
    simp_all [Link.relink, Event.link, Event.isRecurring, Event.isOverride, Event.masterEventUid, Event.master]

theorem link_cancelOverrides (rows : List Event) (i : Nat) (event : Event) :
    (cancelOverrides rows i event).map Event.link = rows.map Event.link := by
  unfold cancelOverrides
  split
  · rw [List.map_map]
    refine List.map_congr_left fun o _ => ?_
    rw [Function.comp_apply]
    split <;> rfl
  · rfl

/-! ## Linking, on the rows -/

/-- Nothing is linked to an object that has no namespace: every row has one. -/
theorem linkEvents_transient {rows : List Event} (placed : ∀ l ∈ rows.map Event.link, l.namespace_ ≠ none)
    (e : FeedEvent) : linkEvents rows e.event none = rows := by
  obtain ⟨namespace_, -, -⟩ := e.transient
  replace placed : ∀ row ∈ rows, row.namespace_ ≠ none := fun row mem =>
    placed row.link (List.mem_map_of_mem mem)
  unfold linkEvents
  split
  next =>
    rw [linkOverrides, if_neg]
    rw [Bool.not_eq_true, List.any_eq_false]
    intro o mem
    simp [namespace_, placed o mem]
  next =>
    have no_master : e.event.masterEventUid.bind (findMaster rows e.event) = none := by
      cases e.event.masterEventUid with
      | none => rfl
      | some uid =>
        rw [Option.bind_some, findMaster, List.findIdx?_eq_none_iff]
        intro m mem
        simp [namespace_, placed m mem]
    rw [linkMaster, no_master]
    split <;> rfl
  next => rfl

theorem map_linkOverrides (rows : List Event) (row : Event) (i : Nat)
    (here : inCalendar namespaceId calendarId row = true) :
    (linkOverrides rows row (some i)).map Event.link = (rows.map Event.link).map fun o =>
      if row.link.linkable namespaceId calendarId o then { o with master := some i } else o := by
  simp only [inCalendar, Bool.and_eq_true, decide_eq_true_eq] at here
  rw [linkOverrides, List.map_map, List.map_map]
  refine List.map_congr_left fun o _ => ?_
  have linkable : row.link.linkable namespaceId calendarId o.link =
      (o.isOverride && o.namespace_ = row.namespace_ && o.calendar = row.calendar &&
        o.masterEventUid = some row.uid && o.source = row.source && o.master = none) := by
    rw [here.1, here.2]
    simp only [Link.linkable, link_here, inCalendar, Bool.and_assoc]
    rfl
  rw [Function.comp_apply, Function.comp_apply, linkable]
  split
  next taken =>
    simp only [Bool.and_eq_true] at taken
    exact link_setMaster o taken.1.1.1.1.1 i
  next => rfl

theorem map_findMaster (rows : List Event) (row : Event)
    (here : inCalendar namespaceId calendarId row = true) :
    row.masterEventUid.bind (findMaster rows row) =
      findMasterLink namespaceId calendarId (rows.map Event.link) row.link := by
  simp only [inCalendar, Bool.and_eq_true, decide_eq_true_eq] at here
  unfold findMasterLink findMaster
  rw [here.1, here.2]
  refine congrArg _ (funext fun uid => ?_)
  rw [List.findIdx?_map]
  refine congrArg (List.findIdx? · rows) (funext fun m => ?_)
  rw [Function.comp_apply, link_here, inCalendar]
  rw [← Bool.and_assoc]
  rfl

/-! ## One arrival -/

theorem localEvent_eq (rows : List Event) (uid : Unicode) :
    localEvent namespaceId calendarId eventsExist rows uid =
      findLocal namespaceId calendarId eventsExist (rows.map Event.link) uid := by
  unfold localEvent findLocal
  rw [List.findIdx?_map]
  rfl

theorem modify_concat (rows : List Event) (row : Event) (f : Event → Event) :
    (rows ++ [row]).modify rows.length f = rows ++ [f row] := by
  simp [List.modify_eq_take_drop]

/-- The new row of a recurring event: the overrides that wait for it get it as their master. -/
theorem map_added_recurring (rows : List Event) (row : Event)
    (here : inCalendar namespaceId calendarId row = true) (no_override : row.isOverride = false) :
    (linkOverrides (rows ++ [row]) row (some rows.length)).map Event.link =
      ((rows.map Event.link).map fun o => if row.link.linkable namespaceId calendarId o then
        { o with master := some (rows.map Event.link).length } else o) ++ [row.link] := by
  rw [map_linkOverrides (rows ++ [row]) row rows.length here, List.map_append, List.map_append,
    List.length_map]
  have not_itself : row.link.linkable namespaceId calendarId row.link ≠ true := by
    simp [Link.linkable, Event.link, no_override]
  simp only [List.map_cons, List.map_nil, if_neg not_itself]

/-- The new row of an override: it gets the first recurring event that it names. -/
theorem map_added_override (rows : List Event) (row : Event)
    (here : inCalendar namespaceId calendarId row = true) (no_master : row.master = none)
    (override : row.isOverride = true) (no_recurring : row.isRecurring = false) :
    (linkMaster (rows ++ [row]) row (some rows.length)).map Event.link =
      rows.map Event.link ++ [{ row.link with
        master := findMasterLink namespaceId calendarId (rows.map Event.link) row.link }] := by
  have found : row.masterEventUid.bind (findMaster (rows ++ [row]) row) =
      findMasterLink namespaceId calendarId (rows.map Event.link) row.link := by
    rw [← map_findMaster rows row here]
    refine congrArg _ (funext fun uid => ?_)
    rw [findMaster, findMaster, List.findIdx?_append]
    simp [no_recurring]
  have row_link : row.link = { row.link with master := none } := by
    rw [← no_master]
    rfl
  rw [linkMaster, if_neg (by simp [no_master]), found]
  split
  next none_found =>
    rw [none_found, List.map_append, List.map_singleton, ← row_link]
  next m some_found =>
    rw [some_found]
    simp only [modify_concat, List.map_append, List.map_singleton, link_setMaster row override m]

theorem map_added (rows : List Event) (row : Event) (here : inCalendar namespaceId calendarId row = true)
    (no_master : row.master = none) :
    (linkEvents (rows ++ [row]) row (some rows.length)).map Event.link =
      if row.link.recurring then
        ((rows.map Event.link).map fun o => if row.link.linkable namespaceId calendarId o then
          { o with master := some (rows.map Event.link).length } else o) ++ [row.link]
      else if row.link.override then
        rows.map Event.link ++ [{ row.link with
          master := findMasterLink namespaceId calendarId (rows.map Event.link) row.link }]
      else rows.map Event.link ++ [row.link] := by
  have recurring_link : row.link.recurring = row.isRecurring := rfl
  have override_link : row.link.override = row.isOverride := rfl
  unfold linkEvents
  split
  next kind =>
    have recurring : row.isRecurring = true := by simp [Event.isRecurring, kind]
    have no_override : row.isOverride = false := by simp [Event.isOverride, kind]
    rw [recurring_link, if_pos recurring, map_added_recurring rows row here no_override]
  next kind =>
    have no_recurring : row.isRecurring = false := by simp [Event.isRecurring, kind]
    have override : row.isOverride = true := by simp [Event.isOverride, kind]
    rw [recurring_link, no_recurring, if_neg Bool.false_ne_true, override_link, if_pos override,
      map_added_override rows row here no_master override no_recurring]
  next kind =>
    have no_recurring : row.isRecurring = false := by simp [Event.isRecurring, kind]
    have no_override : row.isOverride = false := by simp [Event.isOverride, kind]
    rw [recurring_link, no_recurring, if_neg Bool.false_ne_true, override_link, no_override,
      if_neg Bool.false_ne_true, List.map_append, List.map_singleton]

/-- The stored row of an event: it takes over which master the event names. -/
theorem map_updated {rows : List Event} (i : Nat) (e : FeedEvent)
    (found : findLocal namespaceId calendarId eventsExist (rows.map Event.link) e.event.uid = some i) :
    ((cancelOverrides rows i e.event).modify i fun row =>
        { row.update e.event with participants := e.event.participants }).map Event.link =
      (rows.map Event.link).modify i e.event.link.relink := by
  obtain ⟨l, at_i, -, uid⟩ := findLocal_some found
  refine List.ext_getElem? fun k => ?_
  rw [← link_cancelOverrides rows i e.event, List.getElem?_map, List.getElem?_modify, List.getElem?_modify,
    List.getElem?_map]
  by_cases same : i = k
  · subst same
    rw [← link_cancelOverrides rows i e.event, List.getElem?_map] at at_i
    obtain ⟨row, at_row, rfl⟩ := Option.map_eq_some_iff.mp at_i
    simp only [at_row, if_true, Option.map_eq_map, Option.map_some]
    exact congrArg some (link_update row e uid.symm)
  · simp [same]

/-- The loop's body does with links what an arrival does. -/
theorem link_handleEvent {rows : List Event} (stored : Stored (rows.map Event.link))
    (e : FeedEvent) : (handleEvent namespaceId calendarId eventsExist rows e.event).map Event.link =
      arrive namespaceId calendarId eventsExist (rows.map Event.link) e.event.link := by
  rw [handleEvent, arrive, localEvent_eq, show e.event.link.uid = e.event.uid from rfl]
  cases found : findLocal namespaceId calendarId eventsExist (rows.map Event.link) e.event.uid with
  | some i =>
    have updated := map_updated i e found
    simp only
    rw [linkEvents_transient, updated]
    rw [updated]
    exact (stored.modify e.event.link i).placed
  | none =>
    have here : inCalendar namespaceId calendarId (newRow namespaceId calendarId e.event) = true := by
      simp [inCalendar, newRow]
    exact map_added rows _ here e.transient.2.2

theorem EventTable.stored (table : EventTable) : Stored (table.rows.map Event.link) where
  placed := List.forall_mem_map.mpr table.placed
  keyed := List.forall_mem_map.mpr fun row mem m key => by
    rw [List.length_map]
    exact table.keyed row mem m key

theorem stored_rows {rows : List Event} (stored : Stored (rows.map Event.link)) :
    (∀ row ∈ rows, row.namespace_ ≠ none) ∧ ∀ row ∈ rows, ∀ m, row.master = some m → m < rows.length := by
  refine ⟨fun row mem => stored.placed row.link (List.mem_map_of_mem mem), fun row mem m key => ?_⟩
  have inside := stored.keyed row.link (List.mem_map_of_mem mem) m key
  rwa [List.length_map] at inside

theorem handleEvent_rows (table : EventTable) (e : FeedEvent) :
    (∀ row ∈ handleEvent namespaceId calendarId eventsExist table.rows e.event, row.namespace_ ≠ none) ∧
    ∀ row ∈ handleEvent namespaceId calendarId eventsExist table.rows e.event, ∀ m, row.master = some m →
      m < (handleEvent namespaceId calendarId eventsExist table.rows e.event).length := by
  apply stored_rows
  rw [link_handleEvent table.stored e]
  exact table.stored.arrive e.transient.2.2

/-! ## The entries of the feeds, one after the other -/

/-- What the loops over the feeds meet: that a feed begins, and its entries. -/
inductive FeedStep where
  | feed
  | entry (e : FeedEvent)

def feedSteps (feeds : List (List FeedEvent)) : List FeedStep :=
  feeds.flatMap fun feed => .feed :: feed.map .entry

/-- The table, and whether the calendar held events when the feed began. -/
structure FeedSync where
  eventsExist : Bool
  table : EventTable

variable (namespaceId calendarId : Nat)

def EventTable.handle (eventsExist : Bool) (table : EventTable) (e : FeedEvent) : EventTable :=
  ⟨handleEvent namespaceId calendarId eventsExist table.rows e.event, (handleEvent_rows table e).1,
    (handleEvent_rows table e).2⟩

def FeedSync.step (sync : FeedSync) : FeedStep → FeedSync
  | .feed => { sync with eventsExist := sync.table.rows.any (inCalendar namespaceId calendarId) }
  | .entry e => { sync with table := sync.table.handle namespaceId calendarId sync.eventsExist e }

def runFeeds (table : EventTable) (steps : List FeedStep) : FeedSync :=
  steps.foldl (FeedSync.step namespaceId calendarId) ⟨false, table⟩

/-- Every override of the calendar has as its master the stored recurring event whose uid is its
`master_event_uid`. -/
def MastersFound (rows : List Event) : Prop :=
  ∀ (j : Nat) (o : Event), rows[j]? = some o → inCalendar namespaceId calendarId o = true →
    o.isOverride = true → ∀ (k : Nat) (r : Event), rows[k]? = some r →
      inCalendar namespaceId calendarId r = true → r.isRecurring = true → o.masterEventUid = some r.uid →
        o.master = some k

variable {namespaceId calendarId}

theorem mastersFound_iff {rows : List Event} : MastersFound namespaceId calendarId rows ↔
    Linked namespaceId calendarId (rows.map Event.link) := by
  constructor
  · intro found j o' at_j here override k r' at_k named
    rw [List.getElem?_map] at at_j at_k
    obtain ⟨o, at_o, rfl⟩ := Option.map_eq_some_iff.mp at_j
    obtain ⟨r, at_r, rfl⟩ := Option.map_eq_some_iff.mp at_k
    exact found j o at_o here override k r at_r named.1 named.2.1 named.2.2
  · intro linked j o at_o here override k r at_r r_here recurring uid
    exact linked j o.link (by simp [at_o]) here override k r.link (by simp [at_r]) ⟨r_here, recurring, uid⟩

theorem run_append (table : EventTable) (before : List FeedStep) (step : FeedStep) :
    runFeeds namespaceId calendarId table (before ++ [step]) =
      (runFeeds namespaceId calendarId table before).step namespaceId calendarId step := by
  simp [runFeeds]

/-- The loops of the source go through the steps. -/
theorem run_steps (table : EventTable) (feeds : List (List FeedEvent)) :
    (runFeeds namespaceId calendarId table (feedSteps feeds)).table.rows =
      handleFeeds namespaceId calendarId table.rows feeds := by
  have entries (exist : Bool) (table : EventTable) (feed : List FeedEvent) :
      ((feed.map FeedStep.entry).foldl (FeedSync.step namespaceId calendarId) ⟨exist, table⟩).table.rows =
        feed.foldl (fun rows e => handleEvent namespaceId calendarId exist rows e.event) table.rows := by
    induction feed generalizing table with
    | nil => rfl
    | cons e feed ih => exact ih _
  unfold runFeeds
  generalize false = exist
  induction feeds generalizing exist table with
  | nil => rfl
  | cons feed feeds ih =>
    rw [feedSteps, List.flatMap_cons, List.foldl_append, List.foldl_cons]
    refine (ih _ _).trans ?_
    exact congrArg (handleFeeds namespaceId calendarId · feeds) (entries _ table feed)

/-- Overrides have their masters at every moment exactly if they had them at first and every entry is
sound when it comes: what the lookup finds already stored is never linked, only its object is. -/
theorem overrides_find_masters_iff (table : EventTable) (feeds : List (List FeedEvent)) :
    (∀ before, before <+: feedSteps feeds →
      MastersFound namespaceId calendarId (runFeeds namespaceId calendarId table before).table.rows) ↔
    MastersFound namespaceId calendarId table.rows ∧
      ∀ before e, before ++ [.entry e] <+: feedSteps feeds →
        Sound namespaceId calendarId (runFeeds namespaceId calendarId table before).eventsExist
          ((runFeeds namespaceId calendarId table before).table.rows.map Event.link) e.event.link := by
  have arrival (before : List FeedStep) (e : FeedEvent)
      (found : MastersFound namespaceId calendarId (runFeeds namespaceId calendarId table before).table.rows) :
      MastersFound namespaceId calendarId
          (runFeeds namespaceId calendarId table (before ++ [.entry e])).table.rows ↔
        Sound namespaceId calendarId (runFeeds namespaceId calendarId table before).eventsExist
          ((runFeeds namespaceId calendarId table before).table.rows.map Event.link) e.event.link := by
    have stored := (runFeeds namespaceId calendarId table before).table.stored
    rw [run_append, ← linked_arrive (mastersFound_iff.mp found) stored (one_class e.event),
      ← link_handleEvent stored e, mastersFound_iff]
    rfl
  constructor
  · intro always
    refine ⟨always [] List.nil_prefix, fun before e reached => ?_⟩
    have earlier : before <+: feedSteps feeds := (List.prefix_append before _).trans reached
    exact (arrival before e (always before earlier)).mp (always _ reached)
  · rintro ⟨initially, sound⟩ before
    induction before using List.reverseRecOn with
    | nil => exact fun _ => initially
    | append_singleton before step ih =>
      intro reached
      have found := ih ((List.prefix_append before _).trans reached)
      cases step with
      | feed =>
        rw [run_append]
        exact found
      | entry e => exact (arrival before e found).mpr (sound before e reached)

/-- Two recurring events and an override of the first; then the override is one of the second, and the
stored row says so, but has the first as its master still. -/
theorem override_of_another_event : ¬∀ (table : EventTable) (feeds : List (List FeedEvent)),
    MastersFound 1 1 (handleFeeds 1 1 table.rows feeds) := by
  intro found
  let recurring (uid : Unicode) := bareEvent uid .confirmed (.recurring none none none none)
  let override (masterUid : Unicode) := bareEvent ['o'] .confirmed (.override (some masterUid) (some 0) none)
  let feeds : List (List FeedEvent) :=
    [[⟨recurring ['a'], by decide⟩, ⟨recurring ['b'], by decide⟩, ⟨override ['a'], by decide⟩],
      [⟨override ['b'], by decide⟩]]
  have second := found ⟨[], by simp, by simp⟩ feeds 2 _ rfl (by decide) (by decide) 1 _ rfl (by decide)
    (by decide) (by decide)
  exact absurd second (by decide)

end SyncEngine.Events
