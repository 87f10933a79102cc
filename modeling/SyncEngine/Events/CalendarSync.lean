import Mathlib.Data.Int.Order.Basic
import SyncEngine.Events.FeedEntries
import SyncEngine.Events.PushNotifications
import SyncEngine.Util.ChangeLog

/-! The syncs of the events of a Google calendar: the pages of a listing of what has changed since the
last sync, the errors in between, the loop over the events and its batches of commits. The calendar
changes all the time. Times are in microseconds. -/
namespace SyncEngine.Events
namespace CalendarSync
open ChangeLog Push

/-- An item of a page, and the event that `parse_event_response` makes of it, if it can be parsed. -/
structure RawEvent where
  id : Unicode
  parsed : Option FeedEvent
  named : ∀ e ∈ parsed, e.event.uid = id

def RawEvent.parseable (item : RawEvent) : Bool := item.parsed.isSome

structure Page (Token : Type) where
  items : List RawEvent
  nextPageToken : Option Token

/-- The resource that is listed: the page it answers with, of the changes so far and the parameters
`updatedMin` and `pageToken`. -/
structure EventsResource where
  Token : Type
  page : List (Change RawEvent Int) → Option Int → Option Token → Page Token

/-- The answers of one listing, page by page, from when the log is `first`. -/
inductive EventsResource.Lists (resource : EventsResource) (updatedMin : Option Int)
    (first : List (Change RawEvent Int)) :
    List (Change RawEvent Int) → List RawEvent → Option resource.Token → Prop
  | first : resource.Lists updatedMin first first (resource.page first updatedMin none).items
      (resource.page first updatedMin none).nextPageToken
  | next {now later items token} : resource.Lists updatedMin first now items (some token) → now <+: later →
      resource.Lists updatedMin first later (items ++ (resource.page later updatedMin (some token)).items)
        (resource.page later updatedMin (some token)).nextPageToken

/-- A listing, once its last page is there, has every event that had changed since `updatedMin` when it
began, each as it was at some point since. -/
def EventsResource.Faithful (resource : EventsResource) : Prop :=
  ∀ updatedMin first last items now, Ordered last now → resource.Lists updatedMin first last items none →
    first <+: last ∧ Recent RawEvent.id last first.length items ∧
      Complete RawEvent.id last first.length updatedMin items

inductive Answer where
  | page
  | sslError
  | httpError (statusCode : Nat) (reason : Option String)

/-- A call of `_get_raw_events`. Nothing of the code reads `begun`: how many changes there were, and the
time, when the first page was answered. -/
structure Listing (Token : Type) where
  updatedMin : Option Int
  refetching : Bool
  nextPageToken : Option Token
  items : List RawEvent
  begun : Option (Nat × Int)

/-- The answers after which `_get_resource_list` makes the same request again. -/
def retried (statusCode : Nat) (reason : Option String) : Bool :=
  if statusCode = 401 then true
  else if statusCode = 500 ∨ statusCode = 503 then true
  else statusCode = 403 && reason = some "userRateLimitExceeded"

def Listing.get {Token : Type} (updatedMin : Option Int) (refetching : Bool) : Listing Token where
  updatedMin := updatedMin
  refetching := refetching
  nextPageToken := none
  items := []
  begun := none

/-- `none` if the error is raised. -/
def Listing.httpError {Token : Type} (listing : Listing Token) (statusCode : Nat)
    (reason : Option String) : Option (Listing Token) :=
  if retried statusCode reason then some listing
  -- `except requests.exceptions.HTTPError`, of which the second call is outside
  else if statusCode = 410 ∧ listing.refetching = false then some (.get none true)
  else none

/-- What the sync does: nothing, `sync_events` or `handle_event_updates`. The latter's session has rows
that are not committed. Nothing of the code reads `read`, the items that are handled. -/
inductive Progress (Token : Type) where
  | idle
  | listing (syncTimestamp : Int) (listing : Listing Token)
  | handling (syncTimestamp : Int) (begun : Nat × Int) (eventsExist : Bool) (session : EventTable)
      (read : List RawEvent) (count : Nat) (events : List RawEvent)

/-- Nothing of the code reads `read`, the items that the committed rows are made of, or `synced`: when the
first page of each complete sync was answered, and the `last_synced` that it stored. -/
structure State (Token : Type) where
  now : Int
  log : List (Change RawEvent Int)
  table : EventTable
  lastSynced : Option Int
  progress : Progress Token
  read : List RawEvent
  synced : List (Int × Int)

inductive Action where
  | change (item : RawEvent)
  | begin (utcnow : Int)
  | answer (answer : Answer)
  | handle
  | finish
  | abort

structure Step where
  time : Int
  action : Action

section
variable (resource : EventsResource) (column : DateTimeColumn) (namespaceId calendarId : Nat)

/-- The next page of the listing is there. -/
def answered (s : State resource.Token) (syncTimestamp : Int) (listing : Listing resource.Token) :
    Progress resource.Token :=
  let page := resource.page s.log listing.updatedMin listing.nextPageToken
  let items := listing.items ++ page.items
  let begun := listing.begun.getD (s.log.length, s.now)
  match page.nextPageToken with
  | some token => .listing syncTimestamp { listing with nextPageToken := some token, items, begun }
  | none =>
    .handling syncTimestamp begun (s.table.rows.any (inCalendar namespaceId calendarId)) s.table s.read 0
      (items.filter RawEvent.parseable)

/-- One turn of the loop of `handle_event_updates`. -/
def handled (s : State resource.Token) (syncTimestamp : Int) (begun : Nat × Int) (eventsExist : Bool)
    (session : EventTable) (read : List RawEvent) (count : Nat) (item : RawEvent) (events : List RawEvent) :
    State resource.Token :=
  let session := match item.parsed with
    | some event => session.handle namespaceId calendarId eventsExist event
    | none => session
  let read := read ++ [item]
  let count := count + 1
  let s := if count % 10 = 0 then { s with table := session, read } else s
  { s with progress := .handling syncTimestamp begun eventsExist session read count events }

/-- An event of the calendar is changed, the sync takes its next step, or it stops: an exception is raised
or the process ends. -/
def apply (s : State resource.Token) (action : Action) : Option (State resource.Token) :=
  match action, s.progress with
  | .change item, _ => some { s with log := s.log ++ [⟨s.now, item⟩] }
  | .begin utcnow, .idle => some { s with progress := .listing utcnow (.get s.lastSynced false) }
  | .answer .page, .listing syncTimestamp listing =>
    some { s with progress := answered resource namespaceId calendarId s syncTimestamp listing }
  | .answer .sslError, .listing .. => some s
  | .answer (.httpError statusCode reason), .listing syncTimestamp listing =>
    some { s with progress := match listing.httpError statusCode reason with
      | some listing => .listing syncTimestamp listing
      | none => .idle }
  | .handle, .handling syncTimestamp begun eventsExist session read count (item :: events) =>
    some (handled resource namespaceId calendarId s syncTimestamp begun eventsExist session read count item
      events)
  | .finish, .handling syncTimestamp begun _ session read _ [] => some { s with
      table := session
      lastSynced := some (column.keeps syncTimestamp)
      progress := .idle
      read
      synced := (begun.2, column.keeps syncTimestamp) :: s.synced }
  | .abort, _ => some { s with progress := .idle }
  | _, _ => none

def step (s : State resource.Token) (step : Step) : Option (State resource.Token) :=
  if s.now ≤ step.time then apply resource column namespaceId calendarId { s with now := step.time } step.action
  else none

end

/-- A calendar that has never been synced. -/
def start (Token : Type) (now : Int) (table : EventTable) : State Token where
  now := now
  log := []
  table := table
  lastSynced := none
  progress := .idle
  read := []
  synced := []

/-- The first feed of an empty calendar names no event twice. -/
def Distinct {Token : Type} (_ : State Token) (_ : Step) (next : State Token) : Prop :=
  match next.progress with
  | .handling _ _ false _ _ _ events => (events.map RawEvent.id).Nodup
  | _ => True

instance {Token : Type} (s : State Token) (taken : Step) (next : State Token) :
    Decidable (Distinct s taken next) := by
  unfold Distinct
  split <;> infer_instance

/-- The row of the event of the change at `p` shows that change or a later one to the event, of which the
entry was the last that was handled: with its status, unless an entry after it cancelled the row's master.
Class and source are those of the `initial` row, or of the first entry if there was none. -/
def Stored {Token : Type} (namespaceId calendarId : Nat) (initial : List Event) (s : State Token) (p : Nat) :
    Prop :=
  ∀ change, s.log[p]? = some change → ∃ q later event, p ≤ q ∧ s.log[q]? = some later ∧
    later.item.id = change.item.id ∧ later.item.parsed = some event ∧
      ∃ before after, s.read = before ++ later.item :: after ∧ (∀ item ∈ after, item.id ≠ change.item.id) ∧
        ∃ i row, Shows namespaceId calendarId s.table.rows event.event (after.filterMap RawEvent.parsed) i row ∧
          ∃ o, origin initial (s.read.filterMap RawEvent.parsed) i change.item.id = some o ∧ Descends o row

/-! ## What every state keeps -/

section Invariant
variable {resource : EventsResource} {column : DateTimeColumn} {namespaceId calendarId : Nat}
  {s : State resource.Token} {log : List (Change RawEvent Int)} {synced : List (Int × Int)}
  {initial : List Event} {lastSynced : Option Int} {now : Int} {n covered : Nat} {begun : Nat × Int}
  {read events : List RawEvent}

/-- Of the first `n` changes, those that no sync missed have been read. -/
def CaughtUp (log : List (Change RawEvent Int)) (synced : List (Int × Int)) (read : List RawEvent)
    (n : Nat) : Prop :=
  ∀ p < n, ∀ change, log[p]? = some change → ¬Missed synced change.time →
    ReadableFrom RawEvent.id RawEvent.parseable log p → UpToDate RawEvent.id log read p

/-- The first page of a listing was answered when there were `begun.1` changes, the first `covered` of which
had been synced. -/
structure Begun (log : List (Change RawEvent Int)) (now : Int) (covered : Nat) (begun : Nat × Int) :
    Prop where
  after : covered ≤ begun.1
  inside : begun.1 ≤ log.length
  past : begun.2 ≤ now
  since : From log begun.1 begun.2

/-- What a listing has so far. -/
def Listed (resource : EventsResource) (log : List (Change RawEvent Int)) (lastSynced : Option Int)
    (now : Int) (covered : Nat) (listing : Listing resource.Token) : Prop :=
  (∀ time ∈ listing.updatedMin, time ∈ lastSynced) ∧
    (listing.begun = none ∧ listing.items = [] ∧ listing.nextPageToken = none ∨
      ∃ begun token was, listing.begun = some begun ∧ Begun log now covered begun ∧
        listing.nextPageToken = some token ∧ was <+: log ∧
          resource.Lists listing.updatedMin (log.take begun.1) was listing.items (some token))

/-- What the loop over the events has done and is still to do. -/
structure Handling (namespaceId calendarId : Nat) (initial : List Event)
    (log : List (Change RawEvent Int)) (synced : List (Int × Int)) (now : Int) (covered : Nat)
    (begun : Nat × Int) (eventsExist : Bool) (session : EventTable) (read events : List RawEvent) : Prop where
  begins : Begun log now covered begun
  kept : Kept namespaceId calendarId initial (read.filterMap RawEvent.parsed) session.rows
  recent : Recent RawEvent.id log begun.1 events
  parseable : ∀ item ∈ events, item.parseable = true
  before : CaughtUp log synced read covered
  after : CaughtUp log synced (read ++ events) begun.1
  looked : eventsExist = true ∨ (events.map RawEvent.id).Nodup ∧
    ∀ row ∈ session.rows, inCalendar namespaceId calendarId row = true → ∀ item ∈ events, row.uid ≠ item.id

def Going (resource : EventsResource) (namespaceId calendarId : Nat) (initial : List Event)
    (log : List (Change RawEvent Int)) (synced : List (Int × Int)) (lastSynced : Option Int) (now : Int)
    (covered : Nat) : Progress resource.Token → Prop
  | .idle => True
  | .listing _ listing => Listed resource log lastSynced now covered listing
  | .handling _ begun eventsExist session read _ events =>
    Handling namespaceId calendarId initial log synced now covered begun eventsExist session read events

/-- The first `covered` changes were there when the listing of the last complete sync began. -/
structure Sound (resource : EventsResource) (namespaceId calendarId : Nat) (initial : List Event)
    (s : State resource.Token) (covered : Nat) : Prop where
  ordered : Ordered s.log s.now
  kept : Kept namespaceId calendarId initial (s.read.filterMap RawEvent.parsed) s.table.rows
  inside : covered ≤ s.log.length
  since : ∀ sync ∈ s.synced, sync.1 ≤ s.now ∧ From s.log covered sync.1
  mark : ∀ time ∈ s.lastSynced, ∃ read, (read, time) ∈ s.synced
  caughtUp : CaughtUp s.log s.synced s.read covered
  going : Going resource namespaceId calendarId initial s.log s.synced s.lastSynced s.now covered s.progress

/-! ### Time and changes -/

theorem Begun.later (begins : Begun log now covered begun) {time : Int} (goes : now ≤ time) :
    Begun log time covered begun :=
  { begins with past := Int.le_trans begins.past goes }

theorem Going.later {progress : Progress resource.Token}
    (going : Going resource namespaceId calendarId initial log synced lastSynced now covered progress)
    {time : Int} (goes : now ≤ time) :
    Going resource namespaceId calendarId initial log synced lastSynced time covered progress := by
  cases progress with
  | idle => trivial
  | listing syncTimestamp listing =>
    obtain ⟨within, fresh | ⟨begun, token, was, is_begun, begins, rest⟩⟩ := going
    · exact ⟨within, .inl fresh⟩
    · exact ⟨within, .inr ⟨begun, token, was, is_begun, begins.later goes, rest⟩⟩
  | handling syncTimestamp begun eventsExist session read count events =>
    have handling : Handling .. := going
    exact { handling with begins := handling.begins.later goes }

theorem Sound.later (sound : Sound resource namespaceId calendarId initial s covered) {time : Int}
    (goes : s.now ≤ time) : Sound resource namespaceId calendarId initial { s with now := time } covered where
  ordered := sound.ordered.until goes
  kept := sound.kept
  inside := sound.inside
  since sync member := ⟨Int.le_trans (sound.since sync member).1 goes, (sound.since sync member).2⟩
  mark := sound.mark
  caughtUp := sound.caughtUp
  going := sound.going.later goes

theorem CaughtUp.changed (caughtUp : CaughtUp log synced read n) (inside : n ≤ log.length)
    (change : Change RawEvent Int) : CaughtUp (log ++ [change]) synced read n := by
  intro p before _ at_p caught readable
  have grown : log <+: log ++ [change] := List.prefix_append ..
  have within := Nat.lt_of_lt_of_le before inside
  rw [getElem?_before grown within] at at_p
  exact (caughtUp p before _ at_p caught (readable.before grown)).grown grown within

theorem Begun.changed (begins : Begun log now covered begun) (item : RawEvent) :
    Begun (log ++ [⟨now, item⟩]) now covered begun where
  after := begins.after
  inside := by
    have := begins.inside
    simp only [List.length_append, List.length_singleton]
    omega
  past := begins.past
  since := begins.since.changed begins.past item

theorem Going.changed {progress : Progress resource.Token}
    (going : Going resource namespaceId calendarId initial log synced lastSynced now covered progress)
    (item : RawEvent) :
    Going resource namespaceId calendarId initial (log ++ [⟨now, item⟩]) synced lastSynced now covered
      progress := by
  have grown : log <+: log ++ [⟨now, item⟩] := List.prefix_append ..
  cases progress with
  | idle => trivial
  | listing syncTimestamp listing =>
    obtain ⟨within, fresh | ⟨begun, token, was, is_begun, begins, more, within_log, lists⟩⟩ := going
    · exact ⟨within, .inl fresh⟩
    · refine ⟨within, .inr ⟨begun, token, was, is_begun, begins.changed item, more, within_log.trans grown, ?_⟩⟩
      rwa [List.take_append_of_le_length begins.inside]
  | handling syncTimestamp begun eventsExist session read count events =>
    have handling : Handling .. := going
    exact
      { begins := handling.begins.changed item
        kept := handling.kept
        recent := handling.recent.grown grown
        parseable := handling.parseable
        before := handling.before.changed (Nat.le_trans handling.begins.after handling.begins.inside) _
        after := handling.after.changed handling.begins.inside _
        looked := handling.looked }

theorem Sound.changed (sound : Sound resource namespaceId calendarId initial s covered) (item : RawEvent) :
    Sound resource namespaceId calendarId initial { s with log := s.log ++ [⟨s.now, item⟩] } covered where
  ordered := sound.ordered.changed item
  kept := sound.kept
  inside := by
    have := sound.inside
    simp only [List.length_append, List.length_singleton]
    omega
  since sync member := ⟨(sound.since sync member).1,
    (sound.since sync member).2.changed (sound.since sync member).1 item⟩
  mark := sound.mark
  caughtUp := sound.caughtUp.changed sound.inside _
  going := sound.going.changed item

/-- Nothing is lost when a sync stops. -/
theorem Sound.idle (sound : Sound resource namespaceId calendarId initial s covered) :
    Sound resource namespaceId calendarId initial { s with progress := .idle } covered :=
  { sound with going := trivial }

theorem Sound.begin (sound : Sound resource namespaceId calendarId initial s covered) (utcnow : Int) :
    Sound resource namespaceId calendarId initial { s with progress := .listing utcnow (.get s.lastSynced false) }
      covered :=
  { sound with going := ⟨fun _ member => member, .inl ⟨rfl, rfl, rfl⟩⟩ }

/-! ### The listing -/

/-- The answer is one more page of the listing. -/
theorem Listed.answered {listing : Listing resource.Token} (inside : covered ≤ log.length)
    (listed : Listed resource log lastSynced now covered listing) :
    Begun log now covered (listing.begun.getD (log.length, now)) ∧
      resource.Lists listing.updatedMin (log.take (listing.begun.getD (log.length, now)).1) log
        (listing.items ++ (resource.page log listing.updatedMin listing.nextPageToken).items)
        (resource.page log listing.updatedMin listing.nextPageToken).nextPageToken := by
  obtain ⟨-, ⟨fresh, no_items, no_token⟩ | ⟨begun, token, was, is_begun, begins, more, grown, lists⟩⟩ := listed
  · rw [fresh, no_items, no_token]
    refine ⟨⟨inside, Nat.le_refl _, Int.le_refl _, from_length log now⟩, ?_⟩
    rw [Option.getD_none, List.take_length, List.nil_append]
    exact .first
  · rw [is_begun, more, Option.getD_some]
    exact ⟨begins, .next lists grown⟩

theorem Sound.caughtUp_listed {items : List RawEvent} {updatedMin : Option Int}
    (sound : Sound resource namespaceId calendarId initial s covered)
    (within : ∀ time ∈ updatedMin, time ∈ s.lastSynced)
    (recent : Recent RawEvent.id s.log begun.1 items)
    (complete : Complete RawEvent.id s.log begun.1 updatedMin items) :
    CaughtUp s.log s.synced (s.read ++ items.filter RawEvent.parseable) begun.1 := by
  intro p before change at_p caught readable
  by_cases old : p < covered
  · exact (sound.caughtUp p old change at_p caught readable).read
      (recent.subset (List.filter_subset_self _)) before
  · refine upToDate_listed recent complete before ?_ readable
    intro same at_p' time member
    obtain rfl := Option.some.inj (at_p.symm.trans at_p')
    obtain ⟨read, among⟩ := sound.mark time (within time member)
    exact mark_le (sound.since _ among).2 among at_p (Nat.not_lt.mp old) caught

theorem Sound.answered (faithful : resource.Faithful)
    (sound : Sound resource namespaceId calendarId initial s covered) {syncTimestamp : Int}
    {listing : Listing resource.Token} (listed : Listed resource s.log s.lastSynced s.now covered listing)
    {next : State resource.Token} (next_def : next = { s with
      progress := answered resource namespaceId calendarId s syncTimestamp listing })
    {taken : Step} (distinct : Distinct s taken next) :
    Sound resource namespaceId calendarId initial next covered := by
  obtain ⟨begins, lists⟩ := listed.answered sound.inside
  suffices Going resource namespaceId calendarId initial s.log s.synced s.lastSynced s.now covered
      (CalendarSync.answered resource namespaceId calendarId s syncTimestamp listing) by
    rw [next_def]
    exact { sound with going := this }
  rw [Distinct, next_def] at distinct
  unfold CalendarSync.answered at distinct ⊢
  dsimp only at distinct ⊢
  cases more : (resource.page s.log listing.updatedMin listing.nextPageToken).nextPageToken with
  | some token =>
    rw [more] at lists
    exact ⟨listed.1, .inr ⟨_, token, s.log, rfl, begins, rfl, List.prefix_rfl, lists⟩⟩
  | none =>
    rw [more] at lists distinct
    obtain ⟨first, recent, complete⟩ := faithful _ _ _ _ s.now sound.ordered lists
    rw [List.length_take_of_le begins.inside] at recent complete
    have few : Recent RawEvent.id s.log _ (List.filter RawEvent.parseable _) :=
      recent.subset (List.filter_subset_self _)
    refine
      { begins, kept := sound.kept, recent := few, parseable := fun item member => (List.mem_filter.mp member).2
        before := sound.caughtUp
        after := sound.caughtUp_listed listed.1 recent complete
        looked := ?_ }
    cases empty : s.table.rows.any (inCalendar namespaceId calendarId) with
    | true => exact .inl rfl
    | false =>
      rw [empty] at distinct
      exact .inr ⟨distinct, fun row member here => absurd here (List.any_eq_false.mp empty row member)⟩

/-- An error leaves the listing as it is, begins the full one or ends the sync. -/
theorem Listed.httpError {listing next : Listing resource.Token} {statusCode : Nat} {reason : Option String}
    (listed : Listed resource log lastSynced now covered listing)
    (handled : listing.httpError statusCode reason = some next) :
    Listed resource log lastSynced now covered next := by
  unfold Listing.httpError at handled
  split at handled
  · exact Option.some.inj handled ▸ listed
  · split at handled
    · rw [← Option.some.inj handled]
      exact ⟨by simp [Listing.get], .inl ⟨rfl, rfl, rfl⟩⟩
    · cases handled

/-! ### The events -/

/-- The row of one more event is written. -/
theorem Handling.handled {eventsExist : Bool} {session : EventTable} {item : RawEvent} {event : FeedEvent}
    (handling : Handling namespaceId calendarId initial log synced now covered begun eventsExist session read
      (item :: events)) (parsed : item.parsed = some event) :
    Handling namespaceId calendarId initial log synced now covered begun eventsExist
      (session.handle namespaceId calendarId eventsExist event) (read ++ [item]) events := by
  have uid : event.event.uid = item.id := item.named event parsed
  have one : Recent RawEvent.id log begun.1 [item] := handling.recent.subset (by simp)
  obtain ⟨own, handled⟩ := handleEvent_handled session event handling.kept.one
    (handling.looked.imp id fun fresh row member here => uid ▸ fresh.2 row member here item List.mem_cons_self)
  refine
    { begins := handling.begins
      kept := ?_
      recent := handling.recent.subset (List.subset_cons_self ..)
      parseable := fun other member => handling.parseable other (List.mem_cons_of_mem item member)
      before := ?_
      after := by simpa using handling.after
      looked := handling.looked.imp id fun fresh => ?_ }
  · rw [List.filterMap_append, List.filterMap_cons, parsed]
    exact handling.kept.entry handled
  · intro p before change at_p caught readable
    exact (handling.before p before change at_p caught readable).read one
      (Nat.lt_of_lt_of_le before handling.begins.after)
  · obtain ⟨distinct, absent⟩ := fresh
    rw [List.map_cons, List.nodup_cons] at distinct
    refine ⟨distinct.2, fun row member here other among same => ?_⟩
    rcases handled.uids member here with its_own | ⟨old, old_member, old_here, old_uid⟩
    · exact distinct.1 (List.mem_map.mpr ⟨other, among, by rw [← same, its_own, uid]⟩)
    · exact absent old old_member old_here other (List.mem_cons_of_mem item among) (old_uid.trans same)

theorem Sound.handled {syncTimestamp : Int} {eventsExist : Bool} {session : EventTable} {count : Nat}
    {item : RawEvent} (sound : Sound resource namespaceId calendarId initial s covered)
    (handling : Handling namespaceId calendarId initial s.log s.synced s.now covered begun eventsExist session read
      (item :: events)) :
    Sound resource namespaceId calendarId initial (handled resource namespaceId calendarId s syncTimestamp begun
      eventsExist session read count item events) covered := by
  obtain ⟨event, parsed⟩ := Option.isSome_iff_exists.mp (handling.parseable item List.mem_cons_self)
  have next := handling.handled parsed
  unfold CalendarSync.handled
  rw [parsed]
  dsimp only
  split
  · exact { sound with kept := next.kept, caughtUp := next.before, going := next }
  · exact { sound with going := next }

theorem Sound.finish {syncTimestamp : Int} {eventsExist : Bool} {session : EventTable}
    (sound : Sound resource namespaceId calendarId initial s covered)
    (handling : Handling namespaceId calendarId initial s.log s.synced s.now covered begun eventsExist session read
      []) (column : DateTimeColumn) :
    Sound resource namespaceId calendarId initial { s with
      table := session
      lastSynced := some (column.keeps syncTimestamp)
      progress := .idle
      read
      synced := (begun.2, column.keeps syncTimestamp) :: s.synced } begun.1 where
  ordered := sound.ordered
  kept := handling.kept
  inside := handling.begins.inside
  since sync member := by
    rcases List.mem_cons.mp member with rfl | old
    · exact ⟨handling.begins.past, handling.begins.since⟩
    · obtain ⟨past, since⟩ := sound.since sync old
      exact ⟨past, fun p after => since p (Nat.le_trans handling.begins.after after)⟩
  mark time member := by
    cases member
    exact ⟨begun.2, List.mem_cons_self⟩
  caughtUp p before change at_p caught readable := by
    have fewer : ¬Missed s.synced change.time := by
      rintro ⟨gap, member, between⟩
      exact caught ⟨gap, List.mem_cons_of_mem _ member, between⟩
    have after := handling.after p before change at_p fewer readable
    rwa [List.append_nil] at after
  going := trivial

/-! ### Runs -/

theorem sound_apply (faithful : resource.Faithful) {action : Action} {taken : Step}
    {next : State resource.Token} (sound : Sound resource namespaceId calendarId initial s covered)
    (applied : apply resource column namespaceId calendarId s action = some next)
    (distinct : Distinct s taken next) :
    ∃ covered, Sound resource namespaceId calendarId initial next covered := by
  have going := sound.going
  unfold apply at applied
  split at applied <;> cases applied
  case h_1 _ item => exact ⟨covered, sound.changed item⟩
  case h_2 utcnow progress => exact ⟨covered, sound.begin utcnow⟩
  case h_3 syncTimestamp listing progress =>
    rw [progress] at going
    exact ⟨covered, sound.answered faithful going rfl distinct⟩
  case h_4 => exact ⟨covered, sound⟩
  case h_5 statusCode reason syncTimestamp listing progress =>
    rw [progress] at going
    cases handled : listing.httpError statusCode reason with
    | none => exact ⟨covered, sound.idle⟩
    | some next => exact ⟨covered, { sound with going := Listed.httpError going handled }⟩
  case h_6 syncTimestamp begun eventsExist session read count item events progress =>
    rw [progress] at going
    exact ⟨covered, sound.handled going⟩
  case h_7 syncTimestamp begun eventsExist session read count progress =>
    rw [progress] at going
    exact ⟨begun.1, sound.finish going column⟩
  case h_8 => exact ⟨covered, sound.idle⟩

theorem sound_step (faithful : resource.Faithful) {taken : Step} {next : State resource.Token}
    (sound : Sound resource namespaceId calendarId initial s covered)
    (stepped : step resource column namespaceId calendarId s taken = some next)
    (distinct : Distinct s taken next) :
    ∃ covered, Sound resource namespaceId calendarId initial next covered := by
  unfold step at stepped
  split at stepped
  · next goes =>
    exact sound_apply faithful (sound.later goes) stepped
      (show Distinct { s with now := taken.time } taken next from distinct)
  · cases stepped

theorem sound_start {table : EventTable} (one : OnePerUid namespaceId calendarId table.rows) (now : Int) :
    Sound resource namespaceId calendarId table.rows (start resource.Token now table) 0 where
  ordered := ⟨.nil, by simp [start]⟩
  kept := kept_start one
  inside := Nat.zero_le _
  since := by simp [start]
  mark := by simp [start]
  caughtUp _ before := absurd before (Nat.not_lt_zero _)
  going := trivial

/-- What has been read of an event is in its row. -/
theorem Sound.stored (sound : Sound resource namespaceId calendarId initial s covered) {sync : Int × Int}
    (complete : sync ∈ s.synced) {p : Nat} {change : Change RawEvent Int} (at_p : s.log[p]? = some change)
    (before : change.time < sync.1) (caught : ¬Missed s.synced change.time)
    (readable : ReadableFrom RawEvent.id RawEvent.parseable s.log p) :
    Stored namespaceId calendarId initial s p := by
  have within : p < covered := by
    by_contra after
    exact absurd ((sound.since sync complete).2 p (Nat.not_lt.mp after) change at_p) (Int.not_le.mpr before)
  obtain ⟨q, later, after, at_q, last⟩ := sound.caughtUp p within change at_p caught readable change at_p
  obtain ⟨-, same⟩ := lastFor_some last
  obtain ⟨event, parsed⟩ := Option.isSome_iff_exists.mp (readable change at_p q after later at_q same)
  obtain ⟨earlier, rest, split, others⟩ := lastFor_split last
  have uid : event.event.uid = change.item.id := (later.item.named event parsed).trans same
  obtain ⟨i, row, shows⟩ := sound.kept.last
    (earlier.filterMap RawEvent.parsed) event (rest.filterMap RawEvent.parsed)
    (by rw [split, List.filterMap_append, List.filterMap_cons, parsed]) (by
      intro other member
      obtain ⟨item, among, its_event⟩ := List.mem_filterMap.mp member
      rw [item.named other its_event, uid]
      exact others item among)
  rintro _ at_p'
  obtain rfl := Option.some.inj (at_p.symm.trans at_p')
  refine ⟨q, later, event, after, at_q, same, parsed, earlier, rest, split, others, i, row, shows, ?_⟩
  rw [← uid, ← shows.uid]
  exact sound.kept.origins i row shows.at_i shows.here

end Invariant

/-- Every change to an event, made before the first page of some complete sync was answered, is in the
event's row or a later one is, unless it was made between the first page of a sync and the time which that
sync stored, or the event cannot be parsed since: whatever pages and errors Google answers with, and
wherever syncs stop. -/
theorem no_change_lost (resource : EventsResource) (column : DateTimeColumn) (namespaceId calendarId : Nat)
    (faithful : resource.Faithful) (now : Int) (table : EventTable)
    (one : OnePerUid namespaceId calendarId table.rows) (steps : List Step) (s : State resource.Token)
    (distinct : Runs.Each (step resource column namespaceId calendarId) Distinct
      (start resource.Token now table) steps)
    (ran : Runs.run (step resource column namespaceId calendarId) (start resource.Token now table) steps =
      some s) :
    ∀ sync ∈ s.synced, ∀ p change, s.log[p]? = some change → change.time < sync.1 →
      ¬Missed s.synced change.time → ReadableFrom RawEvent.id RawEvent.parseable s.log p →
        Stored namespaceId calendarId table.rows s p := by
  have kept : ∃ covered, Sound resource namespaceId calendarId table.rows s covered := by
    refine Runs.invariant_run (fun s => ∃ covered, Sound resource namespaceId calendarId table.rows s covered)
      ⟨0, sound_start one now⟩ distinct ?_ ran
    rintro s taken next ⟨covered, sound⟩ distinct stepped
    exact sound_step faithful sound stepped distinct
  obtain ⟨covered, sound⟩ := kept
  intro sync complete p change at_p before caught readable
  exact sound.stored complete at_p before caught readable

/-! ## A calendar of one page -/

/-- The changes that are the last ones to their events. -/
def lastChanges : List (Change RawEvent Int) → List (Change RawEvent Int)
  | [] => []
  | change :: later =>
    if later.any (·.item.id = change.item.id) then lastChanges later else change :: lastChanges later

/-- All that has changed is on one page. -/
def onePage : EventsResource where
  Token := Empty
  page log updatedMin _ :=
    ⟨((lastChanges log).filter fun change => updatedMin.all (· ≤ change.time)).map Change.item, none⟩

theorem lastChanges_at {log : List (Change RawEvent Int)} {change : Change RawEvent Int}
    (last : change ∈ lastChanges log) : ∃ p : Nat, log[p]? = some change ∧
      ∀ q, p < q → ∀ other : Change RawEvent Int, log[q]? = some other → other.item.id ≠ change.item.id := by
  induction log with
  | nil => cases last
  | cons first later ih =>
    have behind : change ∈ lastChanges later → ∃ p : Nat, (first :: later)[p]? = some change ∧
        ∀ q, p < q → ∀ other : Change RawEvent Int, (first :: later)[q]? = some other →
          other.item.id ≠ change.item.id := by
      intro last
      obtain ⟨p, at_p, others⟩ := ih last
      refine ⟨p + 1, at_p, fun q after other at_q => ?_⟩
      obtain ⟨q, rfl⟩ := Nat.exists_eq_add_of_lt after
      exact others _ (by omega) other at_q
    unfold lastChanges at last
    split at last
    · exact behind last
    · next none_later =>
      rcases List.mem_cons.mp last with rfl | last
      · refine ⟨0, rfl, fun q after other at_q same => none_later ?_⟩
        obtain ⟨q, rfl⟩ := Nat.exists_eq_add_of_lt after
        rw [Nat.zero_add, List.getElem?_cons_succ] at at_q
        exact List.any_eq_true.mpr ⟨other, List.mem_of_getElem? at_q, by simpa using same⟩
      · exact behind last

theorem lastChanges_complete {log : List (Change RawEvent Int)}
    (times : log.Pairwise fun earlier later => earlier.time ≤ later.time) {change : Change RawEvent Int}
    (member : change ∈ log) :
    ∃ last ∈ lastChanges log, last.item.id = change.item.id ∧ change.time ≤ last.time := by
  induction log generalizing change with
  | nil => cases member
  | cons first later ih =>
    rw [List.pairwise_cons] at times
    have behind : ∀ {change}, change ∈ later →
        ∃ last ∈ lastChanges (first :: later), last.item.id = change.item.id ∧ change.time ≤ last.time := by
      intro change member
      obtain ⟨last, among, same, time⟩ := ih times.2 member
      refine ⟨last, ?_, same, time⟩
      unfold lastChanges
      split
      · exact among
      · exact List.mem_cons_of_mem first among
    rcases List.mem_cons.mp member with rfl | member
    · by_cases again : later.any (·.item.id = change.item.id)
      · obtain ⟨other, among, same⟩ := List.any_eq_true.mp again
        obtain ⟨last, is_last, its_id, time⟩ := behind among
        exact ⟨last, is_last, its_id.trans (by simpa using same), Int.le_trans (times.1 other among) time⟩
      · refine ⟨change, ?_, rfl, Int.le_refl _⟩
        rw [lastChanges, if_neg again]
        exact List.mem_cons_self
    · exact behind member

theorem onePage_lists {updatedMin : Option Int} {first last : List (Change RawEvent Int)}
    {items : List RawEvent} {token : Option onePage.Token}
    (lists : onePage.Lists updatedMin first last items token) :
    last = first ∧ items = (onePage.page first updatedMin none).items := by
  cases lists with
  | first => exact ⟨rfl, rfl⟩
  | next _ _ => rename_i token _ _; cases token

theorem onePage_faithful : onePage.Faithful := by
  intro updatedMin first last items now ordered lists
  obtain ⟨rfl, rfl⟩ := onePage_lists lists
  refine ⟨List.prefix_rfl, ?_, ?_⟩
  · intro item member
    obtain ⟨change, among, rfl⟩ := List.mem_map.mp member
    obtain ⟨p, at_p, others⟩ := lastChanges_at (List.mem_of_mem_filter among)
    exact ⟨last.length, p, Nat.le_refl _, Nat.le_refl _, (List.getElem?_eq_some_iff.mp at_p).1,
      ⟨change, at_p, rfl⟩, fun q after _ => others q after⟩
  · intro p _ change at_p since
    obtain ⟨latest, among, same, time⟩ := lastChanges_complete ordered.times (List.mem_of_getElem? at_p)
    refine ⟨latest.item, List.mem_map_of_mem (List.mem_filter.mpr ⟨among, ?_⟩), same⟩
    cases updatedMin with
    | none => rfl
    | some mark => exact decide_eq_true (Int.le_trans (since mark rfl) time)

def hour (status : Status) : RawEvent where
  id := ['a']
  parsed := some ⟨bareEvent ['a'] status .event, rfl, rfl, rfl⟩
  named := by simp [bareEvent]

def noEvents : EventTable := ⟨[], List.forall_mem_nil _, List.forall_mem_nil _⟩

/-- The event is cancelled between the listing that brings it and the loop over the events. Errors come
before both pages. -/
def cancelledBetween : List Step :=
  [⟨1, .change (hour .confirmed)⟩, ⟨2, .begin 2⟩, ⟨2, .answer .sslError⟩, ⟨3, .answer .page⟩,
    ⟨4, .change (hour .cancelled)⟩, ⟨5, .handle⟩, ⟨6, .finish⟩, ⟨7, .begin 7⟩,
    ⟨7, .answer (.httpError 401 none)⟩, ⟨7, .answer (.httpError 410 none)⟩, ⟨8, .answer .page⟩, ⟨9, .handle⟩,
    ⟨9, .abort⟩, ⟨10, .begin 10⟩, ⟨11, .answer .page⟩, ⟨12, .handle⟩, ⟨13, .finish⟩]

theorem cancellation_kept : ∃ s, Runs.run (step onePage everyMicrosecond 1 1)
    (start onePage.Token 0 noEvents) cancelledBetween = some s ∧ s.synced = [(11, 10), (3, 2)] ∧
      Stored 1 1 [] s 1 := by
  have whole : (Runs.run (step onePage everyMicrosecond 1 1)
      (start onePage.Token 0 noEvents) cancelledBetween).map (fun s => (s.synced, s.log)) =
        some ([(11, 10), (3, 2)], [⟨1, hour .confirmed⟩, ⟨4, hour .cancelled⟩]) := rfl
  obtain ⟨s, ran, ends⟩ := Option.map_eq_some_iff.mp whole
  obtain ⟨synced, log⟩ := Prod.mk.inj ends
  refine ⟨s, ran, synced, ?_⟩
  refine no_change_lost onePage everyMicrosecond 1 1 onePage_faithful 0 noEvents
    (by simp [OnePerUid, noEvents]) cancelledBetween s (by decide) ran (11, 10) (by simp [synced]) 1
    ⟨4, hour .cancelled⟩ (by rw [log]; rfl) (by decide) ?_ ?_
  · rw [synced]
    rintro ⟨gap, member, between⟩
    simp at member
    rcases member with rfl | rfl <;> exact absurd between (by decide)
  · rw [log]
    intro change at_p q after later at_q same
    have member := List.mem_of_getElem? at_q
    simp at member
    rcases member with rfl | rfl <;> rfl

end CalendarSync
end SyncEngine.Events
