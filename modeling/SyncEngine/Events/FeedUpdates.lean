import SyncEngine.Models.Event
import Mathlib.Data.List.Basic

/-! The events of a calendar as a provider's feeds bring them, and the links between recurring events
and their overrides. The rows of all calendars are in one table, a row's id its place there. -/
namespace SyncEngine.Events

/-- An event as a provider's answer is parsed: related to no namespace, calendar or master. -/
structure FeedEvent where
  event : Event
  transient : event.namespace_ = none ∧ event.calendar = none ∧ event.master = none

/-- The columns of the namespace and the calendar are not null, and the key of a master is one of a
row. -/
structure EventTable where
  rows : List Event
  placed : ∀ row ∈ rows, row.namespace_ ≠ none
  keyed : ∀ row ∈ rows, ∀ m, row.master = some m → m < rows.length

/-! The namespace and the calendar whose feeds are handled. -/
variable (namespaceId calendarId : Nat)

def inCalendar (e : Event) : Bool := e.namespace_ = some namespaceId && e.calendar = some calendarId

/-- `link_overrides`. `self` is the row of the event; assigning an event without one puts it into the
session. -/
def linkOverrides (rows : List Event) (event : Event) (self : Option Nat) : List Event :=
  let linkable (o : Event) : Bool :=
    o.isOverride && o.namespace_ = event.namespace_ && o.calendar = event.calendar &&
      o.masterEventUid = some event.uid && o.source = event.source && o.master = none
  match self with
  | some i => rows.map fun o => if linkable o then o.setMaster i else o
  | none =>
    if rows.any linkable then
      (rows.map fun o => if linkable o then o.setMaster rows.length else o) ++ [event]
    else rows

/-- The query for the master of an override. -/
def findMaster (rows : List Event) (event : Event) (uid : Unicode) : Option Nat :=
  rows.findIdx? fun m =>
    m.isRecurring && m.namespace_ = event.namespace_ && m.calendar = event.calendar && m.uid = uid &&
      m.source = event.source

/-- `link_master` -/
def linkMaster (rows : List Event) (event : Event) (self : Option Nat) : List Event :=
  if event.master ≠ none then rows
  else
    match event.masterEventUid.bind (findMaster rows event) with
    | none => rows
    | some m =>
      match self with
      | some i => rows.modify i (·.setMaster m)
      | none => rows ++ [event.setMaster m]

def linkEvents (rows : List Event) (event : Event) (self : Option Nat) : List Event :=
  match event.kind with
  | .recurring .. => linkOverrides rows event self
  | .override .. => linkMaster rows event self
  | .event => rows

/-- The lookup is left out if the calendar was empty when the feed came. -/
def localEvent (eventsExist : Bool) (rows : List Event) (uid : Unicode) : Option Nat :=
  if eventsExist then rows.findIdx? fun row => inCalendar namespaceId calendarId row && row.uid = uid
  else none

/-- Overrides are cancelled with their master. -/
def cancelOverrides (rows : List Event) (i : Nat) (event : Event) : List Event :=
  if rows[i]?.any (fun row => row.isRecurring && row.status ≠ .cancelled) && event.status = .cancelled then
    rows.map fun o => if o.master = some i then { o with status := .cancelled } else o
  else rows

/-- The row that a new event becomes. -/
def newRow (event : Event) : Event :=
  { event with
    namespace_ := some namespaceId
    calendar := some calendarId
    providerName := event.providerName.or (some "DEPRECATED".toList) }

/-- The body of the loop over a feed. -/
def handleEvent (eventsExist : Bool) (rows : List Event) (event : Event) : List Event :=
  match localEvent namespaceId calendarId eventsExist rows event.uid with
  | some i =>
    let rows := (cancelOverrides rows i event).modify i fun row =>
      { row.update event with participants := event.participants }
    linkEvents rows event none
  | none =>
    let row := newRow namespaceId calendarId event
    linkEvents (rows ++ [row]) row (some rows.length)

def handleEventUpdates (rows : List Event) (events : List FeedEvent) : List Event :=
  let eventsExist := rows.any (inCalendar namespaceId calendarId)
  events.foldl (fun rows e => handleEvent namespaceId calendarId eventsExist rows e.event) rows

def handleFeeds (rows : List Event) (feeds : List (List FeedEvent)) : List Event :=
  feeds.foldl (handleEventUpdates namespaceId calendarId) rows

/-- An entry that says little: an hour of some day. -/
def bareEvent (uid : Unicode) (status : Status) (kind : Kind) : Event where
  namespace_ := none
  calendar := none
  uid := uid
  providerName := none
  source := .here
  rawData := []
  title := none
  owner := none
  description := none
  location := none
  busy := true
  readOnly := false
  reminders := none
  recurrence := none
  start := 0
  end_ := 3600
  allDay := false
  isOwner := true
  lastModified := none
  status := status
  message := none
  participants := []
  sequenceNumber := none
  kind := kind

end SyncEngine.Events
