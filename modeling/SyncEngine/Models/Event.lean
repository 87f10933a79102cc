import SyncEngine.Util.Encoding

/-! Events as the model classes hold them: plain events, recurring ones and the overrides of single
instances. Times are instants in UTC. -/
namespace SyncEngine.Events

inductive Status where
  | confirmed
  | tentative
  | cancelled
deriving DecidableEq

inductive Source where
  | here
  | remote
deriving DecidableEq

structure Participant where
  email : Option Unicode
  name : Option Unicode
  status : Unicode
  notes : Option Unicode
  guests : List Unicode
deriving DecidableEq

/-- The class of an event, with the columns of its table. The master of an override is the place of
its row. -/
inductive Kind where
  | event
  | recurring (rrule exdate : Option Unicode) (until_ : Option Int) (startTimezone : Option Unicode)
  | override (masterEventUid : Option Unicode) (originalStartTime : Option Int) (master : Option Nat)
deriving DecidableEq

/-- The namespace and the calendar are those that the object is related to, if it is. -/
structure Event where
  namespace_ : Option Nat
  calendar : Option Nat
  uid : Unicode
  providerName : Option Unicode
  source : Source
  rawData : Unicode
  title : Option Unicode
  owner : Option Unicode
  description : Option Unicode
  location : Option Unicode
  busy : Bool
  readOnly : Bool
  reminders : Option Unicode
  recurrence : Option Unicode
  start : Int
  end_ : Int
  allDay : Bool
  isOwner : Bool
  lastModified : Option Int
  status : Status
  message : Option Nat
  participants : List Participant
  sequenceNumber : Option Int
  kind : Kind
deriving DecidableEq

namespace Event

def isRecurring (e : Event) : Bool :=
  match e.kind with
  | .recurring .. => true
  | _ => false

def isOverride (e : Event) : Bool :=
  match e.kind with
  | .override .. => true
  | _ => false

def masterEventUid (e : Event) : Option Unicode :=
  match e.kind with
  | .override masterEventUid _ _ => masterEventUid
  | _ => none

def master (e : Event) : Option Nat :=
  match e.kind with
  | .override _ _ master => master
  | _ => none

def setMaster (e : Event) (row : Nat) : Event :=
  match e.kind with
  | .override masterEventUid originalStartTime _ =>
    { e with kind := .override masterEventUid originalStartTime (some row) }
  | _ => e

/-- `Event.update` -/
def updateColumns (self event : Event) : Event where
  namespace_ := event.namespace_.or self.namespace_
  calendar := event.calendar.or self.calendar
  providerName := event.providerName.or self.providerName
  source := self.source
  uid := event.uid
  rawData := event.rawData
  title := event.title
  description := event.description
  location := event.location
  start := event.start
  end_ := event.end_
  allDay := event.allDay
  owner := event.owner
  isOwner := event.isOwner
  readOnly := event.readOnly
  participants := event.participants
  busy := event.busy
  reminders := event.reminders
  recurrence := event.recurrence
  lastModified := event.lastModified
  message := event.message
  status := event.status
  sequenceNumber := event.sequenceNumber.or self.sequenceNumber
  kind := self.kind

/-- `update` of each class: what belongs to the class is taken over from an event of that class. -/
def update (self event : Event) : Event :=
  match self.kind, event.kind with
  | .event, _ => self.updateColumns event
  | .recurring .., .recurring rrule exdate until_ startTimezone =>
    { self.updateColumns event with kind := .recurring rrule exdate until_ startTimezone }
  | .recurring .., _ => self.updateColumns event
  | .override _ _ master, .override masterEventUid originalStartTime _ =>
    { self.updateColumns event with
      kind := .override masterEventUid originalStartTime master
      recurrence := none }
  | .override .., _ => { self.updateColumns event with recurrence := none }

@[simp] theorem updateColumns_uid (self event : Event) : (self.updateColumns event).uid = event.uid := rfl

@[simp] theorem update_uid (self event : Event) : (self.update event).uid = event.uid := by
  unfold update
  split <;> rfl

end Event

end SyncEngine.Events
