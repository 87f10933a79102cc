import Mathlib
import SyncEngine.Events.PartialMerge
import SyncEngine.Models.Event
import SyncEngine.Models.PublicId

/-! Invites and answers that arrive as files attached to messages, and the calendar of emailed events. -/
namespace SyncEngine.Events

/-- `unicode.lower`, which takes a text character by character. -/
structure Casing where
  char : Char → Char
  char_char : ∀ c, char (char c) = char c
  ascii : ∀ c, c.toNat < 128 → char c = c.toLower

namespace Casing
variable (casing : Casing)

def lower (s : Unicode) : Unicode := s.map casing.char

theorem lower_append (s t : Unicode) : casing.lower (s ++ t) = casing.lower s ++ casing.lower t :=
  List.map_append

theorem lower_lower (s : Unicode) : casing.lower (casing.lower s) = casing.lower s := by
  simp only [lower, List.map_map]
  exact List.map_congr_left fun c _ => casing.char_char c

theorem lower_ascii {s : Unicode} (ascii : s.all (·.toNat < 128) = true) : casing.lower s = s.map Char.toLower :=
  List.map_congr_left fun c member => casing.ascii c (of_decide_eq_true (List.all_eq_true.mp ascii c member))

end Casing

/-- The letters of ASCII have lower case, and no others. -/
def asciiCasing : Casing where
  char := Char.toLower
  char_char := Char.toLower_toLower_eq_toLower
  ascii _ _ := rfl

/-! ## The participants of two events -/

/-- What a participant has beside the address, the name and the status. -/
inductive Attribute
  | notes
  | guests
deriving DecidableEq

theorem attribute_mem (a : Attribute) : a ∈ ({.notes, .guests} : Finset Attribute) := by
  cases a <;> decide

instance : Fintype Attribute := ⟨{.notes, .guests}, attribute_mem⟩

abbrev AttributeValue := Option Unicode ⊕ List Unicode

def Casing.texts (casing : Casing) : PartialMerge.Texts AttributeValue where
  lower := casing.lower
  lower_lower := casing.lower_lower
  blank value := value = .inl none ∨ value = .inl (some [])

def Participant.dict (p : Participant) : PartialMerge.Participant Attribute AttributeValue where
  email := p.email
  name := p.name
  status := some (some p.status)
  others
    | .notes => some (.inl p.notes)
    | .guests => some (.inr p.guests)

def Participant.ofDict (p : PartialMerge.Participant Attribute AttributeValue) : Participant where
  email := p.email
  name := p.name
  status := p.status.join.getD []
  notes := (p.others .notes).elim none fun value => value.elim id fun _ => none
  guests := (p.others .guests).elim [] fun value => value.elim (fun _ => []) id

/-- `Event._partial_participants_merge`, of participants that all have a status. -/
def Event.partialParticipantsMerge (casing : Casing) (self event : Event) : List Participant :=
  match PartialMerge.partialParticipantsMerge casing.texts (self.participants.map Participant.dict)
    (event.participants.map Participant.dict) with
  | .ok merged => merged.map Participant.ofDict
  | .error _ => []

/-- Only a missing status would raise. -/
theorem partialParticipantsMerge_returns (casing : Casing) (self event : List Participant) :
    ∃ merged, PartialMerge.partialParticipantsMerge casing.texts (self.map Participant.dict)
      (event.map Participant.dict) = .ok merged := by
  have files : ∀ (participants : List Participant) (selfHash : PartialMerge.Hash Attribute AttributeValue),
      ∃ filed, (participants.map Participant.dict).foldlM (PartialMerge.fileUpdate casing.texts) selfHash =
        .ok filed := by
    intro participants
    induction participants with
    | nil => exact fun selfHash => ⟨selfHash, rfl⟩
    | cons participant rest ih =>
      intro selfHash
      have one : ∃ filed, PartialMerge.fileUpdate casing.texts selfHash participant.dict = .ok filed := by
        unfold PartialMerge.fileUpdate
        split
        · exact ⟨_, rfl⟩
        · split
          · exact ⟨_, rfl⟩
          · exact ⟨_, rfl⟩
      obtain ⟨filed, first⟩ := one
      obtain ⟨last, later⟩ := ih filed
      refine ⟨last, ?_⟩
      rw [List.map_cons, List.foldlM_cons, first]
      exact later
  obtain ⟨filed, done⟩ := files event ((self.map Participant.dict).foldl (PartialMerge.fileOwn casing.texts) ∅)
  refine ⟨filed.values, ?_⟩
  rw [PartialMerge.partialParticipantsMerge, done]
  rfl

/-! ## Files -/

/-- A time of an iCalendar file: a date, a time with its zone, or a local time with the `TZID` that
stands beside it. -/
inductive Stamp where
  | date (day : Int)
  | aware (utc : Int) (tzinfo : Unicode)
  | naive (clock : Int) (tzid : Option Unicode)
deriving DecidableEq

structure VEvent where
  uid : Option Unicode
  sequence : Option Int
  status : Option Unicode
  method : Option Unicode
  summary : List Unicode
  description : Option Unicode
  location : Option Unicode
  dtstart : Option Stamp
  dtend : Option Stamp
  dtstamp : Option Stamp
  lastModified : Option Stamp
  rrule : Option Unicode
  owner : Option Unicode
  isOwner : Bool
  participants : List Participant
  ical : Unicode
deriving DecidableEq

inductive Component where
  | vcalendar (method : Option Unicode)
  | vtimezone (tzid : Option Unicode)
  | vevent (event : VEvent)
deriving DecidableEq

inductive IcsError where
  | malformedEvent
  | assertion
  | notImplemented
deriving DecidableEq

/-- `timezones_table`, and `localize` of `pytz` followed by the way to UTC. -/
structure Zones where
  table : Unicode → Option Unicode
  localize : Unicode → Int → Int

/-- A datetime in UTC, with the zone that the event keeps. -/
def Zones.toUtc (zones : Zones) : Stamp → Except IcsError (Int × Option Unicode)
  | .date day => .ok (day, none)
  | .aware utc tzinfo => .ok (utc, zones.table tzinfo)
  | .naive clock tzid =>
    match tzid.bind zones.table with
    | none => .error .assertion
    | some zone => .ok (zones.localize zone clock, some zone)

/-- `arrow.get`, to which a clock without a zone is in UTC. -/
def Stamp.instant : Stamp → Int
  | .date day => day
  | .aware utc _ => utc
  | .naive clock _ => clock

/-- The first and last instant of an event, whether it takes whole days, and its zone. A datetime is a
date to `isinstance`, so a file that mixes the two gets an event of whole days. -/
def times (zones : Zones) (start end_ : Stamp) : Except IcsError (Int × Int × Bool × Option Unicode) :=
  match start, end_ with
  | .date _, _ | _, .date _ => .ok (start.instant, end_.instant, true, none)
  | _, _ => do
    let (first, zone) ← zones.toUtc start
    let (last, _) ← zones.toUtc end_
    return (first, last, false, zone)

def eventLastModified (e : VEvent) : Except IcsError (Option Int) :=
  match e.dtstamp, e.lastModified with
  | some (.aware utc _), _ => .ok (some utc)
  | some _, _ => .error .notImplemented
  | none, lastModified => .ok (lastModified.map Stamp.instant)

/-- The status of an event, which may be left to the method of the event or of the whole calendar. -/
def eventStatus (casing : Casing) (calendarMethod : Option Unicode) (e : VEvent) : Except IcsError Status :=
  match e.status with
  | some status =>
    if casing.lower status = "confirmed".toList then .ok .confirmed
    else if casing.lower status = "tentative".toList then .ok .tentative
    else if casing.lower status = "cancelled".toList then .ok .cancelled
    else .error .assertion
  | none =>
    if e.method.map casing.lower = some "cancel".toList then .ok .cancelled
    else if calendarMethod.map casing.lower = some "cancel".toList then .ok .cancelled
    else .ok .confirmed

/-- Sequence numbers are cut to what the column holds. -/
def sequenceNumber (sequence : Option Int) : Int := min (sequence.getD 0) 2147483647

def eventOfComponent (casing : Casing) (zones : Zones) (namespace_ calendar : Nat)
    (calendarMethod : Option Unicode) (e : VEvent) : Except IcsError Event := do
  let (some dtstart, some dtend) := (e.dtstart, e.dtend) | .error .malformedEvent
  let (start, end_, allDay, startTimezone) ← times zones dtstart dtend
  let lastModified ← eventLastModified e
  let status ← eventStatus casing calendarMethod e
  let recur := e.rrule.map fun rrule => "RRULE:".toList ++ rrule
  return {
    namespace_ := some namespace_
    calendar := some calendar
    uid := e.uid.getD "None".toList
    providerName := some "ics".toList
    source := .here
    rawData := e.ical
    title := if e.summary = [] then none else some (" - ".toList.intercalate e.summary)
    owner := e.owner
    description := e.description
    location := e.location
    busy := true
    readOnly := true
    reminders := some "[]".toList
    recurrence := recur.map fun rrule => '\'' :: rrule ++ ['\'']
    start := start
    end_ := end_
    allDay := allDay
    isOwner := e.isOwner
    lastModified := lastModified
    status := status
    message := none
    participants := e.participants
    sequenceNumber := some (sequenceNumber e.sequence)
    kind := match recur with
      | none => .event
      | some rrule => .recurring (some rrule) none none startTimezone }

structure IcsEvents where
  calendarMethod : Option Unicode
  invites : List Event
  rsvps : List Event

/-- One round of the walk over a file's components. -/
def walkComponent (casing : Casing) (zones : Zones) (namespace_ calendar : Nat) (events : IcsEvents) :
    Component → Except IcsError IcsEvents
  | .vcalendar method => .ok { events with calendarMethod := method }
  | .vtimezone tzid => if (tzid.bind zones.table).isSome then .ok events else .error .assertion
  | .vevent e => do
    let event ← eventOfComponent casing zones namespace_ calendar events.calendarMethod e
    if events.calendarMethod = some "REQUEST".toList ∨ events.calendarMethod = some "CANCEL".toList then
      return { events with invites := events.invites ++ [event] }
    else if events.calendarMethod = some "REPLY".toList then
      return { events with rsvps := events.rsvps ++ [event] }
    else
      return events

def eventsFromIcs (casing : Casing) (zones : Zones) (namespace_ calendar : Nat)
    (cal : Option (List Component)) : Except IcsError IcsEvents :=
  match cal with
  | none => .error .malformedEvent
  | some components => components.foldlM (walkComponent casing zones namespace_ calendar) ⟨none, [], []⟩

/-- The emailed events: the rows that the session holds, of which the first `flushed` are found by
queries. -/
structure EmailedEvents where
  rows : List Event
  flushed : Nat
deriving DecidableEq

/-- `existing_events_table`: the place of a row for the uid of a new invite, of the last row that a
query finds. -/
def existingEventsTable (c : EmailedEvents) (newUids : List Unicode) : List (Unicode × Nat) :=
  (((c.rows.take c.flushed).map (·.uid)).zipIdx).filter (·.1 ∈ newUids)

def placeOf (table : List (Unicode × Nat)) (uid : Unicode) : Option Nat :=
  ((table.filter (·.1 = uid)).getLast?).map (·.2)

/-- `<=` of the sequence numbers, to which `None` is the least. -/
def versionLe : Option Int → Option Int → Bool
  | none, _ => true
  | some _, none => false
  | some a, some b => a ≤ b

def mergeInvite (casing : Casing) (message : Nat) (invite existing : Event) : Event :=
  if versionLe existing.sequenceNumber invite.sequenceNumber then
    { existing.update invite with
      message := some message
      participants := existing.partialParticipantsMerge casing invite }
  else existing

/-- The body of the loop over the invites. -/
def handleInvite (casing : Casing) (message : Nat) (place : Option Nat) (rows : List Event)
    (invite : Event) : List Event :=
  match place with
  | none => rows ++ [{ invite with message := some message }]
  | some i => rows.modify i (mergeInvite casing message invite)

def processInvites (casing : Casing) (c : EmailedEvents) (message : Nat) (invites : List Event) :
    EmailedEvents :=
  let table := existingEventsTable c (invites.map (·.uid))
  { c with
    rows := invites.foldl (fun rows invite =>
      handleInvite casing message (placeOf table invite.uid) rows invite) c.rows }

/-! ## Answers -/

/-- `_cleanup_nylas_uid` -/
def cleanupNylasUid (casing : Casing) (uid : Unicode) : Unicode :=
  let uid := casing.lower uid
  if "@nylas.com".toList <:+: uid then uid.take (uid.length - 10) else uid

def validBase36 (uid : Unicode) : Bool :=
  uid.all (· ∈ "abcdefghijklmnopqrstuvwxyz0123456789".toList)

/-- An event of the namespace in another calendar: what is looked at of it when it is answered. -/
structure Synced where
  key : List UInt8
  sequenceNumber : Option Int
deriving DecidableEq

def Synced.publicId (event : Synced) : Option Unicode := (PublicId.int128ToB36 event.key).toOption.join

/-- `existing_events_table` of the answers: what the query by their uids finds. -/
def answeredTable (casing : Casing) (synced : List Synced) (rsvps : List Event) : List Synced :=
  let newUids := (((rsvps.map (·.uid)).filter fun uid => "@nylas.com".toList <:+: uid).map
    (cleanupNylasUid casing)).filter validBase36
  synced.filter fun event => event.key ∈ newUids.filterMap fun uid => (PublicId.processBindParam uid).toOption.join

/-- The event that is answered, of which the last one of a public id is in the dictionary. -/
def answered (casing : Casing) (table : List Synced) (rsvp : Event) : Option Synced :=
  (table.filter fun event => event.publicId = some (cleanupNylasUid casing rsvp.uid)).getLast?

/-- The body of the loop over the answers: one to an unknown event becomes an event of this calendar, and one to the
version that there is of an event makes the session flush. -/
def handleRsvp (message : Nat) (existing : Option Synced) (c : EmailedEvents) (rsvp : Event) : EmailedEvents :=
  match existing with
  | none => { c with rows := c.rows ++ [{ rsvp with message := some message }] }
  | some existing =>
    if existing.sequenceNumber = rsvp.sequenceNumber then { c with flushed := c.rows.length } else c

def processNylasRsvps (casing : Casing) (c : EmailedEvents) (message : Nat) (synced : List Synced)
    (rsvps : List Event) : EmailedEvents :=
  let table := answeredTable casing synced rsvps
  rsvps.foldl (fun c rsvp => handleRsvp message (answered casing table rsvp) c rsvp) c

/-- What one file of a message brings, among the events that other calendars have then. The session is flushed
behind the last file of a message. -/
structure Attached where
  message : Nat
  invites : List Event
  rsvps : List Event
  synced : List Synced
  last : Bool
deriving DecidableEq

/-- Gmail's answers are left to its API. -/
def importAttached (casing : Casing) (gmail : Bool) (c : EmailedEvents) (file : Attached) : EmailedEvents :=
  let c := processInvites casing c file.message file.invites
  let c := if gmail then c else processNylasRsvps casing c file.message file.synced file.rsvps
  if file.last then { c with flushed := c.rows.length } else c

def importAll (casing : Casing) (gmail : Bool) (files : List Attached) : EmailedEvents :=
  files.foldl (importAttached casing gmail) ⟨[], 0⟩

end SyncEngine.Events
