import Mathlib
import SyncEngine.Events.Invites
import SyncEngine.Models.PublicId
import SyncEngine.Util.Calendar
import SyncEngine.Util.Traversal

/-! The invites that are sent for events: what is written of an event into an iCalendar file, and
which event a reader of the file makes of it. -/
namespace SyncEngine.Events
namespace Invitation
open Calendar

/-! ## iCalendar files -/

/-- `vCalAddress`, with the parameters that are set or read; one that is set to `None` has no value. -/
structure CalAddress where
  address : Unicode
  cn : Option Unicode
  rsvp : Option Unicode
  role : Option Unicode
  cutype : Option Unicode
  partstat : Option Unicode
  numGuests : Option Unicode
deriving DecidableEq

/-- The properties of an event as they are set: all but the addresses as texts. -/
structure InviteEvent where
  organizer : CalAddress
  sequence : Unicode
  apptSequence : Unicode
  status : Unicode
  uid : Unicode
  description : Unicode
  summary : Unicode
  lastModified : Unicode
  dtstamp : Unicode
  created : Unicode
  dtstart : Unicode
  dtend : Unicode
  transp : Unicode
  location : Unicode
  attendees : List CalAddress
deriving DecidableEq

structure InviteCalendar where
  prodid : Unicode
  method : Unicode
  version : Unicode
  calscale : Unicode
  event : InviteEvent
deriving DecidableEq

/-- An event of a file that was parsed: some properties have types, and of those that have not the
right form there are none. -/
structure ParsedEvent where
  uid : Option Unicode
  sequence : Option Int
  status : Option Unicode
  method : Option Unicode
  summary : List Unicode
  description : Option Unicode
  location : Option Unicode
  dtstart : Option Stamp
  dtend : Option Stamp
  dtstamp : Option Stamp
  lastModified : Option Stamp
  rrule : Option Unicode
  organizer : Option CalAddress
  attendees : List CalAddress
  ical : Unicode
deriving DecidableEq

inductive Parsed where
  | vcalendar (method : Option Unicode)
  | vtimezone (tzid : Option Unicode)
  | vevent (event : ParsedEvent)
deriving DecidableEq

/-- The library. `dateTime` and `integer` are how the types of properties read texts. -/
structure Icalendar where
  toIcal : InviteCalendar → Option Unicode
  fromIcal : Unicode → Option (List Parsed)
  dateTime : Unicode → Option Stamp
  integer : Unicode → Option Int

/-- The event that an event is parsed to after it has been written; `ical` is its own text. -/
def Icalendar.parsed (library : Icalendar) (ical : Unicode) (e : InviteEvent) : ParsedEvent where
  uid := some e.uid
  sequence := library.integer e.sequence
  status := some e.status
  method := none
  summary := [e.summary]
  description := some e.description
  location := some e.location
  dtstart := library.dateTime e.dtstart
  dtend := library.dateTime e.dtend
  dtstamp := library.dateTime e.dtstamp
  lastModified := library.dateTime e.lastModified
  rrule := none
  organizer := some e.organizer
  attendees := e.attendees
  ical := ical

/-! ## Writing -/

structure Account where
  emailAddress : Unicode
  name : Option Unicode

/-- An event with its public id and what else its row has. -/
structure Row where
  publicId : Unicode
  createdAt : Int
  updatedAt : Int
  event : Event

inductive InviteType
  | request
  | cancel
deriving DecidableEq

inductive Refused
  | valueError
  | assertion
deriving DecidableEq

def STATUS_MAP : List (Unicode × Unicode) :=
  [("NEEDS-ACTION".toList, "noreply".toList), ("ACCEPTED".toList, "yes".toList),
    ("DECLINED".toList, "no".toList), ("TENTATIVE".toList, "maybe".toList)]

/-- `INVERTED_STATUS_MAP.get(status)` -/
def invertedStatusMap (status : Unicode) : Option Unicode :=
  (STATUS_MAP.find? fun entry => entry.2 = status).map Prod.fst

def serializeDatetime (t : Int) : Except Refused Unicode :=
  match strftime basicFormat t with
  | none => .error .valueError
  | some text => .ok text

def attendeeOf (p : Participant) : Except Refused CalAddress :=
  match p.email with
  | none | some [] => .error .assertion
  | some email => .ok {
      address := "MAILTO:".toList ++ email
      cn := p.name
      rsvp := some "TRUE".toList
      role := some "REQ-PARTICIPANT".toList
      cutype := some "INDIVIDUAL".toList
      partstat := invertedStatusMap p.status
      numGuests := none }

def organizerOf (account : Account) : CalAddress where
  address := "MAILTO:".toList ++ account.emailAddress
  cn := if account.name = some [] then none else account.name
  rsvp := none
  role := none
  cutype := none
  partstat := none
  numGuests := none

/-- `str` of a number, or of `None`. -/
def str : Option Int → Unicode
  | none => "None".toList
  | some n => (toString n).toList

def InviteType.method : InviteType → Unicode
  | .request => "REQUEST".toList
  | .cancel => "CANCEL".toList

def InviteType.status : InviteType → Unicode
  | .request => "CONFIRMED".toList
  | .cancel => "CANCELLED".toList

/-- The calendar, once the times and the attendees are written. -/
def inviteCalendar (account : Account) (inviteType : InviteType) (row : Row)
    (lastModified created dtstart dtend : Unicode) (attendees : List CalAddress) : InviteCalendar where
  prodid := "-//Nylas sync engine//nylas.com//".toList
  method := inviteType.method
  version := "2.0".toList
  calscale := "GREGORIAN".toList
  event := {
    organizer := organizerOf account
    sequence := str row.event.sequenceNumber
    apptSequence := str row.event.sequenceNumber
    status := inviteType.status
    uid := row.publicId ++ "@nylas.com".toList
    description := row.event.description.getD []
    summary := row.event.title.getD []
    lastModified
    dtstamp := lastModified
    created
    dtstart
    dtend
    transp := if row.event.busy then "OPAQUE".toList else "TRANSPARENT".toList
    location := row.event.location.getD []
    attendees }

def generateIcalendarInvite (account : Account) (inviteType : InviteType) (row : Row) :
    Except Refused InviteCalendar := do
  let lastModified ← serializeDatetime row.updatedAt
  let created ← serializeDatetime row.createdAt
  let dtstart ← serializeDatetime row.event.start
  let dtend ← serializeDatetime row.event.end_
  let attendees ← row.event.participants.mapM attendeeOf
  return inviteCalendar account inviteType row lastModified created dtstart dtend attendees

/-! ## Reading -/

/-- `email[7:]` where there is a `mailto:` to be stripped. -/
def stripMailto (casing : Casing) (email : Unicode) : Unicode :=
  if "mailto:".toList <+: casing.lower email then email.drop 7 else email

def readStatus (attendee : CalAddress) : Unicode :=
  ((attendee.partstat.bind fun partstat => STATUS_MAP.lookup partstat)).getD "noreply".toList

def readAttendee (casing : Casing) (attendee : CalAddress) : Participant where
  email := some (casing.lower (stripMailto casing attendee.address))
  name := attendee.cn
  status := readStatus attendee
  notes := attendee.numGuests.map fun guests => "Guests: ".toList ++ guests
  guests := []

/-- `email.utils.formataddr` -/
def formataddr (name : Option Unicode) (address : Unicode) : Unicode :=
  match name with
  | none | some [] => address
  | some name =>
    let quotes : Unicode := if name.any (· ∈ "][\\()<>@,:;\".".toList) then ['"'] else []
    let escaped := name.flatMap fun c => if c ∈ "][\\()\"".toList then ['\\', c] else [c]
    quotes ++ escaped ++ quotes ++ " <".toList ++ address ++ ">".toList

section Reading
variable (casing : Casing) (canonicalizeAddress : Unicode → Unicode) (account : Account)

def readEvent (e : ParsedEvent) : VEvent where
  uid := e.uid
  sequence := e.sequence
  status := e.status
  method := e.method
  summary := e.summary
  description := e.description
  location := e.location
  dtstart := e.dtstart
  dtend := e.dtend
  dtstamp := e.dtstamp
  lastModified := e.lastModified
  rrule := e.rrule
  owner := e.organizer.map fun organizer =>
    formataddr organizer.cn (casing.lower (stripMailto casing organizer.address))
  isOwner := e.organizer.any fun organizer =>
    account.emailAddress = canonicalizeAddress (stripMailto casing organizer.address)
  participants := e.attendees.map (readAttendee casing)
  ical := e.ical

def readComponent : Parsed → Component
  | .vcalendar method => .vcalendar method
  | .vtimezone tzid => .vtimezone tzid
  | .vevent e => .vevent (readEvent casing canonicalizeAddress account e)

/-- `events_from_ics` on a text. -/
def eventsFromText (library : Icalendar) (zones : Zones) (namespace_ calendar : Nat) (text : Unicode) :
    Except IcsError IcsEvents :=
  eventsFromIcs casing zones namespace_ calendar
    ((library.fromIcal text).map (List.map (readComponent casing canonicalizeAddress account)))

end Reading

/-! ## There and back -/

def times (row : Row) : List Int := [row.updatedAt, row.createdAt, row.event.start, row.event.end_]

/-- What the library does with the invite for an event: it writes no parameter that has no value, and
gives back what it has written, in the types of the properties. -/
structure Reads (library : Icalendar) (account : Account) (inviteType : InviteType) (row : Row) :
    Prop where
  refuses : ∀ cal, generateIcalendarInvite account inviteType row = .ok cal →
    (∃ attendee ∈ cal.event.attendees, attendee.partstat = none) → library.toIcal cal = none
  parses : ∀ cal, generateIcalendarInvite account inviteType row = .ok cal →
    (∀ attendee ∈ cal.event.attendees, attendee.partstat ≠ none) →
    ∃ text ical, library.toIcal cal = some text ∧ library.fromIcal text =
      some [.vcalendar (some cal.method), .vevent (library.parsed ical cal.event)]
  dateTime : ∀ t ∈ times row, 1900 ≤ yearOf t →
    library.dateTime (basicFormat t) = some (.aware t "UTC".toList)
  integer : ∀ n ∈ row.event.sequenceNumber, library.integer (str (some n)) = some n

section RoundTrip
variable (casing : Casing) (library : Icalendar) (zones : Zones) (canonicalizeAddress : Unicode → Unicode)
  (namespace_ calendar : Nat) (account : Account) (inviteType : InviteType) (row : Row)

/-- What a reader makes of the invite. -/
def reread : Option IcsEvents :=
  match generateIcalendarInvite account inviteType row with
  | .error _ => none
  | .ok cal => (library.toIcal cal).bind fun text =>
    (eventsFromText casing canonicalizeAddress account library zones namespace_ calendar text).toOption

def SameParticipant (p q : Participant) : Prop :=
  q.email.map casing.lower = p.email.map casing.lower ∧ q.status = p.status

/-- One invite comes back, and it is for this event. -/
def RoundTrip : Prop :=
  ∃ events invite, reread casing library zones canonicalizeAddress namespace_ calendar account inviteType row =
      some events ∧ events.invites = [invite] ∧ invite.start = row.event.start ∧
    invite.end_ = row.event.end_ ∧ invite.allDay = row.event.allDay ∧
    invite.sequenceNumber = row.event.sequenceNumber ∧
    List.Forall₂ (SameParticipant casing) row.event.participants invite.participants ∧
    cleanupNylasUid casing invite.uid = row.publicId

end RoundTrip

/-- The event takes no whole days, iCalendar has a word for each status, and Python writes the times. -/
def Sendable (row : Row) : Prop :=
  row.event.allDay = false ∧ (∀ t ∈ times row, 1900 ≤ yearOf t) ∧
    ∀ p ∈ row.event.participants, (invertedStatusMap p.status).isSome

instance (row : Row) : Decidable (Sendable row) := by
  unfold Sendable
  infer_instance

/-! ## What is written -/

theorem serializeDatetime_iff : serializeDatetime t = .ok text ↔ 1900 ≤ yearOf t ∧ text = basicFormat t := by
  unfold serializeDatetime strftime
  by_cases old : yearOf t < 1900
  · simp [old, Int.not_le.mpr old]
  · simp [old, Int.not_lt.mp old, eq_comm]

/-- A participant with an address, as an attendee. -/
def addressee (p : Participant) : CalAddress where
  address := "MAILTO:".toList ++ p.email.getD []
  cn := p.name
  rsvp := some "TRUE".toList
  role := some "REQ-PARTICIPANT".toList
  cutype := some "INDIVIDUAL".toList
  partstat := invertedStatusMap p.status
  numGuests := none

theorem mapM_attendeeOf {participants : List Participant}
    (addressed : ∀ p ∈ participants, p.email ≠ none ∧ p.email ≠ some []) :
    participants.mapM attendeeOf = .ok (participants.map addressee) := by
  refine mapM_of_forall fun p member => ?_
  obtain ⟨present, filled⟩ := addressed p member
  unfold attendeeOf addressee
  split
  · exact absurd ‹_› present
  · exact absurd ‹_› filled
  · rename_i email _ found
    rw [found]
    rfl

theorem generate_iff {account : Account} {inviteType : InviteType} {row : Row}
    (addressed : ∀ p ∈ row.event.participants, p.email ≠ none ∧ p.email ≠ some []) :
    generateIcalendarInvite account inviteType row = .ok cal ↔ (∀ t ∈ times row, 1900 ≤ yearOf t) ∧
      cal = inviteCalendar account inviteType row (basicFormat row.updatedAt) (basicFormat row.createdAt)
        (basicFormat row.event.start) (basicFormat row.event.end_)
        (row.event.participants.map addressee) := by
  unfold generateIcalendarInvite times
  rw [mapM_attendeeOf addressed]
  simp only [List.forall_mem_cons, List.not_mem_nil, false_implies, implies_true, and_true]
  constructor
  · intro written
    obtain ⟨_, first, written⟩ := bind_ok written
    obtain ⟨_, second, written⟩ := bind_ok written
    obtain ⟨_, third, written⟩ := bind_ok written
    obtain ⟨_, fourth, written⟩ := bind_ok written
    obtain ⟨recent1, same1⟩ := serializeDatetime_iff.mp first
    obtain ⟨recent2, same2⟩ := serializeDatetime_iff.mp second
    obtain ⟨recent3, same3⟩ := serializeDatetime_iff.mp third
    obtain ⟨recent4, same4⟩ := serializeDatetime_iff.mp fourth
    rw [same1, same2, same3, same4] at written
    exact ⟨⟨recent1, recent2, recent3, recent4⟩, (Except.ok.inj written).symm⟩
  · rintro ⟨⟨recent1, recent2, recent3, recent4⟩, rfl⟩
    rw [serializeDatetime_iff.mpr ⟨recent1, rfl⟩, serializeDatetime_iff.mpr ⟨recent2, rfl⟩,
      serializeDatetime_iff.mpr ⟨recent3, rfl⟩, serializeDatetime_iff.mpr ⟨recent4, rfl⟩]
    rfl

/-! ## What is read -/

theorem readStatus_addressee {p : Participant} (known : (invertedStatusMap p.status).isSome) :
    readStatus (addressee p) = p.status := by
  obtain ⟨partstat, found⟩ := Option.isSome_iff_exists.mp known
  obtain ⟨entry, listed, rfl⟩ := Option.map_eq_some_iff.mp found
  have member := List.mem_of_find?_eq_some listed
  have same : entry.2 = p.status := by simpa using List.find?_some listed
  have inverse : ∀ entry ∈ STATUS_MAP, STATUS_MAP.lookup entry.1 = some entry.2 := by decide
  unfold readStatus addressee
  rw [found, Option.bind_some, inverse entry member, Option.getD_some, same]

theorem stripMailto_mailto (casing : Casing) (email : Unicode) :
    stripMailto casing ("MAILTO:".toList ++ email) = email := by
  have named : "mailto:".toList <+: casing.lower ("MAILTO:".toList ++ email) := by
    rw [casing.lower_append, casing.lower_ascii (by decide +kernel)]
    exact List.prefix_append _ _
  rw [stripMailto, if_pos named]
  rfl

/-- The participant that is read has the address, but for the case, and the status. -/
theorem sameParticipant_addressee (casing : Casing) {p : Participant} (addressed : p.email ≠ none)
    (known : (invertedStatusMap p.status).isSome) :
    SameParticipant casing p (readAttendee casing (addressee p)) := by
  refine ⟨?_, readStatus_addressee known⟩
  obtain ⟨email, found⟩ := Option.ne_none_iff_exists'.mp addressed
  unfold readAttendee addressee
  rw [found, Option.getD_some, stripMailto_mailto, Option.map_some, Option.map_some, casing.lower_lower]

theorem cleanupNylasUid_nylas {publicId : Unicode} (plain : casing.lower publicId = publicId) :
    cleanupNylasUid casing (publicId ++ "@nylas.com".toList) = publicId := by
  have domain : casing.lower "@nylas.com".toList = "@nylas.com".toList :=
    casing.lower_ascii (by decide +kernel)
  unfold cleanupNylasUid
  rw [casing.lower_append, plain, domain]
  dsimp only
  rw [if_pos (List.suffix_append _ _).isInfix, List.length_append]
  exact List.take_left' rfl

theorem letters_ascii : (PublicId.letters.all fun c => c.toNat < 128) = true := by decide

theorem lower_publicId (casing : Casing) (written : PublicId.int128ToB36 key = .ok (some publicId)) :
    casing.lower publicId = publicId := by
  unfold PublicId.int128ToB36 at written
  split at written
  · cases written
  · split at written
    · cases written
    · obtain ⟨text, encoded, same⟩ := PublicId.map_ok.mp written
      obtain rfl := Option.some.inj same
      obtain ⟨other, digits, again, lowered, _, small, _⟩ := PublicId.base36encode_spec
        (PublicId.unpack (key.take 8) * 2 ^ 64 + PublicId.unpack (key.drop 8))
      obtain rfl := Except.ok.inj (encoded.symm.trans again)
      have ascii : (text.map Char.toLower).all (·.toNat < 128) = true := by
        refine List.all_eq_true.mpr fun c member => ?_
        rw [lowered] at member
        obtain ⟨d, among, rfl⟩ := List.mem_map.mp member
        have letter := (PublicId.letter_digit d (small d among)).1
        exact List.all_eq_true.mp letters_ascii _ letter
      rw [casing.lower_ascii ascii]
      exact asciiCasing.lower_lower text

theorem forall₂_map {R : α → β → Prop} {f : α → β} {items : List α} (related : ∀ a ∈ items, R a (f a)) :
    List.Forall₂ R items (items.map f) := by
  induction items with
  | nil => exact .nil
  | cons a rest ih =>
    obtain ⟨here, later⟩ := List.forall_mem_cons.mp related
    exact .cons here (ih later)

section Reader
variable (casing : Casing) (zones : Zones) (namespace_ calendar : Nat)

/-- An event whose times are given in UTC takes no whole days. -/
theorem eventOfComponent_aware {e : VEvent} (calendarMethod : Option Unicode) (inviteType : InviteType)
    (dtstart : e.dtstart = some (.aware start zone)) (dtend : e.dtend = some (.aware end_ other))
    (dtstamp : e.dtstamp = some (.aware stamp another)) (status : e.status = some inviteType.status) :
    ∃ event, eventOfComponent casing zones namespace_ calendar calendarMethod e = .ok event ∧
      event.start = start ∧ event.end_ = end_ ∧ event.allDay = false ∧
      event.sequenceNumber = some (sequenceNumber e.sequence) ∧ event.participants = e.participants ∧
      event.uid = e.uid.getD "None".toList := by
  have known : ∃ status, eventStatus casing calendarMethod e = .ok status := by
    have lowered : casing.lower inviteType.status = inviteType.status.map Char.toLower :=
      casing.lower_ascii (by cases inviteType <;> decide +kernel)
    unfold eventStatus
    rw [status]
    dsimp only
    rw [lowered]
    cases inviteType
    · exact ⟨.confirmed, rfl⟩
    · exact ⟨.cancelled, rfl⟩
  obtain ⟨found, statused⟩ := known
  have modified : eventLastModified e = .ok (some stamp) := by rw [eventLastModified, dtstamp]
  unfold eventOfComponent
  rw [dtstart, dtend, modified, statused]
  exact ⟨_, rfl, rfl, rfl, rfl, rfl, rfl, rfl⟩

/-- A file with one request, or with one cancellation, has one invite. -/
theorem eventsFromIcs_invite {e : VEvent} (inviteType : InviteType)
    (read : eventOfComponent casing zones namespace_ calendar (some inviteType.method) e = .ok event) :
    eventsFromIcs casing zones namespace_ calendar
        (some [.vcalendar (some inviteType.method), .vevent e]) =
      .ok ⟨some inviteType.method, [event], []⟩ := by
  have asked : some inviteType.method = some "REQUEST".toList ∨
      some inviteType.method = some "CANCEL".toList := by
    cases inviteType
    · exact .inl rfl
    · exact .inr rfl
  simp only [eventsFromIcs, List.foldlM_cons, List.foldlM_nil, walkComponent, bind, Except.bind, read]
  rw [if_pos asked]
  rfl

end Reader

/-! ## The round trip -/
section Survives
variable (casing : Casing) {library : Icalendar} (zones : Zones) (canonicalizeAddress : Unicode → Unicode)
  (namespace_ calendar : Nat) {account : Account} {inviteType : InviteType} {row : Row}

/-- What a reader makes of the text of an invite whose times it reads as times in UTC. -/
theorem eventsFromText_invite {lastModified created dtstart dtend : Unicode} {attendees : List CalAddress}
    (parsed : library.fromIcal text = some [.vcalendar (some inviteType.method), .vevent
      (library.parsed ical (inviteCalendar account inviteType row lastModified created dtstart dtend
        attendees).event)])
    (start : library.dateTime dtstart = some (.aware row.event.start zone))
    (end_ : library.dateTime dtend = some (.aware row.event.end_ zone))
    (updated : library.dateTime lastModified = some (.aware row.updatedAt zone)) :
    ∃ events invite, eventsFromText casing canonicalizeAddress account library zones namespace_ calendar text =
        .ok events ∧ events.invites = [invite] ∧ invite.allDay = false ∧
      invite.start = row.event.start ∧ invite.end_ = row.event.end_ ∧
      invite.sequenceNumber =
        some (sequenceNumber (library.integer (str row.event.sequenceNumber))) ∧
      invite.participants = attendees.map (readAttendee casing) ∧
      invite.uid = row.publicId ++ "@nylas.com".toList := by
  let e := readEvent casing canonicalizeAddress account (library.parsed ical (inviteCalendar account inviteType
    row lastModified created dtstart dtend attendees).event)
  have dtstarted : e.dtstart = some (.aware row.event.start zone) := start
  have dtended : e.dtend = some (.aware row.event.end_ zone) := end_
  have stamped : e.dtstamp = some (.aware row.updatedAt zone) := updated
  obtain ⟨invite, read, started, ended, timed, sequence, participants, uid⟩ :=
    eventOfComponent_aware casing zones namespace_ calendar (some inviteType.method) inviteType dtstarted dtended
      stamped rfl
  refine ⟨⟨some inviteType.method, [invite], []⟩, invite, ?_, rfl, timed, started, ended, sequence,
    participants, uid⟩
  unfold eventsFromText
  rw [parsed]
  exact eventsFromIcs_invite casing zones namespace_ calendar inviteType read

theorem reread_of_text (generated : generateIcalendarInvite account inviteType row = .ok cal)
    (written : library.toIcal cal = some text) :
    reread casing library zones canonicalizeAddress namespace_ calendar account inviteType row =
      (eventsFromText casing canonicalizeAddress account library zones namespace_ calendar text).toOption := by
  unfold reread
  rw [generated]
  simp only [written, Option.bind_some]

/-- Written times and known statuses bring one invite back, which takes no whole days. -/
theorem reread_written (reads : Reads library account inviteType row) (key : List UInt8)
    (keyed : PublicId.int128ToB36 key = .ok (some row.publicId))
    (numbered : row.event.sequenceNumber = some n) (bounded : n ≤ 2147483647)
    (addressed : ∀ p ∈ row.event.participants, p.email ≠ none ∧ p.email ≠ some [])
    (recent : ∀ t ∈ times row, 1900 ≤ yearOf t)
    (known : ∀ p ∈ row.event.participants, (invertedStatusMap p.status).isSome) :
    ∃ events invite, reread casing library zones canonicalizeAddress namespace_ calendar account inviteType row =
        some events ∧ events.invites = [invite] ∧ invite.allDay = false ∧
      invite.start = row.event.start ∧ invite.end_ = row.event.end_ ∧
      invite.sequenceNumber = row.event.sequenceNumber ∧
      List.Forall₂ (SameParticipant casing) row.event.participants invite.participants ∧
      cleanupNylasUid casing invite.uid = row.publicId := by
  have generated : generateIcalendarInvite account inviteType row = .ok _ :=
    (generate_iff addressed).mpr ⟨recent, rfl⟩
  have stated : ∀ attendee ∈ row.event.participants.map addressee, attendee.partstat ≠ none := by
    intro attendee member
    obtain ⟨p, among, rfl⟩ := List.mem_map.mp member
    exact Option.isSome_iff_ne_none.mp (known p among)
  obtain ⟨text, ical, written, parsed⟩ := reads.parses _ generated stated
  have instants : ∀ t ∈ times row, library.dateTime (basicFormat t) = some (.aware t "UTC".toList) :=
    fun t member => reads.dateTime t member (recent t member)
  simp only [times, List.forall_mem_cons] at instants
  obtain ⟨updated, _, start, end_, _⟩ := instants
  obtain ⟨events, invite, read, one, timed, started, ended, sequence, participants, uid⟩ :=
    eventsFromText_invite casing zones canonicalizeAddress namespace_ calendar parsed start end_ updated
  refine ⟨events, invite, ?_, one, timed, started, ended, ?_, ?_, ?_⟩
  · rw [reread_of_text casing zones canonicalizeAddress namespace_ calendar generated written, read]
    rfl
  · rw [sequence, numbered, reads.integer n numbered, sequenceNumber, Option.getD_some,
      Int.min_eq_left bounded]
  · rw [participants, List.map_map]
    exact forall₂_map fun p member => sameParticipant_addressee casing (addressed p member).1 (known p member)
  · rw [uid]
    exact cleanupNylasUid_nylas (lower_publicId casing keyed)

/-- What comes back has been written. -/
theorem written_of_reread (reads : Reads library account inviteType row)
    (addressed : ∀ p ∈ row.event.participants, p.email ≠ none ∧ p.email ≠ some [])
    (came : reread casing library zones canonicalizeAddress namespace_ calendar account inviteType row =
      some events) :
    (∀ t ∈ times row, 1900 ≤ yearOf t) ∧
      ∀ p ∈ row.event.participants, (invertedStatusMap p.status).isSome := by
  unfold reread at came
  split at came
  · cases came
  · rename_i cal generated
    obtain ⟨recent, same⟩ := (generate_iff addressed).mp generated
    refine ⟨recent, fun p member => ?_⟩
    by_contra unknown
    have missing : ∃ attendee ∈ cal.event.attendees, attendee.partstat = none := by
      rw [same]
      exact ⟨addressee p, List.mem_map_of_mem member, Option.not_isSome_iff_eq_none.mp unknown⟩
    rw [reads.refuses cal generated missing] at came
    cases came

end Survives

/-- An event comes back from its invite just when it takes no whole days, its participants' statuses have
words and its times can be written. -/
theorem invite_survives_iff (casing : Casing) (library : Icalendar) (zones : Zones)
    (canonicalizeAddress : Unicode → Unicode) (namespace_ calendar : Nat) (account : Account) (inviteType : InviteType) (row : Row)
    (reads : Reads library account inviteType row) (key : List UInt8)
    (keyed : PublicId.int128ToB36 key = .ok (some row.publicId)) (n : Int)
    (numbered : row.event.sequenceNumber = some n) (bounded : n ≤ 2147483647)
    (addressed : ∀ p ∈ row.event.participants, p.email ≠ none ∧ p.email ≠ some []) :
    RoundTrip casing library zones canonicalizeAddress namespace_ calendar account inviteType row ↔
      Sendable row := by
  constructor
  · rintro ⟨events, invite, came, one, _, _, allDay, _⟩
    obtain ⟨recent, known⟩ := written_of_reread casing zones canonicalizeAddress namespace_ calendar reads addressed came
    obtain ⟨others, other, again, same, timed, _⟩ :=
      reread_written casing zones canonicalizeAddress namespace_ calendar reads key keyed numbered bounded
        addressed recent known
    obtain rfl := Option.some.inj (came.symm.trans again)
    obtain rfl := List.singleton_inj.mp (one.symm.trans same)
    exact ⟨allDay.symm.trans timed, recent, known⟩
  · rintro ⟨allDay, recent, known⟩
    obtain ⟨events, invite, came, one, timed, start, end_, rest⟩ :=
      reread_written casing zones canonicalizeAddress namespace_ calendar reads key keyed numbered bounded
        addressed recent known
    exact ⟨events, invite, came, one, start, end_, timed.trans allDay.symm, rest⟩

/-! ## A day out on the fourth of September 2014 -/

/-- From one midnight to the next, as whole days or by the clock. -/
def outing (allDay : Bool) : Row where
  publicId := "1".toList
  createdAt := midnight 16317
  updatedAt := midnight 16317
  event := {
    namespace_ := some 1
    calendar := some 2
    uid := "outing".toList
    providerName := some "inbox".toList
    source := .here
    rawData := []
    title := some "Outing".toList
    owner := none
    description := none
    location := none
    busy := true
    readOnly := false
    reminders := none
    recurrence := none
    start := midnight 16317
    end_ := midnight 16318
    allDay
    isOwner := true
    lastModified := none
    status := .confirmed
    message := none
    participants := [{ email := some "ben@nylas.com".toList, name := none, status := "yes".toList
                       notes := none, guests := [] }]
    sequenceNumber := some 1
    kind := .event }

def anna : Account where
  emailAddress := "anna@nylas.com".toList
  name := none

/-- `icalendar` on the texts of the outing. -/
def readTime (text : Unicode) : Option Stamp :=
  if text = "20140904T000000Z".toList then some (.aware 1409788800 "UTC".toList)
  else if text = "20140905T000000Z".toList then some (.aware 1409875200 "UTC".toList)
  else none

def readNumber (text : Unicode) : Option Int := if text = "1".toList then some 1 else none

def outingText : Unicode :=
  ("BEGIN:VCALENDAR\r\nMETHOD:REQUEST\r\nBEGIN:VEVENT\r\nUID:1@nylas.com\r\nSEQUENCE:1\r\n" ++
    "DTSTART:20140904T000000Z\r\nDTEND:20140905T000000Z\r\n" ++
    "ATTENDEE;PARTSTAT=ACCEPTED:MAILTO:ben@nylas.com\r\nEND:VEVENT\r\nEND:VCALENDAR\r\n").toList

def outingEvent : ParsedEvent where
  uid := some "1@nylas.com".toList
  sequence := some 1
  status := some "CONFIRMED".toList
  method := none
  summary := ["Outing".toList]
  description := some []
  location := some []
  dtstart := some (.aware 1409788800 "UTC".toList)
  dtend := some (.aware 1409875200 "UTC".toList)
  dtstamp := some (.aware 1409788800 "UTC".toList)
  lastModified := some (.aware 1409788800 "UTC".toList)
  rrule := none
  organizer := some (organizerOf anna)
  attendees := (outing true).event.participants.map addressee
  ical := outingText

def outingLibrary : Icalendar where
  toIcal cal := if ∃ attendee ∈ cal.event.attendees, attendee.partstat = none then none else some outingText
  fromIcal text := if text = outingText then some [.vcalendar (some "REQUEST".toList), .vevent outingEvent]
    else none
  dateTime := readTime
  integer := readNumber

theorem outing_addressed (allDay : Bool) :
    ∀ p ∈ (outing allDay).event.participants, p.email ≠ none ∧ p.email ≠ some [] := by
  intro p member
  obtain rfl := List.mem_singleton.mp member
  decide

/-- The texts of the outing, as they are read and as its key is written. -/
theorem outing_texts :
    outingLibrary.dateTime (basicFormat (midnight 16317)) = some (.aware (midnight 16317) "UTC".toList) ∧
    outingLibrary.dateTime (basicFormat (midnight 16318)) = some (.aware (midnight 16318) "UTC".toList) ∧
    outingLibrary.integer (str (some 1)) = some 1 ∧
    "1".toList ++ "@nylas.com".toList = "1@nylas.com".toList ∧
    PublicId.int128ToB36 (List.replicate 15 0 ++ [1]) = .ok (some "1".toList) := by
  decide +kernel

theorem parsed_outing (allDay : Bool) : outingLibrary.parsed outingText (inviteCalendar anna .request
    (outing allDay) (basicFormat (midnight 16317)) (basicFormat (midnight 16317))
    (basicFormat (midnight 16317)) (basicFormat (midnight 16318))
    ((outing allDay).event.participants.map addressee)).event = outingEvent := by
  obtain ⟨first, last, one, uid, _⟩ := outing_texts
  have sequence : outingLibrary.integer (str (outing allDay).event.sequenceNumber) = some 1 := one
  unfold Icalendar.parsed inviteCalendar
  dsimp only
  rw [first, last, sequence]
  unfold outingEvent
  rw [← uid]
  rfl

/-- The text of the outing is read as its invite says it. -/
theorem read_outing (allDay : Bool) : outingLibrary.fromIcal outingText =
    some [.vcalendar (some "REQUEST".toList), .vevent (outingLibrary.parsed outingText (inviteCalendar anna
      .request (outing allDay) (basicFormat (midnight 16317)) (basicFormat (midnight 16317))
      (basicFormat (midnight 16317)) (basicFormat (midnight 16318))
      ((outing allDay).event.participants.map addressee)).event)] := by
  rw [parsed_outing]
  unfold outingLibrary
  dsimp only
  rw [if_pos rfl]

theorem reads_outing (allDay : Bool) : Reads outingLibrary anna .request (outing allDay) where
  refuses cal _ missing := if_pos missing
  parses cal written stated := by
    refine ⟨outingText, outingText, if_neg ?_, ?_⟩
    · rintro ⟨attendee, member, missing⟩
      exact stated attendee member missing
    · rw [((generate_iff (outing_addressed allDay)).mp written).2]
      exact read_outing allDay
  dateTime t member _ := by
    simp only [times, outing, List.mem_cons, List.not_mem_nil, or_false, or_self_left] at member
    rcases member with rfl | rfl
    · exact outing_texts.1
    · exact outing_texts.2.1
  integer n member := by
    cases member
    exact outing_texts.2.2.1

theorem outing_keyed : PublicId.int128ToB36 (List.replicate 15 0 ++ [1]) = .ok (some "1".toList) :=
  outing_texts.2.2.2.2

theorem outing_written : ∀ allDay, (∀ t ∈ times (outing allDay), 1900 ≤ yearOf t) ∧
    ∀ p ∈ (outing allDay).event.participants, (invertedStatusMap p.status).isSome := by
  decide +kernel

def noZones : Zones where
  table _ := none
  localize _ clock := clock

theorem timed_outing_survives : RoundTrip asciiCasing outingLibrary noZones id 1 2 anna .request (outing false) :=
  (invite_survives_iff asciiCasing outingLibrary noZones id 1 2 anna .request (outing false) (reads_outing false)
    (List.replicate 15 0 ++ [1]) outing_keyed 1 rfl (by decide) (outing_addressed false)).mpr
    ⟨rfl, outing_written false⟩

/-- Whole days come back as a time of 24 hours. -/
theorem whole_days_lost : ¬ ∀ casing library zones canonicalizeAddress namespace_ calendar account
    inviteType row,
    Reads library account inviteType row → ∀ key,
    PublicId.int128ToB36 key = .ok (some row.publicId) → ∀ n,
    row.event.sequenceNumber = some n → n ≤ 2147483647 →
    (∀ p ∈ row.event.participants, p.email ≠ none ∧ p.email ≠ some []) →
    row.event.start ≤ row.event.end_ →
    RoundTrip casing library zones canonicalizeAddress namespace_ calendar account inviteType row := by
  intro always
  obtain ⟨events, invite, came, one, _, _, allDay, _⟩ := always asciiCasing outingLibrary noZones id 1 2 anna
    .request (outing true) (reads_outing true) (List.replicate 15 0 ++ [1]) outing_keyed 1 rfl (by decide)
    (outing_addressed true) (by decide)
  obtain ⟨others, other, again, same, timed, _⟩ := reread_written asciiCasing noZones id 1 2 (reads_outing true)
    (List.replicate 15 0 ++ [1]) outing_keyed rfl (by decide) (outing_addressed true)
    (outing_written true).1 (outing_written true).2
  obtain rfl := Option.some.inj (came.symm.trans again)
  obtain rfl := List.singleton_inj.mp (one.symm.trans same)
  rw [timed] at allDay
  cases allDay

end Invitation
end SyncEngine.Events
