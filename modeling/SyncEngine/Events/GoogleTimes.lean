import SyncEngine.Models.Event
import SyncEngine.Util.Calendar
import SyncEngine.Util.Traversal

/-! Events on their way to Google's calendar and back: what is written of an event, and which times
are read from it. -/
namespace SyncEngine.Events
namespace Google
open Calendar

/-- A time of Google's: a date, or a time with its zone. -/
inductive RawTime where
  | date (date : Unicode)
  | dateTime (dateTime timeZone : Unicode)
deriving DecidableEq

structure Attendee where
  displayName : Option Unicode
  responseStatus : Unicode
  email : Option Unicode
  additionalGuests : List Unicode
deriving DecidableEq

structure Dump where
  summary : Option Unicode
  description : Option Unicode
  location : Option Unicode
  transparency : Unicode
  start : RawTime
  end_ : RawTime
  attendees : List Attendee
deriving DecidableEq

inductive DumpError where
  | valueError
  | keyError
deriving DecidableEq

def STATUS_MAP : List (Unicode × Unicode) :=
  [("accepted".toList, "yes".toList), ("needsAction".toList, "noreply".toList),
    ("declined".toList, "no".toList), ("tentative".toList, "maybe".toList)]

def inverseStatusMap (status : Unicode) : Option Unicode :=
  (STATUS_MAP.find? fun entry => entry.2 = status).map Prod.fst

def dumpAttendee (p : Participant) : Except DumpError Attendee :=
  match inverseStatusMap p.status with
  | none => .error .keyError
  | some responseStatus => .ok {
      displayName := p.name
      responseStatus
      email := p.email
      additionalGuests := p.guests }

def dumpTime (allDay : Bool) (instant : Int) : Except DumpError RawTime :=
  if allDay then
    match strftime (fun t => isoDate (dayOf t)) instant with
    | none => .error .valueError
    | some date => .ok (.date date)
  else .ok (.dateTime (isoformat instant) "UTC".toList)

def dumpEvent (event : Event) : Except DumpError Dump := do
  let start ← dumpTime event.allDay event.start
  let end_ ← dumpTime event.allDay event.end_
  let attendees ← event.participants.mapM dumpAttendee
  return {
    summary := event.title
    description := event.description
    location := event.location
    transparency := if event.busy then "opaque".toList else "transparent".toList
    start
    end_
    attendees }

structure EventTime where
  start : Int
  end_ : Int
  allDay : Bool
deriving DecidableEq

/-- `DateSpan.parse` and `TimeSpan.parse`: equal times make the singular form. -/
def parseSpan (allDay : Bool) (start end_ : Int) : Option EventTime :=
  if end_ < start then none
  else if start = end_ then some ⟨start, start, allDay⟩
  else some ⟨start, end_, allDay⟩

section Reading
variable (arrowGet : Unicode → Option Int)

def parseGoogleTime : RawTime → Option Int
  | .date date => arrowGet date
  | .dateTime dateTime _ => arrowGet dateTime

/-- A day is taken off the end of whole days. -/
def googleToEventTime (startRaw endRaw : RawTime) : Option EventTime := do
  let first ← parseGoogleTime arrowGet startRaw
  let last ← parseGoogleTime arrowGet endRaw
  let (start, end_) := if last < first then (last, first) else (first, last)
  match startRaw with
  | .date _ => parseSpan true start (max start (end_ - 86400))
  | .dateTime .. => parseSpan false start end_

/-- `arrow.get` reads what is written of the event: a date is its first instant in UTC. -/
structure Reads (event : Event) : Prop where
  date : ∀ t ∈ [event.start, event.end_], arrowGet (isoDate (dayOf t)) = some (midnight (dayOf t))
  dateTime : ∀ t ∈ [event.start, event.end_], arrowGet (isoformat t) = some t

/-- Whole days are compared as dates. -/
def SameTime (allDay : Bool) (a b : Int) : Prop := if allDay then dayOf a = dayOf b else a = b

/-- The event comes back with its times. -/
def RoundTrip (event : Event) : Prop :=
  ∃ dump time, dumpEvent event = .ok dump ∧
    googleToEventTime arrowGet dump.start dump.end_ = some time ∧ time.allDay = event.allDay ∧
    SameTime event.allDay time.start event.start ∧ SameTime event.allDay time.end_ event.end_

instance (a b : Int) : Decidable (SameTime allDay a b) := by
  unfold SameTime
  infer_instance

instance (event : Event) : Decidable (RoundTrip arrowGet event) :=
  match dumped : dumpEvent event with
  | .error _ => isFalse fun ⟨_, _, other, _⟩ => by simp [dumped] at other
  | .ok dump =>
    match read : googleToEventTime arrowGet dump.start dump.end_ with
    | none => isFalse fun ⟨_, _, other, found, _⟩ => by
      cases dumped.symm.trans other
      simp [read] at found
    | some time =>
      decidable_of_iff (time.allDay = event.allDay ∧ SameTime event.allDay time.start event.start ∧
          SameTime event.allDay time.end_ event.end_) <| by
        constructor
        · exact fun same => ⟨dump, time, dumped, read, same⟩
        · rintro ⟨_, _, other, found, same⟩
          cases dumped.symm.trans other
          cases read.symm.trans found
          exact same

end Reading

/-- Google has a word for each status, and an event of whole days takes one day, in 1900 or later. -/
def Representable (event : Event) : Prop :=
  (∀ p ∈ event.participants, (inverseStatusMap p.status).isSome) ∧
    (event.allDay = true → dayOf event.start = dayOf event.end_ ∧ 1900 ≤ yearOf event.start)

instance (event : Event) : Decidable (Representable event) := by
  unfold Representable
  infer_instance

section Times
variable {event : Event} {arrowGet : Unicode → Option Int}

theorem dumpTime_isOk_iff (allDay : Bool) (instant : Int) :
    (∃ raw, dumpTime allDay instant = .ok raw) ↔ (allDay = true → 1900 ≤ yearOf instant) := by
  unfold dumpTime strftime
  cases allDay with
  | false => simp
  | true =>
    by_cases old : yearOf instant < 1900
    · simp [old]
    · simpa [old] using Int.not_lt.mp old

theorem mapM_dumpAttendee_isOk_iff (participants : List Participant) :
    (∃ attendees, participants.mapM dumpAttendee = .ok attendees) ↔
      ∀ p ∈ participants, (inverseStatusMap p.status).isSome := by
  refine mapM_isOk_iff.trans (forall₂_congr fun p _ => ?_)
  unfold dumpAttendee
  cases known : inverseStatusMap p.status with
  | none | some status => simp

/-- What is written of the times, and when the whole event can be written. -/
theorem dumpEvent_iff (event : Event) (start end_ : RawTime) :
    (∃ dump, dumpEvent event = .ok dump ∧ dump.start = start ∧ dump.end_ = end_) ↔
      (∀ p ∈ event.participants, (inverseStatusMap p.status).isSome) ∧
        dumpTime event.allDay event.start = .ok start ∧ dumpTime event.allDay event.end_ = .ok end_ := by
  rw [← mapM_dumpAttendee_isOk_iff]
  constructor
  · rintro ⟨dump, dumped, rfl, rfl⟩
    unfold dumpEvent at dumped
    cases first : dumpTime event.allDay event.start with
    | error => simp only [first, bind, Except.bind, reduceCtorEq] at dumped
    | ok raw =>
      cases last : dumpTime event.allDay event.end_ with
      | error => simp only [first, last, bind, Except.bind, reduceCtorEq] at dumped
      | ok rawEnd =>
        cases written : event.participants.mapM dumpAttendee with
        | error => simp only [first, last, written, bind, Except.bind, reduceCtorEq] at dumped
        | ok attendees =>
          simp only [first, last, written, bind, Except.bind, pure, Except.pure, Except.ok.injEq] at dumped
          subst dumped
          exact ⟨⟨attendees, rfl⟩, rfl, rfl⟩
  · rintro ⟨⟨attendees, written⟩, first, last⟩
    unfold dumpEvent
    simp only [first, last, written, bind, Except.bind, pure, Except.pure]
    exact ⟨_, rfl, rfl, rfl⟩

/-- Of whole days the last one is lost, unless it is the first as well. -/
theorem read_dates (reads : Reads arrowGet event) (ordered : event.start ≤ event.end_) :
    googleToEventTime arrowGet (.date (isoDate (dayOf event.start))) (.date (isoDate (dayOf event.end_))) =
      some ⟨midnight (dayOf event.start),
        max (midnight (dayOf event.start)) (midnight (dayOf event.end_) - 86400), true⟩ := by
  have days : midnight (dayOf event.start) ≤ midnight (dayOf event.end_) :=
    midnight_le_iff.mpr (dayOf_mono ordered)
  have first := reads.date event.start (by simp)
  have last := reads.date event.end_ (by simp)
  have sorted : ¬ midnight (dayOf event.end_) < midnight (dayOf event.start) := Int.not_lt.mpr days
  simp only [googleToEventTime, parseGoogleTime, first, last, Option.bind_eq_bind, Option.bind_some,
    if_neg sorted, parseSpan]
  grind

theorem read_times (reads : Reads arrowGet event) (ordered : event.start ≤ event.end_) (zone : Unicode) :
    googleToEventTime arrowGet (.dateTime (isoformat event.start) zone)
        (.dateTime (isoformat event.end_) zone) =
      some ⟨event.start, event.end_, false⟩ := by
  have first := reads.dateTime event.start (by simp)
  have last := reads.dateTime event.end_ (by simp)
  have sorted : ¬ event.end_ < event.start := Int.not_lt.mpr ordered
  simp only [googleToEventTime, parseGoogleTime, first, last, Option.bind_eq_bind, Option.bind_some,
    if_neg sorted, parseSpan]
  grind

/-- The end that is read is on the day of the event's end just when the event takes one day. -/
theorem end_day_iff {first last : Int} (ordered : first ≤ last) :
    dayOf (max (midnight first) (midnight last - 86400)) = last ↔ first = last := by
  unfold dayOf midnight
  omega

end Times

/-- The times of an event survive just when the event takes no whole days, or a single one. -/
theorem times_survive_iff (arrowGet : Unicode → Option Int) (event : Event)
    (reads : Reads arrowGet event) (ordered : event.start ≤ event.end_) :
    RoundTrip arrowGet event ↔ Representable event := by
  have written : RoundTrip arrowGet event ↔ ∃ start end_ time,
      ((∀ p ∈ event.participants, (inverseStatusMap p.status).isSome) ∧
        dumpTime event.allDay event.start = .ok start ∧ dumpTime event.allDay event.end_ = .ok end_) ∧
      googleToEventTime arrowGet start end_ = some time ∧ time.allDay = event.allDay ∧
      SameTime event.allDay time.start event.start ∧ SameTime event.allDay time.end_ event.end_ := by
    simp only [← dumpEvent_iff]
    constructor
    · rintro ⟨dump, time, dumped, rest⟩
      exact ⟨_, _, time, ⟨dump, dumped, rfl, rfl⟩, rest⟩
    · rintro ⟨_, _, time, ⟨dump, dumped, rfl, rfl⟩, rest⟩
      exact ⟨dump, time, dumped, rest⟩
  rw [written, Representable]
  cases whole : event.allDay with
  | false =>
    simp only [dumpTime, Bool.false_eq_true, if_false, SameTime, false_implies, and_true]
    constructor
    · rintro ⟨_, _, _, ⟨known, _⟩, _⟩
      exact known
    · intro known
      exact ⟨_, _, _, ⟨known, rfl, rfl⟩, read_times reads ordered _, rfl, rfl, rfl⟩
  | true =>
    have days := dayOf_mono ordered
    simp only [dumpTime, if_true, SameTime, forall_const]
    constructor
    · rintro ⟨_, _, time, ⟨known, first, last⟩, read, _, _, end_day⟩
      have recent : 1900 ≤ yearOf event.start :=
        (dumpTime_isOk_iff true event.start).mp ⟨_, by simpa [dumpTime] using first⟩ rfl
      have recent_end : 1900 ≤ yearOf event.end_ :=
        (dumpTime_isOk_iff true event.end_).mp ⟨_, by simpa [dumpTime] using last⟩ rfl
      simp only [strftime, if_neg (Int.not_lt.mpr recent), Except.ok.injEq] at first
      simp only [strftime, if_neg (Int.not_lt.mpr recent_end), Except.ok.injEq] at last
      subst first last
      rw [read_dates reads ordered, Option.some.injEq] at read
      subst read
      exact ⟨known, (end_day_iff days).mp end_day, recent⟩
    · rintro ⟨known, one, recent⟩
      have recent_end : 1900 ≤ yearOf event.end_ := by rwa [yearOf, ← one]
      simp only [strftime, if_neg (Int.not_lt.mpr recent), if_neg (Int.not_lt.mpr recent_end)]
      refine ⟨_, _, _, ⟨known, rfl, rfl⟩, read_dates reads ordered, rfl, dayOf_midnight _, ?_⟩
      exact (end_day_iff days).mpr one

/-! ## A conference from the fourth of September 2014 on -/

def conference (lastDay : Int) : Event where
  namespace_ := some 1
  calendar := some 2
  uid := "conference".toList
  providerName := some "Google Calendar".toList
  source := .here
  rawData := []
  title := some "Conference".toList
  owner := none
  description := none
  location := none
  busy := true
  readOnly := false
  reminders := none
  recurrence := none
  start := midnight 16317
  end_ := midnight lastDay
  allDay := true
  isOwner := true
  lastModified := none
  status := .confirmed
  message := none
  participants := []
  sequenceNumber := some 0
  kind := .event

/-- `arrow.get` on the texts of the conference. -/
def readText (text : Unicode) : Option Int :=
  if text = "2014-09-04".toList ∨ text = "2014-09-04T00:00:00+00:00".toList then some 1409788800
  else if text = "2014-09-05".toList ∨ text = "2014-09-05T00:00:00+00:00".toList then some 1409875200
  else none

theorem reads_conference (lastDay : Int) (near : lastDay = 16317 ∨ lastDay = 16318) :
    Reads readText (conference lastDay) := by
  rcases near with rfl | rfl <;> constructor <;> decide +kernel

theorem one_day_survives : RoundTrip readText (conference 16317) :=
  (times_survive_iff readText (conference 16317) (reads_conference 16317 (.inl rfl)) (by decide)).mpr
    (by decide +kernel)

/-- With a second day the conference comes back a day shorter. -/
theorem second_day_lost : ¬ ∀ arrowGet event, Reads arrowGet event → event.start ≤ event.end_ →
    RoundTrip arrowGet event := by
  intro always
  have survives := always readText (conference 16318) (reads_conference 16318 (.inr rfl)) (by decide)
  exact absurd survives (by decide +kernel)

end Google
end SyncEngine.Events
