import Mathlib.Data.List.AList
import SyncEngine.Util.Encoding
import SyncEngine.Util.Keyed
import SyncEngine.Util.Raising

/-! An update of an event is dropped when it would change nothing. The test sets a clone's fields and compares
what is shown of them; participants are compared through dictionaries keyed by their address. -/
namespace SyncEngine.EventUpdates

inductive Exc
  | inputError (message : String)
  | keyError (key : String)
  | typeError
  | unparsable
deriving DecidableEq

/-- What `arrow.get` raises. -/
inductive ArrowError
  | invalid
  | parserError (message : String)

/-- JSON values, up to Python's `==`, and stored times, with what the code asks of them. -/
structure Values (V T : Type) where
  null : V
  string : String → V
  /-- The text that is truncated for a column; there is none of null. -/
  text : V → Option Unicode
  isBool : V → Bool
  hashable : V → Bool
  /-- `arrow.get(x).to('utc')` -/
  arrowGet : V → Except ArrowError T
  /-- `dateutil.parser.parse` -/
  dateParse : V → Option T
  earlier : T → T → Bool
  /-- The UTC date of `arrow.get`; without a time it is that of today. -/
  date : Option T → Int
  seconds : T → Int

structure Participant (V : Type) where
  name : Option V
  status : Option V
  email : Option V
  comment : Option V

/-- The columns that an update can set. -/
structure Event (V T : Type) where
  title : Option Unicode
  description : V
  location : Option Unicode
  start : T
  end_ : Option T
  allDay : Bool
  participants : List (Participant V)
  busy : V

/-- The entries of the request that are in `API_MODIFIABLE_FIELDS`. -/
structure Data (V : Type) where
  title : Option V
  description : Option V
  location : Option V
  when_ : Option (List (String × V))
  participants : Option (List (Participant V))
  busy : Option V

inductive ShownWhen
  | time (time : Int)
  | timespan (startTime endTime : Int)
  | date (date : Int)
  | datespan (startDate endDate : Int)
deriving DecidableEq

/-- `_format_participant_data` -/
structure ShownParticipant (V : Type) where
  name : V
  status : V
  email : V
  comment : V
deriving DecidableEq

/-- What `encode` shows of the fields of an update. -/
structure Shown (V : Type) where
  title : Option Unicode
  description : V
  location : Option Unicode
  when_ : ShownWhen
  participants : List (ShownParticipant V)
  busy : V

variable {V T : Type} [DecidableEq V] [DecidableEq T] (values : Values V T)

/-! ## The check of a request -/

/-- `parse_keys` -/
def parseKey (raw : List (String × V)) (key : String) : Except Exc T :=
  match raw.lookup key with
  | none => .error (.keyError key)
  | some x =>
    match values.arrowGet x with
    | .ok time => .ok time
    | .error .invalid => .error (.inputError ("'" ++ key ++ "' parameter invalid."))
    | .error (.parserError message) => .error (.inputError message)

def parseSpan (raw : List (String × V)) (first second : String) : Except Exc Unit := do
  let start ← parseKey values raw first
  let finish ← parseKey values raw second
  if values.earlier finish start then
    throw (.inputError ("'" ++ first ++ "' must be < '" ++ second ++ "'."))

/-- `set('object')` is the set of the letters of the word. -/
def validWhen (raw : List (String × V)) : Except Exc Unit :=
  let given := (raw.map Prod.fst).filter (· ∉ ["o", "b", "j", "e", "c", "t"])
  if given.Perm ["start_time", "end_time"] then parseSpan values raw "start_time" "end_time"
  else if given.Perm ["time"] then (parseKey values raw "time").map fun _ => ()
  else if given.Perm ["start_date", "end_date"] then parseSpan values raw "start_date" "end_date"
  else if given.Perm ["date"] then (parseKey values raw "date").map fun _ => ()
  else .error (.inputError "When object had invalid keys.")

def validParticipant (p : Participant V) : Except Exc Unit := do
  if p.email.isNone then throw (.inputError "'participants' must have email")
  if ∃ status ∈ p.status, status ∉ ["yes", "no", "maybe", "noreply"].map values.string then
    throw (.inputError "'participants' status must be one of: yes, no, maybe, noreply")

def validEventUpdate (data : Data V) : Except Exc Unit := do
  (data.when_.forM (validWhen values))
  if ∃ busy ∈ data.busy, values.isBool busy = false then throw (.inputError "'busy' must be true or false")
  ((data.participants.getD []).forM (validParticipant values))

/-! ## Setting the fields -/

/-- `validate_length` -/
def validateLength (value : Option Unicode) (maxLength : Nat) : Option Unicode :=
  value.map (unicodeSafeTruncate · maxLength)

def titleMaxLen : Nat := 1024

def locationMaxLen : Nat := 255

/-- `when['…']` read by `time_parse` -/
def timeAt (raw : List (String × V)) (key : String) : Except Exc T :=
  match raw.lookup key with
  | none => .error (.keyError key)
  | some x => (values.arrowGet x).mapError fun _ => .unparsable

/-- `when['…']` read by `date_parse` -/
def dateAt (raw : List (String × V)) (key : String) : Except Exc T :=
  match raw.lookup key with
  | none => .error (.keyError key)
  | some x => (values.dateParse x).elim (.error .unparsable) .ok

/-- The setter of `when`: what it makes of start, end and `all_day`, if anything. -/
def whenColumns (raw : List (String × V)) : Except Exc (Option (T × T × Bool)) :=
  if (raw.lookup "time").isSome then do
    let time ← timeAt values raw "time"
    return some (time, time, false)
  else if (raw.lookup "start_time").isSome then do
    let start ← timeAt values raw "start_time"
    let finish ← timeAt values raw "end_time"
    return some (start, finish, false)
  else if (raw.lookup "date").isSome then do
    let date ← dateAt values raw "date"
    return some (date, date, true)
  else if (raw.lookup "start_date").isSome then do
    let start ← dateAt values raw "start_date"
    let finish ← dateAt values raw "end_date"
    return some (start, finish, true)
  else return none

namespace Event

def setTitle (event : Event V T) (value : V) : Event V T :=
  { event with title := validateLength (values.text value) titleMaxLen }

def setLocation (event : Event V T) (value : V) : Event V T :=
  { event with location := validateLength (values.text value) locationMaxLen }

def setWhen (event : Event V T) (raw : List (String × V)) : Except Exc (Event V T) := do
  match ← whenColumns values raw with
  | none => return event
  | some (start, finish, allDay) => return { event with start, end_ := some finish, allDay }

/-- `setattr` for each modifiable field that the data have. -/
def setAll (event : Event V T) (data : Data V) : Except Exc (Event V T) := do
  let event := data.title.elim event (event.setTitle values)
  let event := data.description.elim event fun description => { event with description }
  let event := data.location.elim event (event.setLocation values)
  let event ← data.when_.elim (.ok event) (event.setWhen values)
  let event := data.participants.elim event fun participants => { event with participants }
  return data.busy.elim event fun busy => { event with busy }

/-- `Event().update(event)`, whose columns are truncated once more. -/
def clone (event : Event V T) : Event V T :=
  { event with
    title := validateLength event.title titleMaxLen
    location := validateLength event.location locationMaxLen }

end Event

/-! ## What is shown -/

def formatParticipantData (p : Participant V) : ShownParticipant V :=
  { name := p.name.getD values.null, status := p.status.getD values.null,
    email := p.email.getD values.null, comment := p.comment.getD values.null }

/-- `encode(event.when)` -/
def shownWhen (event : Event V T) : ShownWhen :=
  if event.allDay then
    let start := values.date (some event.start)
    let finish := values.date event.end_
    if start = finish then .date start else .datespan start finish
  else if event.end_ = some event.start then .time (values.seconds event.start)
  else .timespan (values.seconds event.start) (values.seconds (event.end_.getD event.start))

def encode (event : Event V T) : Shown V :=
  { title := event.title, description := event.description, location := event.location,
    when_ := shownWhen values event, busy := event.busy,
    participants := event.participants.map (formatParticipantData values) }

/-- The fields that are compared one by one. -/
def Shown.compared (shown : Shown V) : Option Unicode × V × Option Unicode × ShownWhen × V :=
  (shown.title, shown.description, shown.location, shown.when_, shown.busy)

/-! ## The test for an update without effect -/

/-- `{p['email']: p for p in participants}` -/
def byEmail (participants : List (Participant V)) : Except Exc (AList fun _ : V => Participant V) :=
  participants.foldlM (fun dict p =>
    match p.email with
    | none => .error (.keyError "email")
    | some email => if values.hashable email then .ok (dict.insert email p) else .error .typeError) ∅

/-- The status and the comment, which are all that is compared of two participants. -/
def answer (p : Participant V) : V × V := (p.status.getD values.null, p.comment.getD values.null)

def noopEventUpdate (event : Event V T) (data : Data V) : Except Exc Bool := do
  let e ← event.clone.setAll values data
  if (encode values event).compared ≠ (encode values e).compared then return false
  let eParticipants ← byEmail values e.participants
  let eventParticipants ← byEmail values event.participants
  if eParticipants.keys.length ≠ eventParticipants.keys.length then return false
  return eParticipants.entries.all fun entry =>
    match eventParticipants.lookup entry.1 with
    | none => false
    | some p2 => answer values entry.2 = answer values p2

/-- Every participant has an address that can be a key. -/
def Addressed (participants : List (Participant V)) : Prop :=
  ∀ p ∈ participants, ∃ email, p.email = some email ∧ values.hashable email = true

/-- What the last of the entries with an address has answered. -/
def lastAnswer (participants : List (Participant V)) (email : V) : Option (V × V) :=
  (participants.reverse.find? (·.email.getD values.null = email)).map (answer values)

/-- Two lists name the same addresses, and the last entry of each address answers alike. -/
structure SameAnswers (mine theirs : List (Participant V)) : Prop where
  mine_addressed : Addressed values mine
  theirs_addressed : Addressed values theirs
  answers : ∀ email, lastAnswer values mine email = lastAnswer values theirs email

/-- The update can be made, and it leaves the fields that are not participants as they are shown. -/
def OthersStay (event : Event V T) (data : Data V) : Prop :=
  ∃ e, event.clone.setAll values { data with participants := none } = .ok e ∧
    (encode values event).compared = (encode values e).compared

/-- The event is shown as before, up to the order of its participants. -/
def Shown.Same (before after : Shown V) : Prop :=
  before.compared = after.compared ∧ before.participants.Perm after.participants

/-- An update that is taken to have no effect has none. -/
def NoopSound (event : Event V T) (data : Data V) : Prop :=
  noopEventUpdate values event data = .ok true →
    ∃ after, event.setAll values data = .ok after ∧ (encode values event).Same (encode values after)

/-! ## Participants by address -/
section Participants
variable {values} {mine theirs : List (Participant V)}

omit [DecidableEq T] in
theorem byEmail_ok_iff {participants : List (Participant V)} {dict : AList fun _ : V => Participant V} :
    byEmail values participants = .ok dict ↔
      Addressed values participants ∧ keyed (·.email.getD values.null) participants = dict := by
  unfold byEmail keyed
  generalize (∅ : AList fun _ : V => Participant V) = start
  induction participants generalizing start with
  | nil => simp [Addressed, pure, Except.pure]
  | cons p rest ih =>
    rw [List.foldlM_cons, List.foldl_cons]
    cases email : p.email with
    | none => simp [Addressed, email, bind, Except.bind]
    | some email' =>
      cases hashable : values.hashable email' with
      | false => simp [Addressed, email, hashable, bind, Except.bind]
      | true =>
        simp only [email, hashable, if_true, Option.getD_some]
        refine (ih (start.insert email' p)).trans (and_congr_left' ?_)
        simp [Addressed, email, hashable]

omit [DecidableEq T] in
theorem lookup_byEmail (email : V) :
    ((keyed (·.email.getD values.null) mine).lookup email).map (answer values) =
      lastAnswer values mine email := by
  rw [lookup_keyed]
  rfl

end Participants

/-! ## Setting the fields -/
section Setting
variable {event e : Event V T} {data : Data V}

/-- The event with the fields of an update, and the columns that `when` stands for. -/
def placed (event : Event V T) (data : Data V) (columns : Option (T × T × Bool)) : Event V T :=
  { title := data.title.elim event.title fun title => validateLength (values.text title) titleMaxLen
    description := data.description.getD event.description
    location := data.location.elim event.location fun location =>
      validateLength (values.text location) locationMaxLen
    start := columns.elim event.start fun columns => columns.1
    end_ := columns.elim event.end_ fun columns => some columns.2.1
    allDay := columns.elim event.allDay fun columns => columns.2.2
    participants := data.participants.getD event.participants
    busy := data.busy.getD event.busy }

variable {values}

omit [DecidableEq V] [DecidableEq T] in
/-- Setting the fields can only fail at `when`, whose columns do not depend on the event. -/
theorem setAll_ok_iff : event.setAll values data = .ok e ↔
    ∃ columns, data.when_.elim (.ok none) (whenColumns values) = .ok columns ∧
      placed values event data columns = e := by
  obtain ⟨title, description, location, when_, participants, busy⟩ := data
  cases when_ with
  | none =>
    cases title <;> cases description <;> cases location <;> cases participants <;> cases busy <;>
      simp [Event.setAll, placed, Event.setTitle, Event.setLocation, bind, Except.bind, pure, Except.pure]
  | some raw =>
    cases found : whenColumns values raw with
    | error _ => simp [Event.setAll, Event.setWhen, found, bind, Except.bind]
    | ok columns =>
      cases columns <;> cases title <;> cases description <;> cases location <;> cases participants <;>
        cases busy <;>
        simp [Event.setAll, placed, Event.setTitle, Event.setLocation, Event.setWhen, found, bind, Except.bind,
          pure, Except.pure]

omit [DecidableEq V] [DecidableEq T] in
@[simp] theorem placed_participants (columns : Option (T × T × Bool)) :
    (placed values event data columns).participants = data.participants.getD event.participants := rfl

omit [DecidableEq V] in
/-- What is compared does not depend on the participants. -/
theorem compared_placed_participants (columns : Option (T × T × Bool)) :
    (encode values (placed values event { data with participants := none } columns)).compared =
      (encode values (placed values event data columns)).compared := rfl

omit [DecidableEq V] in
/-- What is not compared to differ on the clone does not differ on the event either. -/
theorem compared_placed {columns : Option (T × T × Bool)}
    (same : (encode values event).compared =
      (encode values (placed values event.clone data columns)).compared) :
    (encode values event).compared = (encode values (placed values event data columns)).compared := by
  simp only [Shown.compared, encode, Prod.mk.injEq] at same ⊢
  obtain ⟨title, description, location, when_, busy⟩ := same
  refine ⟨?_, description, ?_, when_, busy⟩
  · cases given : data.title with
    | none => simp [placed, given]
    | some _ => simpa [placed, given] using title
  · cases given : data.location with
    | none => simp [placed, given]
    | some _ => simpa [placed, given] using location

end Setting

/-! ## What is taken to have no effect -/
section Noop
variable {values} {event : Event V T} {data : Data V}

omit [DecidableEq T] in
/-- Two dictionaries have as many keys and the answers of one are those of the other if and only if every
address has the same last answer. -/
theorem answers_iff {mine theirs : List (Participant V)} :
    (keyed (·.email.getD values.null) mine).keys.length =
        (keyed (·.email.getD values.null) theirs).keys.length ∧
      (keyed (·.email.getD values.null) mine).entries.all (fun entry =>
        match (keyed (·.email.getD values.null) theirs).lookup entry.1 with
        | none => false
        | some p2 => answer values entry.2 = answer values p2) = true ↔
    ∀ email, lastAnswer values mine email = lastAnswer values theirs email := by
  simp only [← lookup_byEmail]
  rw [agree_iff, List.all_eq_true]
  refine and_congr_right' (forall₂_congr fun entry _ => ?_)
  cases (keyed (·.email.getD values.null) theirs).lookup entry.1 with
  | none => simp
  | some p2 => simp [eq_comm]

theorem noop_true_iff : noopEventUpdate values event data = .ok true ↔
    ∃ e, event.clone.setAll values data = .ok e ∧
      (encode values event).compared = (encode values e).compared ∧
      SameAnswers values e.participants event.participants := by
  unfold noopEventUpdate
  constructor
  · intro noop
    obtain ⟨e, set, rest⟩ := bind_ok noop
    split at rest
    next => cases rest
    next same =>
      obtain ⟨mine, keyed_mine, rest⟩ := bind_ok rest
      obtain ⟨theirs, keyed_theirs, rest⟩ := bind_ok rest
      obtain ⟨mine_addressed, rfl⟩ := byEmail_ok_iff.mp keyed_mine
      obtain ⟨theirs_addressed, rfl⟩ := byEmail_ok_iff.mp keyed_theirs
      split at rest
      next => cases rest
      next as_many =>
        exact ⟨e, set, not_not.mp same, mine_addressed, theirs_addressed,
          answers_iff.mp ⟨not_not.mp as_many, Except.ok.inj rest⟩⟩
  · rintro ⟨e, set, same, mine_addressed, theirs_addressed, answers⟩
    obtain ⟨as_many, all⟩ := answers_iff.mpr answers
    simp only [set, same, byEmail_ok_iff.mpr ⟨mine_addressed, rfl⟩, byEmail_ok_iff.mpr ⟨theirs_addressed, rfl⟩,
      as_many, bind, Except.bind, ne_eq, not_true_eq_false, if_false]
    exact congrArg Except.ok all

/-- An update without effect is recognised soundly if and only if it has no participants, or it changes
another field, or an address answers differently, or every participant is in it as often as in the event. -/
theorem noop_sound_iff (event : Event V T) (data : Data V) : NoopSound values event data ↔
    ∀ participants ∈ data.participants, OthersStay values event data →
      SameAnswers values participants event.participants → ∀ shown,
        (event.participants.map (formatParticipantData values)).count shown =
          (participants.map (formatParticipantData values)).count shown := by
  constructor
  · rintro sound participants given ⟨e, set, same⟩ answers
    obtain ⟨columns, found, rfl⟩ := setAll_ok_iff.mp set
    have noop : noopEventUpdate values event data = .ok true := noop_true_iff.mpr
      ⟨placed values event.clone data columns, setAll_ok_iff.mpr ⟨columns, found, rfl⟩,
        same.trans (compared_placed_participants columns), by
        rw [placed_participants, Option.mem_def.mp given]
        exact answers⟩
    obtain ⟨after, made, _, perm⟩ := sound noop
    obtain ⟨columns', _, rfl⟩ := setAll_ok_iff.mp made
    rw [encode, encode, placed_participants, Option.mem_def.mp given] at perm
    exact perm.count_eq
  · intro counts noop
    obtain ⟨e, set, same, answers⟩ := noop_true_iff.mp noop
    obtain ⟨columns, found, rfl⟩ := setAll_ok_iff.mp set
    refine ⟨placed values event data columns, setAll_ok_iff.mpr ⟨columns, found, rfl⟩, compared_placed same, ?_⟩
    rw [encode, encode, placed_participants]
    rw [placed_participants] at answers
    cases given : data.participants with
    | none => exact List.Perm.refl _
    | some participants =>
      have stays : OthersStay values event data :=
        ⟨placed values event.clone { data with participants := none } columns,
          setAll_ok_iff.mpr ⟨columns, found, rfl⟩, same.trans (compared_placed_participants columns).symm⟩
      rw [given] at answers
      exact List.perm_iff_count.mpr (counts participants given stays answers)

/-- Texts and null. The event and the update differ in the name of the one participant. -/
def texts : Values (Option String) Int :=
  { null := none, string := some, text := Option.map String.toList, isBool := fun _ => false,
    hashable := fun _ => true, arrowGet := fun _ => .error .invalid, dateParse := fun _ => none,
    earlier := (· < ·), date := fun time => time.getD 0 / 86400, seconds := id }

def attendee (name : String) : Participant (Option String) :=
  { name := some (some name), status := some (some "yes"), email := some (some "a@x.org"), comment := none }

def meeting : Event (Option String) Int :=
  { title := none, description := none, location := none, start := 0, end_ := some 3600, allDay := false,
    participants := [attendee "Ann"], busy := none }

def newName : Data (Option String) :=
  { title := none, description := none, location := none, when_ := none,
    participants := some [attendee "Anna"], busy := none }

/-- A new name of a participant is lost. -/
theorem renaming_is_dropped :
    ¬ ∀ (V T : Type) [DecidableEq V] [DecidableEq T] (values : Values V T) (event : Event V T) (data : Data V),
      validEventUpdate values data = .ok () → NoopSound values event data := by
  intro sound
  have dropped : noopEventUpdate texts meeting newName = .ok true := by rfl
  obtain ⟨after, made, _, perm⟩ := sound _ _ texts meeting newName rfl dropped
  obtain rfl := Except.ok.inj (made.symm.trans (show _ = Except.ok
    { meeting with participants := [attendee "Anna"] } from rfl))
  revert perm
  decide

end Noop

end SyncEngine.EventUpdates
