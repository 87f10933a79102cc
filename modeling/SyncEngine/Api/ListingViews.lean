import SyncEngine.Api.Filtering

/-! The three views of a listing agree for threads and for events as they are stored. For messages and files
this depends on the rows of the joins, and where recurring events are expanded it fails for all but nothing. -/
namespace SyncEngine.Filtering
variable {T I : Type} [DecidableEq T] [DecidableEq I]
variable (texts : Texts T I) (db : Database T I) (namespaceId : Nat)

/-! ## What satisfies the filters -/

def messageSatisfies (filters : MessageFilters T I) (message : Message T I) : Bool :=
  (db.threads.any fun thread =>
    message.threadId = thread.id && messagePasses texts db namespaceId filters message thread) &&
  filters.filename.all (fun filename => fileMatches db namespaceId filename message ≠ []) &&
  filters.in_.all fun in_ => categoryMatches texts db namespaceId in_ message ≠ []

/-- The attachments that a block is, of the message that is asked for if there is one. -/
def attachments (filters : FileFilters T I) (block : Block T I) : List Part :=
  db.parts.filter fun part => part.blockId = some block.id && part.contentDisposition.isSome &&
    filters.messagePublicId.all fun messagePublicId =>
      db.messages.any fun message => part.messageId = some message.id && message.publicId = messagePublicId

def fileSatisfies (filters : FileFilters T I) (block : Block T I) : Bool :=
  blockPasses namespaceId filters block && (attachments db filters block ≠ [] ||
    (filters.messagePublicId.isNone && db.parts.all (·.blockId ≠ some block.id)))

def eventSatisfies (filters : EventFilters T I) (expandRecurring : Bool) (event : Event T I) : Bool :=
  eventPasses texts namespaceId filters event &&
  filters.calendarPublicId.all (fun publicId => joinCalendar db namespaceId event publicId ≠ []) &&
  eventPredicate filters expandRecurring event

variable (expansion : Expansion T I)

/-- The bounds that the filters give for the starts of a recurring event. -/
def window (filters : EventFilters T I) (r : Event T I) : Option Int × Option Int :=
  (filters.startsAfter <|> filters.endsAfter.map (· - expansion.length r),
    filters.startsBefore <|> filters.endsBefore.map (· - expansion.length r))

/-- What a recurring event expands to between two bounds. -/
def Expansion.within (bounds : Option Int × Option Int) (r : Event T I) : List (Event T I) :=
  expansion.allEvents r bounds.1 bounds.2

/-- Events that do not recur, and what each recurring one expands to within its own bounds. -/
def expandedSatisfying (filters : EventFilters T I) : List (Event T I) :=
  db.events.filter (fun event => eventSatisfies texts db namespaceId filters true event &&
      event.discriminator = .event) ++
    (recurQuery texts db namespaceId filters).flatMap fun r => expansion.within (window expansion filters r) r

inductive Request (T I : Type)
  | threads (filters : Filters T I)
  | messagesOrDrafts (filters : MessageFilters T I)
  | files (filters : FileFilters T I)
  | events (filters : EventFilters T I) (expandRecurring : Bool)

/-- The views of a listing agree on the objects that satisfy its filters. -/
def Agrees : Request T I → Prop
  | .threads filters =>
    let satisfying := db.threads.filter (threadPasses texts db namespaceId filters)
    (threads texts db namespaceId filters).Agree Thread.publicId satisfying
      (Views.Total Thread.Before satisfying)
  | .messagesOrDrafts filters =>
    let satisfying := db.messages.filter (messageSatisfies texts db namespaceId filters)
    (messagesOrDrafts texts db namespaceId filters).Agree Message.publicId satisfying
      (Views.Total Message.Before satisfying)
  | .files filters =>
    let satisfying := db.blocks.filter (fileSatisfies db namespaceId filters)
    (files db namespaceId filters).Agree Block.publicId satisfying (Views.Total Block.Before satisfying)
  | .events filters expandRecurring =>
    let satisfying := if expandRecurring then expandedSatisfying texts db namespaceId expansion filters
      else db.events.filter (eventSatisfies texts db namespaceId filters false)
    (events texts db namespaceId expansion filters expandRecurring).Agree Event.publicId satisfying
      (Views.Total Event.Before satisfying)

/-- A filter that is a join matches each object that satisfies the filters once; and if recurring events are
expanded there is nothing to list, neither within an event's own bounds nor within those of the first one. -/
def OneRowEach : Request T I → Prop
  | .threads _ | .events _ false => True
  | .messagesOrDrafts filters =>
    ∀ message ∈ db.messages, messageSatisfies texts db namespaceId filters message →
      (∀ filename ∈ filters.filename, (fileMatches db namespaceId filename message).length = 1) ∧
      ∀ in_ ∈ filters.in_, (categoryMatches texts db namespaceId in_ message).length = 1
  | .files filters =>
    ∀ block ∈ db.blocks, fileSatisfies db namespaceId filters block →
      (attachments db filters block).length ≤ 1
  | .events filters true =>
    (∀ event ∈ db.events, eventSatisfies texts db namespaceId filters true event →
      event.discriminator ≠ .event) ∧
    ∀ r ∈ recurQuery texts db namespaceId filters, expansion.within (window expansion filters r) r = [] ∧
      ∀ first ∈ (recurQuery texts db namespaceId filters).head?,
        expansion.within (window expansion filters first) r = []

variable {texts db namespaceId expansion}

/-! ## Joins -/

theorem length_optionalJoin {α β : Type} (filter : Option α) (matching : α → List β) :
    (optionalJoin filter matching).length = filter.elim 1 fun value => (matching value).length := by
  cases filter <;> simp [optionalJoin]

theorem optionalJoin_pos {α β : Type} {filter : Option α} {matching : α → List β} :
    0 < (optionalJoin filter matching).length ↔ ∀ value ∈ filter, matching value ≠ [] := by
  cases filter <;> simp [length_optionalJoin, List.length_pos_iff]

theorem optionalJoin_eq_one {α β : Type} {filter : Option α} {matching : α → List β} :
    (optionalJoin filter matching).length = 1 ↔ ∀ value ∈ filter, (matching value).length = 1 := by
  cases filter <;> simp [length_optionalJoin]

theorem threads_agree {filters : Filters T I} : Agrees texts db namespaceId expansion (.threads filters) :=
  Views.agree_ofRows (db.thread_public_ids.sublist (List.filter_sublist.map Thread.publicId))
    (List.Perm.refl _) rfl

/-! ## Messages -/
section Messages
variable (texts db namespaceId) (filters : MessageFilters T I) (message : Message T I)

/-- The rows that a message has before a filter is joined. -/
def threadRows : List (Thread T I) :=
  db.threads.filter fun thread => message.threadId = thread.id &&
    messagePasses texts db namespaceId filters message thread

def rowsOfMessage : Nat :=
  (threadRows texts db namespaceId filters message).length *
    ((optionalJoin filters.filename (fileMatches db namespaceId · message)).length *
      (optionalJoin filters.in_ (categoryMatches texts db namespaceId · message)).length)

theorem messageRows_eq :
    messageRows texts db namespaceId filters =
      Views.joined (rowsOfMessage texts db namespaceId filters) db.messages := by
  simp only [messageRows, Views.joined, rowsOfMessage, threadRows, List.map_const', Views.flatMap_replicate]

variable {texts db namespaceId filters message}

theorem threadRows_le_one : (threadRows texts db namespaceId filters message).length ≤ 1 := by
  refine Views.length_filter_le_one (k := message.threadId) db.thread_ids fun thread _ passes => ?_
  exact (of_decide_eq_true (Bool.and_eq_true_iff.mp passes).1).symm

theorem messageSatisfies_iff : messageSatisfies texts db namespaceId filters message = true ↔
    threadRows texts db namespaceId filters message ≠ [] ∧
      (∀ filename ∈ filters.filename, fileMatches db namespaceId filename message ≠ []) ∧
      ∀ in_ ∈ filters.in_, categoryMatches texts db namespaceId in_ message ≠ [] := by
  simp [messageSatisfies, threadRows, Option.all_eq_true, and_assoc]

theorem rowsOfMessage_pos : 0 < rowsOfMessage texts db namespaceId filters message ↔
    messageSatisfies texts db namespaceId filters message = true := by
  rw [rowsOfMessage, Nat.pos_iff_ne_zero, Nat.mul_ne_zero_iff, Nat.mul_ne_zero_iff, ← Nat.pos_iff_ne_zero,
    ← Nat.pos_iff_ne_zero, ← Nat.pos_iff_ne_zero, optionalJoin_pos, optionalJoin_pos, List.length_pos_iff,
    messageSatisfies_iff]

/-- A message that satisfies the filters is there once if every join matches it once. -/
theorem rowsOfMessage_le_one (satisfies : messageSatisfies texts db namespaceId filters message = true) :
    rowsOfMessage texts db namespaceId filters message ≤ 1 ↔
      (∀ filename ∈ filters.filename, (fileMatches db namespaceId filename message).length = 1) ∧
      ∀ in_ ∈ filters.in_, (categoryMatches texts db namespaceId in_ message).length = 1 := by
  obtain ⟨in_thread, some_file, some_category⟩ := messageSatisfies_iff.mp satisfies
  have thread : (threadRows texts db namespaceId filters message).length = 1 :=
    Nat.le_antisymm threadRows_le_one (List.length_pos_iff.mpr in_thread)
  have files := optionalJoin_pos.mpr some_file
  have categories := optionalJoin_pos.mpr some_category
  rw [rowsOfMessage, thread, Nat.one_mul, ← optionalJoin_eq_one, ← optionalJoin_eq_one]
  constructor
  · intro one
    exact ⟨Nat.le_antisymm (Nat.le_trans (Nat.le_mul_of_pos_right _ categories) one) files,
      Nat.le_antisymm (Nat.le_trans (Nat.le_mul_of_pos_left _ files) one) categories⟩
  · rintro ⟨one_file, one_category⟩
    exact Nat.le_of_eq (by simp [one_file, one_category])

theorem messages_agree_iff (filters : MessageFilters T I) :
    Agrees texts db namespaceId expansion (.messagesOrDrafts filters) ↔
      OneRowEach texts db namespaceId expansion (.messagesOrDrafts filters) := by
  have matching : db.messages.filter (messageSatisfies texts db namespaceId filters) =
      db.messages.filter (0 < rowsOfMessage texts db namespaceId filters ·) :=
    List.filter_congr fun message _ => by
      rw [Bool.eq_iff_iff, decide_eq_true_iff, rowsOfMessage_pos]
  simp only [Agrees, OneRowEach, messagesOrDrafts, messageRows_eq, matching]
  rw [Views.agree_joined_iff db.message_public_ids]
  refine forall₂_congr fun message _ => ?_
  by_cases satisfies : messageSatisfies texts db namespaceId filters message = true
  · rw [rowsOfMessage_le_one satisfies]
    exact ⟨fun one _ => one, fun one => one satisfies⟩
  · have no_row := Nat.eq_zero_of_not_pos (mt rowsOfMessage_pos.mp satisfies)
    exact ⟨fun _ holds => absurd holds satisfies, fun _ => no_row ▸ Nat.zero_le 1⟩

end Messages

/-! ## Files -/
section Files
variable {filters : FileFilters T I} {block : Block T I}

variable (db namespaceId filters block) in
def rowsOfBlock : Nat :=
  if blockPasses namespaceId filters block then (blockRows db filters block).length else 0

theorem fileRows_eq : fileRows db namespaceId filters =
    Views.joined (rowsOfBlock db namespaceId filters) db.blocks := by
  simp only [fileRows, List.map_const']
  exact Views.joined_filter _

omit [DecidableEq T] in
/-- A part is joined with the message that is asked for at most once. -/
theorem joinMessage_le_one {messagePublicId : I} (row : Option Part) :
    (joinMessage db messagePublicId row).length ≤ 1 := by
  refine Views.length_filter_le_one (k := messagePublicId) db.message_public_ids fun message _ joined => ?_
  exact of_decide_eq_true (Bool.and_eq_true_iff.mp joined).2

omit [DecidableEq T] in
/-- A block without parts has a row of its own, which is no part of a message. -/
theorem length_blockRows_of_none (no_part : db.parts.filter (·.blockId = some block.id) = []) :
    (blockRows db filters block).length = if filters.messagePublicId.isNone then 1 else 0 := by
  simp only [blockRows, outerjoinPart, no_part]
  cases filters.messagePublicId <;> simp [joinMessage]

omit [DecidableEq T] in
/-- A row stays for a part of the message that is asked for. -/
theorem length_joinMessage (messagePublicId : I) (rows : List (Option Part)) :
    (rows.flatMap fun row => (joinMessage db messagePublicId row).map fun _ => row).length =
      (rows.filter fun row => db.messages.any fun message =>
        row.bind Part.messageId = some message.id && message.publicId = messagePublicId).length := by
  simp only [List.map_const']
  refine congrArg List.length ((Views.joined_of_le_one fun row _ => joinMessage_le_one row).trans ?_)
  refine List.filter_congr fun row _ => ?_
  rw [Bool.eq_iff_iff, decide_eq_true_iff, List.length_pos_iff]
  simp [joinMessage]

omit [DecidableEq T] in
theorem length_blockRows_of_some (some_part : db.parts.filter (·.blockId = some block.id) ≠ []) :
    (blockRows db filters block).length = (attachments db filters block).length := by
  have outer : outerjoinPart db block = (db.parts.filter (·.blockId = some block.id)).map some := by
    unfold outerjoinPart
    split
    next no_part => exact absurd no_part some_part
    next => rfl
  have rows : (outerjoinPart db block).filter (fun row => row.all (·.contentDisposition.isSome)) =
      ((db.parts.filter (·.blockId = some block.id)).filter (·.contentDisposition.isSome)).map some := by
    rw [outer, List.filter_map]
    rfl
  unfold blockRows attachments
  rw [rows]
  cases filters.messagePublicId with
  | none => simp [List.filter_filter, Bool.and_comm]
  | some messagePublicId =>
    dsimp only
    rw [length_joinMessage, List.filter_map, List.length_map, List.filter_filter, List.filter_filter]
    refine congrArg List.length (List.filter_congr fun part _ => ?_)
    rw [Function.comp_apply, Option.all_some, Option.bind_some]
    ac_rfl

omit [DecidableEq T] in
theorem attachments_of_none (no_part : db.parts.filter (·.blockId = some block.id) = []) :
    attachments db filters block = [] := by
  refine List.filter_eq_nil_iff.mpr fun part member attached => ?_
  refine List.filter_eq_nil_iff.mp no_part part member ?_
  exact (Bool.and_eq_true_iff.mp (Bool.and_eq_true_iff.mp attached).1).1

theorem fileSatisfies_eq (passes : blockPasses namespaceId filters block = true) :
    fileSatisfies db namespaceId filters block = true ↔ attachments db filters block ≠ [] ∨
      (filters.messagePublicId.isNone ∧ db.parts.filter (·.blockId = some block.id) = []) := by
  simp [fileSatisfies, passes, List.filter_eq_nil_iff]

theorem rowsOfBlock_pos : 0 < rowsOfBlock db namespaceId filters block ↔
    fileSatisfies db namespaceId filters block = true := by
  unfold rowsOfBlock
  split
  next passes =>
    rw [fileSatisfies_eq passes]
    by_cases no_part : db.parts.filter (·.blockId = some block.id) = []
    · rw [length_blockRows_of_none no_part, attachments_of_none no_part]
      simp [no_part, Nat.pos_iff_ne_zero]
    · rw [length_blockRows_of_some no_part, List.length_pos_iff]
      simp [no_part]
  next fails => simp [fileSatisfies, fails]

theorem rowsOfBlock_le_one (satisfies : fileSatisfies db namespaceId filters block = true) :
    rowsOfBlock db namespaceId filters block ≤ 1 ↔ (attachments db filters block).length ≤ 1 := by
  have passes := (Bool.and_eq_true_iff.mp satisfies).1
  rw [rowsOfBlock, if_pos passes]
  by_cases no_part : db.parts.filter (·.blockId = some block.id) = []
  · rw [length_blockRows_of_none no_part, attachments_of_none no_part]
    refine iff_of_true ?_ (Nat.zero_le 1)
    split <;> decide
  · rw [length_blockRows_of_some no_part]

theorem files_agree_iff (filters : FileFilters T I) :
    Agrees texts db namespaceId expansion (.files filters) ↔
      OneRowEach texts db namespaceId expansion (.files filters) := by
  have matching : db.blocks.filter (fileSatisfies db namespaceId filters) =
      db.blocks.filter (0 < rowsOfBlock db namespaceId filters ·) :=
    List.filter_congr fun block _ => by
      rw [Bool.eq_iff_iff, decide_eq_true_iff, rowsOfBlock_pos]
  simp only [Agrees, OneRowEach, files, fileRows_eq, matching]
  rw [Views.agree_distinct_iff db.block_public_ids]
  refine forall₂_congr fun block _ => ?_
  by_cases satisfies : fileSatisfies db namespaceId filters block = true
  · rw [rowsOfBlock_le_one satisfies]
    exact ⟨fun one _ => one, fun one => one satisfies⟩
  · have no_row := Nat.eq_zero_of_not_pos (mt rowsOfBlock_pos.mp satisfies)
    exact ⟨fun _ holds => absurd holds satisfies, fun _ => no_row ▸ Nat.zero_le 1⟩

end Files

/-! ## Events -/
section Events
variable {filters : EventFilters T I}

omit [DecidableEq T] in
/-- An event has one calendar. -/
theorem joinCalendar_le_one {event : Event T I} {publicId : I} :
    (joinCalendar db namespaceId event publicId).length ≤ 1 := by
  refine Views.length_filter_le_one (k := event.calendarId) db.calendar_ids fun calendar _ joined => ?_
  exact (of_decide_eq_true (Bool.and_eq_true_iff.mp (Bool.and_eq_true_iff.mp joined).1).1).symm

omit [DecidableEq T] in
theorem filterEventQuery_eq (events : List (Event T I)) :
    filterEventQuery texts db namespaceId filters events = events.filter fun event =>
      eventPasses texts namespaceId filters event &&
        filters.calendarPublicId.all fun publicId => joinCalendar db namespaceId event publicId ≠ [] := by
  have one : ∀ event,
      (optionalJoin filters.calendarPublicId (joinCalendar db namespaceId event)).length ≤ 1 := by
    intro event
    rw [length_optionalJoin]
    cases filters.calendarPublicId with
    | none => exact Nat.le_refl 1
    | some publicId => exact joinCalendar_le_one
  simp only [filterEventQuery, List.map_const']
  refine (Views.joined_of_le_one fun event _ => one event).trans ?_
  rw [List.filter_filter]
  refine List.filter_congr fun event _ => ?_
  rw [Bool.and_comm, Bool.eq_iff_iff, Bool.and_eq_true_iff, decide_eq_true_iff, optionalJoin_pos]
  simp [Option.all_eq_true]

omit [DecidableEq T] in
theorem eventRows_eq (expandRecurring : Bool) : eventRows texts db namespaceId filters expandRecurring =
    db.events.filter (eventSatisfies texts db namespaceId filters expandRecurring) := by
  rw [eventRows, filterEventQuery_eq, List.filter_filter]
  refine List.filter_congr fun event _ => ?_
  rw [eventSatisfies, Bool.and_comm]

theorem stored_events_agree : Agrees texts db namespaceId expansion (.events filters false) := by
  simp only [Agrees, events, Bool.false_eq_true, if_false, eventRows_eq]
  exact Views.agree_ofRows (db.event_public_ids.sublist (List.filter_sublist.map Event.publicId))
    (List.Perm.refl _) rfl

omit [DecidableEq T] [DecidableEq I] in
/-- Bounds that have been worked out stay. -/
theorem expand_fixed {before after : Option Int} (events : List (Event T I))
    (fixed_before : ∀ length : Int, (before <|> filters.endsBefore.map (· - length)) = before)
    (fixed_after : ∀ length : Int, (after <|> filters.endsAfter.map (· - length)) = after) :
    expand expansion filters before after events = events.flatMap (expansion.within (after, before)) := by
  induction events with
  | nil => rfl
  | cons r rest ih =>
    rw [expand, fixed_before, fixed_after, ih]
    rfl

omit [DecidableEq T] in
/-- Every recurring event is expanded within the bounds of the first one. -/
theorem recurringEvents_eq : recurringEvents texts db namespaceId expansion filters =
    match recurQuery texts db namespaceId filters with
    | [] => []
    | first :: rest => (first :: rest).flatMap (expansion.within (window expansion filters first)) := by
  unfold recurringEvents
  cases recurQuery texts db namespaceId filters with
  | nil => rfl
  | cons first rest =>
    have fixed : ∀ (start finish : Option Int) (length length' : Int),
        ((start <|> finish.map (· - length)) <|> finish.map (· - length')) =
          (start <|> finish.map (· - length)) := by
      intro start finish length length'
      cases start <;> cases finish <;> rfl
    rw [expand, expand_fixed rest (fixed _ _ _) (fixed _ _ _)]
    rfl

omit [DecidableEq T] [DecidableEq I] in
theorem firsts_ok {events : List (Event T I)} {ids : List I} (taken : firsts events = .ok ids) :
    events = [] := by
  cases events with
  | nil => rfl
  | cons _ _ => cases taken

/-- An id can be taken of no expanded event, so that the views only agree where there is none. -/
theorem expandedEvents_agree_iff {satisfying : List (Event T I)} {total : Prop} :
    (expandedEvents texts db namespaceId expansion filters).Agree Event.publicId satisfying total ↔
      allEvents texts db namespaceId expansion filters = [] ∧ satisfying = [] := by
  constructor
  · intro agree
    have counted : (allEvents texts db namespaceId expansion filters).length = satisfying.length :=
      Except.ok.inj agree.count
    obtain ⟨enough, unlimited⟩ := agree.unlimited
    obtain ⟨_, ids, _, shown, _⟩ := unlimited
      (enough + (allEvents texts db namespaceId expansion filters).length + 1) (by omega) (.sort Event.start)
      (.sort Event.start)
    have length := (List.mergeSort_perm (allEvents texts db namespaceId expansion filters)
      fun a b => a.start ≤ b.start).length_eq
    have whole := firsts_ok shown
    rw [slice, if_pos (Nat.succ_ne_zero _), Views.page_of_length_le (by omega)] at whole
    have nothing : allEvents texts db namespaceId expansion filters = [] :=
      List.length_eq_zero_iff.mp (length.symm.trans (congrArg List.length whole))
    exact ⟨nothing, List.length_eq_zero_iff.mp (counted.symm.trans (congrArg List.length nothing))⟩
  · rintro ⟨nothing, rfl⟩
    have no_page : ∀ limit offset, slice limit offset
        ((allEvents texts db namespaceId expansion filters).mergeSort fun a b => a.start ≤ b.start) = [] := by
      intro limit offset
      rw [nothing, List.mergeSort_nil, slice, Views.page, List.drop_nil, List.take_nil, ite_self]
    refine ⟨congrArg (Except.ok ∘ List.length) nothing, ⟨0, fun limit _ _ _ => ⟨[], [], ?_, ?_, ?_⟩⟩, ?_, ?_⟩
    · exact congrArg Except.ok (no_page limit 0)
    · exact congrArg firsts (no_page limit 0)
    · exact ⟨List.nodup_nil, List.Perm.refl _, fun _ => rfl⟩
    · refine fun _ limit pages _ _ choices => ⟨[], Views.paged_ok [] (fun i _ => ?_) (Nat.zero_le _), .refl _⟩
      exact congrArg Except.ok ((no_page limit _).trans (by simp [Views.page]))
    · refine fun _ limit pages _ _ choices => ⟨[], Views.paged_ok [] (fun i _ => ?_) (Nat.zero_le _), .refl _⟩
      exact (congrArg firsts (no_page limit _)).trans (by simp [Views.page, firsts])

omit [DecidableEq T] [DecidableEq I] in
theorem eraseDups_eq_nil_iff {α : Type} [BEq α] {xs : List α} : xs.eraseDups = [] ↔ xs = [] := by
  cases xs <;> simp [List.eraseDups_cons]

omit [DecidableEq T] in
theorem recurringEvents_eq_nil_iff : recurringEvents texts db namespaceId expansion filters = [] ↔
    ∀ r ∈ recurQuery texts db namespaceId filters, ∀ first ∈ (recurQuery texts db namespaceId filters).head?,
      expansion.within (window expansion filters first) r = [] := by
  rw [recurringEvents_eq]
  cases recurQuery texts db namespaceId filters with
  | nil => simp
  | cons first rest => simp [List.flatMap_eq_nil_iff]

omit [DecidableEq T] in
theorem no_single_event : db.events.filter (fun event =>
      eventSatisfies texts db namespaceId filters true event && event.discriminator = .event) = [] ↔
    ∀ event ∈ db.events, eventSatisfies texts db namespaceId filters true event →
      event.discriminator ≠ .event := by
  simp [List.filter_eq_nil_iff]

theorem allEvents_eq_nil_iff : allEvents texts db namespaceId expansion filters = [] ↔
    (∀ event ∈ db.events, eventSatisfies texts db namespaceId filters true event →
      event.discriminator ≠ .event) ∧
    ∀ r ∈ recurQuery texts db namespaceId filters, ∀ first ∈ (recurQuery texts db namespaceId filters).head?,
      expansion.within (window expansion filters first) r = [] := by
  rw [allEvents, List.append_eq_nil_iff, eraseDups_eq_nil_iff, recurringEvents_eq_nil_iff, eventRows_eq,
    List.filter_filter, ← no_single_event]
  simp only [Bool.and_comm]

theorem expanded_agree_iff : Agrees texts db namespaceId expansion (.events filters true) ↔
    OneRowEach texts db namespaceId expansion (.events filters true) := by
  simp only [Agrees, events, if_true, OneRowEach]
  rw [expandedEvents_agree_iff, allEvents_eq_nil_iff, expandedSatisfying, List.append_eq_nil_iff,
    no_single_event, List.flatMap_eq_nil_iff]
  constructor
  · rintro ⟨⟨no_single, first⟩, _, own⟩
    exact ⟨no_single, fun r member => ⟨own r member, first r member⟩⟩
  · rintro ⟨no_single, none⟩
    exact ⟨⟨no_single, fun r member => (none r member).2⟩, no_single, fun r member => (none r member).1⟩

end Events

/-- The views of a listing agree if and only if its joins match each object once, and, where recurring events
are expanded, there is nothing to list. -/
theorem views_agree_iff (texts : Texts T I) (db : Database T I) (namespaceId : Nat) (expansion : Expansion T I)
    (request : Request T I) :
    Agrees texts db namespaceId expansion request ↔ OneRowEach texts db namespaceId expansion request := by
  cases request with
  | threads filters => exact iff_of_true threads_agree trivial
  | messagesOrDrafts filters => exact messages_agree_iff filters
  | files filters => exact files_agree_iff filters
  | events filters expandRecurring =>
    cases expandRecurring with
    | false => exact iff_of_true stored_events_agree trivial
    | true => exact expanded_agree_iff

def photo (id : Nat) : Block String Nat :=
  { id, publicId := 30 + id, namespaceId := 1, filename := some "photo.jpg",
    contentTypeCommon := some "image/jpeg", contentTypeOther := none }

def attached (blockId : Nat) : Part :=
  { messageId := some 1, blockId := some blockId, contentDisposition := some .attachment }

/-- A message with two photos of one name. -/
def twoPhotos : Database String Nat :=
  { threads := [⟨1, 11, 1, none, none, 0, 0⟩], messages := [⟨1, 21, 1, 1, false, none, true, false, 0⟩],
    associations := [], contacts := [], parts := [attached 1, attached 2], blocks := [photo 1, photo 2],
    messagecategories := [], categories := [], calendars := [], events := [],
    thread_ids := by decide, calendar_ids := by decide, thread_public_ids := by decide,
    message_public_ids := by decide, block_public_ids := by decide, event_public_ids := by decide }

def named (filename : String) : MessageFilters String Nat :=
  { subject := none, fromAddr := none, toAddr := none, ccAddr := none, bccAddr := none, anyEmail := none,
    threadPublicId := none, startedBefore := none, startedAfter := none, lastMessageBefore := none,
    lastMessageAfter := none, filename := some filename, in_ := none, unread := none, starred := none,
    drafts := false, receivedBefore := none, receivedAfter := none }

/-- The message with the photos counts as two. -/
theorem photos_counted_twice :
    ¬ ∀ (T I : Type) [DecidableEq T] [DecidableEq I] (texts : Texts T I) (db : Database T I) (namespaceId : Nat)
      (expansion : Expansion T I) (request : Request T I), Agrees texts db namespaceId expansion request := by
  intro agrees
  have agree := agrees String Nat ⟨id, id, id, fun _ => none, fun _ _ => false⟩ twoPhotos 1
    ⟨fun _ => 0, fun _ _ _ => []⟩ (.messagesOrDrafts (named "photo.jpg"))
  exact absurd (Except.ok.inj (Views.Agree.count agree)) (by decide)

end SyncEngine.Filtering
