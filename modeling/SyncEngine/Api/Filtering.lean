import SyncEngine.Util.Views

/-! The listings of the API: threads, messages or drafts, files and events. A filter on another table is a
subquery or a join, and each listing has three views of its rows. -/
namespace SyncEngine.Filtering

/-- What the code asks of texts, which are taken up to the collation of their columns, and of public ids. -/
structure Texts (T I : Type) where
  canonicalizeAddress : T → T
  /-- What the types of two columns of a category make of a text. -/
  name : T → T
  displayName : T → T
  /-- The id that `valid_public_id` accepts. -/
  publicId : T → Option I
  /-- `LIKE '%…%'` -/
  like : T → T → Bool

/-! ## Tables -/

structure Thread (T I : Type) where
  id : Nat
  publicId : I
  namespaceId : Nat
  deletedAt : Option Int
  subject : Option T
  subjectdate : Int
  recentdate : Int
deriving DecidableEq

structure Message (T I : Type) where
  id : Nat
  publicId : I
  namespaceId : Nat
  threadId : Nat
  isDraft : Bool
  subject : Option T
  isRead : Bool
  isStarred : Bool
  receivedDate : Int
deriving DecidableEq

inductive Field
  | fromAddr
  | toAddr
  | ccAddr
  | bccAddr
  | replyTo
deriving DecidableEq

structure MessageContactAssociation where
  messageId : Nat
  contactId : Nat
  field : Option Field

structure Contact (T : Type) where
  id : Nat
  namespaceId : Nat
  canonicalizedAddress : Option T

inductive Disposition
  | inline
  | attachment
deriving DecidableEq

structure Part where
  messageId : Option Nat
  blockId : Option Nat
  contentDisposition : Option Disposition
deriving DecidableEq

structure Block (T I : Type) where
  id : Nat
  publicId : I
  namespaceId : Nat
  filename : Option T
  contentTypeCommon : Option T
  contentTypeOther : Option T
deriving DecidableEq

structure MessageCategory where
  messageId : Nat
  categoryId : Nat

structure Category (T I : Type) where
  id : Nat
  publicId : I
  namespaceId : Nat
  name : T
  displayName : T

structure Calendar (I : Type) where
  id : Nat
  publicId : I
  namespaceId : Nat

inductive Source
  | here
  | remote
deriving DecidableEq

inductive Status
  | confirmed
  | tentative
  | cancelled
deriving DecidableEq

inductive Discriminator
  | event
  | recurringevent
  | recurringeventoverride
deriving DecidableEq

structure Event (T I : Type) where
  publicId : I
  namespaceId : Nat
  calendarId : Nat
  deletedAt : Option Int
  title : Option T
  description : Option T
  location : Option T
  busy : Bool
  source : Option Source
  start : Int
  end_ : Option Int
  status : Option Status
  discriminator : Discriminator
  /-- Of a recurring event. -/
  until_ : Option Int
deriving DecidableEq

/-- Keys and public ids are there once. -/
structure Database (T I : Type) where
  threads : List (Thread T I)
  messages : List (Message T I)
  associations : List MessageContactAssociation
  contacts : List (Contact T)
  parts : List Part
  blocks : List (Block T I)
  messagecategories : List MessageCategory
  categories : List (Category T I)
  calendars : List (Calendar I)
  events : List (Event T I)
  thread_ids : (threads.map Thread.id).Nodup
  calendar_ids : (calendars.map Calendar.id).Nodup
  thread_public_ids : (threads.map Thread.publicId).Nodup
  message_public_ids : (messages.map Message.publicId).Nodup
  block_public_ids : (blocks.map Block.publicId).Nodup
  event_public_ids : (events.map Event.publicId).Nodup

/-- The filters that threads and messages share. -/
structure Filters (T I : Type) where
  subject : Option T
  fromAddr : Option T
  toAddr : Option T
  ccAddr : Option T
  bccAddr : Option T
  anyEmail : Option (List T)
  threadPublicId : Option I
  startedBefore : Option Int
  startedAfter : Option Int
  lastMessageBefore : Option Int
  lastMessageAfter : Option Int
  filename : Option T
  in_ : Option T
  unread : Option Bool
  starred : Option Bool

structure MessageFilters (T I : Type) extends Filters T I where
  drafts : Bool
  receivedBefore : Option Int
  receivedAfter : Option Int

structure FileFilters (T I : Type) where
  messagePublicId : Option I
  filename : Option T
  contentType : Option T

structure EventFilters (T I : Type) where
  eventPublicId : Option I
  calendarPublicId : Option I
  title : Option T
  description : Option T
  location : Option T
  busy : Option Bool
  startsBefore : Option Int
  startsAfter : Option Int
  endsBefore : Option Int
  endsAfter : Option Int
  showCancelled : Option Bool

inductive Exc
  | typeError
deriving DecidableEq

variable {T I : Type} [DecidableEq T] [DecidableEq I]
variable (texts : Texts T I) (db : Database T I) (namespaceId : Nat)

/-! ## Matches in other tables -/

/-- The message has a contact of one of the addresses, in this field if one is given. -/
def hasContact (emailAddresses : List T) (field : Option Field) (message : Message T I) : Bool :=
  db.associations.any fun association =>
    association.messageId = message.id && field.all (association.field = some ·) &&
      db.contacts.any fun contact =>
        association.contactId = contact.id && contact.namespaceId = namespaceId &&
          contact.canonicalizedAddress.any (· ∈ emailAddresses.map texts.canonicalizeAddress)

/-- `join(Part).join(Block)` -/
def fileMatches (filename : T) (message : Message T I) : List (Part × Block T I) :=
  (db.parts.filter (·.messageId = some message.id)).flatMap fun part =>
    (db.blocks.filter fun block => part.blockId = some block.id && block.filename = some filename &&
      block.namespaceId = namespaceId).map fun block => (part, block)

/-- `join(Message.messagecategories).join(MessageCategory.category)` -/
def categoryMatches (in_ : T) (message : Message T I) : List (MessageCategory × Category T I) :=
  (db.messagecategories.filter (·.messageId = message.id)).flatMap fun messagecategory =>
    (db.categories.filter fun category => messagecategory.categoryId = category.id &&
      category.namespaceId = namespaceId && (category.name = texts.name in_ ||
        category.displayName = texts.displayName in_ ||
        (texts.publicId in_).any (category.publicId = ·))).map fun category => (messagecategory, category)

/-! ## Threads -/

/-- `Thread.id.in_` of a subquery of messages. -/
def hasMessage (thread : Thread T I) (p : Message T I → Bool) : Bool :=
  db.messages.any fun message => message.threadId = thread.id && p message

def threadPasses (filters : Filters T I) (thread : Thread T I) : Bool :=
  thread.namespaceId = namespaceId && thread.deletedAt.isNone &&
  filters.threadPublicId.all (thread.publicId = ·) &&
  filters.startedBefore.all (thread.subjectdate < ·) && filters.startedAfter.all (thread.subjectdate > ·) &&
  filters.lastMessageBefore.all (thread.recentdate < ·) &&
  filters.lastMessageAfter.all (thread.recentdate > ·) && filters.subject.all (thread.subject = some ·) &&
  filters.fromAddr.all (fun address =>
    hasMessage db thread (hasContact texts db namespaceId [address] (some .fromAddr))) &&
  filters.toAddr.all (fun address =>
    hasMessage db thread (hasContact texts db namespaceId [address] (some .toAddr))) &&
  filters.ccAddr.all (fun address =>
    hasMessage db thread (hasContact texts db namespaceId [address] (some .ccAddr))) &&
  filters.bccAddr.all (fun address =>
    hasMessage db thread (hasContact texts db namespaceId [address] (some .bccAddr))) &&
  filters.anyEmail.all (fun addresses =>
    hasMessage db thread (hasContact texts db namespaceId addresses none)) &&
  filters.filename.all (fun filename =>
    hasMessage db thread fun message => fileMatches db namespaceId filename message ≠ []) &&
  filters.in_.all (fun in_ =>
    hasMessage db thread fun message => categoryMatches texts db namespaceId in_ message ≠ []) &&
  filters.unread.all (fun unread =>
    hasMessage db thread fun message => message.namespaceId = namespaceId && message.isRead = !unread) &&
  filters.starred.all (fun starred =>
    hasMessage db thread fun message => message.namespaceId = namespaceId && message.isStarred = starred)

/-- `order_by(desc(Thread.recentdate))` -/
def Thread.Before (a b : Thread T I) : Prop := b.recentdate ≤ a.recentdate

def threads (filters : Filters T I) : Views (OrderBy (@Thread.Before T I)) Exc (Thread T I) I :=
  let rows := db.threads.filter (threadPasses texts db namespaceId filters)
  .ofRows Thread.Before rows rows Thread.publicId

/-! ## Messages or drafts -/

/-- What is asked of a message and its thread without a join. -/
def messagePasses (filters : MessageFilters T I) (message : Message T I) (thread : Thread T I) : Bool :=
  message.namespaceId = namespaceId && message.isDraft = filters.drafts && thread.deletedAt.isNone &&
  filters.subject.all (message.subject = some ·) && filters.unread.all (message.isRead ≠ ·) &&
  filters.starred.all (message.isStarred = ·) && filters.threadPublicId.all (thread.publicId = ·) &&
  filters.startedBefore.all (fun time => thread.subjectdate < time && thread.namespaceId = namespaceId) &&
  filters.startedAfter.all (fun time => thread.subjectdate > time && thread.namespaceId = namespaceId) &&
  filters.lastMessageBefore.all (fun time => thread.recentdate < time && thread.namespaceId = namespaceId) &&
  filters.lastMessageAfter.all (fun time => thread.recentdate > time && thread.namespaceId = namespaceId) &&
  filters.receivedBefore.all (message.receivedDate ≤ ·) &&
  filters.receivedAfter.all (message.receivedDate > ·) &&
  filters.toAddr.all (fun address => hasContact texts db namespaceId [address] (some .toAddr) message) &&
  filters.fromAddr.all (fun address => hasContact texts db namespaceId [address] (some .fromAddr) message) &&
  filters.ccAddr.all (fun address => hasContact texts db namespaceId [address] (some .ccAddr) message) &&
  filters.bccAddr.all (fun address => hasContact texts db namespaceId [address] (some .bccAddr) message) &&
  filters.anyEmail.all (fun addresses => hasContact texts db namespaceId addresses none message)

/-- The rows that a join adds, if it is made. -/
def optionalJoin (filter : Option α) (matching : α → List β) : List (Option β) :=
  match filter with
  | none => [none]
  | some value => (matching value).map some

def messageRows (filters : MessageFilters T I) : List (Message T I) :=
  db.messages.flatMap fun message =>
    (db.threads.filter fun thread => message.threadId = thread.id &&
        messagePasses texts db namespaceId filters message thread).flatMap fun _ =>
      (optionalJoin filters.filename (fileMatches db namespaceId · message)).flatMap fun _ =>
        (optionalJoin filters.in_ (categoryMatches texts db namespaceId · message)).map fun _ => message

/-- `order_by(desc(Message.received_date))` -/
def Message.Before (a b : Message T I) : Prop := b.receivedDate ≤ a.receivedDate

def messagesOrDrafts (filters : MessageFilters T I) :
    Views (OrderBy (@Message.Before T I)) Exc (Message T I) I :=
  let rows := messageRows texts db namespaceId filters
  .ofRows Message.Before rows rows Message.publicId

/-! ## Files -/

/-- `outerjoin(Part)` -/
def outerjoinPart (block : Block T I) : List (Option Part) :=
  match db.parts.filter (·.blockId = some block.id) with
  | [] => [none]
  | parts => parts.map some

def blockPasses (filters : FileFilters T I) (block : Block T I) : Bool :=
  block.namespaceId = namespaceId &&
  filters.contentType.all (fun contentType =>
    block.contentTypeCommon = some contentType || block.contentTypeOther = some contentType) &&
  filters.filename.all (block.filename = some ·)

/-- `join(Message)`, with the message that is asked for. -/
def joinMessage (messagePublicId : I) (row : Option Part) : List (Message T I) :=
  db.messages.filter fun message =>
    row.bind Part.messageId = some message.id && message.publicId = messagePublicId

def blockRows (filters : FileFilters T I) (block : Block T I) : List (Option Part) :=
  let rows := (outerjoinPart db block).filter fun row => row.all (·.contentDisposition.isSome)
  match filters.messagePublicId with
  | none => rows
  | some messagePublicId => rows.flatMap fun row => (joinMessage db messagePublicId row).map fun _ => row

def fileRows (filters : FileFilters T I) : List (Block T I) :=
  (db.blocks.filter (blockPasses namespaceId filters)).flatMap fun block =>
    (blockRows db filters block).map fun _ => block

/-- `order_by(asc(Block.id))` -/
def Block.Before (a b : Block T I) : Prop := a.id ≤ b.id

/-- All rows are counted, and a page is cut from the distinct ones. -/
def files (filters : FileFilters T I) : Views (OrderBy (@Block.Before T I)) Exc (Block T I) I :=
  let rows := fileRows db namespaceId filters
  .ofRows Block.Before rows rows.eraseDups Block.publicId

/-! ## Events -/

def eventPasses (filters : EventFilters T I) (event : Event T I) : Bool :=
  event.namespaceId = namespaceId && event.deletedAt.isNone && filters.eventPublicId.all (event.publicId = ·) &&
  filters.title.all (fun title => event.title.any (texts.like title)) &&
  filters.description.all (fun description => event.description.any (texts.like description)) &&
  filters.location.all (fun location => event.location.any (texts.like location)) &&
  filters.busy.all (event.busy = ·) && event.source = some .here

/-- `join(Calendar)`, with the calendar that is asked for. -/
def joinCalendar (event : Event T I) (calendarPublicId : I) : List (Calendar I) :=
  db.calendars.filter fun calendar => event.calendarId = calendar.id &&
    calendar.publicId = calendarPublicId && calendar.namespaceId = namespaceId

def filterEventQuery (filters : EventFilters T I) (events : List (Event T I)) : List (Event T I) :=
  (events.filter (eventPasses texts namespaceId filters)).flatMap fun event =>
    (optionalJoin filters.calendarPublicId (joinCalendar db namespaceId event)).map fun _ => event

/-- A status that is null is not known to differ. -/
def notCancelled (event : Event T I) : Bool := event.status.any (· ≠ .cancelled)

def eventPredicate (filters : EventFilters T I) (expandRecurring : Bool) (event : Event T I) : Bool :=
  filters.startsBefore.all (event.start < ·) && filters.startsAfter.all (event.start > ·) &&
  filters.endsBefore.all (fun time => event.end_.any (· < time)) &&
  filters.endsAfter.all (fun time => event.end_.any (· > time)) &&
  (filters.showCancelled = some true ||
    if expandRecurring then notCancelled event
    else event.discriminator = .recurringeventoverride ||
      (notCancelled event && event.discriminator ≠ .recurringeventoverride))

/-- `order_by(asc(Event.start))` -/
def Event.Before (a b : Event T I) : Prop := a.start ≤ b.start

def eventRows (filters : EventFilters T I) (expandRecurring : Bool) : List (Event T I) :=
  (filterEventQuery texts db namespaceId filters db.events).filter (eventPredicate filters expandRecurring)

/-- The length of a recurring event, and its instances and overrides between two times. -/
structure Expansion (T I : Type) where
  length : Event T I → Int
  allEvents : Event T I → (start end_ : Option Int) → List (Event T I)

/-- The recurring events that are expanded. -/
def recurQuery (filters : EventFilters T I) : List (Event T I) :=
  (filterEventQuery texts db namespaceId filters
    (db.events.filter (·.discriminator = .recurringevent))).filter fun event =>
      (filters.showCancelled ≠ some false || notCancelled event) &&
      filters.startsBefore.all (event.start < ·) && filters.endsBefore.all (event.start < ·) &&
      filters.startsAfter.all (fun time => event.until_.all (· > time)) &&
      filters.endsAfter.all (fun time => event.until_.all (· > time))

variable (expansion : Expansion T I)

/-- The loop, which keeps the bounds that it has worked out for an event. -/
def expand (filters : EventFilters T I) (startsBefore startsAfter : Option Int) :
    List (Event T I) → List (Event T I)
  | [] => []
  | r :: rest =>
    let startsBefore := startsBefore <|> filters.endsBefore.map (· - expansion.length r)
    let startsAfter := startsAfter <|> filters.endsAfter.map (· - expansion.length r)
    expansion.allEvents r startsAfter startsBefore ++ expand filters startsBefore startsAfter rest

def recurringEvents (filters : EventFilters T I) : List (Event T I) :=
  expand expansion filters filters.startsBefore filters.startsAfter (recurQuery texts db namespaceId filters)

/-- A limit of 0 is none. -/
def slice (limit offset : Nat) (events : List (Event T I)) : List (Event T I) :=
  if limit ≠ 0 then Views.page limit offset events else events

/-- `[x[0] for x in all_events]`, of events that are no rows. -/
def firsts : List (Event T I) → Except Exc (List I)
  | [] => .ok []
  | _ :: _ => .error .typeError

/-- Events that do not recur, combined with the expanded ones. -/
def allEvents (filters : EventFilters T I) : List (Event T I) :=
  ((eventRows texts db namespaceId filters true).filter (·.discriminator = .event)).eraseDups ++
    recurringEvents texts db namespaceId expansion filters

def expandedEvents (filters : EventFilters T I) : Views (OrderBy (@Event.Before T I)) Exc (Event T I) I :=
  let allEvents := allEvents texts db namespaceId expansion filters
  let sorted := allEvents.mergeSort fun a b => a.start ≤ b.start
  { count := .ok allEvents.length
    ids := fun _ limit offset => firsts (slice limit offset sorted)
    objects := fun _ limit offset => .ok (slice limit offset sorted) }

def events (filters : EventFilters T I) (expandRecurring : Bool) :
    Views (OrderBy (@Event.Before T I)) Exc (Event T I) I :=
  if expandRecurring then expandedEvents texts db namespaceId expansion filters
  else
    let rows := eventRows texts db namespaceId filters false
    .ofRows Event.Before rows rows Event.publicId

end SyncEngine.Filtering
