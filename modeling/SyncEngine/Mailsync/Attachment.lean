import SyncEngine.Mailsync.CreateMessage

/-! What one call of `add_message_to_thread` does to the database, whichever engine makes it. -/
namespace SyncEngine

namespace Db

theorem find?_map_key [DecidableEq β] {key : α → β} {change : α → α} (fixed : ∀ a, key (change a) = key a)
    (items : List α) (wanted : β) :
    (items.map change).find? (fun a => key a = wanted) =
      (items.find? (fun a => key a = wanted)).map change := by
  rw [List.find?_map]
  simp only [Function.comp_def, fixed]

theorem thread?_updateThread {change : Thread → Thread} (fixed : ∀ thread, (change thread).id = thread.id)
    (db : Db) (id wanted : Nat) :
    (db.updateThread id change).thread? wanted =
      if wanted = id then (db.thread? wanted).map change else db.thread? wanted := by
  have key : ∀ thread : Thread, (if thread.id = id then change thread else thread).id = thread.id := by
    intro thread
    split
    · exact fixed thread
    · rfl
  unfold thread? updateThread
  rw [find?_map_key key]
  cases found : db.threads.find? (fun thread => thread.id = wanted) with
  | none => split <;> rfl
  | some thread =>
    have same : thread.id = wanted := by simpa using List.find?_some found
    simp only [Option.map_some, same]
    split <;> rfl

theorem thread?_undelete (db : Db) (id wanted : Nat) :
    (db.updateThread id fun thread => { thread with deletedAt := none }).thread? wanted =
      if wanted = id then (db.thread? wanted).map fun thread => { thread with deletedAt := none }
      else db.thread? wanted := by
  apply thread?_updateThread
  exact fun _ => rfl

theorem thread?_id {db : Db} {id : Nat} (found : db.thread? id = some thread) : thread.id = id := by
  simpa using List.find?_some found

@[simp] theorem thread?_updateMessage (db : Db) (id wanted : Nat) (change : Message → Message) :
    (db.updateMessage id change).thread? wanted = db.thread? wanted := rfl

theorem thread?_insertThread (db : Db) (thread : Thread) (absent : db.thread? thread.id = none)
    (wanted : Nat) :
    (db.insertThread thread).thread? wanted =
      if wanted = thread.id then some thread else db.thread? wanted := by
  unfold thread? insertThread at *
  rw [List.find?_append]
  split
  · rename_i same
    simp [same, absent]
  · rename_i other
    simp [Ne.symm other]

theorem thread_id_lt_fresh {db : Db} (member : thread ∈ db.threads) : thread.id < db.freshThreadId :=
  Nat.lt_succ_of_le (le_foldr_max (List.mem_append_left _ (List.mem_map_of_mem member)))

theorem threadId_lt_fresh {db : Db} {id : Nat} (member : message ∈ db.messages)
    (inside : message.threadId = some id) : id < db.freshThreadId :=
  Nat.lt_succ_of_le (le_foldr_max (List.mem_append_right _ (List.mem_filterMap.mpr ⟨_, member, inside⟩)))

theorem thread?_fresh (db : Db) : db.thread? db.freshThreadId = none := by
  apply List.find?_eq_none.mpr
  intro thread member
  have below := thread_id_lt_fresh member
  simp only [decide_eq_true_eq]
  omega

end Db

namespace CreateMessage

/-- The engine whose `add_message_to_thread` is called, for Gmail with the raw message. -/
inductive Engine where
  | imap
  | gmail (msg : RawMessage)

def Engine.addMessageToThread (L : Lookups) : Engine → Message → Db → Db
  | .imap => CreateMessage.addMessageToThread L
  | .gmail msg => CreateMessage.addMessageToThreadGmail L msg

/-- The thread whose `messages` the message is put into, if it is neither a new one nor the one
that the message has. -/
def Engine.parent? (L : Lookups) : Engine → Message → Db → Option Thread
  | .imap, message, db =>
    ((L.fetchCorrespondingThread db message).bind db.thread?).filter fun parent =>
      (db.threadMessages parent.id).length < MAX_THREAD_LENGTH
  | .gmail msg, message, db =>
    let message := { message with gMsgid := msg.gMsgid, gThrid := msg.gThrid }
    let db := db.updateMessage message.id fun message =>
      { message with gMsgid := msg.gMsgid, gThrid := msg.gThrid }
    match message.threadId.bind db.thread? with
    | some _ => none
    | none => (L.chooseExistingThreadForGmail db message).bind db.thread?

/-- The thread that `message` is given, as it was and as it is now; `parent` is what `parent?` gives. -/
inductive Attachment (message : Message) (db after : Db) (threadId : Nat) : Option Thread → Prop where
  /-- Into `thread.messages`, directly or through the backref. -/
  | joins (parent : Thread) (found : db.thread? threadId = some parent)
      (thread : after.thread? threadId = some (updateFromMessage parent message)) :
      Attachment message db after threadId (some parent)
  /-- The thread that the message has had. -/
  | keeps (own : Thread) (found : db.thread? threadId = some own) (held : message.threadId = some threadId)
      (gThrid : Option Nat) (thread : after.thread? threadId = some { own with gThrid, deletedAt := none }) :
      Attachment message db after threadId none
  | creates (unheld : message.threadId.bind db.thread? = none) (fresh : threadId = db.freshThreadId)
      (subject : String) (gThrid : Option Nat)
      (thread : after.thread? threadId = some {
        id := threadId, subject, subjectdate := message.receivedDate
        recentdate := message.receivedDate, snippet := message.snippet, gThrid, deletedAt := none }) :
      Attachment message db after threadId none

/-- Only the message's own row and the thread that it is given change. -/
structure Attached (message : Message) (parent : Option Thread) (db after : Db) (threadId : Nat) :
    Prop where
  attachment : Attachment message db after threadId parent
  others : ∀ other, other ≠ threadId → after.thread? other = db.thread? other
  messages : ∃ gMsgid gThrid : Message → Option Nat,
    after.messages = (db.updateMessage message.id fun row =>
      { row with threadId := some threadId, gMsgid := gMsgid row, gThrid := gThrid row }).messages
  imapuids : after.imapuids = db.imapuids

@[simp] theorem updateFromMessage_id (thread : Thread) (message : Message) :
    (updateFromMessage thread message).id = thread.id := by
  simp only [updateFromMessage]
  split_ifs <;> rfl

@[simp] theorem updateFromMessage_deletedAt (thread : Thread) (message : Message) :
    (updateFromMessage thread message).deletedAt = thread.deletedAt := by
  simp only [updateFromMessage]
  split_ifs <;> rfl

theorem thread?_undeleteHeld (message : Message) (db : Db) (wanted : Nat) :
    (undeleteHeld message db).thread? wanted =
      if message.threadId = some wanted then
        (db.thread? wanted).map (fun thread => { thread with deletedAt := none })
      else db.thread? wanted := by
  unfold undeleteHeld
  cases held : message.threadId with
  | none => simp
  | some id =>
    dsimp only
    rw [Db.thread?_undelete]
    simp [eq_comm]

theorem thread?_backref (message : Message) (threadId : Nat) (db : Db) (wanted : Nat) :
    (backref message threadId db).thread? wanted =
      if wanted = threadId ∧ message.threadId ≠ some threadId then
        (db.thread? wanted).map (fun thread => updateFromMessage thread message)
      else db.thread? wanted := by
  unfold backref
  split
  · simp [*]
  · rw [Db.thread?_updateThread fun thread => updateFromMessage_id thread message]
    simp [*]

theorem setThread_messages (db : Db) (message : Message) (threadId : Nat) :
    (setThread db message threadId).messages = (db.updateMessage message.id fun row =>
      { row with threadId := some threadId }).messages := by
  have kept : (backref message threadId (undeleteHeld message db)).messages = db.messages := by
    unfold backref undeleteHeld
    split_ifs <;> split <;> rfl
  simp only [setThread, Db.updateMessage, kept]

theorem setThread_imapuids (db : Db) (message : Message) (threadId : Nat) :
    (setThread db message threadId).imapuids = db.imapuids := by
  unfold setThread backref undeleteHeld
  split_ifs <;> split <;> rfl

/-- Setting the thread that the message already has. -/
theorem thread?_setThread_own (held : message.threadId = some threadId) (db : Db) (wanted : Nat) :
    (setThread db message threadId).thread? wanted =
      if wanted = threadId then
        (db.thread? wanted).map (fun thread => { thread with deletedAt := none })
      else db.thread? wanted := by
  simp [setThread, thread?_backref, thread?_undeleteHeld, held, eq_comm]

theorem setThread_own {own : Thread} (found : db.thread? threadId = some own)
    (held : message.threadId = some threadId) :
    Attached message none db (setThread db message threadId) threadId where
  attachment := .keeps own found held own.gThrid (by
    rw [thread?_setThread_own held, if_pos rfl, found, Option.map_some])
  others other apart := by rw [thread?_setThread_own held, if_neg apart]
  messages := ⟨Message.gMsgid, Message.gThrid, setThread_messages db message threadId⟩
  imapuids := setThread_imapuids db message threadId

/-- Setting the thread of a message that has none: the id that it may have refers to no thread. -/
theorem thread?_setThread (none : message.threadId.bind db.thread? = none) (threadId wanted : Nat)
    (found : db.thread? threadId = some thread) :
    (setThread db message threadId).thread? wanted =
      if wanted = threadId then some (updateFromMessage thread message) else db.thread? wanted := by
  have undeleted : ∀ id, (undeleteHeld message db).thread? id = db.thread? id := by
    intro id
    rw [thread?_undeleteHeld]
    split
    · rename_i held
      simp only [held, Option.bind_some] at none
      simp [none]
    · rfl
  have apart : message.threadId ≠ some threadId := by
    intro held
    simp [held, found] at none
  simp only [setThread, Db.thread?_updateMessage, thread?_backref, undeleted]
  split
  · simp [*]
  · simp_all

theorem setThread_joins (none : message.threadId.bind db.thread? = none)
    (found : db.thread? threadId = some thread) :
    Attached message (some thread) db (setThread db message threadId) threadId where
  attachment := .joins thread found (by rw [thread?_setThread none threadId threadId found, if_pos rfl])
  others other apart := by rw [thread?_setThread none threadId other found, if_neg apart]
  messages := ⟨Message.gMsgid, Message.gThrid, setThread_messages db message threadId⟩
  imapuids := setThread_imapuids db message threadId

/-- A message that creates a thread does not change it when it is appended to it. -/
theorem updateFromMessage_own {thread : Thread} (recent : thread.recentdate = message.receivedDate)
    (subject : thread.subjectdate = message.receivedDate) : updateFromMessage thread message = thread := by
  simp [updateFromMessage, recent, subject]

theorem newThread_creates (member : message ∈ Db.messages db)
    (none : message.threadId.bind db.thread? = none) (subject : String) (gThrid : Option Nat) :
    Attached message .none db (newThread db message subject gThrid) db.freshThreadId := by
  let thread : Thread := {
    id := db.freshThreadId, subject, subjectdate := message.receivedDate
    recentdate := message.receivedDate, snippet := message.snippet, gThrid, deletedAt := .none }
  have inserted := Db.thread?_insertThread db thread db.thread?_fresh
  have found : (db.insertThread thread).thread? db.freshThreadId = some thread := by
    rw [inserted, if_pos rfl]
  have unheld : message.threadId.bind (db.insertThread thread).thread? = .none := by
    cases held : message.threadId with
    | none => rfl
    | some id =>
      rw [held, Option.bind_some] at none
      rw [Option.bind_some, inserted, if_neg, none]
      rintro rfl
      exact Nat.lt_irrefl _ (Db.threadId_lt_fresh member held)
  have same : updateFromMessage thread message = thread := updateFromMessage_own rfl rfl
  exact {
    attachment := .creates none rfl subject gThrid (by
      unfold newThread
      rw [thread?_setThread unheld _ _ found, if_pos rfl, same])
    others := fun other apart => by
      unfold newThread
      rw [thread?_setThread unheld _ other found, if_neg apart, inserted, if_neg apart]
    messages := ⟨Message.gMsgid, Message.gThrid, setThread_messages _ message _⟩
    imapuids := setThread_imapuids _ message _ }

theorem fromImapMessage_attached (L : Lookups) (member : message ∈ Db.messages db) :
    ∃ threadId, Attached message none db (addMessageToThread.fromImapMessage L message db) threadId := by
  unfold addMessageToThread.fromImapMessage
  split
  · rename_i own found
    obtain ⟨id, held, found⟩ := Option.bind_eq_some_iff.mp found
    rw [Db.thread?_id found]
    exact ⟨id, setThread_own found held⟩
  · rename_i none
    exact ⟨_, newThread_creates member none _ _⟩

theorem addMessageToThread_attached (L : Lookups) (member : message ∈ Db.messages db) :
    ∃ threadId, Attached message (Engine.imap.parent? L message db) db
      (addMessageToThread L message db) threadId := by
  unfold addMessageToThread
  simp only [Engine.parent?]
  cases chosen : (L.fetchCorrespondingThread db message).bind db.thread? with
  | none => exact fromImapMessage_attached L member
  | some parent =>
    obtain ⟨id, _, found⟩ := Option.bind_eq_some_iff.mp chosen
    dsimp only
    rw [Option.filter_some]
    by_cases short : (db.threadMessages parent.id).length < MAX_THREAD_LENGTH
    · rw [if_pos short, if_pos (decide_eq_true short), Db.thread?_id found]
      have joined := Db.thread?_updateThread (fun thread => updateFromMessage_id thread message) db id
      refine ⟨id, .joins parent found ?_, fun other apart => ?_, ⟨Message.gMsgid, Message.gThrid, rfl⟩, rfl⟩
      · rw [Db.thread?_updateMessage, joined, if_pos rfl, found, Option.map_some]
      · rw [Db.thread?_updateMessage, joined, if_neg apart]
    · rw [if_neg short, if_neg (by simpa using short)]
      exact fromImapMessage_attached L member

/-- The Gmail engine writes the Gmail ids of the message first. -/
theorem Attached.of_tagged (msg : RawMessage)
    (attached : Attached { message with gMsgid := msg.gMsgid, gThrid := msg.gThrid } parent
      (db.updateMessage message.id fun row => { row with gMsgid := msg.gMsgid, gThrid := msg.gThrid })
      after threadId) :
    Attached message parent db after threadId where
  attachment := by
    cases attached.attachment with
    | joins parent found thread => exact .joins parent found thread
    | keeps own found held gThrid thread => exact .keeps own found held gThrid thread
    | creates unheld fresh subject gThrid thread =>
      refine .creates unheld (fresh.trans ?_) subject gThrid thread
      rw [Db.freshThreadId, Db.freshThreadId, Db.updateMessage, List.filterMap_map]
      have field : Message.threadId ∘ (fun row : Message => if row.id = message.id then
          { row with gMsgid := msg.gMsgid, gThrid := msg.gThrid } else row) = Message.threadId := by
        funext row
        simp only [Function.comp_apply]
        split <;> rfl
      rw [field]
  others := attached.others
  messages := by
    obtain ⟨gMsgid, gThrid, messages⟩ := attached.messages
    let tag (row : Message) : Message := { row with gMsgid := msg.gMsgid, gThrid := msg.gThrid }
    refine ⟨fun row => gMsgid (tag row), fun row => gThrid (tag row), messages.trans ?_⟩
    simp only [Db.updateMessage, List.map_map, tag]
    apply List.map_congr_left
    intro row _
    simp only [Function.comp_apply]
    split <;> simp_all
  imapuids := attached.imapuids

theorem setThread_gThrid (message : Message) {own : Thread} (found : db.thread? threadId = some own)
    (held : message.threadId = some threadId) (gThrid : Option Nat) :
    Attached message none db
      (setThread (db.updateThread threadId fun thread => { thread with gThrid }) message threadId)
      threadId := by
  have tagged : ∀ wanted, (db.updateThread threadId fun thread => { thread with gThrid }).thread? wanted =
      if wanted = threadId then (db.thread? wanted).map fun thread => { thread with gThrid }
      else db.thread? wanted := by
    apply Db.thread?_updateThread
    exact fun _ => rfl
  exact {
    attachment := .keeps own found held gThrid (by
      rw [thread?_setThread_own held, if_pos rfl, tagged, if_pos rfl, found]
      rfl)
    others := fun other apart => by rw [thread?_setThread_own held, if_neg apart, tagged, if_neg apart]
    messages := ⟨Message.gMsgid, Message.gThrid, setThread_messages _ message threadId⟩
    imapuids := setThread_imapuids _ message threadId }

theorem addMessageToThreadGmail_attached (L : Lookups) (msg : RawMessage)
    (member : message ∈ Db.messages db) :
    ∃ threadId, Attached message ((Engine.gmail msg).parent? L message db) db
      (addMessageToThreadGmail L msg message db) threadId := by
  suffices tagged : ∃ threadId, Attached { message with gMsgid := msg.gMsgid, gThrid := msg.gThrid }
      ((Engine.gmail msg).parent? L message db)
      (db.updateMessage message.id fun row => { row with gMsgid := msg.gMsgid, gThrid := msg.gThrid })
      (addMessageToThreadGmail L msg message db) threadId by
    obtain ⟨threadId, attached⟩ := tagged
    exact ⟨threadId, attached.of_tagged msg⟩
  cases same : message.threadId.bind (db.updateMessage message.id fun row =>
      { row with gMsgid := msg.gMsgid, gThrid := msg.gThrid }).thread? with
  | some own =>
    obtain ⟨id, held, found⟩ := Option.bind_eq_some_iff.mp same
    simp only [addMessageToThreadGmail, Engine.parent?, same, Db.thread?_id found]
    exact ⟨id, setThread_gThrid { message with gMsgid := msg.gMsgid, gThrid := msg.gThrid } found held
      msg.gThrid⟩
  | none =>
    simp only [addMessageToThreadGmail, Engine.parent?, same]
    split
    · rename_i thread chosen
      obtain ⟨id, _, found⟩ := Option.bind_eq_some_iff.mp chosen
      rw [chosen, Db.thread?_id found]
      exact ⟨id, setThread_joins same found⟩
    · rename_i unknown
      have tagged : { message with gMsgid := msg.gMsgid, gThrid := msg.gThrid } ∈
          (db.updateMessage message.id fun row =>
            { row with gMsgid := msg.gMsgid, gThrid := msg.gThrid }).messages :=
        List.mem_map.mpr ⟨message, member, if_pos rfl⟩
      rw [unknown]
      exact ⟨_, newThread_creates tagged same _ _⟩

theorem Engine.attached (L : Lookups) (engine : Engine) (member : message ∈ Db.messages db) :
    ∃ threadId, Attached message (engine.parent? L message db) db
      (engine.addMessageToThread L message db) threadId := by
  cases engine with
  | imap => exact addMessageToThread_attached L member
  | gmail msg => exact addMessageToThreadGmail_attached L msg member

def UniqueIds (db : Db) : Prop :=
  ∀ a ∈ db.messages, ∀ b ∈ db.messages, a.id = b.id → a = b

theorem UniqueIds.updateMessage (unique : UniqueIds db) (id : Nat) (change : Message → Message)
    (fixed : ∀ message, (change message).id = message.id) :
    UniqueIds (db.updateMessage id change) := by
  simp only [UniqueIds, Db.updateMessage, List.forall_mem_map]
  intro a inside b member same
  have key : a.id = b.id := by split_ifs at same <;> simpa only [fixed] using same
  rw [unique a inside b member key]

theorem Attached.unique (attached : Attached message parent db after threadId) (unique : UniqueIds db) :
    UniqueIds after := by
  obtain ⟨gMsgid, gThrid, messages⟩ := attached.messages
  rw [UniqueIds, messages]
  exact unique.updateMessage message.id _ fun _ => rfl

/-- The message ends up in the thread. -/
def GoesTo (threadId : Nat) (message : Message) (after : Db) : Prop :=
  ∃ row ∈ after.messages, row.id = message.id ∧ row.threadId = some threadId

theorem Attached.goes (attached : Attached message parent db after threadId)
    (member : message ∈ db.messages) : GoesTo threadId message after := by
  obtain ⟨gMsgid, gThrid, messages⟩ := attached.messages
  rw [GoesTo, messages]
  refine ⟨_, List.mem_map_of_mem member, ?_, ?_⟩ <;> rw [if_pos rfl]

theorem Attached.goesTo (attached : Attached message parent db after chosen)
    (goes : GoesTo threadId message after) : chosen = threadId := by
  obtain ⟨gMsgid, gThrid, messages⟩ := attached.messages
  obtain ⟨row, member, same, inside⟩ := goes
  rw [messages] at member
  obtain ⟨old, _, rfl⟩ := List.mem_map.mp member
  have found : old.id = message.id := by split_ifs at same <;> exact same
  rw [if_pos found] at inside
  exact Option.some.inj inside

theorem Engine.attaches (L : Lookups) (engine : Engine) (member : message ∈ Db.messages db)
    (goes : GoesTo threadId message (engine.addMessageToThread L message db)) :
    Attached message (engine.parent? L message db) db (engine.addMessageToThread L message db)
      threadId := by
  obtain ⟨chosen, attached⟩ := engine.attached L member
  rwa [← attached.goesTo goes]

end CreateMessage
end SyncEngine
