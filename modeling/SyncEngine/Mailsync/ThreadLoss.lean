import SyncEngine.Mailsync.ThreadTransactions

/-! Whether every message has its thread: where a thread is deleted that was found empty, another
transaction may have put a message into it by then. -/
namespace SyncEngine
open CreateMessage
namespace ThreadTransactions

/-- Each message's `thread_id` is the id of a thread. -/
def HaveThreads (db : Db) : Prop :=
  ∀ message ∈ db.messages, ∃ threadId, message.threadId = some threadId ∧
    (db.thread? threadId).isSome

/-- A change that takes away no thread and gives no message another one. -/
structure Shrinks (db later : Db) : Prop where
  threads : ∀ threadId, (later.thread? threadId).isSome = (db.thread? threadId).isSome
  messages : ∀ message ∈ later.messages,
    ∃ old ∈ db.messages, old.id = message.id ∧ old.threadId = message.threadId

namespace Shrinks

theorem refl (db : Db) : Shrinks db db where
  threads _ := rfl
  messages message member := ⟨message, member, rfl, rfl⟩

theorem trans (first : Shrinks a b) (second : Shrinks b c) : Shrinks a c where
  threads threadId := (second.threads threadId).trans (first.threads threadId)
  messages message member := by
    obtain ⟨between, inside, id, threadId⟩ := second.messages message member
    obtain ⟨old, start, id', threadId'⟩ := first.messages between inside
    exact ⟨old, start, id'.trans id, threadId'.trans threadId⟩

theorem updateMessage (db : Db) (id : Nat) (change : Message → Message)
    (fixed : ∀ message, (change message).id = message.id ∧ (change message).threadId = message.threadId) :
    Shrinks db (db.updateMessage id change) where
  threads _ := rfl
  messages message member := by
    obtain ⟨old, start, rfl⟩ := List.mem_map.mp member
    refine ⟨old, start, ?_⟩
    split
    · exact ⟨(fixed old).1.symm, (fixed old).2.symm⟩
    · exact ⟨rfl, rfl⟩

theorem updateThread (db : Db) (id : Nat) (change : Thread → Thread)
    (fixed : ∀ thread, (change thread).id = thread.id) : Shrinks db (db.updateThread id change) where
  threads threadId := by
    rw [Db.thread?_updateThread fixed]
    split <;> simp
  messages := (refl db).messages

theorem deleteMessage (db : Db) (id : Nat) : Shrinks db (db.deleteMessage id) where
  threads _ := rfl
  messages message member := ⟨message, List.mem_of_mem_filter member, rfl, rfl⟩

theorem insertRow (db : Db) (row : ImapUid) : Shrinks db (db.insertRow row) where
  threads _ := rfl
  messages := (updateMessage db row.messageId (fun message => { message with hadUid := true })
    fun _ => ⟨rfl, rfl⟩).messages

theorem commit (session : Gc.Session) (db : Db) : Shrinks db (Gc.commit session db) := by
  apply Gc.commit_keeps _ _ session (refl db)
  · exact fun id _ shrinks => shrinks.trans (updateMessage _ id _ fun _ => ⟨rfl, rfl⟩)
  · exact fun id _ shrinks => shrinks.trans (deleteMessage _ id)

/-- No turn of `DeleteHandler.check` deletes a thread. -/
theorem check (L : Lookups) (s : Gc.State) (turn : Gc.Turn) (collector : turn.ByCollector) :
    Shrinks s.db (s.turn L turn).db := by
  obtain ⟨db, phase⟩ := s
  cases turn with
  | engine => exact collector.elim
  | fail => exact refl db
  | select => cases phase <;> exact refl db
  | look =>
    cases phase with
    | idle | checked => exact refl db
    | scanning messageIds session =>
      cases messageIds with
      | nil => exact refl db
      | cons messageId remaining =>
        simp only [Gc.State.turn]
        split <;> exact refl db
  | finish =>
    cases phase with
    | idle | checked => exact refl db
    | scanning messageIds session =>
      cases messageIds with
      | nil => exact commit session db
      | cons => exact refl db
  | delete now =>
    cases phase with
    | idle | scanning => exact refl db
    | checked messageId remaining session =>
      simp only [Gc.State.turn]
      split
      · exact refl db
      · split
        · exact refl db
        · exact (commit _ db).trans (updateThread _ _ _ fun thread => Gc.refreshThread_id now _ thread)

theorem haveThreads (shrinks : Shrinks db later) (threads : HaveThreads db) : HaveThreads later := by
  intro message member
  obtain ⟨old, start, _, same⟩ := shrinks.messages message member
  obtain ⟨threadId, held, found⟩ := threads old start
  exact ⟨threadId, same.symm.trans held, (shrinks.threads threadId).trans found⟩

end Shrinks

/-! ## What each write does -/
namespace Write

/-- The thread that the message is put into. -/
def gives (write : Write) : Option Nat :=
  match write.target with
  | .create thread => some thread.id
  | .join threadId _ => some threadId
  | .keep _ _ => none

/-- The existing thread that the message is put into without any change to the thread's row. -/
def joins (write : Write) : Option Nat :=
  match write.target with
  | .join threadId false => some threadId
  | .join _ true | .create _ | .keep _ _ => none

def creates (write : Write) : Option Nat :=
  match write.target with
  | .create thread => some thread.id
  | .join _ _ | .keep _ _ => none

def Live (write : Write) (db : Db) : Prop := ∀ threadId ∈ write.joins, (db.thread? threadId).isSome

theorem thread?_apply (write : Write) (db : Db) (threadId : Nat) :
    (write.apply db).thread? threadId = (write.applyThread db).thread? threadId := by
  have kept : (write.applyMessage (write.applyThread db)).threads = (write.applyThread db).threads := by
    unfold applyMessage
    split
    · rfl
    · dsimp only
      split <;> rfl
    · dsimp only
      split <;> rfl
  show Db.thread? { db with threads := (write.applyMessage (write.applyThread db)).threads } threadId = _
  rw [kept]
  rfl

theorem apply_isSome (write : Write) (db : Db) (threadId : Nat) :
    ((write.apply db).thread? threadId).isSome ↔
      (db.thread? threadId).isSome ∨ threadId ∈ write.creates := by
  rw [thread?_apply]
  unfold applyThread creates
  cases write.target with
  | create thread =>
    simp only [Db.thread?, Db.insertThread, List.find?_append, Option.isSome_or]
    simp
  | join id updates =>
    have joined := Db.thread?_updateThread (fun thread => updateFromMessage_id thread write.message) db id
    dsimp only
    rw [joined]
    split <;> simp
  | keep id undeletes =>
    have cleared := Db.thread?_undelete db id
    cases undeletes with
    | false => simp
    | true =>
      simp only [if_true]
      rw [cleared]
      split <;> simp

theorem applyThread_messages (write : Write) (db : Db) : (write.applyThread db).messages = db.messages := by
  unfold applyThread
  split
  · rfl
  · rfl
  · split <;> rfl

theorem apply_messages (write : Write) (db : Db) : ∀ message ∈ (write.apply db).messages,
    (∃ old ∈ db.messages, old.id = message.id ∧ old.threadId = message.threadId) ∨
      ∃ threadId ∈ write.gives, message.threadId = some threadId := by
  intro message member
  obtain ⟨row, inside, id, same⟩ := (Shrinks.insertRow _ write.row).messages message member
  rw [← id, ← same]
  have given : ∀ threadId, row ∈ (if write.isNew then
      (write.applyThread db).insertMessage { write.message with threadId := some threadId }
      else (write.applyThread db).updateMessage write.message.id
        (fun row => { row with threadId := some threadId })).messages →
      (∃ old ∈ db.messages, old.id = row.id ∧ old.threadId = row.threadId) ∨
        row.threadId = some threadId := by
    intro threadId saved
    split at saved
    · rcases List.mem_append.mp saved with old | new
      · rw [applyThread_messages] at old
        exact .inl ⟨row, old, rfl, rfl⟩
      · rw [List.mem_singleton.mp new]
        exact .inr rfl
    · obtain ⟨old, start, rfl⟩ := List.mem_map.mp saved
      rw [applyThread_messages] at start
      split
      · exact .inr rfl
      · exact .inl ⟨old, start, rfl, rfl⟩
  unfold applyMessage at inside
  unfold gives
  cases target : write.target with
  | keep =>
    simp only [target, applyThread_messages] at inside
    exact .inl ⟨row, inside, rfl, rfl⟩
  | create thread =>
    simp only [target] at inside
    exact (given thread.id inside).imp_right fun put => ⟨thread.id, rfl, put⟩
  | join threadId updates =>
    simp only [target] at inside
    exact (given threadId inside).imp_right fun put => ⟨threadId, rfl, put⟩

/-- The thread that a message is put into is there afterwards. -/
theorem given_isSome {write : Write} (live : write.Live db) (fresh : write.isStale db = false)
    (given : threadId ∈ write.gives) : ((write.apply db).thread? threadId).isSome := by
  rw [apply_isSome]
  unfold Live joins at live
  unfold isStale at fresh
  unfold gives at given
  unfold creates
  cases target : write.target with
  | keep => simp [target] at given
  | create thread =>
    simp only [target] at given
    exact .inr given
  | join id updates =>
    simp only [target, Option.mem_def, Option.some.injEq] at given
    subst given
    cases updates with
    | false => exact .inl (live id (by simp [target]))
    | true => exact .inl (by simpa [target] using fresh)

end Write

/-! ## The condition -/

/-- The existing threads that open transactions have put messages into, other than by updates. -/
def State.joined (s : State) : List Nat := s.transactions.flatten.filterMap Write.joins

/-- The threads that are found empty and about to be deleted. -/
def State.condemned (s : State) : List Nat :=
  (match s.sweeper with
    | .emptied threadId _ _ => [threadId]
    | _ => []) ++ s.removals.filterMap (fun removal => removal.thread.map Prod.fst)

/-- What the turns of others can be. -/
def Turn.Possible (s : State) : Turn → Prop
  | .check turn => turn.ByCollector
  | .other later => Shrinks s.db later
  | _ => True

/-- No thread is deleted that an open transaction has put a message into, and no transaction commits
a message into a thread that has been found empty and is about to be deleted. -/
def Turn.Apart (s : State) : Turn → Prop
  | .delete =>
    match s.sweeper with
    | .emptied threadId _ _ => threadId ∉ s.joined
    | _ => True
  | .deleteDraft index =>
    ∀ removal, s.removals[index]? = some removal →
      ∀ threadId ∈ removal.thread.map Prod.fst, threadId ∉ s.joined
  | .commit index =>
    ∀ writes, s.transactions[index]? = some writes → ∀ write ∈ writes,
      ∀ threadId ∈ write.gives, threadId ∉ s.condemned
  | _ => True

def Sweeper.Sound (db : Db) : Sweeper → Prop
  | .emptied threadId loaded _ => loaded = [] ∧ ∀ message ∈ db.messages, message.threadId ≠ some threadId
  | _ => True

def Removal.Sound (db : Db) (removal : Removal) : Prop :=
  ∀ threadId loaded, removal.thread = some (threadId, loaded) → loaded = [] ∧
    ∀ message ∈ db.messages, message.threadId = some threadId → message.id = removal.messageId

structure State.Sound (s : State) : Prop where
  threads : HaveThreads s.db
  sweeper : s.sweeper.Sound s.db
  removals : ∀ removal ∈ s.removals, removal.Sound s.db
  live : ∀ writes ∈ s.transactions, ReadCommitted.Along Write.apply Write.Live writes s.db
  lost : s.lost = []

namespace Shrinks

theorem sweeper (shrinks : Shrinks db later) {sweeper : Sweeper} (sound : sweeper.Sound db) :
    sweeper.Sound later := by
  cases sweeper with
  | idle | scanning => trivial
  | emptied threadId loaded =>
    refine ⟨sound.1, fun message member held => ?_⟩
    obtain ⟨old, start, _, same⟩ := shrinks.messages message member
    exact sound.2 old start (same.trans held)

theorem removal (shrinks : Shrinks db later) {removal : Removal} (sound : removal.Sound db) :
    removal.Sound later := by
  intro threadId loaded thread
  obtain ⟨none, only⟩ := sound threadId loaded thread
  refine ⟨none, fun message member held => ?_⟩
  obtain ⟨old, start, id, same⟩ := shrinks.messages message member
  exact id.symm.trans (only old start (same.trans held))

end Shrinks

/-- An open transaction's threads are all still there, however the committed data has changed. -/
theorem live_transfer (live : ReadCommitted.Along Write.apply Write.Live writes db)
    (kept : ∀ write ∈ writes, ∀ threadId ∈ write.joins, (db.thread? threadId).isSome →
      (later.thread? threadId).isSome) :
    ReadCommitted.Along Write.apply Write.Live writes later := by
  apply live.transfer (r := fun db later => ∀ write ∈ writes, ∀ threadId ∈ write.joins,
    (Db.thread? db threadId).isSome → (Db.thread? later threadId).isSome) kept
  · exact fun write member data later kept live threadId joins =>
      kept write member threadId joins (live threadId joins)
  · intro write member data later kept _ other inside threadId joins found
    rw [Write.apply_isSome] at found ⊢
    exact found.imp_left (kept other inside threadId joins)

/-! ## Steps -/

theorem thread?_deleteThread (db : Db) (threadId other : Nat) :
    (db.deleteThread threadId).thread? other = if other = threadId then none else db.thread? other := by
  unfold Db.thread? Db.deleteThread
  rw [List.find?_filter]
  split
  · rename_i same
    simp [same]
  · rename_i apart
    congr 1
    funext thread
    by_cases same : thread.id = other <;> simp [same, apart]

namespace State
variable {s : State}

theorem Sound.shrinks (sound : s.Sound) (shrinks : Shrinks s.db later) :
    ({ s with db := later } : State).Sound where
  threads := shrinks.haveThreads sound.threads
  sweeper := shrinks.sweeper sound.sweeper
  removals removal member := shrinks.removal (sound.removals removal member)
  live writes member := live_transfer (sound.live writes member) fun _ _ threadId _ found =>
    (shrinks.threads threadId).trans found
  lost := sound.lost

/-- A thread without messages that no open transaction uses can be deleted. -/
theorem Sound.deleteThread (sound : s.Sound)
    (empty : ∀ message ∈ s.db.messages, message.threadId ≠ some threadId)
    (free : threadId ∉ s.joined) : (s.deleteThread threadId []).Sound where
  threads message member := by
    obtain ⟨held, same, found⟩ := sound.threads message member
    refine ⟨held, same, ?_⟩
    show ((s.db.deleteThread threadId).thread? held).isSome
    rw [thread?_deleteThread, if_neg]
    · exact found
    · rintro rfl
      exact empty message member same
  sweeper := sound.sweeper
  removals := sound.removals
  live writes member := by
    refine live_transfer (sound.live writes member) fun write inside other joins found => ?_
    show ((s.db.deleteThread threadId).thread? other).isSome
    rw [thread?_deleteThread, if_neg]
    · exact found
    · rintro rfl
      exact free (List.mem_filterMap.mpr ⟨write, List.mem_flatten.mpr ⟨writes, member, inside⟩, joins⟩)
  lost := by simpa [State.deleteThread] using sound.lost

theorem readDraft_sound {db : Db} (read : readDraft folderId uid db = some removal) : removal.Sound db := by
  simp only [readDraft, Option.bind_eq_bind, Option.bind_eq_some_iff] at read
  obtain ⟨imapuid, _, message, _, read⟩ := read
  split at read
  · cases read
    intro threadId loaded thread
    simp only [Option.bind_eq_some_iff] at thread
    obtain ⟨found, _, chosen⟩ := thread
    split at chosen
    · rename_i none
      cases chosen
      refine ⟨by rw [none, List.map_nil], fun other member held => ?_⟩
      by_contra different
      have kept : other ∈ (db.threadMessages found.id).filter (fun other => other.id ≠ message.id) := by
        refine List.mem_filter.mpr ⟨?_, by simpa using different⟩
        exact (List.mem_insertionSort _).mpr (List.mem_filter.mpr ⟨member, by simpa using held⟩)
      rw [none] at kept
      cases kept
    · cases chosen
  · cases read

/-- A message is put into a thread that is there, and that nobody has found empty. -/
structure Guarded (s : State) (db : Db) : Prop where
  threads : HaveThreads db
  sweeper : s.sweeper.Sound db
  removals : ∀ removal ∈ s.removals, removal.Sound db

theorem Guarded.apply {db : Db} (guarded : Guarded s db) {write : Write}
    (apart : ∀ threadId ∈ write.gives, threadId ∉ s.condemned) (live : write.Live db)
    (fresh : write.isStale db = false) : Guarded s (write.apply db) where
  threads := by
    intro message member
    rcases write.apply_messages db message member with ⟨old, start, _, same⟩ | ⟨threadId, given, held⟩
    · obtain ⟨threadId, held, found⟩ := guarded.threads old start
      exact ⟨threadId, same.symm.trans held, (write.apply_isSome db threadId).mpr (.inl found)⟩
    · exact ⟨threadId, held, Write.given_isSome live fresh given⟩
  sweeper := by
    cases phase : s.sweeper with
    | idle | scanning => trivial
    | emptied threadId loaded =>
      obtain ⟨none, empty⟩ := phase ▸ guarded.sweeper
      refine ⟨none, fun message member held => ?_⟩
      rcases write.apply_messages db message member with ⟨old, start, _, same⟩ | ⟨other, given, put⟩
      · exact empty old start (same.trans held)
      · cases held.symm.trans put
        exact apart threadId given (by simp [State.condemned, phase])
  removals := by
    intro removal listed threadId loaded thread
    obtain ⟨none, only⟩ := guarded.removals removal listed threadId loaded thread
    refine ⟨none, fun message member held => ?_⟩
    rcases write.apply_messages db message member with ⟨old, start, id, same⟩ | ⟨other, given, put⟩
    · exact id.symm.trans (only old start (same.trans held))
    · cases held.symm.trans put
      refine absurd ?_ (apart threadId given)
      exact List.mem_append_right _ (List.mem_filterMap.mpr ⟨removal, listed, by rw [thread]; rfl⟩)

theorem Sound.commit (sound : s.Sound) (index : Nat)
    (opened : s.transactions[index]? = some writes)
    (apart : ∀ write ∈ writes, ∀ threadId ∈ write.gives, threadId ∉ s.condemned)
    (committed : ReadCommitted.commit Write.apply Write.isStale writes s.db = some later) :
    ({ s with db := later, transactions := s.transactions.eraseIdx index } : State).Sound := by
  have member : writes ∈ s.transactions := List.mem_of_getElem? opened
  have along := (sound.live writes member).and (ReadCommitted.along_of_commit committed)
  have guarded : Guarded s later := by
    rw [ReadCommitted.commit_eq_view committed]
    apply along.invariant (Guarded s) ⟨sound.threads, sound.sweeper, sound.removals⟩
    exact fun write inside _ guarded both => guarded.apply (apart write inside) both.1 both.2
  have kept : ∀ threadId, (s.db.thread? threadId).isSome → (later.thread? threadId).isSome := by
    intro threadId found
    rw [ReadCommitted.commit_eq_view committed]
    apply along.invariant (fun db => (Db.thread? db threadId).isSome) found
    exact fun write _ db found _ => (write.apply_isSome db threadId).mpr (.inl found)
  exact {
    threads := guarded.threads
    sweeper := guarded.sweeper
    removals := guarded.removals
    live := fun others inside => live_transfer (sound.live others (List.mem_of_mem_eraseIdx inside))
      fun _ _ threadId _ => kept threadId
    lost := sound.lost }

end State

theorem parent?_found (L : Lookups) (engine : Engine) (message : Message) {db : Db}
    (chosen : engine.parent? L message db = some parent) : db.thread? parent.id = some parent := by
  have found : ∃ id, db.thread? id = some parent := by
    cases engine with
    | imap =>
      simp only [Engine.parent?, Option.filter_eq_some_iff, Option.bind_eq_some_iff] at chosen
      obtain ⟨⟨id, _, found⟩, _⟩ := chosen
      exact ⟨id, found⟩
    | gmail msg =>
      simp only [Engine.parent?] at chosen
      split at chosen
      · cases chosen
      · obtain ⟨id, _, found⟩ := Option.bind_eq_some_iff.mp chosen
        exact ⟨id, found⟩
  obtain ⟨id, found⟩ := found
  rwa [Db.thread?_id found]

theorem attachWrite_live (L : Lookups) (engine : Engine) (message : Message) (row : ImapUid)
    (updates : Bool) (nextThreadId : Nat) (db : Db) :
    (attachWrite L engine message row updates nextThreadId db).Live db := by
  intro threadId joins
  cases chosen : engine.parent? L message db with
  | none =>
    cases held : message.threadId.bind db.thread? <;>
      simp [Write.joins, attachWrite, chosen, held] at joins
  | some parent =>
    cases updates with
    | true => simp [Write.joins, attachWrite, chosen] at joins
    | false =>
      have same : parent.id = threadId := by simpa [Write.joins, attachWrite, chosen] using joins
      rw [← same, parent?_found L engine message chosen]
      rfl

theorem State.Sound.reset {s : State} (sound : s.Sound) : ({ s with attached := [] } : State).Sound :=
  ⟨sound.threads, sound.sweeper, sound.removals, sound.live, sound.lost⟩

theorem State.Sound.look (L : Lookups) {s : State} (sound : s.Sound) :
    (s.turn L .look).Sound := by
  simp only [State.turn]
  split
  · rename_i threadId remaining _
    split_ifs with gone some
    · exact ⟨sound.threads, trivial, sound.removals, sound.live, sound.lost⟩
    · have cleared := sound.shrinks (Shrinks.updateThread s.db threadId
        (fun thread => { thread with deletedAt := none }) fun _ => rfl)
      exact ⟨cleared.threads, trivial, cleared.removals, cleared.live, cleared.lost⟩
    · have none : s.db.threadMessages threadId = [] := not_not.mp some
      refine ⟨sound.threads, ⟨by rw [none, List.map_nil], fun message member held => ?_⟩,
        sound.removals, sound.live, sound.lost⟩
      have inside : message ∈ s.db.threadMessages threadId :=
        (List.mem_insertionSort _).mpr (List.mem_filter.mpr ⟨member, by simpa using held⟩)
      rw [none] at inside
      cases inside
  · exact sound.reset

theorem State.Sound.delete (L : Lookups) {s : State} (sound : s.Sound) (apart : Turn.delete.Apart s) :
    (s.turn L .delete).Sound := by
  simp only [State.turn]
  split
  · rename_i threadId loaded remaining phase
    obtain ⟨rfl, empty⟩ : loaded = [] ∧ ∀ message ∈ s.db.messages, message.threadId ≠ some threadId := by
      have swept := sound.sweeper
      rwa [show s.sweeper = .emptied threadId loaded remaining from phase] at swept
    have free : threadId ∉ s.joined := by
      rwa [Turn.Apart, show s.sweeper = .emptied threadId [] remaining from phase] at apart
    have deleted := sound.reset.deleteThread empty free
    exact ⟨deleted.threads, trivial, deleted.removals, deleted.live, deleted.lost⟩
  · exact sound.reset

theorem State.Sound.deleteDraft (L : Lookups) {s : State} (sound : s.Sound)
    (apart : (Turn.deleteDraft index).Apart s) : (s.turn L (.deleteDraft index)).Sound := by
  simp only [State.turn]
  split
  · rename_i removal listed
    have left : ∀ other ∈ s.removals.eraseIdx index, other.Sound s.db := fun other member =>
      sound.removals other (List.mem_of_mem_eraseIdx member)
    have shrinks : Shrinks s.db
        ((s.db.deleteRow removal.folderId removal.uid).deleteMessage removal.messageId) :=
      ⟨fun _ => rfl, fun message member => ⟨message, List.mem_of_mem_filter member, rfl, rfl⟩⟩
    have kept : State.Sound { s with
        db := (s.db.deleteRow removal.folderId removal.uid).deleteMessage removal.messageId
        removals := s.removals.eraseIdx index, attached := [] } :=
      State.Sound.shrinks (s := { s with removals := s.removals.eraseIdx index, attached := [] })
        ⟨sound.threads, sound.sweeper, left, sound.live, sound.lost⟩ shrinks
    cases thread : removal.thread with
    | none => simpa only [State.deleteDraft, thread] using kept
    | some pair =>
      obtain ⟨threadId, loaded⟩ := pair
      obtain ⟨rfl, only⟩ := sound.removals removal (List.mem_of_getElem? listed) threadId loaded thread
      have empty : ∀ message ∈ ((s.db.deleteRow removal.folderId removal.uid).deleteMessage
          removal.messageId).messages, message.threadId ≠ some threadId := by
        intro message member held
        obtain ⟨inside, different⟩ := List.mem_filter.mp member
        exact absurd (only message inside held) (by simpa using different)
      have free : threadId ∉ s.joined := apart removal listed threadId (by rw [thread]; rfl)
      have deleted := kept.deleteThread empty free
      simp only [State.deleteDraft, thread]
      exact ⟨deleted.threads, deleted.sweeper, deleted.removals, deleted.live, deleted.lost⟩
  · exact sound.reset

theorem State.Sound.attach (L : Lookups) {s : State} (sound : s.Sound) (index : Nat) (engine : Engine)
    (message : Message) (row : ImapUid) (updates : Bool) :
    (s.turn L (.attach index engine message row updates)).Sound := by
  simp only [State.turn]
  split
  · rename_i writes opened
    refine ⟨sound.threads, sound.sweeper, sound.removals, fun others member => ?_, sound.lost⟩
    rcases List.mem_or_eq_of_mem_set member with inside | rfl
    · exact sound.live others inside
    · exact ReadCommitted.along_append.mpr
        ⟨sound.live writes (List.mem_of_getElem? opened), attachWrite_live L engine _ row updates _ _⟩
  · exact sound.reset

theorem State.Sound.commitTurn (L : Lookups) {s : State} (sound : s.Sound)
    (apart : (Turn.commit index).Apart s) : (s.turn L (.commit index)).Sound := by
  simp only [State.turn]
  split
  · rename_i writes opened
    split
    · rename_i later committed
      have saved := sound.commit index opened (apart writes opened) committed
      exact ⟨saved.threads, saved.sweeper, saved.removals, saved.live, saved.lost⟩
    · exact ⟨sound.threads, sound.sweeper, sound.removals,
        fun others member => sound.live others (List.mem_of_mem_eraseIdx member), sound.lost⟩
  · exact sound.reset

theorem turn_sound (L : Lookups) {s : State} (sound : s.Sound) (turn : Turn) (possible : turn.Possible s)
    (apart : turn.Apart s) : (s.turn L turn).Sound := by
  cases turn with
  | select before =>
    simp only [State.turn]
    split
    · exact ⟨sound.threads, trivial, sound.removals, sound.live, sound.lost⟩
    · exact sound.reset
  | look => exact sound.look L
  | delete => exact sound.delete L apart
  | failSweep => exact ⟨sound.threads, trivial, sound.removals, sound.live, sound.lost⟩
  | check turn =>
    have later := sound.reset.shrinks (Shrinks.check L ⟨s.db, s.collector⟩ turn possible)
    exact ⟨later.threads, later.sweeper, later.removals, later.live, later.lost⟩
  | readDraft folderId uid =>
    refine ⟨sound.threads, sound.sweeper, ?_, sound.live, sound.lost⟩
    refine List.forall_mem_append.mpr ⟨sound.removals, fun removal read => ?_⟩
    exact State.readDraft_sound (Option.mem_toList.mp read)
  | deleteDraft index => exact sound.deleteDraft L apart
  | failDraft index =>
    exact ⟨sound.threads, sound.sweeper, fun removal member =>
      sound.removals removal (List.mem_of_mem_eraseIdx member), sound.live, sound.lost⟩
  | begin =>
    refine ⟨sound.threads, sound.sweeper, sound.removals, ?_, sound.lost⟩
    refine List.forall_mem_append.mpr ⟨sound.live, fun writes fresh => ?_⟩
    rw [List.mem_singleton.mp fresh]
    trivial
  | attach index engine message row updates => exact sound.attach L index engine message row updates
  | commit index => exact sound.commitTurn L apart
  | fail index =>
    exact ⟨sound.threads, sound.sweeper, sound.removals,
      fun others member => sound.live others (List.mem_of_mem_eraseIdx member), sound.lost⟩
  | other later => exact sound.reset.shrinks possible

/-! ## Runs -/

def initial (db : Db) (nextThreadId : Nat) : State where
  db
  nextThreadId
  collector := .idle
  sweeper := .idle
  removals := []
  transactions := []
  attached := []
  lost := []

inductive ApartStep (L : Lookups) : State → State → Prop where
  | turn (turn : Turn) (possible : turn.Possible s) (apart : turn.Apart s) : ApartStep L s (s.turn L turn)

theorem run_sound (threads : HaveThreads db)
    (run : Relation.ReflTransGen (ApartStep L) (initial db nextThreadId) s) : s.Sound := by
  induction run with
  | refl =>
    exact ⟨threads, trivial, fun _ member => absurd member List.not_mem_nil,
      fun _ member => absurd member List.not_mem_nil, rfl⟩
  | tail _ step ih =>
    cases step with
    | turn turn possible apart => exact turn_sound L ih turn possible apart

/-- In a run where nobody deletes a thread that an open transaction has put a message into, or puts
a message into a thread that is about to be deleted, every message keeps its thread, and no message
with a UID is deleted with one. -/
theorem messages_keep_threads (threads : HaveThreads db)
    (run : Relation.ReflTransGen (ApartStep L) (initial db nextThreadId) s) :
    HaveThreads s.db ∧ s.lost = [] :=
  ⟨(run_sound threads run).threads, (run_sound threads run).lost⟩

/-! ## A thread that was emptied a week ago -/

def byThrid : Lookups :=
  { Sample.lookups with
      chooseExistingThreadForGmail := fun db message =>
        (db.threads.find? fun thread => thread.gThrid = message.gThrid).map Thread.id }

def emptied : Db :=
  { Sample.account with
      threads := [{ id := 2, subject := "Hello", subjectdate := 1, recentdate := 1, snippet := ""
                    gThrid := some 6, deletedAt := some 5 }] }

/-- The next message of the conversation. -/
def reply : Message := { Sample.lookups.createFromSynced Sample.msg with id := 1 }

def run (turns : List Turn) : State := turns.foldl (State.turn byThrid) (initial emptied 3)

def arrival : Turn := .attach 0 (.gmail Sample.msg) reply (Common.newRow 1 1 Sample.msg) false

/-- The reply comes after the thread is gone, and starts another one. -/
theorem reply_keeps_thread :
    HaveThreads (run [.select 100, .look, .delete, .begin, arrival, .commit 0]).db ∧
      (run [.select 100, .look, .delete, .begin, arrival, .commit 0]).lost = [] := by
  have steps : Relation.ReflTransGen (ApartStep byThrid) (initial emptied 3)
      (run [.select 100, .look, .delete, .begin, arrival, .commit 0]) := by
    refine .tail (.tail (.tail (.tail (.tail (.tail .refl (.turn (.select 100) trivial trivial))
      (.turn .look trivial trivial)) (.turn .delete trivial ?_)) (.turn .begin trivial trivial))
      (.turn arrival trivial trivial)) (.turn (.commit 0) trivial ?_)
    · show 2 ∉ (run [.select 100, .look]).joined
      decide
    · rintro writes opened
      cases opened
      decide
  exact messages_keep_threads (by simp [HaveThreads, emptied, Sample.account]) steps

/-- The reply is put into the empty thread after `gc_deleted_threads` has looked into it. -/
theorem reply_loses_thread :
    HaveThreads emptied ∧
      (run [.select 100, .look, .begin, arrival, .commit 0, .delete]).db.uidsOf 1 ≠ [] ∧
      ¬ HaveThreads (run [.select 100, .look, .begin, arrival, .commit 0, .delete]).db := by
  refine ⟨by simp [HaveThreads, emptied, Sample.account], by decide +kernel, fun threads => ?_⟩
  have none : (run [.select 100, .look, .begin, arrival, .commit 0, .delete]).db.threads = [] := by
    decide +kernel
  have some : (run [.select 100, .look, .begin, arrival, .commit 0, .delete]).db.messages ≠ [] := by
    decide +kernel
  obtain ⟨message, member⟩ := List.exists_mem_of_ne_nil _ some
  obtain ⟨threadId, _, found⟩ := threads message member
  rw [Db.thread?, none] at found
  cases found

end ThreadTransactions
end SyncEngine
