import SyncEngine.Mailsync.SyncRun

/-! The collector of dangling messages, which shares the database with the folder engines and
takes no lock. Each turn reads or commits at one moment; turns of the engines come between. -/
namespace SyncEngine
namespace Gc

def MAX_FETCH : Nat := 1000

/-- What the collector's session holds and has not committed: the messages whose `deleted_at` it
has cleared, and those it has deleted. -/
structure Session where
  undeleted : List Nat
  deleted : List Nat
deriving DecidableEq, Repr

/-- Where `DeleteHandler.check` is in its loop. -/
inductive Collector where
  | idle
  | scanning (remaining : List Nat) (session : Session)
  /-- The `imapuids` of this message were read, and there were none. -/
  | checked (messageId : Nat) (remaining : List Nat) (session : Session)
deriving DecidableEq, Repr

structure State where
  db : Db
  collector : Collector
deriving DecidableEq, Repr

inductive Turn where
  /-- The query for messages marked no later than `before`. -/
  | select (before : Nat)
  /-- `self.uids_for_message(message)` -/
  | look
  /-- From `thread = message.thread` to the end of the loop's body. -/
  | delete (now : Nat)
  /-- After the loop the session commits what it still holds. -/
  | finish
  /-- An exception: the session is rolled back. -/
  | fail
  | engine (now : Nat) (operation : Operation)

def undelete (db : Db) (messageId : Nat) : Db :=
  db.updateMessage messageId (fun message => { message with deletedAt := none })

def commit (session : Session) (db : Db) : Db :=
  session.deleted.foldl Db.deleteMessage (session.undeleted.foldl undelete db)

/-- The attributes of a thread, recomputed from the messages that are left in it. -/
def refreshThread (now : Nat) (left : List Message) (thread : Thread) : Thread :=
  match left with
  | [] => { thread with deletedAt := some now }
  | _ :: _ =>
    let nonDraftMessages := left.filter (fun message => !message.isDraft)
    match nonDraftMessages.head?, nonDraftMessages.getLast? with
    | some firstMessage, some lastMessage =>
      { thread with
          subject := firstMessage.subject
          subjectdate := firstMessage.receivedDate
          recentdate := lastMessage.receivedDate
          snippet := lastMessage.snippet }
    | _, _ => thread

def State.turn (L : Lookups) (s : State) : Turn → State
  | .select before =>
    match s.collector with
    | .idle =>
      let danglingMessages := s.db.messages.filter fun message =>
        message.deletedAt.any (fun deletedAt => deletedAt ≤ before)
      { s with collector := .scanning ((danglingMessages.take MAX_FETCH).map Message.id) ⟨[], []⟩ }
    | _ => s
  | .look =>
    match s.collector with
    | .scanning (messageId :: remaining) session =>
      if s.db.uidsOf messageId = [] then { s with collector := .checked messageId remaining session }
      else
        let session := { session with undeleted := messageId :: session.undeleted }
        { s with collector := .scanning remaining session }
    | _ => s
  | .delete now =>
    match s.collector with
    | .checked messageId remaining session =>
      match (s.db.message? messageId).bind fun message => message.threadId.bind s.db.thread? with
      -- The message is gone, or it has no thread and the warning about that raises.
      | none => { s with collector := .idle }
      | some thread =>
        let session := { session with deleted := messageId :: session.deleted }
        let left := (s.db.threadMessages thread.id).filter fun message =>
          message.id ∉ session.deleted
        if left ≠ [] ∧ left.all (fun message => message.isDraft) then
          -- `continue` comes before the commit: the deletion waits for the session's next one.
          { s with collector := .scanning remaining session }
        else
          { db := (commit session s.db).updateThread thread.id (refreshThread now left)
            collector := .scanning remaining ⟨[], []⟩ }
    | _ => s
  | .finish =>
    match s.collector with
    | .scanning [] session => { db := commit session s.db, collector := .idle }
    | _ => s
  | .fail => { s with collector := .idle }
  | .engine now operation => { s with db := operation.run L now s.db }

/-- The messages that the collector has found without UIDs and is about to delete. -/
def Collector.condemned : Collector → List Nat
  | .idle => []
  | .scanning _ session => session.deleted
  | .checked messageId _ session => messageId :: session.deleted

/-- No engine attaches a UID to a message between the collector's check of it and its delete. -/
def Turn.Allowed (L : Lookups) (s : State) : Turn → Prop
  | .engine now operation =>
    ∀ messageId ∈ s.collector.condemned, (operation.run L now s.db).uidsOf messageId = []
  | _ => True

def Turn.ByCollector : Turn → Prop
  | .engine _ _ => False
  | _ => True

/-- What the collector has found stays true until it deletes. -/
def Sound (s : State) : Prop := ∀ messageId ∈ s.collector.condemned, s.db.uidsOf messageId = []

/-- What every undeleting and every deletion of a message keeps, a commit keeps. -/
theorem commit_keeps {P : Db → Prop} (undeletes : ∀ messageId db, P db → P (undelete db messageId))
    (deletes : ∀ messageId db, P db → P (Db.deleteMessage db messageId)) (session : Session)
    (start : P db) : P (commit session db) := by
  have undeleted : ∀ (ids : List Nat) (db : Db), P db → P (ids.foldl undelete db) := by
    intro ids
    induction ids with
    | nil => exact fun _ start => start
    | cons id _ ih => exact fun db start => ih _ (undeletes id db start)
  have deleted : ∀ (ids : List Nat) (db : Db), P db → P (ids.foldl Db.deleteMessage db) := by
    intro ids
    induction ids with
    | nil => exact fun _ start => start
    | cons id _ ih => exact fun db start => ih _ (deletes id db start)
  exact deleted session.deleted _ (undeleted session.undeleted db start)

theorem thread?_commit (session : Session) (db : Db) (threadId : Nat) :
    (commit session db).thread? threadId = db.thread? threadId :=
  commit_keeps (P := fun later => later.thread? threadId = db.thread? threadId) (fun _ _ same => same)
    (fun _ _ same => same) session rfl

theorem refreshThread_deletedAt {left : List Message} (now : Nat) (thread : Thread) (some : left ≠ []) :
    (refreshThread now left thread).deletedAt = thread.deletedAt := by
  unfold refreshThread
  split
  · exact absurd rfl some
  · dsimp only
    split <;> rfl

@[simp] theorem refreshThread_id (now : Nat) (left : List Message) (thread : Thread) :
    (refreshThread now left thread).id = thread.id := by
  unfold refreshThread
  split
  · rfl
  · dsimp only
    split <;> rfl

theorem undelete_imapuids (undeleted : List Nat) (db : Db) :
    (undeleted.foldl undelete db).imapuids = db.imapuids := by
  induction undeleted generalizing db with
  | nil => rfl
  | cons messageId rest ih => exact ih (undelete db messageId)

theorem mem_undelete (undeleted : List Nat) (member : message ∈ Db.messages db) :
    ∃ kept ∈ (undeleted.foldl undelete db).messages, kept.id = message.id := by
  induction undeleted generalizing db message with
  | nil => exact ⟨message, member, rfl⟩
  | cons messageId rest ih =>
    have moved : _ ∈ (undelete db messageId).messages := List.mem_map_of_mem member
    obtain ⟨kept, inside, same⟩ := ih moved
    refine ⟨kept, inside, same.trans ?_⟩
    split <;> rfl

/-- Deleting messages that no row refers to cascades to nothing. -/
theorem deleteMessages_imapuids {deleted : List Nat}
    (none : ∀ messageId ∈ deleted, Db.uidsOf db messageId = []) :
    (deleted.foldl Db.deleteMessage db).imapuids = db.imapuids := by
  induction deleted generalizing db with
  | nil => rfl
  | cons messageId rest ih =>
    have whole : (db.deleteMessage messageId).imapuids = db.imapuids := by
      have empty := List.filter_eq_nil_iff.mp (none messageId List.mem_cons_self)
      exact List.filter_eq_self.mpr fun row member => by simpa using empty row member
    refine (ih fun other member => ?_).trans whole
    simpa only [Db.uidsOf, whole] using none other (List.mem_cons_of_mem _ member)

theorem mem_deleteMessages {deleted : List Nat} (member : message ∈ Db.messages db)
    (spared : message.id ∉ deleted) : message ∈ (deleted.foldl Db.deleteMessage db).messages := by
  induction deleted generalizing db with
  | nil => exact member
  | cons messageId rest ih =>
    rw [List.mem_cons, not_or] at spared
    exact ih (List.mem_filter.mpr ⟨member, by simpa using spared.1⟩) spared.2

theorem commit_imapuids (none : ∀ messageId ∈ session.deleted, Db.uidsOf db messageId = []) :
    (commit session db).imapuids = db.imapuids := by
  have rows := undelete_imapuids session.undeleted db
  refine (deleteMessages_imapuids fun messageId member => ?_).trans rows
  simpa only [Db.uidsOf, rows] using none messageId member

/-- A commit deletes no other messages than those of its session. -/
theorem mem_commit (member : message ∈ Db.messages db) (spared : message.id ∉ session.deleted) :
    ∃ kept ∈ (commit session db).messages, kept.id = message.id := by
  obtain ⟨kept, inside, same⟩ := mem_undelete session.undeleted member
  exact ⟨kept, mem_deleteMessages inside (same ▸ spared), same⟩

/-! ## Turns -/

/-- A turn of the collector leaves all rows, and every message that has one. -/
structure Spares (before after : Db) : Prop where
  imapuids : after.imapuids = before.imapuids
  messages : ∀ message ∈ before.messages, before.uidsOf message.id ≠ [] →
    ∃ kept ∈ after.messages, kept.id = message.id

theorem Spares.refl (db : Db) : Spares db db where
  imapuids := rfl
  messages message member _ := ⟨message, member, rfl⟩

theorem commit_spares (none : ∀ messageId ∈ session.deleted, Db.uidsOf db messageId = []) :
    Spares db (commit session db) where
  imapuids := commit_imapuids none
  messages _ member some := mem_commit member fun gone => some (none _ gone)

theorem turn_spares (L : Lookups) (sound : Sound s) (collector : Turn.ByCollector turn) :
    Spares s.db (s.turn L turn).db := by
  obtain ⟨db, phase⟩ := s
  cases turn with
  | engine => exact collector.elim
  | fail => exact .refl db
  | select =>
    cases phase <;> exact .refl db
  | look =>
    match phase with
    | .idle | .scanning [] _ | .checked _ _ _ => exact .refl db
    | .scanning (messageId :: remaining) session =>
      simp only [State.turn]
      split <;> exact .refl db
  | finish =>
    match phase with
    | .idle | .scanning (_ :: _) _ | .checked _ _ _ => exact .refl db
    | .scanning [] session => exact commit_spares sound
  | delete now =>
    match phase with
    | .idle | .scanning _ _ => exact .refl db
    | .checked messageId remaining session =>
      simp only [State.turn]
      split
      · exact .refl db
      · split
        · exact .refl db
        · have spared : Spares db (commit { session with deleted := messageId :: session.deleted } db) :=
            commit_spares sound
          exact ⟨spared.imapuids, spared.messages⟩

theorem turn_sound (L : Lookups) (sound : Sound s) (allowed : turn.Allowed L s) :
    Sound (s.turn L turn) := by
  obtain ⟨db, phase⟩ := s
  cases turn with
  | engine now operation => exact allowed
  | fail => exact fun _ member => absurd member List.not_mem_nil
  | select before =>
    match phase with
    | .idle => exact fun _ member => absurd member List.not_mem_nil
    | .scanning _ _ | .checked _ _ _ => exact sound
  | look =>
    match phase with
    | .idle | .scanning [] _ | .checked _ _ _ => exact sound
    | .scanning (messageId :: remaining) session =>
      simp only [State.turn]
      split
      · rename_i none
        exact List.forall_mem_cons.mpr ⟨none, sound⟩
      · exact sound
  | finish =>
    match phase with
    | .scanning [] session => exact fun _ member => absurd member List.not_mem_nil
    | .idle | .scanning (_ :: _) _ | .checked _ _ _ => exact sound
  | delete now =>
    match phase with
    | .idle | .scanning _ _ => exact sound
    | .checked messageId remaining session =>
      simp only [State.turn]
      split
      · exact fun _ member => absurd member List.not_mem_nil
      · split
        · exact sound
        · exact fun _ member => absurd member List.not_mem_nil

/-! ## Runs -/

inductive GcStep (L : Lookups) : State → State → Prop where
  | turn (turn : Turn) (allowed : turn.Allowed L s) : GcStep L s (s.turn L turn)

theorem run_sound (idle : start.collector = .idle) (run : Relation.ReflTransGen (GcStep L) start s) :
    Sound s := by
  induction run with
  | refl =>
    intro messageId member
    rw [idle] at member
    cases member
  | tail _ step ih =>
    cases step with
    | turn turn allowed => exact turn_sound L ih allowed

/-- In a run where no UID is attached to a message that the collector has already checked, no turn
of the collector removes a row or deletes a message that has one. -/
theorem collector_spares_live_mail (idle : start.collector = .idle)
    (run : Relation.ReflTransGen (GcStep L) start s) (collector : Turn.ByCollector turn) :
    Spares s.db (s.turn L turn).db :=
  turn_spares L (run_sound idle run) collector

/-- One marked message without rows, which its `X-GM-MSGID` still identifies. -/
def marked : State where
  db :=
    { Sample.account with
        messages := [{ Sample.lookups.createFromSynced Sample.msg with
          id := 1, threadId := some 2, deletedAt := some 5, hadUid := true }]
        threads := [{ id := 2, subject := "Hello", subjectdate := 1, recentdate := 1, snippet := ""
                      gThrid := some 6, deletedAt := none }] }
  collector := .idle

def checkedMark : State := (marked.turn Sample.lookups (.select 100)).turn Sample.lookups .look

theorem collector_spares_mail_of_marked :
    Spares checkedMark.db (checkedMark.turn Sample.lookups (.delete 200)).db := by
  have run : Relation.ReflTransGen (GcStep Sample.lookups) marked checkedMark :=
    .tail (.tail .refl (.turn (.select 100) trivial)) (.turn .look trivial)
  exact collector_spares_live_mail rfl run trivial

/-- The UID that an engine attaches after the check goes with the message. -/
theorem uid_attached_after_check_is_lost :
    let attached := checkedMark.turn Sample.lookups (.engine 150 (.deduplicate 1 Sample.msg))
    attached.db.imapuids ≠ [] ∧ (attached.turn Sample.lookups (.delete 200)).db.imapuids = [] := by
  decide

end Gc
end SyncEngine
