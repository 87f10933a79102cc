import Mathlib.Data.List.Sort
import SyncEngine.Mailsync.Attachment
import SyncEngine.Mailsync.Gc

/-! The dates and the snippet of a thread: kept up to date as messages are attached to it, and
recomputed when the collector deletes some of them. -/
namespace SyncEngine
open CreateMessage

/-- What a thread takes from one of its messages. -/
structure Contribution where
  id : Nat
  isDraft : Bool
  receivedDate : Nat
  snippet : String
deriving DecidableEq, Repr

def Message.contribution (message : Message) : Contribution where
  id := message.id
  isDraft := message.isDraft
  receivedDate := message.receivedDate
  snippet := message.snippet

namespace ThreadSummary

def contributions (db : Db) (threadId : Nat) : List Contribution :=
  (db.messages.filter (fun message => message.threadId = some threadId)).map Message.contribution

def nonDrafts (messages : List Contribution) : List Contribution :=
  messages.filter (fun message => !message.isDraft)

/-- The thread has the newest date with its snippet, and the oldest date. -/
structure IsSummary (thread : Thread) (messages : List Contribution) : Prop where
  newest : ∃ last ∈ messages, (∀ other ∈ messages, other.receivedDate ≤ last.receivedDate) ∧
    thread.recentdate = last.receivedDate ∧ thread.snippet = last.snippet
  oldest : ∃ first ∈ messages, (∀ other ∈ messages, first.receivedDate ≤ other.receivedDate) ∧
    thread.subjectdate = first.receivedDate

theorem IsSummary.of_mem_iff (summary : IsSummary thread messages)
    (same : ∀ message, message ∈ later ↔ message ∈ messages) : IsSummary thread later where
  newest := by simpa only [same] using summary.newest
  oldest := by simpa only [same] using summary.oldest

theorem updateFromMessage_counts (thread : Thread) (counts : message.isDraft = false) :
    (updateFromMessage thread message).recentdate = max thread.recentdate message.receivedDate ∧
    (updateFromMessage thread message).snippet =
      (if thread.recentdate < message.receivedDate then message.snippet else thread.snippet) ∧
    (updateFromMessage thread message).subjectdate = min thread.subjectdate message.receivedDate := by
  unfold updateFromMessage
  rw [counts]
  by_cases newer : thread.recentdate < message.receivedDate <;>
    by_cases older : message.receivedDate < thread.subjectdate <;>
      simp [newer, older] <;> omega

/-- The append listener, for a message that counts. -/
theorem IsSummary.join (summary : IsSummary thread messages) (counts : message.isDraft = false)
    (joined : ∀ other, other ∈ later ↔ other = Message.contribution message ∨ other ∈ messages) :
    IsSummary (updateFromMessage thread message) later := by
  obtain ⟨last, inside, bound, recentdate, snippet⟩ := summary.newest
  obtain ⟨first, member, least, subjectdate⟩ := summary.oldest
  have own : (Message.contribution message).receivedDate = message.receivedDate := rfl
  obtain ⟨recent, text, subject⟩ := updateFromMessage_counts thread counts
  refine ⟨?_, ?_⟩
  · rw [recent, text]
    by_cases newer : thread.recentdate < message.receivedDate
    · refine ⟨message.contribution, (joined _).mpr (.inl rfl), fun other known => ?_, by omega, ?_⟩
      · rcases (joined other).mp known with rfl | earlier
        · exact le_rfl
        · have := bound other earlier
          omega
      · rw [if_pos newer]
        rfl
    · refine ⟨last, (joined _).mpr (.inr inside), fun other known => ?_, by omega, ?_⟩
      · rcases (joined other).mp known with rfl | earlier
        · omega
        · exact bound other earlier
      · rw [if_neg newer, snippet]
  · rw [subject]
    by_cases older : message.receivedDate < thread.subjectdate
    · refine ⟨message.contribution, (joined _).mpr (.inl rfl), fun other known => ?_, by omega⟩
      rcases (joined other).mp known with rfl | earlier
      · exact le_rfl
      · have := least other earlier
        omega
    · refine ⟨first, (joined _).mpr (.inr member), fun other known => ?_, by omega⟩
      rcases (joined other).mp known with rfl | earlier
      · omega
      · exact least other earlier

/-! ## Attaching messages -/

theorem mem_contributions : message ∈ contributions db threadId ↔
    ∃ row ∈ db.messages, row.threadId = some threadId ∧ row.contribution = message := by
  simp [contributions, and_assoc]

/-- The message joins those that the thread already has. -/
theorem contributions_attached (attached : Attached message parent db after threadId) (unique : UniqueIds db)
    (member : message ∈ db.messages) (other : Contribution) :
    other ∈ contributions after threadId ↔
      other = message.contribution ∨ other ∈ contributions db threadId := by
  obtain ⟨gMsgid, gThrid, messages⟩ := attached.messages
  simp only [mem_contributions, messages, Db.updateMessage, List.mem_map, exists_exists_and_eq_and]
  constructor
  · rintro ⟨row, inside, threadId, rfl⟩
    by_cases same : row.id = message.id
    · left
      rw [unique row inside message member same, if_pos rfl]
      rfl
    · rw [if_neg same] at threadId ⊢
      exact .inr ⟨row, inside, threadId, rfl⟩
  · rintro (rfl | ⟨row, inside, threadId, rfl⟩)
    · exact ⟨message, member, by rw [if_pos rfl], by rw [if_pos rfl]; rfl⟩
    · by_cases same : row.id = message.id
      · refine ⟨row, inside, ?_, ?_⟩ <;> rw [if_pos same]
        rfl
      · refine ⟨row, inside, ?_, ?_⟩ <;> rw [if_neg same]
        exact threadId

/-- The messages that the thread's dates come from: the one that created it, and all non-drafts. -/
def counted (creator : Contribution) (messages : List Contribution) : List Contribution :=
  messages.filter (fun message => !message.isDraft || message = creator)

theorem mem_counted : message ∈ counted creator messages ↔
    message ∈ messages ∧ (message.isDraft = false ∨ message = creator) := by
  simp [counted]

theorem mem_nonDrafts : message ∈ nonDrafts messages ↔ message ∈ messages ∧ message.isDraft = false := by
  simp [nonDrafts]

/-- A thread that `creator` has started, with the messages attached to it so far. -/
structure Growing (threadId : Nat) (creator : Contribution) (db : Db) : Prop where
  unique : UniqueIds db
  started : creator ∈ contributions db threadId
  thread : ∃ thread, db.thread? threadId = some thread ∧
    IsSummary thread (counted creator (contributions db threadId))

/-- An engine creates the thread for `message`. -/
inductive Created (L : Lookups) (threadId : Nat) (message : Message) : Db → Prop where
  | attach (engine : Engine) (unique : UniqueIds db) (member : message ∈ db.messages)
      (absent : db.thread? threadId = none)
      (goes : GoesTo threadId message (engine.addMessageToThread L message db)) :
      Created L threadId message (engine.addMessageToThread L message db)

inductive AttachStep (L : Lookups) (threadId : Nat) : Db → Db → Prop where
  | attach (engine : Engine) (member : message ∈ Db.messages db)
      (goes : GoesTo threadId message (engine.addMessageToThread L message db)) :
      AttachStep L threadId db (engine.addMessageToThread L message db)
  /-- Anything else that the engines do. -/
  | apart (unique : UniqueIds after) (thread : after.thread? threadId = db.thread? threadId)
      (messages : contributions after threadId = contributions db threadId) :
      AttachStep L threadId db after

theorem Created.growing (created : Created L threadId message db) :
    Growing threadId message.contribution db := by
  cases created with
  | @attach before engine unique member absent goes =>
    have attached := engine.attaches L member goes
    generalize engine.parent? L message before = parent at attached
    cases attached.attachment with
    | joins parent found | keeps own found => simp [absent] at found
    | creates _ fresh subject gThrid thread =>
      have only : ∀ other, other ∈ contributions (engine.addMessageToThread L message before) threadId ↔
          other = message.contribution := by
        intro other
        rw [contributions_attached attached unique member]
        refine or_iff_left fun earlier => ?_
        obtain ⟨row, inside, held, _⟩ := mem_contributions.mp earlier
        exact absurd (fresh ▸ held) fun same => Nat.lt_irrefl _ (Db.threadId_lt_fresh inside same)
      refine ⟨attached.unique unique, (only _).mpr rfl, _, thread, ?_⟩
      constructor
      · refine ⟨message.contribution, mem_counted.mpr ⟨(only _).mpr rfl, .inr rfl⟩, ?_, rfl, rfl⟩
        intro other known
        rw [(only other).mp (mem_counted.mp known).1]
      · refine ⟨message.contribution, mem_counted.mpr ⟨(only _).mpr rfl, .inr rfl⟩, ?_, rfl⟩
        intro other known
        rw [(only other).mp (mem_counted.mp known).1]

theorem AttachStep.growing (step : AttachStep L threadId db after) (growing : Growing threadId creator db) :
    Growing threadId creator after := by
  obtain ⟨thread, found, summary⟩ := growing.thread
  cases step with
  | apart unique same messages =>
    refine ⟨unique, messages ▸ growing.started, thread, same.trans found, ?_⟩
    rwa [messages]
  | @attach _ message engine member goes =>
    have attached := engine.attaches L member goes
    generalize engine.parent? L message db = parent at attached
    have joined := contributions_attached attached growing.unique member
    refine ⟨attached.unique growing.unique, (joined _).mpr (.inr growing.started), ?_⟩
    cases attached.attachment with
    | creates _ fresh => simp [fresh, Db.thread?_fresh] at found
    | keeps own same held gThrid thread' =>
      cases found.symm.trans same
      have known : message.contribution ∈ contributions db threadId :=
        mem_contributions.mpr ⟨message, member, held, rfl⟩
      have same : IsSummary thread (counted creator
          (contributions (engine.addMessageToThread L message db) threadId)) :=
        summary.of_mem_iff fun other => by
          simp only [mem_counted, joined]
          grind
      exact ⟨_, thread', same.newest, same.oldest⟩
    | joins parent same thread' =>
      cases found.symm.trans same
      refine ⟨_, thread', ?_⟩
      cases draft : message.isDraft with
      | false =>
        refine summary.join draft fun other => ?_
        have counts : message.contribution.isDraft = false := draft
        simp only [mem_counted, joined]
        grind
      | true =>
        have ignored : updateFromMessage thread message = thread := by simp [updateFromMessage, draft]
        have counts : message.contribution.isDraft = true := draft
        rw [ignored]
        refine summary.of_mem_iff fun other => ?_
        simp only [mem_counted, joined]
        have started := growing.started
        grind

/-! ## Deleting messages -/

theorem contributions_undelete (undeleted : List Nat) (db : Db) (threadId : Nat) :
    contributions (undeleted.foldl Gc.undelete db) threadId = contributions db threadId := by
  induction undeleted generalizing db with
  | nil => rfl
  | cons messageId rest ih =>
    refine (ih (Gc.undelete db messageId)).trans ?_
    simp only [contributions, Gc.undelete, Db.updateMessage, List.filter_map, List.map_map]
    have field : ∀ row : Message, (if row.id = messageId then { row with deletedAt := none } else row).threadId
        = row.threadId := fun row => by split <;> rfl
    have entry : ∀ row : Message, (if row.id = messageId then { row with deletedAt := none } else row).contribution
        = row.contribution := fun row => by split <;> rfl
    simp only [Function.comp_def, field, entry]

theorem contributions_delete (deleted : List Nat) (db : Db) (threadId : Nat) :
    contributions (deleted.foldl Db.deleteMessage db) threadId =
      (contributions db threadId).filter (fun message => message.id ∉ deleted) := by
  induction deleted generalizing db with
  | nil => simp [contributions]
  | cons messageId rest ih =>
    refine (ih (db.deleteMessage messageId)).trans ?_
    simp only [contributions, Db.deleteMessage, List.filter_map, List.filter_filter]
    congr 1
    apply List.filter_congr
    intro row _
    simp only [Function.comp_apply, Message.contribution, List.mem_cons, not_or]
    grind

theorem contributions_commit (session : Gc.Session) (db : Db) (threadId : Nat) :
    contributions (Gc.commit session db) threadId =
      (contributions db threadId).filter (fun message => message.id ∉ session.deleted) := by
  rw [Gc.commit, contributions_delete, contributions_undelete]

theorem commit_unique (session : Gc.Session) (unique : UniqueIds db) :
    UniqueIds (Gc.commit session db) := by
  apply Gc.commit_keeps _ _ session unique
  · exact fun id _ unique => unique.updateMessage id _ fun _ => rfl
  · exact fun _ _ unique a inside b member =>
      unique a (List.mem_of_mem_filter inside) b (List.mem_of_mem_filter member)

/-- What the collector has committed of a thread that it found as `thread` with `messages`: nothing,
or it has deleted some of them and recomputed the thread where a non-draft is left. -/
structure Recorded (threadId : Nat) (thread : Thread) (messages : List Contribution) (db : Db) : Prop where
  subset : ∀ message ∈ contributions db threadId, message ∈ messages
  status : ∃ now, db.thread? threadId = some now ∧
    (contributions db threadId = messages ∧ now = thread ∨
      (∃ message ∈ messages, message ∉ contributions db threadId) ∧
        (nonDrafts (contributions db threadId) ≠ [] → IsSummary now (nonDrafts (contributions db threadId))))

/-- Deletions of this thread's messages wait for a commit only where no non-draft is left. -/
def Waits (threadId : Nat) (deleted : List Nat) (db : Db) : Prop :=
  (∃ message ∈ nonDrafts (contributions db threadId), message.id ∉ deleted) →
    ∀ message ∈ contributions db threadId, message.id ∉ deleted

theorem waits_nil (threadId : Nat) (db : Db) : Waits threadId [] db :=
  fun _ _ _ => List.not_mem_nil

theorem Recorded.commit (recorded : Recorded threadId thread messages db)
    (waits : Waits threadId session.deleted db) : Recorded threadId thread messages (Gc.commit session db) := by
  obtain ⟨now, found, status⟩ := recorded.status
  have left := contributions_commit session db threadId
  by_cases untouched : ∀ message ∈ contributions db threadId, message.id ∉ session.deleted
  · have same : contributions (Gc.commit session db) threadId = contributions db threadId := by
      rw [left]
      exact List.filter_eq_self.mpr fun message member => by simpa using untouched message member
    refine ⟨by rw [same]; exact recorded.subset, now, (Gc.thread?_commit session db threadId).trans found, ?_⟩
    rwa [same]
  · have none : nonDrafts (contributions (Gc.commit session db) threadId) = [] := by
      apply List.eq_nil_iff_forall_not_mem.mpr
      intro message member
      rw [left, mem_nonDrafts, List.mem_filter, decide_eq_true_eq] at member
      exact untouched (waits ⟨message, mem_nonDrafts.mpr ⟨member.1.1, member.2⟩, member.1.2⟩)
    push Not at untouched
    obtain ⟨message, member, gone⟩ := untouched
    refine ⟨fun other kept => ?_, now, (Gc.thread?_commit session db threadId).trans found, .inr ⟨?_, ?_⟩⟩
    · rw [left] at kept
      exact recorded.subset other (List.mem_of_mem_filter kept)
    · refine ⟨message, recorded.subset message member, ?_⟩
      rw [left, List.mem_filter, decide_eq_true_eq]
      exact fun kept => kept.2 gone
    · exact fun some => absurd none some

theorem refreshThread_summary (now : Nat) (thread : Thread) {left : List Message}
    (sorted : left.Pairwise (fun a b => a.receivedDate ≤ b.receivedDate))
    (some : nonDrafts (left.map Message.contribution) ≠ []) :
    IsSummary (Gc.refreshThread now left thread) (nonDrafts (left.map Message.contribution)) := by
  let kept := left.filter (fun message => !message.isDraft)
  have mapped : nonDrafts (left.map Message.contribution) = kept.map Message.contribution := by
    rw [nonDrafts, List.filter_map]
    rfl
  rw [mapped] at some ⊢
  have nonempty : kept ≠ [] := fun none => some (by rw [none]; rfl)
  have ordered : kept.Pairwise (fun a b => a.receivedDate ≤ b.receivedDate) := sorted.filter _
  have refreshed : Gc.refreshThread now left thread = { thread with
      subject := (kept.head nonempty).subject
      subjectdate := (kept.head nonempty).receivedDate
      recentdate := (kept.getLast nonempty).receivedDate
      snippet := (kept.getLast nonempty).snippet } := by
    unfold Gc.refreshThread
    split
    · exact absurd rfl nonempty
    · dsimp only
      rw [List.head?_eq_some_head nonempty, List.getLast?_eq_some_getLast nonempty]
  rw [refreshed]
  have : Std.Refl (fun a b : Message => a.receivedDate ≤ b.receivedDate) := ⟨fun _ => le_rfl⟩
  constructor
  · refine ⟨_, List.mem_map_of_mem (List.getLast_mem nonempty), List.forall_mem_map.mpr fun other member => ?_,
      rfl, rfl⟩
    exact ordered.rel_getLast member
  · refine ⟨_, List.mem_map_of_mem (List.head_mem nonempty), List.forall_mem_map.mpr fun other member => ?_, rfl⟩
    exact ordered.rel_head member

/-- The ids that the collector has deleted and not committed. -/
def deletedIds : Gc.Collector → List Nat
  | .idle => []
  | .scanning _ session | .checked _ _ session => session.deleted

structure Checking (threadId : Nat) (thread : Thread) (messages : List Contribution) (s : Gc.State) :
    Prop where
  unique : UniqueIds s.db
  recorded : Recorded threadId thread messages s.db
  waits : Waits threadId (deletedIds s.collector) s.db

inductive CheckStep (L : Lookups) : Gc.State → Gc.State → Prop where
  | turn (turn : Gc.Turn) (collector : turn.ByCollector) : CheckStep L s (s.turn L turn)

/-- The messages of the thread that are left when those with these ids are deleted. -/
def leftIn (db : Db) (threadId : Nat) (deleted : List Nat) : List Message :=
  (db.threadMessages threadId).filter fun message => message.id ∉ deleted

theorem mem_leftIn : message ∈ leftIn db threadId deleted ↔
    message ∈ db.messages ∧ message.threadId = some threadId ∧ message.id ∉ deleted := by
  simp [leftIn, Db.threadMessages, and_assoc]

theorem leftIn_sorted (db : Db) (threadId : Nat) (deleted : List Nat) :
    (leftIn db threadId deleted).Pairwise (fun a b => a.receivedDate ≤ b.receivedDate) := by
  have : Std.Total (fun a b : Message => a.receivedDate ≤ b.receivedDate) :=
    ⟨fun a b => Nat.le_total a.receivedDate b.receivedDate⟩
  have : IsTrans Message (fun a b => a.receivedDate ≤ b.receivedDate) :=
    ⟨fun _ _ _ => Nat.le_trans⟩
  exact (List.pairwise_insertionSort _ _).filter _

theorem mem_map_leftIn : message ∈ (leftIn db threadId deleted).map Message.contribution ↔
    message ∈ (contributions db threadId).filter (fun message => message.id ∉ deleted) := by
  simp only [List.mem_map, mem_leftIn, List.mem_filter, mem_contributions, decide_eq_true_eq]
  constructor
  · rintro ⟨row, ⟨member, inside, kept⟩, rfl⟩
    exact ⟨⟨row, member, inside, rfl⟩, kept⟩
  · rintro ⟨⟨row, member, inside, rfl⟩, kept⟩
    exact ⟨row, ⟨member, inside, kept⟩, rfl⟩

/-- The collector marks a message of another thread. -/
theorem Waits.cons_other (waits : Waits threadId deleted db) (unique : UniqueIds db)
    (member : row ∈ db.messages) (other : row.threadId ≠ some threadId) :
    Waits threadId (row.id :: deleted) db := by
  rintro ⟨message, inside, kept⟩ entry known
  rw [List.mem_cons, not_or] at kept ⊢
  refine ⟨fun same => ?_, waits ⟨message, inside, kept.2⟩ entry known⟩
  obtain ⟨found, held, thread, rfl⟩ := mem_contributions.mp known
  rw [unique found held row member same] at thread
  exact other thread

/-- The collector marks a message whose thread then has only drafts. -/
theorem Waits.cons_drafts (drafts : (leftIn db threadId deleted).all (fun message => message.isDraft)) :
    Waits threadId deleted db := by
  rintro ⟨message, inside, kept⟩
  obtain ⟨member, counts⟩ := mem_nonDrafts.mp inside
  obtain ⟨row, held, thread, rfl⟩ := mem_contributions.mp member
  have draft : row.isDraft := List.all_eq_true.mp drafts row (mem_leftIn.mpr ⟨held, thread, kept⟩)
  exact absurd draft (by simpa [Message.contribution] using counts)

theorem Recorded.updateThread_other (recorded : Recorded threadId thread messages db)
    {change : Thread → Thread} (fixed : ∀ thread, (change thread).id = thread.id) {id : Nat}
    (other : threadId ≠ id) : Recorded threadId thread messages (db.updateThread id change) where
  subset := recorded.subset
  status := by
    obtain ⟨now, found, status⟩ := recorded.status
    exact ⟨now, by rw [Db.thread?_updateThread fixed, if_neg other, found], status⟩

/-- The commit after a deletion from the thread itself. -/
theorem Recorded.refresh (recorded : Recorded threadId thread messages db) (now : Nat)
    (member : row ∈ db.messages) (inside : row.threadId = some threadId)
    (deleted : row.id ∈ session.deleted) :
    Recorded threadId thread messages ((Gc.commit session db).updateThread threadId
      (Gc.refreshThread now (leftIn db threadId session.deleted))) := by
  obtain ⟨held, found, _⟩ := recorded.status
  have left : contributions ((Gc.commit session db).updateThread threadId
      (Gc.refreshThread now (leftIn db threadId session.deleted))) threadId =
        (contributions db threadId).filter (fun message => message.id ∉ session.deleted) :=
    contributions_commit session db threadId
  refine ⟨fun message kept => ?_, Gc.refreshThread now (leftIn db threadId session.deleted) held, ?_,
    .inr ⟨⟨row.contribution, recorded.subset _ (mem_contributions.mpr ⟨row, member, inside, rfl⟩), ?_⟩, ?_⟩⟩
  · rw [left] at kept
    exact recorded.subset message (List.mem_of_mem_filter kept)
  · rw [Db.thread?_updateThread (fun thread => Gc.refreshThread_id now _ thread), if_pos rfl, Gc.thread?_commit,
      found, Option.map_some]
  · rw [left, List.mem_filter, decide_eq_true_eq]
    exact fun kept => kept.2 deleted
  · rw [left]
    intro some
    have same : ∀ message, message ∈ nonDrafts ((contributions db threadId).filter
        (fun message => message.id ∉ session.deleted)) ↔
          message ∈ nonDrafts ((leftIn db threadId session.deleted).map Message.contribution) :=
      fun message => by simp only [mem_nonDrafts, mem_map_leftIn]
    refine (refreshThread_summary now held (leftIn_sorted db threadId session.deleted) ?_).of_mem_iff same
    obtain ⟨message, member⟩ := List.exists_mem_of_ne_nil _ some
    exact List.ne_nil_of_mem ((same message).mp member)

theorem delete_checking (L : Lookups) (now : Nat) (checking : Checking threadId thread messages s) :
    Checking threadId thread messages (s.turn L (.delete now)) := by
  obtain ⟨db, phase⟩ := s
  match phase with
  | .idle | .scanning _ _ => exact checking
  | .checked messageId remaining session =>
    simp only [Gc.State.turn]
    split
    · exact ⟨checking.unique, checking.recorded, waits_nil threadId db⟩
    · rename_i found thread same
      obtain ⟨row, read, held⟩ := Option.bind_eq_some_iff.mp same
      obtain ⟨id, inside, chosen⟩ := Option.bind_eq_some_iff.mp held
      have member : row ∈ db.messages := List.mem_of_find?_eq_some read
      have key : row.id = messageId := by simpa using List.find?_some read
      rw [Db.thread?_id chosen]
      subst key
      have elsewhere : id ≠ threadId → Waits threadId (row.id :: session.deleted) db := by
        intro other
        refine checking.waits.cons_other checking.unique member fun own => other ?_
        exact Option.some.inj (inside.symm.trans own)
      split
      · rename_i drafts
        refine ⟨checking.unique, checking.recorded, ?_⟩
        by_cases own : id = threadId
        · subst own
          exact .cons_drafts drafts.2
        · exact elsewhere own
      · refine ⟨commit_unique _ checking.unique, ?_, waits_nil threadId _⟩
        by_cases own : id = threadId
        · subst own
          exact checking.recorded.refresh now member inside List.mem_cons_self
        · exact (checking.recorded.commit (elsewhere own)).updateThread_other
            (fun thread => Gc.refreshThread_id now _ thread) (Ne.symm own)

theorem CheckStep.checking (step : CheckStep L s later) (checking : Checking threadId thread messages s) :
    Checking threadId thread messages later := by
  obtain ⟨turn, collector⟩ := step
  cases turn with
  | engine => exact collector.elim
  | fail => exact ⟨checking.unique, checking.recorded, waits_nil threadId s.db⟩
  | delete now => exact delete_checking L now checking
  | select =>
    obtain ⟨db, phase⟩ := s
    cases phase with
    | idle => exact ⟨checking.unique, checking.recorded, waits_nil threadId db⟩
    | scanning | checked => exact checking
  | look =>
    obtain ⟨db, phase⟩ := s
    cases phase with
    | idle | checked => exact checking
    | scanning messageIds session =>
      cases messageIds with
      | nil => exact checking
      | cons messageId remaining =>
        simp only [Gc.State.turn]
        split <;> exact ⟨checking.unique, checking.recorded, checking.waits⟩
  | finish =>
    obtain ⟨db, phase⟩ := s
    cases phase with
    | idle | checked => exact checking
    | scanning messageIds session =>
      cases messageIds with
      | nil =>
        exact ⟨commit_unique session checking.unique, checking.recorded.commit checking.waits,
          waits_nil threadId _⟩
      | cons => exact checking

/-! ## A thread's life -/

theorem run_growing (created : Created L threadId message first)
    (attaching : Relation.ReflTransGen (AttachStep L threadId) first db) :
    Growing threadId message.contribution db := by
  induction attaching with
  | refl => exact created.growing
  | tail _ step ih => exact step.growing ih

theorem run_checking (start : Checking threadId thread messages s)
    (deleting : Relation.ReflTransGen (CheckStep L) s later) :
    Checking threadId thread messages later := by
  induction deleting with
  | refl => exact start
  | tail _ step ih => exact step.checking ih

/-- Where the message that created the thread may be a draft, its date counts too. -/
theorem counted_summary_iff (summary : IsSummary thread (counted creator messages))
    (started : creator ∈ messages)
    (dates : ∀ a ∈ messages, ∀ b ∈ messages, a.receivedDate = b.receivedDate → a = b) :
    IsSummary thread (nonDrafts messages) ↔ creator.isDraft = false ∨
      (∃ older ∈ nonDrafts messages, older.receivedDate < creator.receivedDate) ∧
        ∃ newer ∈ nonDrafts messages, creator.receivedDate < newer.receivedDate := by
  have own : creator ∈ counted creator messages := mem_counted.mpr ⟨started, .inr rfl⟩
  constructor
  · intro exact
    obtain ⟨last, inside, _, recentdate, _⟩ := exact.newest
    obtain ⟨first, member, _, subjectdate⟩ := exact.oldest
    obtain ⟨_, _, bound, top, _⟩ := summary.newest
    obtain ⟨_, _, least, bottom⟩ := summary.oldest
    have upper := bound creator own
    have lower := least creator own
    rcases draft : creator.isDraft
    · exact .inl rfl
    · have apart : ∀ other ∈ nonDrafts messages, creator.receivedDate ≠ other.receivedDate := by
        intro other known same
        obtain ⟨held, counts⟩ := mem_nonDrafts.mp known
        rw [← dates creator started other held same, draft] at counts
        cases counts
      have := apart last inside
      have := apart first member
      exact .inr ⟨⟨first, member, by omega⟩, last, inside, by omega⟩
  · rintro (counts | ⟨⟨older, before, lower⟩, newer, after, upper⟩)
    · refine summary.of_mem_iff fun message => ?_
      simp only [mem_nonDrafts, mem_counted]
      grind
    · have spared : ∀ other ∈ counted creator messages, other.receivedDate ≠ creator.receivedDate →
          other ∈ nonDrafts messages := by
        intro other known apart
        obtain ⟨held, counts | rfl⟩ := mem_counted.mp known
        · exact mem_nonDrafts.mpr ⟨held, counts⟩
        · exact absurd rfl apart
      have included : ∀ other ∈ nonDrafts messages, other ∈ counted creator messages := by
        intro other known
        obtain ⟨held, counts⟩ := mem_nonDrafts.mp known
        exact mem_counted.mpr ⟨held, .inl counts⟩
      obtain ⟨last, inside, bound, top⟩ := summary.newest
      obtain ⟨first, member, least, bottom⟩ := summary.oldest
      have above := bound newer (included newer after)
      have below := least older (included older before)
      exact {
        newest := ⟨last, spared last inside (by omega), fun other known => bound other (included other known), top⟩
        oldest := ⟨first, spared first member (by omega), fun other known => least other (included other known),
          bottom⟩ }

/-- The thread that the messages `remaining` belong to in the end shows the newest and the oldest of
their non-drafts exactly where a message has been deleted, or the message that created the thread
is not a draft, or some non-draft is older than it and some is newer. -/
theorem summary_iff (created : Created L threadId message first)
    (attaching : Relation.ReflTransGen (AttachStep L threadId) first db)
    (dates : ∀ a ∈ contributions db threadId, ∀ b ∈ contributions db threadId,
      a.receivedDate = b.receivedDate → a = b)
    (deleting : Relation.ReflTransGen (CheckStep L) { db, collector := .idle } s)
    (remains : nonDrafts (contributions s.db threadId) ≠ []) :
    (∃ thread, s.db.thread? threadId = some thread ∧
      IsSummary thread (nonDrafts (contributions s.db threadId))) ↔
      (∃ deleted ∈ contributions db threadId, deleted ∉ contributions s.db threadId) ∨
      message.isDraft = false ∨
      (∃ older ∈ nonDrafts (contributions db threadId), older.receivedDate < message.receivedDate) ∧
        ∃ newer ∈ nonDrafts (contributions db threadId), message.receivedDate < newer.receivedDate := by
  have growing := run_growing created attaching
  obtain ⟨thread, found, summary⟩ := growing.thread
  have start : Checking threadId thread (contributions db threadId) { db, collector := .idle } :=
    ⟨growing.unique, ⟨fun _ member => member, thread, found, .inl ⟨rfl, rfl⟩⟩, waits_nil threadId db⟩
  obtain ⟨now, here, ⟨untouched, rfl⟩ | ⟨deleted, exact⟩⟩ := (run_checking start deleting).recorded.status
  · rw [untouched]
    have none : ¬ ∃ deleted ∈ contributions db threadId, deleted ∉ contributions db threadId := by
      rintro ⟨_, member, gone⟩
      exact gone member
    have initial := counted_summary_iff summary growing.started dates
    constructor
    · rintro ⟨thread, same, exact⟩
      cases here.symm.trans same
      exact .inr (initial.mp exact)
    · rintro (gone | condition)
      · exact absurd gone none
      · exact ⟨now, here, initial.mpr condition⟩
  · exact iff_of_true ⟨now, here, exact remains⟩ (.inl deleted)

/-! ## Three messages -/

def bySubject : Lookups :=
  { Sample.lookups with fetchCorrespondingThread := fun db _ => db.threads.head?.map Thread.id }

def mail (id receivedDate : Nat) (isDraft : Bool) (deletedAt : Option Nat) : Message :=
  { Sample.lookups.createFromSynced Sample.msg with id, receivedDate, isDraft, deletedAt }

def arrived (messages : List Message) : Db := { Sample.account with messages }

def attach (message : Message) (db : Db) : Db := Engine.imap.addMessageToThread bySubject message db

/-- A mail of day 3, a draft of day 5, and a mail of day 7 that is already marked. -/
def days : List Message := [mail 1 3 false none, mail 2 5 true none, mail 3 7 false (some 1)]

def threaded : Db := days.foldl (fun db message => attach message db) (arrived days)

def collected : Gc.State :=
  [.select 10, .look, .delete 20].foldl (Gc.State.turn bySubject) { db := threaded, collector := .idle }

theorem summary_of_days : (∃ thread, collected.db.thread? 1 = some thread ∧
    IsSummary thread (nonDrafts (contributions collected.db 1))) := by
  have created : Created bySubject 1 (mail 1 3 false none) (attach (mail 1 3 false none) (arrived days)) :=
    .attach .imap (by unfold UniqueIds; decide) (by decide) (by decide) (by unfold GoesTo; decide)
  have second : AttachStep bySubject 1 (attach (mail 1 3 false none) (arrived days))
      (attach (mail 2 5 true none) (attach (mail 1 3 false none) (arrived days))) :=
    .attach .imap (by decide) (by unfold GoesTo; decide)
  have third : AttachStep bySubject 1 _
      (attach (mail 3 7 false (some 1))
        (attach (mail 2 5 true none) (attach (mail 1 3 false none) (arrived days)))) :=
    .attach .imap (by decide) (by unfold GoesTo; decide)
  have attaching : Relation.ReflTransGen (AttachStep bySubject 1)
      (attach (mail 1 3 false none) (arrived days)) threaded := .tail (.single second) third
  have deleting : Relation.ReflTransGen (CheckStep bySubject) { db := threaded, collector := .idle } collected :=
    .tail (.tail (.single (.turn (.select 10) trivial)) (.turn .look trivial)) (.turn (.delete 20) trivial)
  refine (summary_iff created attaching (by decide +kernel) deleting (by decide +kernel)).mpr ?_
  exact .inr (.inl rfl)

/-- A draft of day 5 creates the thread, and the date of the only mail in it, of day 3, is not
its last date. -/
theorem draft_date_stays :
    ∃ first db, Created bySubject 1 (mail 1 5 true none) first ∧
      Relation.ReflTransGen (AttachStep bySubject 1) first db ∧
      nonDrafts (contributions db 1) = [(mail 2 3 false none).contribution] ∧
      ¬ ∃ thread, db.thread? 1 = some thread ∧ IsSummary thread (nonDrafts (contributions db 1)) := by
  let first := attach (mail 1 5 true none) (arrived [mail 1 5 true none, mail 2 3 false none])
  let db := attach (mail 2 3 false none) first
  have only : nonDrafts (contributions db 1) = [(mail 2 3 false none).contribution] := by decide
  refine ⟨first, db, .attach .imap (by unfold UniqueIds; decide) (by decide) (by decide)
    (by unfold GoesTo; decide), .single (.attach .imap (by decide) (by unfold GoesTo; decide)), only, ?_⟩
  rintro ⟨thread, found, summary⟩
  obtain ⟨last, member, _, recentdate, _⟩ := summary.newest
  have shown : (db.thread? 1).map Thread.recentdate = some 5 := by decide
  rw [only, List.mem_singleton] at member
  rw [found, Option.map_some, recentdate, member] at shown
  exact absurd shown (by decide)

end ThreadSummary
end SyncEngine
