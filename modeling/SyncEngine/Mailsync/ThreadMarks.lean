import SyncEngine.Mailsync.ThreadLoss

/-! Whether a thread that has just been given a message is marked as deleted. The mark is taken off
the thread that a message has had, not off the one that it is given. -/
namespace SyncEngine
open CreateMessage
namespace ThreadTransactions

def Unmarked (db : Db) (threadId : Nat) : Prop :=
  ∀ thread, db.thread? threadId = some thread → thread.deletedAt = none

/-- The threads of the transaction that has just committed are visible. -/
def State.Visible (s : State) : Prop := ∀ threadId ∈ s.attached, Unmarked s.db threadId

theorem unmarked_of_eq (same : later.thread? threadId = Db.thread? db threadId)
    (unmarked : Unmarked db threadId) : Unmarked later threadId := by
  intro thread found
  exact unmarked thread (same.symm.trans found)

/-- Changes of a thread that set no mark. -/
theorem Unmarked.updateThread (unmarked : Unmarked db threadId) (id : Nat) (change : Thread → Thread)
    (fixed : ∀ thread, (change thread).id = thread.id)
    (keeps : ∀ thread, thread.deletedAt = none → (change thread).deletedAt = none) :
    Unmarked (db.updateThread id change) threadId := by
  intro thread found
  rw [Db.thread?_updateThread fixed] at found
  split at found
  · obtain ⟨old, start, rfl⟩ := Option.map_eq_some_iff.mp found
    exact keeps old (unmarked old start)
  · exact unmarked thread found

namespace Write

/-- The thread of the write shows no mark, or the write takes it off. -/
def Clean (write : Write) (db : Db) : Prop :=
  match write.target with
  | .create thread => thread.deletedAt = none ∧ Unmarked db thread.id
  | .join threadId _ => Unmarked db threadId
  | .keep threadId undeletes => undeletes = false → Unmarked db threadId

theorem Clean.target {write : Write} (clean : write.Clean db) :
    Unmarked (write.apply db) write.target.threadId := by
  unfold Clean at clean
  intro thread found
  rw [thread?_apply, applyThread] at found
  cases target : write.target with
  | create created =>
    simp only [target, Target.threadId] at clean found
    rw [Db.thread?, Db.insertThread, List.find?_append] at found
    rcases Option.or_eq_some_iff.mp found with old | ⟨_, new⟩
    · exact clean.2 thread old
    · have same : thread = created := by simpa using (List.mem_of_find?_eq_some new)
      rw [same]
      exact clean.1
  | join threadId updates =>
    simp only [target, Target.threadId] at clean found
    exact clean.updateThread threadId _ (fun thread => updateFromMessage_id thread write.message)
      (fun thread unmarked => by simpa using unmarked) thread found
  | keep threadId undeletes =>
    simp only [target, Target.threadId] at clean found
    cases undeletes with
    | false => exact clean rfl thread found
    | true =>
      rw [if_pos rfl, Db.thread?_undelete, if_pos rfl] at found
      obtain ⟨old, _, rfl⟩ := Option.map_eq_some_iff.mp found
      rfl

theorem Clean.apply {write : Write} (clean : write.Clean db) (unmarked : Unmarked db threadId) :
    Unmarked (write.apply db) threadId := by
  by_cases same : threadId = write.target.threadId
  · rw [same]
    exact clean.target
  · refine unmarked_of_eq ?_ unmarked
    rw [thread?_apply, thread?_applyThread write db threadId same]

end Write

/-- A transaction whose writes are all clean marks no thread, and leaves all its own threads unmarked. -/
theorem clean_view (clean : ReadCommitted.Along Write.apply Write.Clean writes db)
    (unmarked : Unmarked db threadId ∨ ∃ write ∈ writes, write.target.threadId = threadId) :
    Unmarked (ReadCommitted.view Write.apply writes db) threadId := by
  induction writes generalizing db with
  | nil =>
    rcases unmarked with unmarked | ⟨_, member, _⟩
    · exact unmarked
    · cases member
  | cons write rest ih =>
    apply ih clean.2
    rcases unmarked with unmarked | ⟨other, member, rfl⟩
    · exact .inl (clean.1.apply unmarked)
    · rcases List.mem_cons.mp member with rfl | later
      · exact .inl clean.1.target
      · exact .inr ⟨other, later, rfl⟩

/-- An open transaction stays clean while nobody marks its threads. -/
theorem clean_transfer (clean : ReadCommitted.Along Write.apply Write.Clean writes db)
    (kept : ∀ write ∈ writes, Unmarked db write.target.threadId → Unmarked later write.target.threadId) :
    ReadCommitted.Along Write.apply Write.Clean writes later := by
  apply clean.transfer (r := fun db later => ∀ write ∈ writes,
    Unmarked db write.target.threadId → Unmarked later write.target.threadId) kept
  · intro write member data later kept clean
    have own := kept write member
    unfold Write.Clean at clean ⊢
    cases target : write.target with
    | create thread =>
      simp only [target, Target.threadId] at clean own ⊢
      exact ⟨clean.1, own clean.2⟩
    | join threadId updates =>
      simp only [target, Target.threadId] at clean own ⊢
      exact own clean
    | keep threadId undeletes =>
      simp only [target, Target.threadId] at clean own ⊢
      exact fun seen => own (clean seen)
  · intro write member data later kept clean other inside unmarked
    by_cases same : other.target.threadId = write.target.threadId
    · rw [same]
      exact clean.target
    · refine clean.apply (kept other inside (unmarked_of_eq ?_ unmarked))
      rw [Write.thread?_apply, thread?_applyThread write data _ same]

/-! ## The condition -/

/-- The threads that open transactions have given messages. -/
def State.targets (s : State) : List Nat := s.transactions.flatten.map fun write => write.target.threadId

/-- The thread that an engine chooses for a message is not marked, unless the message has it
already, and the collector does not mark it before the transaction commits. -/
def Turn.Careful (L : Lookups) (s : State) : Turn → Prop
  | .attach index engine message _ _ =>
    ∀ writes, s.transactions[index]? = some writes →
      let db := State.seen writes s.db
      let message := (db.message? message.id).getD { message with threadId := none }
      ∀ parent ∈ engine.parent? L message db, parent.deletedAt = none
  | .check (.delete _) =>
    match s.collector with
    | .checked messageId _ session =>
      ∀ message, s.db.message? messageId = some message →
        ∀ threadId, message.threadId = some threadId → threadId ∈ s.targets →
          (s.db.threadMessages threadId).filter (fun other => other.id ∉ messageId :: session.deleted) ≠ []
    | _ => True
  | .other later => ∀ threadId, Unmarked s.db threadId → Unmarked later threadId
  | _ => True

structure State.Tidy (s : State) : Prop where
  clean : ∀ writes ∈ s.transactions, ReadCommitted.Along Write.apply Write.Clean writes s.db
  below : ∀ threadId, (s.db.thread? threadId).isSome → threadId < s.nextThreadId
  created : ∀ writes ∈ s.transactions, ∀ write ∈ writes, ∀ threadId ∈ write.creates,
    threadId < s.nextThreadId
  visible : s.Visible

theorem view_isSome : ((ReadCommitted.view Write.apply writes db).thread? threadId).isSome ↔
    (db.thread? threadId).isSome ∨ ∃ write ∈ writes, threadId ∈ write.creates := by
  induction writes generalizing db with
  | nil => simp [ReadCommitted.view]
  | cons write rest ih =>
    refine (@ih (write.apply db)).trans ?_
    rw [Write.apply_isSome]
    simp [or_assoc]

theorem mem_targets {s : State} (member : writes ∈ s.transactions) (inside : write ∈ writes) :
    write.target.threadId ∈ s.targets :=
  List.mem_map_of_mem (List.mem_flatten.mpr ⟨writes, member, inside⟩)

namespace State
variable {s : State}

/-- A turn that touches no transaction, and marks no thread of an open one. -/
theorem Tidy.change (tidy : s.Tidy) (later : State) (transactions : later.transactions = s.transactions)
    (next : later.nextThreadId = s.nextThreadId) (attached : later.attached = [])
    (kept : ∀ threadId ∈ s.targets, Unmarked s.db threadId → Unmarked later.db threadId)
    (found : ∀ threadId, (later.db.thread? threadId).isSome → (s.db.thread? threadId).isSome) :
    later.Tidy where
  clean writes member := by
    rw [transactions] at member
    exact clean_transfer (tidy.clean writes member) fun write inside =>
      kept _ (mem_targets member inside)
  below threadId present := next ▸ tidy.below threadId (found threadId present)
  created writes member := by
    rw [transactions] at member
    rw [next]
    exact tidy.created writes member
  visible := by
    intro threadId member
    rw [attached] at member
    cases member

theorem Tidy.unchanged (tidy : s.Tidy) (later : State) (db : later.db = s.db)
    (transactions : later.transactions = s.transactions)
    (next : later.nextThreadId = s.nextThreadId) (attached : later.attached = []) : later.Tidy :=
  tidy.change later transactions next attached (fun _ _ unmarked => db ▸ unmarked) fun _ found => db ▸ found

end State

theorem attachWrite_clean (L : Lookups) (engine : Engine) (message : Message) (row : ImapUid)
    (updates : Bool) {nextThreadId : Nat} {db : Db}
    (unmarked : ∀ parent, engine.parent? L message db = some parent → parent.deletedAt = none)
    (fresh : db.thread? nextThreadId = none) :
    (attachWrite L engine message row updates nextThreadId db).Clean db := by
  unfold Write.Clean attachWrite
  cases chosen : engine.parent? L message db with
  | some parent =>
    intro thread found
    cases found.symm.trans (parent?_found L engine message chosen)
    exact unmarked parent chosen
  | none =>
    cases held : message.threadId.bind db.thread? with
    | none => exact ⟨rfl, fun thread found => by simp [fresh] at found⟩
    | some own =>
      intro seen thread found
      obtain ⟨id, _, inside⟩ := Option.bind_eq_some_iff.mp held
      rw [Db.thread?_id inside] at found
      cases found.symm.trans inside
      simpa using seen

theorem attachWrite_creates (L : Lookups) {engine : Engine} {row : ImapUid} {updates : Bool}
    (created : threadId ∈ (attachWrite L engine message row updates nextThreadId db).creates) :
    threadId = nextThreadId := by
  cases chosen : engine.parent? L message db with
  | some parent => simp [Write.creates, attachWrite, chosen] at created
  | none =>
    cases held : message.threadId.bind db.thread? with
    | some own => simp [Write.creates, attachWrite, chosen, held] at created
    | none => exact (by simpa [Write.creates, attachWrite, chosen, held] using created : _ = _).symm

/-- The mark that a turn of the collector sets. -/
theorem check_unmarked (L : Lookups) (s : Gc.State) (turn : Gc.Turn) (collector : turn.ByCollector)
    (unmarked : Unmarked s.db threadId)
    (left : ∀ now messageId remaining session message, turn = .delete now →
      s.collector = .checked messageId remaining session → s.db.message? messageId = some message →
      message.threadId = some threadId →
      (s.db.threadMessages threadId).filter (fun other => other.id ∉ messageId :: session.deleted) ≠ []) :
    Unmarked (s.turn L turn).db threadId := by
  obtain ⟨db, phase⟩ := s
  cases turn with
  | engine => exact collector.elim
  | fail => exact unmarked
  | select => cases phase <;> exact unmarked
  | look =>
    cases phase with
    | idle | checked => exact unmarked
    | scanning messageIds session =>
      cases messageIds with
      | nil => exact unmarked
      | cons messageId remaining =>
        simp only [Gc.State.turn]
        split <;> exact unmarked
  | finish =>
    cases phase with
    | idle | checked => exact unmarked
    | scanning messageIds session =>
      cases messageIds with
      | nil => exact unmarked_of_eq (Gc.thread?_commit session db threadId) unmarked
      | cons => exact unmarked
  | delete now =>
    cases phase with
    | idle | scanning => exact unmarked
    | checked messageId remaining session =>
      simp only [Gc.State.turn]
      split
      · exact unmarked
      · rename_i thread same
        obtain ⟨message, read, held⟩ := Option.bind_eq_some_iff.mp same
        obtain ⟨id, inside, chosen⟩ := Option.bind_eq_some_iff.mp held
        rw [Db.thread?_id chosen]
        split
        · exact unmarked
        · intro thread found
          rw [Db.thread?_updateThread (fun thread => Gc.refreshThread_id now _ thread), Gc.thread?_commit]
            at found
          split at found
          · rename_i own
            subst own
            obtain ⟨old, start, rfl⟩ := Option.map_eq_some_iff.mp found
            rw [Gc.refreshThread_deletedAt now old (left now messageId remaining session message rfl rfl
              read inside)]
            exact unmarked old start
          · exact unmarked thread found

theorem deleteMessages_thread? (ids : List Nat) (db : Db) (other : Nat) :
    (ids.foldl Db.deleteMessage db).thread? other = db.thread? other := by
  induction ids generalizing db with
  | nil => rfl
  | cons id _ ih => exact ih (db.deleteMessage id)

/-- A thread that is there after another was deleted has been there. -/
theorem deleteThread_thread? (s : State) (threadId : Nat) (loaded : List Nat)
    (found : (s.deleteThread threadId loaded).db.thread? other = some thread) :
    s.db.thread? other = some thread := by
  rw [State.deleteThread, thread?_deleteThread] at found
  split at found
  · cases found
  · exact deleteMessages_thread? loaded s.db other ▸ found

theorem deleteDraft_thread? (s : State) (removal : Removal)
    (found : (s.deleteDraft removal).db.thread? other = some thread) :
    s.db.thread? other = some thread := by
  unfold State.deleteDraft at found
  dsimp only at found
  split at found
  · have kept := deleteThread_thread? _ _ _ found
    exact kept
  · exact found

/-- Threads are deleted, and none is changed. -/
theorem State.Tidy.deletes {s : State} (tidy : s.Tidy) (later : State)
    (transactions : later.transactions = s.transactions)
    (next : later.nextThreadId = s.nextThreadId) (attached : later.attached = [])
    (kept : ∀ other thread, later.db.thread? other = some thread → s.db.thread? other = some thread) :
    later.Tidy := by
  refine tidy.change later transactions next attached (fun other _ unmarked thread found => ?_)
    fun other found => ?_
  · exact unmarked thread (kept other thread found)
  · obtain ⟨thread, present⟩ := Option.isSome_iff_exists.mp found
    exact Option.isSome_iff_exists.mpr ⟨thread, kept other thread present⟩

theorem State.Tidy.look (L : Lookups) {s : State} (tidy : s.Tidy) :
    (s.turn L .look).Tidy := by
  simp only [State.turn]
  split
  · rename_i emptyId remaining _
    split_ifs
    · exact tidy.unchanged _ rfl rfl rfl rfl
    · have shrinks := Shrinks.updateThread s.db emptyId (fun thread => { thread with deletedAt := none })
        fun _ => rfl
      refine tidy.change _ rfl rfl rfl (fun threadId _ unmarked => ?_) fun threadId found => ?_
      · exact unmarked.updateThread _ _ (fun _ => rfl) fun _ _ => rfl
      · exact (shrinks.threads threadId).symm.trans found
    · exact tidy.unchanged _ rfl rfl rfl rfl
  · exact tidy.unchanged _ rfl rfl rfl rfl

theorem State.Tidy.delete (L : Lookups) {s : State} (tidy : s.Tidy) :
    (s.turn L .delete).Tidy := by
  simp only [State.turn]
  split
  · rename_i threadId loaded remaining _
    exact tidy.deletes _ rfl rfl rfl fun other thread found =>
      deleteThread_thread? { s with attached := [] } threadId loaded found
  · exact tidy.unchanged _ rfl rfl rfl rfl

theorem State.Tidy.check (L : Lookups) {s : State} (tidy : s.Tidy) (turn : Gc.Turn)
    (possible : (Turn.check turn).Possible s) (careful : (Turn.check turn).Careful L s) :
    (s.turn L (.check turn)).Tidy := by
  have shrinks := Shrinks.check L ⟨s.db, s.collector⟩ turn possible
  refine tidy.change _ rfl rfl rfl (fun threadId member unmarked => ?_) fun threadId found => ?_
  · refine check_unmarked L ⟨s.db, s.collector⟩ turn possible unmarked ?_
    rintro now messageId remaining session message rfl phase read inside
    have guarded : match s.collector with
        | .checked messageId _ session =>
          ∀ message, s.db.message? messageId = some message →
            ∀ threadId, message.threadId = some threadId → threadId ∈ s.targets →
              (s.db.threadMessages threadId).filter
                (fun other => other.id ∉ messageId :: session.deleted) ≠ []
        | _ => True := careful
    rw [show s.collector = .checked messageId remaining session from phase] at guarded
    exact guarded message read threadId inside member
  · exact (shrinks.threads threadId).symm.trans found

theorem State.Tidy.deleteDraft (L : Lookups) {s : State} (tidy : s.Tidy) (index : Nat) :
    (s.turn L (.deleteDraft index)).Tidy := by
  simp only [State.turn]
  split
  · rename_i removal listed
    refine tidy.deletes _ ?_ ?_ ?_ fun other thread found =>
      deleteDraft_thread? { s with attached := [] } removal found
    all_goals
      unfold State.deleteDraft
      dsimp only
      split <;> rfl
  · exact tidy.unchanged _ rfl rfl rfl rfl

theorem State.Tidy.begin (L : Lookups) {s : State} (tidy : s.Tidy) :
    (s.turn L .begin).Tidy := by
  refine ⟨?_, tidy.below, ?_, fun _ member => absurd member List.not_mem_nil⟩
  · refine List.forall_mem_append.mpr ⟨tidy.clean, fun writes fresh => ?_⟩
    rw [List.mem_singleton.mp fresh]
    trivial
  · refine List.forall_mem_append.mpr ⟨tidy.created, fun writes fresh write member => ?_⟩
    rw [List.mem_singleton.mp fresh] at member
    cases member

theorem State.Tidy.attach (L : Lookups) {s : State} (tidy : s.Tidy)
    (careful : (Turn.attach index engine message row updates).Careful L s) :
    (s.turn L (.attach index engine message row updates)).Tidy := by
  simp only [State.turn]
  split
  · rename_i writes opened
    have member := List.mem_of_getElem? opened
    have fresh : (State.seen writes s.db).thread? s.nextThreadId = none := by
      apply Option.not_isSome_iff_eq_none.mp
      intro present
      rcases view_isSome.mp present with old | ⟨write, inside, created⟩
      · exact Nat.lt_irrefl _ (tidy.below s.nextThreadId old)
      · exact Nat.lt_irrefl _ (tidy.created writes member write inside s.nextThreadId created)
    refine ⟨fun others inside => ?_, fun threadId found => Nat.lt_succ_of_lt (tidy.below threadId found),
      fun others inside => ?_, fun _ member => absurd member List.not_mem_nil⟩
    · rcases List.mem_or_eq_of_mem_set inside with old | rfl
      · exact tidy.clean others old
      · exact ReadCommitted.along_append.mpr ⟨tidy.clean writes member,
          attachWrite_clean L engine _ row updates (careful writes opened) fresh⟩
    · intro write written threadId created
      rcases List.mem_or_eq_of_mem_set inside with old | rfl
      · exact Nat.lt_succ_of_lt (tidy.created others old write written threadId created)
      · rcases List.mem_append.mp written with earlier | last
        · exact Nat.lt_succ_of_lt (tidy.created writes member write earlier threadId created)
        · rw [List.mem_singleton.mp last] at created
          rw [attachWrite_creates L created]
          exact Nat.lt_succ_self s.nextThreadId
  · exact tidy.unchanged _ rfl rfl rfl rfl

theorem State.Tidy.commit (L : Lookups) {s : State} (tidy : s.Tidy) (index : Nat) :
    (s.turn L (.commit index)).Tidy := by
  simp only [State.turn]
  split
  · rename_i writes opened
    have member := List.mem_of_getElem? opened
    split
    · rename_i later committed
      obtain rfl := ReadCommitted.commit_eq_view committed
      have clean := tidy.clean writes member
      refine ⟨fun others inside => ?_, fun threadId found => ?_, fun others inside =>
        tidy.created others (List.mem_of_mem_eraseIdx inside), fun threadId given => ?_⟩
      · exact clean_transfer (tidy.clean others (List.mem_of_mem_eraseIdx inside)) fun write _ unmarked =>
          clean_view clean (.inl unmarked)
      · rcases view_isSome.mp found with old | ⟨write, inside, created⟩
        · exact tidy.below threadId old
        · exact tidy.created writes member write inside threadId created
      · exact clean_view clean (.inr (List.mem_map.mp given))
    · exact ⟨fun others inside => tidy.clean others (List.mem_of_mem_eraseIdx inside), tidy.below,
        fun others inside => tidy.created others (List.mem_of_mem_eraseIdx inside),
        fun _ member => absurd member List.not_mem_nil⟩
  · exact tidy.unchanged _ rfl rfl rfl rfl

theorem turn_tidy (L : Lookups) {s : State} (tidy : s.Tidy) (turn : Turn) (possible : turn.Possible s)
    (careful : turn.Careful L s) : (s.turn L turn).Tidy := by
  cases turn with
  | select before =>
    apply tidy.unchanged <;> simp only [State.turn] <;> split <;> rfl
  | look => exact tidy.look L
  | delete => exact tidy.delete L
  | failSweep => exact tidy.unchanged _ rfl rfl rfl rfl
  | check turn => exact tidy.check L turn possible careful
  | readDraft folderId uid => exact tidy.unchanged _ rfl rfl rfl rfl
  | deleteDraft index => exact tidy.deleteDraft L index
  | failDraft index => exact tidy.unchanged _ rfl rfl rfl rfl
  | begin => exact tidy.begin L
  | attach index engine message row updates => exact tidy.attach L careful
  | commit index => exact tidy.commit L index
  | fail index =>
    exact ⟨fun writes member => tidy.clean writes (List.mem_of_mem_eraseIdx member), tidy.below,
      fun writes member => tidy.created writes (List.mem_of_mem_eraseIdx member),
      fun _ member => absurd member List.not_mem_nil⟩
  | other later =>
    refine tidy.change _ rfl rfl rfl (fun threadId _ => careful threadId) fun threadId found => ?_
    exact (possible.threads threadId).symm.trans found

/-! ## Runs -/

inductive CarefulStep (L : Lookups) : State → State → Prop where
  | turn (turn : Turn) (possible : turn.Possible s) (careful : turn.Careful L s) :
      CarefulStep L s (s.turn L turn)

theorem run_tidy (below : ∀ thread ∈ db.threads, thread.id < nextThreadId)
    (run : Relation.ReflTransGen (CarefulStep L) (initial db nextThreadId) s) : s.Tidy := by
  induction run with
  | refl =>
    refine ⟨fun _ member => absurd member List.not_mem_nil, fun threadId found => ?_,
      fun _ member => absurd member List.not_mem_nil, fun _ member => absurd member List.not_mem_nil⟩
    obtain ⟨thread, present⟩ := Option.isSome_iff_exists.mp found
    exact Db.thread?_id present ▸ below thread (List.mem_of_find?_eq_some present)
  | tail _ step ih =>
    cases step with
    | turn turn possible careful => exact turn_tidy L ih turn possible careful

/-- In a run where an engine chooses no marked thread for a message, and the collector marks none
that an open transaction has chosen, no transaction leaves a message in a marked thread. -/
theorem chosen_threads_are_visible (below : ∀ thread ∈ db.threads, thread.id < nextThreadId)
    (run : Relation.ReflTransGen (CarefulStep L) (initial db nextThreadId) s) : s.Visible :=
  (run_tidy below run).visible

/-- The next message of a conversation whose only message is about to be deleted. -/
def answer : Turn :=
  .attach 0 (.gmail Sample.msg) { reply with id := 4 } (Common.newRow 1 4 Sample.msg) false

def converse (turns : List Turn) : State := turns.foldl (State.turn byThrid) (initial Gc.marked.db 3)

theorem prompt_answer_is_visible : (converse [.begin, answer, .commit 0]).Visible := by
  have steps : Relation.ReflTransGen (CarefulStep byThrid) (initial Gc.marked.db 3)
      (converse [.begin, answer, .commit 0]) := by
    refine .tail (.tail (.tail .refl (.turn .begin trivial trivial)) (.turn answer trivial ?_))
      (.turn (.commit 0) trivial trivial)
    rintro writes opened
    cases opened
    decide +kernel
  exact chosen_threads_are_visible (by decide) steps

/-- The answer comes after the collector has deleted the message and marked its thread. -/
theorem late_answer_is_hidden :
    ¬ (converse [.check (.select 100), .check .look, .check (.delete 200), .begin, answer,
      .commit 0]).Visible := by
  intro visible
  have unmarked := visible 2 (by decide +kernel)
  have marked : ((converse [.check (.select 100), .check .look, .check (.delete 200), .begin, answer,
      .commit 0]).db.thread? 2).bind Thread.deletedAt = some 200 := by decide +kernel
  obtain ⟨thread, found, mark⟩ := Option.bind_eq_some_iff.mp marked
  rw [unmarked thread found] at mark
  cases mark

end ThreadTransactions
end SyncEngine
