import SyncEngine.Mailsync.Imap.Attributes
import SyncEngine.Mailsync.Imap.Condstore

/-! Polling for new UIDs. Two marks say up to where UIDs have been looked at, the stored UIDNEXT and the
largest UID with a row, and both go on past a UID for which the server sent no message with a body. -/
namespace SyncEngine
namespace Imap
namespace Polling
open Cooperative Contract

/-! ## Calls, and what happens between their commands -/

/-- New messages get UIDs from UIDNEXT on, and what is gone stays away. -/
structure Grows (before after : Mailbox) : Prop where
  uidnext : before.uidnext ≤ after.uidnext
  exist : ∀ uid, after.Exists uid → before.Exists uid ∨ before.uidnext ≤ uid

namespace Grows
variable {a b c : Mailbox}

theorem refl (a : Mailbox) : Grows a a := ⟨Nat.le_refl _, fun _ => .inl⟩

theorem trans (first : Grows a b) (second : Grows b c) : Grows a c where
  uidnext := Nat.le_trans first.uidnext second.uidnext
  exist uid present := by
    rcases second.exist uid present with before | new
    · exact first.exist uid before
    · exact .inr (Nat.le_trans first.uidnext new)

theorem existed (grows : Grows a b) (given : uid < a.uidnext) (present : b.Exists uid) : a.Exists uid :=
  (grows.exist uid present).resolve_right (Nat.not_le_of_lt given)

end Grows

theorem exists_lt {mailbox : Mailbox} (present : mailbox.Exists uid) : uid < mailbox.uidnext :=
  List.mem_range.mp (List.mem_filter.mp (mem_allUids.mpr present)).1

/-- While the folder keeps its UIDVALIDITY, the server may do what it likes but give out UIDs again.
Rows go only with their messages. -/
structure Within (engine : FolderSyncEngine) (s t : World) : Prop where
  uidvalidity : t.server.uidvalidity = s.server.uidvalidity
  mailbox : Grows (mailboxOf s.server) (mailboxOf t.server)
  rows : ∀ uid ∈ Common.localUids t.store.db engine.folderId,
    uid ∈ Common.localUids s.store.db engine.folderId
  keeps : ∀ uid ∈ Common.localUids s.store.db engine.folderId, (mailboxOf s.server).Exists uid →
    (mailboxOf t.server).Exists uid → uid ∈ Common.localUids t.store.db engine.folderId
  stored : t.store.info.bind ImapFolderInfo.uidnext = s.store.info.bind ImapFolderInfo.uidnext
  copy : t.memory.uidnext = s.memory.uidnext
  attempts : t.trace.attempts = s.trace.attempts

theorem Within.refl {engine : FolderSyncEngine} (s : World) : Within engine s s :=
  ⟨rfl, .refl _, fun _ member => member, fun _ member _ _ => member, rfl, rfl, rfl⟩

theorem Within.trans {engine : FolderSyncEngine} {s t u : World} (first : Within engine s t)
    (second : Within engine t u) : Within engine s u where
  uidvalidity := second.uidvalidity.trans first.uidvalidity
  mailbox := first.mailbox.trans second.mailbox
  rows uid member := first.rows uid (second.rows uid member)
  keeps uid member before after := by
    have given := Nat.lt_of_lt_of_le (exists_lt before) first.mailbox.uidnext
    have present := second.mailbox.existed given after
    exact second.keeps uid (first.keeps uid member before present) present after
  stored := second.stored.trans first.stored
  copy := second.copy.trans first.copy
  attempts := second.attempts.trans first.attempts

/-- The folder may get a new, larger UIDVALIDITY at any time. -/
def Beside (engine : FolderSyncEngine) (s t : World) : Prop :=
  s.server.uidvalidity < t.server.uidvalidity ∨ Within engine s t

theorem Beside.refl {engine : FolderSyncEngine} (s : World) : Beside engine s s := .inr (.refl s)

theorem Beside.le {engine : FolderSyncEngine} {s t : World} (moved : Beside engine s t) :
    s.server.uidvalidity ≤ t.server.uidvalidity :=
  moved.elim Nat.le_of_lt fun within => Nat.le_of_eq within.uidvalidity.symm

theorem Beside.trans {engine : FolderSyncEngine} {s t u : World} (first : Beside engine s t)
    (second : Beside engine t u) : Beside engine s u := by
  rcases first with newer | within
  · exact .inl (Nat.lt_of_lt_of_le newer second.le)
  · rcases second with newer | later
    · exact .inl (within.uidvalidity ▸ newer)
    · exact .inr (within.trans later)

/-- One call of `get_new_uids` after the other, each of which may raise or be cut off. A new process
has no copies. -/
def plan (engine : FolderSyncEngine) : Plan World Command Exc Unit Unit where
  perform := World.perform engine
  admits _ _ := True
  signal _ := .none
  helper := .ret ()
  resume w _ t next := t = w ∧ next = getNewUids engine .generic .engine
  again _ := False
  env := Beside engine
  restart w t next :=
    (t = w ∨ t = { w with memory := Memory.fresh }) ∧ next = getNewUids engine .generic .engine

def Reaches (engine : FolderSyncEngine) (start : World) (crew : Crew World Command Exc Unit Unit) : Prop :=
  Relation.ReflTransGen (Crew.Step (plan engine)) ⟨start, getNewUids engine .generic .engine, none⟩ crew

/-! ## Marks -/
section Marks
variable (engine : FolderSyncEngine)

/-- UIDNEXT as it is stored, or as the engine has a copy of it. -/
def Recorded (w : World) (uidnext : Nat) : Prop :=
  w.store.info.bind ImapFolderInfo.uidnext = some uidnext ∨ w.memory.uidnext = some (some uidnext)

/-- One of the marks lies beyond the UID. -/
def Passed (w : World) (uid : Nat) : Prop :=
  uid ≤ Common.lastseenuid w.store.db engine.folderId ∨ ∃ uidnext, Recorded w uidnext ∧ uid < uidnext

/-- The UID has a row, or an attempt brought no message with a body for it. -/
def Settled (w : World) (uid : Nat) : Prop :=
  uid ∈ Common.localUids w.store.db engine.folderId ∨ (uid, false) ∈ w.trace.attempts

/-- What the marks have passed since `start` has been attempted. -/
structure Attempted (start w : World) : Prop where
  uidvalidity : w.server.uidvalidity = start.server.uidvalidity
  given : ∀ uid, ¬ Passed engine start uid → Passed engine w uid → uid < (mailboxOf w.server).uidnext
  settled : ∀ uid, ¬ Passed engine start uid → Passed engine w uid → (mailboxOf w.server).Exists uid →
    Settled engine w uid

/-- The UIDs below `bound` that are neither to come nor settled were passed at the start. -/
structure Ahead (start : World) (bound : Nat) (coming : List Nat) (w : World) : Prop where
  given : bound ≤ (mailboxOf w.server).uidnext
  settled : ∀ uid, ¬ Passed engine start uid → uid < bound → (mailboxOf w.server).Exists uid →
    uid ∈ coming ∨ Settled engine w uid

def polling (start : World) : Contract (World.perform engine) where
  inv := Attempted engine start
  admits _ _ := True
  rely := Within engine
  guar _ _ := True
  rely_refl := .refl
  rely_trans := .trans

/-- There has been a new UIDVALIDITY. -/
def Renewed (start w : World) : Prop := start.server.uidvalidity < w.server.uidvalidity

def pollingOn (start : World) : Contract (World.perform engine) where
  inv w := Renewed start w ∨ Attempted engine start w
  admits _ _ := True
  rely := Beside engine
  guar _ _ := True
  rely_refl := .refl
  rely_trans := .trans

end Marks

/-! ## What the commands do to the marks -/

theorem lastseenuid_le {db : Db} (bounded : ∀ uid ∈ Common.localUids db folderId, uid ≤ bound) :
    Common.lastseenuid db folderId ≤ bound := by
  unfold Common.lastseenuid
  generalize Common.localUids db folderId = uids at bounded
  induction uids with
  | nil => exact Nat.zero_le _
  | cons uid rest ih =>
    obtain ⟨first, others⟩ := List.forall_mem_cons.mp bounded
    exact Nat.max_le.mpr ⟨first, ih others⟩

section Steps
variable {engine : FolderSyncEngine} {start s t : World} {bound : Nat} {coming : List Nat}

theorem attempted_start (start : World) : Attempted engine start start :=
  ⟨rfl, fun _ fresh passed => absurd passed fresh, fun _ fresh passed => absurd passed fresh⟩

theorem settled_within (moved : Within engine s t) (given : uid < (mailboxOf s.server).uidnext)
    (present : (mailboxOf t.server).Exists uid) (settled : Settled engine s uid) : Settled engine t uid := by
  rcases settled with saved | fruitless
  · exact .inl (moved.keeps uid saved (moved.mailbox.existed given present) present)
  · refine .inr ?_
    rwa [moved.attempts]

theorem passed_within (moved : Within engine s t) (passed : Passed engine t uid) : Passed engine s uid := by
  rcases passed with row | ⟨uidnext, recorded, below⟩
  · refine .inl (Nat.le_trans row ?_)
    exact lastseenuid_le fun other member => Db.le_foldr_max (moved.rows other member)
  · refine .inr ⟨uidnext, ?_, below⟩
    rwa [Recorded, moved.stored, moved.copy] at recorded

theorem attempted_within (good : Attempted engine start s) (moved : Within engine s t) :
    Attempted engine start t where
  uidvalidity := moved.uidvalidity.trans good.uidvalidity
  given uid fresh passed :=
    Nat.lt_of_lt_of_le (good.given uid fresh (passed_within moved passed)) moved.mailbox.uidnext
  settled uid fresh passed present := by
    have before := passed_within moved passed
    have given := good.given uid fresh before
    exact settled_within moved given present
      (good.settled uid fresh before (moved.mailbox.existed given present))

theorem ahead_stable : (polling engine start).Stable (Ahead engine start bound coming) := by
  intro s t ahead moved _
  refine ⟨Nat.le_trans ahead.given moved.mailbox.uidnext, fun uid fresh below present => ?_⟩
  have given := Nat.lt_of_lt_of_le below ahead.given
  exact (ahead.settled uid fresh below (moved.mailbox.existed given present)).imp_right
    (settled_within moved given present)

/-- A command that takes nothing back and lets the marks pass no other UIDs than those below `bound`. -/
structure Passing (engine : FolderSyncEngine) (bound : Nat) (s t : World) : Prop where
  server : t.server = s.server
  passed : ∀ uid, Passed engine t uid → Passed engine s uid ∨ uid < bound
  settled : ∀ uid, Settled engine s uid → Settled engine t uid

theorem Passing.ahead (passing : Passing engine mark s t) (ahead : Ahead engine start bound coming s) :
    Ahead engine start bound coming t where
  given := by
    rw [passing.server]
    exact ahead.given
  settled uid fresh below present := by
    rw [passing.server] at present
    exact (ahead.settled uid fresh below present).imp_right (passing.settled uid)

theorem Passing.attempted (passing : Passing engine bound s t) (good : Attempted engine start s)
    (ahead : Ahead engine start bound [] t) : Attempted engine start t where
  uidvalidity := by
    rw [passing.server]
    exact good.uidvalidity
  given uid fresh passed := by
    rcases passing.passed uid passed with before | below
    · rw [passing.server]
      exact good.given uid fresh before
    · exact Nat.lt_of_lt_of_le below ahead.given
  settled uid fresh passed present := by
    rcases passing.passed uid passed with before | below
    · rw [passing.server] at present
      exact passing.settled uid (good.settled uid fresh before present)
    · exact (ahead.settled uid fresh below present).resolve_left List.not_mem_nil

theorem ahead_zero : Ahead engine start 0 [] t :=
  ⟨Nat.zero_le _, fun _ _ below => absurd below (Nat.not_lt_zero _)⟩

theorem passing_load (column : Column) : Passing engine 0 s (World.perform engine (.load column) s) := by
  refine ⟨World.perform_server .., fun uid passed => ?_, fun uid settled => ?_⟩
  · unfold World.perform at passed
    dsimp only at passed
    split at passed
    · rename_i info _ found
      left
      rcases passed with row | ⟨mark, stored | copied, below⟩
      · exact .inl row
      · exact .inr ⟨mark, .inl stored, below⟩
      · cases column with
        | uidnext =>
          refine .inr ⟨mark, .inl ?_, below⟩
          rw [found]
          exact Option.some.inj copied
        | _ => exact .inr ⟨mark, .inr copied, below⟩
    · exact .inl passed
  · unfold World.perform
    dsimp only
    split <;> exact settled

theorem passing_fetch (greenlet : Greenlet) (session : Session) (uid : Nat) :
    Passing engine 0 s (World.perform engine (.fetch greenlet session uid) s) := by
  refine ⟨World.perform_server .., fun other passed => ?_, fun other settled => ?_⟩
  · unfold World.perform at passed
    dsimp only at passed
    split at passed <;> exact .inl passed
  · unfold World.perform
    dsimp only
    split
    · exact settled
    · exact settled.imp_right fun fruitless => List.mem_append_left _ fruitless

/-- What the fetch of one UID has brought. -/
structure Fetched (uid : Nat) (messages : List RawMessage) (w : World) : Prop where
  named : ∀ msg ∈ messages, msg.uid = uid
  tried : (∃ msg ∈ messages, msg.body.isSome) ∨ (uid, false) ∈ w.trace.attempts

theorem fetched_fetch {session : Session} (calm : s.server.fault = none)
    (delivered : s.server.deliver session uid = .ok messages) (greenlet : Greenlet) :
    Fetched uid messages (World.perform engine (.fetch greenlet session uid) s) := by
  refine ⟨fun msg member => (mem_deliver delivered member).1, ?_⟩
  simp only [World.perform, calm, delivered, World.attempted]
  by_cases whole : ∃ msg ∈ messages, msg.body.isSome
  · exact .inl whole
  · refine .inr (List.mem_append_right _ ?_)
    rw [List.any_eq_false.mpr fun msg member body => whole ⟨msg, member, body⟩]
    exact List.mem_singleton_self _

theorem save_refused (greenlet : Greenlet) (messages : List RawMessage)
    (refused : s.store.fault = some .refused) :
    (World.perform engine (.save greenlet messages) s).store = s.store := by
  simp only [World.perform, World.commit, refused]

theorem save_committed (greenlet : Greenlet) (messages : List RawMessage)
    (accepted : s.store.fault ≠ some .refused) :
    (World.perform engine (.save greenlet messages) s).store = { s.store with
      db := CreateMessage.commitMessages engine.lookups s.now engine.folderId engine.folderRole messages
        s.store.db } := by
  unfold World.perform World.commit
  dsimp only
  split
  · exact absurd ‹_› accepted
  · rfl

/-- The rows of a transaction that saves what one fetch has brought. -/
theorem save_uids {messages : List RawMessage} (named : ∀ msg ∈ messages, msg.uid = uid)
    (member : other ∈ Common.localUids (World.perform engine (.save greenlet messages) s).store.db
      engine.folderId) : other ∈ Common.localUids s.store.db engine.folderId ∨ other = uid := by
  obtain ⟨added, rows, origins, _⟩ := commitMessages_rows engine.lookups s.now engine.folderId
    engine.folderRole messages s.store.db
  by_cases fault : s.store.fault = some .refused
  · rw [save_refused greenlet messages fault] at member
    exact .inl member
  · rw [save_committed greenlet messages fault] at member
    obtain ⟨row, among, same⟩ := mem_localUids.mp member
    rw [rows] at among
    rcases List.mem_append.mp among with old | new
    · exact .inl (mem_localUids.mpr ⟨row, old, same⟩)
    · obtain ⟨_, msg, brought, messageId, rfl⟩ := origins row new
      rw [flaggedRow_msgUid] at same
      exact .inr (same.symm.trans (named msg brought))

theorem settled_save (greenlet : Greenlet) (messages : List RawMessage) (settled : Settled engine s other) :
    Settled engine (World.perform engine (.save greenlet messages) s) other := by
  obtain ⟨added, rows, _⟩ := commitMessages_rows engine.lookups s.now engine.folderId
    engine.folderRole messages s.store.db
  refine settled.imp (fun saved => ?_) fun fruitless => ?_
  · by_cases fault : s.store.fault = some .refused
    · rwa [save_refused greenlet messages fault]
    · obtain ⟨row, member, same⟩ := mem_localUids.mp saved
      rw [save_committed greenlet messages fault]
      refine mem_localUids.mpr ⟨row, ?_, same⟩
      rw [rows]
      exact List.mem_append_left _ member
  · simpa only [World.perform, World.commit_trace] using fruitless

/-- A transaction that is not refused settles the UID. -/
theorem settled_of_save {messages : List RawMessage} (fetched : Fetched uid messages s)
    (greenlet : Greenlet) (accepted : s.store.fault ≠ some .refused) :
    Settled engine (World.perform engine (.save greenlet messages) s) uid := by
  rcases fetched.tried with ⟨msg, member, body⟩ | fruitless
  · obtain ⟨_, _, _, saves⟩ := commitMessages_rows engine.lookups s.now engine.folderId
      engine.folderRole messages s.store.db
    refine .inl ?_
    rw [save_committed greenlet messages accepted, ← fetched.named msg member]
    exact saves msg member body
  · exact settled_save greenlet messages (.inr fruitless)

/-- The UIDs to come in the order in which they are fetched. -/
structure Coming (engine : FolderSyncEngine) (start : World) (bound : Nat) (coming : List Nat) (w : World) :
    Prop extends Ahead engine start bound coming w where
  sorted : coming.Pairwise (· ≤ ·)
  below : ∀ uid ∈ coming, uid < bound

theorem recorded_save (greenlet : Greenlet) (messages : List RawMessage)
    (recorded : Recorded (World.perform engine (.save greenlet messages) s) mark) :
    Recorded s mark := by
  rcases recorded with stored | copied
  · left
    by_cases fault : s.store.fault = some .refused
    · rwa [save_refused greenlet messages fault] at stored
    · rwa [save_committed greenlet messages fault] at stored
  · right
    simpa only [World.perform, World.commit_memory] using copied

/-- The largest UID with a row may become the one that is saved. -/
theorem passed_save {messages : List RawMessage} (named : ∀ msg ∈ messages, msg.uid = uid)
    (passed : Passed engine (World.perform engine (.save greenlet messages) s) other) :
    Passed engine s other ∨ other ≤ uid := by
  rcases passed with row | ⟨uidnext, recorded, below⟩
  · have largest : Common.lastseenuid (World.perform engine (.save greenlet messages) s).store.db
        engine.folderId ≤ max (Common.lastseenuid s.store.db engine.folderId) uid := by
      refine lastseenuid_le fun held member => ?_
      rcases save_uids named member with old | rfl
      · exact Nat.le_trans (Db.le_foldr_max old) (Nat.le_max_left _ _)
      · exact Nat.le_max_right _ _
    rcases le_max_iff.mp (Nat.le_trans row largest) with old | new
    · exact .inl (.inl old)
    · exact .inr new
  · exact .inl (.inr ⟨uidnext, recorded_save greenlet messages recorded, below⟩)

theorem passing_save {messages : List RawMessage} (named : ∀ msg ∈ messages, msg.uid = uid)
    (greenlet : Greenlet) :
    Passing engine (uid + 1) s (World.perform engine (.save greenlet messages) s) where
  server := World.perform_server ..
  passed _ passed := (passed_save named passed).imp_right Nat.lt_succ_of_le
  settled _ := settled_save greenlet messages

theorem passing_refused {messages : List RawMessage} (refused : s.store.fault = some .refused)
    (greenlet : Greenlet) :
    Passing engine 0 s (World.perform engine (.save greenlet messages) s) where
  server := World.perform_server ..
  passed other passed := by
    left
    rcases passed with row | ⟨mark, recorded, below⟩
    · rw [save_refused greenlet messages refused] at row
      exact .inl row
    · exact .inr ⟨mark, recorded_save greenlet messages recorded, below⟩
  settled _ := settled_save greenlet messages

theorem Coming.next (coming : Coming engine start bound (uid :: uids) s) (settled : Settled engine s uid) :
    Coming engine start bound uids s where
  given := coming.given
  settled other fresh below present := by
    rcases coming.settled other fresh below present with member | done
    · rcases List.mem_cons.mp member with rfl | later
      · exact .inr settled
      · exact .inl later
    · exact .inr done
  sorted := coming.sorted.of_cons
  below other member := coming.below other (List.mem_cons_of_mem _ member)

/-- Up to the UID that has been fetched nothing is to come. -/
theorem Coming.upTo (coming : Coming engine start bound (uid :: uids) s) (settled : Settled engine s uid) :
    Ahead engine start (uid + 1) [] s where
  given := Nat.le_trans (coming.below uid List.mem_cons_self) coming.given
  settled other fresh below present := by
    have within := Nat.lt_of_lt_of_le below (coming.below uid List.mem_cons_self)
    rcases coming.settled other fresh within present with member | done
    · rcases List.mem_cons.mp member with rfl | later
      · exact .inr settled
      · have least := List.rel_of_pairwise_cons coming.sorted later
        rw [Nat.le_antisymm (Nat.le_of_lt_succ below) least]
        exact .inr settled
    · exact .inr done

theorem Passing.keeps (passing : Passing engine mark s t)
    (coming : Coming engine start bound uids s) : Coming engine start bound uids t where
  toAhead := passing.ahead coming.toAhead
  sorted := coming.sorted
  below := coming.below

theorem attempted_save {messages : List RawMessage} (good : Attempted engine start s)
    (coming : Coming engine start bound (uid :: uids) s) (fetched : Fetched uid messages s)
    (greenlet : Greenlet) :
    Attempted engine start (World.perform engine (.save greenlet messages) s) := by
  by_cases refused : s.store.fault = some .refused
  · exact (passing_refused refused greenlet).attempted good ahead_zero
  · have passing : Passing engine _ s (World.perform engine (.save greenlet messages) s) :=
      passing_save fetched.named greenlet
    have settled : Settled engine (World.perform engine (.save greenlet messages) s) uid :=
      settled_of_save fetched greenlet refused
    exact passing.attempted good ((passing.keeps coming).upTo settled)

theorem write_db {write : Write} :
    (World.perform engine (.write write) s).store.db = s.store.db := by
  rcases s.commit_cases (fun store => { store with info := store.info.map fun info => info.write write })
    with refused | committed
  · simp only [World.perform, refused]
  · simp only [World.perform, committed]

theorem write_attempts {write : Write} :
    (World.perform engine (.write write) s).trace.attempts = s.trace.attempts := by
  simp [World.perform]

/-- The setter makes both halves say that the UIDs below the mark have been looked at. -/
theorem passing_write {value : Option Nat} (below : ∀ mark ∈ value, mark ≤ bound) :
    Passing engine bound s (World.perform engine (.write (.uidnext value)) s) where
  server := World.perform_server ..
  passed uid passed := by
    rcases passed with row | ⟨mark, stored | copied, small⟩
    · rw [write_db] at row
      exact .inl (.inl row)
    · by_cases refused : s.store.fault = some .refused
      · rw [write_refused refused] at stored
        exact .inl (.inr ⟨mark, .inl stored, small⟩)
      · rw [write_info refused] at stored
        obtain ⟨_, written, same⟩ := Option.bind_eq_some_iff.mp stored
        obtain ⟨info, _, rfl⟩ := Option.map_eq_some_iff.mp written
        exact .inr (Nat.lt_of_lt_of_le small (below mark same))
    · rw [write_memory] at copied
      exact .inl (.inr ⟨mark, .inr copied, small⟩)
  settled uid settled := by
    rw [Settled, write_db, write_attempts]
    exact settled

theorem passing_cache {value : Option Nat} (below : ∀ mark ∈ value, mark ≤ bound) :
    Passing engine bound s (World.perform engine (.cache (.uidnext value)) s) where
  server := World.perform_server ..
  passed uid passed := by
    rcases passed with row | ⟨mark, stored | copied, small⟩
    · exact .inl (.inl row)
    · exact .inl (.inr ⟨mark, .inl stored, small⟩)
    · exact .inr (Nat.lt_of_lt_of_le small (below mark (Option.some.inj copied)))
  settled _ settled := settled

end Steps

/-! ## One call -/
section Calls
variable {engine : FolderSyncEngine} {start : World} {bound given uid : Nat} {uids : List Nat}
  {session : Session} {remote : Option Nat}

theorem asks_polling {P : World → Prop} : Asks (polling engine start) P := fun _ _ _ => trivial

theorem coming_stable : (polling engine start).Stable (Coming engine start bound uids) :=
  fun s t coming moved good => ⟨ahead_stable s t coming.toAhead moved good, coming.sorted, coming.below⟩

theorem fetched_stable (messages : List RawMessage) :
    (polling engine start).Stable (Fetched uid messages) := by
  intro s t fetched moved _
  refine ⟨fetched.named, fetched.tried.imp_right fun fruitless => ?_⟩
  rwa [moved.attempts]

theorem spec_fetch : (polling engine start).Spec (Coming engine start bound (uid :: uids))
    (fetchUids .engine session [uid])
    (fun messages w => Coming engine start bound (uid :: uids) w ∧ Fetched uid messages w)
    (fun _ _ => True) := by
  have stable : ∀ messages, (polling engine start).Stable fun w =>
      Coming engine start bound (uid :: uids) w ∧ Fetched uid messages w :=
    fun messages => stable_and coming_stable (fetched_stable messages)
  refine spec_bind (spec_issue coming_stable stable (fun _ => stable_true) fun t good coming _ => ?_)
    fun messages => spec_ret (stable _) fun _ _ held => by rwa [List.append_nil]
  have passing : Passing engine 0 t _ := passing_fetch .engine session uid
  refine ⟨passing.attempted good ahead_zero, trivial, ?_⟩
  cases fault : t.server.fault with
  | some => trivial
  | none =>
    cases delivery : t.server.deliver session uid with
    | error => simp only [Except.mapError, delivery]
    | ok messages =>
      have brought : Fetched uid messages (World.perform engine _ t) := fetched_fetch fault delivery .engine
      simpa only [Except.mapError, delivery] using And.intro (passing.keeps coming) brought

theorem spec_download : (polling engine start).Spec (Coming engine start bound (uid :: uids))
    (download engine .generic .engine session [uid]) (fun _ => Coming engine start bound uids)
    (fun _ _ => True) := by
  refine spec_downloadAndCommitUids
    (fun messages w => Coming engine start bound (uid :: uids) w ∧ Fetched uid messages w) spec_fetch ?_ ?_
  · refine spec_ret (stable_and coming_stable (fetched_stable _)) fun s _ held => held.1.next ?_
    rcases held.2.tried with ⟨msg, member, _⟩ | fruitless
    · cases member
    · exact .inr fruitless
  · intro messages
    refine spec_transact (stable_and coming_stable (fetched_stable _)) (fun _ => coming_stable) stable_true
      fun t good held _ => ?_
    refine ⟨attempted_save good held.1 held.2 .engine, trivial, trivial, fun _ calm _ => ?_⟩
    have accepted : t.store.fault ≠ some .refused := by simp [calm]
    exact ((passing_save held.2.named .engine).keeps held.1).next (settled_of_save held.2 .engine accepted)

/-- What the answer to STATUS says. -/
def Asked (given : Nat) (remote : Option Nat) (w : World) : Prop :=
  given ≤ (mailboxOf w.server).uidnext ∧
    ∀ mark ∈ remote, given ≤ mark ∧ mark ≤ (mailboxOf w.server).uidnext

theorem asked_stable (remote : Option Nat) : (polling engine start).Stable (Asked given remote) :=
  fun _ _ asked moved _ => ⟨Nat.le_trans asked.1 moved.mailbox.uidnext, fun mark member =>
    ⟨(asked.2 mark member).1, Nat.le_trans (asked.2 mark member).2 moved.mailbox.uidnext⟩⟩

theorem recorded_stable (mark : Nat) : (polling engine start).Stable (fun w => Recorded w mark) := by
  intro s t recorded moved _
  rwa [Recorded, moved.stored, moved.copy]

/-- What the getter of UIDNEXT returns is recorded. -/
theorem spec_uidnext (remote : Option Nat) : (polling engine start).Spec (Asked given remote) uidnext
    (fun saved w => Asked given remote w ∧ ∀ mark ∈ saved, Recorded w mark) (fun _ _ => True) := by
  have stable : ∀ saved : Option Nat, (polling engine start).Stable
      (fun w => Asked given remote w ∧ ∀ mark ∈ saved, Recorded w mark) := fun saved =>
    stable_and (asked_stable remote) fun s t recorded moved good mark member =>
      recorded_stable mark s t (recorded mark member) moved good
  refine spec_load (asked_stable remote) stable stable_true asks_polling ?_ ?_
  · intro t saved _ asked copied
    refine ⟨asked, fun mark member => .inr ?_⟩
    rw [copied, show saved = some mark from member]
  · intro t good asked _
    have passing : Passing engine 0 t _ := passing_load .uidnext
    refine ⟨passing.attempted good ahead_zero, trivial, trivial, fun info calm found => ?_⟩
    refine ⟨?_, fun mark member => .inl ?_⟩
    · rw [Asked, passing.server]
      exact asked
    · simp only [World.perform, calm, found]
      exact member

/-- The UIDs up to the largest one with a row have been looked at. -/
def LookedUpTo (engine : FolderSyncEngine) (start : World) (lastseen : Nat) (w : World) : Prop :=
  ∀ uid, ¬ Passed engine start uid → uid ≤ lastseen → uid < (mailboxOf w.server).uidnext ∧
    ((mailboxOf w.server).Exists uid → Settled engine w uid)

theorem lookedUpTo_stable (lastseen : Nat) :
    (polling engine start).Stable (LookedUpTo engine start lastseen) := by
  intro s t looked moved _ uid fresh upTo
  obtain ⟨given, settled⟩ := looked uid fresh upTo
  exact ⟨Nat.lt_of_lt_of_le given moved.mailbox.uidnext, fun present =>
    settled_within moved given present (settled (moved.mailbox.existed given present))⟩

/-- The session is one of the UIDVALIDITY that the folder has had all along. -/
def Selected (start : World) (given : Nat) (remote : Option Nat) (session : Session) (w : World) : Prop :=
  Asked given remote w ∧ session.uidvalidity = start.server.uidvalidity

theorem selected_stable (session : Session) :
    (polling engine start).Stable (Selected start given remote session) :=
  stable_and (asked_stable remote) fun _ _ same _ _ => same

theorem spec_selects : (polling engine start).Spec (Asked given remote) (selectFolder uidvalidityCb)
    (Selected start given remote) (fun _ _ => True) := by
  refine spec_selectFolder (Selected start given remote) (asked_stable remote) selected_stable
    selected_stable (fun _ _ _ _ => trivial) asks_polling (fun t good asked => ⟨asked, good.uidvalidity⟩)
    fun session => ?_
  refine spec_uidvalidityCb (fun _ => Selected start given remote session) (fun _ => selected_stable session)
    (spec_load (selected_stable session) (fun _ => selected_stable session) stable_true asks_polling
      (fun _ _ _ held _ => held) ?_) (fun _ _ _ held _ => held) (fun _ _ _ _ _ => trivial)
  intro t good held _
  have passing : Passing engine 0 t _ := passing_load .uidvalidity
  refine ⟨passing.attempted good ahead_zero, trivial, trivial, fun _ _ _ => ⟨?_, held.2⟩⟩
  rw [Asked, passing.server]
  exact held.1

theorem spec_lastseenuid : (polling engine start).Spec (Selected start given remote session)
    (lastseenuid engine)
    (fun lastseen w => Selected start given remote session w ∧ LookedUpTo engine start lastseen w)
    (fun _ _ => True) := by
  refine spec_query (selected_stable session)
    (fun lastseen => stable_and (selected_stable session) (lookedUpTo_stable lastseen)) stable_true
    asks_polling (fun _ _ => trivial) fun t good held _ => ⟨held, fun uid fresh upTo => ?_⟩
  exact ⟨good.given uid fresh (.inl upTo), good.settled uid fresh (.inl upTo)⟩

/-- What the search lists, in the order in which it is fetched. -/
def Listed (engine : FolderSyncEngine) (start : World) (given : Nat) (remote : Option Nat)
    (uids : List Nat) (w : World) : Prop :=
  ∃ bound, given ≤ bound ∧ (∀ mark ∈ remote, mark ≤ bound) ∧ Coming engine start bound uids w

theorem listed_stable : (polling engine start).Stable (Listed engine start given remote uids) := by
  rintro s t ⟨bound, early, marks, coming⟩ moved good
  exact ⟨bound, early, marks, coming_stable s t coming moved good⟩

/-- Whatever there is beyond the largest UID with a row is listed. -/
theorem listed_search {s : World} (good : Attempted engine start s)
    (selected : Selected start given remote session s) (looked : LookedUpTo engine start lastseen s) :
    Listed engine start given remote ((((s.server.folder session).uidsFrom (lastseen + 1)).filter
      (· ≠ lastseen)).insertionSort (· ≤ ·)) s := by
  obtain ⟨asked, same⟩ := selected
  have folder : s.server.folder session = mailboxOf s.server := by
    rw [Server.folder, mailboxOf, same, good.uidvalidity]
  rw [folder]
  refine ⟨(mailboxOf s.server).uidnext, asked.1, fun mark member => (asked.2 mark member).2,
    ⟨Nat.le_refl _, fun uid fresh below present => ?_⟩, ?_, fun uid member => ?_⟩
  · by_cases upTo : uid ≤ lastseen
    · exact .inr ((looked uid fresh upTo).2 present)
    · left
      have beyond := Nat.lt_of_not_le upTo
      refine (List.mem_insertionSort _).mpr (List.mem_filter.mpr ⟨?_, by simpa using Nat.ne_of_gt beyond⟩)
      refine List.mem_filter.mpr ⟨mem_allUids.mpr present, ?_⟩
      exact decide_eq_true (Nat.le_trans (Nat.min_le_left _ _) beyond)
  · have : Std.Total fun a b : Nat => a ≤ b := ⟨Nat.le_total⟩
    have : IsTrans Nat fun a b => a ≤ b := ⟨fun _ _ _ => Nat.le_trans⟩
    exact List.pairwise_insertionSort _ _
  · have found := (List.mem_filter.mp ((List.mem_insertionSort _).mp member)).1
    exact exists_lt (mem_allUids.mp (List.mem_filter.mp found).1)

theorem spec_search (lastseen : Nat) : (polling engine start).Spec
    (fun w => Selected start given remote session w ∧ LookedUpTo engine start lastseen w)
    (imap fun server => (server.folder session).uidsFrom (lastseen + 1))
    (fun latestUids => Listed engine start given remote
      ((latestUids.filter (· ≠ lastseen)).insertionSort (· ≤ ·))) (fun _ _ => True) :=
  spec_imap (stable_and (selected_stable session) (lookedUpTo_stable lastseen)) (fun _ => listed_stable)
    stable_true asks_polling (fun _ _ => trivial) fun _ good held => listed_search good held.1 held.2

theorem spec_downloads (uids : List Nat) : (polling engine start).Spec
    (Listed engine start given remote uids)
    (.each uids fun uid => download engine .generic .engine session [uid])
    (fun _ => Listed engine start given remote []) (fun _ _ => True) := by
  refine spec_each (fun uids => Listed engine start given remote uids) listed_stable ?_
  rintro uid rest s good ⟨bound, early, marks, coming⟩
  exact wp_mono (spec_download s good coming) (fun _ _ _ later => ⟨bound, early, marks, later⟩)
    fun _ _ _ _ => trivial

theorem Ahead.weaken {w : World} (ahead : Ahead engine start bound uids w) (early : given ≤ bound) :
    Ahead engine start given uids w :=
  ⟨Nat.le_trans early ahead.given, fun uid fresh below => ahead.settled uid fresh (Nat.lt_of_lt_of_le below early)⟩

/-- Nothing below the new mark is still to come when it is set. -/
theorem spec_setUidnext : (polling engine start).Spec (Listed engine start given remote [])
    (setAttribute (.uidnext remote)) (fun _ => Ahead engine start given []) (fun _ _ => True) := by
  have step : ∀ {s t : World}, (∀ bound, (∀ mark ∈ remote, mark ≤ bound) → Passing engine bound s t) →
      Attempted engine start s → Listed engine start given remote [] s →
      Attempted engine start t ∧ Listed engine start given remote [] t := by
    rintro s t passes good ⟨bound, early, marks, coming⟩
    have passing := passes bound marks
    have later := passing.keeps coming
    exact ⟨passing.attempted good later.toAhead, bound, early, marks, later⟩
  have writes : (polling engine start).Spec (Listed engine start given remote [])
      (updateImapFolderInfo (.uidnext remote)) (fun _ => Listed engine start given remote [])
      (fun _ _ => True) := by
    refine spec_transact listed_stable (fun _ => listed_stable) stable_true fun t good listed _ => ?_
    obtain ⟨kept, still⟩ := step (fun _ => passing_write) good listed
    exact ⟨kept, trivial, trivial, fun _ _ _ => still⟩
  have caches : (polling engine start).Spec (Listed engine start given remote [])
      (local_ (.cache (.uidnext remote))) (fun _ => Listed engine start given remote [])
      (fun _ _ => True) := by
    refine spec_issue listed_stable (fun _ => listed_stable) (fun _ => stable_true) fun t good listed _ => ?_
    obtain ⟨kept, still⟩ := step (fun _ => passing_cache) good listed
    exact ⟨kept, trivial, still⟩
  refine spec_mono (spec_bind writes fun _ => caches) (fun _ _ held => held) (fun _ s _ listed => ?_)
    fun _ _ _ _ => trivial
  obtain ⟨bound, early, _, coming⟩ := listed
  exact coming.toAhead.weaken early

/-- A call that returns leaves nothing unattempted that had a UID when it began. -/
theorem spec_getNewUids : (polling engine start).Spec
    (fun w => given ≤ (mailboxOf w.server).uidnext) (getNewUids engine .generic .engine)
    (fun _ => Ahead engine start given []) (fun _ _ => True) := by
  have grown : (polling engine start).Stable (fun w => given ≤ (mailboxOf w.server).uidnext) :=
    fun _ _ early moved _ => Nat.le_trans early moved.mailbox.uidnext
  have asks : (polling engine start).Spec (fun w => given ≤ (mailboxOf w.server).uidnext)
      (imap fun server => if server.statusUidnext then some (server.mailbox server.uidvalidity).uidnext
        else none) (Asked given) (fun _ _ => True) := by
    refine spec_imap grown asked_stable stable_true asks_polling (fun _ _ => trivial) fun t _ early =>
      ⟨early, fun mark member => ?_⟩
    split at member
    · cases member
      exact ⟨early, Nat.le_refl _⟩
    · cases member
  refine spec_bind asks fun remote => spec_bind (spec_uidnext remote) fun saved => ?_
  have recorded : (polling engine start).Stable
      (fun w => Asked given remote w ∧ ∀ mark ∈ saved, Recorded w mark) :=
    stable_and (asked_stable remote) fun s t recorded moved good mark member =>
      recorded_stable mark s t (recorded mark member) moved good
  split
  · rename_i unchanged
    obtain ⟨known, same⟩ := unchanged
    obtain ⟨mark, reported⟩ := Option.ne_none_iff_exists'.mp known
    -- the mark that is recorded is UIDNEXT
    refine spec_ret recorded fun s good held => ⟨held.1.1, fun uid fresh below present => .inr ?_⟩
    refine good.settled uid fresh (.inr ⟨mark, held.2 mark (same ▸ reported), ?_⟩) present
    exact Nat.lt_of_lt_of_le below (held.1.2 mark reported).1
  · exact spec_mono (spec_bind spec_selects fun session => spec_bind spec_lastseenuid fun lastseen =>
      spec_bind (spec_search lastseen) fun latestUids => spec_bind (spec_downloads _)
        fun _ => spec_setUidnext) (fun _ _ held => held.1) (fun _ _ _ held => held) fun _ _ _ held => held

end Calls

/-! ## Calls that return -/

/-- The server and the database answer, and the folder keeps the UIDVALIDITY that is stored. -/
structure Answers (epoch : Nat) (w : World) : Prop where
  server : w.server.fault = none
  delivers : ∀ uid fault, w.server.delivery uid ≠ .fails fault
  store : w.store.fault = none
  current : w.server.uidvalidity = epoch
  stored : ∃ info, w.store.info = some info ∧ epoch ≤ info.uidvalidity
  copied : ∀ cached ∈ w.memory.uidvalidity, epoch ≤ cached

/-- Others may do whatever leaves it so that the server and the database answer. -/
def calling (engine : FolderSyncEngine) (epoch : Nat) : Contract (World.perform engine) where
  inv := Answers epoch
  admits _ _ := True
  rely _ _ := True
  guar _ _ := True
  rely_refl _ := trivial
  rely_trans _ _ := trivial

/-- The commands of a call. -/
def Polls : Command → Prop
  | .ask | .fetch .. | .save .. | .load _ | .cache (.uidnext _) | .write (.uidnext _) => True
  | _ => False

section Returns
variable {engine : FolderSyncEngine} {epoch : Nat} {s : World}

theorem answers_perform (good : Answers epoch s) (polls : Polls command) :
    Answers epoch (World.perform engine command s) := by
  obtain ⟨server, delivers, store, current, ⟨info, found, early⟩, copied⟩ := good
  cases command with
  | ask => exact ⟨server, delivers, store, current, ⟨info, found, early⟩, copied⟩
  | fetch =>
    simp only [World.perform, server]
    exact ⟨server, delivers, store, current, ⟨info, found, early⟩, copied⟩
  | save =>
    simp only [World.perform, World.commit, store]
    exact ⟨server, delivers, rfl, current, ⟨info, found, early⟩, copied⟩
  | load column =>
    simp only [World.perform, store, found]
    refine ⟨server, delivers, store, current, ⟨info, found, early⟩, ?_⟩
    cases column with
    | uidvalidity =>
      rintro _ ⟨⟩
      exact early
    | _ => exact copied
  | cache write =>
    cases write with
    | uidnext => exact ⟨server, delivers, store, current, ⟨info, found, early⟩, copied⟩
    | _ => exact polls.elim
  | write write =>
    cases write with
    | uidnext value =>
      simp only [World.perform, World.commit, store]
      exact ⟨server, delivers, rfl, current, ⟨_, congrArg (Option.map _) found, early⟩, copied⟩
    | _ => exact polls.elim
  | _ => exact polls.elim

/-- The routine returns, whatever the others do meanwhile. -/
def Returns (engine : FolderSyncEngine) (epoch : Nat) (routine : Call α) (post : α → Prop) : Prop :=
  (calling engine epoch).Spec (fun _ => True) routine (fun value _ => post value) (fun _ _ => False)

theorem returns_ret {post : α → Prop} (holds : post value) :
    Returns engine epoch (.ret value) post :=
  spec_ret (fun _ _ held _ _ => held) fun _ _ _ => holds

theorem returns_bind {routine : Call α} {rest : α → Call β} {post : β → Prop} (between : α → Prop)
    (first : Returns engine epoch routine between)
    (later : ∀ value, between value → Returns engine epoch (rest value) post) :
    Returns engine epoch (routine.bind rest) post :=
  spec_bind first fun value s good held => later value held s good trivial

theorem returns_each {items : List β} {body : β → Call Unit}
    (bodies : ∀ item, Returns engine epoch (body item) fun _ => True) :
    Returns engine epoch (.each items body) fun _ => True :=
  spec_each (fun _ _ => True) (fun _ _ held _ _ => held) fun item _ => bodies item

theorem returns_issue {answer : World → Except Exc α} {post : α → Prop} (polls : Polls command)
    (answers : ∀ t, Answers epoch t → ∃ value, answer t = .ok value ∧ post value) :
    Returns engine epoch (.issue command answer) post := by
  refine spec_issue (fun _ _ held _ _ => held) (fun _ _ _ held _ _ => held) (fun _ _ _ held _ _ => held)
    fun t good _ _ => ?_
  obtain ⟨value, answered, holds⟩ := answers t good
  refine ⟨answers_perform good polls, trivial, ?_⟩
  rw [answered]
  exact holds

theorem returns_imap {answer : Server → α} {post : α → Prop}
    (answers : ∀ server, server.uidvalidity = epoch → post (answer server)) :
    Returns engine epoch (imap answer) post := by
  refine returns_issue trivial fun t good => ⟨answer t.server, ?_, answers _ good.current⟩
  rw [good.server]
  rfl

theorem returns_transact {answer : World → Option α} {post : α → Prop} (polls : Polls command)
    (answers : ∀ t, Answers epoch t → ∃ value, answer t = some value ∧ post value) :
    Returns engine epoch (transact command answer) post := by
  refine returns_issue polls fun t good => ?_
  obtain ⟨value, answered, holds⟩ := answers t good
  refine ⟨value, ?_, holds⟩
  rw [good.store, answered]

theorem returns_load {copy : Memory → Option α} {row : ImapFolderInfo → α} {post : α → Prop}
    (copies : ∀ t, Answers epoch t → ∀ value ∈ copy t.memory, post value)
    (rows : ∀ info : ImapFolderInfo, epoch ≤ info.uidvalidity → post (row info)) :
    Returns engine epoch (load column copy row) post := by
  refine spec_step (fun _ _ held _ _ => held) fun t good _ _ => ⟨good, trivial, ?_⟩
  cases held : copy t.memory with
  | some value => exact fun _ _ _ => copies t good value held
  | none =>
    have loads : Returns engine epoch (transact (.load column) fun w => w.store.info.map row) post := by
      refine returns_transact trivial fun u here => ?_
      obtain ⟨info, found, early⟩ := here.stored
      exact ⟨row info, congrArg (Option.map row) found, rows info early⟩
    exact loads _ good trivial

/-- The UIDVALIDITY is the one that is stored. -/
theorem returns_select : Returns engine epoch (selectFolder uidvalidityCb) fun _ => True := by
  have selects : Returns engine epoch (imap Server.selectInfo) (·.uidvalidity = epoch) :=
    returns_imap fun _ same => same
  have loads : Returns engine epoch uidvalidity (epoch ≤ ·) :=
    returns_load (fun _ good => good.copied) fun _ early => early
  refine returns_bind _ selects fun session same => ?_
  refine returns_bind (fun _ => True) (returns_bind _ loads fun cached early => ?_) fun _ _ =>
    returns_ret trivial
  rw [if_pos (Nat.le_trans (Nat.le_of_eq same) early)]
  exact returns_ret trivial

theorem deliver_answers (good : Answers epoch s) (session : Session) (uid : Nat) :
    ∃ messages, s.server.deliver session uid = .ok messages := by
  unfold Server.deliver
  cases (s.server.folder session).current uid with
  | none => exact ⟨_, rfl⟩
  | some version =>
    cases delivered : s.server.delivery uid with
    | fails fault => exact absurd delivered (good.delivers uid fault)
    | _ => exact ⟨_, rfl⟩

theorem returns_download (session : Session) (uid : Nat) :
    Returns engine epoch (download engine .generic .engine session [uid]) fun _ => True := by
  have fetches : Returns engine epoch (fetchUids .engine session [uid]) fun _ => True := by
    refine returns_bind (fun _ => True) (returns_issue trivial fun t good => ?_) fun _ _ =>
      returns_ret trivial
    obtain ⟨messages, delivered⟩ := deliver_answers good session uid
    refine ⟨messages, ?_, trivial⟩
    rw [good.server]
    exact congrArg (Except.mapError Fault.exc) delivered
  refine returns_bind _ fetches fun messages _ => ?_
  split
  · exact returns_ret trivial
  · exact returns_transact trivial fun _ _ => ⟨(), rfl, trivial⟩

/-- A call returns when the server and the database answer. -/
theorem returns_getNewUids :
    Returns engine epoch (getNewUids engine .generic .engine) fun _ => True := by
  have loads : Returns engine epoch uidnext fun _ => True :=
    returns_load (fun _ _ _ _ => trivial) fun _ _ => trivial
  have looks : Returns engine epoch (lastseenuid engine) fun _ => True :=
    returns_transact trivial fun t _ => ⟨_, rfl, trivial⟩
  refine returns_bind (fun _ => True) (returns_imap fun _ _ => trivial) fun remote _ => ?_
  refine returns_bind _ loads fun saved _ => ?_
  split
  · exact returns_ret trivial
  refine returns_bind _ returns_select fun session _ => returns_bind _ looks fun lastseen _ => ?_
  refine returns_bind (fun _ => True) (returns_imap fun _ _ => trivial) fun latestUids _ => ?_
  refine returns_bind _ (returns_each fun uid => returns_download session uid) fun _ _ => ?_
  refine returns_bind (fun _ => True) (returns_transact trivial fun t good => ?_) fun _ _ =>
    returns_issue trivial fun _ _ => ⟨(), rfl, trivial⟩
  obtain ⟨info, found, _⟩ := good.stored
  exact ⟨(), congrArg (Option.map fun _ => ()) found, trivial⟩

end Returns

/-! ## All calls -/

/-- There is no other greenlet. -/
def nobody (engine : FolderSyncEngine) (start : World) : Contract (World.perform engine) where
  inv w := Renewed start w ∨ Attempted engine start w
  admits _ _ := True
  rely _ _ := True
  guar _ _ := False
  rely_refl _ := trivial
  rely_trans _ _ := trivial

section Runs
variable {engine : FolderSyncEngine} {start s t : World} {given : Nat}

theorem pollingOn_beside (good : (pollingOn engine start).inv s) (moved : Beside engine s t) :
    (pollingOn engine start).inv t := by
  rcases good with renewed | good
  · exact .inl (Nat.lt_of_lt_of_le renewed moved.le)
  · rcases moved with newer | within
    · exact .inl (by rwa [Renewed, ← good.uidvalidity])
    · exact .inr (attempted_within good within)

/-- A call, at any time of which there may be a new UIDVALIDITY. -/
theorem wp_getNewUids (good : (pollingOn engine start).inv s)
    (early : ¬ Renewed start s → given ≤ (mailboxOf s.server).uidnext) :
    (pollingOn engine start).wp (fun _ t => Renewed start t ∨ Ahead engine start given [] t)
      (fun _ _ => True) (getNewUids engine .generic .engine) s := by
  have moves : ∀ w u, Renewed start w → Beside engine w u → Renewed start u :=
    fun _ _ renewed moved => Nat.lt_of_lt_of_le renewed moved.le
  have stays : ∀ command w, Renewed start w → Renewed start (World.perform engine command w) := by
    intro command w renewed
    rwa [Renewed, World.perform_server]
  have relies : ∀ w u, Attempted engine start w → Beside engine w u → Renewed start u ∨ Within engine w u :=
    fun w u here moved => moved.imp_left fun newer => by rwa [Renewed, ← here.uidvalidity]
  have holds : Renewed start s ∨ Attempted engine start s ∧ (polling engine start).wp
      (fun _ => Ahead engine start given []) (fun _ _ => True) (getNewUids engine .generic .engine) s := by
    rcases good with renewed | here
    · exact .inl renewed
    · have same : ¬ Renewed start s := Nat.not_lt_of_le (Nat.le_of_eq here.uidvalidity)
      exact .inr ⟨here, spec_getNewUids s here (early same)⟩
  have called := wp_unless (K := polling engine start) (L := pollingOn engine start) moves stays
    (fun _ => Iff.rfl) relies (fun _ _ _ => trivial) (fun _ _ _ => trivial) holds
  exact wp_mono called (fun _ _ _ held => held) fun _ _ _ _ => trivial

theorem wp_call (good : (pollingOn engine start).inv s) :
    (pollingOn engine start).wp (fun _ _ => True) (fun _ _ => True) (getNewUids engine .generic .engine) s :=
  wp_mono (wp_getNewUids good fun _ => Nat.zero_le _) (fun _ _ _ _ => trivial) fun _ _ _ _ => trivial

/-- A new process has no copies, and so the marks that are stored. -/
theorem passing_fresh (s : World) : Passing engine 0 s { s with memory := Memory.fresh } where
  server := rfl
  passed uid passed := by
    rcases passed with row | ⟨mark, stored | copied, below⟩
    · exact .inl (.inl row)
    · exact .inl (.inr ⟨mark, .inl stored, below⟩)
    · cases copied
  settled _ settled := settled

end Runs

def protocol (engine : FolderSyncEngine) (start : World) : Crew.Protocol (plan engine) where
  main := pollingOn engine start
  helper := nobody engine start
  mainEnd _ _ := True
  helperEnd _ _ := True
  same_inv _ := Iff.rfl
  admits_main _ := trivial
  admits_helper _ := trivial
  main_to_helper _ _ _ := trivial
  helper_to_main _ promised := promised.elim
  env_moves good moved := ⟨pollingOn_beside good moved, moved, trivial⟩
  spawned signal := nomatch signal
  again _ again := again.elim
  resumed good _ resumed := by
    obtain ⟨rfl, rfl⟩ := resumed
    exact ⟨good, trivial, wp_call good⟩
  restarted good restarted := by
    obtain ⟨rfl | rfl, rfl⟩ := restarted
    · exact ⟨good, wp_call good⟩
    · have kept : (pollingOn engine start).inv _ :=
        good.imp_right fun here => (passing_fresh _).attempted here ahead_zero
      exact ⟨kept, wp_call kept⟩

/-- However often polling is cut off, while the folder keeps its UIDVALIDITY no mark passes a message that
has neither been saved nor been asked for in vain. A call that returns leaves no other, and calls return
once the server and the database answer. -/
theorem marks_pass_attempted (engine : FolderSyncEngine) (start : World)
    (crew : Crew World Command Exc Unit Unit) (reached : Reaches engine start crew) :
    (crew.shared.server.uidvalidity = start.server.uidvalidity →
      ∀ uid, ¬ Passed engine start uid → Passed engine crew.shared uid →
        (mailboxOf crew.shared.server).Exists uid → Settled engine crew.shared uid) ∧
    (∀ t, Amid (World.perform engine) (Beside engine) (getNewUids engine .generic .engine) crew.shared
        (.ok ()) t → t.server.uidvalidity = start.server.uidvalidity →
      ∀ uid, ¬ Passed engine start uid → uid < (mailboxOf crew.shared.server).uidnext →
        (mailboxOf t.server).Exists uid → Settled engine t uid) ∧
    ∀ epoch, Answers epoch crew.shared → ∀ exc t, ¬ Amid (World.perform engine)
      (fun s t => Beside engine s t ∧ Answers epoch t) (getNewUids engine .generic .engine) crew.shared
      (.error exc) t := by
  have begun : (protocol engine start).Runs ⟨start, getNewUids engine .generic .engine, none⟩ :=
    ⟨.inr (attempted_start start), wp_call (.inr (attempted_start start)), nofun⟩
  have good := ((protocol engine start).reach_runs begun reached).1
  have same : ∀ {w : World}, w.server.uidvalidity = start.server.uidvalidity → ¬ Renewed start w :=
    fun current => Nat.not_lt_of_le (Nat.le_of_eq current)
  refine ⟨fun current => (good.resolve_left (same current)).settled, fun t returned current uid fresh given present => ?_,
    fun epoch answers exc t raised => ?_⟩
  · have ended := (wp_amid (wp_getNewUids good fun _ => Nat.le_refl _) good (fun _ _ => trivial)
      (fun _ _ here moved => ⟨moved, pollingOn_beside here moved⟩) returned).2
    have ahead := ended.resolve_left (same current)
    exact (ahead.settled uid fresh given present).resolve_left List.not_mem_nil
  · exact (wp_outcome (returns_getNewUids crew.shared answers trivial) answers (fun _ _ => trivial)
      (fun _ _ _ moved => ⟨trivial, moved.2⟩) raised).2.2 exc rfl

/-! ## A message that was not available once -/

/-- One more call, without anything else happening. -/
def poll (engine : FolderSyncEngine) (w : World) : World :=
  ((getNewUids engine .generic .engine).run (World.perform engine) w).2

namespace Trial
open Imap.Trial

/-- One message, which is sent so. -/
def oneMessage (delivery : Delivery) : World :=
  world { server 1 (mailbox 2 5 fun _ => seen) with delivery := fun _ => delivery } (some (info 1))

theorem poll_done : (getNewUids self .generic .engine).run (World.perform self) (oneMessage .whole) =
    (.ok (), poll self (oneMessage .whole)) := rfl

theorem not_passed (delivery : Delivery) : ¬ Passed self (oneMessage delivery) 1 := by
  rintro (row | ⟨mark, stored | copied, _⟩)
  · exact Nat.not_succ_le_zero 0 row
  · cases stored
  · cases copied

/-- From now on the server sends whole messages. -/
def heal (w : World) : World := { w with server := { w.server with delivery := fun _ => .whole } }

theorem heal_within (w : World) : Within self w (heal w) where
  uidvalidity := rfl
  mailbox := .refl _
  rows _ member := member
  keeps _ member _ _ := member
  stored := rfl
  copy := rfl
  attempts := rfl

/-- UIDNEXT is as it was recorded, and the call returns at once. -/
theorem poll_healed : poll self (heal (poll self (oneMessage .unavailable))) =
    heal (poll self (oneMessage .unavailable)) := rfl

/-- The UIDs are given out anew. -/
def renewable : World :=
  let full := mailbox 2 5 fun _ => seen
  world { server 1 full with mailbox := fun epoch => { full with expunged := fun _ => epoch = 1 } }
    (some (info 1))

def renew (w : World) : World := { w with server := { w.server with uidvalidity := 2 } }

/-- UIDNEXT is as it was recorded under the old UIDVALIDITY. -/
theorem poll_renewed : poll self (renew (poll self renewable)) = renew (poll self renewable) := rfl

theorem renewable_not_passed : ¬ Passed self renewable 1 := by
  rintro (row | ⟨mark, stored | copied, _⟩)
  · exact Nat.not_succ_le_zero 0 row
  · cases stored
  · cases copied

end Trial

theorem marks_pass_attempted_one : Settled Imap.Trial.self
    (poll Imap.Trial.self (Trial.oneMessage .whole)) 1 :=
  (marks_pass_attempted Imap.Trial.self (Trial.oneMessage .whole) _ .refl).2.1 _
    (amid_run Beside.refl Trial.poll_done) rfl 1 (Trial.not_passed .whole) (by decide) rfl

theorem admits_alone (engine : FolderSyncEngine) (routine : Call Unit) (w : World) :
    Crew.AdmitsAlone (plan engine) routine w := by
  induction routine generalizing w with
  | ret | raise => trivial
  | step command next ih => exact ⟨trivial, ih w _⟩

/-- What was not available once is not asked for again, though everything would be sent now, and what
comes under a new UIDVALIDITY is not asked for while UIDNEXT is the old one. -/
theorem unavailable_stays_away :
    (¬ ∀ (engine : FolderSyncEngine) (start : World) (crew : Crew World Command Exc Unit Unit),
      Reaches engine start crew → Answers start.server.uidvalidity crew.shared →
      (∀ uid, crew.shared.server.delivery uid = .whole) →
      ∀ uid, ¬ Passed engine start uid → (mailboxOf crew.shared.server).Exists uid →
        ∃ calls : Nat, uid ∈ Common.localUids ((poll engine)^[calls] crew.shared).store.db engine.folderId) ∧
    ¬ ∀ (engine : FolderSyncEngine) (start : World) (crew : Crew World Command Exc Unit Unit),
      Reaches engine start crew → ∀ uid, ¬ Passed engine start uid →
        Passed engine crew.shared uid → (mailboxOf crew.shared.server).Exists uid →
        Settled engine crew.shared uid := by
  have alone : ∀ w, ∃ final helper, Reaches Imap.Trial.self w ⟨poll Imap.Trial.self w, final, helper⟩ := by
    intro w
    obtain ⟨final, helper, _, reached⟩ := Crew.reach_alone
      (admits_alone Imap.Trial.self (getNewUids Imap.Trial.self .generic .engine) w) none
    exact ⟨final, helper, reached⟩
  constructor
  · intro claim
    let w := poll Imap.Trial.self (Trial.oneMessage .unavailable)
    obtain ⟨final, helper, reached⟩ := alone (Trial.oneMessage .unavailable)
    have healed : Reaches Imap.Trial.self (Trial.oneMessage .unavailable) ⟨Trial.heal w, final, helper⟩ :=
      .tail reached (.env (.inr (Trial.heal_within w)))
    have answers : Answers 1 (Trial.heal w) := by
      refine ⟨rfl, nofun, rfl, rfl, ⟨_, rfl, Nat.le_refl _⟩, ?_⟩
      rintro _ ⟨⟩
      exact Nat.le_refl _
    obtain ⟨calls, saved⟩ := claim _ _ _ healed answers (fun _ => rfl) 1 (Trial.not_passed .unavailable) rfl
    rw [Function.iterate_fixed Trial.poll_healed] at saved
    exact absurd saved List.not_mem_nil
  · intro claim
    obtain ⟨final, helper, reached⟩ := alone Trial.renewable
    have renewed : Reaches Imap.Trial.self Trial.renewable
        ⟨Trial.renew (poll Imap.Trial.self Trial.renewable), final, helper⟩ :=
      .tail reached (.env (.inl (by decide)))
    rcases claim _ _ _ renewed 1 Trial.renewable_not_passed (.inr ⟨2, .inl rfl, by decide⟩) rfl with
      saved | fruitless
    · exact absurd saved List.not_mem_nil
    · exact absurd fruitless List.not_mem_nil

end Polling
end Imap
end SyncEngine
