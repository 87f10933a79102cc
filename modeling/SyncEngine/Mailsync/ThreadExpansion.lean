import Mathlib.Algebra.Group.Nat.Defs
import Mathlib.Data.List.Dedup
import Mathlib.Data.List.Nodup
import SyncEngine.Util.Batching

/-! During the initial sync of a Gmail folder the UIDs to download are expanded by thread
(`GmailFolderSyncEngine.expand_uids_to_download`) and downloaded in small batches
(`batch_download_uids`). -/
namespace SyncEngine.ThreadExpansion

open Batching

structure GMetadata where
  gMsgid : Nat
  gThrid : Nat
  size : Nat
deriving DecidableEq

abbrev Metadata := Nat → Option GMetadata

/-- `metadata[uid]` for a UID that is no key. -/
structure KeyError where
  uid : Nat

/-- What a FETCH is about. -/
inductive SeqSet
  | uids (listed : List Nat)
  | all

/-- The answers of the server about the selected folder. -/
structure Connection where
  fetch : SeqSet → Metadata
  search : (gThrid : Nat) → List Nat

def sortedReverse (uids : List Nat) : List Nat := uids.mergeSort (· ≥ ·)

section
variable (conn : Connection)

def gMetadata (uids : List Nat) : Metadata :=
  let data := conn.fetch (if uids.length < 1000000 then .uids uids else .all)
  fun uid => if uid ∈ uids then data uid else none

def expandThread (gThrid : Nat) : List Nat := sortedReverse (conn.search gThrid)
end

def Metadata.update (metadata more : Metadata) : Metadata := fun uid => (more uid).or (metadata uid)

def Metadata.find (metadata : Metadata) (uid : Nat) : Except KeyError GMetadata :=
  match metadata uid with
  | some data => .ok data
  | none => .error ⟨uid⟩

/-- An entry of `thrids`: the seeds on a thread, newest first. -/
structure Thread where
  gThrid : Nat
  newest : Nat
  older : List Nat
deriving DecidableEq

def Thread.uids (thread : Thread) : List Nat := thread.newest :: thread.older

def addSeed (gThrid uid : Nat) : List Thread → List Thread
  | [] => [⟨gThrid, uid, []⟩]
  | thread :: thrids =>
    if thread.gThrid = gThrid then { thread with older := thread.older ++ [uid] } :: thrids
    else thread :: addSeed gThrid uid thrids

def groupSeeds (metadata : Metadata) : (thrids : List Thread) → List Nat → Except KeyError (List Thread)
  | thrids, [] => .ok thrids
  | thrids, uid :: uids =>
    match metadata.find uid with
    | .error failure => .error failure
    | .ok data => groupSeeds metadata (addSeed data.gThrid uid thrids) uids

/-- The generator before its first step, or after it handed out a UID: the UIDs of the present
thread and the threads that are still to come. -/
inductive Generator
  | created (uids : List Nat)
  | suspended (uids : List Nat) (thrids : List Thread)

/-- The generator and the dictionary that it shares with its caller. -/
structure State where
  metadata : Metadata
  generator : Generator

def expandUidsToDownload (uids : List Nat) (metadata : Metadata) : State := ⟨metadata, .created uids⟩

section
variable (conn : Connection)

/-- The thread is expanded unless its newest seed is also its first message. -/
def threadUids (thread : Thread) (newest : GMetadata) : List Nat :=
  if thread.gThrid ≠ newest.gMsgid then (thread.uids ++ expandThread conn thread.gThrid).dedup
  else thread.uids

def threadMetadata (thread : Thread) (newest : GMetadata) (metadata : Metadata) : Metadata :=
  if thread.gThrid ≠ newest.gMsgid then metadata.update (gMetadata conn (threadUids conn thread newest))
  else metadata

/-- The generator runs on to its next `yield` or to its end. -/
def resume : List Thread → List Nat → Metadata → Except KeyError (Option Nat × State)
  | thrids, uid :: uids, metadata => .ok (some uid, ⟨metadata, .suspended uids thrids⟩)
  | [], [], metadata => .ok (none, ⟨metadata, .suspended [] []⟩)
  | thread :: thrids, [], metadata =>
    match metadata.find thread.newest with
    | .error failure => .error failure
    | .ok newest =>
      resume thrids (sortedReverse (threadUids conn thread newest))
        (threadMetadata conn thread newest metadata)

def next (s : State) : Except KeyError (Option Nat × State) :=
  match s.generator with
  | .created uids =>
    match groupSeeds s.metadata [] (sortedReverse uids) with
    | .error failure => .error failure
    | .ok thrids => resume conn thrids [] s.metadata
  | .suspended uids thrids => resume conn thrids uids s.metadata
end

/-- The size of a message, as far as it is known. -/
def knownSize (s : State) (uid : Nat) : Nat :=
  match s.metadata uid with
  | some data => data.size
  | none => 0

def maxDownloadBytes : Nat := 2 ^ 20
def maxDownloadCount : Nat := 1

/-- The batches that `batch_download_uids` hands to `download_and_commit_uids`. -/
def batchDownloadUids (conn : Connection) (maxBytes maxCount fuel : Nat) (uids : List Nat)
    (metadata : Metadata) : Except KeyError (Option (List (Batch State Nat))) :=
  batches (next conn) knownSize maxBytes maxCount fuel (expandUidsToDownload uids metadata)

/-! ## The seeds by thread -/

theorem addSeed_gThrid (gThrid uid : Nat) (thrids : List Thread) :
    (addSeed gThrid uid thrids).map Thread.gThrid =
      if gThrid ∈ thrids.map Thread.gThrid then thrids.map Thread.gThrid
      else thrids.map Thread.gThrid ++ [gThrid] := by
  induction thrids with
  | nil => rfl
  | cons thread thrids ih =>
    by_cases here : thread.gThrid = gThrid
    · simp [addSeed, here]
    · simp only [addSeed, if_neg here, List.map_cons, ih, List.mem_cons, Ne.symm here, false_or]
      split <;> rfl

theorem mem_addSeed_uids {gThrid uid other : Nat} {thrids : List Thread} :
    (∃ thread ∈ addSeed gThrid uid thrids, other ∈ thread.uids) ↔
      (∃ thread ∈ thrids, other ∈ thread.uids) ∨ other = uid := by
  induction thrids with
  | nil => simp [addSeed, Thread.uids]
  | cons thread thrids ih =>
    by_cases here : thread.gThrid = gThrid
    · simp only [addSeed, if_pos here, List.mem_cons, or_and_right, exists_or, exists_eq_left, Thread.uids,
        List.mem_append, List.not_mem_nil, or_false]
      simp only [or_assoc, or_comm, or_left_comm]
    · simp only [addSeed, if_neg here, List.mem_cons, or_and_right, exists_or, exists_eq_left, ih, or_assoc]

theorem addSeed_forall {P : Thread → Prop} {thrids : List Thread} (others : ∀ thread ∈ thrids, P thread)
    (first : P ⟨gThrid, uid, []⟩)
    (more : ∀ thread ∈ thrids, thread.gThrid = gThrid →
      P { thread with older := thread.older ++ [uid] }) : ∀ thread ∈ addSeed gThrid uid thrids, P thread := by
  induction thrids with
  | nil => simpa [addSeed] using first
  | cons thread thrids ih =>
    obtain ⟨head, tail⟩ := List.forall_mem_cons.mp others
    by_cases here : thread.gThrid = gThrid
    · rw [addSeed, if_pos here]
      exact List.forall_mem_cons.mpr ⟨more thread (by simp) here, tail⟩
    · rw [addSeed, if_neg here]
      exact List.forall_mem_cons.mpr ⟨head, ih tail fun thread member => more thread (by simp [member])⟩

/-- The threads of the seeds that have been read so far. -/
structure Grouped (metadata : Metadata) (seeds : List Nat) (thrids : List Thread) : Prop where
  distinct : (thrids.map Thread.gThrid).Nodup
  uids : ∀ uid, (∃ thread ∈ thrids, uid ∈ thread.uids) ↔ uid ∈ seeds
  own : ∀ thread ∈ thrids, ∀ uid ∈ thread.uids, ∃ data, metadata uid = some data ∧ data.gThrid = thread.gThrid
  sorted : ∀ thread ∈ thrids, thread.uids.Pairwise (· > ·)

theorem Grouped.add (grouped : Grouped metadata seeds thrids) (known : metadata uid = some data)
    (older : ∀ seed ∈ seeds, uid < seed) :
    Grouped metadata (seeds ++ [uid]) (addSeed data.gThrid uid thrids) where
  distinct := by
    rw [addSeed_gThrid]
    split
    next => exact grouped.distinct
    next absent =>
      rw [List.nodup_append]
      refine ⟨grouped.distinct, List.nodup_singleton _, ?_⟩
      intro gThrid member other single same
      obtain rfl := List.mem_singleton.mp single
      exact absent (same ▸ member)
  uids other := by
    rw [mem_addSeed_uids, grouped.uids]
    simp
  own := by
    refine addSeed_forall grouped.own ?_ ?_
    · intro other member
      obtain rfl : other = uid := by simpa [Thread.uids] using member
      exact ⟨data, known, rfl⟩
    · intro thread listed here other member
      simp only [Thread.uids, List.mem_cons, List.mem_append, List.not_mem_nil, or_false] at member
      rcases member with rfl | member | rfl
      · exact grouped.own thread listed _ (by simp [Thread.uids])
      · exact grouped.own thread listed _ (by simp [Thread.uids, member])
      · exact ⟨data, known, here.symm⟩
  sorted := by
    refine addSeed_forall grouped.sorted ?_ ?_
    · simp [Thread.uids]
    · intro thread listed _
      have split : ({ thread with older := thread.older ++ [uid] } : Thread).uids = thread.uids ++ [uid] :=
        rfl
      rw [split, List.pairwise_append]
      refine ⟨grouped.sorted thread listed, List.pairwise_singleton _ _, ?_⟩
      intro seed member last single
      obtain rfl := List.mem_singleton.mp single
      exact older seed ((grouped.uids seed).mp ⟨thread, listed, member⟩)

theorem groupSeeds_spec {metadata : Metadata} (uids : List Nat) {seeds : List Nat}
    (covered : ∀ uid ∈ uids, ∃ data, metadata uid = some data)
    (sorted : (seeds ++ uids).Pairwise (· > ·)) (grouped : Grouped metadata seeds thrids) :
    ∃ all, groupSeeds metadata thrids uids = .ok all ∧ Grouped metadata (seeds ++ uids) all := by
  induction uids generalizing seeds thrids with
  | nil => exact ⟨thrids, rfl, by simpa using grouped⟩
  | cons uid uids ih =>
    obtain ⟨data, known⟩ := covered uid (by simp)
    have older : ∀ seed ∈ seeds, uid < seed := by
      intro seed member
      exact (List.pairwise_append.mp sorted).2.2 seed member uid (by simp)
    have split : seeds ++ uid :: uids = (seeds ++ [uid]) ++ uids := by simp
    obtain ⟨all, grouping, grouped⟩ := ih (fun seed member => covered seed (by simp [member]))
      (split ▸ sorted) (grouped.add known older)
    refine ⟨all, ?_, split ▸ grouped⟩
    simp only [groupSeeds, Metadata.find, known, grouping]

/-! ## Threads that are still to come -/

theorem mem_sortedReverse {uids : List Nat} : uid ∈ sortedReverse uids ↔ uid ∈ uids :=
  (List.mergeSort_perm _ _).mem_iff

theorem sortedReverse_nodup {uids : List Nat} : (sortedReverse uids).Nodup ↔ uids.Nodup :=
  (List.mergeSort_perm _ _).nodup_iff

theorem sortedReverse_pairwise {uids : List Nat} (distinct : uids.Nodup) :
    (sortedReverse uids).Pairwise (· > ·) := by
  have ordered : (sortedReverse uids).Pairwise fun first second => decide (first ≥ second) = true :=
    List.pairwise_mergeSort (by intro a b c; simp; omega) (by intro a b; simp; omega) uids
  have differ := sortedReverse_nodup.mpr distinct
  refine (ordered.and differ).imp ?_
  rintro first second ⟨order, differ⟩
  have := of_decide_eq_true order
  omega

section
variable {conn : Connection} {threadOf : Nat → Option Nat}

/-- The server finds the UIDs of a thread in the selected folder. -/
def Searches (conn : Connection) (threadOf : Nat → Option Nat) : Prop :=
  ∀ gThrid uid, uid ∈ expandThread conn gThrid ↔ threadOf uid = some gThrid

theorem mem_threadUids {uid : Nat} : uid ∈ threadUids conn thread newest ↔
    uid ∈ thread.uids ∨ thread.gThrid ≠ newest.gMsgid ∧ uid ∈ expandThread conn thread.gThrid := by
  unfold threadUids
  split
  next expanded => simp [expanded]
  next first => simp [first]

theorem threadUids_nodup (distinct : thread.uids.Nodup) : (threadUids conn thread newest).Nodup := by
  unfold threadUids
  split
  · exact List.nodup_dedup _
  · exact distinct

theorem threadMetadata_other (other : uid ∉ threadUids conn thread newest) (metadata : Metadata) :
    threadMetadata conn thread newest metadata uid = metadata uid := by
  unfold threadMetadata
  split
  · simp [Metadata.update, gMetadata, other]
  · rfl

/-- The threads have different ids, their seeds are on them and the pending UIDs are not. -/
structure Apart (threadOf : Nat → Option Nat) (thrids : List Thread) (pending : List Nat) : Prop where
  distinct : (thrids.map Thread.gThrid).Nodup
  own : ∀ thread ∈ thrids, ∀ uid ∈ thread.uids, threadOf uid = some thread.gThrid
  elsewhere : ∀ uid ∈ pending, ∀ thread ∈ thrids, threadOf uid ≠ some thread.gThrid

theorem Apart.on_thread (searches : Searches conn threadOf)
    (apart : Apart threadOf (thread :: thrids) pending) (member : uid ∈ threadUids conn thread newest) :
    threadOf uid = some thread.gThrid := by
  rcases mem_threadUids.mp member with seed | ⟨-, found⟩
  · exact apart.own thread (by simp) uid seed
  · exact (searches _ _).mp found

theorem Apart.tail (searches : Searches conn threadOf) (apart : Apart threadOf (thread :: thrids) pending) :
    Apart threadOf thrids (sortedReverse (threadUids conn thread newest)) where
  distinct := (List.nodup_cons.mp apart.distinct).2
  own other member := apart.own other (by simp [member])
  elsewhere uid member other listed same := by
    rw [apart.on_thread searches (mem_sortedReverse.mp member)] at same
    refine (List.nodup_cons.mp apart.distinct).1 ?_
    rw [Option.some.inj same]
    exact List.mem_map_of_mem listed

theorem Apart.rest (apart : Apart threadOf thrids (uid :: pending)) : Apart threadOf thrids pending :=
  ⟨apart.distinct, apart.own, fun other member => apart.elsewhere other (by simp [member])⟩

/-- What one step of the generator does. -/
theorem resume_cases (steps : resume conn thrids pending metadata = .ok (given, s')) :
    (∃ uid uids, pending = uid :: uids ∧ given = some uid ∧ s' = ⟨metadata, .suspended uids thrids⟩) ∨
    (given = none ∧ s' = ⟨metadata, .suspended [] []⟩) ∨
    ∃ thread later newest uid uids, thrids = thread :: later ∧
      sortedReverse (threadUids conn thread newest) = uid :: uids ∧ given = some uid ∧
      s' = ⟨threadMetadata conn thread newest metadata, .suspended uids later⟩ := by
  cases pending with
  | cons uid uids =>
    refine .inl ⟨uid, uids, rfl, ?_⟩
    cases thrids <;> (simp only [resume] at steps; cases steps; exact ⟨rfl, rfl⟩)
  | nil =>
    cases thrids with
    | nil =>
      simp only [resume] at steps
      cases steps
      exact .inr (.inl ⟨rfl, rfl⟩)
    | cons thread later =>
      simp only [resume] at steps
      split at steps
      next => cases steps
      next newest found =>
        have some : sortedReverse (threadUids conn thread newest) ≠ [] := by
          apply List.ne_nil_of_mem (a := thread.newest)
          exact mem_sortedReverse.mpr (mem_threadUids.mpr (.inl (by simp [Thread.uids])))
        obtain ⟨uid, uids, split⟩ := List.exists_cons_of_ne_nil some
        rw [split] at steps
        refine .inr (.inr ⟨thread, later, newest, uid, uids, rfl, split, ?_⟩)
        cases later <;> (simp only [resume] at steps; cases steps; exact ⟨rfl, rfl⟩)

/-- What holds between two steps of the generator. -/
def Good (threadOf : Nat → Option Nat) : State → Prop
  | ⟨metadata, .created uids⟩ =>
    ∀ thrids, groupSeeds metadata [] (sortedReverse uids) = .ok thrids → Apart threadOf thrids []
  | ⟨_, .suspended uids thrids⟩ => Apart threadOf thrids uids

/-- The UID is on no thread that is still to come. -/
def Settled (threadOf : Nat → Option Nat) (s : State) (uid : Nat) : Prop :=
  match s.generator with
  | .created _ => False
  | .suspended _ thrids => ∀ thread ∈ thrids, threadOf uid ≠ some thread.gThrid

theorem resume_settles (searches : Searches conn threadOf) (apart : Apart threadOf thrids pending)
    (steps : resume conn thrids pending metadata = .ok (some uid, s')) :
    Good threadOf s' ∧ Settled threadOf s' uid ∧
      ∀ old, (∀ thread ∈ thrids, threadOf old ≠ some thread.gThrid) →
        Settled threadOf s' old ∧ s'.metadata old = metadata old := by
  obtain ⟨first, uids, rfl, same, rfl⟩ | ⟨impossible, -⟩ |
    ⟨thread, later, newest, first, uids, rfl, split, same, rfl⟩ := resume_cases steps
  · cases same
    exact ⟨apart.rest, apart.elsewhere uid (by simp), fun old settled => ⟨settled, rfl⟩⟩
  · contradiction
  · cases same
    have tail : Apart threadOf later (uid :: uids) := split ▸ apart.tail searches
    refine ⟨tail.rest, tail.elsewhere uid (by simp), fun old settled => ⟨?_, ?_⟩⟩
    · exact fun other member => settled other (by simp [member])
    · apply threadMetadata_other
      exact fun member => settled thread (by simp) (apart.on_thread searches member)

theorem next_settles (searches : Searches conn threadOf) (good : Good threadOf s)
    (steps : next conn s = .ok (some uid, s')) :
    Good threadOf s' ∧ Settled threadOf s' uid ∧
      ∀ old, Settled threadOf s old → Settled threadOf s' old ∧ knownSize s' old = knownSize s old := by
  obtain ⟨metadata, uids | ⟨uids, thrids⟩⟩ := s
  · simp only [next] at steps
    split at steps
    next => cases steps
    next thrids grouping =>
      obtain ⟨good, settled, -⟩ := resume_settles searches (good thrids grouping) steps
      exact ⟨good, settled, fun old impossible => impossible.elim⟩
  · obtain ⟨good, settled, kept⟩ := resume_settles searches good steps
    refine ⟨good, settled, fun old before => ?_⟩
    obtain ⟨after, same⟩ := kept old before
    exact ⟨after, by simp only [knownSize, same]⟩

theorem next_ended (steps : next conn s = .ok (none, s')) : s'.metadata = s.metadata := by
  have ended : ∀ {thrids pending}, resume conn thrids pending s.metadata = .ok (none, s') →
      s'.metadata = s.metadata := by
    intro thrids pending steps
    obtain ⟨_, _, _, impossible, _⟩ | ⟨-, rfl⟩ | ⟨_, _, _, _, _, _, _, impossible, _⟩ := resume_cases steps
    · contradiction
    · rfl
    · contradiction
  unfold next at steps
  split at steps
  · split at steps
    next => cases steps
    next => exact ended steps
  · exact ended steps

/-- What is known of a UID when it is handed out stays so. -/
theorem expansion_steady (searches : Searches conn threadOf) (good : Good threadOf s) :
    Steady (next conn) knownSize s := by
  have ended : ∀ s s', Good threadOf s → next conn s = .ok (none, s') → knownSize s' = knownSize s := by
    intro s s' _ steps
    funext uid
    simp only [knownSize, next_ended steps]
  exact Steady.of_settled (fun s uid s' good steps => next_settles searches good steps) ended good

/-! ## The expanded UIDs -/

/-- The UIDs that are downloaded for one thread. -/
def expansion (conn : Connection) (metadata : Metadata) (thread : Thread) : List Nat :=
  match metadata thread.newest with
  | some newest => sortedReverse (threadUids conn thread newest)
  | none => []

theorem yields_uids (uids : List Nat) : Yields (next conn) ⟨metadata, .suspended uids thrids⟩ uids
    ⟨metadata, .suspended [] thrids⟩ := by
  induction uids with
  | nil => exact .nil _
  | cons uid uids ih =>
    refine .cons ?_ ih
    cases thrids <;> rfl

theorem yields_threads (searches : Searches conn threadOf) (apart : Apart threadOf thrids [])
    (known : ∀ thread ∈ thrids, ∃ newest, metadata thread.newest = some newest) :
    ∃ metadata', Yields (next conn) ⟨metadata, .suspended [] thrids⟩
      (thrids.flatMap (expansion conn metadata)) ⟨metadata', .suspended [] []⟩ := by
  induction thrids generalizing metadata with
  | nil => exact ⟨metadata, .nil _⟩
  | cons thread later ih =>
    obtain ⟨newest, found⟩ := known thread (by simp)
    have kept : ∀ other ∈ later, threadMetadata conn thread newest metadata other.newest =
        metadata other.newest := by
      intro other listed
      apply threadMetadata_other
      intro member
      have same := apart.on_thread searches member
      rw [apart.own other (by simp [listed]) other.newest (by simp [Thread.uids])] at same
      refine (List.nodup_cons.mp apart.distinct).1 ?_
      rw [← Option.some.inj same]
      exact List.mem_map_of_mem listed
    have tail : Apart threadOf later [] :=
      ⟨(List.nodup_cons.mp apart.distinct).2, fun other member => apart.own other (by simp [member]),
        by simp⟩
    have others : ∀ other ∈ later, ∃ data,
        threadMetadata conn thread newest metadata other.newest = some data := by
      intro other listed
      rw [kept other listed]
      exact known other (by simp [listed])
    obtain ⟨metadata', yields⟩ := ih tail others
    have same : later.flatMap (expansion conn (threadMetadata conn thread newest metadata)) =
        later.flatMap (expansion conn metadata) := by
      apply List.flatMap_congr
      intro other listed
      simp only [expansion, kept other listed]
    refine ⟨metadata', ?_⟩
    rw [List.flatMap_cons, ← same]
    have first := (yields_uids (expansion conn metadata thread)).trans yields
    have some : expansion conn metadata thread ++
        later.flatMap (expansion conn (threadMetadata conn thread newest metadata)) ≠ [] := by
      apply List.ne_nil_of_mem (a := thread.newest)
      simp only [expansion, found, List.mem_append, mem_sortedReverse, mem_threadUids]
      exact .inl (.inl (by simp [Thread.uids]))
    have same : next conn ⟨metadata, .suspended [] (thread :: later)⟩ =
        next conn ⟨threadMetadata conn thread newest metadata,
          .suspended (expansion conn metadata thread) later⟩ := by
      simp only [next, resume, Metadata.find, found, expansion]
    exact first.replace same some

/-- The metadata covers the seeds, each with the thread it is on. -/
def Covers (threadOf : Nat → Option Nat) (metadata : Metadata) (seeds : List Nat) : Prop :=
  ∀ seed ∈ seeds, ∃ data, metadata seed = some data ∧ threadOf seed = some data.gThrid

/-- The newest seed on a thread is the first message of the thread. -/
def SeededByFirst (threadOf : Nat → Option Nat) (metadata : Metadata) (seeds : List Nat)
    (gThrid : Nat) : Prop :=
  ∃ newest ∈ seeds, threadOf newest = some gThrid ∧
    (∀ seed ∈ seeds, threadOf seed = some gThrid → seed ≤ newest) ∧
    ∃ data, metadata newest = some data ∧ data.gMsgid = gThrid

/-- What the generator yields for the seeds. -/
structure Expanded (threadOf : Nat → Option Nat) (metadata : Metadata) (seeds uids : List Nat) : Prop where
  distinct : uids.Nodup
  everySeed : ∀ seed ∈ seeds, seed ∈ uids
  onThreads : ∀ uid ∈ uids, ∃ seed ∈ seeds, threadOf uid = threadOf seed
  wholeThreads : ∀ seed ∈ seeds, ∀ gThrid, threadOf seed = some gThrid →
    ¬ SeededByFirst threadOf metadata seeds gThrid → ∀ uid, threadOf uid = some gThrid → uid ∈ uids
  seedsOnly : ∀ gThrid, SeededByFirst threadOf metadata seeds gThrid →
    ∀ uid ∈ uids, threadOf uid = some gThrid → uid ∈ seeds

theorem Grouped.apart (grouped : Grouped metadata seeds thrids) (covers : Covers threadOf metadata seeds) :
    Apart threadOf thrids [] where
  distinct := grouped.distinct
  own thread listed uid member := by
    obtain ⟨data, known, here⟩ := grouped.own thread listed uid member
    obtain ⟨same, known', on⟩ := covers uid ((grouped.uids uid).mp ⟨thread, listed, member⟩)
    rw [known] at known'
    rw [on, ← Option.some.inj known', here]
  elsewhere := by simp

theorem mem_expansion (found : metadata thread.newest = some newest) :
    uid ∈ expansion conn metadata thread ↔ uid ∈ threadUids conn thread newest := by
  simp only [expansion, found, mem_sortedReverse]

theorem Grouped.expanded (grouped : Grouped metadata seeds thrids) (searches : Searches conn threadOf)
    (covers : Covers threadOf metadata seeds) :
    Expanded threadOf metadata seeds (thrids.flatMap (expansion conn metadata)) := by
  have apart := grouped.apart covers
  have newestOf : ∀ thread ∈ thrids, ∃ newest, metadata thread.newest = some newest := by
    intro thread listed
    obtain ⟨newest, found, -⟩ := grouped.own thread listed thread.newest (by simp [Thread.uids])
    exact ⟨newest, found⟩
  have on_thread : ∀ thread ∈ thrids, ∀ uid ∈ expansion conn metadata thread,
      threadOf uid = some thread.gThrid := by
    intro thread listed uid member
    obtain ⟨newest, found⟩ := newestOf thread listed
    rcases mem_threadUids.mp ((mem_expansion found).mp member) with seed | ⟨-, there⟩
    · exact apart.own thread listed uid seed
    · exact (searches _ _).mp there
  have holder : ∀ uid ∈ seeds, ∃ thread ∈ thrids, uid ∈ thread.uids ∧ uid ≤ thread.newest := by
    intro uid member
    obtain ⟨thread, listed, here⟩ := (grouped.uids uid).mpr member
    refine ⟨thread, listed, here, ?_⟩
    rcases List.mem_cons.mp here with rfl | older
    · exact Nat.le_refl _
    · exact Nat.le_of_lt (List.rel_of_pairwise_cons (grouped.sorted thread listed) older)
  have onlyThread : ∀ thread ∈ thrids, ∀ other ∈ thrids, thread.gThrid = other.gThrid → thread = other :=
    fun thread listed other listed' same => List.inj_on_of_nodup_map apart.distinct listed listed' same
  have newestSeed : ∀ thread ∈ thrids,
      thread.newest ∈ seeds ∧ threadOf thread.newest = some thread.gThrid := by
    intro thread listed
    have first : thread.newest ∈ thread.uids := by simp [Thread.uids]
    exact ⟨(grouped.uids _).mp ⟨thread, listed, first⟩, apart.own thread listed _ first⟩
  refine ⟨?_, ?_, ?_, ?_, ?_⟩
  · rw [List.nodup_flatMap]
    refine ⟨fun thread listed => ?_, ?_⟩
    · obtain ⟨newest, found⟩ := newestOf thread listed
      simp only [expansion, found, sortedReverse_nodup]
      exact threadUids_nodup ((grouped.sorted thread listed).imp fun less => Nat.ne_of_gt less)
    · have differ : thrids.Pairwise fun first second => first.gThrid ≠ second.gThrid :=
        List.pairwise_map.mp apart.distinct
      refine differ.imp_of_mem fun {first second} listed listed' differ uid member member' => ?_
      have same := on_thread first listed uid member
      rw [on_thread second listed' uid member'] at same
      exact differ (Option.some.inj same).symm
  · intro seed member
    obtain ⟨thread, listed, here, -⟩ := holder seed member
    obtain ⟨newest, found⟩ := newestOf thread listed
    exact List.mem_flatMap.mpr ⟨thread, listed, (mem_expansion found).mpr (mem_threadUids.mpr (.inl here))⟩
  · intro uid member
    obtain ⟨thread, listed, here⟩ := List.mem_flatMap.mp member
    obtain ⟨seed, on⟩ := newestSeed thread listed
    exact ⟨thread.newest, seed, (on_thread thread listed uid here).trans on.symm⟩
  · intro seed member gThrid on notFirst uid there
    obtain ⟨thread, listed, here, -⟩ := holder seed member
    obtain rfl : thread.gThrid = gThrid :=
      Option.some.inj ((apart.own thread listed seed here).symm.trans on)
    obtain ⟨newest, found⟩ := newestOf thread listed
    have expanded : thread.gThrid ≠ newest.gMsgid := by
      intro same
      obtain ⟨newestMember, newestOn⟩ := newestSeed thread listed
      refine notFirst ⟨thread.newest, newestMember, newestOn, ?_, newest, found, same.symm⟩
      intro other otherSeed same
      obtain ⟨otherThread, listed', here', below⟩ := holder other otherSeed
      rw [apart.own otherThread listed' other here'] at same
      exact onlyThread otherThread listed' thread listed (Option.some.inj same) ▸ below
    exact List.mem_flatMap.mpr ⟨thread, listed, (mem_expansion found).mpr
      (mem_threadUids.mpr (.inr ⟨expanded, (searches _ _).mpr there⟩))⟩
  · rintro gThrid ⟨newestSeen, newestMember, newestOn, largest, data, known, first⟩ uid member on
    obtain ⟨thread, listed, here⟩ := List.mem_flatMap.mp member
    obtain rfl : thread.gThrid = gThrid :=
      Option.some.inj ((on_thread thread listed uid here).symm.trans on)
    obtain ⟨newest, found⟩ := newestOf thread listed
    rcases mem_threadUids.mp ((mem_expansion found).mp here) with seed | ⟨expanded, -⟩
    · exact (grouped.uids uid).mp ⟨thread, listed, seed⟩
    · -- The newest seed is the one the thread was judged by.
      exfalso
      obtain ⟨otherThread, listed', here', below⟩ := holder newestSeen newestMember
      have same : otherThread = thread := by
        rw [apart.own otherThread listed' _ here'] at newestOn
        exact onlyThread otherThread listed' thread listed (Option.some.inj newestOn)
      obtain ⟨seed, threadOn⟩ := newestSeed thread listed
      have top : newestSeen = thread.newest := Nat.le_antisymm (same ▸ below) (largest _ seed threadOn)
      rw [top, found] at known
      exact expanded (Option.some.inj known ▸ first).symm

/-- The UIDs that `expand_uids_to_download` yields. -/
theorem expandUidsToDownload_spec (searches : Searches conn threadOf) (distinct : seeds.Nodup)
    (covers : Covers threadOf metadata seeds) :
    ∃ uids last, Yields (next conn) (expandUidsToDownload seeds metadata) uids last ∧
      Exhausted (next conn) last ∧ Expanded threadOf metadata seeds uids ∧
      Steady (next conn) knownSize (expandUidsToDownload seeds metadata) := by
  have inOrder := sortedReverse_pairwise distinct
  have covered : ∀ uid ∈ sortedReverse seeds, ∃ data, metadata uid = some data := by
    intro uid member
    obtain ⟨data, known, -⟩ := covers uid (mem_sortedReverse.mp member)
    exact ⟨data, known⟩
  have none : Grouped metadata [] [] := ⟨List.nodup_nil, by simp, by simp, by simp⟩
  obtain ⟨thrids, grouping, grouped⟩ := groupSeeds_spec (sortedReverse seeds) covered inOrder none
  have grouped : Grouped metadata seeds thrids :=
    { grouped with uids := fun uid => (grouped.uids uid).trans (by simp [mem_sortedReverse]) }
  have apart := grouped.apart covers
  have known : ∀ thread ∈ thrids, ∃ newest, metadata thread.newest = some newest := by
    intro thread listed
    obtain ⟨newest, found, -⟩ := grouped.own thread listed thread.newest (by simp [Thread.uids])
    exact ⟨newest, found⟩
  obtain ⟨metadata', yields⟩ := yields_threads searches apart known
  have spent : Exhausted (next conn) ⟨metadata', .suspended [] []⟩ := ⟨_, rfl, rfl⟩
  have begins : next conn (expandUidsToDownload seeds metadata) =
      next conn ⟨metadata, .suspended [] thrids⟩ := by
    simp only [next, expandUidsToDownload, grouping]
  obtain ⟨last, yields, spent⟩ := yields.exhausts spent begins
  refine ⟨_, last, yields, spent, grouped.expanded searches covers, expansion_steady searches ?_⟩
  intro others grouping'
  rw [grouping] at grouping'
  cases grouping'
  exact apart

/-- Expansion by thread and the batches together. -/
theorem batches_hand_over_expansion (searches : Searches conn threadOf) (distinct : seeds.Nodup)
    (covers : Covers threadOf metadata seeds) (someBytes : 0 < maxBytes) (someCount : 0 < maxCount) :
    ∃ uids last, Yields (next conn) (expandUidsToDownload seeds metadata) uids last ∧
      Exhausted (next conn) last ∧ Expanded threadOf metadata seeds uids ∧
      ∀ fuel, uids.length < fuel →
        ∃ handed, batchDownloadUids conn maxBytes maxCount fuel seeds metadata = .ok (some handed) ∧
          (handed.map Batch.items).flatten = uids ∧
          ∀ batch ∈ handed, Bounded knownSize maxBytes maxCount batch := by
  obtain ⟨uids, last, yields, spent, expanded, steady⟩ := expandUidsToDownload_spec searches distinct covers
  exact ⟨uids, last, yields, spent, expanded, fun fuel enough =>
    batches_spec someBytes someCount steady yields spent enough⟩

/-- A folder with two threads, one of 1 and 4, one of 3. -/
def twoThreads : Connection where
  fetch _ uid := if uid = 1 then some ⟨10, 10, 700⟩ else if uid = 4 then some ⟨40, 10, 900⟩
    else if uid = 3 then some ⟨30, 30, 500⟩ else none
  search gThrid := if gThrid = 10 then [1, 4] else if gThrid = 30 then [3] else []

theorem twoThreads_hand_over : ∃ uids last,
    Yields (next twoThreads) (expandUidsToDownload [3, 4] (twoThreads.fetch .all)) uids last ∧
      Exhausted (next twoThreads) last ∧
      Expanded (fun uid => (twoThreads.fetch .all uid).map GMetadata.gThrid) (twoThreads.fetch .all)
        [3, 4] uids ∧
      ∀ fuel, uids.length < fuel → ∃ handed,
        batchDownloadUids twoThreads maxDownloadBytes maxDownloadCount fuel [3, 4] (twoThreads.fetch .all) =
          .ok (some handed) ∧ (handed.map Batch.items).flatten = uids ∧
          ∀ batch ∈ handed, Bounded knownSize maxDownloadBytes maxDownloadCount batch := by
  have searches : Searches twoThreads fun uid => (twoThreads.fetch .all uid).map GMetadata.gThrid := by
    intro gThrid uid
    rw [expandThread, mem_sortedReverse]
    simp only [twoThreads]
    grind
  refine batches_hand_over_expansion searches (by decide) ?_ (by decide) (by decide)
  intro seed member
  rcases List.mem_cons.mp member with rfl | member
  · exact ⟨⟨30, 30, 500⟩, rfl, rfl⟩
  · obtain rfl := List.mem_singleton.mp member
    exact ⟨⟨40, 10, 900⟩, rfl, rfl⟩
end

end SyncEngine.ThreadExpansion
