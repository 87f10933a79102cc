import Mathlib.Data.List.Perm.Subperm
import SyncEngine.Mailsync.ThreadExpansion
import SyncEngine.Util.Itert

/-! `GmailFolderSyncEngine.initial_sync_impl` without a change poller: the unknown UIDs of a folder in
chunks, each of them expanded by thread and downloaded. -/
namespace SyncEngine.GmailInitialSync

open Batching ThreadExpansion

/-- The selected folder: the ids and sizes of its messages, and the UIDs at each time. Messages come
and go, but a UID that is gone does not come back. -/
structure Mailbox where
  data : Nat → GMetadata
  uids : (time : Nat) → List Nat
  stays : ∀ uid ∈ uids 0, ∀ ⦃earlier later⦄, earlier ≤ later → uid ∈ uids later → uid ∈ uids earlier

def asksFor : SeqSet → Nat → Bool
  | .uids listed, uid => uid ∈ listed
  | .all, _ => true

def Mailbox.conn (box : Mailbox) (time : Nat) : Connection where
  fetch set uid := if uid ∈ box.uids time ∧ asksFor set uid then some (box.data uid) else none
  search gThrid := (box.uids time).filter fun uid => (box.data uid).gThrid = gThrid

/-- The thread of a UID in the folder. -/
def Mailbox.threadOf (box : Mailbox) (time uid : Nat) : Option Nat :=
  if uid ∈ box.uids time then some (box.data uid).gThrid else none

/-- What `saved_uids` may contain. A row is not equal to its UID. -/
inductive Member
  | uid (uid : Nat)
  | imapUid (msgUid : Nat)
deriving DecidableEq

/-- A message with its UIDs in this folder. -/
structure Message where
  gMsgid : Nat
  imapuids : List Nat

structure Engine where
  messages : List Message
  savedUids : List Member

def localUids (messages : List Message) : List Nat := messages.flatMap Message.imapuids

def removeDeletedUids (remoteUids : List Nat) (messages : List Message) : List Message :=
  messages.map fun message => { message with imapuids := message.imapuids.filter (· ∈ remoteUids) }

/-- Another UID for the first message with this id. -/
def addUid (gMsgid uid : Nat) : List Message → List Message
  | [] => []
  | message :: messages =>
    if message.gMsgid = gMsgid then
      (if uid ∈ message.imapuids then message
        else { message with imapuids := message.imapuids ++ [uid] }) :: messages
    else message :: addUid gMsgid uid messages

def createMessage (gMsgid uid : Nat) (messages : List Message) : Option (List Message) :=
  if uid ∈ localUids messages then none else some (messages ++ [⟨gMsgid, [uid]⟩])

section
variable (box : Mailbox)

/-- The messages that have to be created, after known messages got their new UIDs. -/
def deduplicateMessageObjectCreation (messages : List Message) (rawMessages : List Nat) :
    List Message × List Nat :=
  let existing := messages.map Message.gMsgid
  let known := rawMessages.filter fun uid => (box.data uid).gMsgid ∈ existing
  (known.foldl (fun messages uid => addUid (box.data uid).gMsgid uid messages) messages,
    rawMessages.filter fun uid => (box.data uid).gMsgid ∉ existing)

def createMessages : List Nat → List Message × List Member → List Message × List Member
  | [], done => done
  | uid :: rawMessages, (messages, newUids) =>
    match createMessage (box.data uid).gMsgid uid messages with
    | none => createMessages rawMessages (messages, newUids)
    | some messages => createMessages rawMessages (messages, newUids ++ [.imapUid uid])

def downloadAndCommitUids (time : Nat) (engine : Engine) (uids : List Nat) : Engine :=
  let rawMessages := (uids.filter (· ∈ box.uids time)).mergeSort (· ≤ ·)
  if rawMessages = [] then engine
  else
    let (messages, rawMessages) := deduplicateMessageObjectCreation box engine.messages rawMessages
    if rawMessages = [] then { engine with messages }
    else
      let (messages, newUids) := createMessages box rawMessages (messages, [])
      { messages, savedUids := engine.savedUids ++ newUids }

/-- What happened to a chunk: the UIDs that were not left out, those that were passed to
`download_and_commit_uids`, and the local UIDs after it. -/
structure ChunkRun where
  seeds : List Nat
  passed : List Nat
  imapuids : List Nat

/-- The generator ends, since it yields UIDs of the folder without repetition. -/
def syncChunk (time : Nat) (engine : Engine) (uids : List Nat) :
    Except KeyError (Option (ChunkRun × Engine)) :=
  let metadata := gMetadata (box.conn time) uids
  let seeds := uids.filter fun uid => (metadata uid).isSome ∧ Member.uid uid ∉ engine.savedUids
  match batchDownloadUids (box.conn time) maxDownloadBytes maxDownloadCount ((box.uids time).length + 1)
      seeds metadata with
  | .error failure => .error failure
  | .ok none => .ok none
  | .ok (some handed) =>
    let engine := (handed.map Batch.items).foldl (downloadAndCommitUids box time) engine
    .ok (some (⟨seeds, (handed.map Batch.items).flatten, localUids engine.messages⟩, engine))

def syncChunks : (time : Nat) → Engine → List (List Nat) → Except KeyError (Option (List ChunkRun))
  | _, _, [] => .ok (some [])
  | time, engine, uids :: chunks =>
    match syncChunk box time engine uids with
    | .error failure => .error failure
    | .ok none => .ok none
    | .ok (some (run, engine)) =>
      match syncChunks (time + 1) engine chunks with
      | .error failure => .error failure
      | .ok runs => .ok (runs.map (run :: ·))

/-- For all mail the UIDs of the inbox come last, and therefore first when they are reversed. -/
def uidsToDownload (unknownUids : List Nat) (inboxUids : Option (List Nat)) : List Nat :=
  match inboxUids with
  | some inboxUids =>
    (unknownUids.filter (· ∉ inboxUids)).mergeSort (· ≤ ·) ++
      (unknownUids.filter (· ∈ inboxUids)).mergeSort (· ≤ ·)
  | none => unknownUids.mergeSort (· ≤ ·)

/-- The chunks in which the unknown UIDs are downloaded. -/
def uidChunks (engine : Engine) (inboxUids : Option (List Nat)) : List (List Nat) :=
  let localUids := localUids engine.messages
  let unknownUids := (box.uids 0).dedup.filter (· ∉ localUids)
  chunk (uidsToDownload unknownUids inboxUids).reverse 1024

/-- The folder is listed at time 0, and each chunk has a time of its own. -/
def initialSyncImpl (engine : Engine) (inboxUids : Option (List Nat)) :
    Except KeyError (Option (List ChunkRun)) :=
  let messages := removeDeletedUids (box.uids 0) engine.messages
  syncChunks box 1 { engine with messages } (uidChunks box engine inboxUids)
end

/-! ## What is saved -/

section
variable {box : Mailbox}

theorem mem_localUids_addUid {messages : List Message} (member : other ∈ localUids messages) :
    other ∈ localUids (addUid gMsgid uid messages) := by
  induction messages with
  | nil => contradiction
  | cons message messages ih =>
    simp only [localUids, List.flatMap_cons, List.mem_append] at member ⊢
    unfold addUid
    split
    · split
      · simpa using member
      · rcases member with member | member <;> simp [member]
    · simp only [List.flatMap_cons, List.mem_append]
      exact member.imp_right ih

theorem addUid_saves {messages : List Message} (known : gMsgid ∈ messages.map Message.gMsgid) :
    uid ∈ localUids (addUid gMsgid uid messages) := by
  induction messages with
  | nil => contradiction
  | cons message messages ih =>
    unfold addUid
    split
    next =>
      by_cases already : uid ∈ message.imapuids
      · simp [localUids, already]
      · simp [localUids, already]
    next other =>
      rw [List.map_cons, List.mem_cons] at known
      have later := ih (known.resolve_left (Ne.symm other))
      simp only [localUids, List.flatMap_cons, List.mem_append]
      exact .inr later

theorem addUid_gMsgid (gMsgid uid : Nat) (messages : List Message) :
    (addUid gMsgid uid messages).map Message.gMsgid = messages.map Message.gMsgid := by
  induction messages with
  | nil => rfl
  | cons message messages ih =>
    unfold addUid
    split
    · split <;> rfl
    · rw [List.map_cons, List.map_cons, ih]

/-- UIDs for known messages. -/
theorem foldl_addUid (rawMessages : List Nat) (messages : List Message)
    (known : ∀ uid ∈ rawMessages, (box.data uid).gMsgid ∈ messages.map Message.gMsgid) :
    ∀ uid, uid ∈ localUids messages ∨ uid ∈ rawMessages →
      uid ∈ localUids
        (rawMessages.foldl (fun messages uid => addUid (box.data uid).gMsgid uid messages) messages) := by
  induction rawMessages generalizing messages with
  | nil => simp
  | cons first rawMessages ih =>
    intro uid member
    rw [List.foldl_cons]
    refine ih (addUid (box.data first).gMsgid first messages) ?_ uid ?_
    · intro other later
      rw [addUid_gMsgid]
      exact known other (by simp [later])
    · rcases member with member | member
      · exact .inl (mem_localUids_addUid member)
      · rcases List.mem_cons.mp member with rfl | later
        · exact .inl (addUid_saves (known uid (by simp)))
        · exact .inr later

theorem createMessages_spec (rawMessages : List Nat) (done : List Message × List Member)
    (rows : ∀ member ∈ done.2, ∃ uid, member = .imapUid uid) :
    (∀ uid, uid ∈ localUids done.1 ∨ uid ∈ rawMessages →
      uid ∈ localUids (createMessages box rawMessages done).1) ∧
    ∀ member ∈ (createMessages box rawMessages done).2, ∃ uid, member = .imapUid uid := by
  induction rawMessages generalizing done with
  | nil => exact ⟨by simp [createMessages], rows⟩
  | cons first rawMessages ih =>
    obtain ⟨messages, newUids⟩ := done
    by_cases already : first ∈ localUids messages
    · have skipped : createMessages box (first :: rawMessages) (messages, newUids) =
          createMessages box rawMessages (messages, newUids) := by
        rw [createMessages, createMessage, if_pos already]
      rw [skipped]
      obtain ⟨saved, rows⟩ := ih _ rows
      refine ⟨fun uid member => saved uid ?_, rows⟩
      rcases member with member | member
      · exact .inl member
      · rcases List.mem_cons.mp member with rfl | later
        · exact .inl already
        · exact .inr later
    · have created : createMessages box (first :: rawMessages) (messages, newUids) =
          createMessages box rawMessages
            (messages ++ [⟨(box.data first).gMsgid, [first]⟩], newUids ++ [.imapUid first]) := by
        rw [createMessages, createMessage, if_neg already]
      rw [created]
      have more : ∀ member ∈ newUids ++ [.imapUid first], ∃ uid, member = .imapUid uid := by
        intro member listed
        rcases List.mem_append.mp listed with old | new
        · exact rows member old
        · exact ⟨first, List.mem_singleton.mp new⟩
      obtain ⟨saved, rows⟩ :=
        ih (messages ++ [⟨(box.data first).gMsgid, [first]⟩], newUids ++ [.imapUid first]) more
      refine ⟨fun uid member => saved uid ?_, rows⟩
      simp only [localUids, List.flatMap_append, List.flatMap_cons, List.flatMap_nil, List.append_nil,
        List.mem_append, List.mem_cons] at member ⊢
      tauto

/-- A message that has not got its UID yet is one to create. -/
theorem deduplicate_spec (messages : List Message) (rawMessages : List Nat) :
    (∀ uid ∈ localUids messages,
      uid ∈ localUids (deduplicateMessageObjectCreation box messages rawMessages).1) ∧
    ∀ uid ∈ rawMessages, uid ∈ localUids (deduplicateMessageObjectCreation box messages rawMessages).1 ∨
      uid ∈ (deduplicateMessageObjectCreation box messages rawMessages).2 := by
  have known := foldl_addUid
    (rawMessages.filter fun uid => (box.data uid).gMsgid ∈ messages.map Message.gMsgid)
    messages fun uid member => by simpa using (List.mem_filter.mp member).2
  refine ⟨fun uid member => known uid (.inl member), fun uid member => ?_⟩
  by_cases existing : (box.data uid).gMsgid ∈ messages.map Message.gMsgid
  · exact .inl (known uid (.inr (List.mem_filter.mpr ⟨member, by simpa using existing⟩)))
  · exact .inr (List.mem_filter.mpr ⟨member, by simpa using existing⟩)

/-- `saved_uids` only ever gets rows. -/
def RowsOnly (engine : Engine) : Prop := ∀ member ∈ engine.savedUids, ∃ uid, member = .imapUid uid

theorem downloadAndCommitUids_spec (engine : Engine) (rows : RowsOnly engine) (time : Nat) (uids : List Nat) :
    RowsOnly (downloadAndCommitUids box time engine uids) ∧
    ∀ uid, uid ∈ localUids engine.messages ∨ uid ∈ uids ∧ uid ∈ box.uids time →
      uid ∈ localUids (downloadAndCommitUids box time engine uids).messages := by
  have raw : ∀ uid, uid ∈ (uids.filter (· ∈ box.uids time)).mergeSort (· ≤ ·) ↔
      uid ∈ uids ∧ uid ∈ box.uids time := by
    intro uid
    rw [(List.mergeSort_perm _ _).mem_iff, List.mem_filter, decide_eq_true_eq]
  unfold downloadAndCommitUids
  simp only [← raw]
  generalize (uids.filter (· ∈ box.uids time)).mergeSort (· ≤ ·) = rawMessages
  by_cases nothing : rawMessages = []
  · rw [if_pos nothing]
    subst nothing
    exact ⟨rows, by simp⟩
  rw [if_neg nothing]
  obtain ⟨kept, missing⟩ := deduplicate_spec engine.messages rawMessages
  generalize deduplicateMessageObjectCreation box engine.messages rawMessages = result at kept missing ⊢
  obtain ⟨messages, created⟩ := result
  by_cases none : created = []
  · simp only [if_pos none]
    subst none
    refine ⟨rows, fun uid member => ?_⟩
    rcases member with old | member
    · exact kept uid old
    · simpa using missing uid member
  · simp only [if_neg none]
    obtain ⟨saved, newRows⟩ := createMessages_spec created (messages, []) (by simp)
    refine ⟨?_, fun uid member => saved uid ?_⟩
    · intro member listed
      rcases List.mem_append.mp listed with old | new
      · exact rows member old
      · exact newRows member new
    · rcases member with old | member
      · exact .inl (kept uid old)
      · exact missing uid member

theorem foldl_download_spec (batches : List (List Nat)) (engine : Engine) (rows : RowsOnly engine)
    (time : Nat) :
    RowsOnly (batches.foldl (downloadAndCommitUids box time) engine) ∧
    ∀ uid, uid ∈ localUids engine.messages ∨ uid ∈ batches.flatten ∧ uid ∈ box.uids time →
      uid ∈ localUids (batches.foldl (downloadAndCommitUids box time) engine).messages := by
  induction batches generalizing engine with
  | nil => exact ⟨rows, by simp⟩
  | cons batch batches ih =>
    obtain ⟨rows, first⟩ := downloadAndCommitUids_spec engine rows time batch
    obtain ⟨rows, later⟩ := ih _ rows
    refine ⟨rows, fun uid member => later uid ?_⟩
    rcases member with old | ⟨member, there⟩
    · exact .inl (first uid (.inl old))
    · rw [List.flatten_cons, List.mem_append] at member
      rcases member with member | member
      · exact .inl (first uid (.inr ⟨member, there⟩))
      · exact .inr ⟨member, there⟩

/-! ## One chunk -/

/-- The UIDs of a chunk that are in the folder when its turn comes. -/
def seedsOf (box : Mailbox) (time : Nat) (uids : List Nat) : List Nat := uids.filter (· ∈ box.uids time)

theorem mem_seedsOf : uid ∈ seedsOf box time uids ↔ uid ∈ uids ∧ uid ∈ box.uids time := by
  rw [seedsOf, List.mem_filter, decide_eq_true_eq]

theorem threadOf_eq_some : box.threadOf time uid = some gThrid ↔
    uid ∈ box.uids time ∧ (box.data uid).gThrid = gThrid := by
  unfold Mailbox.threadOf
  split
  next there => simp [there]
  next gone => simp [gone]

theorem searches (box : Mailbox) (time : Nat) : Searches (box.conn time) (box.threadOf time) := by
  intro gThrid uid
  rw [expandThread, mem_sortedReverse, threadOf_eq_some]
  simp only [Mailbox.conn, List.mem_filter, decide_eq_true_eq]

theorem gMetadata_conn (box : Mailbox) (time : Nat) (uids : List Nat) (uid : Nat) :
    gMetadata (box.conn time) uids uid =
      if uid ∈ seedsOf box time uids then some (box.data uid) else none := by
  simp only [gMetadata, Mailbox.conn, mem_seedsOf]
  by_cases asked : uid ∈ uids
  · have answered : asksFor (if uids.length < 1000000 then .uids uids else .all) uid = true := by
      split <;> simp [asksFor, asked]
    simp [asked, answered]
  · simp [asked]

theorem covers (box : Mailbox) (time : Nat) (uids : List Nat) :
    Covers (box.threadOf time) (gMetadata (box.conn time) uids) (seedsOf box time uids) := by
  intro seed member
  refine ⟨box.data seed, by rw [gMetadata_conn, if_pos member], ?_⟩
  exact threadOf_eq_some.mpr ⟨(mem_seedsOf.mp member).2, rfl⟩

/-- How a chunk goes at its time. -/
structure ChunkRun.Follows (box : Mailbox) (chunk : List Nat × Nat) (run : ChunkRun) : Prop where
  seeds : run.seeds = seedsOf box chunk.2 chunk.1
  expanded : Expanded (box.threadOf chunk.2) (gMetadata (box.conn chunk.2) chunk.1) run.seeds run.passed
  saved : ∀ uid ∈ run.passed, uid ∈ run.imapuids

/-- No UID is left out because of `saved_uids`, which contains rows. -/
theorem kept_seeds (rows : RowsOnly engine) (time : Nat) (uids : List Nat) :
    (uids.filter fun uid => (gMetadata (box.conn time) uids uid).isSome ∧ Member.uid uid ∉ engine.savedUids) =
      seedsOf box time uids := by
  apply List.filter_congr
  intro uid member
  have notSaved : Member.uid uid ∉ engine.savedUids := by
    intro listed
    obtain ⟨_, impossible⟩ := rows _ listed
    cases impossible
  rw [gMetadata_conn, decide_eq_decide]
  by_cases there : uid ∈ box.uids time <;> simp [mem_seedsOf, member, there, notSaved]

theorem syncChunk_spec (rows : RowsOnly engine) (distinct : uids.Nodup) (time : Nat) :
    ∃ run engine', syncChunk box time engine uids = .ok (some (run, engine')) ∧
      run.Follows box (uids, time) ∧ RowsOnly engine' := by
  obtain ⟨passed, last, yields, spent, expanded, steady⟩ :=
    expandUidsToDownload_spec (searches box time) (distinct.filter _) (covers box time uids)
  have there : ∀ uid ∈ passed, uid ∈ box.uids time := by
    intro uid member
    obtain ⟨seed, seedMember, same⟩ := expanded.onThreads uid member
    rw [threadOf_eq_some.mpr ⟨(mem_seedsOf.mp seedMember).2, rfl⟩] at same
    exact (threadOf_eq_some.mp same).1
  have few : passed.length ≤ (box.uids time).length :=
    (expanded.distinct.subperm there).length_le
  have someBytes : 0 < maxDownloadBytes := Nat.two_pow_pos 20
  have someCount : 0 < maxDownloadCount := Nat.one_pos
  have enough : passed.length < (box.uids time).length + 1 := Nat.lt_succ_of_le few
  obtain ⟨handed, batched, rfl, -⟩ := batches_spec someBytes someCount steady yields spent enough
  obtain ⟨rows', saved⟩ := foldl_download_spec (handed.map Batch.items) engine rows time
  refine ⟨⟨seedsOf box time uids, (handed.map Batch.items).flatten,
    localUids ((handed.map Batch.items).foldl (downloadAndCommitUids box time) engine).messages⟩, _, ?_,
    ⟨rfl, expanded, fun uid member => saved uid (.inr ⟨member, there uid member⟩)⟩, rows'⟩
  unfold syncChunk
  simp only [kept_seeds rows, batchDownloadUids]
  simp only [seedsOf] at batched ⊢
  rw [batched]

/-! ## All chunks -/

theorem syncChunks_spec (rows : RowsOnly engine) {chunks : List (List Nat)}
    (distinct : ∀ uids ∈ chunks, uids.Nodup) (time : Nat) :
    ∃ runs, syncChunks box time engine chunks = .ok (some runs) ∧
      List.Forall₂ (fun chunk run => run.Follows box chunk) (chunks.zipIdx time) runs := by
  induction chunks generalizing engine time with
  | nil => exact ⟨[], rfl, .nil⟩
  | cons uids chunks ih =>
    obtain ⟨run, engine', synced, follows, rows⟩ :=
      syncChunk_spec rows (distinct uids (by simp)) time
    obtain ⟨runs, later, all⟩ := ih rows (fun uids member => distinct uids (by simp [member])) (time + 1)
    refine ⟨run :: runs, ?_, .cons follows all⟩
    simp only [syncChunks, synced, later, Option.map_some]

/-- What an earlier chunk saved beyond its own UIDs is not passed again by a later chunk. -/
def NoRepeat (earlier later : ChunkRun) : Prop :=
  ∀ uid ∈ earlier.passed, uid ∉ earlier.seeds → uid ∈ earlier.imapuids → uid ∉ later.passed

/-- The newest UID of the chunk on a thread is the first message of the thread. -/
def NewestIsFirst (box : Mailbox) (chunk : List Nat × Nat) (gThrid : Nat) : Prop :=
  ∃ newest ∈ seedsOf box chunk.2 chunk.1, (box.data newest).gThrid = gThrid ∧
    (∀ seed ∈ seedsOf box chunk.2 chunk.1, (box.data seed).gThrid = gThrid → seed ≤ newest) ∧
    (box.data newest).gMsgid = gThrid

/-- A thread that has UIDs in both chunks is not expanded by the earlier one. -/
def ThreadsApart (box : Mailbox) (earlier later : List Nat × Nat) : Prop :=
  ∀ first ∈ seedsOf box earlier.2 earlier.1, ∀ second ∈ seedsOf box later.2 later.1,
    (box.data first).gThrid = (box.data second).gThrid →
      NewestIsFirst box earlier (box.data first).gThrid

theorem seededByFirst_iff : SeededByFirst (box.threadOf time) (gMetadata (box.conn time) uids)
    (seedsOf box time uids) gThrid ↔ NewestIsFirst box (uids, time) gThrid := by
  have on : ∀ seed ∈ seedsOf box time uids,
      (box.threadOf time seed = some gThrid ↔ (box.data seed).gThrid = gThrid) := by
    intro seed member
    rw [threadOf_eq_some, and_iff_right (mem_seedsOf.mp member).2]
  constructor
  · rintro ⟨newest, member, there, largest, data, known, first⟩
    rw [gMetadata_conn, if_pos member] at known
    refine ⟨newest, member, (on newest member).mp there, ?_, Option.some.inj known ▸ first⟩
    exact fun seed seedMember same => largest seed seedMember ((on seed seedMember).mpr same)
  · rintro ⟨newest, member, there, largest, first⟩
    refine ⟨newest, member, (on newest member).mpr there, ?_, box.data newest, ?_, first⟩
    · exact fun seed seedMember same => largest seed seedMember ((on seed seedMember).mp same)
    · rw [gMetadata_conn, if_pos member]

/-- The chunks have no UID in common, and were in the folder when it was listed. -/
structure Ordered (box : Mailbox) (earlier later : List Nat × Nat) : Prop where
  times : earlier.2 ≤ later.2
  disjoint : ∀ uid ∈ later.1, uid ∉ earlier.1
  listed : ∀ uid ∈ later.1, uid ∈ box.uids 0

theorem noRepeat_iff {chunk chunk' : List Nat × Nat} {earlier later : ChunkRun}
    (ordered : Ordered box chunk chunk')
    (first : earlier.Follows box chunk) (second : later.Follows box chunk') :
    ThreadsApart box chunk chunk' ↔ NoRepeat earlier later := by
  obtain ⟨seeds, expanded, saved⟩ := first
  obtain ⟨seeds', expanded', -⟩ := second
  rw [seeds] at expanded
  rw [seeds'] at expanded'
  constructor
  · intro apart uid member notSeed _ again
    rw [seeds] at notSeed
    obtain ⟨seed, seedMember, same⟩ := expanded.onThreads uid member
    obtain ⟨seed', seedMember', same'⟩ := expanded'.onThreads uid again
    have thread : box.threadOf chunk.2 seed = some (box.data seed).gThrid :=
      threadOf_eq_some.mpr ⟨(mem_seedsOf.mp seedMember).2, rfl⟩
    have thread' : box.threadOf chunk'.2 seed' = some (box.data seed').gThrid :=
      threadOf_eq_some.mpr ⟨(mem_seedsOf.mp seedMember').2, rfl⟩
    have on := (threadOf_eq_some.mp (same.trans thread)).2
    have on' := (threadOf_eq_some.mp (same'.trans thread')).2
    have newest := apart seed seedMember seed' seedMember' (on.symm.trans on')
    exact notSeed (expanded.seedsOnly _ (seededByFirst_iff.mpr newest) uid member (same.trans thread))
  · intro noRepeat seed seedMember seed' seedMember' same
    by_contra expands
    obtain ⟨inChunk, there⟩ := mem_seedsOf.mp seedMember'
    have before := box.stays seed' (ordered.listed seed' inChunk) ordered.times there
    have notSeed : seed' ∉ seedsOf box chunk.2 chunk.1 :=
      fun member => ordered.disjoint seed' inChunk (mem_seedsOf.mp member).1
    have passed : seed' ∈ earlier.passed :=
      expanded.wholeThreads seed seedMember _ (threadOf_eq_some.mpr ⟨(mem_seedsOf.mp seedMember).2, rfl⟩)
        (fun first => expands (seededByFirst_iff.mp first)) seed' (threadOf_eq_some.mpr ⟨before, same.symm⟩)
    exact noRepeat seed' passed (seeds ▸ notSeed) (saved seed' passed) (expanded'.everySeed seed' seedMember')

theorem zipIdx_ordered {chunks : List (List Nat)} (distinct : chunks.flatten.Nodup)
    (listed : ∀ uid ∈ chunks.flatten, uid ∈ box.uids 0) (time : Nat) :
    (chunks.zipIdx time).Pairwise (Ordered box) := by
  induction chunks generalizing time with
  | nil => exact .nil
  | cons uids chunks ih =>
    rw [List.flatten_cons] at distinct listed
    obtain ⟨-, rest, differ⟩ := List.nodup_append.mp distinct
    rw [List.zipIdx_cons, List.pairwise_cons]
    refine ⟨?_, ih rest (fun uid member => listed uid (List.mem_append_right _ member)) (time + 1)⟩
    rintro ⟨others, index⟩ member
    have inside : others ∈ chunks := List.fst_mem_of_mem_zipIdx member
    have after : time + 1 ≤ index := List.le_snd_of_mem_zipIdx member
    refine ⟨Nat.le_of_succ_le after, ?_, ?_⟩
    · intro uid here there
      exact differ uid there uid (List.mem_flatten.mpr ⟨others, inside, here⟩) rfl
    · intro uid here
      exact listed uid (List.mem_append_right _ (List.mem_flatten.mpr ⟨others, inside, here⟩))

theorem uidsToDownload_spec {unknownUids : List Nat} (distinct : unknownUids.Nodup)
    (inboxUids : Option (List Nat)) : (uidsToDownload unknownUids inboxUids).Nodup ∧
      ∀ uid, uid ∈ uidsToDownload unknownUids inboxUids ↔ uid ∈ unknownUids := by
  cases inboxUids with
  | none =>
    have reordered := List.mergeSort_perm unknownUids fun a b => decide (a ≤ b)
    exact ⟨reordered.nodup_iff.mpr distinct, fun uid => reordered.mem_iff⟩
  | some inboxUids =>
    have outside := List.mergeSort_perm (unknownUids.filter (· ∉ inboxUids)) fun a b => decide (a ≤ b)
    have inside := List.mergeSort_perm (unknownUids.filter (· ∈ inboxUids)) fun a b => decide (a ≤ b)
    refine ⟨?_, ?_⟩
    · rw [uidsToDownload, List.nodup_append]
      refine ⟨outside.nodup_iff.mpr (distinct.filter _), inside.nodup_iff.mpr (distinct.filter _), ?_⟩
      rintro uid member _ member' rfl
      have notListed := (List.mem_filter.mp (outside.mem_iff.mp member)).2
      have listed := (List.mem_filter.mp (inside.mem_iff.mp member')).2
      simp at notListed listed
      exact notListed listed
    · intro uid
      rw [uidsToDownload, List.mem_append, outside.mem_iff, inside.mem_iff, List.mem_filter, List.mem_filter,
        decide_eq_true_eq, decide_eq_true_eq, ← and_or_left]
      exact and_iff_left (Classical.em _).symm

theorem uidChunks_spec (box : Mailbox) (engine : Engine) (inboxUids : Option (List Nat)) :
    (uidChunks box engine inboxUids).flatten.Nodup ∧
      ∀ uid ∈ (uidChunks box engine inboxUids).flatten, uid ∈ box.uids 0 := by
  rw [uidChunks, chunk_flatten (by decide)]
  have unknown : ((box.uids 0).dedup.filter (· ∉ localUids engine.messages)).Nodup :=
    (List.nodup_dedup _).filter _
  obtain ⟨distinct, same⟩ := uidsToDownload_spec unknown inboxUids
  refine ⟨List.nodup_reverse.mpr distinct, fun uid member => ?_⟩
  have listed := (same uid).mp (List.mem_reverse.mp member)
  exact List.mem_dedup.mp (List.mem_filter.mp listed).1

theorem initialSync_runs (box : Mailbox) (engine : Engine) (rows : RowsOnly engine)
    (inboxUids : Option (List Nat)) :
    ∃ runs, initialSyncImpl box engine inboxUids = .ok (some runs) ∧
      List.Forall₂ (fun chunk run => run.Follows box chunk)
        ((uidChunks box engine inboxUids).zipIdx 1) runs := by
  have rows : RowsOnly { engine with messages := removeDeletedUids (box.uids 0) engine.messages } := rows
  obtain ⟨distinct, -⟩ := uidChunks_spec box engine inboxUids
  have each : ∀ uids ∈ uidChunks box engine inboxUids, uids.Nodup :=
    fun uids member => (List.nodup_flatten.mp distinct).1 uids member
  exact syncChunks_spec rows each 1

/-- A call downloads no UID twice exactly when no thread with UIDs in two chunks is expanded by the
earlier of them. -/
theorem initialSync_noRepeat_iff (box : Mailbox) (engine : Engine) (rows : RowsOnly engine)
    (inboxUids : Option (List Nat)) :
    ∃ runs, initialSyncImpl box engine inboxUids = .ok (some runs) ∧
      (runs.Pairwise NoRepeat ↔ ((uidChunks box engine inboxUids).zipIdx 1).Pairwise (ThreadsApart box)) := by
  obtain ⟨distinct, listed⟩ := uidChunks_spec box engine inboxUids
  obtain ⟨runs, synced, follows⟩ := initialSync_runs box engine rows inboxUids
  refine ⟨runs, synced, ?_⟩
  refine (pairwise_iff_of_forall₂ follows (zipIdx_ordered distinct listed 1) ?_).symm
  intro chunk chunk' earlier later first second ordered
  exact noRepeat_iff ordered first second

/-- 1025 new messages, of which the first and the last are a thread. -/
def spanning : Mailbox where
  data uid := if uid = 1025 then ⟨1025, 1, 10⟩ else ⟨uid, uid, 10⟩
  uids _ := List.range' 1 1025
  stays _ _ _ _ _ member := member

theorem spanning_last : spanning.data 1025 = ⟨1025, 1, 10⟩ := by simp [spanning]

theorem spanning_other (other : uid ≠ 1025) : spanning.data uid = ⟨uid, uid, 10⟩ := by
  simp [spanning, other]

theorem spanning_noRepeat_iff : ∃ runs, initialSyncImpl spanning ⟨[], []⟩ none = .ok (some runs) ∧
    (runs.Pairwise NoRepeat ↔
      ((uidChunks spanning ⟨[], []⟩ none).zipIdx 1).Pairwise (ThreadsApart spanning)) :=
  initialSync_noRepeat_iff spanning ⟨[], []⟩ (by simp [RowsOnly]) none

theorem spanning_chunks :
    uidChunks spanning ⟨[], []⟩ none = [(List.range' 2 1024).reverse, [1]] := by
  have sorted : (List.range' 1 1025).Pairwise fun a b => decide (a ≤ b) = true := by
    have strict : (List.range' 1 1025).Pairwise (· < ·) := List.pairwise_lt_range' 1
    exact strict.imp fun less => decide_eq_true (Nat.le_of_lt less)
  have unknown : (List.range' 1 1025).dedup.filter (· ∉ localUids []) = List.range' 1 1025 := by
    rw [List.dedup_eq_self.mpr List.nodup_range', List.filter_eq_self]
    simp [localUids]
  have chunks : uidChunks spanning ⟨[], []⟩ none =
      chunk (((List.range' 1 1025).dedup.filter (· ∉ localUids [])).mergeSort (· ≤ ·)).reverse 1024 := rfl
  rw [chunks, unknown, List.mergeSort_of_pairwise sorted, List.range'_succ, List.reverse_cons]
  exact chunk_concat (by rw [List.length_reverse, List.length_range']) (by decide) 1

theorem spanning_downloads_twice :
    ∃ runs, initialSyncImpl spanning ⟨[], []⟩ none = .ok (some runs) ∧ ¬ runs.Pairwise NoRepeat := by
  obtain ⟨runs, synced, follows⟩ := initialSync_runs spanning ⟨[], []⟩ (by simp [RowsOnly]) none
  obtain ⟨distinct, listed⟩ := uidChunks_spec spanning ⟨[], []⟩ none
  have ordered := zipIdx_ordered distinct listed 1
  refine ⟨runs, synced, fun never => ?_⟩
  have apart := (pairwise_iff_of_forall₂ follows ordered
    fun _ _ _ _ first second ordered => noRepeat_iff ordered first second).mpr never
  have inside : ∀ {uid}, uid ∈ (List.range' 2 1024).reverse ↔ 2 ≤ uid ∧ uid < 1026 := by
    intro uid
    rw [List.mem_reverse, List.mem_range'_1]
  rw [spanning_chunks, List.zipIdx_cons, List.zipIdx_cons, List.zipIdx_nil] at apart
  generalize (List.range' 2 1024).reverse = newer at apart inside
  have pair : ThreadsApart spanning (newer, 1) ([1], 2) :=
    (List.pairwise_cons.mp apart).1 ([1], 2) (List.mem_singleton.mpr rfl)
  have last : 1025 ∈ seedsOf spanning 1 newer :=
    mem_seedsOf.mpr ⟨inside.mpr (by omega), List.mem_range'_1.mpr (by omega)⟩
  have first : 1 ∈ seedsOf spanning 2 [1] := mem_seedsOf.mpr ⟨by simp, List.mem_range'_1.mpr (by omega)⟩
  obtain ⟨newest, member, thread, -, isFirst⟩ := pair 1025 last 1 first
    (by rw [spanning_last, spanning_other (by decide)])
  have two := (inside.mp (mem_seedsOf.mp member).1).1
  by_cases top : newest = 1025
  · rw [top, spanning_last] at isFirst
    exact absurd isFirst (by decide)
  · rw [spanning_other top, spanning_last] at thread
    exact absurd thread (Nat.ne_of_gt two)
end

end SyncEngine.GmailInitialSync
