import Mathlib.Data.List.Sort
import Mathlib.Data.List.ProdSigma
import SyncEngine.Util.Raising

/-! The search in an IMAP account: all folders are searched one after the other, and what they report is
looked up by UID. -/
namespace SyncEngine.ImapSearch

structure Folder where
  id : Nat
  accountId : Nat
  canonicalName : String
deriving DecidableEq

structure ImapUid where
  messageId : Nat
  accountId : Nat
  folderId : Nat
  msgUid : Nat
deriving DecidableEq

structure Message where
  id : Nat
  threadId : Nat
  receivedDate : Nat
deriving DecidableEq

structure Thread where
  id : Nat
  deletedAt : Option Nat
deriving DecidableEq

structure Db where
  folders : List Folder
  imapUids : List ImapUid
  messages : List Message
  threads : List Thread
  unique : (imapUids.map fun row => (row.folderId, row.msgUid, row.accountId)).Nodup

/-- `ORDER BY received_date DESC`. Rows of one date come in any order. -/
structure Sorting where
  sort : {Row : Type} → (Row → Message) → List Row → List Row
  perm : ∀ {Row : Type} (message : Row → Message) (rows : List Row), (sort message rows).Perm rows
  sorted : ∀ {Row : Type} (message : Row → Message) (rows : List Row),
    (sort message rows).Pairwise fun row later => (message later).receivedDate ≤ (message row).receivedDate

/-- How the search of one folder ends. Any other exception of the server ends it like `IMAP4.error`. -/
inductive Answer
  | folderMissing
  | uidInvalid
  | imapError
  | found (uids : List Nat)

inductive Exc
  | searchBackendException (httpCode : Nat)
  | notSupportedError
  | multipleResultsFound
deriving DecidableEq

/-- `_open_crispin_connection` may raise. -/
structure Server where
  connection : Except Exc Unit
  answer : Folder → Answer

def searchFolder : Answer → Except Exc (List Nat)
  | .folderMissing | .uidInvalid => .ok []
  | .imapError => .error (.searchBackendException 503)
  | .found uids => .ok uids

def oneOrNone {α : Type} : List α → Except Exc (Option α)
  | [] => .ok none
  | [found] => .ok (some found)
  | _ => .error .multipleResultsFound

/-- The folders in the order of their search: those with a special name first. -/
def searchOrder (folders : List Folder) (accountId : Nat) : Except Exc (List Folder) := do
  let accountFolders := folders.filter (·.accountId = accountId)
  let special ← ["inbox", "sent", "archive"].mapM fun cname =>
    oneOrNone (accountFolders.filter (·.canonicalName = cname))
  let special := special.filterMap id
  .ok (special ++ accountFolders.filter (·.id ∉ special.map Folder.id))

/-- What the generator yields, with the folders that it comes from, and how it ends. -/
def searchFolders (answer : Folder → Answer) : List Folder → List (Folder × List Nat) × Except Exc Unit
  | [] => ([], .ok ())
  | folder :: rest =>
    match searchFolder (answer folder) with
    | .error exc => ([], .error exc)
    | .ok uids =>
      let (yielded, ends) := searchFolders answer rest
      ((folder, uids) :: yielded, ends)

/-- `_search` -/
def search (db : Db) (accountId : Nat) (server : Server) : List (Folder × List Nat) × Except Exc Unit :=
  match server.connection, searchOrder db.folders accountId with
  | .error exc, _ | .ok _, .error exc => ([], .error exc)
  | .ok _, .ok folders => searchFolders server.answer folders

/-! ## The queries -/

def paged {Row : Type} (offset limit : Option Nat) (rows : List Row) : List Row :=
  let rows := rows.drop (offset.getD 0)
  match limit with
  | none | some 0 => rows
  | some limit => rows.take limit

/-- `Message.join(ImapUid)` with its filter. -/
def messageRows (db : Db) (accountId : Nat) (imapUids : List Nat) : List (Message × ImapUid) :=
  (db.messages.product db.imapUids).filter fun (message, row) =>
    row.messageId = message.id ∧ row.accountId = accountId ∧ row.msgUid ∈ imapUids

def threadRows (db : Db) (accountId : Nat) (imapUids : List Nat) (keeps : Thread → Bool) :
    List (Thread × Message) :=
  (db.threads.product (messageRows db accountId imapUids)).filterMap fun (thread, message, _) =>
    if keeps thread ∧ message.threadId = thread.id then some (thread, message) else none

/-- The query, whose entities are each returned once. -/
def queryMessages (sorting : Sorting) (db : Db) (accountId : Nat) (imapUids : List Nat)
    (offset limit : Option Nat) : List Message :=
  ((paged offset limit (sorting.sort Prod.fst (messageRows db accountId imapUids))).map Prod.fst).eraseDups

def queryThreads (sorting : Sorting) (db : Db) (accountId : Nat) (imapUids : List Nat) (keeps : Thread → Bool)
    (offset limit : Option Nat) : List Thread :=
  ((paged offset limit (sorting.sort Prod.snd (threadRows db accountId imapUids keeps))).map
    Prod.fst).eraseDups

section Client
variable (sorting : Sorting) (db : Db) (accountId : Nat) (server : Server)

def searchMessages (offset limit : Option Nat) : Except Exc (List Message) := do
  let (yielded, ends) := search db accountId server
  ends
  .ok (queryMessages sorting db accountId (yielded.flatMap Prod.snd) offset limit)

def searchThreads (offset limit : Option Nat) : Except Exc (List Thread) := do
  let (yielded, ends) := search db accountId server
  ends
  .ok (queryThreads sorting db accountId (yielded.flatMap Prod.snd) (·.deletedAt = none) offset limit)

/-- What is sent until the stream ends, whether it raises or not. -/
def streamMessages : List (List Message) :=
  (search db accountId server).1.map fun (_, imapUids) => queryMessages sorting db accountId imapUids none none

def streamThreads : List (List Thread) :=
  (search db accountId server).1.map fun (_, imapUids) =>
    queryThreads sorting db accountId imapUids (fun _ => true) none none

end Client

/-! ## What a search may return -/

section Property
variable (db : Db) (accountId : Nat) (server : Server)

/-- A UID of the message was reported in its own folder. -/
def Reported (message : Message) : Prop :=
  ∃ row ∈ db.imapUids, row.messageId = message.id ∧
    ∃ found ∈ (search db accountId server).1, found.1.id = row.folderId ∧ row.msgUid ∈ found.2

/-- The message has a UID that was reported in whatever folder. -/
def Collides (message : Message) : Prop :=
  ∃ row ∈ db.imapUids, row.messageId = message.id ∧ row.accountId = accountId ∧
    ∃ found ∈ (search db accountId server).1, row.msgUid ∈ found.2

def ReportedThread (thread : Thread) : Prop :=
  ∃ message ∈ db.messages, message.threadId = thread.id ∧ Reported db accountId server message

/-- All four ways to search return only what was reported. -/
structure ReturnsReported (sorting : Sorting) : Prop where
  search_messages : ∀ offset limit messages,
    searchMessages sorting db accountId server offset limit = .ok messages →
      ∀ message ∈ messages, Reported db accountId server message
  search_threads : ∀ offset limit threads,
    searchThreads sorting db accountId server offset limit = .ok threads →
      ∀ thread ∈ threads, ReportedThread db accountId server thread
  stream_messages : ∀ messages ∈ streamMessages sorting db accountId server, ∀ message ∈ messages,
    Reported db accountId server message
  stream_threads : ∀ threads ∈ streamThreads sorting db accountId server, ∀ thread ∈ threads,
    ReportedThread db accountId server thread

end Property

section Queries
variable {sorting : Sorting} {db : Db} {accountId : Nat} {server : Server} {imapUids : List Nat}

theorem mem_of_mem_paged {Row : Type} {offset limit : Option Nat} {rows : List Row} {row : Row}
    (member : row ∈ paged offset limit rows) : row ∈ rows := by
  unfold paged at member
  dsimp only at member
  split at member
  · exact List.mem_of_mem_drop member
  · exact List.mem_of_mem_drop member
  · exact List.mem_of_mem_drop (List.mem_of_mem_take member)

/-- A message and a row of its own that is asked for. -/
theorem mem_messageRows {pair : Message × ImapUid} : pair ∈ messageRows db accountId imapUids ↔
    pair.1 ∈ db.messages ∧ pair.2 ∈ db.imapUids ∧
      pair.2.messageId = pair.1.id ∧ pair.2.accountId = accountId ∧ pair.2.msgUid ∈ imapUids := by
  obtain ⟨message, row⟩ := pair
  rw [messageRows, List.mem_filter, List.pair_mem_product, decide_eq_true_eq, and_assoc]

theorem mem_threadRows {keeps : Thread → Bool} {pair : Thread × Message} :
    pair ∈ threadRows db accountId imapUids keeps ↔ pair.1 ∈ db.threads ∧ keeps pair.1 = true ∧
      pair.2.threadId = pair.1.id ∧ ∃ row, (pair.2, row) ∈ messageRows db accountId imapUids := by
  obtain ⟨thread, message⟩ := pair
  rw [threadRows, List.mem_filterMap]
  constructor
  · rintro ⟨⟨thread', message', row⟩, member, chosen⟩
    obtain ⟨stored, rows⟩ := List.pair_mem_product.mp member
    obtain ⟨⟨kept, here⟩, same⟩ := Option.ite_none_right_eq_some.mp chosen
    obtain ⟨rfl, rfl⟩ := Prod.mk.inj (Option.some.inj same)
    exact ⟨stored, kept, here, row, rows⟩
  · rintro ⟨stored, kept, here, row, rows⟩
    exact ⟨(thread, message, row), List.pair_mem_product.mpr ⟨stored, rows⟩, if_pos ⟨kept, here⟩⟩

theorem of_mem_queryMessages {offset limit : Option Nat} {message : Message}
    (member : message ∈ queryMessages sorting db accountId imapUids offset limit) :
    ∃ row, (message, row) ∈ messageRows db accountId imapUids := by
  obtain ⟨⟨message, row⟩, here, rfl⟩ := List.mem_map.mp (List.mem_eraseDups.mp member)
  exact ⟨row, (sorting.perm _ _).mem_iff.mp (mem_of_mem_paged here)⟩

theorem mem_queryMessages {message : Message} {row : ImapUid}
    (member : (message, row) ∈ messageRows db accountId imapUids) :
    message ∈ queryMessages sorting db accountId imapUids none none :=
  List.mem_eraseDups.mpr (List.mem_map_of_mem (f := Prod.fst) ((sorting.perm Prod.fst _).mem_iff.mpr member))

theorem of_mem_queryThreads {keeps : Thread → Bool} {offset limit : Option Nat} {thread : Thread}
    (member : thread ∈ queryThreads sorting db accountId imapUids keeps offset limit) :
    ∃ message row, message.threadId = thread.id ∧ (message, row) ∈ messageRows db accountId imapUids := by
  obtain ⟨⟨thread, message⟩, here, rfl⟩ := List.mem_map.mp (List.mem_eraseDups.mp member)
  obtain ⟨_, _, same, row, rows⟩ :=
    mem_threadRows.mp ((sorting.perm _ _).mem_iff.mp (mem_of_mem_paged here))
  exact ⟨message, row, same, rows⟩

/-- A row that is asked for makes its message collide. -/
theorem collides_of_rows {message : Message} {row : ImapUid}
    (member : (message, row) ∈ messageRows db accountId imapUids)
    (yielded : ∀ uid ∈ imapUids, ∃ found ∈ (search db accountId server).1, uid ∈ found.2) :
    message ∈ db.messages ∧ Collides db accountId server message := by
  obtain ⟨stored, here, same, account, named⟩ := mem_messageRows.mp member
  exact ⟨stored, row, here, same, account, yielded row.msgUid named⟩

end Queries

/-- A message with a UID that was reported somewhere has one that was reported in its own folder. -/
def Apart (db : Db) (accountId : Nat) (server : Server) : Prop :=
  ∀ message ∈ db.messages, Collides db accountId server message → Reported db accountId server message

theorem returns_reported_iff (sorting : Sorting) (db : Db) (accountId : Nat) (server : Server) :
    ReturnsReported db accountId server sorting ↔ Apart db accountId server := by
  constructor
  · rintro returns message stored ⟨row, here, same, account, found, searched, named⟩
    have rows : (message, row) ∈ messageRows db accountId found.2 :=
      mem_messageRows.mpr ⟨stored, here, same, account, named⟩
    exact returns.stream_messages _ (List.mem_map_of_mem searched) message (mem_queryMessages rows)
  · intro apart
    have all : ∀ uid ∈ (search db accountId server).1.flatMap Prod.snd,
        ∃ found ∈ (search db accountId server).1, uid ∈ found.2 := fun uid => List.mem_flatMap.mp
    have one (found) (searched : found ∈ (search db accountId server).1) :
        ∀ uid ∈ found.2, ∃ found ∈ (search db accountId server).1, uid ∈ found.2 :=
      fun uid member => ⟨found, searched, member⟩
    refine ⟨fun offset limit messages returned message member => ?_,
      fun offset limit threads returned thread member => ?_, fun messages chunk message member => ?_,
      fun threads chunk thread member => ?_⟩
    · obtain ⟨_, _, ⟨⟩⟩ := bind_ok returned
      obtain ⟨row, rows⟩ := of_mem_queryMessages member
      obtain ⟨stored, collides⟩ := collides_of_rows rows all
      exact apart message stored collides
    · obtain ⟨_, _, ⟨⟩⟩ := bind_ok returned
      obtain ⟨message, row, same, rows⟩ := of_mem_queryThreads member
      obtain ⟨stored, collides⟩ := collides_of_rows rows all
      exact ⟨message, stored, same, apart message stored collides⟩
    · obtain ⟨found, searched, rfl⟩ := List.mem_map.mp chunk
      obtain ⟨row, rows⟩ := of_mem_queryMessages member
      obtain ⟨stored, collides⟩ := collides_of_rows rows (one found searched)
      exact apart message stored collides
    · obtain ⟨found, searched, rfl⟩ := List.mem_map.mp chunk
      obtain ⟨message, row, same, rows⟩ := of_mem_queryThreads member
      obtain ⟨stored, collides⟩ := collides_of_rows rows (one found searched)
      exact ⟨message, stored, same, apart message stored collides⟩

namespace Example

/-- Rows of one date stay in their order. -/
def sorting : Sorting where
  sort message rows := rows.mergeSort fun row later => (message later).receivedDate ≤ (message row).receivedDate
  perm message rows := List.mergeSort_perm ..
  sorted message rows := by
    refine (List.pairwise_mergeSort (fun a b c first last => ?_) (fun a b => ?_) rows).imp of_decide_eq_true
    · simp only [decide_eq_true_eq] at first last ⊢
      exact Nat.le_trans last first
    · simp only [Bool.or_eq_true, decide_eq_true_eq]
      exact Nat.le_total ..

def inbox : Folder := { id := 1, accountId := 0, canonicalName := "inbox" }

def archive : Folder := { id := 2, accountId := 0, canonicalName := "archive" }

/-- Two messages with one UID in two folders. -/
def db : Db where
  folders := [inbox, archive]
  imapUids := [{ messageId := 1, accountId := 0, folderId := 1, msgUid := 7 },
    { messageId := 2, accountId := 0, folderId := 2, msgUid := 7 }]
  messages := [{ id := 1, threadId := 1, receivedDate := 0 }, { id := 2, threadId := 2, receivedDate := 0 }]
  threads := [{ id := 1, deletedAt := none }, { id := 2, deletedAt := none }]
  unique := by decide

def server : Server where
  connection := .ok ()
  answer folder := if folder = inbox then .found [7] else .found []

theorem search_eq : search db 0 server = ([(inbox, [7]), (archive, [])], .ok ()) := rfl

end Example

/-- The message in the archive is returned, and only the inbox has a match. -/
theorem returns_another_folder : ∃ (sorting : Sorting) (db : Db) (accountId : Nat) (server : Server),
    ¬ ReturnsReported db accountId server sorting := by
  refine ⟨Example.sorting, Example.db, 0, Example.server, fun returns => ?_⟩
  have rows : ({ id := 2, threadId := 2, receivedDate := 0 },
      { messageId := 2, accountId := 0, folderId := 2, msgUid := 7 }) ∈ messageRows Example.db 0 [7] := by
    decide
  have reported := returns.search_messages none none _ rfl _ (mem_queryMessages rows)
  rw [Reported, Example.search_eq] at reported
  revert reported
  decide

end SyncEngine.ImapSearch
