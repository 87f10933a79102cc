import SyncEngine.Contacts.RemoteSync
import SyncEngine.Transactions.DeltaSync
import SyncEngine.Util.Itert
import SyncEngine.Util.Runs

/-! The service that keeps the search index of contacts in step with the transaction log, beside the
commits that change contacts. Nothing here depends on how long either of them takes. -/
namespace SyncEngine.ContactIndex
open DeltaSync (Transaction)
open ContactSync (Contact)

/-! ## Documents -/

structure Row where
  id : Nat
  namespaceId : Nat
  contact : Contact
deriving DecidableEq

structure Fields where
  id : Nat
  namespaceId : Nat
  name : Unicode
  emailAddress : Unicode
  phoneNumbers : List Unicode
deriving DecidableEq

/-- What `control_chars_re` does not match. -/
def isAccepted (c : Char) : Bool :=
  c.toNat = 0x09 || c.toNat = 0x0a || c.toNat = 0x0d || (0x20 ≤ c.toNat && c.toNat ≤ 0xd7ff) ||
    (0xe000 ≤ c.toNat && c.toNat ≤ 0xfffd)

def stripNonNumeric (phoneNumber : Unicode) : Unicode :=
  phoneNumber.filter fun c => '0' ≤ c && c ≤ '9'

inductive Doc
  | add (id : Nat) (fields : Fields)
  | delete (id : Nat)
deriving DecidableEq

abbrev Index := Nat → Option Fields

/-- What the search domain does with one document. -/
def Doc.apply (index : Index) : Doc → Index
  | .add id fields => fun other => if other = id then some fields else index other
  | .delete id => fun other => if other = id then none else index other

def uploadDocuments (docs : List Doc) (index : Index) : Index := docs.foldl Doc.apply index

/-! ## The service -/

/-- Where the service is in `_index_transactions`. Each stage but the first has the pointer. -/
inductive Stage
  | stopped
  | polling (pointer : Nat)
  | loaded (pointer : Nat) (transactions : List Transaction)
  | uploaded (pointer : Nat) (transactions : List Transaction)

def Stage.pointer : Stage → Option Nat
  | .stopped => none
  | .polling pointer | .loaded pointer _ | .uploaded pointer _ => some pointer

structure World where
  rows : List Row
  log : List Transaction
  index : Index
  cursor : Option Nat
  stage : Stage

/-- A commit has the row as it leaves it, or none after a deletion. -/
inductive Event
  | commit (trx : Transaction) (row : Option Row)
  | start
  | poll
  | index
  | updatePointer
  | stop

section Service
variable (parse : Option Unicode → Option Unicode) (chunkSize : Nat)

/-- `parse` is `address.parse`, with the bare address of what it returns. -/
def cloudsearchContactRepr (row : Row) : Fields :=
  let name := row.contact.name.getD []
  let emailAddress := (parse row.contact.emailAddress).getD []
  let bad := name.any (!isAccepted ·) || emailAddress.any (!isAccepted ·)
  { id := row.id
    namespaceId := row.namespaceId
    name := if bad then name.filter isAccepted else name
    emailAddress := if bad then emailAddress.filter isAccepted else emailAddress
    phoneNumbers := row.contact.phoneNumbers.map fun p => stripNonNumeric p.number }

namespace World
variable (w : World)

def initial (index : Index) : World :=
  { rows := [], log := [], index, cursor := none, stage := .stopped }

def find (id : Nat) : Option Row := w.rows.find? (·.id = id)

/-- `max(Transaction.id)`, or 0 without transactions. -/
def maxId : Nat := (w.log.map Transaction.id).foldr max 0

/-- The contacts after a transaction. The id of a row is unique. -/
def change (trx : Transaction) (row : Option Row) : Option (List Row) :=
  if trx.objectType ≠ .contact then some w.rows
  else
    match trx.command, row with
    | .insert, some row =>
      if row.id = trx.recordId ∧ w.find row.id = none then some (w.rows ++ [row]) else none
    | .update, some row =>
      if row.id = trx.recordId ∧ w.find row.id ≠ none then
        some (w.rows.map fun old => if old.id = row.id then row else old)
      else none
    | .delete, none => some (w.rows.filter (·.id ≠ trx.recordId))
    | _, _ => none

/-- Transactions become visible in the order of their ids. -/
def commit (trx : Transaction) (row : Option Row) : Option World :=
  if w.maxId < trx.id then (w.change trx row).map fun rows => { w with rows, log := w.log ++ [trx] }
  else none

def setTransactionPointers : World :=
  { w with stage := .polling (w.cursor.getD w.maxId) }

/-- The log is in the order of ids. -/
def query (pointer : Nat) : List Transaction :=
  (w.log.filter fun trx => trx.id > pointer && trx.objectType = .contact).take chunkSize

def docs (transactions : List Transaction) : List Doc :=
  let (addTxns, deleteTxns) := transactions.partition (·.command ≠ .delete)
  let addRecordIds := addTxns.map Transaction.recordId
  let addRecords := w.rows.filter (·.id ∈ addRecordIds)
  deleteTxns.map (fun txn => .delete txn.recordId) ++
    addRecords.map fun obj => .add obj.id (cloudsearchContactRepr parse obj)

/-- A commit of the service's own changes only the cursor. It may stop at any time. -/
def step (w : World) : Event → Option World
  | .commit trx row => w.commit trx row
  | .start =>
    match w.stage with
    | .stopped => some w.setTransactionPointers
    | _ => none
  | .poll =>
    match w.stage with
    | .polling pointer =>
      match w.query chunkSize pointer with
      | [] => some w
      | transactions => some { w with stage := .loaded pointer transactions }
    | _ => none
  | .index =>
    match w.stage with
    | .loaded pointer transactions => some { w with
        index := uploadDocuments (w.docs parse transactions) w.index
        stage := .uploaded pointer transactions }
    | _ => none
  | .updatePointer =>
    match w.stage with
    | .uploaded _ transactions =>
      transactions.getLast?.map fun last => { w with cursor := some last.id, stage := .polling last.id }
    | _ => none
  | .stop => some { w with stage := .stopped }

/-- The documents of the contacts that exist. -/
def exact : Index := fun id => (w.find id).map (cloudsearchContactRepr parse)

/-- Nothing is left to index. -/
def Processed (pointer : Nat) : Prop := ∀ trx ∈ w.log, trx.objectType = .contact → trx.id ≤ pointer

/-- A service that has not run before expects a backfill. -/
def Backfilled (w : World) (event : Event) (_ : World) : Prop :=
  event = .start → w.cursor = none → w.index = w.exact parse

end World

end Service

/-! ## What an upload leaves in the index -/

theorem uploadDocuments_append (docs more : List Doc) (index : Index) :
    uploadDocuments (docs ++ more) index = uploadDocuments more (uploadDocuments docs index) :=
  List.foldl_append

theorem uploadDocuments_deletes (transactions : List Transaction) (index : Index) (id : Nat) :
    uploadDocuments (transactions.map fun txn => .delete txn.recordId) index id =
      if id ∈ transactions.map Transaction.recordId then none else index id := by
  induction transactions generalizing index with
  | nil => rfl
  | cons trx rest ih =>
    change uploadDocuments (rest.map _) (Doc.apply index (.delete trx.recordId)) id = _
    rw [ih, List.map_cons]
    by_cases later : id ∈ rest.map Transaction.recordId
    · rw [if_pos later, if_pos (List.mem_cons_of_mem _ later)]
    · simp only [List.mem_cons, later, or_false, if_false, Doc.apply]

theorem uploadDocuments_adds (repr : Row → Fields) {rows : List Row} (unique : (rows.map Row.id).Nodup)
    (index : Index) (id : Nat) :
    uploadDocuments (rows.map fun obj => .add obj.id (repr obj)) index id =
      ((rows.find? (·.id = id)).map repr).or (index id) := by
  induction rows generalizing index with
  | nil => rfl
  | cons row rest ih =>
    obtain ⟨fresh, unique⟩ := List.nodup_cons.mp unique
    change uploadDocuments (rest.map _) (Doc.apply index (.add row.id (repr row))) id = _
    rw [ih unique]
    by_cases here : row.id = id
    · subst here
      have absent : rest.find? (·.id = row.id) = none := by
        refine List.find?_eq_none.mpr fun other member same => fresh ?_
        exact of_decide_eq_true same ▸ List.mem_map_of_mem member
      simp [absent, Doc.apply]
    · simp [here, Doc.apply, Ne.symm here]

namespace World
variable {parse : Option Unicode → Option Unicode} {chunkSize : Nat} {w next : World} {id : Nat}

/-- Deletions come first, and only contacts that exist are added. -/
theorem uploadDocuments_docs (unique : (w.rows.map Row.id).Nodup) (transactions : List Transaction) (id : Nat) :
    uploadDocuments (w.docs parse transactions) w.index id =
      (if ∃ trx ∈ transactions, trx.recordId = id ∧ trx.command ≠ .delete then w.exact parse id else none).or
        (if ∃ trx ∈ transactions, trx.recordId = id ∧ trx.command = .delete then none else w.index id) := by
  have deleted : id ∈ (transactions.partition (·.command ≠ .delete)).2.map Transaction.recordId ↔
      ∃ trx ∈ transactions, trx.recordId = id ∧ trx.command = .delete := by
    simp [List.partition_eq_filter_filter, and_assoc, and_comm]
  have added : id ∈ (transactions.partition (·.command ≠ .delete)).1.map Transaction.recordId ↔
      ∃ trx ∈ transactions, trx.recordId = id ∧ trx.command ≠ .delete := by
    simp [List.partition_eq_filter_filter, and_assoc, and_comm]
  have loaded (ids : List Nat) : ((w.rows.filter (·.id ∈ ids)).find? (·.id = id)) =
      if id ∈ ids then w.find id else none := by
    rw [List.find?_filter, find]
    split
    case isTrue listed =>
      congr 1
      funext row
      by_cases same : row.id = id <;> simp [same, listed]
    case isFalse unlisted =>
      refine List.find?_eq_none.mpr fun row _ both => unlisted ?_
      obtain ⟨listed, same⟩ := of_decide_eq_true both
      exact of_decide_eq_true same ▸ of_decide_eq_true listed
  have some_unique := unique.sublist ((List.filter_sublist (l := w.rows)
    (p := (·.id ∈ (transactions.partition (·.command ≠ .delete)).1.map Transaction.recordId))).map Row.id)
  simp only [docs]
  rw [uploadDocuments_append, uploadDocuments_adds _ some_unique, uploadDocuments_deletes, loaded]
  simp only [deleted, added]
  congr 1
  split <;> rfl

/-! ## Commits -/

theorem le_maxId {trx : Transaction} (member : trx ∈ w.log) : trx.id ≤ w.maxId := by
  unfold maxId
  generalize w.log = log at member
  induction member with
  | head => exact Nat.le_max_left _ _
  | tail _ _ ih => exact ih.trans (Nat.le_max_right _ _)

def isAbout (id : Nat) (trx : Transaction) : Bool := trx.objectType = .contact && trx.recordId = id

theorem find_replace {row : Row} (elsewhere : row.id ≠ id) (rows : List Row) :
    (rows.map fun old => if old.id = row.id then row else old).find? (·.id = id) = rows.find? (·.id = id) := by
  induction rows with
  | nil => rfl
  | cons old rest ih =>
    rw [List.map_cons, List.find?_cons, List.find?_cons, ih]
    by_cases replaced : old.id = row.id
    · simp [replaced, elsewhere]
    · simp [replaced]

theorem find_filter_ne {removed : Nat} (apart : removed ≠ id) (rows : List Row) :
    (rows.filter (·.id ≠ removed)).find? (·.id = id) = rows.find? (·.id = id) := by
  rw [List.find?_filter]
  congr 1
  funext row
  by_cases here : row.id = id <;> simp [here, Ne.symm apart]

/-- What a commit does to the contacts and to the log. -/
structure Commits (w : World) (trx : Transaction) (next : World) : Prop where
  newest : w.maxId < trx.id
  log : next.log = w.log ++ [trx]
  index : next.index = w.index
  cursor : next.cursor = w.cursor
  stage : next.stage = w.stage
  others : ∀ id, isAbout id trx = false → next.find id = w.find id
  recorded : ∀ id, isAbout id trx = true → (trx.command = .delete ↔ next.find id = none)
  unique : (w.rows.map Row.id).Nodup → (next.rows.map Row.id).Nodup

theorem find_none_iff {rows : List Row} : rows.find? (·.id = id) = none ↔ id ∉ rows.map Row.id := by
  simp

theorem change_effect {trx : Transaction} {row : Option Row} {rows : List Row}
    (changed : w.change trx row = some rows) :
    (∀ id, isAbout id trx = false → rows.find? (·.id = id) = w.find id) ∧
      (∀ id, isAbout id trx = true → (trx.command = .delete ↔ rows.find? (·.id = id) = none)) ∧
      ((w.rows.map Row.id).Nodup → (rows.map Row.id).Nodup) := by
  unfold change at changed
  split at changed
  case isTrue other =>
    cases changed
    refine ⟨fun _ _ => rfl, fun id about => ?_, fun unique => unique⟩
    simp [isAbout, other] at about
  case isFalse contact =>
    have apart (id : Nat) (about : isAbout id trx = false) : trx.recordId ≠ id := by
      simpa [isAbout, not_not.mp contact] using about
    have subject (id : Nat) (about : isAbout id trx = true) : trx.recordId = id := by
      simpa [isAbout, not_not.mp contact] using about
    split at changed
    case h_1 _ row inserted =>
      split at changed
      case isTrue fresh =>
        cases changed
        obtain ⟨same, absent⟩ := fresh
        refine ⟨fun id about => ?_, fun id about => ?_, fun unique => ?_⟩
        · have elsewhere : row.id ≠ id := fun here => apart id about (same.symm.trans here)
          simp [find, elsewhere]
        · simp [inserted, same, subject id about]
        · rw [List.map_append, List.nodup_append']
          refine ⟨unique, List.nodup_singleton _, fun id present here => ?_⟩
          obtain rfl := List.mem_singleton.mp here
          exact find_none_iff.mp absent present
      case isFalse => cases changed
    case h_2 _ row updated =>
      split at changed
      case isTrue held =>
        cases changed
        obtain ⟨same, present⟩ := held
        have ids : (w.rows.map fun old => if old.id = row.id then row else old).map Row.id =
            w.rows.map Row.id := by
          rw [List.map_map]
          refine List.map_congr_left fun old _ => ?_
          by_cases here : old.id = row.id <;> simp [here]
        refine ⟨fun id about => ?_, fun id about => ?_, fun unique => ids ▸ unique⟩
        · have elsewhere : row.id ≠ id := fun here => apart id about (same.symm.trans here)
          exact find_replace elsewhere w.rows
        · have listed : id ∈ w.rows.map Row.id := by
            rw [← subject id about, ← same]
            exact not_not.mp fun absent => present (find_none_iff.mpr absent)
          refine iff_of_false (by simp [updated]) fun absent => ?_
          rw [find_none_iff, ids] at absent
          exact absent listed
      case isFalse => cases changed
    case h_3 _ deleted =>
      cases changed
      refine ⟨fun id about => ?_, fun id about => ?_, fun unique => ?_⟩
      · exact find_filter_ne (apart id about) w.rows
      · refine iff_of_true deleted (List.find?_eq_none.mpr fun row member => ?_)
        have gone := of_decide_eq_true (List.mem_filter.mp member).2
        simpa [← subject id about] using gone
      · exact unique.sublist (List.filter_sublist.map Row.id)
    · cases changed

theorem commits {trx : Transaction} {row : Option Row} (committed : w.commit trx row = some next) :
    Commits w trx next := by
  unfold commit at committed
  split at committed
  case isFalse => cases committed
  case isTrue newest =>
    obtain ⟨rows, changed, rfl⟩ := Option.map_eq_some_iff.mp committed
    obtain ⟨others, recorded, unique⟩ := change_effect changed
    exact ⟨newest, rfl, rfl, rfl, rfl, others, recorded, unique⟩

/-! ## What the service relies on -/

/-- The last transaction about a contact tells whether it exists. -/
def Recorded (w : World) : Prop :=
  ∀ id trx, (w.log.filter (isAbout id)).getLast? = some trx → (trx.command = .delete ↔ w.find id = none)

/-- The index is right about every contact that no transaction after the pointer is about. -/
def CurrentTo (parse : Option Unicode → Option Unicode) (w : World) (pointer : Nat) : Prop :=
  ∀ id, (∀ trx ∈ w.log, isAbout id trx = true → trx.id ≤ pointer) → w.index id = w.exact parse id

/-- What the query has returned stays at the head of what lies after the pointer. -/
structure Chunk (w : World) (pointer : Nat) (transactions : List Transaction) : Prop where
  head : transactions <+: w.log.filter fun trx => trx.id > pointer && trx.objectType = .contact
  nonempty : transactions ≠ []

theorem CurrentTo.mono (current : CurrentTo parse w pointer) (earlier : before ≤ pointer) :
    CurrentTo parse w before :=
  fun id processed => current id fun trx member about => (processed trx member about).trans earlier

theorem maxId_commit {trx : Transaction} (committed : Commits w trx next) : w.maxId ≤ next.maxId := by
  have grows (ids : List Nat) : ids.foldr max 0 ≤ (ids ++ [trx.id]).foldr max 0 := by
    induction ids with
    | nil => exact Nat.zero_le _
    | cons first rest ih => exact max_le_max (Nat.le_refl first) ih
  simpa only [maxId, committed.log, List.map_append, List.map_singleton] using grows _

theorem CurrentTo.commit {trx : Transaction} (current : CurrentTo parse w pointer) (known : pointer ≤ w.maxId)
    (committed : Commits w trx next) : CurrentTo parse next pointer := by
  intro id processed
  rw [committed.log] at processed
  cases about : isAbout id trx with
  | true =>
    have late := processed trx (List.mem_append_right _ (List.mem_singleton_self trx)) about
    exact absurd (committed.newest.trans_le late) (Nat.not_lt.mpr known)
  | false =>
    have same := current id fun other member => processed other (List.mem_append_left _ member)
    rw [committed.index, same, exact, exact, committed.others id about]

theorem Recorded.commit {trx : Transaction} (recorded : Recorded w) (committed : Commits w trx next) :
    Recorded next := by
  intro id last found
  rw [committed.log, List.filter_append] at found
  cases about : isAbout id trx with
  | true =>
    rw [List.filter_singleton, about, cond_true, List.getLast?_concat] at found
    cases found
    exact committed.recorded id about
  | false =>
    rw [List.filter_singleton, about, cond_false, List.append_nil] at found
    rw [committed.others id about]
    exact recorded id last found

theorem Chunk.commit {trx : Transaction} (chunk : Chunk w pointer transactions) (committed : Commits w trx next) :
    Chunk next pointer transactions where
  head := by
    rw [committed.log, List.filter_append]
    exact chunk.head.trans (List.prefix_append _ _)
  nonempty := chunk.nonempty

/-- A transaction no later than the last of a chunk is in the chunk. -/
theorem Chunk.covers (chunk : Chunk w pointer transactions) (ascending : w.log.Pairwise (·.id < ·.id))
    (last : transactions.getLast? = some final) {trx : Transaction} (member : trx ∈ w.log)
    (about : isAbout id trx = true) (after : pointer < trx.id) (until_final : trx.id ≤ final.id) :
    trx ∈ transactions := by
  obtain ⟨rest, whole⟩ := chunk.head
  simp only [isAbout, Bool.and_eq_true, decide_eq_true_eq] at about
  have listed : trx ∈ transactions ++ rest := by
    rw [whole]
    exact List.mem_filter.mpr ⟨member, by simp [after, about.1]⟩
  rcases List.mem_append.mp listed with here | later
  · exact here
  · have ordered : (transactions ++ rest).Pairwise (·.id < ·.id) := whole ▸ ascending.filter _
    have beyond := (List.pairwise_append.mp ordered).2.2 final (List.mem_of_getLast? last) trx later
    omega

theorem Chunk.member (chunk : Chunk w pointer transactions) {trx : Transaction} (member : trx ∈ transactions) :
    trx ∈ w.log ∧ pointer < trx.id ∧ trx.objectType = .contact := by
  have ⟨logged, passed⟩ := List.mem_filter.mp (chunk.head.subset member)
  simp only [Bool.and_eq_true, decide_eq_true_eq] at passed
  exact ⟨logged, passed⟩

/-- The last of the transactions about a contact, and that it is the last. -/
theorem latest_about (ascending : w.log.Pairwise (·.id < ·.id)) {trx : Transaction} (member : trx ∈ w.log)
    (about : isAbout id trx = true) :
    ∃ latest, (w.log.filter (isAbout id)).getLast? = some latest ∧ latest ∈ w.log ∧
      isAbout id latest = true ∧ trx.id ≤ latest.id := by
  have listed : trx ∈ w.log.filter (isAbout id) := List.mem_filter.mpr ⟨member, about⟩
  cases found : (w.log.filter (isAbout id)).getLast? with
  | none =>
    rw [List.getLast?_eq_none_iff.mp found] at listed
    cases listed
  | some latest =>
    obtain ⟨logged, latest_about⟩ := List.mem_filter.mp (List.mem_of_getLast? found)
    refine ⟨latest, rfl, logged, latest_about, ?_⟩
    obtain ⟨before, whole⟩ := List.getLast?_eq_some_iff.mp found
    have ordered : (before ++ [latest]).Pairwise (·.id < ·.id) := whole ▸ ascending.filter _
    rw [whole] at listed
    rcases List.mem_append.mp listed with earlier | same
    · exact ((List.pairwise_append.mp ordered).2.2 trx earlier latest (List.mem_singleton_self latest)).le
    · exact (congrArg Transaction.id (List.mem_singleton.mp same)).le

/-- The upload brings the index up to the last transaction of the chunk. -/
theorem Chunk.indexed (chunk : Chunk w pointer transactions) (unique : (w.rows.map Row.id).Nodup)
    (ascending : w.log.Pairwise (·.id < ·.id)) (recorded : Recorded w) (current : CurrentTo parse w pointer)
    (last : transactions.getLast? = some final) (stage : Stage) :
    CurrentTo parse { w with index := uploadDocuments (w.docs parse transactions) w.index, stage } final.id := by
  intro id processed
  change ∀ trx ∈ w.log, isAbout id trx = true → trx.id ≤ final.id at processed
  change uploadDocuments (w.docs parse transactions) w.index id = w.exact parse id
  rw [uploadDocuments_docs unique]
  by_cases touched : ∃ trx ∈ transactions, trx.recordId = id
  · obtain ⟨trx, member, subject⟩ := touched
    obtain ⟨logged, after, contact⟩ := chunk.member member
    obtain ⟨latest, is_last, latest_logged, latest_about, later⟩ := latest_about ascending logged
      (by simp [isAbout, contact, subject] : isAbout id trx = true)
    -- what the contact has come to is in the chunk
    have among := chunk.covers ascending last latest_logged latest_about (after.trans_le later)
      (processed latest latest_logged latest_about)
    have same : latest.recordId = id := by
      simp only [isAbout, Bool.and_eq_true, decide_eq_true_eq] at latest_about
      exact latest_about.2
    have exists_iff := recorded id latest is_last
    cases held : w.find id with
    | none =>
      have gone : w.exact parse id = none := by rw [exact, held, Option.map_none]
      rw [gone, ite_self, Option.none_or, if_pos ⟨latest, among, same, exists_iff.mpr held⟩]
    | some row =>
      have kept : latest.command ≠ .delete := fun deleted => by
        rw [exists_iff.mp deleted] at held
        cases held
      rw [if_pos ⟨latest, among, same, kept⟩, exact, held, Option.map_some, Option.some_or]
  · have untouched (p : Transaction → Prop) [DecidablePred p] :
        ¬ ∃ trx ∈ transactions, trx.recordId = id ∧ p trx :=
      fun ⟨trx, member, subject, _⟩ => touched ⟨trx, member, subject⟩
    rw [if_neg (untouched (·.command ≠ .delete)), if_neg (untouched (·.command = .delete)), Option.none_or]
    refine current id fun trx logged about => Nat.le_of_not_lt fun after => touched ⟨trx, ?_, ?_⟩
    · exact chunk.covers ascending last logged about after (processed trx logged about)
    · simp only [isAbout, Bool.and_eq_true, decide_eq_true_eq] at about
      exact about.2

/-! ## Runs -/

def StageSound (parse : Option Unicode → Option Unicode) (w : World) : Stage → Prop
  | .stopped | .polling _ => True
  | .loaded pointer transactions => Chunk w pointer transactions
  | .uploaded pointer transactions => Chunk w pointer transactions ∧
      ∀ last ∈ transactions.getLast?, CurrentTo parse w last.id

structure Sound (parse : Option Unicode → Option Unicode) (w : World) : Prop where
  unique : (w.rows.map Row.id).Nodup
  ascending : w.log.Pairwise (·.id < ·.id)
  recorded : Recorded w
  pointers : ∀ pointer, w.cursor = some pointer ∨ w.stage.pointer = some pointer →
    pointer ≤ w.maxId ∧ CurrentTo parse w pointer
  aligned : ∀ cursor pointer, w.cursor = some cursor → w.stage.pointer = some pointer → cursor = pointer
  stage : StageSound parse w w.stage

theorem sound_initial (index : Index) : Sound parse (initial index) where
  unique := List.nodup_nil
  ascending := .nil
  recorded := nofun
  pointers := nofun
  aligned := nofun
  stage := trivial

theorem StageSound.commit {trx : Transaction} {stage : Stage} (sound : StageSound parse w stage)
    (committed : Commits w trx next) : StageSound parse next stage := by
  cases stage with
  | stopped | polling => trivial
  | loaded => exact Chunk.commit sound committed
  | uploaded pointer transactions =>
    obtain ⟨chunk, current⟩ := sound
    refine ⟨chunk.commit committed, fun last found => (current last found).commit ?_ committed⟩
    exact le_maxId (chunk.member (List.mem_of_getLast? found)).1

theorem Sound.commit {trx : Transaction} (sound : Sound parse w) (committed : Commits w trx next) :
    Sound parse next where
  unique := committed.unique sound.unique
  ascending := by
    rw [committed.log]
    refine List.pairwise_append.mpr ⟨sound.ascending, List.pairwise_singleton _ _, fun other member last here => ?_⟩
    rw [List.mem_singleton.mp here]
    exact (le_maxId member).trans_lt committed.newest
  recorded := sound.recorded.commit committed
  pointers := by
    intro pointer known
    rw [committed.cursor, committed.stage] at known
    obtain ⟨bounded, current⟩ := sound.pointers pointer known
    exact ⟨bounded.trans (maxId_commit committed), current.commit bounded committed⟩
  aligned := by
    rw [committed.cursor, committed.stage]
    exact sound.aligned
  stage := committed.stage ▸ sound.stage.commit committed

/-- A service that starts without a cursor is right about everything up to the latest transaction. -/
theorem Sound.start (sound : Sound parse w) (backfilled : w.cursor = none → w.index = w.exact parse) :
    Sound parse w.setTransactionPointers where
  unique := sound.unique
  ascending := sound.ascending
  recorded := sound.recorded
  pointers := by
    rintro pointer (saved | started)
    · exact sound.pointers pointer (.inl saved)
    · obtain rfl : w.cursor.getD w.maxId = pointer := Option.some.inj started
      cases saved : w.cursor with
      | some cursor => exact sound.pointers cursor (.inl saved)
      | none => exact ⟨Nat.le_refl w.maxId, fun id _ => congrFun (backfilled saved) id⟩
  aligned := by
    rintro cursor pointer saved ⟨⟩
    change w.cursor = some cursor at saved
    rw [saved, Option.getD_some]
  stage := trivial

theorem Sound.poll (sound : Sound parse w) (polling : w.stage = .polling pointer) {transactions : List Transaction}
    (chunk : Chunk w pointer transactions) :
    Sound parse { w with stage := .loaded pointer transactions } where
  unique := sound.unique
  ascending := sound.ascending
  recorded := sound.recorded
  pointers other known := sound.pointers other (by rwa [polling])
  aligned cursor other saved known := sound.aligned cursor other saved (by rwa [polling])
  stage := ⟨chunk.head, chunk.nonempty⟩

theorem Sound.index (sound : Sound parse w) {transactions : List Transaction}
    (loaded : w.stage = .loaded pointer transactions) :
    Sound parse { w with
      index := uploadDocuments (w.docs parse transactions) w.index
      stage := .uploaded pointer transactions } := by
  have chunk : Chunk w pointer transactions := by simpa only [loaded, StageSound] using sound.stage
  have current := sound.pointers pointer (.inr (by rw [loaded, Stage.pointer]))
  have indexed (final : Transaction) (last : transactions.getLast? = some final) :=
    chunk.indexed sound.unique sound.ascending sound.recorded current.2 last (.uploaded pointer transactions)
  have ⟨final, last⟩ := Option.isSome_iff_exists.mp (List.getLast?_isSome.mpr chunk.nonempty)
  have after := (chunk.member (List.mem_of_getLast? last)).2.1
  refine {
    unique := sound.unique
    ascending := sound.ascending
    recorded := sound.recorded
    pointers := fun other known => ?_
    aligned := fun cursor other saved known => sound.aligned cursor other saved (by rwa [loaded])
    stage := ⟨⟨chunk.head, chunk.nonempty⟩, indexed⟩ }
  obtain rfl : other = pointer := by
    rcases known with saved | same
    · exact sound.aligned other pointer saved (by rw [loaded, Stage.pointer])
    · exact (Option.some.inj same).symm
  exact ⟨current.1, (indexed final last).mono after.le⟩

theorem Sound.updatePointer (sound : Sound parse w) {transactions : List Transaction}
    (uploaded : w.stage = .uploaded pointer transactions) (last : transactions.getLast? = some final) :
    Sound parse { w with cursor := some final.id, stage := .polling final.id } := by
  have ⟨chunk, current⟩ : StageSound parse w (.uploaded pointer transactions) := uploaded ▸ sound.stage
  refine {
    unique := sound.unique
    ascending := sound.ascending
    recorded := sound.recorded
    pointers := fun other known => ?_
    aligned := fun cursor other saved known => ?_
    stage := trivial }
  · obtain rfl : final.id = other := known.elim Option.some.inj Option.some.inj
    exact ⟨le_maxId (chunk.member (List.mem_of_getLast? last)).1, current final last⟩
  · exact (Option.some.inj saved).symm.trans (Option.some.inj known)

theorem Sound.stop (sound : Sound parse w) : Sound parse { w with stage := .stopped } where
  unique := sound.unique
  ascending := sound.ascending
  recorded := sound.recorded
  pointers pointer known := sound.pointers pointer (known.imp_right nofun)
  aligned := nofun
  stage := trivial

theorem query_chunk (nonempty : w.query chunkSize pointer ≠ []) : Chunk w pointer (w.query chunkSize pointer) where
  head := List.take_prefix _ _
  nonempty

theorem Sound.step (sound : Sound parse w) {event : Event} (backfilled : Backfilled parse w event next)
    (stepped : w.step parse chunkSize event = some next) : Sound parse next := by
  cases event with
  | commit trx row => exact sound.commit (commits stepped)
  | start =>
    simp only [World.step] at stepped
    split at stepped
    · cases stepped
      exact sound.start (backfilled rfl)
    · cases stepped
  | poll =>
    simp only [World.step] at stepped
    split at stepped
    next polling =>
      split at stepped
      · cases stepped
        exact sound
      next asked nonempty =>
        cases stepped
        exact sound.poll polling (query_chunk nonempty)
    · cases stepped
  | index =>
    simp only [World.step] at stepped
    split at stepped
    next loaded =>
      cases stepped
      exact sound.index loaded
    · cases stepped
  | updatePointer =>
    simp only [World.step] at stepped
    split at stepped
    next uploaded =>
      obtain ⟨final, last, rfl⟩ := Option.map_eq_some_iff.mp stepped
      exact sound.updatePointer uploaded last
    · cases stepped
  | stop =>
    cases stepped
    exact sound.stop

theorem sound_run {index : Index} {events : List Event}
    (backfilled : Runs.Each (step parse chunkSize) (Backfilled parse) (initial index) events)
    (ran : Runs.run (step parse chunkSize) (initial index) events = some w) : Sound parse w :=
  Runs.invariant_run (Sound parse) (sound_initial index) backfilled
    (fun _ _ _ sound backfilled stepped => sound.step backfilled stepped) ran

theorem each_backfilled {events : List Event} (running : .start ∉ events) :
    Runs.Each (step parse chunkSize) (Backfilled parse) w events := by
  induction events generalizing w with
  | nil => trivial
  | cons event rest ih =>
    obtain ⟨here, later⟩ := not_or.mp (mt List.mem_cons.mpr running)
    exact fun next _ => ⟨fun started => absurd started.symm here, ih later⟩

theorem CurrentTo.exact (current : CurrentTo parse w pointer) (processed : w.Processed pointer) :
    w.index = w.exact parse := by
  funext id
  refine current id fun trx member about => processed trx member ?_
  simp only [isAbout, Bool.and_eq_true, decide_eq_true_eq] at about
  exact about.1

/-- In every run of commits, chunks, stops and starts: once nothing lies after the pointer, in the database
or in memory, the documents are those of the contacts that exist. -/
theorem index_of_processed_log (parse : Option Unicode → Option Unicode) (chunkSize : Nat) (index : Index)
    (events : List Event) (w : World) (pointer : Nat)
    (backfilled : Runs.Each (step parse chunkSize) (Backfilled parse) (initial index) events)
    (ran : Runs.run (step parse chunkSize) (initial index) events = some w)
    (known : w.cursor = some pointer ∨ w.stage.pointer = some pointer) (processed : w.Processed pointer) :
    w.index = w.exact parse :=
  ((sound_run backfilled ran).pointers pointer known).2.exact processed

section Trace

def contactRow (id : Nat) (name : Unicode) : Row where
  id
  namespaceId := 1
  contact := {
    providerName := none
    uid := []
    name := some name
    emailAddress := some ['a', '@', 'b', '.', 'c']
    rawData := none
    phoneNumbers := [] }

def contactTransaction (id recordId : Nat) (command : DeltaSync.Command) : Transaction where
  id
  namespaceId := 1
  objectType := .contact
  recordId
  objectPublicId := ""
  publicId := ""
  command
  createdAt := id

/-- A contact that is deleted, and another that is renamed while the service has a chunk in hand. -/
def contactEvents : List Event :=
  [.start, .commit (contactTransaction 1 7 .insert) (some (contactRow 7 ['A'])),
    .commit (contactTransaction 2 8 .insert) (some (contactRow 8 ['B'])), .poll,
    .commit (contactTransaction 3 7 .delete) none,
    .commit (contactTransaction 5 8 .update) (some (contactRow 8 ['C'])), .index, .updatePointer,
    .poll, .index, .updatePointer]

def contactWorld : World where
  rows := [contactRow 8 ['C']]
  log := [contactTransaction 1 7 .insert, contactTransaction 2 8 .insert, contactTransaction 3 7 .delete,
    contactTransaction 5 8 .update]
  index := uploadDocuments [.add 8 ⟨8, 1, ['C'], ['a', '@', 'b', '.', 'c'], []⟩, .delete 7,
    .add 8 ⟨8, 1, ['C'], ['a', '@', 'b', '.', 'c'], []⟩] fun _ => none
  cursor := some 5
  stage := .polling 5

theorem contactWorld_index : contactWorld.index = contactWorld.exact fun emailAddress => emailAddress :=
  index_of_processed_log _ 2 (fun _ => none) contactEvents contactWorld 5
    (fun _ _ => ⟨fun _ _ => rfl, each_backfilled (by simp)⟩) rfl (.inl rfl)
    (by simp [Processed, contactWorld, contactTransaction])

end Trace

/-! ## Catching up -/

/-- A call of `_index_transactions` that finds something to index. -/
def pass : List Event := [.poll, .index, .updatePointer]

def remaining (w : World) (pointer : Nat) : List Transaction :=
  w.log.filter fun trx => trx.id > pointer && trx.objectType = .contact

theorem processed_of_remaining (nothing : w.remaining pointer = []) : w.Processed pointer := by
  intro trx member contact
  refine Nat.le_of_not_lt fun after => ?_
  have listed : trx ∈ w.remaining pointer := List.mem_filter.mpr ⟨member, by simp [after, contact]⟩
  rw [nothing] at listed
  cases listed

/-- Each pass leaves fewer transactions after the pointer. -/
theorem pass_progress (parse : Option Unicode → Option Unicode) (positive : 0 < chunkSize)
    (polling : w.stage = .polling pointer)
    (more : w.remaining pointer ≠ []) :
    ∃ next final, Runs.run (step parse chunkSize) w pass = some next ∧ next.stage = .polling final ∧
      next.rows = w.rows ∧ next.log = w.log ∧ (next.remaining final).length < (w.remaining pointer).length := by
  have nonempty : w.query chunkSize pointer ≠ [] := by
    intro empty
    exact more ((List.take_eq_nil_iff.mp empty).resolve_left (Nat.ne_of_gt positive))
  have chunk := query_chunk nonempty
  obtain ⟨final, last⟩ := Option.isSome_iff_exists.mp (List.getLast?_isSome.mpr nonempty)
  obtain ⟨logged, after, contact⟩ := chunk.member (List.mem_of_getLast? last)
  have polled : w.step parse chunkSize .poll =
      some { w with stage := .loaded pointer (w.query chunkSize pointer) } := by
    simp only [step, polling]
  let next : World := { w with
    index := uploadDocuments (w.docs parse (w.query chunkSize pointer)) w.index
    cursor := some final.id
    stage := .polling final.id }
  have ran : Runs.run (step parse chunkSize) w pass = some next := by
    rw [pass, Runs.run, polled, Option.bind_some, Runs.run, step, Option.bind_some, Runs.run, step]
    dsimp only
    rw [last]
    rfl
  refine ⟨next, final.id, ran, rfl, rfl, rfl, ?_⟩
  have narrower : w.remaining final.id = (w.remaining pointer).filter fun trx => trx.id > final.id := by
    rw [remaining, remaining, List.filter_filter]
    refine List.filter_congr fun trx _ => ?_
    by_cases later : trx.id > final.id
    · simp [later, after.trans later]
    · simp [later]
  change (w.remaining final.id).length < _
  rw [narrower, List.length_filter_lt_length_iff_exists]
  exact ⟨final, List.mem_filter.mpr ⟨logged, by simp [after, contact]⟩, by simp⟩

/-- Without further commits, enough passes leave the documents of the contacts that exist. -/
theorem catches_up (positive : 0 < chunkSize) (sound : Sound parse w) (polling : w.stage = .polling pointer) :
    ∃ passes next, Runs.run (step parse chunkSize) w (List.replicate passes pass).flatten = some next ∧
      next.rows = w.rows ∧ next.log = w.log ∧ next.index = w.exact parse := by
  induction left : (w.remaining pointer).length using Nat.strong_induction_on generalizing w pointer with
  | h left ih =>
    by_cases nothing : w.remaining pointer = []
    · have known := sound.pointers pointer (.inr (by rw [polling, Stage.pointer]))
      exact ⟨0, w, rfl, rfl, rfl, known.2.exact (processed_of_remaining nothing)⟩
    · obtain ⟨next, final, ran, at_final, rows, log, fewer⟩ := pass_progress parse positive polling nothing
      have next_sound : Sound parse next :=
        Runs.invariant_run (Sound parse) sound (each_backfilled (by simp [pass]))
        (fun _ _ _ sound backfilled stepped => sound.step backfilled stepped) ran
      obtain ⟨passes, last, rest, last_rows, last_log, indexed⟩ := ih _ (left ▸ fewer) next_sound at_final rfl
      refine ⟨passes + 1, last, ?_, last_rows.trans rows, last_log.trans log, ?_⟩
      · rw [List.replicate_succ, List.flatten_cons, Runs.run_append, ran]
        exact rest
      · rw [indexed]
        funext id
        simp only [exact, find, rows]

end World

/-- A document has no character that the search domain rejects. -/
theorem cloudsearchContactRepr_accepted (parse : Option Unicode → Option Unicode) (row : Row) :
    (∀ c ∈ (cloudsearchContactRepr parse row).name, isAccepted c) ∧
      ∀ c ∈ (cloudsearchContactRepr parse row).emailAddress, isAccepted c := by
  simp only [cloudsearchContactRepr]
  split
  case isTrue =>
    exact ⟨fun c member => (List.mem_filter.mp member).2, fun c member => (List.mem_filter.mp member).2⟩
  case isFalse good =>
    simp only [Bool.or_eq_true, List.any_eq_true, Bool.not_eq_true', not_or, not_exists, not_and,
      Bool.not_eq_false] at good
    exact good

end SyncEngine.ContactIndex
