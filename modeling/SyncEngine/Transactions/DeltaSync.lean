import Mathlib.Data.List.MinMax
import Mathlib.Data.List.Sort
import Mathlib.Data.Prod.Lex

/-! The deltas that API clients page through: the rows of the transaction log after a pointer, rolled
up for each object and command. -/
namespace SyncEngine
namespace DeltaSync

inductive ObjectType where
  | calendar
  | contact
  | draft
  | event
  | file
  | message
  | thread
  | label
  | folder
  | account
  | metadata
deriving DecidableEq, Repr

inductive ObjectClass where
  | calendar
  | contact
  | message
  | event
  | block
  | category
  | thread
  | account
  | metadata
deriving DecidableEq, Repr

def transactionObjects : ObjectType → ObjectClass
  | .calendar => .calendar
  | .contact => .contact
  | .draft => .message
  | .event => .event
  | .file => .block
  | .message => .message
  | .thread => .thread
  | .label => .category
  | .folder => .category
  | .account => .account
  | .metadata => .metadata

inductive Command where
  | insert
  | update
  | delete
deriving DecidableEq, Repr

def EVENT_NAME_FOR_COMMAND : Command → String
  | .insert => "create"
  | .update => "modify"
  | .delete => "delete"

structure Transaction where
  id : Nat
  namespaceId : Nat
  objectType : ObjectType
  recordId : Nat
  objectPublicId : String
  publicId : String
  command : Command
  createdAt : Nat
deriving DecidableEq, Repr

/-- Successive transactions with one key are rolled up. -/
def Transaction.key (trx : Transaction) : ObjectType × Nat × Command :=
  (trx.objectType, trx.recordId, trx.command)

/-- A row of the table of its class; of a message only with a thread, which `encode` reads. -/
structure Object (A : Type) where
  namespaceId : Nat
  thread : Bool
  /-- What `encode` makes of it. -/
  attributes : A

structure Db (A : Type) where
  transactions : List Transaction
  objects : ObjectClass → Nat → Option (Object A)
  unique : (transactions.map Transaction.id).Nodup

/-- The arguments that select object types. -/
structure Filter where
  excludeTypes : List ObjectType
  includeTypes : Option (List ObjectType)
  excludeFolders : Bool
  excludeMetadata : Bool
  excludeAccount : Bool
  /-- The API lets no client name it at all. -/
  metadataOnce : ∀ types ∈ includeTypes, types.count .metadata ≤ 1

namespace Filter

/-- Without `include_types`. -/
theorem none_once : ∀ types ∈ (none : Option (List ObjectType)), types.count .metadata ≤ 1 := nofun

def excluded (filter : Filter) : List ObjectType :=
  filter.excludeTypes ++ (if filter.excludeFolders then [.folder, .label] else []) ++
    (if filter.excludeAccount then [.account] else []) ++
    (if filter.excludeMetadata then [.metadata] else [])

/-- `include_types.remove('metadata')` -/
def included (filter : Filter) : Option (List ObjectType) :=
  filter.includeTypes.map (fun types => types.erase .metadata)

def Selects (filter : Filter) (objectType : ObjectType) : Prop :=
  objectType ∉ filter.excluded ∧ ∀ types ∈ filter.included, objectType ∈ types

instance (filter : Filter) (objectType : ObjectType) : Decidable (filter.Selects objectType) :=
  inferInstanceAs (Decidable (_ ∧ _))

/-- The list that the next call gets is the one that this call has changed. -/
def next (filter : Filter) : Filter where
  excludeTypes := filter.excludeTypes
  includeTypes := filter.included
  excludeFolders := filter.excludeFolders
  excludeMetadata := filter.excludeMetadata
  excludeAccount := filter.excludeAccount
  metadataOnce types member := by
    obtain ⟨given, among, rfl⟩ := Option.map_eq_some_iff.mp member
    exact (List.count_erase_self ..).trans_le ((Nat.sub_le ..).trans (filter.metadataOnce given among))

theorem selects_next (filter : Filter) (objectType : ObjectType) :
    filter.next.Selects objectType ↔ filter.Selects objectType := by
  have included : filter.next.included = filter.included := by
    cases given : filter.includeTypes with
    | none => simp [Filter.included, next, given]
    | some types =>
      have once := filter.metadataOnce types given
      have gone : ObjectType.metadata ∉ types.erase .metadata := by
        rw [← List.count_eq_zero, List.count_erase_self]
        omega
      simp [Filter.included, next, given, List.erase_of_not_mem gone]
  simp only [Selects, included]
  rfl

end Filter

structure Delta (A : Type) where
  object : ObjectType
  event : String
  id : String
  attributes : Option A
  cursor : String
deriving DecidableEq, Repr

inductive Error where
  | noResultFound
deriving DecidableEq, Repr

section Page
variable {A : Type} (db : Db A) (namespaceId : Nat) (filter : Filter) (limit pointer : Nat)

/-- `_get_last_trx_id_for_namespace`: ordered by `created_at` before the id. -/
def getLastTrxIdForNamespace : Option Nat :=
  ((db.transactions.filter (·.namespaceId = namespaceId)).argmax
    fun trx => toLex (trx.createdAt, trx.id)).map Transaction.id

/-- The selected rows after the pointer, in the order of their ids. -/
def transactionsAfter : List Transaction :=
  (db.transactions.filter fun trx =>
    pointer < trx.id ∧ trx.namespaceId = namespaceId ∧ filter.Selects trx.objectType).insertionSort
      fun a b => a.id ≤ b.id

/-- For each object type, the last transaction of each record and command. -/
def latestTrxs (transactions : List Transaction) : List Transaction :=
  transactions.filter fun trx => transactions.all fun other => other.key = trx.key → other.id ≤ trx.id

/-- The object of a transaction, if the query for its class still finds it. -/
def lookup (trx : Transaction) : Option (Object A) :=
  (db.objects (transactionObjects trx.objectType) trx.recordId).filter fun obj =>
    obj.namespaceId = namespaceId ∧
      -- T7045: Workaround for some SQLAlchemy bugs.
      (transactionObjects trx.objectType = .message → obj.thread)

def formatTransaction (trx : Transaction) : Option (Delta A) :=
  let delta : Delta A :=
    { object := trx.objectType, event := EVENT_NAME_FOR_COMMAND trx.command
      id := trx.objectPublicId, attributes := none, cursor := trx.publicId }
  if trx.command = .delete then some delta
  else (lookup db namespaceId trx).map fun obj => { delta with attributes := some obj.attributes }

def results (transactions : List Transaction) : List (Nat × Delta A) :=
  ((latestTrxs transactions).filterMap fun trx =>
    (formatTransaction db namespaceId trx).map fun delta => (trx.id, delta)).insertionSort
      fun a b => a.1 ≤ b.1

theorem mem_transactionsAfter : trx ∈ transactionsAfter db namespaceId filter pointer ↔
    trx ∈ db.transactions ∧ pointer < trx.id ∧ trx.namespaceId = namespaceId ∧
      filter.Selects trx.objectType := by
  simp [transactionsAfter]

theorem transactionsAfter_sorted :
    (transactionsAfter db namespaceId filter pointer).Pairwise fun a b => a.id < b.id := by
  have : Std.Total fun a b : Transaction => a.id ≤ b.id := ⟨fun a b => Nat.le_total _ _⟩
  have : IsTrans Transaction fun a b => a.id ≤ b.id := ⟨fun _ _ _ => Nat.le_trans⟩
  have sorted := List.pairwise_insertionSort (fun a b : Transaction => a.id ≤ b.id)
    (db.transactions.filter fun trx =>
      pointer < trx.id ∧ trx.namespaceId = namespaceId ∧ filter.Selects trx.objectType)
  have distinct : (transactionsAfter db namespaceId filter pointer).Pairwise
      fun a b => a.id ≠ b.id := by
    refine ((List.perm_insertionSort _ _).pairwise_iff fun apart => apart.symm).mpr ?_
    exact (List.pairwise_map.mp db.unique).filter _
  exact sorted.imp₂ (fun a b below apart => Nat.lt_of_le_of_ne below apart) distinct

/-- Two lists in the order of their ids that have the same members. -/
theorem eq_of_sorted {first second : List Transaction} (ordered : first.Pairwise fun a b => a.id < b.id)
    (alike : second.Pairwise fun a b => a.id < b.id) (same : ∀ trx, trx ∈ first ↔ trx ∈ second) :
    first = second := by
  have distinct : ∀ {trxs : List Transaction}, (trxs.Pairwise fun a b => a.id < b.id) → trxs.Nodup :=
    fun sorted => sorted.imp fun below equal => by simp [equal] at below
  refine List.Perm.eq_of_pairwise (fun a b _ _ below above => ?_) ordered alike
    ((List.perm_ext_iff_of_nodup (distinct ordered) (distinct alike)).mpr same)
  omega

theorem transactionsAfter_filter (later : pointer ≤ upTo) :
    (transactionsAfter db namespaceId filter pointer).filter (upTo < ·.id) =
      transactionsAfter db namespaceId filter upTo := by
  refine eq_of_sorted ((transactionsAfter_sorted ..).filter _) (transactionsAfter_sorted ..) fun trx => ?_
  simp only [List.mem_filter, mem_transactionsAfter, decide_eq_true_eq]
  constructor
  · rintro ⟨⟨among, _, rest⟩, after⟩
    exact ⟨among, after, rest⟩
  · rintro ⟨among, after, rest⟩
    exact ⟨⟨among, by omega, rest⟩, after⟩

theorem transactionsAfter_shorter (member : last ∈ transactionsAfter db namespaceId filter pointer) :
    (transactionsAfter db namespaceId filter last.id).length <
      (transactionsAfter db namespaceId filter pointer).length := by
  have after := ((mem_transactionsAfter ..).mp member).2.1
  rw [← transactionsAfter_filter db namespaceId filter pointer after.le]
  exact List.length_filter_lt_length_iff_exists.mpr ⟨last, member, by simp⟩

/-- The loop: rows of which no object exists any more are passed over. -/
def scan (pointer : Nat) : List (Delta A) × Nat :=
  let transactions := (transactionsAfter db namespaceId filter pointer).take limit
  match _rows : transactions.getLast? with
  | none => ([], pointer)
  | some last =>
    match (results db namespaceId transactions).getLast? with
    | some (id, _) => ((results db namespaceId transactions).map Prod.snd, id)
    | none => scan last.id
termination_by (transactionsAfter db namespaceId filter pointer).length
decreasing_by
  exact transactionsAfter_shorter _ _ _ _ (List.mem_of_mem_take (List.mem_of_getLast? _rows))

def formatTransactionsAfterPointer : Except Error (List (Delta A) × Nat) :=
  match getLastTrxIdForNamespace db namespaceId with
  | none => .error .noResultFound
  | some lastTrx =>
    if lastTrx = pointer then .ok ([], pointer) else .ok (scan db namespaceId filter limit pointer)

end Page

/-! ## One page -/
section Results
variable {A : Type} {db : Db A} {namespaceId : Nat} {filter : Filter} {pointer limit : Nat}
  {transactions : List Transaction}

/-- No other transaction of the list with the same key has a larger id. -/
def Latest (transactions : List Transaction) (trx : Transaction) : Prop :=
  ∀ other ∈ transactions, other.key = trx.key → other.id ≤ trx.id

theorem mem_latestTrxs : trx ∈ latestTrxs transactions ↔ trx ∈ transactions ∧ Latest transactions trx := by
  simp only [latestTrxs, Latest, List.mem_filter, List.all_eq_true, decide_eq_true_eq]

/-- Of each key a list has a transaction that no other one is later than. -/
theorem exists_latest (member : trx ∈ transactions) :
    ∃ other ∈ latestTrxs transactions, other.key = trx.key ∧ trx.id ≤ other.id := by
  cases found : (transactions.filter (·.key = trx.key)).argmax Transaction.id with
  | none =>
    have empty := List.argmax_eq_none.mp found
    have among : trx ∈ transactions.filter (·.key = trx.key) := by simp [member]
    rw [empty] at among
    cases among
  | some other =>
    obtain ⟨inside, key⟩ := List.mem_filter.mp (List.argmax_mem found)
    have key : other.key = trx.key := by simpa using key
    refine ⟨other, mem_latestTrxs.mpr ⟨inside, fun third among same => ?_⟩, key, ?_⟩
    · exact List.le_of_mem_argmax (List.mem_filter.mpr ⟨among, by simp [same, key]⟩) found
    · exact List.le_of_mem_argmax (List.mem_filter.mpr ⟨member, by simp⟩) found

/-- The transactions of a page that have a delta. -/
def surviving (db : Db A) (namespaceId : Nat) (transactions : List Transaction) : List Transaction :=
  (latestTrxs transactions).filter fun trx => (formatTransaction db namespaceId trx).isSome

theorem mem_surviving : trx ∈ surviving db namespaceId transactions ↔
    trx ∈ transactions ∧ Latest transactions trx ∧ (formatTransaction db namespaceId trx).isSome := by
  simp [surviving, mem_latestTrxs, and_assoc]

theorem surviving_sorted (sorted : transactions.Pairwise fun a b => a.id < b.id) :
    (surviving db namespaceId transactions).Pairwise fun a b => a.id < b.id :=
  (sorted.filter _).filter _

/-- Sorting finds the deltas of a page in the order of their transactions. -/
theorem results_eq (sorted : transactions.Pairwise fun a b => a.id < b.id) :
    results db namespaceId transactions = (latestTrxs transactions).filterMap fun trx =>
      (formatTransaction db namespaceId trx).map fun delta => (trx.id, delta) := by
  refine List.Pairwise.insertionSort_eq (List.pairwise_filterMap.mpr ?_)
  refine (sorted.filter _).imp fun below first found second other => ?_
  obtain ⟨_, _, rfl⟩ := Option.map_eq_some_iff.mp found
  obtain ⟨_, _, rfl⟩ := Option.map_eq_some_iff.mp other
  exact below.le

theorem results_spec (sorted : transactions.Pairwise fun a b => a.id < b.id) :
    (results db namespaceId transactions).map Prod.fst =
        (surviving db namespaceId transactions).map Transaction.id ∧
      ((results db namespaceId transactions).map Prod.snd).map some =
        (surviving db namespaceId transactions).map (formatTransaction db namespaceId) := by
  rw [results_eq sorted, surviving]
  induction latestTrxs transactions with
  | nil => exact ⟨rfl, rfl⟩
  | cons trx rest ih =>
    cases format : formatTransaction db namespaceId trx with
    | none | some delta => simpa [format] using ih

end Results

/-! ## From one page to the next -/
section Scan
variable {A : Type} (db : Db A) (namespaceId : Nat) (filter : Filter)

/-- Transactions that have the deltas of all that counts between two pointers. -/
structure Covers (first last : Nat) (trxs : List Transaction) : Prop where
  sorted : trxs.Pairwise fun a b => a.id < b.id
  among : ∀ trx ∈ trxs, trx ∈ transactionsAfter db namespaceId filter first ∧ trx.id ≤ last ∧
    (formatTransaction db namespaceId trx).isSome
  all : ∀ trx ∈ transactionsAfter db namespaceId filter first, trx.id ≤ last →
    Latest (transactionsAfter db namespaceId filter first) trx →
    (formatTransaction db namespaceId trx).isSome → trx ∈ trxs

variable {db namespaceId filter}

theorem Latest.after (latest : Latest (transactionsAfter db namespaceId filter pointer) trx)
    (later : pointer ≤ upTo) : Latest (transactionsAfter db namespaceId filter upTo) trx := by
  intro other member
  rw [← transactionsAfter_filter db namespaceId filter pointer later] at member
  exact latest other (List.mem_filter.mp member).1

theorem mem_after (later : pointer ≤ upTo) : trx ∈ transactionsAfter db namespaceId filter upTo ↔
    trx ∈ transactionsAfter db namespaceId filter pointer ∧ upTo < trx.id := by
  rw [← transactionsAfter_filter db namespaceId filter pointer later]
  simp

variable (db namespaceId filter) in
/-- Nothing after the pointer has a delta that counts. -/
def Exhausted (pointer : Nat) : Prop :=
  ∀ trx ∈ transactionsAfter db namespaceId filter pointer,
    Latest (transactionsAfter db namespaceId filter pointer) trx →
    formatTransaction db namespaceId trx = none

theorem Exhausted.before (exhausted : Exhausted db namespaceId filter middle)
    (first : Covers db namespaceId filter start middle []) (below : start ≤ middle) :
    Exhausted db namespaceId filter start := by
  intro trx inside latest
  rcases Nat.lt_or_ge middle trx.id with late | early
  · exact exhausted trx ((mem_after below).mpr ⟨inside, late⟩) (latest.after below)
  · by_contra format
    cases first.all trx inside early latest (Option.isSome_iff_ne_none.mpr format)

/-- What one call covers and what the later ones cover. -/
theorem Covers.append (first : Covers db namespaceId filter start middle trxs)
    (second : Covers db namespaceId filter middle last rest) (below : start ≤ middle)
    (above : middle ≤ last) : Covers db namespaceId filter start last (trxs ++ rest) where
  sorted := by
    refine List.pairwise_append.mpr ⟨first.sorted, second.sorted, fun a early b late => ?_⟩
    have upTo := (first.among a early).2.1
    have after := ((mem_transactionsAfter ..).mp (second.among b late).1).2.1
    omega
  among trx member := by
    rcases List.mem_append.mp member with early | late
    · obtain ⟨inside, upTo, format⟩ := first.among trx early
      exact ⟨inside, upTo.trans above, format⟩
    · obtain ⟨inside, upTo, format⟩ := second.among trx late
      exact ⟨((mem_after below).mp inside).1, upTo, format⟩
  all trx inside upTo latest format := by
    rcases Nat.lt_or_ge middle trx.id with late | early
    · exact List.mem_append_right _
        (second.all trx ((mem_after below).mpr ⟨inside, late⟩) upTo (latest.after below) format)
    · exact List.mem_append_left _ (first.all trx inside early latest format)

/-- A page has all rows up to any that it has. -/
theorem mem_take {transactions : List Transaction} (sorted : transactions.Pairwise fun a b => a.id < b.id)
    (read : last ∈ transactions.take limit) (member : trx ∈ transactions) (below : trx.id ≤ last.id) :
    trx ∈ transactions.take limit := by
  rw [← List.take_append_drop limit transactions] at sorted member
  rcases List.mem_append.mp member with here | later
  · exact here
  · have := (List.pairwise_append.mp sorted).2.2 last read trx later
    omega

/-- A page covers the rows up to its last surviving transaction, or all that it has read. -/
theorem covers_page {limit : Nat} (read : last ∈ (transactionsAfter db namespaceId filter pointer).take limit)
    (upTo : ∀ trx ∈ surviving db namespaceId ((transactionsAfter db namespaceId filter pointer).take limit),
      trx.id ≤ last.id) :
    Covers db namespaceId filter pointer last.id
      (surviving db namespaceId ((transactionsAfter db namespaceId filter pointer).take limit)) where
  sorted := surviving_sorted ((transactionsAfter_sorted ..).sublist (List.take_sublist _ _))
  among trx member := by
    obtain ⟨inside, _, format⟩ := mem_surviving.mp member
    exact ⟨List.mem_of_mem_take inside, upTo trx member, format⟩
  all trx inside early latest format := by
    have early := mem_take (transactionsAfter_sorted ..) read inside early
    exact mem_surviving.mpr ⟨early, fun other member => latest other (List.mem_of_mem_take member), format⟩

variable {limit pointer : Nat} {transactions : List Transaction}

theorem page_sorted : ((transactionsAfter db namespaceId filter pointer).take limit).Pairwise
    fun a b => a.id < b.id := (transactionsAfter_sorted ..).sublist (List.take_sublist _ _)

variable (db namespaceId) in
/-- The id of the last result is that of the last surviving transaction. -/
theorem results_getLast? (sorted : transactions.Pairwise fun a b => a.id < b.id) :
    (results db namespaceId transactions).getLast?.map Prod.fst =
      (surviving db namespaceId transactions).getLast?.map Transaction.id := by
  rw [← List.getLast?_map, ← List.getLast?_map, (results_spec sorted).1]

theorem scan_end (read : (transactionsAfter db namespaceId filter pointer).take limit = []) :
    scan db namespaceId filter limit pointer = ([], pointer) := by
  rw [scan]
  split
  · rfl
  · rename_i last found
    rw [read] at found
    cases found

theorem scan_page {page : List Transaction}
    (read : (transactionsAfter db namespaceId filter pointer).take limit = page)
    (found : (surviving db namespaceId page).getLast? = some last) :
    scan db namespaceId filter limit pointer = ((results db namespaceId page).map Prod.snd, last.id) := by
  have sorted : page.Pairwise fun a b => a.id < b.id := read ▸ page_sorted
  have same := results_getLast? db namespaceId sorted
  rw [found] at same
  rw [scan]
  rw [read]
  split
  · rename_i none
    rw [List.getLast?_eq_none_iff] at none
    subst none
    cases found
  · split
    · rename_i id _ here
      rw [here] at same
      cases same
      rfl
    · rename_i none
      rw [none] at same
      cases same

theorem scan_skip {page : List Transaction}
    (read : (transactionsAfter db namespaceId filter pointer).take limit = page)
    (upTo : page.getLast? = some last) (none : surviving db namespaceId page = []) :
    scan db namespaceId filter limit pointer = scan db namespaceId filter limit last.id := by
  have sorted : page.Pairwise fun a b => a.id < b.id := read ▸ page_sorted
  have same := results_getLast? db namespaceId sorted
  rw [none] at same
  rw [scan]
  rw [read]
  split
  · rename_i missing
    rw [upTo] at missing
    cases missing
  · rename_i other here
    rw [upTo] at here
    cases here
    split
    · rename_i found
      rw [found] at same
      cases same
    · rfl

theorem le_of_getLast? (sorted : transactions.Pairwise fun a b => a.id < b.id)
    (found : transactions.getLast? = some last) (member : trx ∈ transactions) : trx.id ≤ last.id := by
  obtain ⟨init, rfl⟩ := List.getLast?_eq_some_iff.mp found
  rcases List.mem_append.mp member with early | here
  · exact ((List.pairwise_append.mp sorted).2.2 trx early last (List.mem_singleton.mpr rfl)).le
  · rw [List.mem_singleton.mp here]

variable (db namespaceId filter) in
/-- What the loop comes to: the end of the log, or deltas up to the pointer that it returns. -/
theorem scan_spec (some : 1 ≤ limit) (pointer : Nat) :
    ((scan db namespaceId filter limit pointer).1 = [] ∧ Exhausted db namespaceId filter pointer) ∨
    ∃ trxs, trxs ≠ [] ∧ pointer < (scan db namespaceId filter limit pointer).2 ∧
      Covers db namespaceId filter pointer (scan db namespaceId filter limit pointer).2 trxs ∧
      (scan db namespaceId filter limit pointer).1.map Option.some =
        trxs.map (formatTransaction db namespaceId) := by
  induction count : (transactionsAfter db namespaceId filter pointer).length using Nat.strong_induction_on
    generalizing pointer with
  | h count ih =>
    let page := (transactionsAfter db namespaceId filter pointer).take limit
    have sorted : page.Pairwise fun a b => a.id < b.id := page_sorted
    cases upTo : page.getLast? with
    | none =>
      have read : page = [] := List.getLast?_eq_none_iff.mp upTo
      have empty : transactionsAfter db namespaceId filter pointer = [] := by
        rcases List.take_eq_nil_iff.mp read with zero | empty
        · omega
        · exact empty
      rw [scan_end read]
      exact .inl ⟨rfl, by simp [Exhausted, empty]⟩
    | some last =>
      have read : last ∈ page := List.mem_of_getLast? upTo
      have after := ((mem_transactionsAfter ..).mp (List.mem_of_mem_take read)).2.1
      cases found : (surviving db namespaceId page).getLast? with
      | some trx =>
        have member := List.mem_of_getLast? found
        obtain ⟨inside, _⟩ := mem_surviving.mp member
        rw [scan_page rfl found]
        refine .inr ⟨surviving db namespaceId page, List.ne_nil_of_mem member, ?_, ?_, ?_⟩
        · exact ((mem_transactionsAfter ..).mp (List.mem_of_mem_take inside)).2.1
        · exact covers_page inside fun other => le_of_getLast? (surviving_sorted sorted) found
        · exact (results_spec sorted).2
      | none =>
        have none : surviving db namespaceId page = [] := List.getLast?_eq_none_iff.mp found
        have passed : Covers db namespaceId filter pointer last.id [] := by
          rw [← none]
          refine covers_page read fun other survives => ?_
          rw [none] at survives
          cases survives
        rw [scan_skip rfl upTo none]
        have shorter := transactionsAfter_shorter _ _ _ _ (List.mem_of_mem_take read)
        rcases ih _ (count ▸ shorter) last.id rfl with ⟨empty, rest⟩ | ⟨trxs, nonempty, below, rest, deltas⟩
        · exact .inl ⟨empty, rest.before passed after.le⟩
        · exact .inr ⟨trxs, nonempty, after.trans below, passed.append rest after.le below.le, deltas⟩

end Scan

/-! ## Paging through the log -/
section Paging
variable {A : Type}

/-- Calls with the pointer that the call before has returned, up to the one that finds nothing. -/
inductive Reads (db : Db A) (namespaceId limit : Nat) :
    Filter → Nat → List (List (Delta A) × Nat) → Prop where
  | last (found : formatTransactionsAfterPointer db namespaceId filter limit pointer = .ok ([], upTo)) :
      Reads db namespaceId limit filter pointer []
  | more (found : formatTransactionsAfterPointer db namespaceId filter limit pointer =
        .ok (deltas, upTo)) (some : deltas ≠ [])
      (rest : Reads db namespaceId limit filter.next upTo pages) :
      Reads db namespaceId limit filter pointer ((deltas, upTo) :: pages)

/-- The pages have, in order, deltas of selected transactions after the start, and among them that
of the latest transaction for each object and command. -/
structure Complete (db : Db A) (namespaceId : Nat) (filter : Filter) (start : Nat)
    (pages : List (List (Delta A) × Nat)) (trxs : List Transaction) : Prop where
  rising : (start :: pages.map Prod.snd).Pairwise (· < ·)
  ordered : trxs.Pairwise fun a b => a.id < b.id
  deltas : trxs.map (formatTransaction db namespaceId) = (pages.flatMap Prod.fst).map some
  selected : ∀ trx ∈ trxs, trx ∈ transactionsAfter db namespaceId filter start
  all : ∀ trx ∈ transactionsAfter db namespaceId filter start,
    Latest (transactionsAfter db namespaceId filter start) trx →
    (formatTransaction db namespaceId trx).isSome → trx ∈ trxs

/-- Whatever pointer a client starts from, it gets all there is after it. -/
def DeltasComplete (db : Db A) (namespaceId : Nat) (filter : Filter) : Prop :=
  ∀ start limit, 1 ≤ limit → ∃ pages trxs, Reads db namespaceId limit filter start pages ∧
    Complete db namespaceId filter start pages trxs

/-- There is a last transaction by the time of creation, and nothing of interest has a larger id. -/
def LastIsLargest (db : Db A) (namespaceId : Nat) (filter : Filter) : Prop :=
  ∃ lastTrx ∈ getLastTrxIdForNamespace db namespaceId, Exhausted db namespaceId filter lastTrx

theorem transactionsAfter_next (db : Db A) (namespaceId : Nat) (filter : Filter) (pointer : Nat) :
    transactionsAfter db namespaceId filter.next pointer =
      transactionsAfter db namespaceId filter pointer := by
  simp only [transactionsAfter, Filter.selects_next]

theorem lastIsLargest_next (db : Db A) (namespaceId : Nat) (filter : Filter) :
    LastIsLargest db namespaceId filter.next ↔ LastIsLargest db namespaceId filter := by
  simp only [LastIsLargest, Exhausted, transactionsAfter_next]

theorem Exhausted.complete {db : Db A} (exhausted : Exhausted db namespaceId filter start) :
    Complete db namespaceId filter start [] [] where
  rising := List.pairwise_singleton _ _
  ordered := .nil
  deltas := rfl
  selected := nofun
  all trx inside latest format := by
    rw [exhausted trx inside latest] at format
    cases format

/-- One more page before the pages that are complete from its pointer on. -/
theorem Covers.complete {db : Db A} (covers : Covers db namespaceId filter start upTo first)
    (below : start < upTo) (deltas : page.map some = first.map (formatTransaction db namespaceId))
    (rest : Complete db namespaceId filter upTo pages trxs) :
    Complete db namespaceId filter start ((page, upTo) :: pages) (first ++ trxs) where
  rising := by
    rw [List.map_cons, List.pairwise_cons]
    refine ⟨fun pointer member => ?_, rest.rising⟩
    rcases List.mem_cons.mp member with rfl | later
    · exact below
    · exact below.trans ((List.pairwise_cons.mp rest.rising).1 pointer later)
  ordered := by
    refine List.pairwise_append.mpr ⟨covers.sorted, rest.ordered, fun a early b late => ?_⟩
    have upTo := (covers.among a early).2.1
    have after := ((mem_transactionsAfter ..).mp (rest.selected b late)).2.1
    omega
  deltas := by
    rw [List.map_append, ← deltas, rest.deltas, List.flatMap_cons, List.map_append]
  selected trx member := by
    rcases List.mem_append.mp member with early | late
    · exact (covers.among trx early).1
    · exact ((mem_after below.le).mp (rest.selected trx late)).1
  all trx inside latest format := by
    rcases Nat.lt_or_ge upTo trx.id with late | early
    · exact List.mem_append_right _
        (rest.all trx ((mem_after below.le).mpr ⟨inside, late⟩) (latest.after below.le) format)
    · exact List.mem_append_left _ (covers.all trx inside early latest format)

theorem complete_next {db : Db A} (complete : Complete db namespaceId filter.next start pages trxs) :
    Complete db namespaceId filter start pages trxs := by
  obtain ⟨rising, ordered, deltas, selected, all⟩ := complete
  rw [transactionsAfter_next] at selected all
  exact ⟨rising, ordered, deltas, selected, all⟩

/-- Reading on from any pointer. -/
theorem reads_complete {db : Db A} (largest : LastIsLargest db namespaceId filter) (some : 1 ≤ limit)
    (start : Nat) : ∃ pages trxs, Reads db namespaceId limit filter start pages ∧
      Complete db namespaceId filter start pages trxs := by
  induction count : (transactionsAfter db namespaceId filter start).length using Nat.strong_induction_on
    generalizing start filter with
  | h size ih =>
    obtain ⟨lastTrx, found, exhausted⟩ := largest
    by_cases same : lastTrx = start
    · subst same
      refine ⟨[], [], .last (?_ : _ = Except.ok ([], lastTrx)), exhausted.complete⟩
      rw [formatTransactionsAfterPointer, found]
      exact if_pos rfl
    · have call : formatTransactionsAfterPointer db namespaceId filter limit start =
          .ok (scan db namespaceId filter limit start) := by
        rw [formatTransactionsAfterPointer, found]
        exact if_neg same
      rcases scan_spec db namespaceId filter some start with
        ⟨empty, none⟩ | ⟨first, nonempty, below, covers, deltas⟩
      · exact ⟨[], [], .last (call.trans (congrArg Except.ok (Prod.ext empty rfl))), none.complete⟩
      · obtain ⟨trx, member⟩ := List.exists_mem_of_ne_nil _ nonempty
        obtain ⟨inside, upTo, _⟩ := covers.among trx member
        have fewer : (transactionsAfter db namespaceId filter.next
            (scan db namespaceId filter limit start).2).length < size := by
          rw [← count, transactionsAfter_next, ← transactionsAfter_filter db namespaceId filter start below.le]
          exact List.length_filter_lt_length_iff_exists.mpr ⟨trx, inside, by simpa using upTo⟩
        obtain ⟨pages, trxs, reads, complete⟩ := ih _ fewer
          ((lastIsLargest_next ..).mpr ⟨lastTrx, found, exhausted⟩) _ rfl
        refine ⟨_, _, .more call (fun empty => ?_) reads, covers.complete below deltas (complete_next complete)⟩
        rw [empty] at deltas
        exact nonempty (List.map_eq_nil_iff.mp deltas.symm)

/-- A client that starts from the last transaction gets nothing. -/
theorem lastIsLargest_of_complete {db : Db A} (complete : DeltasComplete db namespaceId filter) :
    LastIsLargest db namespaceId filter := by
  obtain ⟨lastTrx, found⟩ : ∃ lastTrx, getLastTrxIdForNamespace db namespaceId = some lastTrx := by
    rw [← Option.isSome_iff_exists, Option.isSome_iff_ne_none]
    intro none
    obtain ⟨_, _, reads, _⟩ := complete 0 1 (Nat.le_refl 1)
    cases reads with
    | last call | more call => simp [formatTransactionsAfterPointer, none] at call
  refine ⟨lastTrx, found, fun trx inside latest => ?_⟩
  obtain ⟨pages, trxs, reads, whole⟩ := complete lastTrx 1 (Nat.le_refl 1)
  have stopped : pages = [] := by
    cases reads with
    | last => rfl
    | more call nonempty =>
      simp only [formatTransactionsAfterPointer, found, if_true, Except.ok.injEq, Prod.mk.injEq] at call
      exact absurd call.1.symm nonempty
  subst stopped
  by_contra format
  have member := whole.all trx inside latest (Option.isSome_iff_ne_none.mpr format)
  rw [List.map_eq_nil_iff.mp whole.deltas] at member
  cases member

/-- Paging is complete exactly when the log has a last transaction by the time of creation, after
which no id is larger that a delta is due for. -/
theorem deltas_complete_iff (db : Db A) (namespaceId : Nat) (filter : Filter) :
    DeltasComplete db namespaceId filter ↔ LastIsLargest db namespaceId filter := by
  constructor
  · exact lastIsLargest_of_complete
  · exact fun largest start limit some => reads_complete largest some start

end Paging

namespace Sample

def everything : Filter where
  excludeTypes := []
  includeTypes := none
  excludeFolders := true
  excludeMetadata := true
  excludeAccount := true
  metadataOnce := Filter.none_once

def created (id createdAt : Nat) : Transaction where
  id
  namespaceId := 1
  objectType := .thread
  recordId := id
  objectPublicId := "thread"
  publicId := "cursor"
  command := .insert
  createdAt

/-- Two hosts have each created a thread, and the clock of the second one is behind. -/
def twoHosts : Db String where
  transactions := [created 1 20, created 2 10]
  objects objectClass id :=
    if objectClass = .thread then some { namespaceId := 1, thread := true, attributes := "thread" } else none
  unique := by decide

end Sample

/-- A client that has read the first thread is never told of the second one. -/
theorem second_host_is_never_read : ¬ DeltasComplete Sample.twoHosts 1 Sample.everything := by
  intro complete
  obtain ⟨lastTrx, found, exhausted⟩ := lastIsLargest_of_complete complete
  have last : getLastTrxIdForNamespace Sample.twoHosts 1 = some 1 := by decide
  cases last.symm.trans found
  have after : transactionsAfter Sample.twoHosts 1 Sample.everything 1 = [Sample.created 2 10] := by decide
  rw [Exhausted, after] at exhausted
  have none := exhausted _ List.mem_cons_self (by simp [Latest])
  cases none

end DeltaSync
end SyncEngine
