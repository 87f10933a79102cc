import SyncEngine.Transactions.DeltaSync

/-! Where the order of creation meets that of the ids: the transaction that is last by its time of
creation is compared with a pointer, and a cursor is chosen by time and then read from by id. -/
namespace SyncEngine
namespace DeltaSync

theorem exists_argmax {α β : Type} [LinearOrder β] (f : α → β) {items : List α} {a : α} (member : a ∈ items) :
    ∃ last, items.argmax f = some last :=
  Option.ne_none_iff_exists'.mp (mt List.argmax_eq_none.mp (List.ne_nil_of_mem member))

section Last
variable {A : Type} (db : Db A) (namespaceId pointer : Nat)

/-- How a call goes on once it knows the last transaction. -/
inductive Route where
  /-- `return ([], pointer)`, before any rows are read. -/
  | shortcut
  | scanned
deriving DecidableEq, Repr

def route : Except Error Route :=
  match getLastTrxIdForNamespace db namespaceId with
  | none => .error .noResultFound
  | some lastTrx => .ok (if lastTrx = pointer then .shortcut else .scanned)

theorem formatTransactionsAfterPointer_route (filter : Filter) (limit : Nat) :
    formatTransactionsAfterPointer db namespaceId filter limit pointer =
      (route db namespaceId pointer).map fun
        | .shortcut => ([], pointer)
        | .scanned => scan db namespaceId filter limit pointer := by
  unfold formatTransactionsAfterPointer route
  cases getLastTrxIdForNamespace db namespaceId with
  | none => rfl
  | some lastTrx =>
    dsimp only
    split <;> rfl

/-- The rows of a namespace. -/
def Db.log : List Transaction := db.transactions.filter (·.namespaceId = namespaceId)

variable {db namespaceId pointer}

theorem mem_log : trx ∈ db.log namespaceId ↔ trx ∈ db.transactions ∧ trx.namespaceId = namespaceId := by
  simp [Db.log]

theorem log_inj (first : trx ∈ db.log namespaceId) (second : other ∈ db.log namespaceId)
    (same : trx.id = other.id) : trx = other :=
  List.inj_on_of_nodup_map db.unique (mem_log.mp first).1 (mem_log.mp second).1 same

theorem getLastTrxId_eq_some : getLastTrxIdForNamespace db namespaceId = some pointer ↔
    ∃ trx ∈ db.log namespaceId, trx.id = pointer ∧ ∀ other ∈ db.log namespaceId,
      other.createdAt < trx.createdAt ∨ other.createdAt = trx.createdAt ∧ other.id ≤ trx.id := by
  let key (trx : Transaction) := toLex (trx.createdAt, trx.id)
  have ordered (trx other : Transaction) : key other ≤ key trx ↔
      other.createdAt < trx.createdAt ∨ other.createdAt = trx.createdAt ∧ other.id ≤ trx.id :=
    Prod.Lex.toLex_le_toLex
  unfold getLastTrxIdForNamespace
  rw [Option.map_eq_some_iff]
  constructor
  · rintro ⟨trx, last, rfl⟩
    exact ⟨trx, List.argmax_mem last, rfl, fun other member =>
      (ordered trx other).mp (List.le_of_mem_argmax (f := key) member last)⟩
  · rintro ⟨trx, member, rfl, last⟩
    obtain ⟨found, is_last⟩ := exists_argmax key member
    have above := (ordered found trx).mp (List.le_of_mem_argmax (f := key) member is_last)
    have below := last found (List.argmax_mem is_last)
    exact ⟨found, is_last, by omega⟩

theorem route_shortcut : route db namespaceId pointer = .ok .shortcut ↔
    getLastTrxIdForNamespace db namespaceId = some pointer := by
  unfold route
  cases getLastTrxIdForNamespace db namespaceId with
  | none => simp
  | some lastTrx => by_cases same : lastTrx = pointer <;> simp [same]

/-- The pointer's transaction was created after all that have larger ids, and there are some; none of
those with smaller ids was created after it. -/
def Outran (db : Db A) (namespaceId pointer : Nat) : Prop :=
  ∃ trx ∈ db.log namespaceId, trx.id = pointer ∧
    (∃ larger ∈ db.log namespaceId, pointer < larger.id) ∧
    (∀ larger ∈ db.log namespaceId, pointer < larger.id → larger.createdAt < trx.createdAt) ∧
    ∀ smaller ∈ db.log namespaceId, smaller.id < pointer → smaller.createdAt ≤ trx.createdAt

theorem shortcut_only_at_end_iff (db : Db A) (namespaceId pointer : Nat) :
    (route db namespaceId pointer = .ok .shortcut →
        ∀ trx ∈ db.transactions, trx.namespaceId = namespaceId → trx.id ≤ pointer) ↔
      ¬ Outran db namespaceId pointer := by
  rw [route_shortcut, getLastTrxId_eq_some]
  constructor
  · rintro none_larger ⟨trx, member, rfl, ⟨larger, inside, above⟩, earlier, smaller⟩
    obtain ⟨among, own⟩ := mem_log.mp inside
    refine absurd (none_larger ⟨trx, member, rfl, fun other log => ?_⟩ larger among own) (by omega)
    rcases Nat.lt_trichotomy other.id trx.id with below | same | beyond
    · have := smaller other log below
      omega
    · rw [log_inj log member same]
      exact .inr ⟨rfl, Nat.le_refl _⟩
    · exact .inl (earlier other log beyond)
  · rintro in_order ⟨trx, member, rfl, last⟩ larger among own
    by_contra above
    refine in_order ⟨trx, member, rfl, ⟨larger, mem_log.mpr ⟨among, own⟩, by omega⟩, ?_, ?_⟩
    · intro other log beyond
      have := last other log
      omega
    · intro other log below
      have := last other log
      omega

end Last

/-- The host whose clock is ahead is read first, and its transaction stays the last one by its time. -/
theorem shortcut_hides_second_host : ¬ (route Sample.twoHosts 1 1 = .ok .shortcut →
    ∀ trx ∈ Sample.twoHosts.transactions, trx.namespaceId = 1 → trx.id ≤ 1) := by
  intro at_end
  have taken : route Sample.twoHosts 1 1 = .ok .shortcut := by decide
  exact absurd (at_end taken (Sample.created 2 10) (by decide) rfl) (by decide)

/-! ## A cursor near a timestamp -/
section Near
variable {A : Type} (db : Db A) (namespaceId : Nat) (timestamp : Int)

/-- The first of the times of creation before the timestamp, the latest first. -/
def latestTimestamp : Option Nat :=
  (((db.log namespaceId).filter fun trx => (trx.createdAt : Int) < timestamp).map Transaction.createdAt).max?

/-- Among the transactions of that time, the one with the largest id. -/
def latestTransaction : Option Transaction :=
  ((db.log namespaceId).filter fun trx => some trx.createdAt = latestTimestamp db namespaceId timestamp).argmax
    Transaction.id

/-- `'0'` stands for the start of the log. -/
def getTransactionCursorNearTimestamp : String :=
  match latestTransaction db namespaceId timestamp with
  | none => "0"
  | some latest => latest.publicId

variable {db namespaceId timestamp}

theorem latestTimestamp_eq_some : latestTimestamp db namespaceId timestamp = some time ↔
    (time : Int) < timestamp ∧ (∃ trx ∈ db.log namespaceId, trx.createdAt = time) ∧
      ∀ trx ∈ db.log namespaceId, (trx.createdAt : Int) < timestamp → trx.createdAt ≤ time := by
  unfold latestTimestamp
  rw [List.max?_eq_some_iff]
  simp only [List.mem_map, List.mem_filter, decide_eq_true_eq]
  constructor
  · rintro ⟨⟨trx, ⟨member, before⟩, rfl⟩, largest⟩
    exact ⟨before, ⟨trx, member, rfl⟩, fun other log early => largest _ ⟨other, ⟨log, early⟩, rfl⟩⟩
  · rintro ⟨before, ⟨trx, member, rfl⟩, largest⟩
    refine ⟨⟨trx, ⟨member, before⟩, rfl⟩, ?_⟩
    rintro _ ⟨other, ⟨log, early⟩, rfl⟩
    exact largest other log early

/-- What the cursor's transaction is chosen by. -/
structure NearTimestamp (db : Db A) (namespaceId : Nat) (timestamp : Int) (trx : Transaction) : Prop where
  log : trx ∈ db.log namespaceId
  before : (trx.createdAt : Int) < timestamp
  latest : ∀ other ∈ db.log namespaceId, (other.createdAt : Int) < timestamp → other.createdAt ≤ trx.createdAt

theorem mem_candidates : trx ∈ (db.log namespaceId).filter
      (fun trx => some trx.createdAt = latestTimestamp db namespaceId timestamp) ↔
    NearTimestamp db namespaceId timestamp trx := by
  rw [List.mem_filter, decide_eq_true_eq, eq_comm, latestTimestamp_eq_some]
  constructor
  · rintro ⟨log, before, _, latest⟩
    exact ⟨log, before, latest⟩
  · rintro ⟨log, before, latest⟩
    exact ⟨log, before, ⟨trx, log, rfl⟩, latest⟩

theorem latestTransaction_eq_some : latestTransaction db namespaceId timestamp = some trx ↔
    NearTimestamp db namespaceId timestamp trx ∧ ∀ other ∈ db.log namespaceId,
      other.createdAt = trx.createdAt → other.id ≤ trx.id := by
  unfold latestTransaction
  constructor
  · intro last
    have near := mem_candidates.mp (List.argmax_mem last)
    refine ⟨near, fun other log same => List.le_of_mem_argmax (mem_candidates.mpr ?_) last⟩
    exact ⟨log, same ▸ near.before, same ▸ near.latest⟩
  · rintro ⟨near, largest⟩
    obtain ⟨found, last⟩ := exists_argmax Transaction.id (mem_candidates.mpr near)
    have found_near := mem_candidates.mp (List.argmax_mem last)
    have same : found.createdAt = trx.createdAt :=
      (near.latest found found_near.log found_near.before).antisymm
        (found_near.latest trx near.log near.before)
    have above := List.le_of_mem_argmax (mem_candidates.mpr near) last
    rw [last, log_inj found_near.log near.log ((largest found found_near.log same).antisymm above)]

/-- Reading on from the cursor misses nothing that was created at the timestamp or later. -/
def CursorCovers (db : Db A) (namespaceId : Nat) (timestamp : Int) : Prop :=
  match latestTransaction db namespaceId timestamp with
  | none => getTransactionCursorNearTimestamp db namespaceId timestamp = "0"
  | some cursor => getTransactionCursorNearTimestamp db namespaceId timestamp = cursor.publicId ∧
      ∀ trx ∈ db.transactions, trx.namespaceId = namespaceId → timestamp ≤ trx.createdAt → cursor.id < trx.id

theorem cursorCovers_eq : CursorCovers db namespaceId timestamp ↔
    ∀ cursor ∈ latestTransaction db namespaceId timestamp, ∀ trx ∈ db.transactions,
      trx.namespaceId = namespaceId → timestamp ≤ trx.createdAt → cursor.id < trx.id := by
  unfold CursorCovers getTransactionCursorNearTimestamp
  cases latestTransaction db namespaceId timestamp <;> simp

/-- The transactions of the last time of creation before the timestamp decide: no later one may have a
smaller id than one of them. -/
theorem cursor_covers_iff (db : Db A) (namespaceId : Nat) (timestamp : Int) :
    CursorCovers db namespaceId timestamp ↔
      ∀ early, NearTimestamp db namespaceId timestamp early → ∀ late ∈ db.transactions,
        late.namespaceId = namespaceId → timestamp ≤ late.createdAt → early.id < late.id := by
  rw [cursorCovers_eq]
  constructor
  · intro covers early near late among own after
    obtain ⟨cursor, found⟩ : ∃ cursor, latestTransaction db namespaceId timestamp = some cursor := by
      exact exists_argmax Transaction.id (mem_candidates.mpr near)
    obtain ⟨cursor_near, largest⟩ := latestTransaction_eq_some.mp found
    have same : early.createdAt = cursor.createdAt :=
      (cursor_near.latest early near.log near.before).antisymm
        (near.latest cursor cursor_near.log cursor_near.before)
    exact (largest early near.log same).trans_lt (covers cursor found late among own after)
  · intro ordered cursor found
    exact ordered cursor (latestTransaction_eq_some.mp found).1

end Near

/-- Between the two clocks, the cursor is the transaction of the host that is behind. -/
theorem cursor_passes_second_host : ¬ CursorCovers Sample.twoHosts 1 15 := by
  rw [cursorCovers_eq]
  intro covers
  have behind : latestTransaction Sample.twoHosts 1 15 = some (Sample.created 2 10) := by decide
  exact absurd (covers _ behind (Sample.created 1 20) (by decide) rfl (by decide)) (by decide)

end DeltaSync
end SyncEngine
