import Mathlib.Data.List.Dedup
import Mathlib.Logic.Function.Iterate
import Mathlib.Logic.Relation
import SyncEngine.Transactions.DeltaSync

/-! One reader of the transaction log beside any number of sessions that write it. Ids are given out
when a session flushes, its rows can be seen when it commits; each query of the reader sees what has
been committed by then. -/
namespace SyncEngine
namespace DeltaReader
open DeltaSync

/-- A row and the session that has flushed it; `none` once it is committed. -/
structure Row where
  trx : Transaction
  session : Option Nat
deriving DecidableEq, Repr

structure Log where
  rows : List Row
  nextId : Nat
  unique : (rows.map (·.trx.id)).Nodup
  below : ∀ row ∈ rows, row.trx.id < nextId

namespace Log

def visible (log : Log) : List Transaction :=
  (log.rows.filter (·.session = none)).map Row.trx

/-- What a session has flushed and not committed yet. -/
def flushed (log : Log) (session : Nat) : List Transaction :=
  (log.rows.filter (·.session = some session)).map Row.trx

theorem visible_unique (log : Log) : (log.visible.map Transaction.id).Nodup := by
  rw [visible, List.map_map]
  exact log.unique.sublist (List.filter_sublist.map _)

/-- `create_revision`: the table gives the row its id. -/
def flush (log : Log) (session : Nat) (trx : Transaction) : Log where
  rows := log.rows ++ [{ trx := { trx with id := log.nextId }, session := some session }]
  nextId := log.nextId + 1
  unique := by
    rw [List.map_append, List.nodup_append]
    refine ⟨log.unique, List.nodup_singleton _, ?_⟩
    rintro _ member _ last rfl
    obtain ⟨row, among, same⟩ := List.mem_map.mp member
    have := log.below row among
    simp only [List.map_cons, List.map_nil, List.mem_singleton] at last
    omega
  below row member := by
    rcases List.mem_append.mp member with old | new
    · exact (log.below row old).trans (Nat.lt_succ_self _)
    · rw [List.mem_singleton.mp new]
      exact Nat.lt_succ_self _

def commit (log : Log) (session : Nat) : Log where
  rows := log.rows.map fun row => if row.session = some session then { row with session := none } else row
  nextId := log.nextId
  unique := by
    rw [List.map_map]
    convert log.unique using 3 with row
    simp only [Function.comp]
    split <;> rfl
  below row member := by
    obtain ⟨old, among, rfl⟩ := List.mem_map.mp member
    split <;> exact log.below old among

def rollback (log : Log) (session : Nat) : Log where
  rows := log.rows.filter (·.session ≠ some session)
  nextId := log.nextId
  unique := log.unique.sublist (List.filter_sublist.map _)
  below row member := log.below row (List.mem_filter.mp member).1

@[simp] theorem visible_flush (log : Log) (session : Nat) (trx : Transaction) :
    (log.flush session trx).visible = log.visible := by
  simp [visible, flush]

@[simp] theorem visible_rollback (log : Log) (session : Nat) :
    (log.rollback session).visible = log.visible := by
  simp only [visible, rollback, List.filter_filter]
  congr 2
  funext row
  cases row.session <;> simp

theorem mem_visible_commit {log : Log} {session : Nat} : trx ∈ (log.commit session).visible ↔
    trx ∈ log.visible ∨ trx ∈ log.flushed session := by
  simp only [visible, flushed, commit, List.mem_map, List.mem_filter, decide_eq_true_eq]
  constructor
  · rintro ⟨_, ⟨⟨row, member, rfl⟩, seen⟩, rfl⟩
    split at seen
    · rename_i own
      exact .inr ⟨row, ⟨member, own⟩, by simp [own]⟩
    · rename_i other
      exact .inl ⟨row, ⟨member, seen⟩, by simp [other]⟩
  · rintro (⟨row, ⟨member, seen⟩, rfl⟩ | ⟨row, ⟨member, own⟩, rfl⟩)
    · exact ⟨row, ⟨⟨row, member, by simp [seen]⟩, seen⟩, rfl⟩
    · exact ⟨{ row with session := none }, ⟨⟨row, member, by simp [own]⟩, rfl⟩, rfl⟩

end Log

/-! ## The reader -/

/-- Who reads, and what: the arguments of its calls. -/
structure Reader where
  namespaceId : Nat
  filter : Filter
  limit : Nat
  some : 1 ≤ limit

/-- Between which two queries the reader is. -/
inductive Phase (A : Type) where
  | idle
  /-- At the top of the loop. -/
  | begun (pointer : Nat)
  /-- The rows have been read; the objects of some types are still to be queried. -/
  | formatting (pointer : Nat) (transactions : List Transaction) (types : List ObjectType)
    (results : List (Nat × Delta A))

structure World (A : Type) where
  log : Log
  objects : ObjectClass → Nat → Option (Object A)
  phase : Phase A
  /-- What the last call has returned. -/
  pointer : Nat
  /-- All deltas so far, with the ids of their transactions. -/
  delivered : List (Nat × Delta A)
  /-- Transactions whose object the query for it did not find. -/
  missing : List Transaction
  /-- Transactions that were committed when the reader had already read beyond their ids. -/
  late : List Transaction

section Steps
variable {A : Type}

namespace World

def db (w : World A) : DeltaSync.Db A where
  transactions := w.log.visible
  objects := w.objects
  unique := w.log.visible_unique

/-- The largest id up to which rows have been read. -/
def front (w : World A) : Nat :=
  match w.phase with
  | .idle => w.pointer
  | .begun pointer => pointer
  | .formatting pointer transactions _ _ => (transactions.getLast?.map Transaction.id).getD pointer

def commit (session : Nat) (objects : ObjectClass → Nat → Option (Object A)) (w : World A) : World A :=
  { w with
    log := w.log.commit session, objects
    late := w.late ++ (w.log.flushed session).filter (·.id ≤ w.front) }

end World

/-- The query for the objects of one type, and what is made of its transactions. -/
def typeResults (db : DeltaSync.Db A) (namespaceId : Nat) (transactions : List Transaction)
    (objectType : ObjectType) : List (Nat × Delta A) :=
  ((latestTrxs transactions).filter (·.objectType = objectType)).filterMap fun trx =>
    (formatTransaction db namespaceId trx).map fun delta => (trx.id, delta)

def typeMissing (db : DeltaSync.Db A) (namespaceId : Nat) (transactions : List Transaction)
    (objectType : ObjectType) : List Transaction :=
  ((latestTrxs transactions).filter (·.objectType = objectType)).filter fun trx =>
    (formatTransaction db namespaceId trx).isNone

/-- The next query of the reader, which calls again and again with the pointer it was given. -/
def World.read (reader : Reader) (w : World A) : World A :=
  match w.phase with
  | .idle =>
    match getLastTrxIdForNamespace w.db reader.namespaceId with
    | none => w
    | some lastTrx => if lastTrx = w.pointer then w else { w with phase := .begun w.pointer }
  | .begun pointer =>
    let transactions :=
      (transactionsAfter w.db reader.namespaceId reader.filter pointer).take reader.limit
    if transactions = [] then { w with phase := .idle, pointer }
    else { w with
      phase := .formatting pointer transactions (transactions.map Transaction.objectType).dedup [] }
  | .formatting pointer transactions (objectType :: types) results =>
    { w with
      phase := .formatting pointer transactions types
        (results ++ typeResults w.db reader.namespaceId transactions objectType)
      missing := w.missing ++ typeMissing w.db reader.namespaceId transactions objectType }
  | .formatting _ transactions [] results =>
    let results := results.insertionSort fun a b => a.1 ≤ b.1
    match results.getLast?, transactions.getLast? with
    | some (id, _), _ => { w with phase := .idle, pointer := id, delivered := w.delivered ++ results }
    | none, some last => { w with phase := .begun last.id }
    | none, none => w

inductive Step (reader : Reader) : World A → World A → Prop where
  | flush (session : Nat) (trx : Transaction) : Step reader w { w with log := w.log.flush session trx }
  | commit (session : Nat) (objects : ObjectClass → Nat → Option (Object A)) :
      Step reader w (w.commit session objects)
  | rollback (session : Nat) : Step reader w { w with log := w.log.rollback session }
  | read : Step reader w (w.read reader)

/-- A reader that is about to make its first call. -/
def starting (log : Log) (objects : ObjectClass → Nat → Option (Object A)) (start : Nat) : World A where
  log
  objects
  phase := .idle
  pointer := start
  delivered := []
  missing := []
  late := []

def Reaches (reader : Reader) (log : Log) (objects : ObjectClass → Nat → Option (Object A)) (start : Nat)
    (w : World A) : Prop := Relation.ReflTransGen (Step reader) (starting log objects start) w

end Steps

/-! ## What the reader has settled -/
section Settled
variable {A : Type} {reader : Reader} {start pointer : Nat} {transactions : List Transaction}
  {types : List ObjectType} {results : List (Nat × Delta A)}

/-- The reader asks for transactions like this one. -/
def Reader.Wants (reader : Reader) (trx : Transaction) : Prop :=
  trx.namespaceId = reader.namespaceId ∧ reader.filter.Selects trx.objectType

def IsDelta (trx : Transaction) (delta : Delta A) : Prop :=
  delta.object = trx.objectType ∧ delta.event = EVENT_NAME_FOR_COMMAND trx.command ∧
    delta.id = trx.objectPublicId ∧ delta.cursor = trx.publicId

/-- Its own delta has been delivered, or a later one for the same record and command. -/
def Covered (w : World A) (trx : Transaction) : Prop :=
  ∃ other ∈ w.log.visible, other.key = trx.key ∧ trx.id ≤ other.id ∧
    ∃ delta, (other.id, delta) ∈ w.delivered ∧ IsDelta other delta

/-- The same for a query that did not find the object. -/
def Missed (w : World A) (trx : Transaction) : Prop :=
  ∃ other ∈ w.missing, other.key = trx.key ∧ trx.id ≤ other.id

def Settled (w : World A) (trx : Transaction) : Prop := trx ∈ w.late ∨ Covered w trx ∨ Missed w trx

theorem Settled.mono {w later : World A} (settled : Settled w trx) (late : w.late ⊆ later.late)
    (visible : w.log.visible ⊆ later.log.visible) (delivered : w.delivered ⊆ later.delivered)
    (missing : w.missing ⊆ later.missing) : Settled later trx := by
  rcases settled with overtaken | ⟨other, seen, key, below, delta, sent, same⟩ | ⟨other, gone, rest⟩
  · exact .inl (late overtaken)
  · exact .inr (.inl ⟨other, visible seen, key, below, delta, delivered sent, same⟩)
  · exact .inr (.inr ⟨other, missing gone, rest⟩)

/-- What is known of a page that has been read. -/
structure Reading (reader : Reader) (w : World A) (pointer : Nat) (transactions : List Transaction)
    (types : List ObjectType) (results : List (Nat × Delta A)) : Prop where
  sorted : transactions.Pairwise fun a b => a.id < b.id
  nonempty : transactions ≠ []
  seen : ∀ trx ∈ transactions, trx ∈ w.log.visible ∧ pointer < trx.id
  complete : ∀ trx ∈ w.log.visible, reader.Wants trx → pointer < trx.id → trx.id ≤ w.front →
    trx ∈ transactions ∨ trx ∈ w.late
  done : ∀ trx ∈ latestTrxs transactions, trx.objectType ∉ types →
    trx ∈ w.missing ∨ ∃ delta, (trx.id, delta) ∈ results ∧ IsDelta trx delta
  origin : ∀ entry ∈ results, ∃ trx ∈ transactions, trx.id = entry.1

/-- The pointer that the present page starts from. -/
def World.base (w : World A) : Nat :=
  match w.phase with
  | .idle => w.pointer
  | .begun pointer => pointer
  | .formatting pointer _ _ _ => pointer

structure Tracks (reader : Reader) (start : Nat) (w : World A) : Prop where
  passed : ∀ trx ∈ w.log.visible, reader.Wants trx → start < trx.id → trx.id ≤ w.base → Settled w trx
  upTo : w.pointer ≤ w.base
  reading : ∀ pointer transactions types results,
    w.phase = .formatting pointer transactions types results →
    Reading reader w pointer transactions types results

theorem Reading.base_le {w : World A} (here : w.phase = .formatting pointer transactions types results)
    (reading : Reading reader w pointer transactions types results) : w.base ≤ w.front := by
  obtain ⟨last, found⟩ := Option.ne_none_iff_exists'.mp
    (fun none => reading.nonempty (List.getLast?_eq_none_iff.mp none))
  have above := (reading.seen last (List.mem_of_getLast? found)).2
  simp only [World.base, World.front, here, found, Option.map_some, Option.getD_some]
  exact above.le

theorem Tracks.base_le {w : World A} (tracks : Tracks reader start w) : w.base ≤ w.front := by
  cases here : w.phase with
  | idle | begun pointer => simp [World.base, World.front, here]
  | formatting pointer transactions types results =>
    exact (tracks.reading _ _ _ _ here).base_le here

/-- Sessions that write give the reader no trouble as long as what becomes visible behind it counts
as late. -/
theorem Tracks.grow {w later : World A} (tracks : Tracks reader start w) (phase : later.phase = w.phase)
    (pointer : later.pointer = w.pointer) (delivered : later.delivered = w.delivered)
    (missing : later.missing = w.missing) (late : w.late ⊆ later.late)
    (visible : w.log.visible ⊆ later.log.visible)
    (fresh : ∀ trx ∈ later.log.visible, trx ∈ w.log.visible ∨ (trx.id ≤ w.front → trx ∈ later.late)) :
    Tracks reader start later := by
  have base : later.base = w.base := by simp only [World.base, phase, pointer]
  have front : later.front = w.front := by simp only [World.front, phase, pointer]
  constructor
  · intro trx seen wanted after below
    rw [base] at below
    rcases fresh trx seen with old | new
    · exact (tracks.passed trx old wanted after below).mono late visible (by simp [delivered])
        (by simp [missing])
    · exact .inl (new (below.trans tracks.base_le))
  · rw [base, pointer]
    exact tracks.upTo
  · intro pointer transactions types results here
    rw [phase] at here
    obtain ⟨sorted, nonempty, seen, complete, done, origin⟩ := tracks.reading _ _ _ _ here
    refine ⟨sorted, nonempty, fun trx member => ?_, ?_, ?_, origin⟩
    · exact ⟨visible (seen trx member).1, (seen trx member).2⟩
    · intro trx now wanted above below
      rw [front] at below
      rcases fresh trx now with old | new
      · exact (complete trx old wanted above below).imp_right fun member => late member
      · exact .inr (new below)
    · rw [missing]
      exact done

theorem Tracks.commit {w : World A} (tracks : Tracks reader start w) (session : Nat)
    (objects : ObjectClass → Nat → Option (Object A)) : Tracks reader start (w.commit session objects) := by
  refine tracks.grow rfl rfl rfl rfl (List.subset_append_left ..) ?_ fun trx seen => ?_
  · exact fun trx seen => Log.mem_visible_commit.mpr (.inl seen)
  · refine (Log.mem_visible_commit.mp seen).imp_right fun flushed below => ?_
    exact List.mem_append_right _ (List.mem_filter.mpr ⟨flushed, by simpa using below⟩)

/-! ## The queries of the reader -/

theorem mem_transactionsAfter_db {w : World A} :
    trx ∈ transactionsAfter w.db reader.namespaceId reader.filter pointer ↔
      trx ∈ w.log.visible ∧ pointer < trx.id ∧ reader.Wants trx := mem_transactionsAfter ..

/-- The query for the rows of a page. -/
theorem Tracks.query {w : World A} (tracks : Tracks reader start w) (here : w.phase = .begun pointer) :
    Tracks reader start (w.read reader) := by
  have base : w.base = pointer := by simp only [World.base, here]
  let page := (transactionsAfter w.db reader.namespaceId reader.filter pointer).take reader.limit
  unfold World.read
  rw [here]
  dsimp only
  split
  · constructor
    · intro trx seen wanted after below
      exact tracks.passed trx seen wanted after (base ▸ below)
    · exact Nat.le_refl _
    · intro _ _ _ _ other
      cases other
  · rename_i some
    constructor
    · intro trx seen wanted after below
      exact tracks.passed trx seen wanted after (base ▸ below)
    · exact base ▸ tracks.upTo
    · rintro _ _ _ _ ⟨⟩
      have sorted := transactionsAfter_sorted w.db reader.namespaceId reader.filter pointer
      obtain ⟨last, found⟩ := Option.ne_none_iff_exists'.mp
        (fun none => some (List.getLast?_eq_none_iff.mp none))
      have read := List.mem_of_getLast? found
      refine ⟨page_sorted, some, fun trx member => ?_, fun trx seen wanted above below => .inl ?_, ?_, nofun⟩
      · have inside := mem_transactionsAfter_db.mp (List.mem_of_mem_take member)
        exact ⟨inside.1, inside.2.1⟩
      · simp only [World.front, found, Option.map_some, Option.getD_some] at below
        exact mem_take sorted read (mem_transactionsAfter_db.mpr ⟨seen, above, wanted⟩) below
      · intro trx latest absent
        refine absurd (List.mem_dedup.mpr (List.mem_map_of_mem ?_)) absent
        exact (mem_latestTrxs.mp latest).1

theorem isDelta_of_format {db : DeltaSync.Db A} (format : formatTransaction db namespaceId trx = some delta) :
    IsDelta trx delta := by
  unfold formatTransaction at format
  dsimp only at format
  split at format
  · cases format
    exact ⟨rfl, rfl, rfl, rfl⟩
  · obtain ⟨_, _, rfl⟩ := Option.map_eq_some_iff.mp format
    exact ⟨rfl, rfl, rfl, rfl⟩

/-- The query for the objects of one type. -/
theorem Tracks.format {w : World A} (tracks : Tracks reader start w)
    (here : w.phase = .formatting pointer transactions (objectType :: types) results) :
    Tracks reader start (w.read reader) := by
  have base : w.base = pointer := by simp only [World.base, here]
  have front : w.front = (transactions.getLast?.map Transaction.id).getD pointer := by
    simp only [World.front, here]
  obtain ⟨sorted, nonempty, seen, complete, done, origin⟩ := tracks.reading _ _ _ _ here
  unfold World.read
  rw [here]
  constructor
  · intro trx seen wanted after below
    exact (tracks.passed trx seen wanted after (base ▸ below)).mono (List.Subset.refl _)
      (List.Subset.refl _) (List.Subset.refl _) (List.subset_append_left ..)
  · exact base ▸ tracks.upTo
  · rintro _ _ _ _ ⟨⟩
    refine ⟨sorted, nonempty, seen, ?_, fun trx latest absent => ?_, fun entry member => ?_⟩
    · rw [front] at complete
      exact complete
    · by_cases own : trx.objectType = objectType
      · have among : trx ∈ (latestTrxs transactions).filter (·.objectType = objectType) :=
          List.mem_filter.mpr ⟨latest, by simp [own]⟩
        cases format : formatTransaction w.db reader.namespaceId trx with
        | none => exact .inl (List.mem_append_right _ (List.mem_filter.mpr ⟨among, by simp [format]⟩))
        | some delta =>
          refine .inr ⟨delta, List.mem_append_right _ ?_, isDelta_of_format format⟩
          exact List.mem_filterMap.mpr ⟨trx, among, by simp [format]⟩
      · rcases done trx latest (by simp [own, absent]) with gone | ⟨delta, sent, same⟩
        · exact .inl (List.mem_append_left _ gone)
        · exact .inr ⟨delta, List.mem_append_left _ sent, same⟩
    · rcases List.mem_append.mp member with old | new
      · exact origin entry old
      · obtain ⟨trx, among, format⟩ := List.mem_filterMap.mp new
        obtain ⟨_, _, rfl⟩ := Option.map_eq_some_iff.mp format
        exact ⟨trx, (mem_latestTrxs.mp (List.mem_filter.mp among).1).1, rfl⟩

/-- Each transaction of a page whose objects have all been queried is settled. -/
theorem Reading.settled {w later : World A} (reading : Reading reader w pointer transactions [] results)
    (visible : later.log = w.log) (missing : later.missing = w.missing)
    (delivered : results ⊆ later.delivered) (member : trx ∈ transactions) : Settled later trx := by
  obtain ⟨other, latest, key, below⟩ := exists_latest member
  rcases reading.done other latest nofun with gone | ⟨delta, sent, same⟩
  · exact .inr (.inr ⟨other, missing ▸ gone, key, below⟩)
  · have inside := (mem_latestTrxs.mp latest).1
    exact .inr (.inl ⟨other, visible ▸ (reading.seen other inside).1, key, below, delta,
      delivered sent, same⟩)

/-- The end of a page: its deltas are returned, or the loop goes on. -/
theorem Tracks.finish {w : World A} (tracks : Tracks reader start w)
    (here : w.phase = .formatting pointer transactions [] results) :
    Tracks reader start (w.read reader) := by
  have base : w.base = pointer := by simp only [World.base, here]
  have reading := tracks.reading _ _ _ _ here
  obtain ⟨last, found⟩ := Option.ne_none_iff_exists'.mp
    (fun none => reading.nonempty (List.getLast?_eq_none_iff.mp none))
  have front : w.front = last.id := by simp [World.front, here, found]
  -- Up to here the page has settled everything, whatever has been delivered with it.
  have upTo : ∀ {later : World A}, later.log = w.log → later.late = w.late →
      later.missing = w.missing → w.delivered ++ results ⊆ later.delivered → ∀ trx ∈ later.log.visible,
      reader.Wants trx → start < trx.id → trx.id ≤ last.id → Settled later trx := by
    intro later log late missing delivered trx seen wanted after below
    rw [log] at seen
    rcases Nat.lt_or_ge pointer trx.id with above | before
    · rcases reading.complete trx seen wanted above (front ▸ below) with member | overtaken
      · exact reading.settled log missing (List.append_subset.mp delivered).2 member
      · exact .inl (late ▸ overtaken)
    · exact (tracks.passed trx seen wanted after (base ▸ before)).mono (by rw [late]; simp)
        (by rw [log]; simp) (List.append_subset.mp delivered).1 (by rw [missing]; simp)
  unfold World.read
  rw [here]
  dsimp only
  rw [found]
  split
  · rename_i id delta _ largest
    have member := (List.mem_insertionSort ..).mp (List.mem_of_getLast? largest)
    obtain ⟨trx, inside, rfl⟩ := reading.origin _ member
    have below := le_of_getLast? reading.sorted found inside
    constructor
    · intro other seen wanted after early
      refine upTo ?_ ?_ ?_ ?_ other seen wanted after (early.trans below)
      · rfl
      · rfl
      · rfl
      · refine List.append_subset.mpr ⟨List.subset_append_left .., fun entry among => ?_⟩
        exact List.mem_append_right _ ((List.mem_insertionSort ..).mpr among)
    · exact Nat.le_refl _
    · intro _ _ _ _ other
      cases other
  · rename_i none same
    cases same
    have empty : results = [] := by
      rw [List.getLast?_eq_none_iff] at none
      have length := congrArg List.length none
      rw [List.length_insertionSort] at length
      exact List.eq_nil_of_length_eq_zero length
    constructor
    · intro other seen wanted after early
      refine upTo ?_ ?_ ?_ ?_ other seen wanted after early
      · rfl
      · rfl
      · rfl
      · simp [empty]
    · have above := (reading.seen last (List.mem_of_getLast? found)).2
      have := tracks.upTo
      simp only [World.base] at this ⊢
      rw [here] at this
      dsimp only at this
      omega
    · intro _ _ _ _ other
      cases other
  · rename_i none
    cases none

theorem Tracks.read {w : World A} (tracks : Tracks reader start w) : Tracks reader start (w.read reader) := by
  cases here : w.phase with
  | idle =>
    unfold World.read
    rw [here]
    dsimp only
    split
    · exact tracks
    · split
      · exact tracks
      · constructor
        · intro trx seen wanted after below
          exact tracks.passed trx seen wanted after (by simpa only [World.base, here] using below)
        · exact Nat.le_refl _
        · intro _ _ _ _ other
          cases other
  | begun pointer => exact tracks.query here
  | formatting pointer transactions types results =>
    cases types with
    | nil => exact tracks.finish here
    | cons objectType types => exact tracks.format here

theorem Tracks.step {w later : World A} (tracks : Tracks reader start w) (stepped : Step reader w later) :
    Tracks reader start later := by
  cases stepped with
  | flush session trx =>
    exact tracks.grow rfl rfl rfl rfl (List.Subset.refl _) (by simp) (by simp +contextual)
  | commit session objects => exact tracks.commit session objects
  | rollback session =>
    exact tracks.grow rfl rfl rfl rfl (List.Subset.refl _) (by simp) (by simp +contextual)
  | read => exact tracks.read

theorem Reaches.tracks {w : World A} (reached : Reaches reader log objects start w) :
    Tracks reader start w := by
  induction reached with
  | refl =>
    refine ⟨fun trx seen wanted after below => ?_, Nat.le_refl _, nofun⟩
    exact absurd below (Nat.not_le.mpr after)
  | tail _ stepped ih => exact ih.step stepped

end Settled

/-! ## While nobody writes -/
section Alone
variable {A : Type} {reader : Reader} {pointer : Nat} {transactions : List Transaction}

/-- Object type by object type, the whole page is formatted. -/
theorem typeResults_perm (db : DeltaSync.Db A) (namespaceId : Nat)
    (sorted : transactions.Pairwise fun a b => a.id < b.id) :
    ((transactions.map Transaction.objectType).dedup.flatMap
      (typeResults db namespaceId transactions)).Perm
      ((latestTrxs transactions).filterMap fun trx =>
        (formatTransaction db namespaceId trx).map fun delta => (trx.id, delta)) := by
  have distinct : (latestTrxs transactions).Nodup :=
    (sorted.imp fun below equal => by simp [equal] at below).filter _
  have grouped : ((transactions.map Transaction.objectType).dedup.flatMap fun objectType =>
      (latestTrxs transactions).filter (·.objectType = objectType)).Perm (latestTrxs transactions) := by
    refine (List.perm_ext_iff_of_nodup (List.nodup_flatMap.mpr ⟨?_, ?_⟩) distinct).mpr fun trx => ?_
    · exact fun objectType _ => distinct.filter _
    · refine (List.nodup_dedup _).imp fun apart trx first second => apart ?_
      simp only [List.mem_filter, decide_eq_true_eq] at first second
      exact first.2.symm.trans second.2
    · simp only [List.mem_flatMap, List.mem_dedup, List.mem_map, List.mem_filter, decide_eq_true_eq]
      constructor
      · rintro ⟨_, _, member, _⟩
        exact member
      · exact fun member => ⟨trx.objectType, ⟨trx, (mem_latestTrxs.mp member).1, rfl⟩, member, rfl⟩
  have formatted := grouped.filterMap fun trx =>
    (formatTransaction db namespaceId trx).map fun delta => (trx.id, delta)
  rw [List.filterMap_flatMap] at formatted
  exact formatted

theorem typeResults_sorted (db : DeltaSync.Db A) (namespaceId : Nat)
    (sorted : transactions.Pairwise fun a b => a.id < b.id) :
    ((transactions.map Transaction.objectType).dedup.flatMap
      (typeResults db namespaceId transactions)).insertionSort (fun a b => a.1 ≤ b.1) =
      results db namespaceId transactions := by
  have : Std.Total fun a b : Nat × Delta A => a.1 ≤ b.1 := ⟨fun a b => Nat.le_total _ _⟩
  have : IsTrans (Nat × Delta A) fun a b => a.1 ≤ b.1 := ⟨fun _ _ _ => Nat.le_trans⟩
  have same := typeResults_perm db namespaceId sorted
  have origin : ∀ entry ∈ results db namespaceId transactions, ∃ trx ∈ transactions, trx.id = entry.1 ∧
      formatTransaction db namespaceId trx = some entry.2 := by
    intro entry member
    rw [results_eq sorted] at member
    obtain ⟨trx, latest, format⟩ := List.mem_filterMap.mp member
    obtain ⟨delta, formats, rfl⟩ := Option.map_eq_some_iff.mp format
    exact ⟨trx, (mem_latestTrxs.mp latest).1, rfl, formats⟩
  have perm := ((List.perm_insertionSort (fun a b : Nat × Delta A => a.1 ≤ b.1) _).trans same).trans
    (List.perm_insertionSort (fun a b : Nat × Delta A => a.1 ≤ b.1) _).symm
  refine List.Perm.eq_of_pairwise (fun a b left right below above => ?_)
    (List.pairwise_insertionSort _ _) (List.pairwise_insertionSort _ _) perm
  obtain ⟨first, inside, id, format⟩ := origin a (perm.mem_iff.mp left)
  obtain ⟨second, member, equal, other⟩ := origin b right
  have key : first.id = second.id := by omega
  have ids : (transactions.map Transaction.id).Nodup :=
    List.pairwise_map.mpr (sorted.imp fun below => Nat.ne_of_lt below)
  obtain rfl := List.inj_on_of_nodup_map ids inside member key
  exact Prod.ext (id.symm.trans equal) (Option.some.inj (format.symm.trans other))

def World.reads (reader : Reader) (count : Nat) (w : World A) : World A := (World.read reader)^[count] w

theorem World.reads_add (w : World A) (first second : Nat) :
    w.reads reader (first + second) = (w.reads reader first).reads reader second := by
  simp only [World.reads, Nat.add_comm first second, Function.iterate_add_apply]

theorem World.reads_one (w : World A) : w.reads reader 1 = w.read reader := rfl

theorem World.reads_succ (w : World A) (count : Nat) :
    w.reads reader (count + 1) = (w.read reader).reads reader count := rfl

variable (reader) in
theorem reads_format {w : World A} {types : List ObjectType} {results : List (Nat × Delta A)}
    (here : w.phase = .formatting pointer transactions types results) :
    ∃ missing, w.reads reader types.length = { w with
      phase := .formatting pointer transactions []
        (results ++ types.flatMap (typeResults w.db reader.namespaceId transactions)), missing } := by
  induction types generalizing w results with
  | nil => exact ⟨w.missing, by simp [World.reads, ← here]⟩
  | cons objectType types ih =>
    have next : w.read reader = { w with
        phase := .formatting pointer transactions types
          (results ++ typeResults w.db reader.namespaceId transactions objectType)
        missing := w.missing ++ typeMissing w.db reader.namespaceId transactions objectType } := by
      simp only [World.read, here]
    obtain ⟨missing, rest⟩ := ih (w := w.read reader) (by rw [next])
    refine ⟨missing, ?_⟩
    rw [List.length_cons, World.reads_succ, rest, next]
    simp [World.db]

variable (reader) in
theorem read_return {w : World A} {results sorted : List (Nat × Delta A)} {id : Nat}
    (here : w.phase = .formatting pointer transactions [] results)
    (ordered : results.insertionSort (fun a b => a.1 ≤ b.1) = sorted)
    (found : sorted.getLast?.map Prod.fst = some id) :
    w.read reader = { w with phase := .idle, pointer := id, delivered := w.delivered ++ sorted } := by
  obtain ⟨⟨_, delta⟩, last, rfl⟩ := Option.map_eq_some_iff.mp found
  simp only [World.read, here, ordered, last]

variable (reader) in
theorem read_again {w : World A} {results : List (Nat × Delta A)}
    (here : w.phase = .formatting pointer transactions [] results)
    (ordered : results.insertionSort (fun a b => a.1 ≤ b.1) = [])
    (upTo : transactions.getLast? = some last) :
    w.read reader = { w with phase := .begun last.id } := by
  simp only [World.read, here, ordered, upTo, List.getLast?_nil]

variable (reader) in
/-- The queries of one call, from the top of the loop, return what the function returns. -/
theorem reads_scan {w : World A} (here : w.phase = .begun pointer) :
    ∃ count missing entries, w.reads reader count = { w with
        phase := .idle
        pointer := (scan w.db reader.namespaceId reader.filter reader.limit pointer).2
        delivered := w.delivered ++ entries, missing } ∧
      entries.map Prod.snd = (scan w.db reader.namespaceId reader.filter reader.limit pointer).1 := by
  induction size : (transactionsAfter w.db reader.namespaceId reader.filter pointer).length
    using Nat.strong_induction_on generalizing w pointer with
  | h size ih =>
    let page := (transactionsAfter w.db reader.namespaceId reader.filter pointer).take reader.limit
    have sorted : page.Pairwise fun a b => a.id < b.id := page_sorted
    by_cases empty : page = []
    · refine ⟨1, w.missing, [], ?_, by rw [scan_end empty]; rfl⟩
      rw [scan_end empty, World.reads, Function.iterate_one, World.read, here]
      simp only [page] at empty
      simp [empty]
    · have first : w.read reader = { w with
          phase := .formatting pointer page (page.map Transaction.objectType).dedup [] } := by
        simp only [World.read, here, page] at empty ⊢
        rw [if_neg empty]
      let types := (page.map Transaction.objectType).dedup
      obtain ⟨missing, formatted⟩ : ∃ missing, w.reads reader (types.length + 1) = { w with
          phase := .formatting pointer page []
            (types.flatMap (typeResults w.db reader.namespaceId page)), missing } := by
        obtain ⟨missing, formatted⟩ := reads_format reader
          (congrArg World.phase first)
        refine ⟨missing, ?_⟩
        rw [World.reads_succ, formatted, first]
        rfl
      have ordered := typeResults_sorted w.db reader.namespaceId sorted
      obtain ⟨last, upTo⟩ := Option.ne_none_iff_exists'.mp
        (fun none => empty (List.getLast?_eq_none_iff.mp none))
      have largest := results_getLast? w.db reader.namespaceId sorted
      cases found : (surviving w.db reader.namespaceId page).getLast? with
      | some trx =>
        rw [found, Option.map_some] at largest
        refine ⟨types.length + 1 + 1, missing, results w.db reader.namespaceId page, ?_, ?_⟩
        · rw [World.reads_add, formatted, World.reads_one, scan_page rfl found,
            read_return reader rfl ordered largest]
        · rw [scan_page rfl found]
      | none =>
        have none : surviving w.db reader.namespaceId page = [] := List.getLast?_eq_none_iff.mp found
        rw [found, Option.map_none, Option.map_eq_none_iff, List.getLast?_eq_none_iff] at largest
        have member := List.mem_of_mem_take (List.mem_of_getLast? upTo)
        have shorter := transactionsAfter_shorter _ _ _ _ member
        let later : World A := { w with phase := .begun last.id, missing }
        obtain ⟨count, gone, entries, reached, same⟩ := ih _ (size ▸ shorter) (w := later) rfl rfl
        refine ⟨types.length + 1 + (1 + count), gone, entries, ?_, ?_⟩
        · rw [World.reads_add, formatted, World.reads_add, World.reads_one,
            read_again reader rfl (ordered.trans largest) upTo, scan_skip rfl upTo none]
          exact reached
        · rw [scan_skip rfl upTo none]
          exact same

/-- Only the reader has moved, and it is done with everything that a delta is due for. -/
structure CaughtUp (reader : Reader) (w later : World A) : Prop where
  log : later.log = w.log
  objects : later.objects = w.objects
  idle : later.phase = .idle
  exhausted : Exhausted later.db reader.namespaceId reader.filter later.pointer

variable (reader) in
theorem idle_catches_up {w : World A} (idle : w.phase = .idle)
    (largest : LastIsLargest w.db reader.namespaceId reader.filter) :
    ∃ count, CaughtUp reader w (w.reads reader count) := by
  induction size : (transactionsAfter w.db reader.namespaceId reader.filter w.pointer).length
    using Nat.strong_induction_on generalizing w with
  | h bound ih =>
    obtain ⟨lastTrx, found, exhausted⟩ := largest
    rw [Option.mem_def] at found
    by_cases same : lastTrx = w.pointer
    · subst same
      exact ⟨0, rfl, rfl, idle, exhausted⟩
    · have begun : w.read reader = { w with phase := .begun w.pointer } := by
        simp only [World.read, idle, found, if_neg same]
      obtain ⟨count, missing, entries, reached, _⟩ := reads_scan reader
        (congrArg World.phase begun)
      rw [← World.reads_succ, begun] at reached
      rcases scan_spec w.db reader.namespaceId reader.filter
        reader.some w.pointer with ⟨_, none⟩ | ⟨trxs, some, below, covers, _⟩
      · exact ⟨0, rfl, rfl, idle, none⟩
      · obtain ⟨trx, member⟩ := List.exists_mem_of_ne_nil _ some
        obtain ⟨inside, upTo, _⟩ := covers.among trx member
        let next := w.reads reader (count + 1)
        have pointer : next.pointer =
            (scan w.db reader.namespaceId reader.filter reader.limit w.pointer).2 := by
          simp only [next, reached]
          rfl
        have db : next.db = w.db := by
          simp only [next, reached]
          rfl
        have fewer : (transactionsAfter next.db reader.namespaceId reader.filter next.pointer).length <
            bound := by
          rw [← size, db, pointer, ← transactionsAfter_filter _ _ _ _ below.le]
          exact List.length_filter_lt_length_iff_exists.mpr ⟨trx, inside, by simpa using upTo⟩
        obtain ⟨more, up⟩ := ih _ fewer (w := next) (by simp only [next, reached])
          (by rw [db]; exact ⟨lastTrx, found, exhausted⟩) rfl
        refine ⟨count + 1 + more, ?_⟩
        rw [World.reads_add]
        exact ⟨up.log.trans (by simp only [next, reached]), up.objects.trans (by simp only [next, reached]),
          up.idle, up.exhausted⟩

/-- A call that is under way comes to its end. -/
theorem call_returns {w : World A} (tracks : Tracks reader start w) :
    ∃ count, (w.reads reader count).log = w.log ∧ (w.reads reader count).objects = w.objects ∧
      (w.reads reader count).phase = .idle := by
  have begun : ∀ {w : World A} {pointer}, w.phase = .begun pointer → ∃ count,
      (w.reads reader count).log = w.log ∧ (w.reads reader count).objects = w.objects ∧
        (w.reads reader count).phase = .idle := by
    intro w pointer here
    obtain ⟨count, missing, entries, reached, _⟩ := reads_scan reader here
    exact ⟨count, by simp only [reached], by simp only [reached], by simp only [reached]⟩
  cases here : w.phase with
  | idle => exact ⟨0, rfl, rfl, here⟩
  | begun pointer => exact begun here
  | formatting pointer transactions types results =>
    obtain ⟨missing, formatted⟩ := reads_format reader here
    obtain ⟨last, upTo⟩ := Option.ne_none_iff_exists'.mp
      (fun none => (tracks.reading _ _ _ _ here).nonempty (List.getLast?_eq_none_iff.mp none))
    let formatting := w.reads reader types.length
    let unsorted := results ++ types.flatMap (typeResults w.db reader.namespaceId transactions)
    have phase : formatting.phase = .formatting pointer transactions [] unsorted := by
      simp only [formatting, formatted, unsorted]
    cases last? : (unsorted.insertionSort fun a b => a.1 ≤ b.1).getLast? with
    | some entry =>
      have returned := read_return reader phase rfl (congrArg (Option.map Prod.fst) last?)
      refine ⟨types.length + 1, ?_⟩
      rw [World.reads_add, World.reads_one]
      change (formatting.read reader).log = w.log ∧ (formatting.read reader).objects = w.objects ∧ _
      rw [returned]
      exact ⟨by simp only [formatting, formatted], by simp only [formatting, formatted], rfl⟩
    | none =>
      have again := read_again reader phase (List.getLast?_eq_none_iff.mp last?) upTo
      obtain ⟨count, log, objects, idle⟩ := begun (w := formatting.read reader) (by rw [again])
      refine ⟨types.length + (1 + count), ?_⟩
      rw [World.reads_add, World.reads_add, World.reads_one]
      refine ⟨log.trans ?_, objects.trans ?_, idle⟩
      · rw [again]
        simp only [formatting, formatted]
      · rw [again]
        simp only [formatting, formatted]

theorem catches_up {w : World A} (tracks : Tracks reader start w)
    (largest : LastIsLargest w.db reader.namespaceId reader.filter) :
    ∃ count, CaughtUp reader w (w.reads reader count) := by
  obtain ⟨first, log, objects, idle⟩ := call_returns tracks
  have db : (w.reads reader first).db = w.db := by simp only [World.db, log, objects]
  obtain ⟨second, up⟩ := idle_catches_up reader idle (by rw [db]; exact largest)
  refine ⟨first + second, ?_⟩
  rw [World.reads_add]
  exact ⟨up.log.trans log, up.objects.trans objects, up.idle, up.exhausted⟩

theorem Tracks.reads {w : World A} (tracks : Tracks reader start w) (count : Nat) :
    Tracks reader start (w.reads reader count) := by
  induction count generalizing w with
  | zero => exact tracks
  | succ count ih => exact ih tracks.read

theorem Reaches.reads {w : World A} (reached : Reaches reader log objects start w) (count : Nat) :
    Reaches reader log objects start (w.reads reader count) := by
  induction count generalizing w with
  | zero => exact reached
  | succ count ih => exact ih (reached.tail .read)

/-- The object of the latest transaction for its record and command is not there any more. -/
def Gone (reader : Reader) (w : World A) (trx : Transaction) : Prop :=
  ∃ other ∈ w.log.visible, other.key = trx.key ∧ trx.id ≤ other.id ∧
    formatTransaction w.db reader.namespaceId other = none

/-- At any moment everything behind the pointer is settled: delivered, unless its object was not
found or it was committed too late. Whenever the writers rest, and the transaction that was created
last has the largest id that a delta is due for, further calls settle everything that is committed. -/
theorem reader_settles (reached : Reaches reader log objects start w) :
    (∀ trx ∈ w.log.visible, reader.Wants trx → start < trx.id → trx.id ≤ w.pointer → Settled w trx) ∧
    (LastIsLargest w.db reader.namespaceId reader.filter → ∃ count,
      (w.reads reader count).log = w.log ∧ (w.reads reader count).objects = w.objects ∧
      ∀ trx ∈ w.log.visible, reader.Wants trx → start < trx.id →
        Settled (w.reads reader count) trx ∨ Gone reader w trx) := by
  have tracks := reached.tracks
  constructor
  · exact fun trx seen wanted after below => tracks.passed trx seen wanted after (below.trans tracks.upTo)
  · intro largest
    obtain ⟨count, up⟩ := catches_up tracks largest
    refine ⟨count, up.log, up.objects, fun trx seen wanted after => ?_⟩
    have still := tracks.reads count
    rw [← up.log] at seen
    rcases Nat.lt_or_ge (w.reads reader count).pointer trx.id with ahead | behind
    · right
      obtain ⟨other, latest, key, below⟩ :=
        exists_latest (mem_transactionsAfter_db.mpr ⟨seen, ahead, wanted⟩)
      obtain ⟨inside, largest⟩ := mem_latestTrxs.mp latest
      refine ⟨other, up.log ▸ (mem_transactionsAfter_db.mp inside).1, key, below, ?_⟩
      have db : (w.reads reader count).db = w.db := by simp only [World.db, up.log, up.objects]
      exact db ▸ up.exhausted other inside largest
    · exact .inl (still.passed trx seen wanted after (behind.trans still.upTo))

end Alone

namespace Sample

def reader : Reader where
  namespaceId := 1
  filter := DeltaSync.Sample.everything
  limit := 100
  some := by decide

def empty : Log where
  rows := []
  nextId := 1
  unique := .nil
  below := nofun

def threads (objectClass : ObjectClass) (_ : Nat) : Option (Object String) :=
  if objectClass = .thread then some { namespaceId := 1, thread := true, attributes := "thread" } else none

/-- Two sessions flush a thread each, and the second one commits. -/
def oneCommitted : World String :=
  let w := starting empty threads 0
  let w := { w with log := w.log.flush 1 (DeltaSync.Sample.created 1 10) }
  let w := { w with log := w.log.flush 2 (DeltaSync.Sample.created 2 10) }
  w.commit 2 threads

/-- The reader makes one call, of four queries; then the first session commits too. -/
def bothCommitted : World String := (oneCommitted.reads reader 4).commit 1 threads

theorem oneCommitted_reached : Reaches reader empty threads 0 oneCommitted :=
  .tail (.tail (.tail .refl (.flush 1 _)) (.flush 2 _)) (.commit 2 threads)

end Sample

theorem second_session_settled :
    (∀ trx ∈ Sample.oneCommitted.log.visible, Sample.reader.Wants trx → 0 < trx.id →
      trx.id ≤ Sample.oneCommitted.pointer → Settled Sample.oneCommitted trx) ∧
    ∃ count, ∀ trx ∈ Sample.oneCommitted.log.visible, Sample.reader.Wants trx → 0 < trx.id →
      Settled (Sample.oneCommitted.reads Sample.reader count) trx ∨
        Gone Sample.reader Sample.oneCommitted trx := by
  have settles := reader_settles Sample.oneCommitted_reached
  have last : getLastTrxIdForNamespace Sample.oneCommitted.db 1 = some 2 := by decide
  have none : transactionsAfter Sample.oneCommitted.db 1 DeltaSync.Sample.everything 2 = [] := by decide
  have exhausted : Exhausted Sample.oneCommitted.db 1 DeltaSync.Sample.everything 2 := by
    simp [Exhausted, none]
  obtain ⟨count, _, _, settled⟩ := settles.2 ⟨2, last, exhausted⟩
  exact ⟨settles.1, count, settled⟩

/-- The thread of the first session is never delivered: the reader is past its id, and makes the same
call for ever. -/
theorem first_session_is_lost :
    Reaches Sample.reader Sample.empty Sample.threads 0 Sample.bothCommitted ∧
    (∀ row ∈ Sample.bothCommitted.log.rows, row.session = none) ∧
    (∀ count, Sample.bothCommitted.reads Sample.reader count = Sample.bothCommitted) ∧
    ∃ trx ∈ Sample.bothCommitted.log.visible, Sample.reader.Wants trx ∧ 0 < trx.id ∧
      (formatTransaction Sample.bothCommitted.db 1 trx).isSome ∧
      ¬ Covered Sample.bothCommitted trx := by
  have last : getLastTrxIdForNamespace Sample.bothCommitted.db 1 = some 2 := by decide
  have pointer : Sample.bothCommitted.pointer = 2 := by decide
  have phase : Sample.bothCommitted.phase = .idle := rfl
  have still : Sample.bothCommitted.read Sample.reader = Sample.bothCommitted := by
    simp only [World.read, phase, pointer, show Sample.reader.namespaceId = 1 from rfl, last, if_pos]
  refine ⟨(Sample.oneCommitted_reached.reads 4).tail (.commit 1 _), by decide,
    fun count => Function.iterate_fixed still count, ?_⟩
  refine ⟨DeltaSync.Sample.created 1 10, by decide, ⟨rfl, by decide⟩, by decide, by decide, ?_⟩
  rintro ⟨other, seen, key, _, delta, sent, _⟩
  have delivered : Sample.bothCommitted.delivered.map Prod.fst = [2] := by decide
  have ids : ∀ trx ∈ Sample.bothCommitted.log.visible,
      trx.key = (DeltaSync.Sample.created 1 10).key → trx.id = 1 := by decide
  have member := List.mem_map_of_mem (f := Prod.fst) sent
  rw [delivered, ids other seen key] at member
  simp at member

end DeltaReader
end SyncEngine
