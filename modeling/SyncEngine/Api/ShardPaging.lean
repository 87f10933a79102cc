import Mathlib.Data.List.Perm.Basic
import SyncEngine.Util.Chunked

/-! Pages over the tables of every shard. The cursor is the id that a page ended with, and its upper
bits choose the shard in which the next page begins. -/
namespace SyncEngine.ShardPaging

structure Row (α : Type) where
  id : Nat
  value : α
  deriving DecidableEq

/-- `EngineManager.shard_key_for_id` -/
def shardKeyForId (id : Nat) : Nat := id >>> 48

/-- An id of a time when tables counted without their shard. -/
def Legacy (id : Nat) : Prop := shardKeyForId id = 0

instance (id : Nat) : Decidable (Legacy id) := inferInstanceAs (Decidable (_ = _))

/-- The configured shards and one table of each: its ids count from one or, with the shard's key in
their upper bits, from there. -/
structure Cluster (α : Type) where
  engines : List Nat
  keys_distinct : engines.Nodup
  table : Nat → List (Row α)
  ids_distinct : ∀ shard, ((table shard).map (·.id)).Nodup
  id_pos : ∀ shard, ∀ row ∈ table shard, 0 < row.id
  id_shard : ∀ shard, ∀ row ∈ table shard, shardKeyForId row.id = shard ∨ Legacy row.id

/-- What `str(next_cursor)` writes and `int(cursor)` reads. -/
inductive Cursor
  | number (id : Nat)
  | none
  deriving DecidableEq

def Cursor.int : Cursor → Except String Nat
  | number id => .ok id
  | none => .error "invalid literal for int() with base 10: 'None'"

def Cursor.str : Option Nat → Cursor
  | some id => number id
  | Option.none => none

structure Progress (α : Type) where
  results : List (Row α)
  remainingLimit : Nat
  nextCursor : Option Nat

variable {α : Type} (cluster : Cluster α)

def orderById (rows : List (Row α)) : List (Row α) := rows.mergeSort fun a b => a.id ≤ b.id

/-- The rows that the query in one shard returns. -/
def latestResults (latestCursor : Option Nat) (limit shard : Nat) : List (Row α) :=
  let query := cluster.table shard
  let query :=
    match latestCursor with
    | some (cursor + 1) => query.filter fun row => cursor + 1 < row.id
    | _ => query
  (orderById query).take limit

/-- The id that a page can end with, and the shard put into one that has none. -/
def mark (shard id : Nat) : Nat :=
  if shard ≠ 0 ∧ Legacy id then id + shard <<< 48 else id

def visit (cursor limit : Nat) : List Nat → Progress α → Progress α
  | [], progress => progress
  | shard :: shards, progress =>
    if shard < shardKeyForId cursor then visit cursor limit shards progress
    else if limit ≤ progress.results.length then progress
    else
      let latestCursor := if shard = shardKeyForId cursor then some cursor else none
      let latest := latestResults cluster latestCursor progress.remainingLimit shard
      match latest.getLast? with
      | none => visit cursor limit shards progress
      | some last =>
        visit cursor limit shards
          { results := progress.results ++ latest
            remainingLimit := progress.remainingLimit - latest.length
            nextCursor := some (mark shard last.id) }

def pageOverShards (cursor : Cursor) (limit : Nat) : Except String (List (Row α) × Cursor) := do
  let cursor ← cursor.int
  let progress := visit cluster cursor limit (cluster.engines.mergeSort (· ≤ ·)) ⟨[], limit, none⟩
  return (progress.results, .str progress.nextCursor)

/-- A client that asks for pages until one comes back empty; `none` when `fuel` pages are not enough. -/
def readAll (limit : Nat) : Nat → Cursor → Except String (Option (List (Row α)))
  | 0, _ => .ok none
  | fuel + 1, cursor => do
    let (results, next) ← pageOverShards cluster cursor limit
    if results = [] then return some []
    return (← readAll limit fuel next).map (results ++ ·)

/-- Every row of every shard. -/
def rows : List (Row α) := cluster.engines.flatMap cluster.table

section Reading

def tagged (shard : Nat) : List (Nat × Row α) := (orderById (cluster.table shard)).map (shard, ·)

/-- The rows with their shards, in the order of shards and ids. -/
def reading : List (Nat × Row α) := (cluster.engines.mergeSort (· ≤ ·)).flatMap (tagged cluster)

/-- The rows that a page from this cursor can return. -/
def seen (cursor : Nat) (t : Nat × Row α) : Bool :=
  shardKeyForId cursor < t.1 || (t.1 = shardKeyForId cursor && (cursor = 0 || cursor < t.2.id))

/-- What a page that ends with `last` leaves to the pages behind it. -/
def beyond (last t : Nat × Row α) : Bool := seen (mark last.1 last.2.id) t

end Reading

variable {cluster}

theorem orderById_perm (rows : List (Row α)) : (orderById rows).Perm rows :=
  List.mergeSort_perm rows _

theorem orderById_sorted (rows : List (Row α)) :
    (orderById rows).Pairwise fun a b => a.id ≤ b.id := by
  have sorted := @List.pairwise_mergeSort (Row α) (fun a b => decide (a.id ≤ b.id))
    (fun a b c first second => by simp only [decide_eq_true_eq] at *; omega)
    (fun a b => by simp only [Bool.or_eq_true, decide_eq_true_eq]; omega) rows
  rw [orderById]
  simpa only [decide_eq_true_eq] using sorted

theorem eq_of_id {rows : List (Row α)} (distinct : (rows.map (·.id)).Nodup) (ha : a ∈ rows)
    (hb : b ∈ rows) (same : a.id = b.id) : a = b :=
  List.inj_on_of_nodup_map distinct ha hb same

theorem orderById_filter {rows : List (Row α)} (distinct : (rows.map (·.id)).Nodup)
    (p : Row α → Bool) : orderById (rows.filter p) = (orderById rows).filter p := by
  refine @List.Perm.eq_of_pairwise (Row α) (fun a b => a.id ≤ b.id) _ _ ?_ (orderById_sorted _)
    ((orderById_sorted rows).filter p) ?_
  · intro a b ha hb left right
    have ha := List.mem_of_mem_filter ((orderById_perm _).mem_iff.mp ha)
    have hb := (orderById_perm rows).mem_iff.mp (List.mem_of_mem_filter hb)
    exact eq_of_id distinct ha hb (le_antisymm left right)
  · exact (orderById_perm _).trans ((orderById_perm rows).filter p).symm

theorem reading_perm (cluster : Cluster α) : ((reading cluster).map (·.2)).Perm (rows cluster) := by
  have tables : (reading cluster).map (·.2) =
      (cluster.engines.mergeSort (· ≤ ·)).flatMap fun shard => orderById (cluster.table shard) := by
    simp [reading, tagged, List.map_flatMap, Function.comp_def]
  rw [tables, rows]
  exact List.Perm.flatMap (List.mergeSort_perm _ _) fun shard _ => orderById_perm (cluster.table shard)

theorem tagged_before {cursor shard : Nat} (before : shard < shardKeyForId cursor) :
    (tagged cluster shard).filter (seen cursor) = [] := by
  rw [List.filter_eq_nil_iff]
  intro t mem
  obtain ⟨row, -, rfl⟩ := List.mem_map.mp mem
  simp only [seen, Bool.or_eq_true, Bool.and_eq_true, decide_eq_true_eq]
  omega

theorem latestResults_eq {cursor shard : Nat} (limit : Nat) (reached : ¬shard < shardKeyForId cursor) :
    latestResults cluster (if shard = shardKeyForId cursor then some cursor else none) limit shard =
      (((tagged cluster shard).filter (seen cursor)).take limit).map (·.2) := by
  have untag (p : Nat × Row α → Bool) : (((tagged cluster shard).filter p).take limit).map (·.2) =
      ((orderById (cluster.table shard)).filter fun row => p (shard, row)).take limit := by
    rw [tagged, List.filter_map, List.map_take, List.map_map]
    simp [Function.comp_def]
  rw [untag]
  unfold latestResults
  by_cases here : shard = shardKeyForId cursor
  · rw [if_pos here]
    cases cursor with
    | zero => simp [seen, here]
    | succ cursor => simp [seen, here, orderById_filter (cluster.ids_distinct _)]
  · have later : shardKeyForId cursor < shard := by omega
    simp [here, seen, later]

theorem visit_spec (cluster : Cluster α) (cursor limit : Nat) (shards : List Nat) (progress : Progress α)
    (balanced : progress.results.length + progress.remainingLimit = limit) :
    let page := ((shards.flatMap (tagged cluster)).filter (seen cursor)).take progress.remainingLimit
    (visit cluster cursor limit shards progress).results = progress.results ++ page.map (·.2) ∧
      (visit cluster cursor limit shards progress).nextCursor =
        (page.getLast?.map fun t => mark t.1 t.2.id).or progress.nextCursor := by
  induction shards generalizing progress with
  | nil => simp [visit]
  | cons shard shards ih =>
    rw [visit, List.flatMap_cons, List.filter_append]
    by_cases before : shard < shardKeyForId cursor
    · rw [if_pos before, tagged_before before, List.nil_append]
      exact ih progress balanced
    by_cases full : limit ≤ progress.results.length
    · have spent : progress.remainingLimit = 0 := by omega
      simp [before, full, spent]
    rw [if_neg before, if_neg full]
    dsimp only
    rw [latestResults_eq _ before]
    have ours : ∀ t ∈ (tagged cluster shard).filter (seen cursor), t.1 = shard := by
      intro t mem
      obtain ⟨row, -, rfl⟩ := List.mem_map.mp (List.mem_of_mem_filter mem)
      rfl
    generalize (tagged cluster shard).filter (seen cursor) = here at ours
    rw [List.take_append]
    cases found : (here.take progress.remainingLimit).getLast? with
    | none =>
      have nothing := List.getLast?_eq_none_iff.mp found
      have empty : here = [] := by
        rcases List.take_eq_nil_iff.mp nothing with spent | empty
        · omega
        · exact empty
      subst empty
      simpa using ih progress balanced
    | some last =>
      have split : (here.take progress.remainingLimit).length = min progress.remainingLimit here.length :=
        List.length_take
      have left : progress.remainingLimit - ((here.take progress.remainingLimit).map (·.2)).length =
          progress.remainingLimit - here.length := by
        rw [List.length_map, split]
        omega
      have sum : (progress.results ++ (here.take progress.remainingLimit).map (·.2)).length +
          (progress.remainingLimit - here.length) = limit := by
        rw [List.length_append, List.length_map, split]
        omega
      obtain ⟨results, next⟩ := ih
        ⟨progress.results ++ (here.take progress.remainingLimit).map (·.2),
          progress.remainingLimit - here.length, some (mark shard last.2.id)⟩ sum
      have same : last.1 = shard := ours last (List.mem_of_mem_take (List.mem_of_getLast? found))
      simp only [List.getLast?_map, found, Option.map_some, left]
      refine ⟨?_, ?_⟩
      · rw [results, List.map_append, List.append_assoc]
      · rw [next, List.getLast?_append, found, ← same]
        cases (((shards.flatMap (tagged cluster)).filter (seen cursor)).take
          (progress.remainingLimit - here.length)).getLast? <;> rfl

theorem pageOverShards_eq (cursor limit : Nat) :
    pageOverShards cluster (.number cursor) limit =
      .ok ((((reading cluster).filter (seen cursor)).take limit).map (·.2),
        .str ((((reading cluster).filter (seen cursor)).take limit).getLast?.map fun t =>
          mark t.1 t.2.id)) := by
  obtain ⟨results, next⟩ := visit_spec cluster cursor limit
    (cluster.engines.mergeSort (· ≤ ·)) ⟨[], limit, none⟩ (Nat.zero_add limit)
  rw [List.nil_append] at results
  rw [Option.or_none] at next
  simp only [pageOverShards, Cursor.int, bind, Except.bind, pure, Except.pure, results, next]
  rfl

/-- The place of a row in `reading`. -/
def Before (t u : Nat × Row α) : Prop := t.1 < u.1 ∨ t.1 = u.1 ∧ t.2.id < u.2.id

theorem reading_before : (reading cluster).Pairwise Before := by
  have keys : (cluster.engines.mergeSort (· ≤ ·)).Pairwise (· < ·) := by
    have distinct : (cluster.engines.mergeSort (· ≤ ·)).Nodup :=
      (List.mergeSort_perm _ _).nodup_iff.mpr cluster.keys_distinct
    have sorted := @List.pairwise_mergeSort Nat (fun a b => decide (a ≤ b))
      (fun a b c first second => by simp only [decide_eq_true_eq] at *; omega)
      (fun a b => by simp only [Bool.or_eq_true, decide_eq_true_eq]; omega) cluster.engines
    refine (sorted.and distinct).imp ?_
    rintro a b ⟨ordered, different⟩
    have := of_decide_eq_true ordered
    omega
  rw [reading, List.flatMap, List.pairwise_flatten]
  refine ⟨?_, ?_⟩
  · simp only [List.mem_map, forall_exists_index, and_imp, forall_apply_eq_imp_iff₂]
    intro shard _
    have distinct : ((orderById (cluster.table shard)).map (·.id)).Nodup :=
      ((orderById_perm _).map _).nodup_iff.mpr (cluster.ids_distinct shard)
    rw [tagged, List.pairwise_map]
    refine ((orderById_sorted _).and (List.pairwise_map.mp distinct)).imp ?_
    rintro a b ⟨ordered, different⟩
    exact .inr ⟨rfl, lt_of_le_of_ne ordered different⟩
  · rw [List.pairwise_map]
    refine keys.imp ?_
    intro shard later before t mem_t u mem_u
    obtain ⟨_, -, rfl⟩ := List.mem_map.mp mem_t
    obtain ⟨_, -, rfl⟩ := List.mem_map.mp mem_u
    exact .inl before

theorem mem_table (mem : t ∈ reading cluster) : t.2 ∈ cluster.table t.1 := by
  obtain ⟨shard, -, mem⟩ := List.mem_flatMap.mp mem
  obtain ⟨row, inside, rfl⟩ := List.mem_map.mp mem
  exact (orderById_perm _).mem_iff.mp inside

/-- The marked id of a row chooses the row's shard, and is the row's own id there unless that is a
legacy id. -/
theorem mark_spec (mem : t ∈ reading cluster) :
    shardKeyForId (mark t.1 t.2.id) = t.1 ∧ t.2.id ≤ mark t.1 t.2.id ∧ mark t.1 t.2.id ≠ 0 ∧
      (mark t.1 t.2.id = t.2.id ∨ t.1 ≠ 0 ∧ Legacy t.2.id ∧ mark t.1 t.2.id = t.2.id + t.1 <<< 48) := by
  have positive := cluster.id_pos _ _ (mem_table mem)
  have placed := cluster.id_shard _ _ (mem_table mem)
  unfold mark
  simp only [Legacy, shardKeyForId, Nat.shiftRight_eq_div_pow, Nat.shiftLeft_eq] at *
  split <;> omega

theorem beyond_iff (mem : last ∈ reading cluster) : beyond last t = true ↔
    last.1 < t.1 ∨ t.1 = last.1 ∧ mark last.1 last.2.id < t.2.id := by
  obtain ⟨shard, -, nonzero, -⟩ := mark_spec mem
  simp [beyond, seen, shard, nonzero]

theorem seen_iff (cursor : Nat) (t : Nat × Row α) : seen cursor t = true ↔
    shardKeyForId cursor < t.1 ∨ t.1 = shardKeyForId cursor ∧ (cursor = 0 ∨ cursor < t.2.id) := by
  simp [seen]

theorem seen_of_beyond {cursor : Nat} (mem : last ∈ reading cluster) (seen_last : seen cursor last = true)
    (further : beyond last t = true) : seen cursor t = true := by
  obtain ⟨-, above, -⟩ := mark_spec mem
  rw [beyond_iff mem] at further
  rw [seen_iff] at seen_last ⊢
  omega

theorem not_beyond_of_before (mem : last ∈ reading cluster) (ordered : t = last ∨ Before t last) :
    beyond last t = false := by
  obtain ⟨-, above, -⟩ := mark_spec mem
  rw [← Bool.not_eq_true, beyond_iff mem]
  rcases ordered with rfl | ordered
  · omega
  · unfold Before at ordered
    omega

/-- The rows of the next page are those of the rest that lie beyond the page's last row. -/
theorem next_seen {cursor limit : Nat}
    (some_page : ((reading cluster).filter (seen cursor)).take limit ≠ []) :
    let last := (((reading cluster).filter (seen cursor)).take limit).getLast some_page
    (reading cluster).filter (seen (mark last.1 last.2.id)) =
      (((reading cluster).filter (seen cursor)).drop limit).filter (beyond last) := by
  intro last
  have last_mem : last ∈ (reading cluster).filter (seen cursor) :=
    List.mem_of_mem_take (List.getLast_mem some_page)
  obtain ⟨mem, seen_last⟩ := List.mem_filter.mp last_mem
  have inside : (reading cluster).filter (beyond last) =
      ((reading cluster).filter (seen cursor)).filter (beyond last) := by
    rw [List.filter_filter]
    refine List.filter_congr fun t _ => ?_
    cases further : beyond last t
    · rfl
    · rw [seen_of_beyond mem seen_last further, Bool.and_self]
  have page_over : (((reading cluster).filter (seen cursor)).take limit).filter (beyond last) = [] := by
    rw [List.filter_eq_nil_iff]
    intro t in_page
    rw [Bool.not_eq_true]
    refine not_beyond_of_before mem ?_
    have ordered : (((reading cluster).filter (seen cursor)).take limit).Pairwise Before :=
      (reading_before.filter _).sublist (List.take_sublist ..)
    rw [← List.dropLast_append_getLast some_page] at ordered in_page
    rcases List.mem_append.mp in_page with earlier | same
    · exact .inr ((List.pairwise_append.mp ordered).2.2 t earlier last (List.mem_singleton_self last))
    · exact .inl (List.mem_singleton.mp same)
  calc
    (reading cluster).filter (seen (mark last.1 last.2.id)) = (reading cluster).filter (beyond last) := rfl
    _ = (((reading cluster).filter (seen cursor)).take limit ++
          ((reading cluster).filter (seen cursor)).drop limit).filter (beyond last) := by
      rw [List.take_append_drop, inside]
    _ = (((reading cluster).filter (seen cursor)).drop limit).filter (beyond last) := by
      rw [List.filter_append, page_over, List.nil_append]

theorem readAll_spec (cluster : Cluster α) (limit fuel cursor : Nat) :
    let drained := Chunked.drain limit beyond ((reading cluster).filter (seen cursor))
    (readAll cluster limit fuel (.number cursor) = .ok none ∧
        fuel ≤ ((reading cluster).filter (seen cursor)).length) ∨
      readAll cluster limit fuel (.number cursor) = .ok (some (drained.map (·.2))) := by
  induction fuel generalizing cursor with
  | zero => exact .inl ⟨rfl, Nat.zero_le _⟩
  | succ fuel ih =>
    intro drained
    simp only [readAll, pageOverShards_eq, bind, Except.bind, pure, Except.pure, List.map_eq_nil_iff]
    by_cases some_page : ((reading cluster).filter (seen cursor)).take limit ≠ []
    · have next := next_seen some_page
      have whole : drained = _ := Chunked.drain_page some_page
      set last := (((reading cluster).filter (seen cursor)).take limit).getLast some_page
      have shorter := Chunked.left_lt some_page (beyond last)
      rw [← next] at whole shorter
      have later := ih (mark last.1 last.2.id)
      rw [if_neg some_page, List.getLast?_eq_some_getLast some_page, Option.map_some, Cursor.str]
      rcases later with ⟨ongoing, short⟩ | complete
      · rw [ongoing]
        exact .inl ⟨rfl, by omega⟩
      · rw [complete]
        right
        simp [drained, whole]
    · have nothing := not_not.mp some_page
      right
      simp [nothing, drained, Chunked.drain_empty nothing]

/-- No full page ends with a legacy row of a shard other than the first behind which this shard has
a row that does not count above the marked id. -/
def Clean (cluster : Cluster α) (limit : Nat) : Prop :=
  ∀ page last, (reading cluster)[(page + 1) * limit - 1]? = some last →
    last.1 ≠ 0 → Legacy last.2.id →
      ∀ later ∈ (reading cluster).drop ((page + 1) * limit), later.1 = last.1 →
        last.2.id + last.1 <<< 48 < later.2.id

theorem continuous_iff {limit : Nat} (limited : 0 < limit) :
    Chunked.Continuous limit beyond (reading cluster) ↔ Clean cluster limit := by
  have ordered {page : Nat} {last later : Nat × Row α}
      (found : (reading cluster)[(page + 1) * limit - 1]? = some last)
      (further : later ∈ (reading cluster).drop ((page + 1) * limit)) : Before last later := by
    obtain ⟨n, at_n⟩ := List.mem_iff_getElem?.mp further
    rw [List.getElem?_drop] at at_n
    obtain ⟨_, rfl⟩ := List.getElem?_eq_some_iff.mp found
    obtain ⟨_, rfl⟩ := List.getElem?_eq_some_iff.mp at_n
    have : 0 < (page + 1) * limit := Nat.mul_pos page.succ_pos limited
    exact List.pairwise_iff_getElem.mp reading_before _ _ _ _ (by omega)
  constructor
  · intro continuous page last found shard legacy later further same
    have mem := List.mem_of_getElem? found
    have passed := (beyond_iff mem).mp (continuous page last found later further)
    obtain ⟨-, -, -, own | marked⟩ := mark_spec mem
    · unfold mark at own
      rw [if_pos ⟨shard, legacy⟩] at own
      simp only [Nat.shiftLeft_eq] at own
      omega
    · omega
  · intro clean page last found later further
    have mem := List.mem_of_getElem? found
    have before := ordered found further
    rw [beyond_iff mem]
    unfold Before at before
    obtain ⟨-, -, -, own | ⟨shard, legacy, marked⟩⟩ := mark_spec mem
    · omega
    · have := clean page last found shard legacy later further
      omega

theorem seen_zero : (reading cluster).filter (seen 0) = reading cluster := by
  refine List.filter_eq_self.mpr fun t _ => ?_
  rw [seen_iff, show shardKeyForId 0 = 0 from rfl]
  omega

/-- Reading always comes to an empty page, without an error. -/
theorem readAll_ends (cluster : Cluster α) (limit : Nat) :
    ∃ fuel results, readAll cluster limit fuel (.number 0) = .ok (some results) := by
  rcases readAll_spec cluster limit ((reading cluster).filter (seen 0)).length.succ 0 with
    ⟨-, short⟩ | complete
  · omega
  · exact ⟨_, _, complete⟩

theorem readAll_drain (cluster : Cluster α) (limit : Nat) :
    (∃ fuel results, readAll cluster limit fuel (.number 0) = .ok (some results) ∧
      results.Perm (rows cluster)) ↔ Chunked.drain limit beyond (reading cluster) = reading cluster := by
  have spec (fuel : Nat) := readAll_spec cluster limit fuel 0
  rw [seen_zero] at spec
  constructor
  · rintro ⟨fuel, results, read, all⟩
    rcases spec fuel with ⟨ongoing, -⟩ | complete
    · simp [ongoing] at read
    · rw [complete, Except.ok.injEq, Option.some.injEq] at read
      subst read
      have count := (all.trans (reading_perm cluster).symm).length_eq
      rw [List.length_map, List.length_map] at count
      exact Chunked.drain_sublist.eq_of_length count
  · intro all
    obtain ⟨fuel, results, read⟩ := readAll_ends cluster limit
    rcases spec fuel with ⟨ongoing, -⟩ | complete
    · simp [ongoing] at read
    · rw [all] at complete
      exact ⟨fuel, _, complete, reading_perm cluster⟩

theorem clean_of_no_legacy (proper : ∀ shard, ∀ row ∈ cluster.table shard, shardKeyForId row.id = shard)
    (limit : Nat) : Clean cluster limit := by
  intro page last found shard legacy
  have placed := proper _ _ (mem_table (List.mem_of_getElem? found))
  unfold Legacy at legacy
  omega

/-- Reading all pages from cursor zero ends, and returns every row of every shard exactly once if and
only if no full page ends with a legacy row in front of rows that its marked id passes over. -/
theorem readAll_complete_iff (cluster : Cluster α) (limit : Nat) (limited : 1 ≤ limit) :
    (∃ fuel results, readAll cluster limit fuel (.number 0) = .ok (some results) ∧
      results.Perm (rows cluster)) ↔ Clean cluster limit := by
  rw [readAll_drain, Chunked.drain_eq_iff limited, continuous_iff limited]

/-- One table with ids of its shard, in the shard with key one. -/
def oneTable (table : List (Row Unit)) (distinct : (table.map (·.id)).Nodup)
    (ids : ∀ row ∈ table, 0 < row.id ∧ (shardKeyForId row.id = 1 ∨ Legacy row.id)) : Cluster Unit where
  engines := [1]
  keys_distinct := List.nodup_singleton 1
  table shard := if shard = 1 then table else []
  ids_distinct shard := by split <;> simp [distinct]
  id_pos shard row mem := by
    split at mem
    · exact (ids row mem).1
    · simp at mem
  id_shard shard row mem := by
    split at mem
    next same => exact same ▸ (ids row mem).2
    next => simp at mem

/-- A row of the shard with key one, and two of that with key two. -/
def threeRows : Nat → List (Row Unit)
  | 1 => [⟨2 ^ 48 + 1, ()⟩]
  | 2 => [⟨2 ^ 49 + 1, ()⟩, ⟨2 ^ 49 + 2, ()⟩]
  | _ => []

theorem threeRows_distinct (shard : Nat) : ((threeRows shard).map (·.id)).Nodup := by
  unfold threeRows
  split <;> decide

theorem threeRows_shard (shard : Nat) : ∀ row ∈ threeRows shard, shardKeyForId row.id = shard := by
  unfold threeRows
  split <;> simp [shardKeyForId]

theorem threeRows_pos (shard : Nat) : ∀ row ∈ threeRows shard, 0 < row.id := by
  unfold threeRows
  split <;> simp

def twoShards : Cluster Unit where
  engines := [1, 2]
  keys_distinct := by decide
  table := threeRows
  ids_distinct := threeRows_distinct
  id_pos := threeRows_pos
  id_shard shard row mem := .inl (threeRows_shard shard row mem)

/-- The first of two pages ends between the rows of the second shard. -/
theorem three_rows_complete : ∃ fuel results, readAll twoShards 2 fuel (.number 0) = .ok (some results) ∧
    results.Perm (rows twoShards) :=
  (readAll_complete_iff twoShards 2 (by decide)).mpr (clean_of_no_legacy threeRows_shard 2)

/-- Of two rows with legacy ids the first page of one ends with the first, and no page has the other. -/
theorem legacy_row_lost : ¬∀ (cluster : Cluster Unit) (limit : Nat), 1 ≤ limit →
    ∃ fuel results, readAll cluster limit fuel (.number 0) = .ok (some results) ∧
      results.Perm (rows cluster) := by
  intro complete
  let cluster := oneTable [⟨1, ()⟩, ⟨2, ()⟩] (by decide) (by decide)
  have sorted : orderById (cluster.table 1) = [⟨1, ()⟩, ⟨2, ()⟩] :=
    List.mergeSort_of_pairwise (by decide)
  have order : reading cluster = [(1, ⟨1, ()⟩), (1, ⟨2, ()⟩)] := by
    have keys : cluster.engines.mergeSort (· ≤ ·) = [1] := List.mergeSort_singleton 1
    rw [reading, keys, List.flatMap_singleton, tagged, sorted]
    rfl
  have all := (readAll_drain cluster 1).mp (complete cluster 1 le_rfl)
  rw [Chunked.drain_eq_iff Nat.one_pos, continuous_iff Nat.one_pos] at all
  have passed := all 0 (1, ⟨1, ()⟩) (by rw [order]; rfl) (by decide) (by decide) (1, ⟨2, ()⟩)
    (by rw [order]; exact List.mem_singleton_self _) rfl
  exact absurd passed (by decide)

end SyncEngine.ShardPaging
