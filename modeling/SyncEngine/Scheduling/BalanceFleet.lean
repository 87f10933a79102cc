import SyncEngine.Scheduling.DeferredMigration
import SyncEngine.Util.ListScheduling
import SyncEngine.Util.Lookup

/-! The rebalancing of a zone: accounts are divided among as many buckets as there are sync processes, the
buckets are handed to the processes so that few accounts move, and a deferred migration is saved for
every account. What a sum of floats is rounded to is a parameter, and the Hungarian algorithm is another. -/
namespace SyncEngine
namespace BalanceFleet
open ListScheduling (load Fits Filled)
variable {Load : Type} [Field Load] [LinearOrder Load] (fl : Load → Load)

inductive Raised
  /-- `min` of no bucket -/
  | valueError
  | indexError
  /-- A bucket that was never assigned is `None`. -/
  | typeError
  | zeroDivisionError
deriving DecidableEq

/-! ## Partition -/

/-- A list of `buckets` with the loads of its accounts, and its entry of `bucket_totals`. -/
structure Bucket (Load : Type) where
  accounts : List (Nat × Load)
  total : Load

def Bucket.empty : Bucket Load := ⟨[], 0⟩

def Bucket.add (bucket : Bucket Load) (item : Nat × Load) : Bucket Load where
  accounts := bucket.accounts ++ [item]
  total := fl (bucket.total + item.2)

/-- `bucket_totals.index(min(bucket_totals))` -/
def lessLoaded (buckets : List (Bucket Load)) : Except Raised Nat :=
  let bucketTotals := buckets.map Bucket.total
  match bucketTotals.argmin id with
  | none => .error .valueError
  | some least => .ok (bucketTotals.idxOf least)

def addLessLoaded (buckets : List (Bucket Load)) (item : Nat × Load) : Except Raised (List (Bucket Load)) := do
  return buckets.modify (← lessLoaded buckets) (·.add fl item)

/-- `i` is the index of the first of the buckets that get one account each. -/
def addFirst : List (Bucket Load) → Nat → List (Nat × Load) → List (Bucket Load)
  | buckets, _, [] => buckets
  | buckets, i, item :: items => addFirst (buckets.modify i (·.add fl item)) (i + 1) items

/-- `sorted(…, reverse=True)` leaves equal loads as they are. -/
def sortedLoads (loadPerAccount : List (Nat × Load)) : List (Nat × Load) :=
  loadPerAccount.insertionSort fun a b => b.2 ≤ a.2

def partitionAccounts (loadPerAccount : List (Nat × Load)) (numBuckets : Nat) :
    Except Raised (List (List Nat)) := do
  let sorted := sortedLoads loadPerAccount
  let buckets := addFirst fl (List.replicate numBuckets Bucket.empty) 0 (sorted.take numBuckets)
  let buckets ← (sorted.drop numBuckets).foldlM (addLessLoaded fl) buckets
  return buckets.map fun bucket => bucket.accounts.map Prod.fst

/-! ## Assignment -/

structure Host where
  name : String
  numProcs : Nat
deriving DecidableEq

def actualHostname (hostname : String) : String := if hostname = "localhost" then "precise64" else hostname

def syncProcs (hosts : List Host) : List String :=
  hosts.flatMap fun host => (List.range host.numProcs).map fun i => s!"{actualHostname host.name}:{i}"

/-- The accounts of the bucket that the process has now. -/
def numPresent (accountHosts : Nat → Option String) (procId : String) (bucket : List Nat) : Nat :=
  bucket.countP fun accountId => accountHosts accountId = some procId

def profitMatrix (accountHosts : Nat → Option String) (procs : List String) (buckets : List (List Nat)) :
    List (List Nat) :=
  buckets.map fun bucket => procs.map fun procId => numPresent accountHosts procId bucket + 1

def maxNumPresent (profits : List (List Nat)) : Nat := profits.flatten.foldl max 0

/-- `make_cost_matrix` -/
def costMatrix (profits : List (List Nat)) : List (List Nat) :=
  profits.map fun row => row.map fun profit => maxNumPresent profits + 1 - profit

/-- `result_buckets` while the loop over `indexes` goes on. -/
def assignBuckets (buckets : List (List Nat)) :
    List (Nat × Nat) → List (Option (List Nat)) → Except Raised (List (Option (List Nat)))
  | [], result => .ok result
  | (row, column) :: indexes, result =>
    if row < buckets.length ∧ column < result.length then
      assignBuckets buckets indexes (result.set column (some (buckets.getD row [])))
    else .error .indexError

def totalAccounts (buckets : List (List Nat)) (indexes : List (Nat × Nat)) : Nat :=
  (indexes.map fun index => (buckets.getD index.1 []).length).sum

/-- For each bucket its place among the processes. -/
def bucketIndexes (compute : List (List Nat) → Except Raised (List (Nat × Nat)))
    (accountHosts : Nat → Option String) (procs : List String) (buckets : List (List Nat)) (shouldOptimize : Bool) :
    Except Raised (List (Nat × Nat)) :=
  if shouldOptimize then compute (costMatrix (profitMatrix accountHosts procs buckets))
  else .ok (List.range procs.length).zipIdx

/-- The share of the accounts that stay is logged, and is a division by zero without accounts. -/
def doMinimizeMigrations (compute : List (List Nat) → Except Raised (List (Nat × Nat)))
    (accountHosts : Nat → Option String) (hosts : List Host) (buckets : List (List Nat)) (shouldOptimize : Bool) :
    Except Raised (List (Option (List Nat))) := do
  let indexes ← bucketIndexes compute accountHosts (syncProcs hosts) buckets shouldOptimize
  let resultBuckets ← assignBuckets buckets indexes (List.replicate indexes.length none)
  if totalAccounts buckets indexes = 0 then .error .zeroDivisionError else return resultBuckets

/-! ## Migrations -/
open DeferredMigration (Redis)

/-- Each account has its own random `delay`. -/
def migrateBucket (startTime : Int) (delay : Nat → Int) (procId : String) (bucket : List Nat) (redis : Redis) :
    Redis :=
  bucket.foldl (fun redis accountId => redis.create (startTime + delay accountId) accountId procId) redis

def migrateAccounts (startTime : Int) (delay : Nat → Int) :
    List String → List (Option (List Nat)) → Redis → Except Raised Redis
  | [], _, redis => .ok redis
  | procId :: procs, some bucket :: buckets, redis =>
    migrateAccounts startTime delay procs buckets (migrateBucket startTime delay procId bucket redis)
  | _ :: _, none :: _, _ => .error .typeError
  | _ :: _, [], _ => .error .indexError

/-- What the membership test compares: the row of the query, a tuple, with hosts, which are dicts. -/
inductive Compared
  | row (syncHost : Option String)
  | host (host : Host)
deriving DecidableEq

def isAccountOnDebugHost (syncHosts : Nat → Option (Option String)) (debugHosts : List Host)
    (accountId : Nat) : Bool :=
  match syncHosts accountId with
  | none => false
  | some syncHost => Compared.row syncHost ∈ debugHosts.map Compared.host

def balanced (syncHosts : Nat → Option (Option String)) (debugHosts : List Host)
    (accountLoads : List (Nat × Load)) : List (Nat × Load) :=
  accountLoads.filter fun item => !isAccountOnDebugHost syncHosts debugHosts item.1

def balanceZone (compute : List (List Nat) → Except Raised (List (Nat × Nat)))
    (accountHosts : Nat → Option String) (syncHosts : Nat → Option (Option String))
    (normalHosts debugHosts : List Host) (accountLoads : List (Nat × Load))
    (minimizeMigrations dryRun : Bool) (startTime : Int) (delay : Nat → Int) (redis : Redis) :
    Except Raised Redis := do
  let numBuckets := (normalHosts.map Host.numProcs).sum
  let buckets ← partitionAccounts fl (balanced syncHosts debugHosts accountLoads) numBuckets
  let buckets ← doMinimizeMigrations compute accountHosts normalHosts buckets minimizeMigrations
  if dryRun then return redis
  migrateAccounts startTime delay (syncProcs normalHosts) buckets redis

/-- A tuple is no dict, so that no account is found on a debug host. -/
theorem isAccountOnDebugHost_false (syncHosts : Nat → Option (Option String)) (debugHosts : List Host)
    (accountId : Nat) : isAccountOnDebugHost syncHosts debugHosts accountId = false := by
  unfold isAccountOnDebugHost
  cases syncHosts accountId with
  | none => rfl
  | some syncHost => simp

omit [Field Load] [LinearOrder Load] in
theorem balanced_all (syncHosts : Nat → Option (Option String)) (debugHosts : List Host)
    (accountLoads : List (Nat × Load)) : balanced syncHosts debugHosts accountLoads = accountLoads :=
  List.filter_eq_self.mpr fun item _ => by rw [isAccountOnDebugHost_false, Bool.not_false]

/-! ## The partition -/

/-- No load is negative, and every sum of some of them is a float. -/
structure Exact (loads : List (Nat × Load)) : Prop where
  nonneg : ∀ item ∈ loads, 0 ≤ item.2
  sums : ∀ part : List (Nat × Load), part.Subperm loads → fl (load Prod.snd part) = load Prod.snd part

def bins (buckets : List (Bucket Load)) : List (List (Nat × Load)) := buckets.map Bucket.accounts

/-- How far the accounts `all` are divided into `n` buckets. Only exact totals tell which bucket is the
least loaded one. -/
structure Divided (all : List (Nat × Load)) (n : Nat) (buckets : List (Bucket Load))
    (done : List (Nat × Load)) : Prop where
  length : buckets.length = n
  perm : (bins buckets).flatten.Perm done
  sums : Exact fl all → ∀ bucket ∈ buckets, bucket.total = load Prod.snd bucket.accounts
  filled : Exact fl all → Filled Prod.snd n (bins buckets) done

section Partition
variable {fl} {buckets : List (Bucket Load)} {n : Nat} {all done : List (Nat × Load)}

omit [LinearOrder Load] in
theorem bins_modify (buckets : List (Bucket Load)) (i : Nat) (item : Nat × Load) :
    bins (buckets.modify i (·.add fl item)) = (bins buckets).modify i (· ++ [item]) := by
  refine List.ext_getElem? fun j => ?_
  simp only [bins, List.getElem?_map, List.getElem?_modify]
  cases buckets[j]? with
  | none => rfl
  | some bucket =>
    simp only [Option.map_some, Option.map_eq_map]
    split <;> rfl

omit [Field Load] in
/-- `min` raises only when there is no bucket. -/
theorem lessLoaded_least (some_bucket : buckets ≠ []) : ∃ i bucket, lessLoaded buckets = .ok i ∧
    buckets[i]? = some bucket ∧ ∀ other ∈ buckets, bucket.total ≤ other.total := by
  obtain ⟨least, found⟩ := Option.ne_none_iff_exists'.mp
    (mt List.argmin_eq_none.mp (mt List.map_eq_nil_iff.mp some_bucket) :
      (buckets.map Bucket.total).argmin id ≠ none)
  have at_index := List.getElem?_idxOf (List.argmin_mem found)
  obtain ⟨bucket, among, rfl⟩ := Option.map_eq_some_iff.mp (List.getElem?_map.symm.trans at_index)
  refine ⟨(buckets.map Bucket.total).idxOf bucket.total, bucket, by simp [lessLoaded, found], among, ?_⟩
  intro other held
  have totals : other.total ∈ buckets.map Bucket.total := List.mem_map_of_mem held
  exact (List.le_of_mem_argmin totals found : id bucket.total ≤ id other.total)

/-- The total that an account is added to stays exact. -/
theorem Exact.add (exact : Exact fl all) {bucket : Bucket Load} (sums : bucket.total = load Prod.snd bucket.accounts)
    (within : (bucket.accounts ++ [item]).Subperm all) :
    (bucket.add fl item).total = load Prod.snd (bucket.add fl item).accounts := by
  have total := exact.sums _ within
  simp only [Bucket.add, ListScheduling.load_append, ListScheduling.load_cons, ListScheduling.load_nil, add_zero]
    at total ⊢
  rw [sums, total]

theorem Divided.add (divided : Divided fl all n buckets done) {bucket : Bucket Load} {i : Nat}
    (at_index : buckets[i]? = some bucket) (item : Nat × Load) (within : (done ++ [item]).Subperm all)
    (least : Exact fl all → ∀ other ∈ bins buckets, load Prod.snd bucket.accounts ≤ load Prod.snd other) :
    Divided fl all n (buckets.modify i (·.add fl item)) (done ++ [item]) := by
  have bin : (bins buckets)[i]? = some bucket.accounts := by
    rw [bins, List.getElem?_map, at_index]
    rfl
  refine ⟨by simpa using divided.length, ?_, fun exact => ?_, fun exact => ?_⟩
  · rw [bins_modify]
    exact (ListScheduling.flatten_modify_perm bin item).trans (divided.perm.append_right [item])
  · obtain ⟨before, after, rfl, modified⟩ := ListScheduling.split_modify at_index
    rw [modified]
    intro other member
    rcases List.mem_append.mp member with earlier | member
    · exact divided.sums exact other (List.mem_append_left _ earlier)
    rcases List.mem_cons.mp member with rfl | later
    · refine exact.add (divided.sums exact bucket (by simp)) (.trans ?_ within)
      refine (List.subperm_append_right [item]).mpr (List.Subperm.trans ?_ divided.perm.subperm)
      exact (List.sublist_flatten_of_mem (by simp [bins])).subperm
    · exact divided.sums exact other (List.mem_append_right _ (List.mem_cons_of_mem _ later))
  · rw [bins_modify]
    exact (divided.filled exact).modify bin (least exact) item

theorem addLessLoaded_divided (divided : Divided fl all n buckets done) (some_bucket : 0 < n)
    (item : Nat × Load) (within : (done ++ [item]).Subperm all) :
    ∃ next, addLessLoaded fl buckets item = .ok next ∧ Divided fl all n next (done ++ [item]) := by
  have some_bucket : buckets ≠ [] := List.ne_nil_of_length_pos (divided.length ▸ some_bucket)
  obtain ⟨i, bucket, found, at_index, least⟩ := lessLoaded_least some_bucket
  refine ⟨buckets.modify i (·.add fl item), by simp [addLessLoaded, found], ?_⟩
  refine divided.add at_index item within fun exact other member => ?_
  obtain ⟨other, held, rfl⟩ := List.mem_map.mp member
  rw [← divided.sums exact bucket (List.mem_of_getElem? at_index), ← divided.sums exact other held]
  exact least other held

theorem foldlM_divided (some_bucket : 0 < n) (items : List (Nat × Load)) :
    ∀ {buckets : List (Bucket Load)} {done}, Divided fl all n buckets done → (done ++ items).Subperm all →
      ∃ next, items.foldlM (addLessLoaded fl) buckets = .ok next ∧ Divided fl all n next (done ++ items) := by
  induction items with
  | nil => exact fun divided _ => ⟨_, rfl, by simpa using divided⟩
  | cons item items ih =>
    intro buckets done divided within
    rw [List.append_cons] at within ⊢
    obtain ⟨next, added, divided⟩ := addLessLoaded_divided divided some_bucket item
      ((List.sublist_append_left _ _).subperm.trans within)
    obtain ⟨last, ran, divided⟩ := ih divided within
    exact ⟨last, by rw [List.foldlM_cons, added]; exact ran, divided⟩

/-- A bucket that is empty is a least loaded one. -/
theorem addFirst_divided [IsStrictOrderedRing Load] (items : List (Nat × Load)) :
    ∀ {front : List (Bucket Load)} {count : Nat} {done : List (Nat × Load)}, items.length ≤ count →
      (done ++ items).Subperm all →
      Divided fl all n (front ++ List.replicate count Bucket.empty) done →
      Divided fl all n (addFirst fl (front ++ List.replicate count Bucket.empty) front.length items)
        (done ++ items) := by
  induction items with
  | nil =>
    intro front count done _ _ divided
    simpa [addFirst] using divided
  | cons item items ih =>
    intro front count done enough within divided
    obtain ⟨count, rfl⟩ := Nat.exists_eq_add_one.mpr (Nat.lt_of_lt_of_le (Nat.succ_pos _) enough)
    rw [List.append_cons] at within ⊢
    have held : done.Subperm all := (List.Sublist.subperm (by simp)).trans within
    have next : (front ++ List.replicate (count + 1) Bucket.empty)[front.length]? = some Bucket.empty := by simp
    have put := divided.add next item
      ((List.sublist_append_left _ _).subperm.trans within) fun exact other member =>
        ListScheduling.load_nonneg fun entry inside => exact.nonneg entry <| held.subset <|
          divided.perm.mem_iff.mp (List.mem_flatten.mpr ⟨other, member, inside⟩)
    have here : (front ++ List.replicate (count + 1) Bucket.empty).modify front.length (·.add fl item) =
        (front ++ [Bucket.empty.add fl item]) ++ List.replicate count Bucket.empty := by
      rw [List.modify_eq_take_cons_drop (by simp)]
      simp [List.replicate_succ, List.drop_append]
    rw [addFirst, here]
    rw [here] at put
    have more := @ih (front ++ [Bucket.empty.add fl item]) _ _ (Nat.le_of_succ_le_succ enough) within put
    simpa using more

theorem divided_start (n : Nat) : Divided fl all n (List.replicate n Bucket.empty) [] := by
  have start : bins (List.replicate n (Bucket.empty : Bucket Load)) = List.replicate n [] := by
    simp [bins, Bucket.empty]
  refine ⟨List.length_replicate, by simp [start], fun _ bucket member => ?_, fun _ => start ▸ .nil⟩
  rw [List.eq_of_mem_replicate member]
  rfl

omit [Field Load] in
theorem sortedLoads_perm (loads : List (Nat × Load)) : (sortedLoads loads).Perm loads :=
  List.perm_insertionSort _ _

omit [Field Load] in
theorem sortedLoads_descending (loads : List (Nat × Load)) :
    (sortedLoads loads).Pairwise fun a b => b.2 ≤ a.2 := by
  have total : Std.Total fun a b : Nat × Load => b.2 ≤ a.2 := ⟨fun a b => le_total b.2 a.2⟩
  have trans : IsTrans (Nat × Load) fun a b => b.2 ≤ a.2 := ⟨fun _ _ _ ab bc => bc.trans ab⟩
  exact List.pairwise_insertionSort _ _

/-- The loads that `accountLoads` has for the accounts of a bucket. -/
def bucketLoad (accountLoads : List (Nat × Load)) (bucket : List Nat) : Load :=
  load (fun accountId => (accountLoads.lookup accountId).getD 0) bucket

/-- The load of no bucket is above (4n - 1) / 3n times a bound that another division into n buckets keeps. -/
def Fair (accountLoads : List (Nat × Load)) (buckets : List (List Nat)) : Prop :=
  ∀ others : List (List Nat), others.length = buckets.length → others.flatten.Perm (accountLoads.map Prod.fst) →
    ∀ bound, (∀ bucket ∈ others, bucketLoad accountLoads bucket ≤ bound) → ∀ bucket ∈ buckets,
      3 * buckets.length * bucketLoad accountLoads bucket ≤ (4 * buckets.length - 1) * bound

section Exact
variable {accountLoads : List (Nat × Load)}

/-- The item of an account. -/
def item (accountLoads : List (Nat × Load)) (accountId : Nat) : Nat × Load :=
  (accountId, (accountLoads.lookup accountId).getD 0)

omit [LinearOrder Load] in
theorem item_eq (distinct : (accountLoads.map Prod.fst).Nodup) {entry : Nat × Load}
    (member : entry ∈ accountLoads) : item accountLoads entry.1 = entry := by
  rw [item, (lookup_eq_some_iff distinct).mpr member]
  rfl

omit [LinearOrder Load] in
theorem load_items (bucket : List Nat) :
    load Prod.snd (bucket.map (item accountLoads)) = bucketLoad accountLoads bucket := by
  rw [bucketLoad, load, load, List.map_map]
  rfl

omit [LinearOrder Load] in
theorem bucketLoad_accounts (distinct : (accountLoads.map Prod.fst).Nodup) {bin : List (Nat × Load)}
    (among : ∀ entry ∈ bin, entry ∈ accountLoads) :
    bucketLoad accountLoads (bin.map Prod.fst) = load Prod.snd bin := by
  rw [← load_items, List.map_map]
  congr 1
  exact (List.map_congr_left fun entry member => item_eq distinct (among entry member)).trans (List.map_id _)

/-- With some bucket the partition succeeds, and is fair if its totals are exact. -/
theorem partition_ok [IsStrictOrderedRing Load] (distinct : (accountLoads.map Prod.fst).Nodup)
    (some_bucket : 0 < n) : ∃ buckets, partitionAccounts fl accountLoads n = .ok buckets ∧ buckets.length = n ∧
      buckets.flatten.Perm (accountLoads.map Prod.fst) ∧ (Exact fl accountLoads → Fair accountLoads buckets) := by
  have sorted := sortedLoads_perm accountLoads
  have first := @addFirst_divided _ _ _ fl n accountLoads _ ((sortedLoads accountLoads).take n) [] n []
    (List.length_take_le _ _) ((List.take_sublist _ _).subperm.trans sorted.subperm) (divided_start n)
  obtain ⟨last, ran, divided⟩ := foldlM_divided some_bucket ((sortedLoads accountLoads).drop n) first (by
    rw [List.nil_append, List.take_append_drop]
    exact sorted.subperm)
  rw [List.nil_append, List.take_append_drop] at divided
  have perm := divided.perm.trans sorted
  refine ⟨last.map fun bucket => bucket.accounts.map Prod.fst, ?_, by simpa using divided.length, ?_, ?_⟩
  · simp only [List.nil_append, List.length_nil] at ran
    rw [partitionAccounts, ran]
    rfl
  · have flat : (last.map fun bucket => bucket.accounts.map Prod.fst).flatten =
        (bins last).flatten.map Prod.fst := by
      rw [List.map_flatten, bins, List.map_map]
      rfl
    exact flat ▸ perm.map Prod.fst
  · intro exact others same held bound within bucket member
    rw [List.length_map, divided.length] at same ⊢
    obtain ⟨bin, here, rfl⟩ := List.mem_map.mp member
    have among : ∀ entry ∈ bin.accounts, entry ∈ accountLoads := fun entry inside =>
      perm.mem_iff.mp (List.mem_flatten.mpr ⟨_, List.mem_map_of_mem here, inside⟩)
    have fits : Fits Prod.snd n bound (sortedLoads accountLoads) := by
      refine ⟨others.map (List.map (item accountLoads)), by simpa using same, ?_, fun other chosen => ?_⟩
      · rw [← List.map_flatten]
        refine (held.map _).trans (.trans (.of_eq ?_) sorted.symm)
        rw [List.map_map]
        exact (List.map_congr_left fun entry member => item_eq distinct member).trans (List.map_id _)
      · obtain ⟨other, inside, rfl⟩ := List.mem_map.mp chosen
        exact (load_items other).trans_le (within other inside)
    rw [bucketLoad_accounts distinct among]
    exact (divided.filled exact).load_le (fun entry member => exact.nonneg entry (sorted.mem_iff.mp member))
      (sortedLoads_descending accountLoads) fits (List.mem_map_of_mem here)

end Exact

omit [LinearOrder Load] in
theorem addFirst_nil (i : Nat) (items : List (Nat × Load)) : addFirst fl [] i items = [] := by
  induction items generalizing i with
  | nil => rfl
  | cons item items ih => simpa [addFirst] using ih (i + 1)

/-- Without buckets `min` raises at the first account. -/
theorem partition_none (accountLoads : List (Nat × Load)) : partitionAccounts fl accountLoads 0 =
    if accountLoads = [] then .ok [] else .error .valueError := by
  have length := (sortedLoads_perm accountLoads).length_eq
  unfold partitionAccounts
  dsimp only
  rw [List.replicate_zero, List.drop_zero, addFirst_nil]
  cases items : sortedLoads accountLoads with
  | nil =>
    rw [items] at length
    rw [if_pos (List.eq_nil_of_length_eq_zero length.symm)]
    rfl
  | cons first rest =>
    rw [if_neg]
    · rfl
    · rintro rfl
      rw [items] at length
      cases length

end Partition

/-! ## The assignment -/
section Assignment
variable {buckets profits costs : List (List Nat)} {indexes : List (Nat × Nat)} {rows : List Nat}
variable {accountHosts : Nat → Option String} {procs : List String} {n : Nat}

def entry (matrix : List (List Nat)) (index : Nat × Nat) : Nat := (matrix.getD index.1 []).getD index.2 0

def totalOf (matrix : List (List Nat)) (indexes : List (Nat × Nat)) : Nat := (indexes.map (entry matrix)).sum

/-- The algorithm gives each column of a square a row of its own, and no other choice costs less. It asks for
the first row without seeing whether there is one. -/
structure Hungarian (compute : List (List Nat) → Except Raised (List (Nat × Nat))) : Prop where
  empty : compute [] = .error .indexError
  cheapest : ∀ costs : List (List Nat), costs ≠ [] → (∀ row ∈ costs, row.length = costs.length) →
    ∃ indexes, compute costs = .ok indexes ∧
      (∃ rows : List Nat, rows.Perm (List.range costs.length) ∧ indexes.Perm rows.zipIdx) ∧
      ∀ rows : List Nat, rows.Perm (List.range costs.length) →
        totalOf costs indexes ≤ totalOf costs rows.zipIdx

/-- The accounts that stay where they are when each process gets its target. -/
def staying (accountHosts : Nat → Option String) (procs : List String) (targets : List (List Nat)) : Nat :=
  (procs.zipWith (numPresent accountHosts) targets).sum

/-! ### Reordering the buckets -/

/-- `result_buckets` when all went well. -/
def ordered (buckets : List (List Nat)) (rows : List Nat) : List (List Nat) :=
  rows.map fun row => buckets.getD row []

theorem assignBuckets_other {column : Nat} {result last : List (Option (List Nat))}
    (ran : assignBuckets buckets indexes result = .ok last) (unnamed : column ∉ indexes.map Prod.snd) :
    last[column]? = result[column]? := by
  induction indexes generalizing result with
  | nil =>
    cases ran
    rfl
  | cons index indexes ih =>
    rw [List.map_cons, List.mem_cons, not_or] at unnamed
    rw [assignBuckets] at ran
    split at ran
    · rw [ih ran unnamed.2, List.getElem?_set_ne (Ne.symm unnamed.1)]
    · cases ran

theorem assignBuckets_ok {result : List (Option (List Nat))}
    (inside : ∀ index ∈ indexes, index.1 < buckets.length ∧ index.2 < result.length)
    (distinct : (indexes.map Prod.snd).Nodup) :
    ∃ last, assignBuckets buckets indexes result = .ok last ∧ last.length = result.length ∧
      ∀ index ∈ indexes, last[index.2]? = some (some (buckets.getD index.1 [])) := by
  induction indexes generalizing result with
  | nil => exact ⟨result, rfl, rfl, by simp⟩
  | cons index indexes ih =>
    obtain ⟨fresh, distinct⟩ := List.nodup_cons.mp distinct
    have here := inside index List.mem_cons_self
    obtain ⟨last, ran, length, sets⟩ := @ih (result.set index.2 (some (buckets.getD index.1 [])))
      (fun other member => by simpa using inside other (List.mem_cons_of_mem _ member)) distinct
    refine ⟨last, by rw [assignBuckets, if_pos here, ran], by simpa using length, fun other member => ?_⟩
    rcases List.mem_cons.mp member with rfl | later
    · rw [assignBuckets_other ran fresh, List.getElem?_set_self here.2]
    · exact sets other later

/-- Whatever the order of the pairs, each column gets the bucket of its row. -/
theorem assignBuckets_ordered (rows_perm : rows.Perm (List.range n)) (chosen : indexes.Perm rows.zipIdx)
    (length : buckets.length = n) :
    assignBuckets buckets indexes (List.replicate indexes.length none) =
      .ok ((ordered buckets rows).map some) := by
  have rows_length : rows.length = n := by rw [rows_perm.length_eq, List.length_range]
  have pairs : ∀ {row column}, (row, column) ∈ indexes ↔ rows[column]? = some row := by
    intro row column
    rw [chosen.mem_iff, List.mk_mem_zipIdx_iff_getElem?]
  have inside : ∀ index ∈ indexes, index.1 < buckets.length ∧
      index.2 < (List.replicate indexes.length (none : Option (List Nat))).length := by
    rintro ⟨row, column⟩ member
    obtain ⟨bounded, rfl⟩ := List.getElem?_eq_some_iff.mp (pairs.mp member)
    have among := rows_perm.mem_iff.mp (List.getElem_mem bounded)
    rw [List.length_replicate, chosen.length_eq, List.length_zipIdx]
    exact ⟨length ▸ List.mem_range.mp among, bounded⟩
  have distinct : (indexes.map Prod.snd).Nodup := by
    refine (chosen.map Prod.snd).nodup_iff.mpr ?_
    rw [List.zipIdx_map_snd]
    exact List.nodup_range'
  obtain ⟨last, ran, same, sets⟩ := assignBuckets_ok inside distinct
  rw [ran, List.length_replicate, chosen.length_eq, List.length_zipIdx] at *
  congr 1
  refine List.ext_getElem? fun column => ?_
  by_cases bounded : column < rows.length
  · rw [sets (rows[column], column) (pairs.mpr (List.getElem?_eq_getElem bounded))]
    simp [ordered, bounded]
  · rw [List.getElem?_eq_none (by omega), List.getElem?_eq_none (by simp [ordered]; omega)]

theorem ordered_range (length : buckets.length = n) : ordered buckets (List.range n) = buckets := by
  refine List.ext_getElem (by simp [ordered, length]) fun i inside _ => ?_
  have bounded : i < buckets.length := by simpa [ordered, length] using inside
  simp [ordered, bounded]

theorem ordered_perm (rows_perm : rows.Perm (List.range n)) (length : buckets.length = n) :
    (ordered buckets rows).Perm buckets := by
  have reordered := rows_perm.map fun row => buckets.getD row []
  exact reordered.trans (.of_eq (ordered_range length))

/-- Every order of the buckets is one of their rows. -/
theorem exists_ordered (f : Nat → List Nat) {others mapped : List (List Nat)} (perm : others.Perm mapped) :
    ∀ rows : List Nat, mapped = rows.map f → ∃ reordered : List Nat, reordered.Perm rows ∧
      others = reordered.map f := by
  induction perm with
  | nil => exact fun rows same => ⟨rows, .refl _, same⟩
  | cons bucket perm ih =>
    intro rows same
    obtain ⟨row, rest, rfl, rfl, rest_eq⟩ := List.map_eq_cons_iff.mp same.symm
    obtain ⟨reordered, again, rfl⟩ := ih rest rest_eq.symm
    exact ⟨row :: reordered, again.cons row, rfl⟩
  | swap a b l =>
    intro rows same
    obtain ⟨row, rest, rfl, rfl, rest_eq⟩ := List.map_eq_cons_iff.mp same.symm
    obtain ⟨second, rest, rfl, rfl, rfl⟩ := List.map_eq_cons_iff.mp rest_eq
    exact ⟨second :: row :: rest, .swap _ _ _, rfl⟩
  | trans first second ihFirst ihSecond =>
    intro rows same
    obtain ⟨between, perm, between_eq⟩ := ihSecond rows same
    obtain ⟨reordered, again, eq⟩ := ihFirst between between_eq
    exact ⟨reordered, again.trans perm, eq⟩

/-! ### Costs and profits -/

theorem profitMatrix_length (accountHosts : Nat → Option String) (procs : List String)
    (buckets : List (List Nat)) : (profitMatrix accountHosts procs buckets).length = buckets.length :=
  List.length_map _

theorem profitMatrix_square (accountHosts : Nat → Option String) (procs : List String)
    (buckets : List (List Nat)) :
    ∀ row ∈ profitMatrix accountHosts procs buckets, row.length = procs.length := by
  intro row member
  obtain ⟨bucket, -, rfl⟩ := List.mem_map.mp member
  exact List.length_map _

theorem costMatrix_length (length : profits.length = n) : (costMatrix profits).length = n :=
  (List.length_map _).trans length

theorem costMatrix_square (square : ∀ row ∈ profits, row.length = n) :
    ∀ row ∈ costMatrix profits, row.length = n := by
  intro row member
  obtain ⟨profit, inside, rfl⟩ := List.mem_map.mp member
  exact (List.length_map _).trans (square profit inside)

theorem entry_profitMatrix {row column : Nat} (row_in : row < buckets.length) (column_in : column < procs.length) :
    entry (profitMatrix accountHosts procs buckets) (row, column) =
      numPresent accountHosts procs[column] (buckets.getD row []) + 1 := by
  simp [entry, profitMatrix, row_in, column_in]

theorem entry_le_maxNumPresent {row column : Nat} (row_in : row < profits.length)
    (column_in : column < profits[row].length) : entry profits (row, column) ≤ maxNumPresent profits := by
  have among : profits[row][column] ∈ profits.flatten :=
    List.mem_flatten.mpr ⟨profits[row], List.getElem_mem row_in, List.getElem_mem column_in⟩
  have below : profits[row][column] ≤ maxNumPresent profits := by
    rw [maxNumPresent, List.foldl_max]
    exact Nat.le_trans (List.le_max?_getD_of_mem among) (Nat.le_max_right _ _)
  simpa [entry, row_in, column_in] using below

theorem entry_costMatrix {row column : Nat} (row_in : row < profits.length)
    (column_in : column < profits[row].length) :
    entry (costMatrix profits) (row, column) + entry profits (row, column) = maxNumPresent profits + 1 := by
  have bound := entry_le_maxNumPresent row_in column_in
  simp only [entry, costMatrix, List.getD_eq_getElem?_getD, List.getElem?_map, List.getElem?_eq_getElem row_in,
    List.getElem?_eq_getElem column_in, Option.map_some, Option.getD_some] at bound ⊢
  omega

theorem totalOf_perm {others : List (Nat × Nat)} (same : indexes.Perm others) (matrix : List (List Nat)) :
    totalOf matrix indexes = totalOf matrix others := (same.map _).sum_eq

theorem totalOf_profits (rows_perm : rows.Perm (List.range n)) (length : buckets.length = n)
    (square : procs.length = n) : totalOf (profitMatrix accountHosts procs buckets) rows.zipIdx =
      staying accountHosts procs (ordered buckets rows) + n := by
  have rows_length : rows.length = n := by rw [rows_perm.length_eq, List.length_range]
  have entries : rows.zipIdx.map (entry (profitMatrix accountHosts procs buckets)) =
      (procs.zipWith (numPresent accountHosts) (ordered buckets rows)).map (· + 1) := by
    refine List.ext_getElem (by simp [ordered, rows_length, square]) fun column inside _ => ?_
    have bounded : column < rows.length := by simpa using inside
    have row_in : rows[column] < buckets.length :=
      length ▸ List.mem_range.mp (rows_perm.mem_iff.mp (List.getElem_mem bounded))
    rw [List.getElem_map, List.getElem_zipIdx, Nat.zero_add, entry_profitMatrix row_in (by omega)]
    simp [ordered]
  rw [totalOf, entries, List.sum_map_add, List.map_id', List.map_const', List.sum_replicate, smul_eq_mul,
    mul_one, staying]
  simp [ordered, rows_length, square]

theorem totalOf_costs (rows_perm : rows.Perm (List.range n)) (length : profits.length = n)
    (square : ∀ row ∈ profits, row.length = n) :
    totalOf (costMatrix profits) rows.zipIdx + totalOf profits rows.zipIdx = n * (maxNumPresent profits + 1) := by
  have rows_length : rows.length = n := by rw [rows_perm.length_eq, List.length_range]
  have both : ∀ index ∈ rows.zipIdx,
      entry (costMatrix profits) index + entry profits index = maxNumPresent profits + 1 := by
    rintro ⟨row, column⟩ member
    obtain ⟨bounded, rfl⟩ := List.getElem?_eq_some_iff.mp (List.mk_mem_zipIdx_iff_getElem?.mp member)
    have row_in : rows[column] < profits.length :=
      length ▸ List.mem_range.mp (rows_perm.mem_iff.mp (List.getElem_mem bounded))
    exact entry_costMatrix row_in (square _ (List.getElem_mem row_in) ▸ rows_length ▸ bounded)
  rw [totalOf, totalOf, ← List.sum_map_add, List.map_congr_left both]
  simp [rows_length]

theorem totalAccounts_eq (rows_perm : rows.Perm (List.range n)) (chosen : indexes.Perm rows.zipIdx)
    (length : buckets.length = n) : totalAccounts buckets indexes = buckets.flatten.length := by
  have lengths : rows.zipIdx.map (fun index => (buckets.getD index.1 []).length) =
      (ordered buckets rows).map List.length := by
    rw [ordered, List.map_map]
    refine .trans ?_ (congrArg (List.map _) (List.zipIdx_map_fst 0 rows))
    rw [List.map_map]
    rfl
  rw [totalAccounts, (chosen.map _).sum_eq, lengths, ← List.length_flatten]
  exact (ordered_perm rows_perm length).flatten.length_eq

/-- The least cost is the largest profit. -/
theorem staying_most (length : buckets.length = n) (square : procs.length = n)
    (rows_perm : rows.Perm (List.range n)) (chosen : indexes.Perm rows.zipIdx)
    (cheapest : ∀ other : List Nat, other.Perm (List.range n) →
      totalOf (costMatrix (profitMatrix accountHosts procs buckets)) indexes ≤
        totalOf (costMatrix (profitMatrix accountHosts procs buckets)) other.zipIdx)
    {others : List (List Nat)} (perm : others.Perm (ordered buckets rows)) :
    staying accountHosts procs others ≤ staying accountHosts procs (ordered buckets rows) := by
  obtain ⟨reordered, again, rfl⟩ := exists_ordered _ perm rows rfl
  have again_perm := again.trans rows_perm
  have profits_length : (profitMatrix accountHosts procs buckets).length = n :=
    (profitMatrix_length _ _ _).trans length
  have profits_square := square ▸ profitMatrix_square accountHosts procs buckets
  have cheapest := cheapest reordered again_perm
  rw [totalOf_perm chosen] at cheapest
  have theirs := totalOf_costs again_perm profits_length profits_square
  have ours := totalOf_costs rows_perm profits_length profits_square
  rw [totalOf_profits again_perm length square] at theirs
  rw [totalOf_profits rows_perm length square] at ours
  change staying accountHosts procs (ordered buckets reordered) ≤ _
  omega

/-- What is computed of the buckets: a choice of a row for each process, the cheapest if it is to be. -/
theorem bucketIndexes_ok {compute : List (List Nat) → Except Raised (List (Nat × Nat))} (hungarian : Hungarian compute)
    (some_proc : procs ≠ []) (length : buckets.length = procs.length) (shouldOptimize : Bool) :
    ∃ indexes rows, bucketIndexes compute accountHosts procs buckets shouldOptimize = .ok indexes ∧
      rows.Perm (List.range procs.length) ∧ indexes.Perm rows.zipIdx ∧
      (shouldOptimize = true → ∀ others : List (List Nat), others.Perm (ordered buckets rows) →
        staying accountHosts procs others ≤ staying accountHosts procs (ordered buckets rows)) := by
  cases shouldOptimize with
  | false => exact ⟨_, List.range procs.length, rfl, .refl _, .refl _, by simp⟩
  | true =>
    have costs_length := costMatrix_length
      ((profitMatrix_length accountHosts procs buckets).trans length)
    have some_row := List.ne_nil_of_length_pos (costs_length ▸ List.length_pos_iff.mpr some_proc)
    obtain ⟨indexes, ran, ⟨rows, rows_perm, chosen⟩, cheapest⟩ := hungarian.cheapest _ some_row
      (costs_length ▸ costMatrix_square (profitMatrix_square accountHosts procs buckets))
    rw [costs_length] at rows_perm cheapest
    exact ⟨indexes, rows, ran, rows_perm, chosen, fun _ others perm =>
      staying_most length rfl rows_perm chosen cheapest perm⟩

/-- The buckets are only given another order, in which no more accounts could stay. Without accounts the share
of them that stay cannot be computed. -/
theorem doMinimizeMigrations_ok {compute : List (List Nat) → Except Raised (List (Nat × Nat))}
    (hungarian : Hungarian compute) {hosts : List Host} (some_proc : syncProcs hosts ≠ [])
    (length : buckets.length = (syncProcs hosts).length) (shouldOptimize : Bool) :
    ∃ targets, doMinimizeMigrations compute accountHosts hosts buckets shouldOptimize =
        (if buckets.flatten = [] then .error .zeroDivisionError else .ok (targets.map some)) ∧
      targets.Perm buckets ∧ (shouldOptimize = true → ∀ others : List (List Nat),
          others.Perm targets → staying accountHosts (syncProcs hosts) others ≤
            staying accountHosts (syncProcs hosts) targets) := by
  obtain ⟨indexes, rows, ran, rows_perm, chosen, most⟩ :=
    @bucketIndexes_ok _ accountHosts _ _ hungarian some_proc length shouldOptimize
  refine ⟨ordered buckets rows, ?_, ordered_perm rows_perm length, most⟩
  unfold doMinimizeMigrations
  rw [ran]
  dsimp only [bind, Except.bind]
  rw [assignBuckets_ordered rows_perm chosen length, totalAccounts_eq rows_perm chosen length]
  simp only [List.length_eq_zero_iff]
  rfl

/-- Without processes there is not even a first row. -/
theorem doMinimizeMigrations_none {compute : List (List Nat) → Except Raised (List (Nat × Nat))}
    (hungarian : Hungarian compute) {hosts : List Host} (no_proc : syncProcs hosts = []) (shouldOptimize : Bool) :
    doMinimizeMigrations compute accountHosts hosts [] shouldOptimize =
      .error (if shouldOptimize then .indexError else .zeroDivisionError) := by
  unfold doMinimizeMigrations
  rw [no_proc]
  cases shouldOptimize with
  | false => rfl
  | true =>
    have nothing : bucketIndexes compute accountHosts [] [] true = compute [] := rfl
    rw [nothing, hungarian.empty]
    rfl

end Assignment

/-! ## Everything together -/
section Zone
variable {startTime : Int} {delay : Nat → Int}

/-- The accounts with the processes that they are to move to, in the order of the migrations. -/
def assigned (procs : List String) (targets : List (List Nat)) : List (Nat × String) :=
  (procs.zip targets).flatMap fun process => process.2.map fun accountId => (accountId, process.1)

def saveAll (startTime : Int) (delay : Nat → Int) (moves : List (Nat × String)) (redis : Redis) : Redis :=
  moves.foldl (fun redis move => redis.create (startTime + delay move.1) move.1 move.2) redis

theorem assigned_accounts {procs : List String} {targets : List (List Nat)}
    (length : targets.length = procs.length) : (assigned procs targets).map Prod.fst = targets.flatten := by
  rw [assigned, List.map_flatMap]
  simp only [List.map_map, Function.comp_def, List.map_id']
  rw [List.flatMap_def, List.map_snd_zip (by omega)]

theorem migrateAccounts_ok {procs : List String} {targets : List (List Nat)} {redis : Redis}
    (length : targets.length = procs.length) :
    migrateAccounts startTime delay procs (targets.map some) redis =
      .ok (saveAll startTime delay (assigned procs targets) redis) := by
  induction procs generalizing targets redis with
  | nil => rfl
  | cons procId procs ih =>
    obtain ⟨bucket, targets, rfl⟩ := List.exists_cons_of_length_eq_add_one length
    rw [List.map_cons, migrateAccounts, ih (Nat.succ.inj length)]
    simp [saveAll, assigned, migrateBucket, List.foldl_map]

theorem numProcs_sum (hosts : List Host) : (hosts.map Host.numProcs).sum = (syncProcs hosts).length := by
  simp [syncProcs, List.length_flatMap]

/-- What the accounts and the processes of a zone get. -/
structure Balanced (procs : List String) (accountLoads : List (Nat × Load)) (targets : List (List Nat)) :
    Prop where
  processes : targets.length = procs.length
  accounts : ((assigned procs targets).map Prod.fst).Perm (accountLoads.map Prod.fst)
  fair : Exact fl accountLoads → Fair accountLoads targets

/-- Why a zone without processes or without accounts is not rebalanced. -/
def refusal (procs : List String) (accountLoads : List (Nat × Load)) (minimizeMigrations : Bool) : Option Raised :=
  if procs = [] then
    if accountLoads ≠ [] then some .valueError
    else some (if minimizeMigrations then .indexError else .zeroDivisionError)
  else if accountLoads = [] then some .zeroDivisionError else none

/-- One migration is saved for each account. Where the totals are exact, no process gets more than four thirds of
the load that the fullest one has in any other division, and with these buckets no more accounts could stay where
they are. It works whenever there are a process and an account. -/
theorem zone_balanced [IsStrictOrderedRing Load] (fl : Load → Load)
    (compute : List (List Nat) → Except Raised (List (Nat × Nat))) (hungarian : Hungarian compute)
    (accountHosts : Nat → Option String) (syncHosts : Nat → Option (Option String))
    (normalHosts debugHosts : List Host) (accountLoads : List (Nat × Load)) (minimizeMigrations dryRun : Bool)
    (startTime : Int) (delay : Nat → Int) (redis : Redis) (distinct : (accountLoads.map Prod.fst).Nodup) :
    (∀ raised, refusal (syncProcs normalHosts) accountLoads minimizeMigrations = some raised →
      balanceZone fl compute accountHosts syncHosts normalHosts debugHosts accountLoads minimizeMigrations
        dryRun startTime delay redis = .error raised) ∧
    (syncProcs normalHosts ≠ [] → accountLoads ≠ [] →
      ∃ targets, Balanced fl (syncProcs normalHosts) accountLoads targets ∧
        (minimizeMigrations = true → ∀ others : List (List Nat), others.Perm targets →
          staying accountHosts (syncProcs normalHosts) others ≤
            staying accountHosts (syncProcs normalHosts) targets) ∧
        balanceZone fl compute accountHosts syncHosts normalHosts debugHosts accountLoads minimizeMigrations
          dryRun startTime delay redis = .ok (if dryRun then redis
            else saveAll startTime delay (assigned (syncProcs normalHosts) targets) redis)) := by
  unfold balanceZone
  dsimp only
  rw [balanced_all, numProcs_sum]
  by_cases no_proc : syncProcs normalHosts = []
  · refine ⟨fun raised refused => ?_, fun some_proc => absurd no_proc some_proc⟩
    rw [no_proc, List.length_nil, partition_none]
    by_cases no_account : accountLoads = []
    · rw [if_pos no_account]
      dsimp only [bind, Except.bind]
      rw [doMinimizeMigrations_none hungarian no_proc]
      simp only [refusal, no_proc, no_account, ne_eq, not_true, if_true, if_false] at refused
      cases refused
      rfl
    · rw [if_neg no_account]
      simp only [refusal, no_proc, no_account, ne_eq, not_false_iff, if_true] at refused
      cases refused
      rfl
  obtain ⟨buckets, divided, length, perm, fair⟩ :=
    @partition_ok _ _ _ fl _ accountLoads _ distinct (List.length_pos_iff.mpr no_proc)
  obtain ⟨targets, done, reordered, most⟩ :=
    @doMinimizeMigrations_ok _ accountHosts _ hungarian _ no_proc length minimizeMigrations
  have nobody : buckets.flatten = [] ↔ accountLoads = [] := by
    rw [← List.length_eq_zero_iff, perm.length_eq, List.length_map, List.length_eq_zero_iff]
  rw [divided]
  dsimp only [bind, Except.bind]
  rw [done]
  refine ⟨fun raised refused => ?_, fun _ some_account => ⟨targets, ⟨?_, ?_, ?_⟩, most, ?_⟩⟩
  · by_cases no_account : accountLoads = []
    · simp only [refusal, no_proc, no_account, if_true, if_false] at refused
      cases refused
      rw [if_pos (nobody.mpr no_account)]
    · simp [refusal, no_proc, no_account] at refused
  · exact reordered.length_eq.trans length
  · rw [assigned_accounts (reordered.length_eq.trans length)]
    exact reordered.flatten.trans perm
  · intro exact others others_length held bound within bucket member
    rw [reordered.length_eq] at others_length ⊢
    exact fair exact others others_length held bound within bucket (reordered.mem_iff.mp member)
  · rw [if_neg (mt nobody.mp some_account)]
    cases dryRun with
    | true => rfl
    | false => exact migrateAccounts_ok (reordered.length_eq.trans length)

end Zone

namespace Sample

/-- The cheapest of all choices. -/
def cheapest (costs : List (List Nat)) : Except Raised (List (Nat × Nat)) :=
  if costs = [] then .error .indexError
  else .ok ((((List.range costs.length).permutations.map fun rows => rows.zipIdx).argmin (totalOf costs)).getD [])

theorem cheapest_hungarian : Hungarian cheapest where
  empty := rfl
  cheapest := by
    intro costs some_row _
    obtain ⟨least, found⟩ := Option.ne_none_iff_exists'.mp (mt List.argmin_eq_none.mp (mt List.map_eq_nil_iff.mp
      (List.ne_nil_of_mem (List.mem_permutations.mpr (.refl (List.range costs.length))))) :
        ((List.range costs.length).permutations.map fun rows => rows.zipIdx).argmin (totalOf costs) ≠ none)
    refine ⟨least, by rw [cheapest, if_neg some_row, found, Option.getD_some], ?_, fun rows perm => ?_⟩
    · obtain ⟨rows, perm, rfl⟩ := List.mem_map.mp (List.argmin_mem found)
      exact ⟨rows, List.mem_permutations.mp perm, .refl _⟩
    · exact List.le_of_mem_argmin (List.mem_map.mpr ⟨rows, List.mem_permutations.mpr perm, rfl⟩) found

def loads : List (Nat × Rat) := [(1, 3), (2, 5), (3, 4)]

def hosts : List Host := [⟨"localhost", 2⟩]

/-- One account is where it may stay. -/
def accountHosts (accountId : Nat) : Option String := if accountId = 2 then some "precise64:1" else none

end Sample

theorem zone_rebalanced : ∃ targets, Balanced id (syncProcs Sample.hosts) Sample.loads targets ∧
    Fair Sample.loads targets ∧
    (∀ others : List (List Nat), others.Perm targets →
      staying Sample.accountHosts (syncProcs Sample.hosts) others ≤
        staying Sample.accountHosts (syncProcs Sample.hosts) targets) ∧
      balanceZone id Sample.cheapest Sample.accountHosts (fun id => some (Sample.accountHosts id)) Sample.hosts []
        Sample.loads true false 0 (fun _ => 10) ⟨0, [], fun _ => none, []⟩ =
          .ok (saveAll 0 (fun _ => 10) (assigned (syncProcs Sample.hosts) targets) ⟨0, [], fun _ => none, []⟩) := by
  obtain ⟨targets, even, most, ran⟩ := (zone_balanced id Sample.cheapest Sample.cheapest_hungarian
    Sample.accountHosts (fun id => some (Sample.accountHosts id)) Sample.hosts [] Sample.loads true false 0
    (fun _ => 10) ⟨0, [], fun _ => none, []⟩ (by decide)).2 (by decide) (by simp [Sample.loads])
  exact ⟨targets, even, even.fair ⟨by simp [Sample.loads], fun _ _ => rfl⟩, most rfl, ran⟩

end BalanceFleet
end SyncEngine
