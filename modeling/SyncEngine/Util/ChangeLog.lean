import Mathlib.Data.List.Infix
import Mathlib.Order.Lattice

/-! A log of changes to items that have keys, and a reader that copies items from listings of it: each
listing holds what has changed since some time, and may go on while the log grows. Nothing here fixes
the items, their keys or the times. -/
namespace ChangeLog
variable {Item Key Time : Type}

structure Change (Item Time : Type) where
  time : Time
  item : Item

variable (key : Item → Key) {log later : List (Change Item Time)} {n m p : Nat}
  {item : Item} {items done : List Item}

/-- The item of the change at `p` is the last one for its key among the first `n` changes. -/
def Latest (log : List (Change Item Time)) (n p : Nat) (item : Item) : Prop :=
  p < n ∧ (∃ change, log[p]? = some change ∧ change.item = item) ∧
    ∀ q, p < q → q < n → ∀ change, log[q]? = some change → key change.item ≠ key item

/-- Each item was the last one for its key at some point since there were `n` changes. -/
def Recent (log : List (Change Item Time)) (n : Nat) (items : List Item) : Prop :=
  ∀ item ∈ items, ∃ m p, n ≤ m ∧ m ≤ log.length ∧ Latest key log m p item

/-- Of the first `n` changes, those that are not before `since` have their keys among the items. -/
def Complete [LE Time] (log : List (Change Item Time)) (n : Nat) (since : Option Time)
    (items : List Item) : Prop :=
  ∀ p < n, ∀ change, log[p]? = some change → (∀ time ∈ since, time ≤ change.time) →
    ∃ listed ∈ items, key listed = key change.item

/-- From `p` on, the items for the key of the change there can be read. -/
def ReadableFrom (readable : Item → Bool) (log : List (Change Item Time)) (p : Nat) : Prop :=
  ∀ change, log[p]? = some change → ∀ q, p ≤ q → ∀ later, log[q]? = some later →
    key later.item = key change.item → readable later.item = true

variable {key} {readable : Item → Bool}

theorem getElem?_grown (grown : log <+: later) {change : Change Item Time} (at_p : log[p]? = some change) :
    later[p]? = some change := by
  obtain ⟨rest, rfl⟩ := grown
  rw [List.getElem?_append_left (List.getElem?_eq_some_iff.mp at_p).1, at_p]

theorem getElem?_before (grown : log <+: later) (inside : p < log.length) : later[p]? = log[p]? := by
  obtain ⟨rest, rfl⟩ := grown
  exact List.getElem?_append_left inside

theorem Latest.grown (latest : Latest key log n p item) (grown : log <+: later) (inside : n ≤ log.length) :
    Latest key later n p item := by
  obtain ⟨before, ⟨change, at_p, same⟩, last⟩ := latest
  refine ⟨before, ⟨change, getElem?_grown grown at_p, same⟩, fun q after within change at_q => ?_⟩
  rw [getElem?_before grown (Nat.lt_of_lt_of_le within inside)] at at_q
  exact last q after within change at_q

/-- A change with the key of an item that was the last one later is not after it. -/
theorem Latest.not_before (latest : Latest key log n p item) {change : Change Item Time} {q : Nat}
    (at_q : log[q]? = some change) (inside : q < n) (same : key change.item = key item) : q ≤ p := by
  by_contra after
  exact latest.2.2 q (Nat.not_le.mp after) inside change at_q same

theorem Recent.grown (recent : Recent key log n items) (grown : log <+: later) :
    Recent key later n items := by
  intro item member
  obtain ⟨m, p, since, inside, latest⟩ := recent item member
  exact ⟨m, p, since, Nat.le_trans inside grown.length_le, latest.grown grown inside⟩

theorem Recent.subset (recent : Recent key log n items) {some_ : List Item} (among : some_ ⊆ items) :
    Recent key log n some_ :=
  fun item member => recent item (among member)

/-- A recent item is that of a change at or after every change before the listing that has its key. -/
theorem Recent.after (recent : Recent key log n items) (member : item ∈ items)
    {change : Change Item Time} (at_p : log[p]? = some change) (before : p < n)
    (same : key item = key change.item) : ∃ q later, p ≤ q ∧ log[q]? = some later ∧ later.item = item := by
  obtain ⟨m, q, since, -, latest⟩ := recent item member
  obtain ⟨later, at_q, copied⟩ := latest.2.1
  exact ⟨q, later, latest.not_before at_p (Nat.lt_of_lt_of_le before since) same.symm, at_q, copied⟩

theorem ReadableFrom.before (readableFrom : ReadableFrom key readable later p) (grown : log <+: later) :
    ReadableFrom key readable log p :=
  fun change at_p q after other at_q =>
    readableFrom change (getElem?_grown grown at_p) q after other (getElem?_grown grown at_q)

/-! ## What was copied last -/

variable [DecidableEq Key]

variable (key) in
def lastFor (done : List Item) (k : Key) : Option Item := done.reverse.find? (key · = k)

variable (key) in
/-- What was copied last for the key of the change at `p` is that change's item or a later one's. -/
def UpToDate (log : List (Change Item Time)) (done : List Item) (p : Nat) : Prop :=
  ∀ change, log[p]? = some change → ∃ q later, p ≤ q ∧ log[q]? = some later ∧
    lastFor key done (key change.item) = some later.item

theorem UpToDate.grown (upToDate : UpToDate key log done p) (grown : log <+: later)
    (inside : p < log.length) : UpToDate key later done p := by
  intro change at_p
  rw [getElem?_before grown inside] at at_p
  obtain ⟨q, copied, after, at_q, last⟩ := upToDate change at_p
  exact ⟨q, copied, after, getElem?_grown grown at_q, last⟩

theorem lastFor_append (done items : List Item) (k : Key) :
    lastFor key (done ++ items) k = (lastFor key items k).or (lastFor key done k) := by
  rw [lastFor, List.reverse_append, List.find?_append]
  rfl

theorem lastFor_some {k : Key} (last : lastFor key done k = some item) :
    item ∈ done ∧ key item = k :=
  ⟨List.mem_reverse.mp (List.mem_of_find?_eq_some last), by simpa using List.find?_some last⟩

theorem lastFor_isSome {k : Key} (member : item ∈ done) (same : key item = k) :
    ∃ last, lastFor key done k = some last :=
  Option.isSome_iff_exists.mp <| List.find?_isSome.mpr ⟨item, List.mem_reverse.mpr member, by simpa using same⟩

/-- No later item has the key of the last one for it. -/
theorem lastFor_split {k : Key} (last : lastFor key done k = some item) :
    ∃ before after, done = before ++ item :: after ∧ ∀ other ∈ after, key other ≠ k := by
  obtain ⟨-, after, before, split, others⟩ := List.find?_eq_some_iff_append.mp last
  refine ⟨before.reverse, after.reverse, ?_, fun other member => ?_⟩
  · rw [← List.reverse_reverse done, split]
    simp
  · simpa using others other (List.mem_reverse.mp member)

/-- Copying recent items loses nothing. -/
theorem UpToDate.read (upToDate : UpToDate key log done p) (recent : Recent key log n items)
    (before : p < n) : UpToDate key log (done ++ items) p := by
  intro change at_p
  rw [lastFor_append]
  cases last : lastFor key items (key change.item) with
  | none => exact upToDate change at_p
  | some item =>
    obtain ⟨member, same⟩ := lastFor_some last
    obtain ⟨q, later, after, at_q, copied⟩ := recent.after member at_p before same
    exact ⟨q, later, after, at_q, congrArg some copied.symm⟩

/-- Once all of a complete listing that can be read is copied, its changes are. -/
theorem upToDate_listed [LE Time] {since : Option Time} (recent : Recent key log n items)
    (complete : Complete key log n since items) (before : p < n)
    (within : ∀ change, log[p]? = some change → ∀ time ∈ since, time ≤ change.time)
    (readableFrom : ReadableFrom key readable log p) :
    UpToDate key log (done ++ items.filter readable) p := by
  intro change at_p
  obtain ⟨listed, member, same⟩ := complete p before change at_p (within change at_p)
  obtain ⟨q, later, after, at_q, copied⟩ := recent.after member at_p before same
  have read : listed ∈ items.filter readable := by
    refine List.mem_filter.mpr ⟨member, ?_⟩
    rw [← copied]
    exact readableFrom change at_p q after later at_q (by rw [copied, same])
  obtain ⟨item, last⟩ := lastFor_isSome read same
  obtain ⟨among, its_key⟩ := lastFor_some last
  obtain ⟨q, later, after, at_q, copied⟩ :=
    recent.after (List.mem_of_mem_filter among) at_p before its_key
  refine ⟨q, later, after, at_q, ?_⟩
  rw [lastFor_append, last, copied]
  rfl

/-! ## Marks -/

section Marks
variable [LinearOrder Time]

/-- A time at which a listing has been read already and from which the next one does not start. -/
def Missed (gaps : List (Time × Time)) (time : Time) : Prop := ∃ gap ∈ gaps, gap.1 ≤ time ∧ time < gap.2

/-- Every change was made at the time of the one before it or later, and by `now`. -/
structure Ordered (log : List (Change Item Time)) (now : Time) : Prop where
  times : log.Pairwise fun earlier later => earlier.time ≤ later.time
  past : ∀ change ∈ log, change.time ≤ now

variable {now : Time}

theorem Ordered.until (ordered : Ordered log now) {then_ : Time} (goes : now ≤ then_) :
    Ordered log then_ :=
  ⟨ordered.times, fun change member => (ordered.past change member).trans goes⟩

theorem Ordered.changed (ordered : Ordered log now) (item : Item) : Ordered (log ++ [⟨now, item⟩]) now := by
  refine ⟨List.pairwise_append.mpr ⟨ordered.times, List.pairwise_singleton .., ?_⟩, ?_⟩
  · rintro change member _ (_ | ⟨_, ⟨⟩⟩)
    exact ordered.past change member
  · rintro change member
    rcases List.mem_append.mp member with old | new
    · exact ordered.past change old
    · rw [List.mem_singleton.mp new]

/-- The changes from `n` on were not made before `time`. -/
def From (log : List (Change Item Time)) (n : Nat) (time : Time) : Prop :=
  ∀ p, n ≤ p → ∀ change, log[p]? = some change → time ≤ change.time

theorem from_length (log : List (Change Item Time)) (time : Time) : From log log.length time := by
  intro p after change at_p
  rw [List.getElem?_eq_none after] at at_p
  cases at_p

theorem From.changed {time : Time} (since : From log n time) (past : time ≤ now) (item : Item) :
    From (log ++ [⟨now, item⟩]) n time := by
  intro p after change at_p
  by_cases inside : p < log.length
  · rw [List.getElem?_append_left inside] at at_p
    exact since p after change at_p
  · rw [List.getElem?_append_right (Nat.not_lt.mp inside)] at at_p
    obtain rfl := List.mem_singleton.mp (List.mem_of_getElem? at_p)
    exact past

/-- What a listing from a mark on leaves out was listed before, or was missed. -/
theorem mark_le {read mark : Time} (since : From log n read) {gaps : List (Time × Time)}
    (among : (read, mark) ∈ gaps) {change : Change Item Time} (at_p : log[p]? = some change) (after : n ≤ p)
    (caught : ¬Missed gaps change.time) : mark ≤ change.time := by
  by_contra earlier
  exact caught ⟨(read, mark), among, since p after change at_p, not_le.mp earlier⟩

end Marks
end ChangeLog
