import Mathlib.Data.List.Pairwise
import SyncEngine.Models.Database

/-! When sync may overwrite the categories of a message that was changed here: only once the latest
syncback action on it is old enough. -/
namespace SyncEngine
namespace LocalChanges

/-! ## Times -/

/-- In microseconds. -/
def second : Int := 1000000
def day : Int := 86400 * second

/-- A `timedelta` as Python keeps it: only the days may be negative. -/
structure TimeDelta where
  days : Int
  seconds : Int
  microseconds : Int
  secondsInDay : 0 ≤ seconds ∧ seconds < 86400
  microsecondsInSecond : 0 ≤ microseconds ∧ microseconds < 1000000

namespace TimeDelta

def total (delta : TimeDelta) : Int := delta.days * day + delta.seconds * second + delta.microseconds

/-- The difference of two `datetime`s, each in microseconds. -/
def between (later earlier : Int) : TimeDelta where
  days := (later - earlier) / day
  seconds := (later - earlier) / second % 86400
  microseconds := (later - earlier) % second
  secondsInDay := ⟨Int.emod_nonneg _ (by decide), Int.emod_lt_of_pos _ (by decide)⟩
  microsecondsInSecond := ⟨Int.emod_nonneg _ (by decide), Int.emod_lt_of_pos _ (by decide)⟩

theorem between_total (later earlier : Int) : (between later earlier).total = later - earlier := by
  simp only [total, between, day, second]
  omega

end TimeDelta

/-! ## The decision -/

structure ActionLog where
  id : Nat
  namespaceId : Nat
  tableName : String
  recordId : Nat
  action : String
  status : ActionStatus
  updatedAt : Int
deriving DecidableEq, Repr

/-- The table, whose primary key is `id`. -/
structure Log where
  entries : List ActionLog
  ids : entries.Pairwise (fun a b => a.id ≠ b.id)

structure Message where
  id : Nat
  namespaceId : Nat
  categories : List Nat
  categoriesChanges : Bool
deriving DecidableEq, Repr

def Concerns (message : Message) (entry : ActionLog) : Prop :=
  entry.namespaceId = message.namespaceId ∧ entry.tableName = "message" ∧
    entry.recordId = message.id ∧ entry.action ∈ ["change_labels", "move"]

instance (message : Message) : DecidablePred (Concerns message) := fun _ =>
  inferInstanceAs (Decidable (_ ∧ _))

/-- `func.max(ActionLog.id)`, and the entry that has it. -/
def latest? (log : Log) (message : Message) : Option ActionLog :=
  (((log.entries.filter (Concerns message)).map ActionLog.id).max?).bind fun id =>
    log.entries.find? (·.id = id)

def overwrite (message : Message) (synced : List Nat) : Message :=
  { message with categories := synced, categoriesChanges := false }

def updateCategories (log : Log) (now : Int) (message : Message) (synced : List Nat) : Message :=
  match latest? log message with
  | none => overwrite message synced
  | some entry =>
    if entry.status = .pending ∨ (TimeDelta.between now entry.updatedAt).seconds ≤ 90 then message
    else overwrite message synced

/-! ## What it should decide -/

structure Latest (log : Log) (message : Message) (entry : ActionLog) : Prop where
  member : entry ∈ log.entries
  concerns : Concerns message entry
  largest : ∀ other ∈ log.entries, Concerns message other → other.id ≤ entry.id

/-- No action is under way or has been updated in the last 90 seconds. -/
def Settled (log : Log) (now : Int) (message : Message) : Prop :=
  ∀ entry, Latest log message entry → entry.status ≠ .pending ∧ entry.updatedAt + 90 * second < now

/-- The message takes the synced categories once the log is settled, and keeps its own before. -/
def Respects (log : Log) (now : Int) (message : Message) (synced : List Nat) : Prop :=
  (Settled log now message → updateCategories log now message synced = overwrite message synced) ∧
    (¬ Settled log now message → updateCategories log now message synced = message)

/-- What is left of the elapsed time without the whole days is on the same side of 90 seconds. -/
def Legible (elapsed : Int) : Prop :=
  if elapsed < 0 then elapsed % day < 91 * second
  else if elapsed < day then elapsed ≤ 90 * second ∨ 91 * second ≤ elapsed
  else 91 * second ≤ elapsed % day

instance : DecidablePred Legible := fun elapsed => inferInstanceAs (Decidable (if elapsed < 0 then _ else _))

theorem legible_iff (later earlier : Int) : Legible (later - earlier) ↔
    ((TimeDelta.between later earlier).seconds ≤ 90 ↔ ¬ earlier + 90 * second < later) := by
  have seconds : (TimeDelta.between later earlier).seconds = (later - earlier) / 1000000 % 86400 := rfl
  have lengths : second = 1000000 ∧ day = 86400000000 := ⟨rfl, rfl⟩
  rw [Legible, seconds, lengths.1, lengths.2]
  by_cases negative : later - earlier < 0
  · rw [if_pos negative]
    omega
  · rw [if_neg negative]
    by_cases today : later - earlier < 86400000000
    · rw [if_pos today]
      omega
    · rw [if_neg today]
      omega

theorem unique {log : Log} {a b : ActionLog} (first : a ∈ log.entries) (second : b ∈ log.entries)
    (same : a.id = b.id) : a = b := by
  have symmetric : Std.Symm fun a b : ActionLog => a.id ≠ b.id := ⟨fun _ _ distinct => distinct.symm⟩
  by_contra different
  exact log.ids.forall first second different same

theorem latest_iff (log : Log) (message : Message) (entry : ActionLog) :
    latest? log message = some entry ↔ Latest log message entry := by
  have listed : ∀ {other : ActionLog}, other.id ∈ (log.entries.filter (Concerns message)).map ActionLog.id ↔
      ∃ same ∈ log.entries, Concerns message same ∧ same.id = other.id := by
    simp [and_assoc]
  constructor
  · intro found
    obtain ⟨id, largest, found⟩ := Option.bind_eq_some_iff.mp found
    have member := List.mem_of_find?_eq_some found
    have same : entry.id = id := by simpa using List.find?_some found
    obtain ⟨highest, upper⟩ := List.max?_eq_some_iff.mp largest
    subst same
    obtain ⟨other, otherMember, concerns, sameId⟩ := listed.mp highest
    obtain rfl := unique otherMember member sameId
    refine ⟨member, concerns, fun other otherMember concerns => ?_⟩
    exact upper _ (listed.mpr ⟨other, otherMember, concerns, rfl⟩)
  · intro latest
    have largest : ((log.entries.filter (Concerns message)).map ActionLog.id).max? = some entry.id := by
      refine List.max?_eq_some_iff.mpr ⟨listed.mpr ⟨entry, latest.member, latest.concerns, rfl⟩, ?_⟩
      intro id member
      obtain ⟨other, filtered, rfl⟩ := List.mem_map.mp member
      obtain ⟨otherMember, concerns⟩ := List.mem_filter.mp filtered
      exact latest.largest other otherMember (of_decide_eq_true concerns)
    refine Option.bind_eq_some_iff.mpr ⟨_, largest, ?_⟩
    cases found : log.entries.find? (·.id = entry.id) with
    | none => simpa using List.find?_eq_none.mp found entry latest.member
    | some other =>
      have same : other.id = entry.id := by simpa using List.find?_some found
      rw [unique (List.mem_of_find?_eq_some found) latest.member same]

/-- Of a message with local changes, sync respects them exactly when the time elapsed since the latest action,
unless it is pending, can be told from its seconds within a day. -/
theorem local_changes_respected_iff (log : Log) (now : Int) (message : Message) (synced : List Nat)
    (changed : message.categoriesChanges = true) : Respects log now message synced ↔
      ∀ entry, Latest log message entry → entry.status ≠ .pending → Legible (now - entry.updatedAt) := by
  have distinct : overwrite message synced ≠ message := by
    intro same
    rw [← same] at changed
    cases changed
  cases found : latest? log message with
  | none =>
    have nothing : ∀ entry, ¬ Latest log message entry := fun entry latest => by
      rw [(latest_iff ..).mpr latest] at found
      cases found
    have settled : Settled log now message := fun entry latest => absurd latest (nothing entry)
    simp [Respects, settled, updateCategories, found, nothing]
  | some entry =>
    have only : ∀ other, Latest log message other ↔ other = entry := fun other => by
      rw [← latest_iff, found, Option.some.injEq, eq_comm]
    simp only [Respects, Settled, only, forall_eq, updateCategories, found, legible_iff]
    by_cases pending : entry.status = .pending
    · simp [pending]
    · by_cases recent : (TimeDelta.between now entry.updatedAt).seconds ≤ 90
      · simp [pending, recent, distinct.symm]
      · simp [pending, recent, distinct]

/-- Between times in whole seconds the comparison is the one that the other handlers are modelled with. -/
theorem between_whole (later earlier : Int) :
    (TimeDelta.between (later * second) (earlier * second)).seconds = (later - earlier) % 86400 := by
  have whole : (TimeDelta.between (later * second) (earlier * second)).seconds =
      (later * 1000000 - earlier * 1000000) / 1000000 % 86400 := rfl
  rw [whole]
  omega

/-! ## A move that is more than a day old -/
namespace Trial

def moved : Message := { id := 1, namespaceId := 1, categories := [7], categoriesChanges := true }

/-- A move that was done at the time 0. -/
def log : Log where
  entries := [{ id := 3, namespaceId := 1, tableName := "message", recordId := 1, action := "move"
                status := .successful, updatedAt := 0 }]
  ids := List.pairwise_singleton _ _

theorem settled_later (old : 90 * second < now) : Settled log now moved := by
  rintro entry ⟨member, _, _⟩
  obtain rfl := List.mem_singleton.mp member
  exact ⟨by decide, by simpa using old⟩

end Trial

/-- A day and ten seconds after the move, the synced categories are still kept away. -/
theorem day_old_move_kept : ¬ ∀ (log : Log) (now : Int) (message : Message) (synced : List Nat),
    message.categoriesChanges = true → Respects log now message synced := by
  intro claim
  have respects := claim Trial.log (day + 10 * second) Trial.moved [5] rfl
  have overwritten := respects.1 (Trial.settled_later (by decide))
  exact absurd overwritten (by decide)

/-- Two minutes after the move. -/
theorem respects_two_minutes : Respects Trial.log (120 * second) Trial.moved [5] :=
  (local_changes_respected_iff Trial.log (120 * second) Trial.moved [5] rfl).mpr fun entry latest _ => by
    obtain rfl := List.mem_singleton.mp latest.member
    decide

end LocalChanges
end SyncEngine
