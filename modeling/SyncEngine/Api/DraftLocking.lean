import Mathlib.Data.List.Pairwise
import SyncEngine.Sendmail.Drafts
import SyncEngine.Util.RowLock

/-! The version of a draft as a lock: requests that update or delete it side by side. -/
namespace SyncEngine
namespace DraftLocking
open Sendmail

inductive Request
  | update (publicId : String) (version : Version) (changes : Changes) (now : Nat)
  | delete (publicId : String) (version : Version)

namespace Request

def publicId : Request → String
  | .update publicId .. | .delete publicId _ => publicId

def version : Request → Version
  | .update _ version .. | .delete _ version => version

variable (snippet : String → String)

/-- What the session holds when it writes, and the statements it sends. An UPDATE must match a row
and keep its columns in range, a DELETE only warns about a row that is gone. -/
def writes (request : Request) (seen stored : Option Draft) : Option (Option Draft) :=
  match request, seen with
  | _, none => none
  | .update _ _ changes now, some draft =>
    let updated := updateDraft snippet now changes draft
    if MAX_MYSQL_INTEGER < updated.version then none
    else stored.map fun row => some (draft.flush updated row)
  | .delete .., some _ => some none

/-- A request reads the draft in `getDraft`, writes it and commits. The rest of its validation can
only end it, as an error can at any time. -/
def work (request : Request) : RowLock.Work (Option Draft) where
  reads := fun stored => (getDraft request.publicId request.version stored).isOk
  writes := request.writes snippet

end Request

section Property
variable (snippet : String → String) {I : Type} (requests : I → Request) (first : Draft)

def works (i : I) : RowLock.Work (Option Draft) := (requests i).work snippet

/-- What the version is for. The requests of `log` have succeeded, in the order of their commits. -/
structure Locked (db : RowLock.Db I (Option Draft)) : Prop where
  once : ∀ i ∈ db.log, ∀ j ∈ db.log, (requests i).version = (requests j).version → i = j
  /-- A request that succeeds after another carries a version that the other had already raised. -/
  seen : db.log.Pairwise fun i j => ∃ before after, (requests i).version = .number before ∧
    (requests j).version = .number after ∧ before < after
  replayed : RowLock.Replay (works snippet requests) (some first) db.log db.row
  version : ∀ draft, db.row = some draft → draft.version = first.version + db.log.length

end Property

section Versions
variable {snippet : String → String} {I : Type} {requests : I → Request} {first : Draft}

/-- Requests that have succeeded one after another have carried one version after another. -/
structure Ascending (requests : I → Request) (first : Draft) (log : List I) (row : Option Draft) :
    Prop where
  version : ∀ draft, row = some draft → draft.version = first.version + log.length
  carried : ∀ i ∈ log, ∃ version, (requests i).version = .number version ∧
    version < first.version + log.length
  ordered : log.Pairwise fun i j => ∃ before after, (requests i).version = .number before ∧
    (requests j).version = .number after ∧ before < after

theorem reads_version {stored : Option Draft}
    (reads : ((requests i).work snippet).reads stored = true) :
    ∃ draft, stored = some draft ∧ (requests i).version = .number draft.version := by
  simp only [Request.work] at reads
  cases outcome : getDraft (requests i).publicId (requests i).version stored with
  | error => simp [outcome, Except.isOk, Except.toBool] at reads
  | ok draft =>
    obtain ⟨present, _, _, _, version⟩ := getDraft_ok.mp outcome
    exact ⟨draft, present, version⟩

theorem writes_version {request : Request}
    (writes : request.writes snippet (some draft) (some draft) = some (some written)) :
    written.version = draft.version + 1 := by
  cases request with
  | update publicId version changes now =>
    simp only [Request.writes] at writes
    split at writes
    · cases writes
    · simp only [Option.map_some, Option.some.injEq, Draft.flush_self] at writes
      subst writes
      exact updateDraft_version snippet now changes draft
  | delete publicId version => simp [Request.writes] at writes

theorem ascending_of_replay
    (replay : RowLock.Replay (works snippet requests) (some first) log row) :
    Ascending requests first log row := by
  induction replay with
  | nil =>
    constructor
    · rintro draft same
      cases same
      simp
    · nofun
    · exact .nil
  | @snoc log row i next _ reads writes ih =>
    obtain ⟨draft, rfl, carried⟩ := reads_version reads
    have current := ih.version draft rfl
    have longer : ((log ++ [i]).length : Int) = log.length + 1 := by simp
    constructor
    · rintro written rfl
      rw [writes_version writes, current, longer]
      omega
    · intro j member
      rcases List.mem_append.mp member with before | last
      · obtain ⟨version, same, below⟩ := ih.carried j before
        exact ⟨version, same, by omega⟩
      · rw [List.mem_singleton.mp last]
        exact ⟨draft.version, carried, by omega⟩
    · refine List.pairwise_append.mpr ⟨ih.ordered, List.pairwise_singleton _ _, ?_⟩
      intro j member k last
      rw [List.mem_singleton.mp last]
      obtain ⟨version, same, below⟩ := ih.carried j member
      exact ⟨version, draft.version, same, carried, by omega⟩

/-- Whichever of two requests succeeds first, the other carries another version. -/
theorem Ascending.once (ascending : Ascending requests first log row) (i : I) (inside : i ∈ log)
    (j : I) (member : j ∈ log) (same : (requests i).version = (requests j).version) : i = j := by
  by_contra other
  have differs : ∀ i j, (∃ before after, (requests i).version = .number before ∧
      (requests j).version = .number after ∧ before < after) →
      (requests i).version ≠ (requests j).version := by
    rintro i j ⟨before, after, here, there, below⟩ same
    rw [here, there] at same
    cases same
    exact Int.lt_irrefl _ below
  have : Std.Symm fun i j => (requests i).version ≠ (requests j).version :=
    ⟨fun _ _ apart => apart.symm⟩
  exact (ascending.ordered.imp (differs _ _)).forall inside member other same

end Versions

section Runs
variable {snippet : String → String} {I : Type} [DecidableEq I] {requests : I → Request}

/-- The lock holds in every run in which each request that writes still finds the row as it has
checked it. -/
theorem locked_while_fresh {first : Draft}
    (fresh : (RowLock.Db.start (some first)).AllFresh (works snippet requests) events)
    (ran : (RowLock.Db.start (some first)).run (works snippet requests) events = some db) :
    Locked snippet requests first db := by
  have serial := RowLock.serial_start.run fresh ran
  have ascending := ascending_of_replay serial.replay
  exact ⟨ascending.once, ascending.ordered, serial.replay, ascending.version⟩

end Runs

namespace Sample

def draft : Draft := createMessageFromJson id ("", "me@x.org") "d" 0 true {}

/-- Two clients that have seen version 0 and name another subject each. -/
def rivals (second : Bool) : Request :=
  .update "d" (.number 0) { subject := some (if second then "B" else "A") } 1

def overlapping : List (RowLock.Event Bool) :=
  [.check false, .check true, .flush false, .commit false, .flush true, .commit true]

def oneByOne : List (RowLock.Event Bool) :=
  [.check false, .flush false, .commit false, .check true]

end Sample

theorem rival_is_refused : ∃ db,
    (RowLock.Db.start (some Sample.draft)).run (works id Sample.rivals) Sample.oneByOne = some db ∧
      Locked id Sample.rivals Sample.draft db := by
  obtain ⟨db, ran⟩ : ∃ db, (RowLock.Db.start (some Sample.draft)).run (works id Sample.rivals)
      Sample.oneByOne = some db := ⟨_, rfl⟩
  refine ⟨db, ran, locked_while_fresh ?_ ran⟩
  refine ⟨trivial, ?_⟩
  rintro _ ⟨⟩
  constructor
  · rintro _ ⟨⟩
    rfl
  · rintro _ ⟨⟩
    exact ⟨trivial, fun _ _ => ⟨trivial, fun _ _ => trivial⟩⟩

/-- Both requests pass the check before either writes. Both succeed, and the second one sets the
version that the first one has already set. -/
theorem rivals_both_succeed : ¬ ∀ (requests : Bool → Request) (events : List (RowLock.Event Bool)) db,
    (RowLock.Db.start (some Sample.draft)).run (works id requests) events = some db →
      Locked id requests Sample.draft db := by
  intro holds
  have locked := holds Sample.rivals Sample.overlapping _ rfl
  have same := locked.once false (by decide) true (by decide) rfl
  cases same

end DraftLocking
end SyncEngine
