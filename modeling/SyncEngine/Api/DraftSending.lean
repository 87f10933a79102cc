import SyncEngine.Sendmail.Drafts
import SyncEngine.Util.RowLock

/-! Requests that send one draft side by side: the check, the flush, the delivery and the commit. -/
namespace SyncEngine
namespace DraftSending
open Sendmail

/-- Whether the address library makes an address of a string. -/
abbrev Parses := String → Bool

def validateDraftRecipients (parses : Parses) (draft : Draft) : Except ApiError Unit :=
  if draft.toAddr.isEmpty && draft.bccAddr.isEmpty && draft.ccAddr.isEmpty then
    .error (.input "No recipients specified")
  else
    match (draft.toAddr ++ draft.bccAddr ++ draft.ccAddr).find? fun (_, email) => !parses email with
    | some (_, email) => .error (.input s!"Invalid recipient address {email}")
    | none => .ok ()

structure Request where
  publicId : String
  version : Version
  now : Nat

namespace Request

def check (parses : Parses) (request : Request) (stored : Option Draft) : Except ApiError Unit := do
  let draft ← getDraft request.publicId request.version stored
  validateDraftRecipients parses draft

def work (parses : Parses) (request : Request) : RowLock.Work (Option Draft) where
  reads := fun stored => (request.check parses stored).isOk
  writes := fun seen stored => seen.bind fun draft =>
    stored.map fun row => some (draft.flush (updateDraftOnSend request.now draft) row)

end Request

/-- `delivered` and `failed` have the requests whose delivery the server has taken and refused. -/
structure State (I : Type) where
  db : RowLock.Db I (Option Draft)
  delivered : List I
  failed : List I

inductive Event (I : Type)
  | check (i : I)
  | flush (i : I)
  | deliver (i : I) (success : Bool)
  | commit (i : I)
  | abort (i : I)

section Steps
variable {I : Type} [DecidableEq I] (parses : Parses) (requests : I → Request)

def works (i : I) : RowLock.Work (Option Draft) := (requests i).work parses

namespace State

def start (draft : Draft) : State I := { db := .start (some draft), delivered := [], failed := [] }

def withDb (w : State I) (db : RowLock.Db I (Option Draft)) : State I := { w with db }

/-- The delivery comes after the flush. When it fails, the response is an error and nothing is
committed. A request may also fail once the server has taken the message: the answer may be lost, and
`schedule_action` and the commit are still to come. -/
def step (w : State I) : Event I → Option (State I)
  | .check i => (w.db.step (works parses requests) (.check i)).map w.withDb
  | .flush i => (w.db.step (works parses requests) (.flush i)).map w.withDb
  | .deliver i success =>
    match w.db.session i with
    | .flushed _ _ =>
      if i ∈ w.delivered then none
      else if success then some { w with delivered := w.delivered ++ [i] }
      else (w.db.step (works parses requests) (.abort i)).map fun db =>
        { w with db, failed := w.failed ++ [i] }
    | _ => none
  | .commit i =>
    if i ∈ w.delivered then (w.db.step (works parses requests) (.commit i)).map w.withDb else none
  | .abort i => (w.db.step (works parses requests) (.abort i)).map w.withDb

def run (w : State I) : List (Event I) → Option (State I)
  | [] => some w
  | event :: events => (w.step parses requests event).bind fun next => next.run events

/-- A request that marks the draft as sent finds the row as it has checked it, and none fails once it
has delivered. -/
def Fresh (w : State I) : Event I → Prop
  | .flush i => w.db.Fresh (.flush i)
  | .abort i => i ∉ w.delivered
  | _ => True

def AllFresh (w : State I) : List (Event I) → Prop
  | [] => True
  | event :: events => w.Fresh event ∧
      ∀ next, w.step parses requests event = some next → next.AllFresh events

end State

structure SentOnce (w : State I) : Prop where
  once : w.delivered.length ≤ 1
  kept : ∀ i seen written next, w.db.session i = .flushed seen written →
    w.step parses requests (.deliver i false) = some next → next.db.row = seen
  rolledBack : ∀ i ∈ w.failed, i ∉ w.db.log

end Steps

section Runs
variable {I : Type} {parses : Parses} {requests : I → Request} {first : Draft}
  {w next : State I}

theorem reads_unsent {stored : Option Draft}
    (reads : ((requests i).work parses).reads stored = true) :
    ∃ draft, stored = some draft ∧ draft.isSent = false := by
  simp only [Request.work, Request.check] at reads
  cases outcome : getDraft (requests i).publicId (requests i).version stored with
  | error => simp [outcome, Except.isOk, Except.toBool, bind, Except.bind] at reads
  | ok draft =>
    obtain ⟨present, _, unsent, _⟩ := getDraft_ok.mp outcome
    exact ⟨draft, present, unsent⟩

/-- One request can succeed on the row that the other has left only while it is unsent. -/
theorem log_of_replay (replay : RowLock.Replay (works parses requests) (some first) log row) :
    log = [] ∨ log.length = 1 ∧ ∃ draft, row = some draft ∧ draft.isSent = true := by
  induction replay with
  | nil => exact .inl rfl
  | @snoc log row i next _ reads writes ih =>
    obtain ⟨draft, rfl, unsent⟩ := reads_unsent reads
    rcases ih with rfl | ⟨_, sent, present, isSent⟩
    · refine .inr ⟨rfl, updateDraftOnSend (requests i).now draft, ?_, rfl⟩
      simpa [works, Request.work, Draft.flush_self, eq_comm] using writes
    · cases present
      rw [unsent] at isSent
      cases isSent

/-- Who has delivered still holds the lock, or has committed. -/
structure Settled (parses : Parses) (requests : I → Request) (first : Draft) (w : State I) : Prop where
  serial : RowLock.Serial (works parses requests) (some first) w.db
  delivered : ∀ i ∈ w.delivered, (∃ seen written, w.db.session i = .flushed seen written) ∨ i ∈ w.db.log
  nodup : w.delivered.Nodup
  failed : ∀ i ∈ w.failed, w.db.session i = .closed

theorem settled_start : Settled parses requests first (.start first : State I) where
  serial := RowLock.serial_start
  delivered := nofun
  nodup := .nil
  failed := nofun

/-- A step that only moves on the session of a request that has neither delivered nor failed. -/
theorem Settled.move (settled : Settled parses requests first w)
    (serial : RowLock.Serial (works parses requests) (some first) db)
    (others : ∀ j, j ≠ i → db.session j = w.db.session j) (log : db.log = w.db.log)
    (absent : i ∉ w.delivered) (unfailed : i ∉ w.failed) :
    Settled parses requests first (w.withDb db) where
  serial := serial
  delivered := by
    intro j member
    have other : j ≠ i := fun same => absent (same ▸ member)
    simp only [State.withDb, others j other, log]
    exact settled.delivered j member
  nodup := settled.nodup
  failed := by
    intro j member
    have other : j ≠ i := fun same => unfailed (same ▸ member)
    exact (others j other).trans (settled.failed j member)

theorem Settled.undelivered (settled : Settled parses requests first w) (out : i ∉ w.db.log)
    (unflushed : ∀ seen written, w.db.session i ≠ .flushed seen written) : i ∉ w.delivered := by
  intro member
  rcases settled.delivered i member with ⟨seen, written, phase⟩ | inside
  · exact unflushed seen written phase
  · exact out inside

theorem Settled.idle (settled : Settled parses requests first w)
    (phase : w.db.session i = .begun ∨ ∃ seen, w.db.session i = .checked seen) :
    i ∉ w.delivered ∧ i ∉ w.failed ∧ i ∉ w.db.log := by
  have sound := settled.serial.sound i
  have out : i ∉ w.db.log := by
    rcases phase with phase | ⟨seen, phase⟩
    · rw [phase] at sound
      exact sound
    · rw [phase] at sound
      exact sound.2
  refine ⟨settled.undelivered out ?_, ?_, out⟩
  · rintro seen written flushed
    rcases phase with phase | ⟨seen, phase⟩ <;> simp [phase] at flushed
  · intro failed
    have closed := settled.failed i failed
    rcases phase with phase | ⟨seen, phase⟩ <;> simp [phase] at closed

theorem Settled.deliver (settled : Settled parses requests first w)
    (phase : w.db.session i = .flushed seen written) (absent : i ∉ w.delivered) :
    Settled parses requests first { w with delivered := w.delivered ++ [i] } where
  serial := settled.serial
  delivered := by
    intro j member
    rcases List.mem_append.mp member with before | last
    · exact settled.delivered j before
    · rw [List.mem_singleton.mp last]
      exact .inl ⟨seen, written, phase⟩
  nodup := settled.nodup.append (List.nodup_singleton i) (List.disjoint_singleton.mpr absent)
  failed := settled.failed

theorem Settled.refuse (settled : Settled parses requests first w) (closed : w.db.session i = .closed) :
    Settled parses requests first { w with failed := w.failed ++ [i] } where
  serial := settled.serial
  delivered := settled.delivered
  nodup := settled.nodup
  failed := by
    intro j member
    rcases List.mem_append.mp member with before | last
    · exact settled.failed j before
    · rw [List.mem_singleton.mp last]
      exact closed

/-- The lock excludes another holder, and a commit excludes another reader. -/
theorem Settled.same (settled : Settled parses requests first w) (inside : i ∈ w.delivered)
    (member : j ∈ w.delivered) : i = j := by
  have unsent : ∀ k seen written, w.db.session k = .flushed seen written →
      w.db.holder = some k ∧ w.db.log = [] := by
    intro k seen written phase
    have sound := settled.serial.sound k
    rw [phase] at sound
    obtain ⟨reads, _, holds, current, _⟩ := sound
    refine ⟨holds, (log_of_replay settled.serial.replay).resolve_right ?_⟩
    rintro ⟨_, draft, present, sent⟩
    obtain ⟨_, same, unsent⟩ := reads_unsent reads
    rw [current, present] at same
    cases same
    rw [sent] at unsent
    cases unsent
  rcases settled.delivered i inside with ⟨_, _, flushed⟩ | committed
  · obtain ⟨holds, empty⟩ := unsent i _ _ flushed
    rcases settled.delivered j member with ⟨_, _, second⟩ | late
    · exact Option.some.inj (holds.symm.trans (unsent j _ _ second).1)
    · rw [empty] at late
      cases late
  · rcases settled.delivered j member with ⟨_, _, second⟩ | late
    · rw [(unsent j _ _ second).2] at committed
      cases committed
    · rcases log_of_replay settled.serial.replay with empty | ⟨single, _⟩
      · rw [empty] at committed
        cases committed
      · obtain ⟨k, only⟩ := List.length_eq_one_iff.mp single
        rw [only, List.mem_singleton] at committed late
        exact committed.trans late.symm

theorem Settled.once (settled : Settled parses requests first w) : w.delivered.length ≤ 1 := by
  cases all : w.delivered with
  | nil => simp
  | cons i rest =>
    cases rest with
    | nil => simp
    | cons j rest =>
      have same : i = j := settled.same (by simp [all]) (by simp [all])
      have nodup := settled.nodup
      simp [all, same] at nodup

variable [DecidableEq I]

theorem Settled.check (settled : Settled parses requests first w)
    (stepped : w.db.step (works parses requests) (.check i) = some db) :
    Settled parses requests first (w.withDb db) := by
  have serial := settled.serial.step (show w.db.Fresh (.check i) from trivial) stepped
  obtain ⟨phase, rfl⟩ := RowLock.step_check stepped
  obtain ⟨absent, unfailed, _⟩ := settled.idle (.inl phase)
  exact settled.move serial (fun _ => RowLock.session_put_other) rfl absent unfailed

theorem Settled.flush (settled : Settled parses requests first w) (fresh : w.db.Fresh (.flush i))
    (stepped : w.db.step (works parses requests) (.flush i) = some db) :
    Settled parses requests first (w.withDb db) := by
  have serial := settled.serial.step fresh stepped
  obtain ⟨seen, phase, _, outcome⟩ := RowLock.step_flush stepped
  obtain ⟨absent, unfailed, _⟩ := settled.idle (.inr ⟨seen, phase⟩)
  rcases outcome with ⟨written, _, rfl⟩ | ⟨_, rfl⟩
  · exact settled.move serial (fun _ => RowLock.session_put_other) rfl absent unfailed
  · exact settled.move serial (fun _ => RowLock.session_put_other) rfl absent unfailed

theorem Settled.abort (settled : Settled parses requests first w) (absent : i ∉ w.delivered)
    (stepped : w.db.step (works parses requests) (.abort i) = some db) :
    db.session i = .closed ∧ db.row = w.db.row ∧ Settled parses requests first (w.withDb db) := by
  have serial := settled.serial.step (show w.db.Fresh (.abort i) from trivial) stepped
  obtain ⟨_, unclosed, rfl⟩ := RowLock.step_abort stepped
  refine ⟨RowLock.session_put_same _ _ _, rfl, ?_⟩
  exact settled.move serial (fun _ => RowLock.session_put_other) rfl absent
    fun failed => unclosed (settled.failed i failed)

theorem Settled.commit (settled : Settled parses requests first w)
    (stepped : w.db.step (works parses requests) (.commit i) = some db) :
    Settled parses requests first (w.withDb db) := by
  have serial := settled.serial.step (show w.db.Fresh (.commit i) from trivial) stepped
  obtain ⟨seen, written, phase, rfl⟩ := RowLock.step_commit stepped
  refine ⟨serial, ?_, settled.nodup, ?_⟩
  · intro j member
    by_cases same : j = i
    · subst same
      exact .inr (List.mem_append_right _ (List.mem_singleton.mpr rfl))
    · rcases settled.delivered j member with ⟨seen, written, flushed⟩ | inside
      · exact .inl ⟨seen, written, (RowLock.session_put_other same).trans flushed⟩
      · exact .inr (List.mem_append_left _ inside)
  · intro j member
    have closed := settled.failed j member
    have other : j ≠ i := by
      rintro rfl
      rw [phase] at closed
      cases closed
    exact (RowLock.session_put_other other).trans closed

/-- What a delivery that fails comes to: the transaction is rolled back. -/
theorem step_refused (phase : w.db.session i = .flushed seen written)
    (stepped : w.step parses requests (.deliver i false) = some next) :
    i ∉ w.delivered ∧ ∃ db, w.db.step (works parses requests) (.abort i) = some db ∧
      next = { w with db, failed := w.failed ++ [i] } := by
  simp only [State.step, phase] at stepped
  split at stepped
  · cases stepped
  · obtain ⟨db, aborted, rfl⟩ := Option.map_eq_some_iff.mp stepped
    exact ⟨‹_›, db, aborted, rfl⟩

theorem Settled.step (settled : Settled parses requests first w) (fresh : w.Fresh event)
    (stepped : w.step parses requests event = some next) : Settled parses requests first next := by
  cases event with
  | check i =>
    obtain ⟨db, checked, rfl⟩ := Option.map_eq_some_iff.mp stepped
    exact settled.check checked
  | flush i =>
    obtain ⟨db, flushed, rfl⟩ := Option.map_eq_some_iff.mp stepped
    exact settled.flush fresh flushed
  | deliver i success =>
    cases phase : w.db.session i with
    | flushed seen written =>
      cases success with
      | true =>
        simp only [State.step, phase] at stepped
        split at stepped
        · cases stepped
        · cases stepped
          exact settled.deliver phase ‹_›
      | false =>
        obtain ⟨absent, db, aborted, rfl⟩ := step_refused phase stepped
        obtain ⟨closed, _, kept⟩ := settled.abort absent aborted
        exact kept.refuse closed
    | begun | checked | committed | closed => simp [State.step, phase] at stepped
  | commit i =>
    simp only [State.step] at stepped
    split at stepped
    · obtain ⟨db, committed, rfl⟩ := Option.map_eq_some_iff.mp stepped
      exact settled.commit committed
    · cases stepped
  | abort i =>
    obtain ⟨db, aborted, rfl⟩ := Option.map_eq_some_iff.mp stepped
    exact (settled.abort fresh aborted).2.2

theorem Settled.run (settled : Settled parses requests first w) (fresh : w.AllFresh parses requests events)
    (ran : w.run parses requests events = some final) : Settled parses requests first final := by
  induction events generalizing w with
  | nil =>
    cases ran
    exact settled
  | cons event events ih =>
    obtain ⟨next, stepped, later⟩ := Option.bind_eq_some_iff.mp ran
    exact ih (settled.step fresh.1 stepped) (fresh.2 next stepped) later

/-- A draft is delivered once in every run in which each request that flushes still finds the row
as it has checked it and none fails after its delivery. -/
theorem sent_once_while_fresh (fresh : (State.start first : State I).AllFresh parses requests events)
    (ran : (State.start first).run parses requests events = some w) : SentOnce parses requests w := by
  have settled := settled_start.run fresh ran
  refine ⟨settled.once, ?_, ?_⟩
  · intro i seen written next phase stepped
    obtain ⟨absent, db, aborted, rfl⟩ := step_refused phase stepped
    have sound := settled.serial.sound i
    rw [phase] at sound
    exact (settled.abort absent aborted).2.1.trans sound.2.2.2.1.symm
  · intro i failed inside
    have sound := settled.serial.sound i
    rw [settled.failed i failed] at sound
    exact sound inside

end Runs

namespace Sample

def draft : Draft := createMessageFromJson id ("", "me@x.org") "d" 0 true { toAddr := some [("", "you@x.org")] }

def parses (email : String) : Bool := email == "you@x.org"

/-- Two requests that send version 0. -/
def twice (_ : Bool) : Request := { publicId := "d", version := .number 0, now := 1 }

def overlapping : List (Event Bool) :=
  [.check false, .check true, .flush false, .deliver false true, .commit false, .flush true,
    .deliver true true, .commit true]

def retried : List (Event Bool) :=
  [.check false, .flush false, .deliver false false, .check true, .flush true, .deliver true true,
    .commit true]

end Sample

theorem delivered_at_second_try : ∃ w,
    (State.start Sample.draft).run Sample.parses Sample.twice Sample.retried = some w ∧
      SentOnce Sample.parses Sample.twice w := by
  obtain ⟨w, ran⟩ : ∃ w, (State.start Sample.draft).run Sample.parses Sample.twice Sample.retried =
      some w := ⟨_, rfl⟩
  refine ⟨w, ran, sent_once_while_fresh ?_ ran⟩
  refine ⟨trivial, ?_⟩
  rintro _ ⟨⟩
  constructor
  · rintro _ ⟨⟩
    rfl
  · rintro _ ⟨⟩
    refine ⟨trivial, ?_⟩
    rintro _ ⟨⟩
    refine ⟨trivial, ?_⟩
    rintro _ ⟨⟩
    constructor
    · rintro _ ⟨⟩
      rfl
    · rintro _ ⟨⟩
      refine ⟨trivial, ?_⟩
      rintro _ ⟨⟩
      exact ⟨trivial, fun _ _ => trivial⟩

/-- Both requests pass the check before either commits. The second one waits for the first one's
lock, marks the draft as sent once more and delivers it again. -/
theorem delivered_twice : ¬ ∀ (requests : Bool → Request) (events : List (Event Bool)) w,
    (State.start Sample.draft).run Sample.parses requests events = some w →
      SentOnce Sample.parses requests w := by
  intro holds
  have once := (holds Sample.twice Sample.overlapping _ rfl).once
  exact absurd once (by decide)

end DraftSending
end SyncEngine
