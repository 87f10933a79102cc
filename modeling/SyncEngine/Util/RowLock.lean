import Mathlib.Logic.Function.Basic

/-! Transactions that read one row without a lock, write it under a lock that they keep to their
end, and are isolated only in that nobody reads what is not committed. -/
namespace SyncEngine
namespace RowLock

/-- The row that a transaction accepts when it reads it, and what its statements make of the stored
row once it writes, or `none` when they fail. -/
structure Work (R : Type) where
  reads : R → Bool
  writes : (seen stored : R) → Option R

inductive Session (R : Type)
  | begun
  | checked (seen : R)
  | flushed (seen written : R)
  | committed (seen : R)
  | closed

/-- `log` has the transactions that have committed, in their order. -/
structure Db (I R : Type) where
  row : R
  holder : Option I
  session : I → Session R
  log : List I

inductive Event (I : Type)
  | check (i : I)
  | flush (i : I)
  | commit (i : I)
  | abort (i : I)

namespace Db
variable {I R : Type} [DecidableEq I] (work : I → Work R)

def start (row : R) : Db I R := { row, holder := none, session := fun _ => .begun, log := [] }

def put (db : Db I R) (i : I) (session : Session R) : Db I R :=
  { db with session := Function.update db.session i session }

/-- `none` when the event cannot happen: above all, a write waits for the lock. -/
def step (db : Db I R) : Event I → Option (Db I R)
  | .check i =>
    match db.session i with
    | .begun => some (db.put i (if (work i).reads db.row then .checked db.row else .closed))
    | _ => none
  | .flush i =>
    match db.session i, db.holder with
    | .checked seen, none =>
      match (work i).writes seen db.row with
      | some written => some { db.put i (.flushed seen written) with holder := some i }
      | none => some (db.put i .closed)
    | _, _ => none
  | .commit i =>
    match db.session i with
    | .flushed seen written =>
      some { db.put i (.committed seen) with row := written, holder := none, log := db.log ++ [i] }
    | _ => none
  | .abort i =>
    match db.session i with
    | .committed _ | .closed => none
    | _ => some { db.put i .closed with holder := if db.holder = some i then none else db.holder }

def run (db : Db I R) : List (Event I) → Option (Db I R)
  | [] => some db
  | event :: events => (db.step work event).bind fun next => next.run events

/-- A transaction that writes finds the row as it has read it. -/
def Fresh (db : Db I R) : Event I → Prop
  | .flush i => ∀ seen, db.session i = .checked seen → db.row = seen
  | _ => True

def AllFresh (db : Db I R) : List (Event I) → Prop
  | [] => True
  | event :: events => db.Fresh event ∧ ∀ next, db.step work event = some next → next.AllFresh events

end Db

variable {I R : Type} (work : I → Work R)

/-- The transactions one after another, each on the row that the one before it has left. -/
inductive Replay (first : R) : List I → R → Prop
  | nil : Replay first [] first
  | snoc : Replay first log row → (work i).reads row = true → (work i).writes row row = some next →
      Replay first (log ++ [i]) next

/-- What a session that has read the row still owes to the row as it is now. -/
def Sound (row : R) (holder : Option I) (log : List I) (i : I) : Session R → Prop
  | .begun | .closed => i ∉ log
  | .checked seen => (work i).reads seen = true ∧ i ∉ log
  | .flushed seen written => (work i).reads seen = true ∧ i ∉ log ∧ holder = some i ∧ seen = row ∧
      (work i).writes seen seen = some written
  | .committed seen => (work i).reads seen = true ∧ i ∈ log

structure Serial (first : R) (db : Db I R) : Prop where
  replay : Replay work first db.log db.row
  sound : ∀ i, Sound work db.row db.holder db.log i (db.session i)

variable [DecidableEq I] {work} {first : R} {db next : Db I R}

@[simp] theorem session_put_same (db : Db I R) (i : I) (session : Session R) :
    (db.put i session).session i = session := by
  simp [Db.put]

theorem session_put_other {i j : I} (other : j ≠ i) :
    (db.put i session).session j = db.session j := by
  simp [Db.put, other]

omit [DecidableEq I] in
theorem serial_start : Serial work first (Db.start first) where
  replay := .nil
  sound := fun _ => List.not_mem_nil

/-- A step that leaves the row, the log and the others' locks as they are. -/
theorem Serial.put (serial : Serial work first db) (session : Session R) (holder : Option I)
    (sound : Sound work db.row holder db.log i session)
    (held : ∀ j, j ≠ i → db.holder = some j → holder = some j) :
    Serial work first { db.put i session with holder } where
  replay := serial.replay
  sound := by
    intro j
    by_cases same : j = i
    · subst same
      change Sound work _ _ _ j ((db.put j session).session j)
      rw [session_put_same]
      exact sound
    · have before := serial.sound j
      change Sound work _ _ _ j ((db.put i session).session j)
      rw [session_put_other same]
      cases phase : db.session j with
      | flushed seen written =>
        rw [phase] at before
        obtain ⟨reads, absent, holds, current, writes⟩ := before
        exact ⟨reads, absent, held j same holds, current, writes⟩
      | begun | closed | checked | committed =>
        rw [phase] at before
        exact before

theorem step_check (stepped : db.step work (.check i) = some next) : db.session i = .begun ∧
    next = db.put i (if (work i).reads db.row then .checked db.row else .closed) := by
  simp only [Db.step] at stepped
  cases phase : db.session i with
  | begun => exact ⟨rfl, by simpa [phase] using stepped.symm⟩
  | checked | flushed | committed | closed => simp [phase] at stepped

theorem step_flush (stepped : db.step work (.flush i) = some next) :
    ∃ seen, db.session i = .checked seen ∧ db.holder = none ∧
      ((∃ written, (work i).writes seen db.row = some written ∧
          next = { db.put i (.flushed seen written) with holder := some i }) ∨
        ((work i).writes seen db.row = none ∧ next = db.put i .closed)) := by
  simp only [Db.step] at stepped
  cases phase : db.session i with
  | checked seen =>
    cases holder : db.holder with
    | some j => simp [phase, holder] at stepped
    | none =>
      simp only [phase, holder] at stepped
      refine ⟨seen, rfl, rfl, ?_⟩
      cases writes : (work i).writes seen db.row with
      | some written => exact .inl ⟨written, rfl, by simpa [writes] using stepped.symm⟩
      | none => exact .inr ⟨rfl, by simpa [writes] using stepped.symm⟩
  | begun | flushed | committed | closed => simp [phase] at stepped

theorem step_commit (stepped : db.step work (.commit i) = some next) :
    ∃ seen written, db.session i = .flushed seen written ∧
      next = { db.put i (.committed seen) with
        row := written, holder := none, log := db.log ++ [i] } := by
  simp only [Db.step] at stepped
  cases phase : db.session i with
  | flushed seen written => exact ⟨seen, written, rfl, by simpa [phase] using stepped.symm⟩
  | begun | checked | committed | closed => simp [phase] at stepped

theorem step_abort (stepped : db.step work (.abort i) = some next) :
    (∀ seen, db.session i ≠ .committed seen) ∧ db.session i ≠ .closed ∧
      next = { db.put i .closed with holder := if db.holder = some i then none else db.holder } := by
  simp only [Db.step] at stepped
  cases phase : db.session i with
  | begun | checked | flushed => simpa [phase, eq_comm] using stepped
  | committed | closed => simp [phase] at stepped

/-- Only one transaction holds the lock, so that nobody else's row changes under it. -/
theorem Serial.commit (serial : Serial work first db) (phase : db.session i = .flushed seen written) :
    Serial work first { db.put i (.committed seen) with
      row := written, holder := none, log := db.log ++ [i] } := by
  have own := serial.sound i
  rw [phase] at own
  obtain ⟨reads, absent, holds, current, writes⟩ := own
  subst current
  constructor
  · exact .snoc serial.replay reads writes
  · intro j
    by_cases same : j = i
    · subst same
      change Sound work _ _ _ j ((db.put j _).session j)
      rw [session_put_same]
      exact ⟨reads, List.mem_append_right _ (List.mem_singleton.mpr rfl)⟩
    · have before := serial.sound j
      change Sound work _ _ _ j ((db.put i _).session j)
      rw [session_put_other same]
      have outside : j ∉ db.log → j ∉ db.log ++ [i] := by simp [same]
      cases other : db.session j with
      | flushed seen written =>
        rw [other] at before
        exact absurd (Option.some.inj (before.2.2.1.symm.trans holds)) same
      | committed seen =>
        rw [other] at before
        exact ⟨before.1, List.mem_append_left _ before.2⟩
      | checked seen =>
        rw [other] at before
        exact ⟨before.1, outside before.2⟩
      | begun | closed =>
        rw [other] at before
        exact outside before

theorem Serial.step (serial : Serial work first db) (fresh : db.Fresh event)
    (stepped : db.step work event = some next) : Serial work first next := by
  cases event with
  | check i =>
    obtain ⟨phase, rfl⟩ := step_check stepped
    have absent := serial.sound i
    rw [phase] at absent
    apply serial.put _ db.holder _ fun _ _ held => held
    split
    · exact ⟨‹_›, absent⟩
    · exact absent
  | flush i =>
    obtain ⟨seen, phase, free, outcome⟩ := step_flush stepped
    have own := serial.sound i
    rw [phase] at own
    have current := fresh seen phase
    subst current
    rcases outcome with ⟨written, writes, rfl⟩ | ⟨_, rfl⟩
    · exact serial.put _ (some i) ⟨own.1, own.2, rfl, rfl, writes⟩ fun j _ held => by
        rw [free] at held
        cases held
    · exact serial.put _ db.holder own.2 fun _ _ held => held
  | commit i =>
    obtain ⟨seen, written, phase, rfl⟩ := step_commit stepped
    exact serial.commit phase
  | abort i =>
    obtain ⟨open_, _, rfl⟩ := step_abort stepped
    have absent : i ∉ db.log := by
      have own := serial.sound i
      cases phase : db.session i with
      | committed seen => exact absurd phase (open_ seen)
      | flushed seen written =>
        rw [phase] at own
        exact own.2.1
      | checked seen =>
        rw [phase] at own
        exact own.2
      | begun | closed =>
        rw [phase] at own
        exact own
    refine serial.put .closed _ absent ?_
    intro j other held
    rw [if_neg]
    · exact held
    · rintro same
      exact other (Option.some.inj (held.symm.trans same))

/-- When every write finds the row as its transaction has read it, the transactions that commit are
the same as one after another. -/
theorem Serial.run (serial : Serial work first db) (fresh : db.AllFresh work events)
    (ran : db.run work events = some final) : Serial work first final := by
  induction events generalizing db with
  | nil =>
    cases ran
    exact serial
  | cons event events ih =>
    obtain ⟨next, stepped, later⟩ := Option.bind_eq_some_iff.mp ran
    exact ih (serial.step fresh.1 stepped) (fresh.2 next stepped) later

end RowLock
end SyncEngine
