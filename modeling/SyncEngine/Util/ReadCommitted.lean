import Mathlib.Logic.Basic

/-! Transactions that are not isolated from each other: what one reads, and what it commits, is its
own writes over whatever the others have committed by then. -/
namespace SyncEngine
namespace ReadCommitted
variable {D W : Type} (apply : W → D → D)

/-- The data as a transaction with these writes sees it. -/
def view (writes : List W) (committed : D) : D := writes.foldl (fun data write => apply write data) committed

/-- `none` when one of the writes is refused, and the transaction with it. -/
def commit (refuses : W → D → Bool) : List W → D → Option D
  | [], data => some data
  | write :: rest, data => if refuses write data then none else commit refuses rest (apply write data)

/-- Each write has the property `p` in the data that it is applied to. -/
def Along (p : W → D → Prop) : List W → D → Prop
  | [], _ => True
  | write :: rest, data => p write data ∧ Along p rest (apply write data)

variable {apply} {p q : W → D → Prop}

theorem commit_eq_view (committed : commit apply refuses writes data = some later) :
    later = view apply writes data := by
  induction writes generalizing data with
  | nil => exact (Option.some.inj committed).symm
  | cons write rest ih =>
    unfold commit at committed
    split at committed
    · cases committed
    · exact ih committed

/-- What is committed has not been refused. -/
theorem along_of_commit (committed : commit apply refuses writes data = some later) :
    Along apply (fun write data => refuses write data = false) writes data := by
  induction writes generalizing data with
  | nil => trivial
  | cons write rest ih =>
    unfold commit at committed
    split at committed
    · cases committed
    · rename_i accepted
      exact ⟨by simpa using accepted, ih committed⟩

theorem along_append : Along apply p (writes ++ [write]) data ↔
    Along apply p writes data ∧ p write (view apply writes data) := by
  induction writes generalizing data with
  | nil => simp [Along, view]
  | cons first rest ih =>
    simp only [List.cons_append, Along, ih, and_assoc]
    rfl

theorem Along.and (first : Along apply p writes data) (second : Along apply q writes data) :
    Along apply (fun write data => p write data ∧ q write data) writes data := by
  induction writes generalizing data with
  | nil => trivial
  | cons write rest ih => exact ⟨⟨first.1, second.1⟩, ih first.2 second.2⟩

/-- A relation between what was committed and what is now that keeps `p`, and that every write of
the transaction carries on. -/
theorem Along.transfer {r : D → D → Prop} (along : Along apply p writes data) (related : r data later)
    (keeps : ∀ write ∈ writes, ∀ data later, r data later → p write data → p write later)
    (carries : ∀ write ∈ writes, ∀ data later, r data later → p write later →
      r (apply write data) (apply write later)) : Along apply p writes later := by
  induction writes generalizing data later with
  | nil => trivial
  | cons write rest ih =>
    have kept := keeps write List.mem_cons_self data later related along.1
    refine ⟨kept, ?_⟩
    apply ih along.2 (carries write List.mem_cons_self data later related kept)
    · exact fun other member => keeps other (List.mem_cons_of_mem _ member)
    · exact fun other member => carries other (List.mem_cons_of_mem _ member)

/-- An invariant of the data that every write with the property `p` keeps. -/
theorem Along.invariant (inv : D → Prop) (along : Along apply p writes data) (start : inv data)
    (step : ∀ write ∈ writes, ∀ data, inv data → p write data → inv (apply write data)) :
    inv (view apply writes data) := by
  induction writes generalizing data with
  | nil => exact start
  | cons write rest ih =>
    apply ih along.2 (step write List.mem_cons_self data start along.1)
    exact fun other member => step other (List.mem_cons_of_mem _ member)

end ReadCommitted
end SyncEngine
