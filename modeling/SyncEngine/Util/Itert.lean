import Mathlib.Data.List.Forall2
import Mathlib.Data.List.TakeDrop

/-! `inbox.util.itert.chunk`: a list in pieces of one size, the last of them possibly shorter. And a
list that grows at its end, and pairs in two lists that go together. -/
namespace SyncEngine

/-- At most `fuel` pieces. -/
def chunkFuel (size : Nat) : Nat → List α → List (List α)
  | 0, _ => []
  | _ + 1, [] => []
  | fuel + 1, items => items.take size :: chunkFuel size fuel (items.drop size)

def chunk (items : List α) (size : Nat) : List (List α) := chunkFuel size items.length items

theorem chunkFuel_eq (positive : 0 < size) {items : List α} (enough : items.length ≤ fuel) :
    chunkFuel size fuel items = chunk items size := by
  have both : ∀ (more : Nat) {items : List α}, items.length ≤ more →
      ∀ other, items.length ≤ other → chunkFuel size more items = chunkFuel size other items := by
    intro more
    induction more with
    | zero =>
      intro items short other _
      obtain rfl := List.eq_nil_of_length_eq_zero (Nat.le_zero.mp short)
      cases other <;> rfl
    | succ more ih =>
      intro items short other long
      cases items with
      | nil => cases other <;> rfl
      | cons item rest =>
        cases other with
        | zero => simp at long
        | succ other =>
          simp only [chunkFuel, List.cons.injEq, true_and]
          apply ih <;> simp only [List.length_drop, List.length_cons] at * <;> omega
  exact both fuel enough _ (Nat.le_refl _)

@[simp] theorem chunk_nil (size : Nat) : chunk ([] : List α) size = [] := rfl

/-- One turn of the loop in `chunk`. -/
theorem chunk_eq_cons (positive : 0 < size) {items : List α} (some : items ≠ []) :
    chunk items size = items.take size :: chunk (items.drop size) size := by
  cases items with
  | nil => contradiction
  | cons item rest =>
    have later : chunkFuel size rest.length (List.drop size (item :: rest)) =
        chunk (List.drop size (item :: rest)) size := by
      apply chunkFuel_eq positive
      simp only [List.length_drop, List.length_cons]
      omega
    rw [← later]
    rfl

theorem chunk_flatten (positive : 0 < size) (items : List α) : (chunk items size).flatten = items := by
  induction hlen : items.length using Nat.strongRecOn generalizing items with
  | ind length ih =>
    by_cases none : items = []
    · subst none
      rfl
    · rw [chunk_eq_cons positive none, List.flatten_cons, ih (items.drop size).length _ _ rfl,
        List.take_append_drop]
      have := List.length_pos_iff.mpr none
      simp only [List.length_drop]
      omega

theorem chunk_concat {items : List α} (full : items.length = size) (positive : 0 < size) (last : α) :
    chunk (items ++ [last]) size = [items, [last]] := by
  have one : chunk [last] size = [[last]] := by
    have short : [last].length ≤ size := Nat.succ_le_of_lt positive
    rw [chunk_eq_cons positive (by simp), List.take_of_length_le short, List.drop_eq_nil_of_le short,
      chunk_nil]
  rw [chunk_eq_cons positive (by simp), List.take_left' full, List.drop_left' full, one]

theorem getElem?_concat {items : List α} {item last : α} {i : Nat} :
    (items ++ [last])[i]? = some item ↔ items[i]? = some item ∨ i = items.length ∧ last = item := by
  rw [List.getElem?_append]
  split
  next inside => simp [Nat.ne_of_lt inside]
  next outside =>
    rw [List.getElem?_eq_none (Nat.not_lt.mp outside), List.getElem?_singleton]
    split
    next first => simp [show i = items.length by omega]
    next other => simp [show i ≠ items.length by omega]

theorem forall_iff_of_forall₂ {R : α → β → Prop} {P : α → Prop} {Q : β → Prop} {as : List α} {bs : List β}
    (related : List.Forall₂ R as bs) (same : ∀ a ∈ as, ∀ b, R a b → (P a ↔ Q b)) :
    (∀ a ∈ as, P a) ↔ ∀ b ∈ bs, Q b := by
  induction related with
  | nil => simp
  | cons first _ ih =>
    simp only [List.forall_mem_cons]
    rw [same _ (by simp) _ first, ih fun a member => same a (by simp [member])]

/-- A relation between the elements of a list and one between their partners. -/
theorem pairwise_iff_of_forall₂ {R : α → β → Prop} {D P : α → α → Prop} {Q : β → β → Prop} {as : List α}
    {bs : List β} (related : List.Forall₂ R as bs) (apart : as.Pairwise D)
    (same : ∀ a a' b b', R a b → R a' b' → D a a' → (P a a' ↔ Q b b')) :
    as.Pairwise P ↔ bs.Pairwise Q := by
  induction related with
  | nil => simp
  | cons first later ih =>
    obtain ⟨head, tail⟩ := List.pairwise_cons.mp apart
    rw [List.pairwise_cons, List.pairwise_cons, ih tail]
    rw [forall_iff_of_forall₂ later fun a member b related => same _ a _ b first related (head a member)]

end SyncEngine
