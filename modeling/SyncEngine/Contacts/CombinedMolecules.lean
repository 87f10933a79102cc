import Mathlib.Algebra.Order.Field.Rat
import Mathlib.Tactic.NormNum
import SyncEngine.Contacts.GroupScores

/-! What is left when similar groups have been combined, and the dictionary that is made of it. -/
namespace SyncEngine.GroupScores
variable {A M : Type} [DecidableEq A] [DecidableEq M]

/-- The addresses and messages of a molecule are among those of another. -/
def Molecule.Within (a b : Molecule A M) : Prop := a.group ⊆ b.group ∧ a.messages ⊆ b.messages

def IsUnion (molecules : List (Molecule A M)) (r : Molecule A M) : Prop :=
  ∃ parts : Finset (Molecule A M), parts.Nonempty ∧ (∀ part ∈ parts, part ∈ molecules) ∧
    r.group = parts.biUnion Molecule.group ∧ r.messages = parts.biUnion Molecule.messages

/-- The state of the loop: some molecules are settled among each other, the rest is to be compared with them. -/
structure Grouped (molecules settled waiting : List (Molecule A M)) : Prop where
  apart : settled.Pairwise fun a b => ¬a.Similar b
  covered : ∀ m ∈ molecules, ∃ r ∈ settled ++ waiting, m.Within r
  made : ∀ r ∈ settled ++ waiting, IsUnion molecules r

variable {molecules settled waiting : List (Molecule A M)}

omit [DecidableEq A] [DecidableEq M] in
theorem Molecule.Within.trans {a b c : Molecule A M} (first : a.Within b) (second : b.Within c) : a.Within c :=
  ⟨first.1.trans second.1, first.2.trans second.2⟩

theorem Molecule.within_union_left (a b : Molecule A M) : a.Within (a.union b) :=
  ⟨Finset.subset_union_left, Finset.subset_union_left⟩

theorem Molecule.within_union_right (a b : Molecule A M) : b.Within (a.union b) :=
  ⟨Finset.subset_union_right, Finset.subset_union_right⟩

theorem IsUnion.union {a b : Molecule A M} (first : IsUnion molecules a) (second : IsUnion molecules b) :
    IsUnion molecules (a.union b) := by
  obtain ⟨parts, some_part, among, group, messages⟩ := first
  obtain ⟨others, _, among', group', messages'⟩ := second
  refine ⟨parts ∪ others, some_part.inl, fun part member => ?_, ?_, ?_⟩
  · exact (Finset.mem_union.mp member).elim (among part) (among' part)
  · rw [Molecule.union_group, group, group', Finset.union_biUnion]
  · rw [Molecule.union_messages, messages, messages', Finset.union_biUnion]

omit [DecidableEq A] [DecidableEq M] in
/-- The list without the first molecule that is found. -/
theorem find_eraseP {p : Molecule A M → Bool} {alive : List (Molecule A M)} {earlier : Molecule A M}
    (found : alive.find? p = some earlier) :
    ∃ front back, alive = front ++ earlier :: back ∧ alive.eraseP p = front ++ back := by
  obtain ⟨passes, front, back, rfl, fails⟩ := List.find?_eq_some_iff_append.mp found
  have none_before : ∀ m ∈ front, ¬p m = true := fun m member => by simpa using fails m member
  refine ⟨front, back, rfl, ?_⟩
  rw [List.eraseP_append_right _ none_before, List.eraseP_cons_of_pos passes]

theorem Grouped.combineOne {alive newGuys : List (Molecule A M)} {molecule : Molecule A M}
    (grouped : Grouped molecules alive (newGuys ++ molecule :: waiting)) :
    Grouped molecules (combineOne ⟨alive, newGuys⟩ molecule).alive
      ((combineOne ⟨alive, newGuys⟩ molecule).newGuys ++ waiting) := by
  rw [GroupScores.combineOne]
  split
  · rename_i no_partner
    have same : ∀ r, r ∈ (alive ++ [molecule]) ++ (newGuys ++ waiting) ↔
        r ∈ alive ++ (newGuys ++ molecule :: waiting) := fun r => by simp; tauto
    refine ⟨?_, fun m member => ?_, fun r member => grouped.made r ((same r).mp member)⟩
    · refine List.pairwise_append.mpr ⟨grouped.apart, List.pairwise_singleton _ _, ?_⟩
      intro a member b only
      rw [List.mem_singleton.mp only]
      simpa using List.find?_eq_none.mp no_partner a member
    · obtain ⟨r, among, within⟩ := grouped.covered m member
      exact ⟨r, (same r).mpr among, within⟩
  · rename_i earlier found
    obtain ⟨front, back, whole, erased⟩ := find_eraseP found
    simp only at whole erased
    subst whole
    simp only [erased]
    refine ⟨?_, fun m member => ?_, fun r member => ?_⟩
    · exact grouped.apart.sublist ((List.sublist_cons_self earlier back).append_left front)
    · obtain ⟨r, among, within⟩ := grouped.covered m member
      by_cases first : r = earlier
      · exact ⟨earlier.union molecule, by simp,
          within.trans (first ▸ Molecule.within_union_left earlier molecule)⟩
      by_cases second : r = molecule
      · exact ⟨earlier.union molecule, by simp,
          within.trans (second ▸ Molecule.within_union_right earlier molecule)⟩
      have still : r ∈ (front ++ back) ++ ((newGuys ++ [earlier.union molecule]) ++ waiting) := by
        simp only [List.mem_append, List.mem_cons] at among ⊢
        tauto
      exact ⟨r, still, within⟩
    · by_cases combined : r = earlier.union molecule
      · rw [combined]
        exact (grouped.made earlier (by simp)).union (grouped.made molecule (by simp))
      refine grouped.made r ?_
      simp only [List.mem_append, List.mem_cons, List.not_mem_nil, or_false, combined, or_false] at member ⊢
      tauto

theorem Grouped.foldl {alive newGuys : List (Molecule A M)}
    (grouped : Grouped molecules alive (newGuys ++ waiting)) :
    Grouped molecules (waiting.foldl GroupScores.combineOne ⟨alive, newGuys⟩).alive
      (waiting.foldl GroupScores.combineOne ⟨alive, newGuys⟩).newGuys := by
  induction waiting generalizing alive newGuys with
  | nil => simpa using grouped
  | cons molecule waiting ih => exact ih grouped.combineOne

/-- When nothing is new any more, all molecules are settled. -/
theorem Grouped.combineLoop (old new : List (Molecule A M)) (grouped : Grouped molecules old new) :
    Grouped molecules (combineLoop old new) [] := by
  induction old, new using GroupScores.combineLoop.induct with
  | case1 old =>
    rw [GroupScores.combineLoop, if_pos rfl]
    exact grouped
  | case2 old new some_new ih =>
    rw [GroupScores.combineLoop, if_neg some_new]
    have start : Grouped molecules old ([] ++ new) := grouped
    exact ih start.foldl

/-- The address does not contain what a key puts between two of them. -/
def Plain (address : Unicode) : Prop := ¬[',', ' '] <:+: address

instance (address : Unicode) : Decidable (Plain address) := inferInstanceAs (Decidable ¬[',', ' '] <:+: address)

end SyncEngine.GroupScores
