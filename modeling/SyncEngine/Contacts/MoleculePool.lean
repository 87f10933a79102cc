import Mathlib.Algebra.Order.Field.Rat
import Mathlib.Data.Rat.Floor
import Mathlib.Tactic.FieldSimp
import Mathlib.Tactic.Linarith
import Mathlib.Tactic.NormNum
import SyncEngine.Contacts.GroupScores
import SyncEngine.Util.Raising

/-! The pool that is extended by intersections while it is read, and the groups that are taken in by bigger ones. -/
namespace SyncEngine.GroupScores
variable {A M : Type} [DecidableEq A] [DecidableEq M]

/-! ## Intersections -/

/-- Two items of the pool that have the group in common. -/
def MeetIn (group : Finset A) (item other : (_ : Finset A) × Finset M) : Prop :=
  item.1 ∩ other.1 = group ∧ MIN_GROUP_SIZE ≤ group.card

variable {pool : Pool A M} {group : Finset A} {id : M}

omit [DecidableEq M] in
theorem MeetIn.symm {item other : (_ : Finset A) × Finset M} (meet : MeetIn group item other) :
    MeetIn group other item :=
  ⟨(Finset.inter_comm other.1 item.1).trans meet.1, meet.2⟩

theorem mem_expandPair {item other : (_ : Finset A) × Finset M} :
    group ∈ expandPair pool item other ↔ group ∈ pool ∨ MeetIn group item other := by
  simp only [expandPair, MeetIn]
  by_cases meet : item.1 ∩ other.1 = group
  · subst meet
    split <;> simp_all
  · split <;> simp [meet, Ne.symm meet]

theorem mem_get_expandPair {item other : (_ : Finset A) × Finset M} :
    id ∈ (expandPair pool item other).get group ↔
      id ∈ pool.get group ∨ MeetIn group item other ∧ (id ∈ item.2 ∨ id ∈ other.2) := by
  simp only [expandPair, MeetIn]
  by_cases meet : item.1 ∩ other.1 = group
  · subst meet
    split
    · rename_i big
      rw [Pool.get, AList.lookup_insert, Option.getD_some]
      simp [big]
    · rename_i small
      simp [small]
  · split
    · rw [Pool.get, AList.lookup_insert_ne (Ne.symm meet), ← Pool.get]
      simp [meet]
    · simp [meet]

/-- What a pair can make true of the pool is made true by a pair of its items, in whatever order they are. -/
theorem expandItems_iff (holds : Pool A M → Prop) (fires : (item other : (_ : Finset A) × Finset M) → Prop)
    (symm : ∀ item other, fires item other → fires other item)
    (step : ∀ pool item other, holds (expandPair pool item other) ↔ holds pool ∨ fires item other)
    (pool : Pool A M) (items : List ((_ : Finset A) × Finset M)) :
    holds (expandItems pool items) ↔ holds pool ∨ ∃ item ∈ items, ∃ other ∈ items, fires item other := by
  have row : ∀ (item : (_ : Finset A) × Finset M) (others : List ((_ : Finset A) × Finset M)) (pool : Pool A M),
      holds (others.foldl (expandPair · item) pool) ↔ holds pool ∨ ∃ other ∈ others, fires item other := by
    intro item others
    induction others with
    | nil => simp
    | cons other others ih =>
      intro pool
      rw [List.foldl_cons, ih, step, or_assoc]
      simp
  induction items generalizing pool with
  | nil => simp [expandItems]
  | cons item items ih =>
    refine (ih _).trans ?_
    rw [row, or_assoc]
    refine or_congr_right ⟨?_, ?_⟩
    · rintro (⟨other, member, fired⟩ | ⟨first, member, other, member', fired⟩)
      · exact ⟨item, List.mem_cons_self, other, member, fired⟩
      · exact ⟨first, List.mem_cons_of_mem _ member, other, List.mem_cons_of_mem _ member', fired⟩
    · rintro ⟨first, member, other, member', fired⟩
      rcases List.mem_cons.mp member with rfl | behind
      · exact Or.inl ⟨other, member', fired⟩
      rcases List.mem_cons.mp member' with rfl | behind'
      · exact Or.inl ⟨first, member, symm first other fired⟩
      · exact Or.inr ⟨first, behind, other, behind', fired⟩

theorem mem_expandMoleculePool : group ∈ expandMoleculePool pool ↔
    group ∈ pool ∨ ∃ item ∈ pool.entries, ∃ other ∈ pool.entries, MeetIn group item other :=
  expandItems_iff (group ∈ ·) (MeetIn group) (fun _ _ => MeetIn.symm) (fun _ _ _ => mem_expandPair) pool pool.entries

theorem mem_get_expandMoleculePool : id ∈ (expandMoleculePool pool).get group ↔
    id ∈ pool.get group ∨ ∃ item ∈ pool.entries, ∃ other ∈ pool.entries,
      MeetIn group item other ∧ (id ∈ item.2 ∨ id ∈ other.2) :=
  expandItems_iff (id ∈ Pool.get · group) (fun item other => MeetIn group item other ∧ (id ∈ item.2 ∨ id ∈ other.2))
    (fun _ _ fired => ⟨fired.1.symm, fired.2.symm⟩) (fun _ _ _ => mem_get_expandPair) pool pool.entries

omit [DecidableEq M] in
theorem lookup_eq_get : pool.lookup group = if group ∈ pool then some (pool.get group) else none := by
  by_cases there : group ∈ pool
  · obtain ⟨ids, found⟩ := Option.isSome_iff_exists.mp (AList.lookup_isSome.mpr there)
    rw [if_pos there, Pool.get, found, Option.getD_some]
  · rw [if_neg there, AList.lookup_eq_none.mpr there]

/-- The order of the items makes no difference. -/
theorem lookup_expandMoleculePool {other : Pool A M} (perm : other.entries.Perm pool.entries)
    (group : Finset A) : (expandMoleculePool other).lookup group = (expandMoleculePool pool).lookup group := by
  have looked_up : other.lookup group = pool.lookup group := AList.perm_lookup perm
  have present : group ∈ expandMoleculePool other ↔ group ∈ expandMoleculePool pool := by
    rw [mem_expandMoleculePool, mem_expandMoleculePool, ← AList.lookup_isSome, looked_up, AList.lookup_isSome]
    simp only [perm.mem_iff]
  have same : (expandMoleculePool other).get group = (expandMoleculePool pool).get group := by
    ext id
    rw [mem_get_expandMoleculePool, mem_get_expandMoleculePool, Pool.get, looked_up, ← Pool.get]
    simp only [perm.mem_iff]
  rw [lookup_eq_get, lookup_eq_get, same]
  simp only [present]

/-! ## Subsets -/
section Subsume
variable {W : Type} (floats : Floats W) (weight : Finset M → W)

/-- The group is a subset of the other, and the sharing error is small. -/
def Molecule.SubsumedBy (m1 m2 : Molecule A M) : Prop :=
  m1.group ⊆ m2.group ∧ ∃ error, sharingError floats weight m1 m2 = .ok error ∧
    floats.lt error (floats.round SELF_IDENTITY_THRESHOLD) = true

def Molecule.Positive (m : Molecule A M) : Prop := floats.lt (floats.round 0) (weight m.messages) = true

variable {floats weight} {m1 : Molecule A M}

omit [DecidableEq A] [DecidableEq M] in
theorem sharingError_of_pos (positive : m1.Positive floats weight) (m2 : Molecule A M) :
    ∃ error, sharingError floats weight m1 m2 = .ok error := by
  have divisor := floats.product_nonzero m2.group.card m2.nonempty.card_pos _ positive
  rw [sharingError]
  exact ⟨_, if_neg (by rw [divisor]; exact Bool.false_ne_true)⟩

omit [DecidableEq M] in
theorem isSubsumed_spec (positive : m1.Positive floats weight) (alive : List (Molecule A M)) :
    ∃ dead, isSubsumed floats weight m1 alive = .ok dead ∧
      (dead = true ↔ ∃ m2 ∈ alive, m1.SubsumedBy floats weight m2) := by
  induction alive with
  | nil => exact ⟨false, rfl, by simp⟩
  | cons m2 bigger ih =>
    obtain ⟨dead, scanned, iff⟩ := ih
    obtain ⟨error, shared⟩ := sharingError_of_pos positive m2
    by_cases subset : m1.group ⊆ m2.group
    · by_cases small : floats.lt error (floats.round SELF_IDENTITY_THRESHOLD) = true
      · refine ⟨true, ?_, ?_⟩
        · rw [isSubsumed, if_pos subset, shared]
          exact if_pos small
        · simp [Molecule.SubsumedBy, subset, shared, small]
      · refine ⟨dead, ?_, ?_⟩
        · rw [isSubsumed, if_pos subset, shared]
          exact (if_neg small).trans scanned
        · rw [iff]
          simp [Molecule.SubsumedBy, shared, small]
    · refine ⟨dead, ?_, ?_⟩
      · rw [isSubsumed, if_neg subset, scanned]
      · rw [iff]
        simp [Molecule.SubsumedBy, subset]

/-- No molecule is subsumed by one that stands before it. -/
def Unsubsumed (floats : Floats W) (weight : Finset M → W) (molecules : List (Molecule A M)) : Prop :=
  molecules.Pairwise fun earlier later => ¬later.SubsumedBy floats weight earlier

/-- The molecules are told apart into those that stay, in their order, and those that each have one of them. -/
structure Split (floats : Floats W) (weight : Finset M → W) (alive molecules stay dropped : List (Molecule A M)) :
    Prop where
  sublist : stay.Sublist molecules
  perm : (stay ++ dropped).Perm molecules
  taken : ∀ m ∈ dropped, ∃ k ∈ alive ++ stay, m.SubsumedBy floats weight k
  apart : Unsubsumed floats weight (alive ++ stay)

omit [DecidableEq M] in
theorem subsumeScan_spec {molecules : List (Molecule A M)} (positive : ∀ m ∈ molecules, m.Positive floats weight)
    {alive : List (Molecule A M)} (unsubsumed : Unsubsumed floats weight alive) :
    ∃ stay dropped, subsumeScan floats weight alive molecules = .ok (alive ++ stay) ∧
      Split floats weight alive molecules stay dropped := by
  induction molecules generalizing alive with
  | nil =>
    refine ⟨[], [], by rw [List.append_nil]; rfl, List.Sublist.refl _, .refl _, ?_, by simpa using unsubsumed⟩
    exact fun m member => absurd member List.not_mem_nil
  | cons molecule molecules ih =>
    obtain ⟨positive_here, positive_rest⟩ := List.forall_mem_cons.mp positive
    obtain ⟨dead, scanned, iff⟩ := isSubsumed_spec positive_here alive
    rw [subsumeScan, scanned]
    cases dead with
    | true =>
      obtain ⟨stay, dropped, done, split⟩ := ih positive_rest unsubsumed
      refine ⟨stay, molecule :: dropped, done, split.sublist.cons _, ?_, ?_, split.apart⟩
      · exact List.perm_middle.trans (split.perm.cons molecule)
      · obtain ⟨m2, among, subsumed⟩ := iff.mp rfl
        exact List.forall_mem_cons.mpr ⟨⟨m2, List.mem_append_left _ among, subsumed⟩, split.taken⟩
    | false =>
      have longer : Unsubsumed floats weight (alive ++ [molecule]) := by
        refine List.pairwise_append.mpr ⟨unsubsumed, List.pairwise_singleton _ _, ?_⟩
        intro earlier member later only subsumed
        rw [List.mem_singleton.mp only] at subsumed
        exact Bool.false_ne_true (iff.mpr ⟨earlier, member, subsumed⟩)
      obtain ⟨stay, dropped, done, split⟩ := ih positive_rest longer
      have same : alive ++ [molecule] ++ stay = alive ++ molecule :: stay := by simp
      refine ⟨molecule :: stay, dropped, same ▸ done, split.sublist.cons_cons _, split.perm.cons molecule, ?_, ?_⟩
      · exact same ▸ split.taken
      · exact same ▸ split.apart

omit [DecidableEq M] in
theorem subsumeMolecules_spec {molecules : List (Molecule A M)}
    (positive : ∀ m ∈ molecules, m.Positive floats weight) :
    ∃ kept dropped, subsumeMolecules floats weight molecules = .ok kept ∧ (kept ++ dropped).Perm molecules ∧
      kept.Sublist (sortBySize molecules) ∧ (∀ m ∈ dropped, ∃ k ∈ kept, m.SubsumedBy floats weight k) ∧
      Unsubsumed floats weight kept := by
  have sorted := List.mergeSort_perm molecules fun a b => b.group.card ≤ a.group.card
  have nothing : Unsubsumed floats weight ([] : List (Molecule A M)) := List.Pairwise.nil
  obtain ⟨kept, dropped, done, split⟩ :=
    subsumeScan_spec (fun m member => positive m (sorted.mem_iff.mp member)) nothing
  exact ⟨kept, dropped, done, split.perm.trans sorted, split.sublist, split.taken, split.apart⟩

/-- Each group gets the messages of all pairs that meet in it, in whatever order the pool is read; every molecule
that is dropped has one that stays, and none that stays has another before it. -/
theorem pool_expanded_and_subsumed (pool : Pool A M) (floats : Floats W) (weight : Finset M → W)
    (molecules : List (Molecule A M)) (positive : ∀ m ∈ molecules, m.Positive floats weight) :
    (∀ group id, id ∈ (expandMoleculePool pool).get group ↔
      id ∈ pool.get group ∨ ∃ item ∈ pool.entries, ∃ other ∈ pool.entries,
        MeetIn group item other ∧ (id ∈ item.2 ∨ id ∈ other.2)) ∧
    (∀ other : Pool A M, other.entries.Perm pool.entries →
      ∀ group, (expandMoleculePool other).lookup group = (expandMoleculePool pool).lookup group) ∧
    ∃ kept dropped, subsumeMolecules floats weight molecules = .ok kept ∧ (kept ++ dropped).Perm molecules ∧
      kept.Sublist (sortBySize molecules) ∧ (∀ m ∈ dropped, ∃ k ∈ kept, m.SubsumedBy floats weight k) ∧
      Unsubsumed floats weight kept :=
  ⟨fun _ _ => mem_get_expandMoleculePool, fun _ => lookup_expandMoleculePool, subsumeMolecules_spec positive⟩

/-- Four addresses with three messages, and two of them with one more. -/
def fourAndTwo : List (Molecule Nat Nat) :=
  [{ group := {1, 2}, messages := {10, 11, 12, 13}, nonempty := ⟨1, by decide⟩ },
    { group := {1, 2, 3, 4}, messages := {10, 11, 12}, nonempty := ⟨1, by decide⟩ }]

/-- The nearest multiple of the distance between doubles near the literals. -/
def dyadicRound (q : ℚ) : ℚ := (⌊q * 2 ^ 54 + 1 / 2⌋ : ℤ) / 2 ^ 54

theorem dyadicRound_eq {q : ℚ} (k : ℤ) (scaled : q * 2 ^ 54 = k) : dyadicRound q = q := by
  have floor : ⌊q * 2 ^ 54 + 1 / 2⌋ = k := by
    rw [scaled, Int.floor_eq_iff]
    constructor <;> linarith
  rw [dyadicRound, floor, ← scaled]
  field_simp

@[simp] theorem dyadicRound_natCast (n : ℕ) : dyadicRound n = n :=
  dyadicRound_eq (n * 2 ^ 54) (by push_cast; rfl)

@[simp] theorem dyadicRound_zero : dyadicRound 0 = 0 := dyadicRound_natCast 0
@[simp] theorem dyadicRound_one : dyadicRound 1 = 1 := dyadicRound_natCast 1

@[simp] theorem dyadicRound_count : dyadicRound MIN_MESSAGE_COUNT = 5 / 2 :=
  dyadicRound_eq (5 * 2 ^ 53) (by rw [MIN_MESSAGE_COUNT]; norm_num)

/-- Doubles of which the sums, products and quotients are exact. -/
def dyadic : Floats ℚ where
  round := dyadicRound
  add := (· + ·)
  sub := (· - ·)
  mul := (· * ·)
  div := (· / ·)
  lt a b := decide (a < b)
  le a b := decide (a ≤ b)
  isZero a := decide (a = 0)
  product_nonzero size some_size w positive := by
    have above : (0 : ℚ) < w := by simpa using positive
    have sized : (0 : ℚ) < size := by exact_mod_cast some_size
    simpa using (mul_pos sized above).ne'
  count_pos w enough := by
    have above : 5 / 2 ≤ w := by simpa using enough
    simpa using (by norm_num : (0 : ℚ) < 5 / 2).trans_le above

theorem fourAndTwo_subsumed :
    (∀ m ∈ fourAndTwo, m.Positive dyadic fun ids => (ids.card : ℚ)) ∧
    ∃ kept dropped, subsumeMolecules dyadic (fun ids => (ids.card : ℚ)) fourAndTwo = .ok kept ∧
      (kept ++ dropped).Perm fourAndTwo ∧ kept.Sublist (sortBySize fourAndTwo) ∧
      (∀ m ∈ dropped, ∃ k ∈ kept, m.SubsumedBy dyadic (fun ids => (ids.card : ℚ)) k) ∧
      Unsubsumed dyadic (fun ids => (ids.card : ℚ)) kept :=
  have positive : ∀ m ∈ fourAndTwo, m.Positive dyadic fun ids => (ids.card : ℚ) := by
    simp [fourAndTwo, Molecule.Positive, dyadic]
  ⟨positive, (pool_expanded_and_subsumed (∅ : Pool Nat Nat) dyadic (fun ids => (ids.card : ℚ)) fourAndTwo
    positive).2.2⟩

omit [DecidableEq M] in
theorem frequent_pos {pool : Pool Unicode M} {weight : Finset M → W} :
    ∀ m ∈ frequent floats weight pool, m.Positive floats weight := by
  intro m member
  obtain ⟨item, _, made⟩ := List.mem_filterMap.mp member
  split at made
  · split at made
    · rename_i enough
      obtain rfl := Option.some.inj made
      exact floats.count_pos _ enough
    · cases made
  · cases made

/-- No group is without weight when errors are divided by it. -/
theorem calculateGroupScores_ok (lower : Unicode → Unicode) (order : Finset M → List M) (now : ℚ)
    (messages : List (Message M)) (userEmail : Unicode) :
    ∃ dict, calculateGroupScores floats lower order now messages userEmail = .ok dict := by
  rw [calculateGroupScores]
  generalize messages.foldl (gather floats lower now userEmail) (∅, ∅) = gathered
  obtain ⟨moleculesDict, messageIdsToScores⟩ := gathered
  simp only
  split
  · exact ⟨∅, rfl⟩
  · generalize (if moleculesDict.entries.length < SOCIAL_MOLECULE_EXPANSION_LIMIT then
      expandMoleculePool moleculesDict else moleculesDict) = pool
    let weight := messageListWeight floats order messageIdsToScores
    have positive : ∀ m ∈ frequent floats weight pool, m.Positive floats weight := frequent_pos
    obtain ⟨kept, _, done, _⟩ := subsumeMolecules_spec positive
    exact ⟨scores weight (combineSimilarMolecules kept), by rw [done]; rfl⟩

end Subsume

end SyncEngine.GroupScores
