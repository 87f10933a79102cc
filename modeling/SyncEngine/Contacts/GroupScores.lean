import Mathlib.Algebra.BigOperators.Group.Finset.Basic
import Mathlib.Algebra.Order.Ring.Rat
import Mathlib.Data.Char
import Mathlib.Data.Finset.Sort
import Mathlib.Data.List.AList
import Mathlib.Data.List.Lex
import SyncEngine.Util.Encoding

/-! The groups that a user writes to, found in the recipients of the messages. How doubles are rounded is a
parameter; the similarity of two groups is an exact rational. -/
namespace SyncEngine.GroupScores

/-- Seconds. -/
def LOOKBACK_TIME : ℚ := 63072000
def MIN_MESSAGE_WEIGHT : ℚ := 1 / 100

def MIN_GROUP_SIZE : Nat := 2
def MIN_MESSAGE_COUNT : ℚ := 5 / 2
def SELF_IDENTITY_THRESHOLD : ℚ := 3 / 10
def JACCARD_THRESHOLD : ℚ := 7 / 20

def SOCIAL_MOLECULE_EXPANSION_LIMIT : Nat := 1000
def SOCIAL_MOLECULE_LIMIT : Nat := 5000

inductive Exc
  | zeroDivisionError
deriving DecidableEq

/-- What is used of the type `float`. Nothing is said of how the results are rounded, nor of infinities and what
is no number, apart from two facts that no rounding breaks. -/
structure Floats (W : Type) where
  /-- The nearest one, for the literals, the integers and a span of time. -/
  round : ℚ → W
  add : W → W → W
  sub : W → W → W
  mul : W → W → W
  div : W → W → W
  lt : W → W → Bool
  le : W → W → Bool
  isZero : W → Bool
  /-- A positive number times a size is not zero, nor is one time that. -/
  product_nonzero : ∀ size : Nat, 0 < size → ∀ w, lt (round 0) w = true →
    isZero (mul (round 1) (mul (round size) w)) = false
  count_pos : ∀ w, le (round MIN_MESSAGE_COUNT) w = true → lt (round 0) w = true

/-- A set of addresses with the ids of the messages that were sent to it. -/
@[ext] structure Molecule (A M : Type) where
  group : Finset A
  messages : Finset M
  nonempty : group.Nonempty

/-- The ids by the group, which the source has as a sorted tuple of addresses. The entries are in the order
in which the dictionary is iterated. -/
abbrev Pool (A M : Type) := AList fun _ : Finset A => Finset M

variable {A M : Type} [DecidableEq A] [DecidableEq M]

instance : DecidableEq (Molecule A M) := fun a b =>
  decidable_of_iff (a.group = b.group ∧ a.messages = b.messages)
    ⟨fun ⟨group, messages⟩ => Molecule.ext group messages, fun same => same ▸ ⟨rfl, rfl⟩⟩

/-- `molecules_dict[group]` of a `defaultdict(set)`. -/
def Pool.get (pool : Pool A M) (group : Finset A) : Finset M := (pool.lookup group).getD ∅

/-! ## Pairwise intersections -/

/-- Two items of the pool, with what they have in common. -/
def expandPair (pool : Pool A M) (item other : (_ : Finset A) × Finset M) : Pool A M :=
  let newMolecule := item.1 ∩ other.1
  if MIN_GROUP_SIZE ≤ newMolecule.card then
    pool.insert newMolecule (pool.get newMolecule ∪ item.2 ∪ other.2)
  else pool

/-- Every item with itself and with those behind it. -/
def expandItems (pool : Pool A M) : List ((_ : Finset A) × Finset M) → Pool A M
  | [] => pool
  | item :: items => expandItems ((item :: items).foldl (expandPair · item) pool) items

/-- The items are those that the pool had at first. -/
def expandMoleculePool (moleculesDict : Pool A M) : Pool A M := expandItems moleculesDict moleculesDict.entries

/-! ## Subsets -/

section Subsume
variable {W : Type} (floats : Floats W) (getMessageListWeight : Finset M → W)

/-- How much of the smaller group `g1` is lost in `g2`. -/
def sharingError (m1 m2 : Molecule A M) : Except Exc W :=
  let m1Size := getMessageListWeight m1.messages
  let m2Size := getMessageListWeight m2.messages
  let divisor := floats.mul (floats.round 1) (floats.mul (floats.round m2.group.card) m1Size)
  if floats.isZero divisor then .error .zeroDivisionError
  else .ok (floats.div
    (floats.mul (floats.round ((m2.group.card : ℚ) - m1.group.card)) (floats.sub m1Size m2Size)) divisor)

/-- One of the bigger groups, none of which is subsumed itself, takes this one in. -/
def isSubsumed (m1 : Molecule A M) : List (Molecule A M) → Except Exc Bool
  | [] => .ok false
  | m2 :: bigger =>
    if m1.group ⊆ m2.group then do
      let error ← sharingError floats getMessageListWeight m1 m2
      if floats.lt error (floats.round SELF_IDENTITY_THRESHOLD) then .ok true else isSubsumed m1 bigger
    else isSubsumed m1 bigger

/-- The molecules that stay, behind those of the earlier ones that do. -/
def subsumeScan (alive : List (Molecule A M)) : List (Molecule A M) → Except Exc (List (Molecule A M))
  | [] => .ok alive
  | molecule :: molecules => do
    let dead ← isSubsumed floats getMessageListWeight molecule alive
    subsumeScan (if dead then alive else alive ++ [molecule]) molecules

/-- `molecules_list.sort(key=lambda x: len(x[0]), reverse=True)`, which is stable. -/
def sortBySize (moleculesList : List (Molecule A M)) : List (Molecule A M) :=
  moleculesList.mergeSort fun a b => b.group.card ≤ a.group.card

def subsumeMolecules (moleculesList : List (Molecule A M)) : Except Exc (List (Molecule A M)) :=
  subsumeScan floats getMessageListWeight [] (sortBySize moleculesList)

end Subsume

/-! ## Similar groups -/

def jaccardSimilarity (set1 set2 : Finset A) : ℚ := (set1 ∩ set2).card / (set1 ∪ set2).card

def Molecule.Similar (a b : Molecule A M) : Prop := JACCARD_THRESHOLD < jaccardSimilarity a.group b.group

instance (a b : Molecule A M) : Decidable (a.Similar b) :=
  inferInstanceAs (Decidable (JACCARD_THRESHOLD < jaccardSimilarity a.group b.group))

def Molecule.union (a b : Molecule A M) : Molecule A M :=
  { group := a.group ∪ b.group, messages := a.messages ∪ b.messages, nonempty := a.nonempty.inl }

@[simp] theorem Molecule.union_group (a b : Molecule A M) : (a.union b).group = a.group ∪ b.group := rfl
@[simp] theorem Molecule.union_messages (a b : Molecule A M) :
    (a.union b).messages = a.messages ∪ b.messages := rfl

/-- A round of combinations: the molecules that are not combined, and the new ones. -/
structure Round (A M : Type) where
  alive : List (Molecule A M)
  newGuys : List (Molecule A M)

/-- The body of the loop over `j`: the molecule is combined with the first similar one before it. -/
def combineOne (round : Round A M) (molecule : Molecule A M) : Round A M :=
  match round.alive.find? fun earlier => decide (earlier.Similar molecule) with
  | none => { round with alive := round.alive ++ [molecule] }
  | some earlier =>
    { alive := round.alive.eraseP fun earlier => decide (earlier.Similar molecule),
      newGuys := round.newGuys ++ [earlier.union molecule] }

/-- What is before `new_guys_start_idx` is only looked at together with what is behind it. -/
def combineRound (old new : List (Molecule A M)) : Round A M := new.foldl combineOne { alive := old, newGuys := [] }

/-- A pair that is combined leaves the round for one new molecule. -/
theorem length_combineOne (round : Round A M) (molecule : Molecule A M) :
    (combineOne round molecule).alive.length + 2 * (combineOne round molecule).newGuys.length =
      round.alive.length + 2 * round.newGuys.length + 1 := by
  rw [combineOne]
  split
  · simp only [List.length_append, List.length_singleton]
    omega
  · rename_i earlier found
    have shorter := List.length_eraseP_of_mem (List.mem_of_find?_eq_some found) (List.find?_some found)
    have some_alive := List.length_pos_of_mem (List.mem_of_find?_eq_some found)
    simp only [List.length_append, List.length_singleton]
    omega

theorem length_combineRound (old new : List (Molecule A M)) :
    (combineRound old new).alive.length + 2 * (combineRound old new).newGuys.length =
      old.length + new.length := by
  have whole : ∀ round : Round A M,
      (new.foldl combineOne round).alive.length + 2 * (new.foldl combineOne round).newGuys.length =
        round.alive.length + 2 * round.newGuys.length + new.length := by
    induction new with
    | nil => exact fun _ => rfl
    | cons molecule new ih =>
      intro round
      rw [List.foldl_cons, ih, length_combineOne, List.length_cons]
      omega
  exact whole _

/-- The `while` loop, with the molecules before and from `new_guys_start_idx`. -/
def combineLoop (old new : List (Molecule A M)) : List (Molecule A M) :=
  if new = [] then old
  else combineLoop (combineRound old new).alive (combineRound old new).newGuys
termination_by old.length + 2 * new.length
decreasing_by
  rename_i some_new
  have shorter := length_combineRound old new
  have positive := List.length_pos_iff.mpr some_new
  omega

def combineSimilarMolecules (moleculesList : List (Molecule A M)) : List (Molecule A M) :=
  combineLoop [] moleculesList

/-! ## Scores -/

/-- `', '.join(sorted(group))` -/
def groupKey (group : Finset Unicode) : Unicode := [',', ' '].intercalate (group.sort (· ≤ ·))

section Scores
variable {W : Type}

def scores (getMessageListWeight : Finset M → W) (moleculesList : List (Molecule Unicode M)) :
    AList fun _ : Unicode => W :=
  moleculesList.foldl (fun dict molecule =>
    dict.insert (groupKey molecule.group) (getMessageListWeight molecule.messages)) ∅

structure Message (M : Type) where
  id : M
  toAddr : List (Unicode × Unicode)
  ccAddr : List (Unicode × Unicode)
  bccAddr : List (Unicode × Unicode)
  /-- Seconds. -/
  date : ℚ

variable (floats : Floats W)

def getMessageWeight (now messageDate : ℚ) : W :=
  let weight := floats.sub (floats.round 1)
    (floats.div (floats.round (now - messageDate)) (floats.round LOOKBACK_TIME))
  if floats.lt weight (floats.round MIN_MESSAGE_WEIGHT) then floats.round MIN_MESSAGE_WEIGHT else weight

def getParticipants (lower : Unicode → Unicode) (msg : Message M) (excludedEmails : List Unicode) :
    Finset Unicode :=
  (((msg.toAddr ++ msg.ccAddr ++ msg.bccAddr).map Prod.snd).filter (· ∉ excludedEmails)).map lower |>.toFinset

/-- The initial candidates, and the weights of their messages. -/
def gather (lower : Unicode → Unicode) (now : ℚ) (userEmail : Unicode)
    (state : Pool Unicode M × AList fun _ : M => W) (msg : Message M) :
    Pool Unicode M × AList fun _ : M => W :=
  let participants := getParticipants lower msg [userEmail]
  if MIN_GROUP_SIZE ≤ participants.card then
    (state.1.insert participants (insert msg.id (state.1.get participants)),
      state.2.insert msg.id (getMessageWeight floats now msg.date))
  else state

/-- The sum in the order in which the set is iterated. Every id in the pool has a weight. -/
def messageListWeight (order : Finset M → List M) (messageIdsToScores : AList fun _ : M => W)
    (messageIds : Finset M) : W :=
  (order messageIds).foldl (fun sum id => floats.add sum ((messageIdsToScores.lookup id).getD (floats.round 0)))
    (floats.round 0)

/-- The molecules that are frequent enough. No group in the pool is empty. -/
def frequent (getMessageListWeight : Finset M → W) (pool : Pool Unicode M) : List (Molecule Unicode M) :=
  pool.entries.filterMap fun item =>
    if some_address : item.1.Nonempty then
      if floats.le (floats.round MIN_MESSAGE_COUNT) (getMessageListWeight item.2) then
        some { group := item.1, messages := item.2, nonempty := some_address }
      else none
    else none

def calculateGroupScores (lower : Unicode → Unicode) (order : Finset M → List M) (now : ℚ)
    (messages : List (Message M)) (userEmail : Unicode) : Except Exc (AList fun _ : Unicode => W) := do
  let (moleculesDict, messageIdsToScores) := messages.foldl (gather floats lower now userEmail) (∅, ∅)
  if SOCIAL_MOLECULE_LIMIT < moleculesDict.entries.length then return ∅
  let pool := if moleculesDict.entries.length < SOCIAL_MOLECULE_EXPANSION_LIMIT then
    expandMoleculePool moleculesDict else moleculesDict
  let weight := messageListWeight floats order messageIdsToScores
  let moleculesList ← subsumeMolecules floats weight (frequent floats weight pool)
  return scores weight (combineSimilarMolecules moleculesList)

end Scores

end SyncEngine.GroupScores
