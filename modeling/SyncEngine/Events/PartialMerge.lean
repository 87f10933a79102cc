import Mathlib.Data.Fintype.Basic
import Mathlib.Data.List.AList
import SyncEngine.Util.Encoding

/-! The merge of the participants of an update into those of an event, filed by address or, where there is none,
by name. -/
namespace SyncEngine.PartialMerge

inductive Exc
  | keyError
deriving DecidableEq

/-- What the code asks of texts and of the values of other attributes. -/
structure Texts (V : Type) where
  lower : Unicode → Unicode
  lower_lower : ∀ text, lower (lower text) = lower text
  /-- `is None` or `== ''` -/
  blank : V → Bool

/-- The dictionary of a participant. The email and the name may be missing or null, which is the same to the code;
a missing status is not. -/
@[ext] structure Participant (K V : Type) where
  email : Option Unicode
  name : Option Unicode
  status : Option (Option Unicode)
  others : K → Option V

variable {K V : Type}

/-- Neither null nor empty. -/
def given (value : Option Unicode) : Bool := value ≠ none && value ≠ some []

variable (texts : Texts V)

def givenOther (value : Option V) : Bool := value.any fun v => !texts.blank v

/-- Some attribute, apart from the status, is neither null nor empty. -/
def Participant.Says (p : Participant K V) : Prop :=
  given p.email = true ∨ given p.name = true ∨ ∃ k, givenOther texts (p.others k) = true

instance [Fintype K] (p : Participant K V) : Decidable (p.Says texts) :=
  inferInstanceAs (Decidable (_ ∨ _ ∨ ∃ k, givenOther texts (p.others k) = true))

def noreply : Unicode := ['n', 'o', 'r', 'e', 'p', 'l', 'y']

/-- What is left of the attributes of one participant when another one answers. -/
def Participant.answeredBy (left right : Participant K V) : Participant K V :=
  if right.status = none ∨ right.status = some (some noreply) then left
  else
    { email := if given right.email then right.email else left.email
      name := if given right.name then right.name else left.name
      status := if right.status.any given then right.status else left.status
      others := fun k => if givenOther texts (right.others k) then right.others k else left.others k }

/-- Without a status the first attribute that is neither null nor empty raises. -/
def mergeParticipantAttributes [Fintype K] (left right : Participant K V) : Except Exc (Participant K V) :=
  if right.status = none ∧ right.Says texts then .error .keyError else .ok (left.answeredBy texts right)

/-- What a participant is filed under: the address as it is written, or else the name. -/
def Participant.key (p : Participant K V) : Option Unicode := p.email <|> p.name

/-- `participant['email'] = participant['email'].lower()` -/
def Participant.lowered (p : Participant K V) : Participant K V := { p with email := p.email.map texts.lower }

/-- `self_hash` -/
abbrev Hash (K V : Type) := AList fun _ : Unicode => Participant K V

def fileOwn (selfHash : Hash K V) (participant : Participant K V) : Hash K V :=
  match participant.key with
  | none => selfHash
  | some key => selfHash.insert key (participant.lowered texts)

def fileUpdate [Fintype K] (selfHash : Hash K V) (participant : Participant K V) : Except Exc (Hash K V) :=
  match participant.key with
  | none => .ok selfHash
  | some key =>
    match selfHash.lookup key with
    | none => .ok (selfHash.insert key (participant.lowered texts))
    | some known => do
      return selfHash.insert key (← mergeParticipantAttributes texts known (participant.lowered texts))

/-- The values of the dictionary, in one of their orders. -/
def Hash.values (selfHash : Hash K V) : List (Participant K V) := selfHash.entries.map Sigma.snd

/-- `Event._partial_participants_merge`, of the participants of two events. -/
def partialParticipantsMerge [Fintype K] (self event : List (Participant K V)) :
    Except Exc (List (Participant K V)) := do
  let selfHash ← event.foldlM (fileUpdate texts) (self.foldl (fileOwn texts) ∅)
  return selfHash.values

/-! ## Who a participant is -/

/-- The address without its case, or else the name. -/
def Participant.identity (p : Participant K V) : Option (Unicode ⊕ Unicode) :=
  match p.email with
  | some email => some (.inl (texts.lower email))
  | none => p.name.map .inr

@[simp] theorem lowered_lowered (p : Participant K V) : (p.lowered texts).lowered texts = p.lowered texts := by
  cases p with
  | mk email name status others => cases email <;> simp [Participant.lowered, texts.lower_lower]

@[simp] theorem identity_lowered (p : Participant K V) : (p.lowered texts).identity texts = p.identity texts := by
  cases p with
  | mk email name status others =>
    cases email <;> simp [Participant.lowered, Participant.identity, texts.lower_lower]

@[simp] theorem answeredBy_self (p : Participant K V) : p.answeredBy texts p = p := by
  unfold Participant.answeredBy
  split
  · rfl
  · ext1 <;> simp

/-- A participant who answers twice is as if the first answer had not been. -/
theorem answeredBy_again (p a b : Participant K V) :
    ((p.answeredBy texts a).answeredBy texts b).answeredBy texts a =
      (p.answeredBy texts b).answeredBy texts a := by
  by_cases silent : a.status = none ∨ a.status = some (some noreply)
  · simp [Participant.answeredBy, silent]
  by_cases silent' : b.status = none ∨ b.status = some (some noreply)
  · simp only [Participant.answeredBy, silent, silent', if_true, if_false]
    ext1 <;> grind
  · simp only [Participant.answeredBy, silent, silent', if_false]
    ext1 <;> grind

theorem answeredBy_twice (p a : Participant K V) :
    (p.answeredBy texts a).answeredBy texts a = p.answeredBy texts a := by
  by_cases silent : a.status = none ∨ a.status = some (some noreply)
  · simp [Participant.answeredBy, silent]
  · simp only [Participant.answeredBy, silent, if_false]
    ext1 <;> grind

/-- Who answers for a participant does not become another one. -/
theorem identity_answeredBy {left right : Participant K V}
    (same : left.identity texts = right.identity texts) :
    (left.answeredBy texts right).identity texts = left.identity texts := by
  unfold Participant.answeredBy
  split
  · rfl
  · obtain ⟨email, name, status, others⟩ := left
    obtain ⟨email', name', status', others'⟩ := right
    cases email with
    | none =>
      cases email' with
      | none =>
        have names : name = name' := Option.map_injective Sum.inr_injective same
        simp [Participant.identity, names]
      | some => cases name <;> simp [Participant.identity] at same
    | some =>
      cases email' with
      | none => cases name' <;> simp [Participant.identity] at same
      | some email' =>
        simp only [Participant.identity] at same
        by_cases say : given (some email') = true
        · simp [Participant.identity, say, same]
        · simp [Participant.identity, say]

theorem lowered_answeredBy {left right : Participant K V} (low : left.lowered texts = left)
    (low' : right.lowered texts = right) :
    (left.answeredBy texts right).lowered texts = left.answeredBy texts right := by
  unfold Participant.answeredBy
  split
  · exact low
  · have own : left.email.map texts.lower = left.email := congrArg Participant.email low
    have theirs : right.email.map texts.lower = right.email := congrArg Participant.email low'
    simp only [Participant.lowered]
    split
    · rw [theirs]
    · rw [own]

/-- Answers one after the other. -/
def Participant.answeredByAll (p : Participant K V) (answers : List (Participant K V)) : Participant K V :=
  answers.foldl (Participant.answeredBy texts) p

/-- An answer makes no difference where it is given again. -/
theorem answeredByAll_of_mem {p a : Participant K V} {answers : List (Participant K V)} (member : a ∈ answers) :
    (p.answeredBy texts a).answeredByAll texts answers = p.answeredByAll texts answers := by
  induction answers generalizing p with
  | nil => cases member
  | cons b answers ih =>
    change ((p.answeredBy texts a).answeredBy texts b).answeredByAll texts answers =
      (p.answeredBy texts b).answeredByAll texts answers
    rcases List.mem_cons.mp member with rfl | later
    · rw [answeredBy_twice]
    · rw [← ih later, answeredBy_again, ih later]

theorem answeredByAll_of_subset {p : Participant K V} {some_answers answers : List (Participant K V)}
    (among : ∀ a ∈ some_answers, a ∈ answers) :
    (p.answeredByAll texts some_answers).answeredByAll texts answers = p.answeredByAll texts answers := by
  induction some_answers generalizing p with
  | nil => rfl
  | cons a some_answers ih =>
    change ((p.answeredBy texts a).answeredByAll texts some_answers).answeredByAll texts answers = _
    rw [ih fun b member => among b (List.mem_cons_of_mem _ member),
      answeredByAll_of_mem texts (among a List.mem_cons_self)]

end SyncEngine.PartialMerge
