import Mathlib.Data.List.Perm.Basic
import SyncEngine.Events.PartialMerge
import SyncEngine.Util.Raising

/-! When the merged participants have one entry for each person, and merging again or in another order makes no
difference. -/
namespace SyncEngine.PartialMerge
variable {K V : Type} [Fintype K] (texts : Texts V)

/-- Every person of the two lists has one entry, and the same update once more makes no difference. -/
def Merged (event update : List (Participant K V)) : Prop :=
  ∃ merged again, partialParticipantsMerge texts event update = .ok merged ∧
    (merged.filterMap fun r => r.email.map texts.lower).Nodup ∧
    (∀ p ∈ event ++ update, ∃ r ∈ merged, r.identity texts = p.identity texts) ∧
    partialParticipantsMerge texts merged update = .ok again ∧ again.Perm merged

/-- Two replies give the same participants in either order. -/
def Commute (event : List (Participant K V)) (x y : Participant K V) : Prop :=
  ∃ first both second both', partialParticipantsMerge texts event [x] = .ok first ∧
    partialParticipantsMerge texts first [y] = .ok both ∧
    partialParticipantsMerge texts event [y] = .ok second ∧
    partialParticipantsMerge texts second [x] = .ok both' ∧ both.Perm both'

/-- Nobody who has no address is named like an address. -/
def NamesApart (people : List (Participant K V)) : Prop :=
  ∀ p ∈ people, p.email = none → ∀ name ∈ p.name, ∀ q ∈ people, ∀ email ∈ q.email,
    name ≠ email ∧ name ≠ texts.lower email

/-- An address is always written in one way. -/
def Spelled (people : List (Participant K V)) : Prop :=
  ∀ p ∈ people, ∀ q ∈ people, ∀ email ∈ p.email, ∀ email' ∈ q.email,
    texts.lower email = texts.lower email' → email = email'

/-- What the code relies on. -/
structure Regular (event update : List (Participant K V)) : Prop where
  named : ∀ p ∈ event ++ update, p.key ≠ none
  spelled : Spelled texts (event ++ update)
  lower_case : ∀ p ∈ update, p.lowered texts = p
  answered : ∀ p ∈ update, p.status = none → ¬p.Says texts

/-! ## Answers as total functions -/

/-- An update that does not raise. -/
def fileAnswer (selfHash : Hash K V) (participant : Participant K V) : Hash K V :=
  match participant.key with
  | none => selfHash
  | some key => selfHash.insert key (match selfHash.lookup key with
    | none => participant.lowered texts
    | some known => known.answeredBy texts (participant.lowered texts))

def Raises (p : Participant K V) : Prop := p.status = none ∧ (p.lowered texts).Says texts

instance (p : Participant K V) : Decidable (Raises texts p) :=
  inferInstanceAs (Decidable (p.status = none ∧ (p.lowered texts).Says texts))

/-- The dictionary at the end. -/
def hashOf (event update : List (Participant K V)) : Hash K V :=
  update.foldl (fileAnswer texts) (event.foldl (fileOwn texts) ∅)

variable {texts} {hash hash' : Hash K V} {event update people merged : List (Participant K V)} {p : Participant K V}

omit [Fintype K] in
theorem fileOwn_of_key {key : Unicode} (filed : p.key = some key) :
    fileOwn texts hash p = hash.insert key (p.lowered texts) := by
  simp only [fileOwn, filed]

omit [Fintype K] in
theorem fileOwn_of_no_key (none_filed : p.key = none) : fileOwn texts hash p = hash := by
  simp only [fileOwn, none_filed]

theorem merge_lowered (known p : Participant K V) :
    mergeParticipantAttributes texts known (p.lowered texts) =
      if Raises texts p then .error .keyError else .ok (known.answeredBy texts (p.lowered texts)) := rfl

theorem fileUpdate_ok_iff : fileUpdate texts hash p = .ok hash' ↔
    (∀ key, p.key = some key → key ∈ hash → ¬Raises texts p) ∧ fileAnswer texts hash p = hash' := by
  unfold fileUpdate fileAnswer
  cases p.key with
  | none => simp
  | some key =>
    cases known : hash.lookup key with
    | none =>
      have missing : key ∉ hash := AList.lookup_eq_none.mp known
      simp [missing, known]
    | some other =>
      have there : key ∈ hash := AList.lookup_isSome.mp (by rw [known]; rfl)
      by_cases raises : Raises texts p <;> simp [known, merge_lowered, there, raises]

omit [Fintype K] in
theorem mem_fileOwn {key : Unicode} : key ∈ fileOwn texts hash p ↔ p.key = some key ∨ key ∈ hash := by
  unfold fileOwn
  cases filed : p.key with
  | none => simp
  | some other => simp [eq_comm]

omit [Fintype K] in
theorem mem_fileAnswer {key : Unicode} : key ∈ fileAnswer texts hash p ↔ p.key = some key ∨ key ∈ hash := by
  unfold fileAnswer
  cases filed : p.key with
  | none => simp
  | some other => simp [eq_comm]

theorem foldlM_fileUpdate_ok (done : update.foldlM (fileUpdate texts) hash = .ok hash') :
    update.foldl (fileAnswer texts) hash = hash' ∧
      ∀ p ∈ update, ∀ key, p.key = some key → key ∈ hash → ¬Raises texts p := by
  induction update generalizing hash with
  | nil => exact ⟨Except.ok.inj done, by simp⟩
  | cons p update ih =>
    rw [List.foldlM_cons] at done
    obtain ⟨next, first, rest⟩ := bind_ok done
    obtain ⟨quiet, rfl⟩ := fileUpdate_ok_iff.mp first
    obtain ⟨whole, quiet_rest⟩ := ih rest
    refine ⟨whole, fun q member key filed there => ?_⟩
    rcases List.mem_cons.mp member with rfl | later
    · exact quiet key filed there
    · exact quiet_rest q later key filed (mem_fileAnswer.mpr (Or.inr there))

theorem foldlM_fileUpdate (quiet : ∀ p ∈ update, ¬Raises texts p) :
    update.foldlM (fileUpdate texts) hash = .ok (update.foldl (fileAnswer texts) hash) := by
  induction update generalizing hash with
  | nil => rfl
  | cons p update ih =>
    have first := fileUpdate_ok_iff.mpr
      (show _ ∧ fileAnswer texts hash p = _ from ⟨fun _ _ _ => quiet p List.mem_cons_self, rfl⟩)
    rw [List.foldlM_cons, first]
    exact ih fun q member => quiet q (List.mem_cons_of_mem _ member)

theorem partialParticipantsMerge_ok (done : partialParticipantsMerge texts event update = .ok merged) :
    merged = (hashOf texts event update).values ∧
      ∀ p ∈ update, ∀ key, p.key = some key → key ∈ event.foldl (fileOwn texts) ∅ → ¬Raises texts p := by
  obtain ⟨hash, folded, listed⟩ := bind_ok done
  obtain ⟨rfl, quiet⟩ := foldlM_fileUpdate_ok folded
  obtain rfl := Except.ok.inj listed
  exact ⟨rfl, quiet⟩

theorem partialParticipantsMerge_of_quiet (quiet : ∀ p ∈ update, ¬Raises texts p) :
    partialParticipantsMerge texts event update = .ok (hashOf texts event update).values := by
  rw [partialParticipantsMerge, foldlM_fileUpdate quiet]
  rfl

omit [Fintype K] in
theorem mem_foldl_fileOwn {key : Unicode} :
    key ∈ event.foldl (fileOwn texts) hash ↔ (∃ p ∈ event, p.key = some key) ∨ key ∈ hash := by
  induction event generalizing hash with
  | nil => simp
  | cons p event ih =>
    rw [List.foldl_cons, ih, mem_fileOwn]
    simp only [List.mem_cons, exists_eq_or_imp, or_assoc]
    exact or_left_comm

omit [Fintype K] in
theorem mem_foldl_fileAnswer {key : Unicode} :
    key ∈ update.foldl (fileAnswer texts) hash ↔ (∃ p ∈ update, p.key = some key) ∨ key ∈ hash := by
  induction update generalizing hash with
  | nil => simp
  | cons p update ih =>
    rw [List.foldl_cons, ih, mem_fileAnswer]
    simp only [List.mem_cons, exists_eq_or_imp, or_assoc]
    exact or_left_comm

omit [Fintype K] in
theorem mem_hashOf {key : Unicode} : key ∈ hashOf texts event update ↔ ∃ p ∈ event ++ update, p.key = some key := by
  rw [hashOf, mem_foldl_fileAnswer, mem_foldl_fileOwn]
  simp only [List.mem_append, or_and_right, exists_or, AList.notMem_empty, or_false]
  exact or_comm

omit [Fintype K] in
theorem mem_values {r : Participant K V} : r ∈ hash.values ↔ ∃ key, hash.lookup key = some r := by
  simp only [Hash.values, List.mem_map, AList.mem_lookup_iff.symm, Option.mem_def]
  constructor
  · rintro ⟨entry, found, rfl⟩
    exact ⟨entry.1, found⟩
  · rintro ⟨key, found⟩
    exact ⟨⟨key, r⟩, found, rfl⟩

/-! ## Whom a key stands for -/

/-- The person that is filed under a key, when somebody has it as an address or else as a name. -/
def owner (texts : Texts V) (people : List (Participant K V)) (key : Unicode) : Unicode ⊕ Unicode :=
  if ∃ q ∈ people, q.email = some key then .inl (texts.lower key) else .inr key

omit [Fintype K] in
theorem identity_of_key (apart : NamesApart texts people) (member : p ∈ people) {key : Unicode}
    (filed : p.key = some key) : p.identity texts = some (owner texts people key) := by
  unfold Participant.key at filed
  unfold Participant.identity owner
  cases address : p.email with
  | some email =>
    obtain rfl : email = key := by simpa [address] using filed
    rw [if_pos ⟨p, member, address⟩]
  | none =>
    have named : p.name = some key := by simpa [address] using filed
    have no_address : ¬∃ q ∈ people, q.email = some key := by
      rintro ⟨q, member', address'⟩
      exact (apart p member address key named q member' key address').1 rfl
    rw [if_neg no_address, named]
    rfl

omit [Fintype K] in
theorem identity_eq_none : p.identity texts = none ↔ p.key = none := by
  unfold Participant.key Participant.identity
  cases p.email <;> simp

/-- Every entry is filed under a key of its person, and its address is in lower case. -/
structure Filed (texts : Texts V) (people : List (Participant K V)) (hash : Hash K V) : Prop where
  owned : ∀ key r, hash.lookup key = some r → r.identity texts = some (owner texts people key)
  low : ∀ key r, hash.lookup key = some r → r.lowered texts = r

omit [Fintype K] in
theorem Filed.insert (filed : Filed texts people hash) {key : Unicode} {r : Participant K V}
    (owned : r.identity texts = some (owner texts people key)) (low : r.lowered texts = r) :
    Filed texts people (hash.insert key r) := by
  refine ⟨fun key' r' found => ?_, fun key' r' found => ?_⟩ <;> by_cases same : key' = key
  · subst same
    rw [AList.lookup_insert] at found
    exact Option.some.inj found ▸ owned
  · rw [AList.lookup_insert_ne same] at found
    exact filed.owned key' r' found
  · subst same
    rw [AList.lookup_insert] at found
    exact Option.some.inj found ▸ low
  · rw [AList.lookup_insert_ne same] at found
    exact filed.low key' r' found

omit [Fintype K] in
theorem Filed.fileOwn (apart : NamesApart texts people) (filed : Filed texts people hash) (member : p ∈ people) :
    Filed texts people (fileOwn texts hash p) := by
  cases key : p.key with
  | none => rwa [fileOwn_of_no_key key]
  | some key' =>
    rw [fileOwn_of_key key]
    exact filed.insert ((identity_lowered texts p).trans (identity_of_key apart member key)) (lowered_lowered texts p)

omit [Fintype K] in
theorem Filed.fileAnswer (apart : NamesApart texts people) (filed : Filed texts people hash) (member : p ∈ people) :
    Filed texts people (fileAnswer texts hash p) := by
  unfold PartialMerge.fileAnswer
  split
  · exact filed
  · rename_i key found
    have own := (identity_lowered texts p).trans (identity_of_key apart member found)
    split
    · exact filed.insert own (lowered_lowered texts p)
    · rename_i known found'
      have same := (filed.owned key known found').trans own.symm
      exact filed.insert ((identity_answeredBy texts same).trans (same.trans own))
        (lowered_answeredBy texts (filed.low key known found') (lowered_lowered texts p))

omit [Fintype K] in
theorem filed_hashOf (apart : NamesApart texts (event ++ update)) :
    Filed texts (event ++ update) (hashOf texts event update) := by
  have own : ∀ (people event : List (Participant K V)) (hash : Hash K V), NamesApart texts people →
      (∀ p ∈ event, p ∈ people) → Filed texts people hash →
      Filed texts people (event.foldl (PartialMerge.fileOwn texts) hash) := by
    intro people event
    induction event with
    | nil => exact fun hash _ _ filed => filed
    | cons p event ih =>
      exact fun hash apart among filed => ih _ apart (fun q member => among q (List.mem_cons_of_mem _ member))
        (filed.fileOwn apart (among p List.mem_cons_self))
  have answers : ∀ (people update : List (Participant K V)) (hash : Hash K V), NamesApart texts people →
      (∀ p ∈ update, p ∈ people) → Filed texts people hash →
      Filed texts people (update.foldl (PartialMerge.fileAnswer texts) hash) := by
    intro people update
    induction update with
    | nil => exact fun hash _ _ filed => filed
    | cons p update ih =>
      exact fun hash apart among filed => ih _ apart (fun q member => among q (List.mem_cons_of_mem _ member))
        (filed.fileAnswer apart (among p List.mem_cons_self))
  have nothing : Filed texts (event ++ update) (∅ : Hash K V) :=
    ⟨fun _ _ found => by simp at found, fun _ _ found => by simp at found⟩
  exact answers _ update _ apart (fun p member => List.mem_append_right _ member)
    (own _ event _ apart (fun p member => List.mem_append_left _ member) nothing)

end SyncEngine.PartialMerge
