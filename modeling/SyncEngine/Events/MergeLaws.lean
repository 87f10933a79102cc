import Mathlib.Logic.Function.Basic
import SyncEngine.Events.MergedParticipants

/-! The dictionary of the merge simulates a map from persons to participants, where the laws are plain. -/
namespace SyncEngine.PartialMerge
variable {K V : Type} [Fintype K] {texts : Texts V}
variable {event update people merged : List (Participant K V)} {p : Participant K V}

/-- The participant that each person has. -/
abbrev Persons (K V : Type) := Unicode ⊕ Unicode → Option (Participant K V)

def own (texts : Texts V) (state : Persons K V) (p : Participant K V) : Persons K V :=
  match p.identity texts with
  | none => state
  | some person => Function.update state person (some (p.lowered texts))

/-- What a person is after an answer. -/
def answered (texts : Texts V) (known : Option (Participant K V)) (p : Participant K V) :
    Option (Participant K V) :=
  some (known.elim (p.lowered texts) fun known => known.answeredBy texts (p.lowered texts))

def answer (texts : Texts V) (state : Persons K V) (p : Participant K V) : Persons K V :=
  match p.identity texts with
  | none => state
  | some person => Function.update state person (answered texts (state person) p)

variable {state : Persons K V} {person : Unicode ⊕ Unicode}

omit [Fintype K] in
theorem own_of_none (nobody : p.identity texts = none) : own texts state p = state := by
  simp only [own, nobody]

omit [Fintype K] in
theorem own_of_some (somebody : p.identity texts = some person) :
    own texts state p = Function.update state person (some (p.lowered texts)) := by
  simp only [own, somebody]

omit [Fintype K] in
theorem answer_of_none (nobody : p.identity texts = none) : answer texts state p = state := by
  simp only [answer, nobody]

omit [Fintype K] in
theorem answer_of_some (somebody : p.identity texts = some person) :
    answer texts state p = Function.update state person (answered texts (state person) p) := by
  simp only [answer, somebody]

/-- The persons after a merge. -/
def persons (texts : Texts V) (event update : List (Participant K V)) : Persons K V :=
  update.foldl (answer texts) (event.foldl (own texts) fun _ => none)

/-- The list has every person once. -/
structure Lists (texts : Texts V) (state : Persons K V) (people : List (Participant K V)) : Prop where
  once : (people.map (·.identity texts)).Nodup
  mem_iff : ∀ r, r ∈ people ↔ ∃ person, state person = some r
  own : ∀ person r, state person = some r → r.identity texts = some person ∧ r.lowered texts = r

omit [Fintype K] in
theorem Lists.perm {people other : List (Participant K V)} (listed : Lists texts state people)
    (listed' : Lists texts state other) : people.Perm other :=
  (List.perm_ext_iff_of_nodup listed.once.of_map listed'.once.of_map).mpr fun r =>
    (listed.mem_iff r).trans (listed'.mem_iff r).symm

/-! ## The simulation -/

/-- The dictionary has, under the one key of each person, what the person is. -/
structure Simulates (texts : Texts V) (people : List (Participant K V)) (hash : Hash K V) (state : Persons K V) :
    Prop where
  lookup : ∀ p ∈ people, ∀ key, p.key = some key → hash.lookup key = state (owner texts people key)
  filed : ∀ person r, state person = some r → ∃ p ∈ people, ∃ key, p.key = some key ∧ owner texts people key = person
  known : ∀ key ∈ hash, ∃ p ∈ people, p.key = some key

/-- Different keys stand for different persons. -/
def KeysApart (texts : Texts V) (people : List (Participant K V)) : Prop :=
  ∀ p ∈ people, ∀ q ∈ people, ∀ key key', p.key = some key → q.key = some key' →
    owner texts people key = owner texts people key' → key = key'

omit [Fintype K] in
theorem keysApart_of_spelled (spelled : Spelled texts people) : KeysApart texts people := by
  intro p _ q _ key key' _ _ same
  unfold owner at same
  split at same <;> split at same
  · rename_i address address'
    obtain ⟨r, member, email⟩ := address
    obtain ⟨r', member', email'⟩ := address'
    exact spelled r member r' member' key email key' email' (Sum.inl_injective same)
  · cases same
  · cases same
  · exact Sum.inr_injective same

variable {hash : Hash K V}

omit [Fintype K] in
theorem Simulates.insert (keys : KeysApart texts people) (simulates : Simulates texts people hash state)
    (member : p ∈ people) {key : Unicode} (filed : p.key = some key) (r : Participant K V) :
    Simulates texts people (hash.insert key r) (Function.update state (owner texts people key) (some r)) := by
  refine ⟨fun q member' key' filed' => ?_, fun person r' found => ?_, fun key' there => ?_⟩
  · by_cases same : key' = key
    · subst same
      rw [AList.lookup_insert, Function.update_self]
    · have others : owner texts people key' ≠ owner texts people key := fun one =>
        same (keys q member' p member key' key filed' filed one)
      rw [AList.lookup_insert_ne same, Function.update_of_ne others]
      exact simulates.lookup q member' key' filed'
  · by_cases same : person = owner texts people key
    · exact ⟨p, member, key, filed, same.symm⟩
    · rw [Function.update_of_ne same] at found
      exact simulates.filed person r' found
  · rcases (AList.mem_insert hash).mp there with rfl | before
    · exact ⟨p, member, filed⟩
    · exact simulates.known key' before

omit [Fintype K] in
theorem Simulates.own (apart : NamesApart texts people) (keys : KeysApart texts people)
    (simulates : Simulates texts people hash state) (member : p ∈ people) :
    Simulates texts people (fileOwn texts hash p) (own texts state p) := by
  cases filed : p.key with
  | none => simpa only [fileOwn, filed, PartialMerge.own, identity_eq_none.mpr filed] using simulates
  | some key =>
    simp only [fileOwn, filed, PartialMerge.own, identity_of_key apart member filed]
    exact simulates.insert keys member filed _

omit [Fintype K] in
theorem Simulates.answer (apart : NamesApart texts people) (keys : KeysApart texts people)
    (simulates : Simulates texts people hash state) (member : p ∈ people) :
    Simulates texts people (fileAnswer texts hash p) (answer texts state p) := by
  cases filed : p.key with
  | none => simpa only [fileAnswer, filed, PartialMerge.answer, identity_eq_none.mpr filed] using simulates
  | some key =>
    simp only [fileAnswer, filed, PartialMerge.answer, identity_of_key apart member filed]
    have found := simulates.lookup p member key filed
    rw [← found]
    cases hash.lookup key <;> exact simulates.insert keys member filed _

omit [Fintype K] in
theorem simulates_hashOf (apart : NamesApart texts (event ++ update)) (keys : KeysApart texts (event ++ update)) :
    Simulates texts (event ++ update) (hashOf texts event update) (persons texts event update) := by
  have own : ∀ (rest : List (Participant K V)) (hash : Hash K V) (state : Persons K V),
      (∀ p ∈ rest, p ∈ event ++ update) → Simulates texts (event ++ update) hash state →
      Simulates texts (event ++ update) (rest.foldl (fileOwn texts) hash)
        (rest.foldl (PartialMerge.own texts) state) := by
    intro rest
    induction rest with
    | nil => exact fun _ _ _ simulates => simulates
    | cons p rest ih =>
      exact fun _ _ among simulates => ih _ _ (fun q member => among q (List.mem_cons_of_mem _ member))
        (simulates.own apart keys (among p List.mem_cons_self))
  have answers : ∀ (rest : List (Participant K V)) (hash : Hash K V) (state : Persons K V),
      (∀ p ∈ rest, p ∈ event ++ update) → Simulates texts (event ++ update) hash state →
      Simulates texts (event ++ update) (rest.foldl (fileAnswer texts) hash)
        (rest.foldl (PartialMerge.answer texts) state) := by
    intro rest
    induction rest with
    | nil => exact fun _ _ _ simulates => simulates
    | cons p rest ih =>
      exact fun _ _ among simulates => ih _ _ (fun q member => among q (List.mem_cons_of_mem _ member))
        (simulates.answer apart keys (among p List.mem_cons_self))
  have nothing : Simulates texts (event ++ update) (∅ : Hash K V) fun _ => none :=
    ⟨fun _ _ _ _ => rfl, fun _ _ found => (nomatch found), fun _ there => absurd there (AList.notMem_empty _)⟩
  exact answers update _ _ (fun p member => List.mem_append_right _ member)
    (own event _ _ (fun p member => List.mem_append_left _ member) nothing)

omit [Fintype K] in
/-- The values of the dictionary list the persons. -/
theorem lists_hashOf (apart : NamesApart texts (event ++ update)) (spelled : Spelled texts (event ++ update)) :
    Lists texts (persons texts event update) (hashOf texts event update).values := by
  have keys := keysApart_of_spelled spelled
  have filed := filed_hashOf apart
  have simulates := simulates_hashOf apart keys
  have known : ∀ key r, (hashOf texts event update).lookup key = some r →
      persons texts event update (owner texts (event ++ update) key) = some r := by
    intro key r found
    obtain ⟨p, member, filed'⟩ := simulates.known key (AList.lookup_isSome.mp (by rw [found]; rfl))
    rw [← simulates.lookup p member key filed', found]
  have person : ∀ person r, persons texts event update person = some r →
      ∃ key, (hashOf texts event update).lookup key = some r ∧ owner texts (event ++ update) key = person := by
    intro person r found
    obtain ⟨p, member, key, filed', rfl⟩ := simulates.filed person r found
    exact ⟨key, (simulates.lookup p member key filed').trans found, rfl⟩
  refine ⟨?_, fun r => ?_, fun i r found => ?_⟩
  · rw [Hash.values, List.map_map]
    refine List.Nodup.map_on ?_ (List.Nodup.of_map Sigma.fst (hashOf texts event update).keys_nodup)
    intro entry member other member' same
    have found := AList.mem_lookup_iff.mpr member
    have found' := AList.mem_lookup_iff.mpr member'
    have one_owner := (filed.owned _ _ found).symm.trans (same.trans (filed.owned _ _ found'))
    obtain ⟨p, among, filed_p⟩ := simulates.known entry.1 (AList.lookup_isSome.mp (by rw [found]; rfl))
    obtain ⟨q, among', filed_q⟩ := simulates.known other.1 (AList.lookup_isSome.mp (by rw [found']; rfl))
    exact (hashOf texts event update).nodupKeys.eq_of_fst_eq member member'
      (keys p among q among' _ _ filed_p filed_q (Option.some.inj one_owner))
  · rw [mem_values]
    constructor
    · rintro ⟨key, found⟩
      exact ⟨_, known key r found⟩
    · rintro ⟨i, found⟩
      obtain ⟨key, found', _⟩ := person i r found
      exact ⟨key, found'⟩
  · obtain ⟨key, found', rfl⟩ := person i r found
    exact ⟨filed.owned key r found', filed.low key r found'⟩

/-! ## The laws of the map -/

omit [Fintype K] in
theorem foldl_own_apply (person : Unicode ⊕ Unicode) :
    event.foldl (own texts) state person =
      ((event.filter (·.identity texts = some person)).getLast?.map (·.lowered texts)).or (state person) := by
  induction event using List.reverseRecOn with
  | nil => rfl
  | append_singleton event p ih =>
    rw [List.foldl_concat, List.filter_append]
    by_cases same : p.identity texts = some person
    · have last : [p].filter (·.identity texts = some person) = [p] := by simp [same]
      rw [own_of_some same, Function.update_self, last, List.getLast?_concat]
      rfl
    · have nothing : [p].filter (·.identity texts = some person) = [] := by simp [same]
      rw [nothing, List.append_nil, ← ih]
      cases identity : p.identity texts with
      | none => rw [own_of_none identity]
      | some other =>
        have others : person ≠ other := fun one => same (one ▸ identity)
        rw [own_of_some identity, Function.update_of_ne others]

omit [Fintype K] in
theorem foldl_answer_apply (person : Unicode ⊕ Unicode) :
    update.foldl (answer texts) state person =
      (update.filter (·.identity texts = some person)).foldl (answered texts) (state person) := by
  induction update generalizing state with
  | nil => rfl
  | cons p update ih =>
    rw [List.foldl_cons, ih, List.filter_cons]
    by_cases same : p.identity texts = some person
    · rw [if_pos (decide_eq_true same), List.foldl_cons, answer_of_some same, Function.update_self]
    · rw [if_neg (by simpa using same)]
      cases identity : p.identity texts with
      | none => rw [answer_of_none identity]
      | some other =>
        have others : person ≠ other := fun one => same (one ▸ identity)
        rw [answer_of_some identity, Function.update_of_ne others]

omit [Fintype K] in
theorem foldl_answered (p : Participant K V) (answers : List (Participant K V)) :
    answers.foldl (answered texts) (some p) = some (p.answeredByAll texts (answers.map (·.lowered texts))) := by
  induction answers generalizing p with
  | nil => rfl
  | cons a answers ih => exact ih _

omit [Fintype K] in
/-- The same answers once more change nothing. -/
theorem foldl_answered_twice (known : Option (Participant K V)) (answers : List (Participant K V)) :
    answers.foldl (answered texts) (answers.foldl (answered texts) known) =
      answers.foldl (answered texts) known := by
  cases known with
  | some p =>
    rw [foldl_answered, foldl_answered, answeredByAll_of_subset texts fun _ member => member]
  | none =>
    cases answers with
    | nil => rfl
    | cons a answers =>
      -- The first answer becomes the participant, as if it had answered for itself.
      have itself : (a :: answers).foldl (answered texts) none =
          (a :: answers).foldl (answered texts) (some (a.lowered texts)) := by
        rw [List.foldl_cons, List.foldl_cons]
        simp only [answered, Option.elim_none, Option.elim_some, answeredBy_self]
      rw [itself, foldl_answered, foldl_answered, answeredByAll_of_subset texts fun _ member => member]

omit [Fintype K] in
theorem foldl_answer_twice : update.foldl (answer texts) (update.foldl (answer texts) state) =
    update.foldl (answer texts) state := by
  funext person
  rw [foldl_answer_apply, foldl_answer_apply, foldl_answered_twice]

omit [Fintype K] in
/-- The persons of a list that has each once are those that it lists. -/
theorem foldl_own_of_lists (listed : Lists texts state people) :
    people.foldl (own texts) (fun _ => none) = state := by
  funext person
  rw [foldl_own_apply, Option.or_none]
  cases known : state person with
  | none =>
    have nobody : people.filter (·.identity texts = some person) = [] := by
      refine List.filter_eq_nil_iff.mpr fun r member same => ?_
      obtain ⟨i, found⟩ := (listed.mem_iff r).mp member
      obtain rfl := Option.some.inj ((listed.own i r found).1.symm.trans (of_decide_eq_true same))
      rw [known] at found
      cases found
    rw [nobody]
    rfl
  | some r =>
    have member := (listed.mem_iff r).mpr ⟨person, known⟩
    obtain ⟨identity, low⟩ := listed.own person r known
    have only : people.filter (·.identity texts = some person) = [r] := by
      have nodup := listed.once.of_map.filter fun q => decide (q.identity texts = some person)
      refine List.perm_singleton.mp ((List.perm_ext_iff_of_nodup nodup (List.nodup_singleton r)).mpr fun q => ?_)
      rw [List.mem_filter, List.mem_singleton]
      constructor
      · rintro ⟨member', same⟩
        exact List.inj_on_of_nodup_map listed.once member' member ((of_decide_eq_true same).trans identity.symm)
      · rintro rfl
        exact ⟨member, decide_eq_true identity⟩
    rw [only, List.getLast?_singleton, Option.map_some, low]

omit [Fintype K] in
theorem persons_of_lists (listed : Lists texts state people) (update : List (Participant K V)) :
    persons texts people update = update.foldl (answer texts) state := by
  rw [persons, foldl_own_of_lists listed]

omit [Fintype K] in
/-- Two different persons may answer in either order. -/
theorem answer_comm {x y : Participant K V} (different : x.identity texts ≠ y.identity texts) :
    answer texts (answer texts state x) y = answer texts (answer texts state y) x := by
  cases first : x.identity texts with
  | none => rw [answer_of_none first, answer_of_none first]
  | some i =>
    cases second : y.identity texts with
    | none => rw [answer_of_none second, answer_of_none second]
    | some j =>
      have apart : i ≠ j := fun same => different (by rw [first, second, same])
      rw [answer_of_some second, answer_of_some first, answer_of_some second, answer_of_some first,
        Function.update_of_ne apart.symm, Function.update_of_ne apart, Function.update_comm apart]

end SyncEngine.PartialMerge
