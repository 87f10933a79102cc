import Mathlib
import SyncEngine.Events.MergeLaws

/-! Exactly when the merged participants have one entry for each person and stay the same when they are merged
again, as long as nobody is named like an address. -/
namespace SyncEngine.PartialMerge
variable {K V : Type} [Fintype K] {texts : Texts V}
variable {event update people merged others : List (Participant K V)} {p q r : Participant K V} {hash : Hash K V}

/-! ## The participants that come out of a merge -/

omit [Fintype K] in
theorem identity_of_address {email : Unicode} (address : p.email = some email) :
    p.identity texts = some (.inl (texts.lower email)) := by simp only [Participant.identity, address]

omit [Fintype K] in
theorem identity_of_no_address (none_given : p.email = none) : p.identity texts = p.name.map .inr := by
  simp only [Participant.identity, none_given]

omit [Fintype K] in
theorem lower_of_low {email : Unicode} (low : p.lowered texts = p) (address : p.email = some email) :
    texts.lower email = email := by
  have same : p.email.map texts.lower = p.email := congrArg Participant.email low
  rw [address] at same
  exact Option.some.inj same

omit [Fintype K] in
/-- The name of who has no address is that of a person who has none. -/
theorem no_address_of_identity (same : r.identity texts = p.identity texts) (none_given : r.email = none) :
    p.email = none ∧ p.name = r.name := by
  rw [identity_of_no_address none_given] at same
  cases address : p.email with
  | some email =>
    rw [identity_of_address address] at same
    cases name : r.name <;> simp [name] at same
  | none =>
    rw [identity_of_no_address address] at same
    exact ⟨rfl, (Option.map_injective Sum.inr_injective same).symm⟩

omit [Fintype K] in
theorem address_of_identity (same : r.identity texts = p.identity texts) (low : r.lowered texts = r)
    {email : Unicode} (address : r.email = some email) :
    ∃ email', p.email = some email' ∧ email = texts.lower email' := by
  cases address' : p.email with
  | none =>
    rw [(no_address_of_identity same.symm address').1] at address
    cases address
  | some email' =>
    rw [identity_of_address address, identity_of_address address', lower_of_low low address] at same
    exact ⟨email', rfl, Sum.inl_injective (Option.some.inj same)⟩

omit [Fintype K] in
/-- With addresses in lower case a person has one key. -/
theorem key_eq_of_identity (same : r.identity texts = p.identity texts) (low : r.lowered texts = r)
    (low' : p.lowered texts = p) : r.key = p.key := by
  unfold Participant.key
  cases address : r.email with
  | none =>
    obtain ⟨none_given, name⟩ := no_address_of_identity same address
    rw [none_given, name]
  | some email =>
    obtain ⟨email', address', rfl⟩ := address_of_identity same low address
    rw [address', lower_of_low low' address']
    rfl

omit [Fintype K] in
/-- Every value is a person of one of the lists. -/
theorem person_of_mem_values (apart : NamesApart texts (event ++ update))
    (member : r ∈ (hashOf texts event update).values) :
    r.lowered texts = r ∧ ∃ p ∈ event ++ update, p.key ≠ none ∧ r.identity texts = p.identity texts := by
  obtain ⟨key, found⟩ := mem_values.mp member
  obtain ⟨p, among, filed⟩ := mem_hashOf.mp (AList.lookup_isSome.mp (by rw [found]; rfl))
  have own := filed_hashOf apart
  exact ⟨own.low key r found, p, among, by rw [filed]; exact Option.some_ne_none key,
    (own.owned key r found).trans (identity_of_key apart among filed).symm⟩

omit [Fintype K] in
/-- Every person that can be filed has a value. -/
theorem value_of_key (apart : NamesApart texts (event ++ update)) (member : p ∈ event ++ update) {key : Unicode}
    (filed : p.key = some key) :
    ∃ r, (hashOf texts event update).lookup key = some r ∧ r.identity texts = p.identity texts := by
  obtain ⟨r, found⟩ := Option.isSome_iff_exists.mp (AList.lookup_isSome.mpr (mem_hashOf.mpr ⟨p, member, filed⟩))
  exact ⟨r, found, ((filed_hashOf apart).owned key r found).trans (identity_of_key apart member filed).symm⟩

/-! ## A second merge -/

/-- Somebody of the people has the same name or, but for its case, the same address. -/
def Stems (texts : Texts V) (people : List (Participant K V)) (r : Participant K V) : Prop :=
  ∃ p ∈ people, (r.email = none → p.email = none ∧ p.name = r.name) ∧
    ∀ email ∈ r.email, ∃ email' ∈ p.email, email = email' ∨ email = texts.lower email'

omit [Fintype K] in
theorem stems_of_mem (member : p ∈ people) : Stems texts people p :=
  ⟨p, member, fun none_given => ⟨none_given, rfl⟩, fun email address => ⟨email, address, Or.inl rfl⟩⟩

omit [Fintype K] in
theorem stems_of_mem_values (apart : NamesApart texts (event ++ update))
    (member : r ∈ (hashOf texts event update).values) : Stems texts (event ++ update) r := by
  obtain ⟨low, p, among, _, same⟩ := person_of_mem_values apart member
  refine ⟨p, among, no_address_of_identity same, fun email address => ?_⟩
  obtain ⟨email', address', written⟩ := address_of_identity same low address
  exact ⟨email', address', Or.inr written⟩

omit [Fintype K] in
theorem NamesApart.of_stems (apart : NamesApart texts people) (stems : ∀ r ∈ others, Stems texts people r) :
    NamesApart texts others := by
  intro r member none_given name named q member' email address
  obtain ⟨p, among, nameless, _⟩ := stems r member
  obtain ⟨none_given', same⟩ := nameless none_given
  obtain ⟨q', among', _, addressed⟩ := stems q member'
  obtain ⟨email', address', written⟩ := addressed email address
  have both := apart p among none_given' name (same ▸ named) q' among' email' address'
  rcases written with rfl | rfl
  · exact both
  · exact ⟨both.2, by rw [texts.lower_lower]; exact both.2⟩

omit [Fintype K] in
theorem spelled_of_low (low : ∀ p ∈ people, p.lowered texts = p) : Spelled texts people := by
  intro p member q member' email address email' address' same
  rwa [lower_of_low (low p member) address, lower_of_low (low q member') address'] at same

omit [Fintype K] in
theorem not_raises (regular : Regular texts event update) : ∀ p ∈ update, ¬Raises texts p := by
  rintro p member ⟨missing, gives⟩
  rw [regular.lower_case p member] at gives
  exact regular.answered p member missing gives

/-- With regular participants nothing raises, and the result lists the persons. -/
theorem merge_lists (apart : NamesApart texts (event ++ update)) (spelled : Spelled texts (event ++ update))
    (quiet : ∀ p ∈ update, ¬Raises texts p) :
    ∃ merged, partialParticipantsMerge texts event update = .ok merged ∧
      merged = (hashOf texts event update).values ∧ Lists texts (persons texts event update) merged :=
  ⟨_, partialParticipantsMerge_of_quiet quiet, rfl, lists_hashOf apart spelled⟩

omit [Fintype K] in
theorem unique_of_lists {state : Persons K V} (listed : Lists texts state merged) :
    (merged.filterMap fun r => r.email.map texts.lower).Nodup := by
  have address : (fun r : Participant K V => r.email.map texts.lower) =
      (fun i => i.bind Sum.getLeft?) ∘ fun r => r.identity texts := by
    funext r
    rw [Function.comp_apply]
    cases given : r.email with
    | none =>
      rw [identity_of_no_address given]
      cases r.name <;> rfl
    | some email =>
      rw [identity_of_address given]
      rfl
  rw [address, ← List.filterMap_map]
  refine listed.once.filterMap fun i j email first second => ?_
  have left : ∀ k : Option (Unicode ⊕ Unicode), k.bind Sum.getLeft? = some email → k = some (.inl email) := by
    rintro (_ | ⟨other⟩ | other) same
    · cases same
    · rw [Option.some.inj same]
    · cases same
  exact (left i first).trans (left j second).symm

theorem merged_of_regular (apart : NamesApart texts (event ++ update)) (regular : Regular texts event update) :
    Merged texts event update := by
  obtain ⟨merged, done, values, listed⟩ := merge_lists apart regular.spelled (not_raises regular)
  have again_apart : NamesApart texts (merged ++ update) := apart.of_stems fun r member => by
    rcases List.mem_append.mp member with first | second
    · exact stems_of_mem_values apart (values ▸ first)
    · exact stems_of_mem (List.mem_append_right _ second)
  have low : ∀ r ∈ merged ++ update, r.lowered texts = r := fun r member => by
    rcases List.mem_append.mp member with first | second
    · exact (person_of_mem_values apart (values ▸ first)).1
    · exact regular.lower_case r second
  obtain ⟨again, done', _, listed'⟩ := merge_lists again_apart (spelled_of_low low) (not_raises regular)
  rw [persons_of_lists listed update, persons, foldl_answer_twice, ← persons] at listed'
  refine ⟨merged, again, done, unique_of_lists listed, fun p member => ?_, done', listed'.perm listed⟩
  obtain ⟨key, filed⟩ := Option.ne_none_iff_exists'.mp (regular.named p member)
  obtain ⟨r, found, same⟩ := value_of_key apart member filed
  exact ⟨r, values ▸ mem_values.mpr ⟨key, found⟩, same⟩

/-! ## What the merge shows of the participants -/

omit [Fintype K] in
/-- Where no address is there twice, a person with an address has one key. -/
theorem one_key_of_unique (unique : (hash.values.filterMap fun r => r.email.map texts.lower).Nodup)
    {key key' : Unicode} (found : hash.lookup key = some p) (found' : hash.lookup key' = some q)
    {email : Unicode} (same : p.email.map texts.lower = some email) (same' : q.email.map texts.lower = some email) :
    key = key' := by
  by_contra different
  rw [Hash.values, List.filterMap_map, List.Nodup, List.pairwise_filterMap] at unique
  have symmetric : Std.Symm fun entry other : (_ : Unicode) × Participant K V =>
      ∀ b, ((fun r : Participant K V => r.email.map texts.lower) ∘ Sigma.snd) entry = some b →
        ∀ b', ((fun r : Participant K V => r.email.map texts.lower) ∘ Sigma.snd) other = some b' → b ≠ b' :=
    ⟨fun _ _ apart b first b' second => (apart b' second b first).symm⟩
  have apart := unique.forall (AList.mem_lookup_iff.mp found) (AList.mem_lookup_iff.mp found')
    fun one => different (congrArg Sigma.fst one)
  exact apart email same email same' rfl

omit [Fintype K] in
theorem address_of_value (same : r.identity texts = p.identity texts) {email : Unicode}
    (address : p.email = some email) : r.email.map texts.lower = some (texts.lower email) := by
  cases address' : r.email with
  | none =>
    rw [(no_address_of_identity same address').1] at address
    cases address
  | some email' =>
    rw [identity_of_address address', identity_of_address address] at same
    exact congrArg some (Sum.inl_injective (Option.some.inj same))

theorem regular_of_merged (apart : NamesApart texts (event ++ update)) (merges : Merged texts event update) :
    Regular texts event update := by
  obtain ⟨merged, again, done, unique, entries, done', perm⟩ := merges
  obtain ⟨values, _⟩ := partialParticipantsMerge_ok done
  obtain ⟨values', quiet⟩ := partialParticipantsMerge_ok done'
  have again_apart : NamesApart texts (merged ++ update) := apart.of_stems fun r member => by
    rcases List.mem_append.mp member with first | second
    · exact stems_of_mem_values apart (values ▸ first)
    · exact stems_of_mem (List.mem_append_right _ second)
  have unique' : (again.filterMap fun r => r.email.map texts.lower).Nodup := (perm.filterMap _).nodup_iff.mpr unique
  have named : ∀ p ∈ event ++ update, p.key ≠ none := by
    intro p member
    obtain ⟨r, among, same⟩ := entries p member
    obtain ⟨_, p', _, filed, same'⟩ := person_of_mem_values apart (values ▸ among)
    rw [ne_eq, ← identity_eq_none, ← same, same', identity_eq_none]
    exact filed
  have low : ∀ key r, (hashOf texts event update).lookup key = some r → r.lowered texts = r :=
    (filed_hashOf apart).low
  have lower_case : ∀ p ∈ update, p.lowered texts = p := by
    intro p member
    cases address : p.email with
    | none => rw [Participant.lowered, address, Option.map_none, ← address]
    | some email =>
      have filed : p.key = some email := by simp [Participant.key, address]
      -- The address in lower case is a key of the first result, and the address itself one of the update.
      obtain ⟨r, found, same⟩ := value_of_key apart (List.mem_append_right _ member) filed
      have listed : r ∈ merged := values ▸ mem_values.mpr ⟨email, found⟩
      obtain ⟨email', address', rfl⟩ : ∃ email', r.email = some email' ∧ email' = texts.lower email := by
        obtain ⟨email', address', lowered⟩ := Option.map_eq_some_iff.mp (address_of_value same address)
        exact ⟨email', address', (lower_of_low (low _ r found) address').symm.trans lowered⟩
      have filed' : r.key = some (texts.lower email) := by simp [Participant.key, address']
      obtain ⟨first, found', one⟩ := value_of_key again_apart (List.mem_append_left _ listed) filed'
      obtain ⟨second, found'', other⟩ := value_of_key again_apart (List.mem_append_right _ member) filed
      have spelling := one_key_of_unique (values' ▸ unique') found' found''
        (address_of_value (one.trans same) address) (address_of_value other address)
      rw [Participant.lowered, address, Option.map_some, spelling, ← address]
  refine ⟨named, ?_, lower_case, fun p member missing gives => ?_⟩
  · intro p member q member' email address email' address' same
    have filed : p.key = some email := by simp [Participant.key, Option.mem_def.mp address]
    have filed' : q.key = some email' := by simp [Participant.key, Option.mem_def.mp address']
    obtain ⟨r, found, one⟩ := value_of_key apart member filed
    obtain ⟨r', found', other⟩ := value_of_key apart member' filed'
    exact one_key_of_unique (values ▸ unique) found found' (address_of_value one address)
      (same ▸ address_of_value other address')
  · obtain ⟨key, filed⟩ := Option.ne_none_iff_exists'.mp (named p (List.mem_append_right _ member))
    obtain ⟨r, found, same⟩ := value_of_key apart (List.mem_append_right _ member) filed
    have listed : r ∈ merged := values ▸ mem_values.mpr ⟨key, found⟩
    have filed' : r.key = some key :=
      (key_eq_of_identity same (low _ r found) (lower_case p member)).trans filed
    refine quiet p member key filed (mem_foldl_fileOwn.mpr (Or.inl ⟨r, listed, filed'⟩)) ⟨missing, ?_⟩
    rw [lower_case p member]
    exact gives

/-! ## Replies in either order -/

omit [Fintype K] in
/-- Two replies with an address bring no new names, so they may come together. -/
theorem namesApart_both {x y : Participant K V} (apart : NamesApart texts (event ++ [x]))
    (apart' : NamesApart texts (event ++ [y])) (addressed : x.email ≠ none) (addressed' : y.email ≠ none) :
    NamesApart texts (event ++ [x, y]) := by
  intro p member none_given name named q member' email address
  have of_event : p ∈ event := by
    rcases List.mem_append.mp member with first | second
    · exact first
    · rcases List.mem_pair.mp second with rfl | rfl
      · exact absurd none_given addressed
      · exact absurd none_given addressed'
  rcases List.mem_append.mp member' with first | second
  · exact apart p (List.mem_append_left _ of_event) none_given name named q (List.mem_append_left _ first) email address
  · rcases List.mem_pair.mp second with rfl | rfl
    · exact apart p (List.mem_append_left _ of_event) none_given name named q (by simp) email address
    · exact apart' p (List.mem_append_left _ of_event) none_given name named q (by simp) email address

/-- A reply merged after another one. -/
theorem merge_second {x y : Participant K V} (apart : NamesApart texts (event ++ [x]))
    (together : NamesApart texts (event ++ [x, y])) (regular : Regular texts event [x])
    (regular' : Regular texts event [y]) :
    ∃ first both, partialParticipantsMerge texts event [x] = .ok first ∧
      partialParticipantsMerge texts first [y] = .ok both ∧
      Lists texts (answer texts (answer texts (event.foldl (own texts) fun _ => none) x) y) both := by
  obtain ⟨first, done, values, listed⟩ := merge_lists apart regular.spelled (not_raises regular)
  have next_apart : NamesApart texts (first ++ [y]) := together.of_stems fun r member => by
    rcases List.mem_append.mp member with before | last
    · obtain ⟨p, among, rest⟩ := stems_of_mem_values apart (values ▸ before)
      refine ⟨p, ?_, rest⟩
      rcases List.mem_append.mp among with own | reply
      · exact List.mem_append_left _ own
      · rw [List.mem_singleton.mp reply]
        simp
    · rw [List.mem_singleton.mp last]
      exact stems_of_mem (by simp)
  have low : ∀ r ∈ first ++ [y], r.lowered texts = r := fun r member => by
    rcases List.mem_append.mp member with before | last
    · exact (person_of_mem_values apart (values ▸ before)).1
    · exact regular'.lower_case r last
  obtain ⟨both, done', _, listed'⟩ := merge_lists next_apart (spelled_of_low low) (not_raises regular')
  rw [persons_of_lists listed] at listed'
  exact ⟨first, both, done, done', listed'⟩

theorem commute_of_regular {x y : Participant K V} (apart : NamesApart texts (event ++ [x]))
    (apart' : NamesApart texts (event ++ [y])) (addressed : x.email ≠ none) (addressed' : y.email ≠ none)
    (different : x.email.map texts.lower ≠ y.email.map texts.lower) (regular : Regular texts event [x])
    (regular' : Regular texts event [y]) : Commute texts event x y := by
  obtain ⟨first, both, done, done_both, listed⟩ :=
    merge_second apart (namesApart_both apart apart' addressed addressed') regular regular'
  obtain ⟨second, both', done', done_both', listed'⟩ :=
    merge_second apart' (namesApart_both apart' apart addressed' addressed) regular' regular
  have persons_differ : x.identity texts ≠ y.identity texts := by
    obtain ⟨email, address⟩ := Option.ne_none_iff_exists'.mp addressed
    obtain ⟨email', address'⟩ := Option.ne_none_iff_exists'.mp addressed'
    rw [identity_of_address address, identity_of_address address']
    rw [address, address'] at different
    exact fun same => different (congrArg some (Sum.inl_injective (Option.some.inj same)))
  rw [answer_comm persons_differ] at listed
  exact ⟨first, both, second, both', done, done_both, done', done_both', listed.perm listed'⟩

/-- As long as nobody is named like an address, the participants merge once and for all, and in any order, if and
only if everybody has an address or a name, an address is always written alike and in lower case in the updates,
and who answers has a status. -/
theorem participants_merge_iff (texts : Texts V) (event update : List (Participant K V)) (x y : Participant K V)
    (addressed : x.email ≠ none) (addressed' : y.email ≠ none)
    (different : x.email.map texts.lower ≠ y.email.map texts.lower) (apart : NamesApart texts (event ++ update))
    (apart_x : NamesApart texts (event ++ [x])) (apart_y : NamesApart texts (event ++ [y])) :
    (Merged texts event update ∧ Merged texts event [x] ∧ Merged texts event [y] ∧ Commute texts event x y) ↔
      Regular texts event update ∧ Regular texts event [x] ∧ Regular texts event [y] := by
  constructor
  · rintro ⟨merges, merges_x, merges_y, _⟩
    exact ⟨regular_of_merged apart merges, regular_of_merged apart_x merges_x, regular_of_merged apart_y merges_y⟩
  · rintro ⟨regular, regular_x, regular_y⟩
    exact ⟨merged_of_regular apart regular, merged_of_regular apart_x regular_x, merged_of_regular apart_y regular_y,
      commute_of_regular apart_x apart_y addressed addressed' different regular_x regular_y⟩

/-- Letters are lowered one by one. -/
def letters : Texts Empty :=
  { lower := List.map Char.toLower
    lower_lower := fun text => by
      rw [List.map_map]
      exact List.map_congr_left fun c _ => c.toLower_toLower_eq_toLower
    blank := fun v => nomatch v }

/-- Someone with an address and an answer. -/
def guest (email : String) (status : String) : Participant Empty Empty :=
  { email := some email.toList, name := none, status := some (some status.toList), others := fun k => nomatch k }

omit [Fintype K] in
theorem namesApart_of_addressed (addressed : ∀ p ∈ people, p.email ≠ none) : NamesApart texts people :=
  fun p member none_given => absurd none_given (addressed p member)

/-- Two guests answer an invitation, and one of them twice. -/
theorem guests_merge :
    Merged letters [guest "ann@x.org" "noreply"] [guest "ann@x.org" "yes"] ∧
    Commute letters [guest "ann@x.org" "noreply"] (guest "ann@x.org" "yes") (guest "bob@x.org" "no") := by
  have addressed : ∀ p ∈ [guest "ann@x.org" "noreply", guest "ann@x.org" "yes", guest "bob@x.org" "no"],
      p.email ≠ none := by simp [guest]
  have regular : ∀ p ∈ [guest "ann@x.org" "yes", guest "bob@x.org" "no"],
      Regular letters [guest "ann@x.org" "noreply"] [p] := by
    intro p member
    have low : ∀ q ∈ [guest "ann@x.org" "noreply"] ++ [p], q.lowered letters = q := by
      rcases List.mem_pair.mp member with rfl | rfl <;> simp [guest, Participant.lowered, letters]
    refine ⟨?_, spelled_of_low low, fun q among => low q (List.mem_append_right _ among), ?_⟩
    · rcases List.mem_pair.mp member with rfl | rfl <;> simp [guest, Participant.key]
    · rcases List.mem_pair.mp member with rfl | rfl <;> simp [guest]
  have merged := (participants_merge_iff letters [guest "ann@x.org" "noreply"] [guest "ann@x.org" "yes"]
    (guest "ann@x.org" "yes") (guest "bob@x.org" "no") (addressed _ (by simp)) (addressed _ (by simp))
    (by simp [guest, letters]) (namesApart_of_addressed (by simp [guest])) (namesApart_of_addressed (by simp [guest]))
    (namesApart_of_addressed (by simp [guest]))).mpr
    ⟨regular _ (by simp), regular _ (by simp), regular _ (by simp)⟩
  exact ⟨merged.1, merged.2.2.2⟩

/-- An address that the event has with a capital letter gets a second entry. -/
theorem capital_letter_twice :
    ¬ ∀ (K V : Type) [Fintype K] (texts : Texts V) (event update : List (Participant K V)), Merged texts event update := by
  intro merges
  obtain ⟨merged, again, done, unique, _⟩ :=
    merges Empty Empty letters [guest "Bob@x.org" "noreply"] [guest "bob@x.org" "yes"]
  obtain ⟨rfl, _⟩ := partialParticipantsMerge_ok done
  exact absurd unique (by decide)

end SyncEngine.PartialMerge
