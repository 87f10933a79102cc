import SyncEngine.Models.CategorySessions

/-! When no two categories of a namespace come to have the same name. -/
namespace SyncEngine.Naming

variable {account : FolderNaming}

namespace Sessions
variable {s next : Sessions} {k : Nat} {row : Category}
open LockedRows

/-- Names stand for one row each, and ids are given once. -/
structure Sound (s : Sessions) : Prop where
  apart : Apart Category.id Category.displayName s.store
  below : ∀ k, ∀ row ∈ s.rows k, row.id < s.nextId
  gone : ∀ k, ∀ i ∈ (s.store.changes k).gone, i < s.nextId

theorem empty_sound : empty.Sound where
  apart := apart_start List.Pairwise.nil nofun
  below := by simp [rows, empty, Store.view, Store.changes, Changes.view, Changes.empty]
  gone := by simp [empty, Store.changes, Changes.empty]

theorem sees_own_or_committed {committed : List Category} {c : Changes Category}
    (mem : row ∈ c.view Category.id committed) : row ∈ c.own ∨ row ∈ committed :=
  (mem_view.mp mem).imp_right And.left

theorem Sound.committed (sound : s.Sound) : ∀ row ∈ s.store.committed, row.id < s.nextId := by
  intro row mem
  refine sound.below s.store.sessions.length row ?_
  simpa [rows, Store.view, Store.changes, view_empty] using mem

theorem Sound.own (sound : s.Sound) (k : Nat) : ∀ row ∈ (s.store.changes k).own, row.id < s.nextId :=
  fun row mem => sound.below k row (mem_view.mpr (.inl mem))

/-- Other changes of a session. -/
theorem Sound.set (sound : s.Sound) {c : Changes Category} {nextId : Nat} {checked : List (Nat × Request)}
    (inside : k < s.store.sessions.length) (later : s.nextId ≤ nextId)
    (apart : Apart Category.id Category.displayName (s.store.set k c))
    (own : ∀ row ∈ c.own, row.id < nextId) (gone : ∀ i ∈ c.gone, i < nextId) :
    Sound ⟨s.store.set k c, nextId, checked⟩ := by
  have changes (j : Nat) : (s.store.set k c).changes j = if j = k then c else s.store.changes j :=
    changes_set c inside
  refine ⟨apart, ?_, ?_⟩
  · intro j row mem
    rcases sees_own_or_committed mem with mem | committed
    · simp only [changes] at mem
      split at mem
      · exact own row mem
      · exact Nat.lt_of_lt_of_le (sound.own j row mem) later
    · exact Nat.lt_of_lt_of_le (sound.committed row committed) later
  · intro j i mem
    simp only [changes] at mem
    split at mem
    · exact gone i mem
    · exact Nat.lt_of_lt_of_le (sound.gone j i mem) later

theorem Sound.abort (sound : s.Sound) (k : Nat) : (s.abort k).Sound := by
  by_cases inside : k < s.store.sessions.length
  · exact sound.set inside (Nat.le_refl _) (sound.apart.abort k) nofun nofun
  · have same : s.store.abort k = s.store := by
      simp [Store.abort, Store.set, List.set_eq_of_length_le (Nat.le_of_not_lt inside)]
    refine ⟨sound.apart.abort k, ?_, ?_⟩
    · intro j row mem
      rw [rows, Sessions.abort, same] at mem
      exact sound.below j row mem
    · intro j i mem
      rw [Sessions.abort, same] at mem
      exact sound.gone j i mem

theorem Sound.commit (sound : s.Sound) (k : Nat) (checked : List (Nat × Request)) :
    Sound ⟨s.store.commit Category.id k, s.nextId, checked⟩ := by
  have own_gone (j : Nat) : (∀ row ∈ ((s.store.commit Category.id k).changes j).own, row.id < s.nextId) ∧
      ∀ i ∈ ((s.store.commit Category.id k).changes j).gone, i < s.nextId := by
    rw [changes_commit]
    split
    · exact ⟨nofun, nofun⟩
    · exact ⟨sound.own j, sound.gone j⟩
  refine ⟨sound.apart.commit k, ?_, fun j => (own_gone j).2⟩
  intro j row mem
  rcases sees_own_or_committed mem with own | committed
  · exact (own_gone j).1 row own
  · exact sound.below k row committed

theorem Sound.open (sound : s.Sound) : Sound { s with store := s.store.open } := by
  refine ⟨sound.apart.open, ?_, ?_⟩
  · intro j row mem
    refine sound.below j row ?_
    rwa [rows, Store.view, changes_open] at mem
  · intro j i mem
    rw [changes_open] at mem
    exact sound.gone j i mem

/-- A row is written whose name is its own, but for what the constraint refuses or waits for. -/
theorem Sound.put (sound : s.Sound) (inside : k < s.store.sessions.length)
    (applied : s.apply k (.put row) = some next) (stays : row.id ∉ (s.store.changes k).gone)
    (free : ∀ other ∈ s.rows k, other.displayName = row.displayName →
      other.id = row.id ∨ row.sameKey other = true)
    (unclaimed : s.store.locked Category.id k row.id = false → ∀ other ∈ s.store.uncommitted k,
      other.displayName = row.displayName → row.sameKey other = true) : next.Sound := by
  simp only [Sessions.apply] at applied
  split at applied
  next => cases applied
  next ready =>
    simp only [Bool.or_eq_true, not_or, Bool.not_eq_true] at ready
    obtain ⟨unlocked, no_rival⟩ := ready
    split at applied
    next =>
      cases applied
      exact sound.abort k
    next accepted =>
      cases applied
      rw [Bool.not_eq_true, List.any_eq_false] at accepted
      rw [List.any_eq_false] at no_rival
      refine sound.set inside (Nat.le_max_left ..) (sound.apart.put inside unlocked stays ?_ ?_) ?_ ?_
      · intro other mem same
        rcases free other mem same with is_row | key
        · exact is_row
        · by_contra different
          exact accepted other mem (by simp [different, key])
      · exact fun other mem same => no_rival other mem (unclaimed unlocked other mem same)
      · intro other mem
        rcases List.mem_append.mp mem with old | new
        · exact Nat.lt_of_lt_of_le (sound.own k other (List.mem_filter.mp old).1) (Nat.le_max_left ..)
        · rw [List.mem_singleton.mp new]
          exact Nat.lt_of_lt_of_le (Nat.lt_succ_self _) (Nat.le_max_right ..)
      · exact fun i mem => Nat.lt_of_lt_of_le (sound.gone k i mem) (Nat.le_max_left ..)

theorem Sound.remove (sound : s.Sound) (inside : k < s.store.sessions.length) {id : Nat}
    (mem : ∃ row ∈ s.rows k, row.id = id) (applied : s.apply k (.remove id) = some next) : next.Sound := by
  simp only [Sessions.apply] at applied
  split at applied
  next => cases applied
  next unlocked =>
    cases applied
    obtain ⟨row, seen, rfl⟩ := mem
    rw [Bool.not_eq_true] at unlocked
    refine sound.set inside (Nat.le_refl _) (sound.apart.remove inside unlocked) ?_ ?_
    · exact fun other own => sound.own k other (List.mem_filter.mp own).1
    · intro i mem
      rcases List.mem_append.mp mem with old | new
      · exact sound.gone k i old
      · rw [List.mem_singleton.mp new]
        exact sound.below k row seen

/-- A row that keeps its name is written. -/
theorem Sound.update (sound : s.Sound) (inside : k < s.store.sessions.length) {old : Category}
    (seen : old ∈ s.rows k) (same_id : row.id = old.id) (same_name : row.displayName = old.displayName)
    (applied : s.apply k (.put row) = some next) : next.Sound := by
  refine sound.put inside applied (same_id ▸ sound.apart.stays seen) ?_ ?_
  · intro other mem same
    refine .inl ?_
    rw [same_id]
    exact sound.apart.labels k other mem old seen (same.trans same_name)
  · intro unlocked other mem same
    exact absurd same (sound.apart.unclaimed unlocked seen same_id.symm same_name.symm other mem)

theorem updateRow_spec {rows : List Category} {id : Nat} {change : Category → Category}
    {written : Change} (updates : updateRow rows id change = .ok (some written)) :
    ∃ old ∈ rows, old.id = id ∧ written = .put (change old) := by
  unfold updateRow at updates
  split at updates
  next old found =>
    cases updates
    have is_id := List.find?_some found
    exact ⟨old, List.mem_of_find?_eq_some found, of_decide_eq_true is_id, rfl⟩
  next => cases updates

/-- A row is renamed. -/
theorem Sound.rename (sound : s.Sound) (inside : k < s.store.sessions.length) {id : Nat} {name : Unicode}
    {written : Change}
    (renames : updateRow (s.rows k) id ({ · with displayName := storedName name }) = .ok (some written))
    (free : s.nameFree k id name = true) (applied : s.apply k written = some next) : next.Sound := by
  obtain ⟨old, seen, is_id, rfl⟩ := updateRow_spec renames
  have free_old := List.all_eq_true.mp free old seen
  simp only [is_id, ne_eq, not_true_eq_false, decide_false, Bool.false_or, Bool.and_eq_true] at free_old
  obtain ⟨unclaimed, others⟩ := free_old
  have stays := sound.apart.stays seen
  refine sound.put inside applied stays ?_ ?_
  · intro other mem same
    have here := List.all_eq_true.mp others other mem
    simpa [same, is_id] using here
  · intro _ other mem same
    have elsewhere := List.all_eq_true.mp unclaimed other mem
    simpa [same, is_id] using elsewhere

/-- A category is found or gets a row. -/
theorem Sound.findOrCreate (sound : s.Sound) (inside : k < s.store.sessions.length) {name : String}
    {displayName : Unicode} {type_ : CategoryType} {category : Category} {written : Change}
    (finds : findOrCreate (s.rows k) s.nextId name displayName type_ = .ok (category, some written))
    (calm : s.newName k name displayName type_ = true) (applied : s.apply k written = some next) :
    next.Sound := by
  unfold Naming.findOrCreate at finds
  split at finds
  next absent =>
    cases finds
    have none_named : ∀ other ∈ s.rows k, other.displayName ≠ storedName displayName := by
      simpa [List.filter_eq_nil_iff] using absent
    refine sound.put inside applied ?_ ?_ ?_
    · exact fun gone => absurd (sound.gone k _ gone) (Nat.lt_irrefl _)
    · exact fun other mem same => absurd same (none_named other mem)
    · intro _ other mem same
      unfold newName at calm
      rw [Bool.or_eq_true] at calm
      rcases calm with named | unclaimed
      · obtain ⟨other, mem, same⟩ := List.any_eq_true.mp named
        exact absurd (of_decide_eq_true same) (none_named other mem)
      · have elsewhere := List.all_eq_true.mp unclaimed other mem
        simpa [same] using elsewhere
  next row found =>
    have seen : row ∈ s.rows k := by
      have mem : row ∈ (s.rows k).filter (·.displayName = storedName displayName) := by simp [found]
      exact (List.mem_filter.mp mem).1
    split at finds
    next =>
      cases finds
      refine sound.update inside seen ?_ ?_ applied <;> rfl
    next => cases finds
  next => cases finds

theorem findOrCreate_live {rows : List Category} {nextId : Nat} {name : String} {displayName : Unicode}
    {type_ : CategoryType} {found : Category × Option Change}
    (live : ∀ row ∈ rows, row.displayName = storedName displayName → row.deletedAt = EPOCH)
    (finds : Naming.findOrCreate rows nextId name displayName type_ = .ok found) :
    found.1.deletedAt = EPOCH := by
  unfold Naming.findOrCreate at finds
  split at finds
  next =>
    cases finds
    rfl
  next row one =>
    have mem : row ∈ rows.filter (·.displayName = storedName displayName) := by simp [one]
    obtain ⟨seen, named⟩ := List.mem_filter.mp mem
    have is_live := live row seen (of_decide_eq_true named)
    split at finds <;>
    · cases finds
      exact is_live
  next => cases finds

/-- Whatever a session does to the categories. -/
theorem Sound.act (sound : s.Sound) {a : Act} (inside : k < s.store.sessions.length)
    (calm : s.calm account (.act k a) = true) (acted : s.act account k a = some next) : next.Sound := by
  unfold Sessions.act at acted
  split at acted
  next =>
    cases acted
    exact sound.abort k
  next =>
    cases acted
    exact sound
  next written performs =>
    cases a with
    | check => simp [Act.perform] at performs
    | carryOut request optimisticUpdates now =>
      cases request with
      | create displayName =>
        simp only [Act.perform] at performs
        cases named : account.imapName displayName with
        | none => simp [named] at performs
        | some name =>
          simp only [Sessions.calm, named, Option.all_some, Bool.and_eq_true] at calm
          obtain ⟨new, live⟩ := calm
          simp only [named] at performs
          cases finds : Naming.findOrCreate (s.rows k) s.nextId "" name account.categoryType with
          | error e => simp [finds, bind, Except.bind] at performs
          | ok found =>
            obtain ⟨category, change⟩ := found
            have is_live : category.deletedAt = EPOCH :=
              findOrCreate_live (by simpa [or_iff_not_imp_left] using live) finds
            simp only [finds, bind, Except.bind, is_live, gt_iff_lt, lt_irrefl, if_false] at performs
            cases performs
            exact sound.findOrCreate inside finds new acted
      | update id displayName =>
        simp only [Act.perform] at performs
        cases named : account.imapName displayName with
        | none => simp [named] at performs
        | some name =>
          simp only [Sessions.calm, named, Option.all_some, Bool.or_eq_true] at calm
          simp only [named] at performs
          split at performs
          next optimistic => exact sound.rename inside performs (by simpa [optimistic] using calm) acted
          next => cases performs
      | delete id containsMessages =>
        simp only [Act.perform] at performs
        split at performs
        next =>
          obtain ⟨old, seen, -, rfl⟩ := updateRow_spec performs
          refine sound.update inside seen ?_ ?_ acted <;> rfl
        next => cases performs
    | remoteUpdateFolder id oldName newName =>
      simp only [Act.perform] at performs
      cases named : account.imapName newName with
      | none => simp [named] at performs
      | some name =>
        simp only [Sessions.calm, named, Option.all_some] at calm
        simp only [named] at performs
        split at performs
        next => exact sound.rename inside performs calm acted
        next => cases performs
    | remoteDelete id =>
      simp only [Act.perform] at performs
      split at performs
      next present =>
        cases performs
        obtain ⟨row, seen, is_id⟩ := List.any_eq_true.mp present
        exact sound.remove inside ⟨row, seen, of_decide_eq_true is_id⟩ acted
      next => cases performs
    | findOrCreate name displayName type_ =>
      simp only [Act.perform] at performs
      cases finds : Naming.findOrCreate (s.rows k) s.nextId name displayName type_ with
      | error e => simp [finds, Except.map] at performs
      | ok found =>
        simp only [finds, Except.map, Except.ok.injEq] at performs
        obtain ⟨category, change⟩ := found
        cases performs
        exact sound.findOrCreate inside finds calm acted
    | renameCategory id displayName => exact sound.rename inside performs calm acted
    | setName id name | setDeletedAt id deletedAt =>
      obtain ⟨old, seen, -, rfl⟩ := updateRow_spec performs
      refine sound.update inside seen ?_ ?_ acted <;> rfl

theorem Sound.step (sound : s.Sound) {step : Step} (calm : s.calm account step = true)
    (stepped : s.step account step = some next) : next.Sound := by
  cases step with
  | «open» =>
    cases stepped
    exact sound.open
  | act k a =>
    simp only [Sessions.step] at stepped
    split at stepped
    next inside =>
      split at stepped
      next request =>
        split at stepped
        next =>
          cases stepped
          exact ⟨sound.apart, sound.below, sound.gone⟩
        next =>
          cases stepped
          exact sound.abort k
      next =>
        split at stepped
        next => exact sound.act inside calm stepped
        next => cases stepped
      next => exact sound.act inside calm stepped
    next => cases stepped
  | commit k =>
    cases stepped
    exact sound.commit k _
  | abort k =>
    cases stepped
    exact sound.abort k

theorem Sound.run {steps : List Step} (sound : s.Sound) (calm : s.allCalm account steps = true)
    (ran : s.run account steps = some next) : next.Sound := by
  induction steps generalizing s with
  | nil =>
    cases ran
    exact sound
  | cons step steps ih =>
    obtain ⟨between, stepped, ran⟩ := Option.bind_eq_some_iff.mp ran
    simp only [Sessions.allCalm, stepped, Option.all_some, Bool.and_eq_true] at calm
    exact ih (sound.step calm.1 stepped) calm.2 ran

/-- In every run of calm steps, whatever the sessions do and in whichever order they commit,
`find_or_create` finds one row at most in each of them. -/
theorem find_or_create_finds_one (account : FolderNaming) (steps : List Step)
    (calm : empty.allCalm account steps = true) (ran : empty.run account steps = some s) (k : Nat)
    (displayName : Unicode) :
    ((s.rows k).filter fun row => row.displayName = storedName displayName).length ≤ 1 :=
  (empty_sound.run calm ran).apart.filter_length k (storedName displayName)

/-- A Gmail account; names are compared as they are. -/
def gmail : FolderNaming := ⟨.label, false, [], [], fun name => name⟩

/-- A label is created while the folders are synchronised, renamed and deleted. -/
def oneLabel : List Step :=
  [.open, .open, .act 0 (.check (.create ['x'])), .act 1 (.findOrCreate "inbox" ['i'] .label),
    .act 0 (.carryOut (.create ['x']) true 0), .commit 1, .commit 0,
    .act 0 (.check (.update 2 ['y'])), .act 0 (.carryOut (.update 2 ['y']) true 0), .commit 0,
    .act 0 (.check (.delete 2 false)), .act 0 (.carryOut (.delete 2 false) true 5), .commit 0]

theorem one_label_found : ∃ s, empty.run gmail oneLabel = some s ∧
    ((s.rows 1).filter fun row => row.displayName = storedName ['y']).length ≤ 1 :=
  ⟨_, rfl, find_or_create_finds_one gmail oneLabel (by decide) rfl 1 ['y']⟩

/-- A label is created, deleted and created again before its syncback has come to anything: the new
row stands beside the one that is marked as deleted, and the lookup raises. -/
theorem label_created_again : ¬∀ (account : FolderNaming) (steps : List Step) (s : Sessions),
    empty.run account steps = some s → ∀ k displayName,
      ((s.rows k).filter fun row => row.displayName = storedName displayName).length ≤ 1 := by
  intro one
  have found := one gmail
    [.open, .act 0 (.check (.create ['x'])), .act 0 (.carryOut (.create ['x']) true 0), .commit 0,
      .act 0 (.check (.delete 1 false)), .act 0 (.carryOut (.delete 1 false) true 5), .commit 0,
      .act 0 (.check (.create ['x'])), .act 0 (.carryOut (.create ['x']) true 6), .commit 0]
    _ rfl 0 ['x']
  exact absurd found (by decide)

end Sessions

end SyncEngine.Naming
