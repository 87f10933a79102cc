import SyncEngine.Mailsync.LabelRefresh

/-! The labels of one UID, made to match what the server lists. What is to be added and removed is found by
name and role, and a row without a role has the empty text where the list has nothing. -/
namespace SyncEngine
namespace Naming
namespace UidLabels
open Naming.Gmail

/-! ## The code -/

/-- A name and a `canonical_name`. -/
abbrev Key := Unicode × Option String

inductive Error where
  | multipleResultsFound
  | integrityError
deriving DecidableEq, Repr

/-- Without autoflush, queries see what was `flushed` before, and new rows are only in the session. -/
def findOrCreateCategory (flushed session : Tables) (name : String) (displayName : Unicode) :
    Except Error (Tables × Nat) :=
  match flushed.categories.filter (·.displayName = storedName displayName) with
  | [] =>
    let row := { id := session.nextId, name, displayName := storedName displayName, type_ := .label
                 deletedAt := EPOCH }
    .ok ({ session with categories := session.categories ++ [row], nextId := session.nextId + 1 },
      session.nextId)
  | [row] =>
    .ok (session.updateCategory row.id fun row => if row.name = "" then { row with name } else row, row.id)
  | _ => .error .multipleResultsFound

/-- `Label.find_or_create` -/
def findOrCreate (flushed session : Tables) (key : Key) : Except Error (Tables × Label) :=
  match flushed.label? key.1 key.2 with
  | some row => .ok (session, row)
  | none => do
    let (session, categoryId) ← findOrCreateCategory flushed session (key.2.getD "") key.1
    let row := { id := session.nextId, name := storedName key.1, canonicalName := key.2.getD "", categoryId
                 deletedAt := none }
    return ({ session with labels := session.labels ++ [row], nextId := session.nextId + 1 }, row)

def keyOf (label : Label) : Key := (label.name, some label.canonicalName)

/-- `remote_labels` -/
def remote (newLabels : List Unicode) : List Key := (newLabels.filterMap LabelRefresh.remoteLabel).dedup

def removed (attached : List Label) (newLabels : List Unicode) : List Label :=
  attached.filter (keyOf · ∉ remote newLabels)

def kept (attached : List Label) (newLabels : List Unicode) : List Label :=
  attached.filter (· ∉ removed attached newLabels)

def added (attached : List Label) (newLabels : List Unicode) : List Key :=
  (remote newLabels).filter (· ∉ attached.map keyOf)

def addLabel (flushed : Tables) (s : Tables × List Label) (key : Key) : Except Error (Tables × List Label) := do
  let (session, label) ← findOrCreate flushed s.1 key
  return (session, if label ∈ s.2 then s.2 else s.2 ++ [label])

/-- Name and role are unique. A category that breaks the constraint of its table comes with such a label. -/
def LabelsUnique (t : Tables) : Prop :=
  t.labels.Pairwise fun a b => ¬ (a.name = b.name ∧ a.canonicalName = b.canonicalName)

instance : DecidablePred LabelsUnique := fun _ => inferInstanceAs (Decidable (List.Pairwise _ _))

def flush (session : Tables) : Except Error Tables :=
  if LabelsUnique session then .ok session else .error .integrityError

/-- `ImapUid.update_labels`; the result is the tables and the labels attached. -/
def updateLabels (t : Tables) (attached : List Label) (newLabels : List Unicode) :
    Except Error (Tables × List Label) := do
  let (session, labels) ← (added attached newLabels).foldlM (addLabel t) (t, kept attached newLabels)
  return (← flush session, labels)

/-! ## What it is for -/

/-- The labels attached are the rows found for the entries, and a second call has nothing to do. -/
def Settles (t : Tables) (attached : List Label) (newLabels : List Unicode) : Prop :=
  ∃ later labels, updateLabels t attached newLabels = .ok (later, labels) ∧
    (∀ label, label ∈ labels ↔ ∃ key ∈ remote newLabels, later.label? key.1 key.2 = some label) ∧
    removed labels newLabels = [] ∧ added labels newLabels = []

/-- What the database holds of a UID and its labels. -/
structure Stored (t : Tables) (attached : List Label) : Prop where
  rows : ∀ label ∈ attached, label ∈ t.labels
  unique : LabelsUnique t

/-- A system label is named like its role, by the row that has the role or by one that can be created. -/
def Named (t : Tables) (key : Key) : Prop :=
  ∃ role, key = (role.toList, some role) ∧ (∀ row, t.label? key.1 key.2 = some row → row.name = role.toList) ∧
    (t.label? key.1 key.2 = none → (t.categories.filter (·.displayName = role.toList)).length ≤ 1)

/-! ## Keys -/

/-- A role comes with itself as the name, which no column cuts. -/
theorem role_of_remote {newLabels : List Unicode} {role : String}
    (member : (name, some role) ∈ remote newLabels) :
    name = role.toList ∧ role ≠ "" ∧ storedName role.toList = role.toList := by
  obtain ⟨label, _, same⟩ := List.mem_filterMap.mp (List.mem_dedup.mp member)
  unfold LabelRefresh.remoteLabel at same
  split at same
  · cases same
  · split at same
    · rename_i role' found
      cases same
      have roles : ∀ entry ∈ SyncEngine.ImapUid.categoryMap, entry.2 ≠ "" ∧
          storedName entry.2.toList = entry.2.toList := by decide
      obtain ⟨_, _, listed, _⟩ := List.lookup_eq_some_iff.mp found
      exact ⟨rfl, roles (String.ofList label, role) (by simp [listed])⟩
    · cases same

theorem label?_role {t : Tables} (roled : role ≠ "") (found : t.label? name (some role) = some row) :
    row.canonicalName = role := by
  rw [Tables.label?, if_pos (by simpa using roled)] at found
  simpa using List.find?_some found

/-- With a role that no row has. -/
theorem label?_role_none {t : Tables} (roled : role ≠ "") :
    t.label? name (some role) = none ↔ ∀ row ∈ t.labels, row.canonicalName ≠ role := by
  rw [Tables.label?, if_pos (by simpa using roled), List.find?_eq_none]
  simp

theorem label?_of_prefix {t later : Tables} (same : later.labels = t.labels ++ created)
    (found : t.label? name role = some row) : later.label? name role = some row := by
  unfold Tables.label? at found ⊢
  rw [same]
  split
  · rename_i roled
    rw [if_pos roled] at found
    rw [List.find?_append, found, Option.some_or]
  · rename_i plain
    rw [if_neg plain] at found
    rw [List.find?_append, found, Option.some_or]

/-! ## One label -/

theorem findOrCreateCategory_ok (flushed session : Tables) (name : String) (displayName : Unicode) :
    (∃ result, findOrCreateCategory flushed session name displayName = .ok result ∧
      result.1.labels = session.labels) ∧
        (flushed.categories.filter (·.displayName = storedName displayName)).length ≤ 1 ∨
    findOrCreateCategory flushed session name displayName = .error .multipleResultsFound ∧
      ¬ (flushed.categories.filter (·.displayName = storedName displayName)).length ≤ 1 := by
  unfold findOrCreateCategory
  split
  · rename_i empty
    exact .inl ⟨⟨_, rfl, rfl⟩, by simp [empty]⟩
  · rename_i row single
    exact .inl ⟨⟨_, rfl, rfl⟩, by simp [single]⟩
  · rename_i neither several
    refine .inr ⟨rfl, fun few => ?_⟩
    cases rows : flushed.categories.filter (·.displayName = storedName displayName) with
    | nil => exact neither rows
    | cons first rest =>
      cases rest with
      | nil => exact several first rows
      | cons second rest =>
        rw [rows] at few
        simp at few

/-- What `find_or_create` returns, and what it leaves in the session. -/
inductive Found (flushed session : Tables) (key : Key) (later : Tables) (label : Label) : Prop where
  | found (row : flushed.label? key.1 key.2 = some label) (same : later = session)
  | created (absent : flushed.label? key.1 key.2 = none)
      (few : (flushed.categories.filter (·.displayName = storedName key.1)).length ≤ 1)
      (labels : later.labels = session.labels ++ [label]) (name : label.name = storedName key.1)
      (role : label.canonicalName = key.2.getD "")

theorem found_of_ok {flushed session : Tables} (ok : findOrCreate flushed session key = .ok result) :
    Found flushed session key result.1 result.2 := by
  unfold findOrCreate at ok
  split at ok
  · rename_i row found
    cases ok
    exact .found found rfl
  · rename_i absent
    rcases findOrCreateCategory_ok flushed session (key.2.getD "") key.1 with
      ⟨⟨⟨tables, id⟩, category, same⟩, few⟩ | ⟨category, _⟩
    · rw [category] at ok
      cases ok
      exact .created absent few (congrArg (· ++ [_]) same) rfl rfl
    · rw [category] at ok
      cases ok

theorem ok_of_few {flushed session : Tables}
    (few : flushed.label? key.1 key.2 = none →
      (flushed.categories.filter (·.displayName = storedName key.1)).length ≤ 1) :
    ∃ result, findOrCreate flushed session key = .ok result := by
  unfold findOrCreate
  split
  · exact ⟨_, rfl⟩
  · rename_i absent
    rcases findOrCreateCategory_ok flushed session (key.2.getD "") key.1 with
      ⟨⟨⟨tables, id⟩, category, _⟩, _⟩ | ⟨_, many⟩
    · rw [category]
      exact ⟨_, rfl⟩
    · exact absurd (few absent) many

/-! ## All labels -/

theorem addLabel_ok {flushed : Tables} {s s' : Tables × List Label} (ok : addLabel flushed s key = .ok s') :
    ∃ label, Found flushed s.1 key s'.1 label ∧ ∀ other, other ∈ s'.2 ↔ other ∈ s.2 ∨ other = label := by
  unfold addLabel at ok
  cases found : findOrCreate flushed s.1 key with
  | error => simp [found, bind, Except.bind] at ok
  | ok result =>
    simp only [found, bind, Except.bind, pure, Except.pure, Except.ok.injEq] at ok
    subst ok
    refine ⟨result.2, found_of_ok found, fun other => ?_⟩
    dsimp only
    split
    · rename_i known
      exact ⟨.inl, fun either => either.elim id fun same => same ▸ known⟩
    · simp

theorem addLabel_of_few {flushed : Tables} (s : Tables × List Label)
    (few : flushed.label? key.1 key.2 = none →
      (flushed.categories.filter (·.displayName = storedName key.1)).length ≤ 1) :
    ∃ s', addLabel flushed s key = .ok s' := by
  obtain ⟨result, found⟩ : ∃ result, findOrCreate flushed s.1 key = .ok result := ok_of_few few
  refine ⟨(result.1, if result.2 ∈ s.2 then s.2 else s.2 ++ [result.2]), ?_⟩
  simp [addLabel, found, bind, Except.bind, pure, Except.pure]

/-- The loop only adds rows, and each of its keys was found or could be created. -/
theorem loop_ok {flushed : Tables} {keys : List Key} {s s' : Tables × List Label}
    (ok : keys.foldlM (addLabel flushed) s = .ok s') :
    (∃ created, s'.1.labels = s.1.labels ++ created) ∧ ∀ key ∈ keys,
      flushed.label? key.1 key.2 = none →
        (flushed.categories.filter (·.displayName = storedName key.1)).length ≤ 1 := by
  induction keys generalizing s with
  | nil =>
    cases ok
    exact ⟨⟨[], (List.append_nil _).symm⟩, nofun⟩
  | cons key rest ih =>
    rw [List.foldlM_cons] at ok
    cases first : addLabel flushed s key with
    | error => simp [first, bind, Except.bind] at ok
    | ok middle =>
      rw [first] at ok
      obtain ⟨⟨created, rows⟩, later⟩ := ih ok
      obtain ⟨label, found, _⟩ := addLabel_ok first
      constructor
      · cases found with
        | found _ same => exact ⟨created, same ▸ rows⟩
        | created _ _ labels => exact ⟨label :: created, by simp [rows, labels]⟩
      · refine List.forall_mem_cons.mpr ⟨fun absent => ?_, later⟩
        cases found with
        | found row => simp [absent] at row
        | created _ few => exact few

/-- The system labels added so far. -/
structure Progress (t : Tables) (start : List Label) (done : List Key) (s : Tables × List Label) : Prop where
  rows : ∃ created, s.1.labels = t.labels ++ created ∧
    ∀ label ∈ created, ∃ key ∈ done, key.2 = some label.canonicalName
  unique : LabelsUnique s.1
  found : ∀ key ∈ done, ∃ label, s.1.label? key.1 key.2 = some label ∧ keyOf label = key
  attached : ∀ label, label ∈ s.2 ↔ label ∈ start ∨ ∃ key ∈ done, s.1.label? key.1 key.2 = some label

theorem exists_concat {p : Key → Prop} {done : List Key} :
    (∃ key ∈ done ++ [last], p key) ↔ (∃ key ∈ done, p key) ∨ p last := by
  simp [or_and_right, exists_or]

theorem Progress.step {t : Tables} {s : Tables × List Label} (progress : Progress t start done s)
    (roled : role ≠ "") (stored : storedName role.toList = role.toList)
    (fresh : ∀ key ∈ done, key.2 ≠ some role) (named : Named t (role.toList, some role)) :
    ∃ s', addLabel t s (role.toList, some role) = .ok s' ∧
      Progress t start (done ++ [(role.toList, some role)]) s' := by
  obtain ⟨other, sameKey, name, few⟩ := named
  obtain rfl : role = other := Option.some.inj (Prod.mk.inj sameKey).2
  obtain ⟨s', ok⟩ : ∃ s', addLabel t s (role.toList, some role) = .ok s' := by
    refine addLabel_of_few s fun absent => ?_
    rw [stored]
    exact few absent
  obtain ⟨label, found, attached⟩ := addLabel_ok ok
  obtain ⟨created, rows, roles⟩ := progress.rows
  refine ⟨s', ok, ?_⟩
  cases found with
  | found row same =>
    have here : s.1.label? role.toList (some role) = some label := label?_of_prefix rows row
    refine ⟨⟨created, by rw [same, rows], fun label member => ?_⟩, same ▸ progress.unique, ?_, ?_⟩
    · obtain ⟨key, listed, role⟩ := roles label member
      exact ⟨key, List.mem_append_left _ listed, role⟩
    · rw [same]
      refine List.forall_mem_append.mpr ⟨progress.found, List.forall_mem_singleton.mpr ⟨label, here, ?_⟩⟩
      rw [keyOf, name label row, label?_role roled row]
    · intro other
      rw [attached, progress.attached, same, exists_concat, here, Option.some.injEq, or_assoc,
        eq_comm (a := label)]
  | created absent _ labels labelName labelRole =>
    have labelRole : label.canonicalName = role := labelRole
    have labelName : label.name = role.toList := labelName.trans stored
    have others : ∀ row ∈ s.1.labels, row.canonicalName ≠ role := by
      intro row member
      rcases List.mem_append.mp (rows ▸ member) with before | added
      · exact (label?_role_none roled).mp absent row before
      · obtain ⟨key, listed, same⟩ := roles row added
        rintro rfl
        exact fresh key listed same
    have here : s'.1.label? role.toList (some role) = some label :=
      label?_own labels ((label?_role_none roled).mpr others) labelRole (labelName.trans stored.symm)
    have still : ∀ key ∈ done, s'.1.label? key.1 key.2 = s.1.label? key.1 key.2 := by
      intro key listed
      obtain ⟨row, found, _⟩ := progress.found key listed
      rw [found, label?_of_prefix labels found]
    refine ⟨⟨created ++ [label], by rw [labels, rows, List.append_assoc], ?_⟩, ?_, ?_, ?_⟩
    · refine List.forall_mem_append.mpr ⟨fun row member => ?_, List.forall_mem_singleton.mpr ?_⟩
      · obtain ⟨key, listed, same⟩ := roles row member
        exact ⟨key, List.mem_append_left _ listed, same⟩
      · exact ⟨_, List.mem_append_right _ (List.mem_singleton_self _), by rw [labelRole]⟩
    · rw [LabelsUnique, labels, List.pairwise_append]
      refine ⟨progress.unique, List.pairwise_singleton _ _, fun row member new listed => ?_⟩
      obtain rfl := List.mem_singleton.mp listed
      exact fun both => others row member (both.2.trans labelRole)
    · refine List.forall_mem_append.mpr ⟨fun key listed => ?_, List.forall_mem_singleton.mpr ?_⟩
      · rw [still key listed]
        exact progress.found key listed
      · exact ⟨label, here, by rw [keyOf, labelName, labelRole]⟩
    · intro other
      have earlier : (∃ key ∈ done, s'.1.label? key.1 key.2 = some other) ↔
          ∃ key ∈ done, s.1.label? key.1 key.2 = some other :=
        exists_congr fun key => and_congr_right fun listed => by rw [still key listed]
      rw [attached, progress.attached, exists_concat, earlier, here, Option.some.injEq, or_assoc,
        eq_comm (a := label)]

theorem Progress.loop {t : Tables} {keys : List Key} {s : Tables × List Label}
    (progress : Progress t start done s) (system : ∀ key ∈ keys, ∃ role, key = (role.toList, some role) ∧
      role ≠ "" ∧ storedName role.toList = role.toList ∧ Named t key)
    (fresh : ∀ key ∈ keys, ∀ other ∈ done, other.2 ≠ key.2)
    (distinct : keys.Pairwise fun a b => a.2 ≠ b.2) :
    ∃ s', keys.foldlM (addLabel t) s = .ok s' ∧ Progress t start (done ++ keys) s' := by
  induction keys generalizing s done with
  | nil => exact ⟨s, rfl, by simpa using progress⟩
  | cons key rest ih =>
    obtain ⟨first, others⟩ := List.forall_mem_cons.mp system
    obtain ⟨freshKey, freshRest⟩ := List.forall_mem_cons.mp fresh
    obtain ⟨apart, distinctRest⟩ := List.pairwise_cons.mp distinct
    obtain ⟨role, rfl, roled, stored, named⟩ := first
    obtain ⟨middle, ok, further⟩ := progress.step roled stored freshKey named
    obtain ⟨s', loop, all⟩ := ih further others (fun key listed other before => by
      rcases List.mem_append.mp before with earlier | last
      · exact freshRest key listed other earlier
      · obtain rfl := List.mem_singleton.mp last
        exact apart key listed) distinctRest
    refine ⟨s', ?_, by simpa using all⟩
    rw [List.foldlM_cons, ok]
    exact loop

/-! ## When a second call has nothing to do -/

theorem updateLabels_eq (t : Tables) (attached : List Label) (newLabels : List Unicode) :
    updateLabels t attached newLabels =
      ((added attached newLabels).foldlM (addLabel t) (t, kept attached newLabels)).bind fun s =>
        if LabelsUnique s.1 then .ok s else .error .integrityError := by
  unfold updateLabels flush
  refine congrArg _ (funext fun (session, labels) => ?_)
  by_cases unique : LabelsUnique session
  · simp [unique, bind, Except.bind, pure, Except.pure]
  · simp [unique, bind, Except.bind]

theorem updateLabels_ok {t : Tables} : updateLabels t attached newLabels = .ok s ↔
    (added attached newLabels).foldlM (addLabel t) (t, kept attached newLabels) = .ok s ∧
      LabelsUnique s.1 := by
  rw [updateLabels_eq]
  cases (added attached newLabels).foldlM (addLabel t) (t, kept attached newLabels) with
  | error => simp [Except.bind]
  | ok s' =>
    by_cases unique : LabelsUnique s'.1
    · simp only [Except.bind, if_pos unique, Except.ok.injEq]
      exact ⟨fun same => ⟨same, same ▸ unique⟩, And.left⟩
    · simp only [Except.bind, if_neg unique, Except.ok.injEq, reduceCtorEq, false_iff, not_and]
      rintro rfl
      exact unique

theorem named_of_settles {t : Tables} (stored : Stored t attached) (settles : Settles t attached newLabels) :
    ∀ key ∈ remote newLabels, Named t key := by
  obtain ⟨later, labels, ok, rows, nothingRemoved, nothingAdded⟩ := settles
  obtain ⟨⟨created, prefix_⟩, few⟩ := loop_ok (updateLabels_ok.mp ok).1
  rintro ⟨name, role⟩ listed
  have known : (name, role) ∈ labels.map keyOf := by
    by_contra unknown
    have : (name, role) ∈ added labels newLabels := List.mem_filter.mpr ⟨listed, decide_eq_true unknown⟩
    rw [nothingAdded] at this
    cases this
  obtain ⟨label, _, same⟩ := List.mem_map.mp known
  obtain ⟨-, rfl⟩ := Prod.mk.inj same
  obtain ⟨rfl, roled, column⟩ := role_of_remote listed
  refine ⟨label.canonicalName, rfl, fun row found => ?_, fun absent => ?_⟩
  · have attachedRow : row ∈ labels := (rows row).mpr ⟨_, listed, label?_of_prefix prefix_ found⟩
    have listedRow : keyOf row ∈ remote newLabels := by
      by_contra unlisted
      have : row ∈ removed labels newLabels := List.mem_filter.mpr ⟨attachedRow, decide_eq_true unlisted⟩
      rw [nothingRemoved] at this
      cases this
    rw [(role_of_remote listedRow).1, label?_role roled found]
  · have unattached : (label.canonicalName.toList, some label.canonicalName) ∉ attached.map keyOf := by
      intro known
      obtain ⟨row, member, same⟩ := List.mem_map.mp known
      have role : row.canonicalName = label.canonicalName := Option.some.inj (Prod.mk.inj same).2
      exact (label?_role_none roled).mp absent row (stored.rows row member) role
    have count := few _ (List.mem_filter.mpr ⟨listed, decide_eq_true unattached⟩) absent
    rwa [column] at count

theorem eq_of_unique {t : Tables} (unique : LabelsUnique t) (one : a ∈ t.labels) (other : b ∈ t.labels)
    (name : a.name = b.name) (role : a.canonicalName = b.canonicalName) : a = b := by
  have : Std.Symm fun a b : Label => ¬ (a.name = b.name ∧ a.canonicalName = b.canonicalName) :=
    ⟨fun _ _ differ same => differ ⟨same.1.symm, same.2.symm⟩⟩
  by_contra apart
  exact unique.forall one other apart ⟨name, role⟩

theorem mem_kept : label ∈ kept attached newLabels ↔
    label ∈ attached ∧ keyOf label ∈ remote newLabels := by
  simp only [kept, removed, List.mem_filter, decide_eq_true_eq, not_and, not_not]
  exact and_congr_right fun member => ⟨fun listed => listed member, fun listed _ => listed⟩

theorem settles_of_named {t : Tables} (stored : Stored t attached)
    (named : ∀ key ∈ remote newLabels, Named t key) : Settles t attached newLabels := by
  have system : ∀ key ∈ remote newLabels, ∃ role, key = (role.toList, some role) ∧ role ≠ "" ∧
      storedName role.toList = role.toList ∧ Named t key := by
    intro key listed
    obtain ⟨role, rfl, rest⟩ := named key listed
    obtain ⟨_, roled, column⟩ := role_of_remote listed
    exact ⟨role, rfl, roled, column, role, rfl, rest⟩
  have distinct : (remote newLabels).Pairwise fun a b => a.2 ≠ b.2 := by
    refine (List.nodup_dedup _).imp_of_mem fun first second differ same => ?_
    obtain ⟨role, rfl, _⟩ := system _ first
    obtain ⟨other, rfl, _⟩ := system _ second
    cases Option.some.inj same
    exact differ rfl
  have begun : Progress t (kept attached newLabels) [] (t, kept attached newLabels) :=
    ⟨⟨[], (List.append_nil _).symm, nofun⟩, stored.unique, nofun, fun label => by simp⟩
  have sublist : ∀ key ∈ added attached newLabels, key ∈ remote newLabels := fun key member =>
    (List.mem_filter.mp member).1
  obtain ⟨⟨later, labels⟩, loop, progress⟩ := begun.loop (fun key member => system key (sublist key member))
    (fun _ _ _ none => nomatch none) (distinct.filter _)
  rw [List.nil_append] at progress
  obtain ⟨created, rows, _⟩ := progress.rows
  have old : ∀ label ∈ attached, keyOf label ∈ remote newLabels →
      later.label? label.name (some label.canonicalName) = some label := by
    intro label member listed
    obtain ⟨name, roled, _⟩ := role_of_remote listed
    refine label?_of_prefix rows ?_
    obtain ⟨role, same, rowName, _⟩ := named _ listed
    obtain rfl : label.canonicalName = role := Option.some.inj (Prod.mk.inj same).2
    cases found : t.label? label.name (some label.canonicalName) with
    | none => exact absurd rfl ((label?_role_none roled).mp found label (stored.rows label member))
    | some row =>
      refine congrArg some (eq_of_unique stored.unique (label?_mem found) (stored.rows label member) ?_ ?_)
      · rw [rowName row found, name]
      · exact label?_role roled found
  have here : ∀ key ∈ remote newLabels, ∃ label, later.label? key.1 key.2 = some label ∧ keyOf label = key := by
    intro key listed
    by_cases known : key ∈ attached.map keyOf
    · obtain ⟨label, member, rfl⟩ := List.mem_map.mp known
      exact ⟨label, old label member listed, rfl⟩
    · exact progress.found key (List.mem_filter.mpr ⟨listed, decide_eq_true known⟩)
  have rowOf : ∀ label, label ∈ labels ↔ ∃ key ∈ remote newLabels, later.label? key.1 key.2 = some label := by
    intro label
    rw [progress.attached]
    constructor
    · rintro (member | ⟨key, member, found⟩)
      · obtain ⟨member, listed⟩ := mem_kept.mp member
        exact ⟨keyOf label, listed, old label member listed⟩
      · exact ⟨key, sublist key member, found⟩
    · rintro ⟨key, listed, found⟩
      by_cases known : key ∈ attached.map keyOf
      · obtain ⟨other, member, rfl⟩ := List.mem_map.mp known
        cases (old other member listed).symm.trans found
        exact .inl (mem_kept.mpr ⟨member, listed⟩)
      · exact .inr ⟨key, List.mem_filter.mpr ⟨listed, decide_eq_true known⟩, found⟩
  refine ⟨later, labels, updateLabels_ok.mpr ⟨loop, progress.unique⟩, rowOf, ?_, ?_⟩
  · refine List.filter_eq_nil_iff.mpr fun label member => ?_
    obtain ⟨key, listed, found⟩ := (rowOf label).mp member
    obtain ⟨same, again, rfl⟩ := here key listed
    cases again.symm.trans found
    simpa using listed
  · refine List.filter_eq_nil_iff.mpr fun key listed => ?_
    obtain ⟨label, found, rfl⟩ := here key listed
    have member : keyOf label ∈ labels.map keyOf :=
      List.mem_map_of_mem ((rowOf label).mpr ⟨_, listed, found⟩)
    simpa using member

/-- An update settles the labels exactly when the list has, besides drafts and stars, only system labels, each
named like its role by the row that has it, or by one that can be created. -/
theorem label_updates_settle_iff (t : Tables) (attached : List Label) (newLabels : List Unicode)
    (stored : Stored t attached) :
    Settles t attached newLabels ↔ ∀ key ∈ remote newLabels, Named t key :=
  ⟨named_of_settles stored, settles_of_named stored⟩

theorem stored_empty : Stored Tables.empty [] := ⟨nofun, List.Pairwise.nil⟩

namespace Sample

def inbox : Label :=
  { id := 3, name := "inbox".toList, canonicalName := "inbox", categoryId := 1, deletedAt := none }

def work : Label :=
  { id := 4, name := "Work".toList, canonicalName := "", categoryId := 2, deletedAt := none }

def tables : Tables where
  categories := [⟨1, "inbox", "Inbox".toList, .label, EPOCH⟩, ⟨2, "", "Work".toList, .label, EPOCH⟩]
  folders := []
  labels := [inbox, work]
  statuses := []
  nextId := 5

theorem stored : Stored tables [work, inbox] := ⟨by decide, by decide⟩

end Sample

/-- A message filed under Work is only in Inbox and Important then, for which a row is created. -/
theorem label_updates_settle_important :
    Settles Sample.tables [Sample.work, Sample.inbox] ["\\Inbox".toList, "\\Important".toList] := by
  refine (label_updates_settle_iff _ _ _ Sample.stored).mpr fun key listed => ?_
  have system : remote ["\\Inbox".toList, "\\Important".toList] =
      [("inbox".toList, some "inbox"), ("important".toList, some "important")] := by decide
  rw [system] at listed
  rcases List.mem_cons.mp listed with rfl | last
  · have row : Sample.tables.label? "inbox".toList (some "inbox") = some Sample.inbox := by decide
    refine ⟨"inbox", rfl, fun other found => ?_, fun _ => by decide⟩
    cases row.symm.trans found
    rfl
  · obtain rfl := List.mem_singleton.mp last
    have absent : Sample.tables.label? "important".toList (some "important") = none := by decide
    refine ⟨"important", rfl, fun row found => ?_, fun _ => by decide⟩
    cases absent.symm.trans found

/-- A label of the user's own has no role, so each call takes it off and puts it on again. -/
theorem own_label_replaced : ¬ ∀ (t : Tables) (attached : List Label) (newLabels : List Unicode),
    Stored t attached → Settles t attached newLabels := by
  intro claim
  have settles := claim Tables.empty [] ["Work".toList] stored_empty
  obtain ⟨role, same, _⟩ := named_of_settles stored_empty settles ("Work".toList, none) (by decide)
  cases (Prod.mk.inj same).2

end UidLabels
end Naming
end SyncEngine
