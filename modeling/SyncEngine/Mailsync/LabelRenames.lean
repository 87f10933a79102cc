import Mathlib.Data.List.Infix
import SyncEngine.Mailsync.LabelRefresh
import SyncEngine.Util.Raising
import SyncEngine.Util.Runs

/-! Renames of Gmail labels reach the UIDs that carry them. -/
namespace SyncEngine
namespace Naming
namespace LabelRefresh
open Naming.Gmail

/-! ## What becomes of label rows -/

structure LabelIds (t : Tables) : Prop where
  distinct : t.labels.Pairwise (fun a b => a.id ≠ b.id)
  below : ∀ label ∈ t.labels, label.id < t.nextId

/-- Lookups go on finding the rows they found, and a row that is new or not marked any more is one
of `added`. -/
structure Grown (t later : Tables) (added : List Nat) : Prop where
  nextId : t.nextId ≤ later.nextId
  ids : LabelIds t → LabelIds later
  keeps : ∀ name role row, t.label? name role = some row →
    ∃ now, later.label? name role = some now ∧ now.id = row.id
  origin : ∀ now ∈ later.labels,
    (∃ old ∈ t.labels, old.id = now.id ∧ old.name = now.name ∧
      (now.deletedAt = none → old.deletedAt = none ∨ now.id ∈ added)) ∨
    t.nextId ≤ now.id ∧ now.id ∈ added
  folders : ∀ id ∈ t.folders.map Folder.id, id ∈ later.folders.map Folder.id

variable {t mid later : Tables}

theorem Grown.trans (first : Grown t mid one) (second : Grown mid later two) : Grown t later (one ++ two) where
  nextId := first.nextId.trans second.nextId
  ids ids := second.ids (first.ids ids)
  keeps name role row found := by
    obtain ⟨now, there, same⟩ := first.keeps name role row found
    obtain ⟨last, still, also⟩ := second.keeps name role now there
    exact ⟨last, still, also.trans same⟩
  origin now member := by
    rcases second.origin now member with ⟨between, there, ids, named, live⟩ | ⟨new, listed⟩
    · rcases first.origin between there with ⟨old, held, same, name, before⟩ | ⟨new, listed⟩
      · refine .inl ⟨old, held, same.trans ids, name.trans named, fun alive => ?_⟩
        rcases live alive with alive | listed
        · rcases before alive with alive | listed
          · exact .inl alive
          · exact .inr (List.mem_append_left _ (ids ▸ listed))
        · exact .inr (List.mem_append_right _ listed)
      · rw [ids] at new listed
        exact .inr ⟨new, List.mem_append_left _ listed⟩
    · exact .inr ⟨first.nextId.trans new, List.mem_append_right _ listed⟩
  folders id member := second.folders id (first.folders id member)

/-- Nothing happens to labels. -/
theorem Grown.of_labels (labels : later.labels = t.labels) (nextId : t.nextId ≤ later.nextId)
    (folders : ∀ id ∈ t.folders.map Folder.id, id ∈ later.folders.map Folder.id) : Grown t later [] where
  nextId := nextId
  ids ids := ⟨labels ▸ ids.distinct, labels ▸ fun label member => (ids.below label member).trans_le nextId⟩
  keeps name role row found := by
    refine ⟨row, ?_, rfl⟩
    unfold Tables.label? at found ⊢
    rwa [labels]
  origin now member := .inl ⟨now, labels ▸ member, rfl, rfl, .inl⟩
  folders := folders

theorem Grown.refl (t : Tables) : Grown t t [] := .of_labels rfl le_rfl fun _ member => member

theorem findOrCreateCategory_labels {id : Nat}
    (found : t.findOrCreateCategory name displayName type_ = .ok (later, id)) :
    later.labels = t.labels ∧ later.folders = t.folders ∧ t.nextId ≤ later.nextId := by
  obtain ⟨_, rfl, rfl⟩ | ⟨row, _, _, rfl, rfl | rfl⟩ := Tables.findOrCreateCategory_cases found
  · exact ⟨rfl, rfl, Nat.le_succ _⟩
  · exact ⟨rfl, rfl, le_rfl⟩
  · exact ⟨rfl, rfl, le_rfl⟩

theorem updateFolder_ids (t : Tables) (id : Nat) (change : Folder → Folder)
    (keeps : ∀ row, (change row).id = row.id) :
    (t.updateFolder id change).folders.map Folder.id = t.folders.map Folder.id := by
  refine Tables.map_key fun row _ => ?_
  split
  · exact keeps row
  · rfl

theorem findOrCreateFolder_grown (found : t.findOrCreateFolder name role = .ok (later, folder)) :
    Grown t later [] := by
  unfold Tables.findOrCreateFolder at found
  split at found
  · obtain ⟨result, made, done⟩ := bind_ok found
    obtain ⟨labels, folders, nextId⟩ := findOrCreateCategory_labels made
    cases done
    refine .of_labels labels (Nat.le_succ_of_le nextId) fun id member => ?_
    rw [List.map_append, folders]
    exact List.mem_append_left _ member
  · cases found
    exact .refl t
  · cases found

theorem renameFolder_grown (folder : Folder) (displayName : Unicode) (t : Tables) :
    Grown t (renameFolder folder displayName t) [] := by
  unfold renameFolder
  split
  · refine .of_labels rfl le_rfl fun id member => ?_
    rwa [updateFolder_ids]
    exact fun _ => rfl
  · exact .refl t

theorem renameCategory_grown (category : Category) (displayName : Unicode) (t : Tables) :
    Grown t (renameCategory category displayName t) [] := by
  unfold renameCategory
  split
  · exact .of_labels rfl le_rfl fun _ member => member
  · exact .refl t

theorem saveFolder_grown (saved : Gmail.saveFolder raw t = .ok later) : Grown t later [] := by
  unfold Gmail.saveFolder at saved
  split at saved
  · rename_i role _
    unfold handleRawFolderChange at saved
    split at saved
    · rename_i folder _
      have renamed := renameFolder_grown folder raw.displayName t
      dsimp only at saved
      split at saved
      · rename_i category _
        cases saved
        exact renamed.trans (renameCategory_grown category raw.displayName _)
      · obtain ⟨result, made, done⟩ := bind_ok saved
        obtain ⟨labels, folders, nextId⟩ := findOrCreateCategory_labels made
        cases done
        have given : Grown (renameFolder folder raw.displayName t) (result.1.updateFolder folder.id
            fun row => { row with categoryId := some result.2 }) [] := by
          refine .of_labels labels nextId fun id member => ?_
          rw [updateFolder_ids _ _ _ (by exact fun _ => rfl), folders]
          exact member
        exact renamed.trans given
    · obtain ⟨result, made, done⟩ := bind_ok saved
      cases done
      exact findOrCreateFolder_grown made
  · cases saved
    exact .refl t

theorem setDeletedAt_grown (label : Label) (mark : Option Nat) (categoryMark : Nat) (t : Tables) :
    Grown t (setDeletedAt label mark categoryMark t) [label.id] where
  nextId := le_rfl
  ids ids := by
    have same : (setDeletedAt label mark categoryMark t).labels.map Label.id = t.labels.map Label.id := by
      refine Tables.map_key fun row _ => ?_
      split <;> rfl
    exact ⟨(Tables.pairwise_key same).mpr ids.distinct,
      Tables.forall_id_lt.mpr (same ▸ Tables.forall_id_lt.mp ids.below)⟩
  keeps name role row found := by
    rw [label?_setDeletedAt, found, Option.map_some]
    refine ⟨_, rfl, ?_⟩
    split <;> rfl
  origin := by
    refine List.forall_mem_map.mpr fun row member => .inl ⟨row, member, ?_⟩
    split
    · rename_i own
      exact ⟨rfl, rfl, fun _ => .inr (by simp [own])⟩
    · exact ⟨rfl, rfl, .inl⟩
  folders _ member := member

theorem findOrCreateLabel_grown {label : Label}
    (found : t.findOrCreateLabel name role = .ok (later, label)) :
    Grown t later [label.id] ∧ later.label? name role = some label := by
  unfold Tables.findOrCreateLabel at found
  split at found
  · rename_i row known
    cases found
    refine ⟨{ Grown.refl t with origin := fun now member => .inl ⟨now, member, rfl, rfl, .inl⟩ }, known⟩
  · rename_i absent
    obtain ⟨result, made, done⟩ := bind_ok found
    obtain ⟨labels, folders, nextId⟩ := findOrCreateCategory_labels made
    cases done
    refine ⟨{
      nextId := Nat.le_succ_of_le nextId
      ids := fun ids => ⟨?_, ?_⟩
      keeps := fun name role row there => ⟨row, ?_, rfl⟩
      origin := ?_
      folders := fun id member => folders ▸ member }, ?_⟩
    · refine Tables.pairwise_append_new (labels ▸ ids.distinct) (fun row member => ?_) _ rfl
      exact (ids.below row (labels ▸ member)).trans_le nextId
    · refine List.forall_mem_append.mpr ⟨fun row member => ?_, by simp⟩
      exact Nat.lt_succ_of_lt ((ids.below row (labels ▸ member)).trans_le nextId)
    · rw [label?_insert (t := t) (by rw [labels]), there, Option.some_or]
    · refine List.forall_mem_append.mpr ⟨fun row member => .inl ⟨row, labels ▸ member, rfl, rfl, .inl⟩, ?_⟩
      intro row added
      rw [List.mem_singleton.mp added]
      exact .inr ⟨nextId, List.mem_singleton_self _⟩
    · exact label?_own (by rw [labels]) absent rfl rfl

theorem saveLabel_grown {id : Nat} (saved : saveLabel raw t = .ok (later, id)) : Grown t later [id] := by
  obtain ⟨result, found, done⟩ := bind_ok saved
  obtain ⟨grown, _⟩ := findOrCreateLabel_grown found
  cases done
  unfold unmark
  split
  · have both := grown.trans (setDeletedAt_grown result.2 none EPOCH result.1)
    exact { both with origin := fun now member => by simpa using both.origin now member }
  · exact grown

theorem saveEntry_grown {current listed : List Nat} (saved : saveEntry (t, current) raw = .ok (later, listed)) :
    ∃ added, listed = current ++ added ∧ Grown t later added := by
  unfold saveEntry at saved
  split at saved
  · cases saved
    exact ⟨[], (List.append_nil _).symm, .refl t⟩
  · obtain ⟨mid, folder, rest⟩ := bind_ok saved
    obtain ⟨result, label, done⟩ := bind_ok rest
    cases done
    exact ⟨[result.2], rfl, (saveFolder_grown folder).trans (saveLabel_grown label)⟩

theorem saveEntries_grown {raws : List RawFolder} {current listed : List Nat}
    (saved : raws.foldlM saveEntry (t, current) = .ok (later, listed)) :
    ∃ added, listed = current ++ added ∧ Grown t later added := by
  induction raws generalizing t current with
  | nil =>
    cases saved
    exact ⟨[], (List.append_nil _).symm, .refl _⟩
  | cons raw rest step =>
    rw [List.foldlM_cons] at saved
    obtain ⟨⟨mid, between⟩, first, others⟩ := bind_ok saved
    obtain ⟨one, rfl, grown⟩ := saveEntry_grown first
    obtain ⟨two, rfl, further⟩ := step others
    exact ⟨one ++ two, List.append_assoc .., grown.trans further⟩

theorem markDeletedLabels_grown (now : Nat) (deleted : List Label) (t : Tables) :
    Grown t (markDeletedLabels now deleted t) [] where
  nextId := by rw [markDeletedLabels_eq]
  ids ids := by
    have same : (markDeletedLabels now deleted t).labels.map Label.id = t.labels.map Label.id := by
      rw [markDeletedLabels_eq]
      refine Tables.map_key fun row _ => ?_
      split <;> rfl
    have nextId : (markDeletedLabels now deleted t).nextId = t.nextId := by rw [markDeletedLabels_eq]
    exact ⟨(Tables.pairwise_key same).mpr ids.distinct,
      Tables.forall_id_lt.mpr (same ▸ nextId ▸ Tables.forall_id_lt.mp ids.below)⟩
  keeps name role row found := by
    rw [label?_markDeletedLabels, found, Option.map_some]
    refine ⟨_, rfl, ?_⟩
    split <;> rfl
  origin := by
    rw [markDeletedLabels_eq]
    refine List.forall_mem_map.mpr fun row member => .inl ⟨row, member, ?_⟩
    split
    · exact ⟨rfl, rfl, fun alive => by simp at alive⟩
    · exact ⟨rfl, rfl, .inl⟩
  folders id member := by rwa [markDeletedLabels_eq]

theorem finish_grown (now : Nat) (deleted : List Label) (t : Tables) :
    Grown t (markDeletedLabels now deleted (setSyncShouldRunBit t)) [] := by
  have bits : Grown t (setSyncShouldRunBit t) [] := .of_labels rfl le_rfl fun _ member => member
  exact bits.trans (markDeletedLabels_grown now deleted (setSyncShouldRunBit t))

/-- The row of a label that is not marked as deleted. -/
def LiveRow (t : Tables) (name : Unicode) (label : Label) : Prop :=
  t.label? name none = some label ∧ label.deletedAt = none

theorem label?_name (found : t.label? name none = some label) : label.name = storedName name := by
  have := List.find?_some (by simpa [Tables.label?] using found)
  rwa [decide_eq_true_eq] at this

theorem mem_liveLabels (ids : LabelIds t) (member : label ∈ t.labels) (listed : label.id ∈ liveLabels t) :
    label.deletedAt = none := by
  obtain ⟨row, held, same⟩ := List.mem_map.mp listed
  obtain ⟨there, alive⟩ := List.mem_filter.mp held
  rw [← eq_of_key ids.distinct there member same]
  exact of_decide_eq_true alive

/-- A row that is live was live, or is one of `added`. -/
theorem Grown.live (grown : Grown t later added) (ids : LabelIds t) (row : LiveRow later name label) :
    (∃ old, LiveRow t name old ∧ old.id = label.id) ∨ label.id ∈ added ∧ label.id ∉ liveLabels t := by
  obtain ⟨found, alive⟩ := row
  rcases grown.origin label (label?_mem found) with ⟨old, held, same, name', live⟩ | ⟨new, listed⟩
  · have some : (t.label? name none).isSome := by
      simp only [Tables.label?, Option.getD_none, ne_eq, not_true_eq_false, if_false, List.find?_isSome]
      exact ⟨old, held, by simp [name', label?_name found]⟩
    obtain ⟨first, there⟩ := Option.isSome_iff_exists.mp some
    obtain ⟨now, still, ids'⟩ := grown.keeps name none first there
    rw [found] at still
    cases still
    obtain rfl := eq_of_key ids.distinct (label?_mem there) held (ids'.symm.trans same.symm)
    rcases live alive with before | listed
    · exact .inl ⟨first, ⟨there, before⟩, same⟩
    · by_cases before : first.deletedAt = none
      · exact .inl ⟨first, ⟨there, before⟩, same⟩
      · exact .inr ⟨listed, fun live => before (mem_liveLabels ids held (same ▸ live))⟩
  · refine .inr ⟨listed, fun live => ?_⟩
    obtain ⟨row, held, same⟩ := List.mem_map.mp live
    have := ids.below row (List.mem_of_mem_filter held)
    omega

/-! ## What `update_labels` attaches -/

theorem addLabel_grown {labels held : List Nat} (done : addLabel (t, labels) key = .ok (later, held)) :
    (∃ added, Grown t later added) ∧ labels ⊆ held ∧
      ∃ label, later.label? key.1 key.2 = some label ∧ label.id ∈ held := by
  obtain ⟨⟨now, label⟩, found, done⟩ := bind_ok done
  obtain ⟨grown, there⟩ := findOrCreateLabel_grown found
  cases done
  refine ⟨⟨_, grown⟩, ?_, label, there, ?_⟩
  · dsimp only
    split_ifs
    · exact List.Subset.refl _
    · exact List.subset_append_left _ _
  · dsimp only
    split_ifs with listed
    · exact listed
    · simp

theorem addLabels_grown {keys : List (Unicode × Option String)} {labels held : List Nat}
    (done : keys.foldlM addLabel (t, labels) = .ok (later, held)) :
    (∃ added, Grown t later added) ∧ labels ⊆ held ∧
      ∀ key ∈ keys, ∃ label, later.label? key.1 key.2 = some label ∧ label.id ∈ held := by
  induction keys generalizing t labels with
  | nil =>
    cases done
    exact ⟨⟨[], .refl _⟩, List.Subset.refl _, by simp⟩
  | cons key rest step =>
    rw [List.foldlM_cons] at done
    obtain ⟨⟨mid, between⟩, first, others⟩ := bind_ok done
    obtain ⟨⟨one, grown⟩, kept, label, found, listed⟩ := addLabel_grown first
    obtain ⟨⟨two, further⟩, more, all⟩ := step others
    refine ⟨⟨_, grown.trans further⟩, fun _ member => more (kept member),
      List.forall_mem_cons.mpr ⟨?_, all⟩⟩
    obtain ⟨now, there, same⟩ := further.keeps _ _ label found
    exact ⟨now, there, same ▸ more listed⟩

/-- A label that a rename can give: not one of the system's. -/
def Ordinary (name : Unicode) : Prop := remoteLabel name = some (name, none)

theorem updateLabels_grown {labels held : List Nat} (done : updateLabels t labels newLabels = .ok (later, held)) :
    ∃ added, Grown t later added := (addLabels_grown done).1

/-- A label that the server lists is attached. -/
theorem updateLabels_attached {labels held : List Nat}
    (done : updateLabels t labels newLabels = .ok (later, held)) (ordinary : Ordinary name)
    (listed : name ∈ newLabels) : ∃ label, later.label? name none = some label ∧ label.id ∈ held := by
  refine (addLabels_grown done).2.2 (name, none) (List.mem_filter.mpr ⟨?_, decide_eq_true ?_⟩)
  · exact List.mem_dedup.mpr (List.mem_filterMap.mpr ⟨name, listed, ordinary⟩)
  · intro known
    obtain ⟨id, _, same⟩ := List.mem_filterMap.mp known
    obtain ⟨label, _, key⟩ := Option.map_eq_some_iff.mp same
    simp at key

/-- Every label that the server lists has a row. -/
def AllRows (t : Tables) (newLabels : List Unicode) : Prop :=
  ∀ key ∈ newLabels.filterMap remoteLabel, (t.label? key.1 key.2).isSome

theorem addLabels_rows {keys : List (Unicode × Option String)} {labels : List Nat}
    (rows : ∀ key ∈ keys, (t.label? key.1 key.2).isSome) :
    ∃ held, keys.foldlM addLabel (t, labels) = .ok (t, held) := by
  induction keys generalizing labels with
  | nil => exact ⟨labels, rfl⟩
  | cons key rest step =>
    obtain ⟨some, others⟩ := List.forall_mem_cons.mp rows
    obtain ⟨label, found⟩ := Option.isSome_iff_exists.mp some
    have first : ∃ now, addLabel (t, labels) key = .ok (t, now) := by
      refine ⟨if label.id ∈ labels then labels else labels ++ [label.id], ?_⟩
      unfold addLabel Tables.findOrCreateLabel
      rw [found]
      rfl
    obtain ⟨now, first⟩ := first
    rw [List.foldlM_cons, first]
    exact step others

/-- Where every label has a row, none is made. -/
theorem updateLabels_rows (rows : AllRows t newLabels) (labels : List Nat) :
    ∃ held, updateLabels t labels newLabels = .ok (t, held) :=
  addLabels_rows fun key member => rows key (List.mem_dedup.mp (List.mem_of_mem_filter member))

/-! ## Ids and folders -/

structure WellFormed (s : State) : Prop where
  ids : LabelIds s.tables
  folders : ∀ row ∈ s.uids, row.folderId ∈ s.tables.folders.map Folder.id

variable {s after : State}

theorem WellFormed.grown (well : WellFormed s) (grown : Grown s.tables after.tables added)
    (uids : ∀ row ∈ after.uids, row.folderId ∈ s.tables.folders.map Folder.id) : WellFormed after :=
  ⟨grown.ids well.ids, fun row member => grown.folders _ (uids row member)⟩

theorem updateMetadata_cases {labels : List Unicode} {folder uid : Nat}
    (done : s.updateMetadata folder uid labels = some after) :
    ∃ row tables held, s.uid? folder uid = some row ∧ updateLabels s.tables row.labels labels = .ok (tables, held) ∧
      after = { s with
        tables
        uids := s.uids.map fun row =>
          if row.folderId = folder ∧ row.msgUid = uid then { row with labels := held } else row } := by
  obtain ⟨row, found, done⟩ := Option.bind_eq_some_iff.mp done
  obtain ⟨⟨tables, held⟩, updated, done⟩ := Option.bind_eq_some_iff.mp done
  refine ⟨row, tables, held, found, ?_, (Option.some.inj done).symm⟩
  cases result : updateLabels s.tables row.labels labels with
  | error _ => simp [result, Except.toOption] at updated
  | ok value => simpa [result, Except.toOption] using updated

theorem WellFormed.updateMetadata {labels : List Unicode} {folder uid : Nat} (well : WellFormed s)
    (done : s.updateMetadata folder uid labels = some after) : WellFormed after := by
  obtain ⟨row, tables, held, _, updated, rfl⟩ := updateMetadata_cases done
  obtain ⟨added, grown⟩ := updateLabels_grown updated
  refine well.grown grown (List.forall_mem_map.mpr fun row member => ?_)
  split
  · exact well.folders row member
  · exact well.folders row member

theorem WellFormed.retry (well : WellFormed s) : WellFormed s.retry := ⟨well.ids, well.folders⟩

theorem WellFormed.refresh (well : WellFormed s) : WellFormed s.refresh := by
  unfold State.refresh
  split
  · exact well
  · split
    case h_7 =>
      split
      · rename_i later done
        exact ⟨(well.updateMetadata done).ids, (well.updateMetadata done).folders⟩
      · exact well.retry
    all_goals exact ⟨well.ids, well.folders⟩

theorem WellFormed.commit (well : WellFormed s) (k : Nat) : WellFormed (s.commit k) := by
  unfold State.commit
  split
  · exact well
  · rename_i reading _
    have dropped : WellFormed { s with readings := s.readings.eraseIdx k } := ⟨well.ids, well.folders⟩
    dsimp only
    split
    · split_ifs
      · exact dropped
      · cases done : State.updateMetadata { s with readings := s.readings.eraseIdx k } reading.folder
          reading.uid reading.labels with
        | none => exact dropped
        | some later => exact dropped.updateMetadata done
    · split_ifs
      · unfold State.createImapUid
        split_ifs with there
        · split
          · rename_i tables held updated
            obtain ⟨added, grown⟩ := updateLabels_grown updated
            refine dropped.grown grown (List.forall_mem_append.mpr ⟨well.folders, fun row added => ?_⟩)
            rw [List.mem_singleton.mp added]
            exact there
          · exact dropped
        · exact dropped
      · exact dropped

theorem gcDeletedCategories_ids (ids : LabelIds t) (associated : Nat → Bool) :
    LabelIds (Gmail.gcDeletedCategories associated t) :=
  ⟨ids.distinct.filter _, fun label member => ids.below label (List.mem_of_mem_filter member)⟩

theorem WellFormed.turn (well : WellFormed s) (turn : Turn) : WellFormed (s.turn turn) := by
  cases turn with
  | rename old new | serverChange later => exact ⟨well.ids, well.folders⟩
  | prepareSync =>
    simp only [State.turn, State.prepareSync]
    split
    · split_ifs <;> exact ⟨well.ids, well.folders⟩
    · exact well
  | commitLabels =>
    simp only [State.turn, State.commitLabels]
    split
    · split
      · rename_i saved
        obtain ⟨added, _, grown⟩ := saveEntries_grown saved
        exact well.grown grown well.folders
      · exact ⟨well.ids, well.folders⟩
    · exact well
  | startHandler =>
    simp only [State.turn, State.startHandler]
    split
    · split <;> exact ⟨well.ids, well.folders⟩
    · exact well
  | finish now =>
    simp only [State.turn, State.finish]
    split
    · exact well.grown (finish_grown now _ s.tables) well.folders
    · exact well
  | monitorFails => exact ⟨well.ids, well.folders⟩
  | acquire k =>
    simp only [State.turn, State.acquire]
    split <;> exact ⟨well.ids, well.folders⟩
  | refresh => exact well.refresh
  | refreshFails => exact well.retry
  | read download folder uid =>
    simp only [State.turn, State.read]
    split <;> exact ⟨well.ids, well.folders⟩
  | commit k => exact well.commit k
  | removeDeletedUid folder uid =>
    exact ⟨well.ids, fun row member => well.folders row (List.mem_of_mem_filter member)⟩
  | gcDeletedCategories associated =>
    refine ⟨gcDeletedCategories_ids well.ids associated, List.forall_mem_map.mpr fun row member => ?_⟩
    exact of_decide_eq_true (List.mem_filter.mp member).2
  | restart => exact ⟨well.ids, well.folders⟩

theorem run_append (server : Server) (turns : List Turn) (turn : Turn) :
    run server (turns ++ [turn]) = (run server turns).turn turn := by
  rw [run, List.foldl_append]
  rfl

theorem run_wellFormed (server : Server) (turns : List Turn) : WellFormed (run server turns) := by
  induction turns using List.reverseRecOn with
  | nil => exact ⟨⟨.nil, by simp [run, State.initial, Tables.empty]⟩, by simp [run, State.initial]⟩
  | append_singleton turns turn step =>
    rw [run_append]
    exact step.turn turn

/-! ## What a refresh has still to do -/

/-- The handler comes to this UID if it goes on. -/
def Phase.ToRead (folder uid : Nat) : Phase → Prop
  | .folders rest => folder ∈ rest
  | .chunks current left rest | .flags current _ left rest | .rows current _ left rest =>
    current = folder ∧ (∃ uids ∈ left, uid ∈ uids) ∨ folder ∈ rest

/-- The handler has read these labels of the UID and not committed them. -/
def Phase.InHand (folder uid : Nat) (labels : List Unicode) : Phase → Prop
  | .flags current hand _ _ | .rows current hand _ _ => current = folder ∧ (uid, labels) ∈ hand
  | _ => False

/-- The handler will read the UID, or will commit that it carries the label. -/
def Phase.Covers (folder uid : Nat) (name : Unicode) (phase : Phase) : Prop :=
  phase.ToRead folder uid ∨ ∃ labels, phase.InHand folder uid labels ∧ name ∈ labels

/-- The labels that the handler commits next. -/
def State.committing (s : State) : Option (List Unicode) :=
  match s.active with
  | some ⟨_, .rows _ ((_, labels) :: _) _ _⟩ => some labels
  | _ => none

/-- A handler for the label is to be started, or has not begun. -/
def State.Waits (s : State) (id : Nat) (name : Unicode) : Prop :=
  id ∈ s.monitor.fresh ∨ name ∈ s.waiting

/-- A refresh of the label has still to come to the UID. -/
def State.Due (s : State) (folder uid id : Nat) (name : Unicode) : Prop :=
  s.Waits id name ∨ ∃ phase, s.active = some ⟨name, phase⟩ ∧ phase.Covers folder uid name

def Server.Carries (server : Server) (folder uid : Nat) (name : Unicode) : Prop :=
  name ∈ server.labels folder uid

/-- Every refresh has come to an end. -/
def State.Over (s : State) : Prop := s.monitor.fresh = [] ∧ s.waiting = [] ∧ s.active = none

/-- The local UID has the label attached, if the label has a row. -/
def State.Attached (s : State) (folder uid : Nat) (name : Unicode) : Prop :=
  ∀ label, LiveRow s.tables name label →
    ∀ row ∈ s.uids, row.folderId = folder → row.msgUid = uid → label.id ∈ row.labels

/-- The condition on a turn. -/
def TurnFine (s : State) : Turn → Prop
  -- The new name fits its column, is not a system label's, and no row of that name is live.
  | .rename _ new => storedName new = new ∧ Ordinary new ∧ ¬ ∃ label, LiveRow s.tables new label
  | .commitLabels => liveLabels s.tables ≠ [] ∨ s.uids = [] ∧ s.active = none
  | .startHandler => ∀ id ∈ s.monitor.fresh.head?, ∃ label ∈ s.tables.labels, label.id = id
  | .monitorFails => s.monitor.fresh = []
  -- What is committed makes no label row.
  | .refresh => ∀ labels ∈ s.committing, AllRows s.tables labels
  -- An engine commits no reading that lacks a label, unless a refresh of the label is still due.
  | .commit k => ∀ reading ∈ s.readings[k]?, AllRows s.tables reading.labels ∧
      ∀ name label, LiveRow s.tables name label → s.server.Carries reading.folder reading.uid name →
        name ∈ reading.labels ∨ s.Due reading.folder reading.uid label.id name
  | .gcDeletedCategories associated => ∀ name label,
      LiveRow (Gmail.gcDeletedCategories associated s.tables) name label → LiveRow s.tables name label
  | .restart => s.Over ∨ ∀ folder uid name, s.server.Carries folder uid name → s.Attached folder uid name
  | _ => True

/-- What holds of a UID and of a label it carries, from the rename that gave it on. -/
structure Kept (s : State) (folder uid : Nat) (name : Unicode) : Prop where
  uids : ∀ label, LiveRow s.tables name label → ∀ row ∈ s.uids, row.folderId = folder → row.msgUid = uid →
    label.id ∈ row.labels ∨ s.Due folder uid label.id name
  hand : ∀ label, LiveRow s.tables name label → ∀ handler, s.active = some handler →
    ∀ labels, handler.phase.InHand folder uid labels → name ∈ labels ∨ s.Waits label.id name

variable {folder uid : Nat} {name : Unicode}

/-- A turn that leaves the handlers alone, makes no row live without a handler, and takes no label
off a UID. -/
theorem Kept.frame (kept : Kept s folder uid name)
    (rows : ∀ label, LiveRow after.tables name label →
      (∃ old, LiveRow s.tables name old ∧ old.id = label.id) ∨ after.Waits label.id name)
    (uids : ∀ label, LiveRow after.tables name label → ∀ row ∈ after.uids, ∃ old ∈ s.uids,
      old.folderId = row.folderId ∧ old.msgUid = row.msgUid ∧ (label.id ∈ old.labels → label.id ∈ row.labels))
    (waits : ∀ label, LiveRow s.tables name label → s.Waits label.id name → after.Waits label.id name)
    (active : after.active = s.active) : Kept after folder uid name where
  uids label live row member inFolder isUid := by
    rcases rows label live with ⟨old, was, same⟩ | waiting
    · obtain ⟨before, held, folders, uids', labels⟩ := uids label live row member
      rcases kept.uids old was before held (folders.trans inFolder) (uids'.trans isUid) with attached | due
      · exact .inl (labels (same ▸ attached))
      · right
        rw [← same]
        rcases due with waiting | ⟨phase, holds, rest⟩
        · exact .inl (waits old was waiting)
        · exact .inr ⟨phase, active.trans holds, rest⟩
    · exact .inr (.inl waiting)
  hand label live handler holds labels inHand := by
    rcases rows label live with ⟨old, was, same⟩ | waiting
    · rcases kept.hand old was handler (active ▸ holds) labels inHand with listed | waiting
      · exact .inl listed
      · exact .inr (same ▸ waits old was waiting)
    · exact .inr waiting

/-- A turn that changes neither tables nor UIDs, nor the handlers. -/
theorem Kept.congr (kept : Kept s folder uid name) (tables : after.tables = s.tables)
    (uids : after.uids = s.uids) (active : after.active = s.active)
    (waits : ∀ label, LiveRow s.tables name label → s.Waits label.id name → after.Waits label.id name) :
    Kept after folder uid name :=
  kept.frame (fun label live => .inl ⟨label, tables ▸ live, rfl⟩)
    (fun _ _ row member => ⟨row, uids ▸ member, rfl, rfl, id⟩) waits active

theorem State.Waits.of_idle {id : Nat} (idle : s.monitor.fresh = []) (waits : s.Waits id name) : name ∈ s.waiting :=
  waits.resolve_left (by simp [idle])

theorem Kept.commitLabels (kept : Kept s folder uid name) (well : WellFormed s)
    (fine : TurnFine s .commitLabels) : Kept s.commitLabels folder uid name := by
  unfold State.commitLabels
  split
  · rename_i remoteFolders listed
    have idle : s.monitor.fresh = [] := by rw [listed]; rfl
    dsimp only
    split
    · rename_i tables current saved
      obtain ⟨added, same, grown⟩ := saveEntries_grown saved
      obtain rfl : current = added := by simpa using same
      rcases fine with known | ⟨noUid, noHandler⟩
      · rw [if_neg known]
        apply kept.frame
        · intro label live
          refine (grown.live well.ids live).imp id fun ⟨listed, new⟩ => .inl ?_
          exact List.mem_dedup.mpr (List.mem_filter.mpr ⟨listed, decide_eq_true new⟩)
        · exact fun _ _ row member => ⟨row, member, rfl, rfl, id⟩
        · exact fun _ _ waits => .inr (show name ∈ s.waiting from waits.of_idle idle)
        · rfl
      · exact ⟨fun _ _ row member => absurd (noUid ▸ member) List.not_mem_nil,
          fun _ _ handler holds => nomatch noHandler.symm.trans holds⟩
    · exact kept.congr rfl rfl rfl fun _ _ waits => .inr (show name ∈ s.waiting from waits.of_idle idle)
  · exact kept

theorem Kept.startHandler (kept : Kept s folder uid name) (well : WellFormed s)
    (fits : storedName name = name) (fine : TurnFine s .startHandler) :
    Kept s.startHandler folder uid name := by
  unfold State.startHandler
  split
  · rename_i remoteFolders old current id fresh starting
    have there := fine id (by rw [starting]; rfl)
    split
    · rename_i row found
      refine kept.congr rfl rfl rfl fun label live waits => ?_
      rcases waits with listed | waiting
      · rw [starting] at listed
        rcases List.mem_cons.mp listed with same | later
        · have held : row.id = id := by simpa using List.find?_some found
          obtain rfl := eq_of_key well.ids.distinct (label?_mem live.1)
            (List.mem_of_find?_eq_some found) (same.trans held.symm)
          exact .inr (by simp [label?_name live.1, fits])
        · exact .inl later
      · exact .inr (List.mem_append_left _ waiting)
    · rename_i absent
      obtain ⟨label, member, same⟩ := there
      exact absurd (List.find?_eq_none.mp absent label member) (by simp [same])
  · exact kept

theorem Kept.finish (kept : Kept s folder uid name) (well : WellFormed s) (now : Nat) :
    Kept (s.finish now) folder uid name := by
  unfold State.finish
  split
  · rename_i remoteFolders old current starting
    have idle : s.monitor.fresh = [] := by rw [starting]; rfl
    apply kept.frame
    · intro label live
      exact ((finish_grown now _ s.tables).live well.ids live).imp id fun new => absurd new.1 List.not_mem_nil
    · exact fun _ _ row member => ⟨row, member, rfl, rfl, id⟩
    · exact fun _ _ waits => .inr (show name ∈ s.waiting from waits.of_idle idle)
    · rfl
  · exact kept

theorem mem_eraseIdx_or {items : List α} {k : Nat} (member : item ∈ items) (other : items[k]? = some picked) :
    item = picked ∨ item ∈ items.eraseIdx k := by
  obtain ⟨i, there⟩ := List.mem_iff_getElem?.mp member
  by_cases same : i = k
  · subst same
    exact .inl (Option.some.inj (there.symm.trans other))
  · exact .inr (List.mem_eraseIdx_iff_getElem?.mpr ⟨i, same, there⟩)

/-- A handler that begins has all folders before it. -/
theorem Kept.acquire (kept : Kept s folder uid name) (well : WellFormed s) (k : Nat) :
    Kept (s.acquire k) folder uid name := by
  unfold State.acquire
  split
  · rename_i labelName free picked
    refine ⟨fun label live row member inFolder isUid => ?_, fun _ _ handler holds labels inHand => ?_⟩
    · rcases kept.uids label live row member inFolder isUid with attached | (listed | waiting) | ⟨_, holds, _⟩
      · exact .inl attached
      · exact .inr (.inl (.inl listed))
      · rcases mem_eraseIdx_or waiting picked with rfl | still
        · exact .inr (.inr ⟨_, rfl, .inl (inFolder ▸ well.folders row member)⟩)
        · exact .inr (.inl (.inr still))
      · rw [free] at holds
        cases holds
    · cases holds
      exact inHand.elim
  · exact kept

theorem Kept.retry (kept : Kept s folder uid name) : Kept s.retry folder uid name where
  uids label live row member inFolder isUid := by
    rcases kept.uids label live row member inFolder isUid with attached | (listed | waiting) | ⟨phase, holds, _⟩
    · exact .inl attached
    · exact .inr (.inl (.inl listed))
    · exact .inr (.inl (.inr (List.mem_append_left _ waiting)))
    · exact .inr (.inl (.inr (List.mem_append_right _ (by simp [holds]))))
  hand _ _ handler holds := nomatch holds

/-- The rows that are updated, where no label row is made. -/
theorem updateMetadata_rows {labels : List Unicode} (rows : AllRows s.tables labels)
    (done : s.updateMetadata folder uid labels = some after) :
    after = { s with uids := after.uids } ∧ ∀ row ∈ after.uids,
      (row.folderId = folder ∧ row.msgUid = uid ∧
        ∀ name label, Ordinary name → name ∈ labels → s.tables.label? name none = some label →
          label.id ∈ row.labels) ∨
      ¬ (row.folderId = folder ∧ row.msgUid = uid) ∧ row ∈ s.uids := by
  obtain ⟨old, tables, held, _, updated, rfl⟩ := updateMetadata_cases done
  obtain ⟨_, same⟩ := updateLabels_rows rows old.labels
  rw [updated] at same
  cases same
  refine ⟨rfl, List.forall_mem_map.mpr fun row member => ?_⟩
  split
  · rename_i own
    refine .inl ⟨own.1, own.2, fun name label ordinary listed found => ?_⟩
    obtain ⟨now, there, attached⟩ := updateLabels_attached updated ordinary listed
    rw [found] at there
    cases there
    exact attached
  · rename_i other
    exact .inr ⟨other, member⟩

theorem mem_searchUids {server : Server} (carries : server.Carries folder uid name) :
    uid ∈ server.searchUids folder name := by
  rw [Server.searchUids, List.mem_insertionSort]
  refine List.mem_filter.mpr ⟨?_, decide_eq_true carries⟩
  unfold Server.Carries Server.labels at carries
  cases found : server.mail? folder uid with
  | none => simp [found] at carries
  | some mail =>
    have there : mail.folder = folder ∧ mail.uid = uid := by simpa using List.find?_some found
    exact List.mem_map.mpr ⟨mail, List.mem_filter.mpr
      ⟨List.mem_of_find?_eq_some found, decide_eq_true there.1⟩, there.2⟩

theorem mem_flags {server : Server} {uids : List Nat} (member : (uid, labels) ∈ server.flags folder uids) :
    labels = server.labels folder uid := by
  obtain ⟨other, _, same⟩ := List.mem_filterMap.mp member
  obtain ⟨mail, found, pair⟩ := Option.map_eq_some_iff.mp same
  cases pair
  rw [Server.labels, found]
  rfl

theorem flags_mem {server : Server} {uids : List Nat} (carries : server.Carries folder uid name)
    (listed : uid ∈ uids) : ∃ labels, (uid, labels) ∈ server.flags folder uids ∧ name ∈ labels := by
  unfold Server.Carries Server.labels at carries
  cases found : server.mail? folder uid with
  | none => simp [found] at carries
  | some mail =>
    refine ⟨mail.labels, List.mem_filterMap.mpr ⟨uid, listed, by rw [found]; rfl⟩, ?_⟩
    simpa [found] using carries

/-- A step of the handler at work that commits nothing. -/
theorem Kept.advance {next : Phase} (kept : Kept s folder uid name)
    (active : s.active = some ⟨labelName, phase⟩)
    (covers : labelName = name → (∃ row ∈ s.uids, row.folderId = folder ∧ row.msgUid = uid) →
      phase.Covers folder uid name → next.Covers folder uid name)
    (hand : ∀ labels, next.InHand folder uid labels → name ∈ labels ∨ phase.InHand folder uid labels) :
    Kept { s with active := some ⟨labelName, next⟩ } folder uid name where
  uids label live row member inFolder isUid := by
    rcases kept.uids label live row member inFolder isUid with attached | waits | ⟨_, holds, covered⟩
    · exact .inl attached
    · exact .inr (.inl waits)
    · rw [active] at holds
      cases holds
      exact .inr (.inr ⟨next, rfl, covers rfl ⟨row, member, inFolder, isUid⟩ covered⟩)
  hand label live handler holds labels inHand := by
    cases holds
    rcases hand labels inHand with listed | before
    · exact .inl listed
    · exact kept.hand label live _ active labels before

/-- The handler commits the labels of one row. -/
theorem Kept.committed {hand : List (Nat × List Unicode)} (kept : Kept s folder uid name)
    (ordinary : Ordinary name)
    (active : s.active = some ⟨labelName, .rows current ((other, labels) :: hand) left rest⟩)
    (rows : AllRows s.tables labels) (done : s.updateMetadata current other labels = some after) :
    Kept { after with active := some ⟨labelName, .rows current hand left rest⟩ } folder uid name := by
  obtain ⟨same, updated⟩ := updateMetadata_rows rows done
  rw [same]
  constructor
  · intro label live row member inFolder isUid
    rcases updated row member with ⟨ownFolder, ownUid, attached⟩ | ⟨apart, before⟩
    · obtain rfl := inFolder.symm.trans ownFolder
      obtain rfl := isUid.symm.trans ownUid
      rcases kept.hand label live _ active labels ⟨rfl, List.mem_cons_self⟩ with listed | waits
      · exact .inl (attached name label ordinary listed live.1)
      · exact .inr (.inl waits)
    · rcases kept.uids label live row before inFolder isUid with attached | waits | ⟨_, holds, covered⟩
      · exact .inl attached
      · exact .inr (.inl waits)
      · rw [active] at holds
        cases holds
        refine .inr (.inr ⟨_, rfl, covered.imp id ?_⟩)
        rintro ⟨read, ⟨here, listed⟩, carried⟩
        refine ⟨read, ⟨here, ?_⟩, carried⟩
        rcases List.mem_cons.mp listed with first | later
        · cases first
          exact absurd ⟨inFolder.trans here.symm, isUid⟩ apart
        · exact later
  · intro label live handler holds read inHand
    cases holds
    exact kept.hand label live _ active read ⟨inHand.1, List.mem_cons_of_mem _ inHand.2⟩

/-- The next step of the handler at work, where the message carries the label. -/
theorem Kept.refresh (kept : Kept s folder uid name) (ordinary : Ordinary name)
    (carries : s.server.Carries folder uid name) (fine : TurnFine s .refresh) :
    Kept s.refresh folder uid name := by
  unfold State.refresh
  split
  · exact kept
  · rename_i labelName phase active
    split
    · refine ⟨fun label live row member inFolder isUid => ?_, fun _ _ _ holds => nomatch holds⟩
      rcases kept.uids label live row member inFolder isUid with attached | waits | ⟨_, holds, covered⟩
      · exact .inl attached
      · exact .inr (.inl waits)
      · rw [active] at holds
        cases holds
        rcases covered with toRead | ⟨_, inHand, _⟩
        · exact absurd toRead List.not_mem_nil
        · exact inHand.elim
    · rename_i current rest
      refine kept.advance active ?_ fun _ inHand => inHand.elim
      rintro rfl _ (toRead | ⟨_, inHand, _⟩)
      · rcases List.mem_cons.mp toRead with rfl | later
        · have found : uid ∈ (chunk (s.server.searchUids folder labelName) 200).flatten := by
            rw [chunk_flatten (by decide)]
            exact mem_searchUids carries
          obtain ⟨uids, listed, member⟩ := List.mem_flatten.mp found
          exact .inl (.inl ⟨rfl, uids, listed, member⟩)
        · exact .inl (.inr later)
      · exact inHand.elim
    · refine kept.advance active ?_ fun _ inHand => inHand.elim
      rintro rfl _ ((⟨_, _, none, _⟩ | later) | ⟨_, inHand, _⟩)
      · exact absurd none List.not_mem_nil
      · exact .inl later
      · exact inHand.elim
    · rename_i current uids left rest
      refine kept.advance active ?_ ?_
      · rintro rfl _ ((⟨rfl, chunk, listed, member⟩ | later) | ⟨_, inHand, _⟩)
        · rcases List.mem_cons.mp listed with rfl | among
          · obtain ⟨labels, flagged, carried⟩ := flags_mem carries member
            exact .inr ⟨labels, ⟨rfl, flagged⟩, carried⟩
          · exact .inl (.inl ⟨rfl, chunk, among, member⟩)
        · exact .inl (.inr later)
        · exact inHand.elim
      · rintro labels ⟨rfl, listed⟩
        rw [mem_flags listed]
        exact .inl carries
    · rename_i current flags left rest
      refine kept.advance active ?_ ?_
      · rintro rfl ⟨row, member, rfl, rfl⟩ (toRead | ⟨labels, ⟨rfl, listed⟩, carried⟩)
        · exact .inl toRead
        · refine .inr ⟨labels, ⟨rfl, List.mem_filter.mpr ⟨listed, ?_⟩⟩, carried⟩
          show (s.uids.find? _).isSome
          rw [List.find?_isSome]
          exact ⟨row, member, by simp⟩
      · rintro labels ⟨here, listed⟩
        exact .inr ⟨here, List.mem_of_mem_filter listed⟩
    · refine kept.advance active ?_ fun _ inHand => inHand.elim
      rintro rfl _ (toRead | ⟨_, ⟨_, none⟩, _⟩)
      · exact .inl toRead
      · exact absurd none List.not_mem_nil
    · rename_i current other labels hand left rest
      have rows : AllRows s.tables labels := fine labels (by simp [State.committing, active])
      split
      · rename_i later done
        exact kept.committed ordinary active rows done
      · exact kept.retry

/-- What an engine commits leaves the label on the UID, or a refresh due. -/
theorem Kept.commit (kept : Kept s folder uid name) (ordinary : Ordinary name)
    (carries : s.server.Carries folder uid name) (k : Nat) (fine : TurnFine s (.commit k)) :
    Kept (s.commit k) folder uid name := by
  unfold State.commit
  split
  · exact kept
  · rename_i reading picked
    obtain ⟨rows, covered⟩ := fine reading (by rw [picked]; rfl)
    have dropped : Kept { s with readings := s.readings.eraseIdx k } folder uid name := ⟨kept.uids, kept.hand⟩
    dsimp only
    split
    · split_ifs
      · exact dropped
      · cases done : State.updateMetadata { s with readings := s.readings.eraseIdx k } reading.folder
          reading.uid reading.labels with
        | none => exact dropped
        | some later =>
          obtain ⟨same, updated⟩ := updateMetadata_rows (s := { s with readings := s.readings.eraseIdx k })
            rows done
          rw [Option.getD_some, same]
          refine ⟨fun label live row member inFolder isUid => ?_, kept.hand⟩
          rcases updated row member with ⟨ownFolder, ownUid, attached⟩ | ⟨_, before⟩
          · obtain rfl := inFolder.symm.trans ownFolder
            obtain rfl := isUid.symm.trans ownUid
            rcases covered name label live carries with listed | due
            · exact .inl (attached name label ordinary listed live.1)
            · exact .inr due
          · exact kept.uids label live row before inFolder isUid
    · split_ifs
      · unfold State.createImapUid
        split_ifs
        · obtain ⟨held, updated⟩ := updateLabels_rows rows []
          simp only [updated]
          refine ⟨fun label live row member inFolder isUid => ?_, kept.hand⟩
          rcases List.mem_append.mp member with before | new
          · exact kept.uids label live row before inFolder isUid
          · obtain rfl := List.mem_singleton.mp new
            obtain rfl := inFolder
            obtain rfl := isUid
            rcases covered name label live carries with listed | due
            · obtain ⟨now, there, attached⟩ := updateLabels_attached updated ordinary listed
              obtain rfl := Option.some.inj (live.1.symm.trans there)
              exact .inl attached
            · exact .inr due
        · exact dropped
      · exact dropped

theorem Kept.turn (kept : Kept s folder uid name) (well : WellFormed s) (fits : storedName name = name)
    (ordinary : Ordinary name) (carries : s.server.Carries folder uid name) (turn : Turn)
    (fine : TurnFine s turn) : Kept (s.turn turn) folder uid name := by
  cases turn with
  | rename old new | serverChange later => exact ⟨kept.uids, kept.hand⟩
  | prepareSync =>
    simp only [State.turn, State.prepareSync]
    split
    · rename_i idle
      split_ifs
      · refine kept.congr rfl rfl rfl fun _ _ waits => .inr (show name ∈ s.waiting from waits.of_idle ?_)
        rw [idle]
        rfl
      · exact kept
    · exact kept
  | commitLabels => exact kept.commitLabels well fine
  | startHandler => exact kept.startHandler well fits fine
  | finish now => exact kept.finish well now
  | monitorFails => exact kept.congr rfl rfl rfl fun _ _ waits => .inr (show name ∈ s.waiting from waits.of_idle fine)
  | acquire k => exact kept.acquire well k
  | refresh => exact kept.refresh ordinary carries fine
  | refreshFails => exact kept.retry
  | read download folder uid =>
    simp only [State.turn, State.read]
    split
    · exact ⟨kept.uids, kept.hand⟩
    · exact kept
  | commit k => exact kept.commit ordinary carries k fine
  | removeDeletedUid otherFolder otherUid =>
    apply kept.frame
    · exact fun label live => .inl ⟨label, live, rfl⟩
    · exact fun _ _ row member => ⟨row, List.mem_of_mem_filter member, rfl, rfl, id⟩
    · exact fun _ _ waits => waits
    · rfl
  | gcDeletedCategories associated =>
    apply kept.frame
    · exact fun label live => .inl ⟨label, fine name label live, rfl⟩
    · intro label live
      refine List.forall_mem_map.mpr fun row member => ?_
      refine ⟨row, List.mem_of_mem_filter member, rfl, rfl, fun held => ?_⟩
      exact List.mem_filter.mpr ⟨held, decide_eq_true (List.mem_map_of_mem (label?_mem live.1))⟩
    · exact fun _ _ waits => waits
    · rfl
  | restart =>
    refine ⟨fun label live row member inFolder isUid => .inl ?_, fun _ _ _ holds => nomatch holds⟩
    rcases fine with ⟨noneFresh, noneWaiting, noneActive⟩ | attached
    · rcases kept.uids label live row member inFolder isUid with attached | (fresh | waiting) | ⟨_, holds, _⟩
      · exact attached
      · simp [noneFresh] at fresh
      · simp [noneWaiting] at waiting
      · simp [noneActive] at holds
    · exact attached folder uid name carries label live row member inFolder isUid

/-- Every turn of the run meets its condition. -/
def RunFine (server : Server) (turns : List Turn) : Prop :=
  ∀ before turn, before ++ [turn] <+: turns → TurnFine (run server before) turn

/-- Renames reach every message: where a message has carried the new label since it was renamed, the
label is recorded and every refresh has come to an end, the local UID has the label. -/
def RenamesReach (server : Server) (turns : List Turn) : Prop :=
  ∀ before old new later folder uid, turns = before ++ .rename old new :: later →
    (∀ between, between <+: later →
      (run server (before ++ .rename old new :: between)).server.Carries folder uid new) →
    (run server turns).Over → (run server turns).Attached folder uid new

/-- From the rename on, the label is on the UID or a refresh is due, once its row is live. -/
theorem run_kept {server : Server} {before later : List Turn}
    (fine : RunFine server (before ++ .rename old name :: later))
    (carried : ∀ between, between <+: later →
      (run server (before ++ .rename old name :: between)).server.Carries folder uid name) :
    Kept (run server (before ++ .rename old name :: later)) folder uid name := by
  obtain ⟨fits, ordinary, absent⟩ : storedName name = name ∧ Ordinary name ∧
      ¬ ∃ label, LiveRow (run server before).tables name label :=
    fine before (.rename old name) ⟨later, by simp⟩
  induction later using List.reverseRecOn with
  | nil =>
    rw [run_append]
    exact ⟨fun label live => absurd ⟨label, live⟩ absent, fun label live => absurd ⟨label, live⟩ absent⟩
  | append_singleton later turn step =>
    have whole : before ++ .rename old name :: (later ++ [turn]) =
        (before ++ .rename old name :: later) ++ [turn] := by simp
    rw [whole] at fine ⊢
    have kept := step (Runs.prefixes_init fine) fun between pre =>
      carried between (pre.trans (List.prefix_append _ _))
    rw [run_append]
    exact kept.turn (run_wellFormed server _) fits ordinary (carried later (List.prefix_append _ _)) turn
      (fine _ turn List.prefix_rfl)

/-- Where every turn meets its condition, renames reach every message. -/
theorem renames_reach (server : Server) (turns : List Turn) (fine : RunFine server turns) :
    RenamesReach server turns := by
  rintro before old new later folder uid rfl carried ⟨noneFresh, noneWaiting, noneActive⟩
  intro label live row member inFolder isUid
  rcases (run_kept fine carried).uids label live row member inFolder isUid with
    attached | (fresh | waiting) | ⟨_, holds, _⟩
  · exact attached
  · simp [noneFresh] at fresh
  · simp [noneWaiting] at waiting
  · simp [noneActive] at holds

theorem RunFine.append {server : Server} {turns : List Turn} (fine : RunFine server turns) (turn : Turn)
    (next : TurnFine (run server turns) turn) : RunFine server (turns ++ [turn]) :=
  Runs.prefixes_append fine next

/-- One message, which has the label A. -/
def mailbox : Server := ⟨[⟨['M'], some "all"⟩, ⟨['A'], none⟩], [⟨2, 1, [['A']]⟩]⟩

/-- The message is synced. -/
def synced : List Turn := [.prepareSync, .commitLabels, .finish 5, .read true 2 1, .commit 0]

/-- The process dies when the new label is committed and its handler is not started. -/
def interrupted : List Turn :=
  [.prepareSync, .commitLabels, .restart, .prepareSync, .commitLabels, .finish 6]

/-- The restarted process finds the label in the database, and refreshes nothing. -/
theorem restart_loses_rename : ¬ ∀ server turns, RenamesReach server turns := by
  intro all
  have carried : ∀ between ∈ interrupted.inits,
      (run mailbox (synced ++ .rename ['A'] ['B'] :: between)).server.Carries 2 1 ['B'] := by
    unfold Server.Carries
    decide +kernel
  have attached := all mailbox _ synced ['A'] ['B'] interrupted 2 1 rfl
    (fun between pre => carried between ((List.mem_inits between interrupted).mpr pre))
    (by unfold State.Over; decide +kernel)
  have there : ⟨2, 1, [5]⟩ ∈ (run mailbox (synced ++ .rename ['A'] ['B'] :: interrupted)).uids := by
    decide +kernel
  have live : LiveRow (run mailbox (synced ++ .rename ['A'] ['B'] :: interrupted)).tables ['B']
      ⟨7, ['B'], "", 6, none⟩ := by
    unfold LiveRow
    decide +kernel
  exact absurd (attached _ live _ there rfl rfl) (by decide)

/-- The process goes on, and the handler does its work. -/
def refreshed : List Turn :=
  [.prepareSync, .commitLabels, .startHandler, .finish 6, .acquire 0] ++ List.replicate 7 .refresh

theorem synced_fine : RunFine mailbox synced := by
  have start : RunFine mailbox [] := Runs.prefixes_nil
  have listed := ((start.append .prepareSync trivial).append .commitLabels (.inr ⟨rfl, rfl⟩)).append
    (.finish 5) trivial
  refine (listed.append (.read true 2 1) trivial).append (.commit 0) fun reading member => ?_
  cases member
  refine ⟨?_, fun name label _ carries => .inl carries⟩
  unfold AllRows
  decide +kernel

/-- A step of a handler that commits only labels with rows. -/
theorem RunFine.refresh {turns : List Turn} (fine : RunFine mailbox turns)
    (rows : (run mailbox turns).committing.all fun labels =>
      (labels.filterMap remoteLabel).all fun key =>
        ((run mailbox turns).tables.label? key.1 key.2).isSome) :
    RunFine mailbox (turns ++ [.refresh]) := by
  refine fine.append .refresh fun labels member key listed => ?_
  rw [Option.mem_def.mp member, Option.all_some, List.all_eq_true] at rows
  exact rows key listed

theorem refreshed_fine : RunFine mailbox (synced ++ .rename ['A'] ['B'] :: refreshed) := by
  have renamed : RunFine mailbox (synced ++ [.rename ['A'] ['B']]) := by
    refine synced_fine.append (.rename ['A'] ['B']) ⟨by decide +kernel,
      by unfold Ordinary; decide +kernel, ?_⟩
    rintro ⟨label, found, _⟩
    have absent : (run mailbox synced).tables.label? ['B'] none = none := by decide +kernel
    exact nomatch absent.symm.trans found
  have started := ((renamed.append .prepareSync trivial).append .commitLabels
    (.inl (by decide +kernel))).append .startHandler (by unfold TurnFine; decide +kernel)
  have begun := (started.append (.finish 6) trivial).append (.acquire 0) trivial
  have read := ((begun.refresh (by decide +kernel)).refresh (by decide +kernel)).refresh (by decide +kernel)
  exact (((read.refresh (by decide +kernel)).refresh (by decide +kernel)).refresh
    (by decide +kernel)).refresh (by decide +kernel)

theorem refreshed_reaches : RenamesReach mailbox (synced ++ .rename ['A'] ['B'] :: refreshed) :=
  renames_reach mailbox _ refreshed_fine

end LabelRefresh
end Naming
end SyncEngine
