import Mathlib.Data.List.Induction
import Mathlib.Data.List.Nodup
import SyncEngine.Mailsync.Common
import SyncEngine.Models.FlagUpdates

/-! `update_message_metadata` over the life of one message that no syncback action changes: the folder
engines create its rows and update them, in any order. -/
namespace SyncEngine.MetadataOrder

structure Account where
  categoryType : CategoryType
  folder : Nat → Folder

/-- What sync keeps up to date of a message, and `message.imapuids`. -/
structure State where
  uids : List ImapUid
  isRead : Bool
  isStarred : Bool
  isDraft : Bool
  categories : List Nat

section
variable (account : Account)

/-- `ImapUid.categories` -/
def categories (row : ImapUid) : List Nat :=
  row.labels.map Label.category ++ (account.folder row.folderId).categoryId.toList

/-- `list(categories)[0]`: a set lists its elements in an order of its own, so this can be any of them. -/
def selectCategory (draw : Nat) (categories : List Nat) : List Nat :=
  (categories[draw % categories.length]?).toList

def syncedCategories (draw : Nat) (uids : List ImapUid) : List Nat :=
  match account.categoryType with
  | .folder => selectCategory draw (uids.flatMap (categories account)).dedup
  | .label => (uids.flatMap (categories account)).dedup

def updateMessageMetadata (draw : Nat) (isDraft : Bool) (uids : List ImapUid) : State where
  uids
  isRead := uids.any fun row => row.isSeen
  isStarred := uids.any fun row => row.isFlagged
  isDraft
  categories := syncedCategories account draw uids

/-- Whether the folder is one whose drafts count. -/
def inDrafts (folderId : Nat) : Bool :=
  (account.folder folderId).canonicalName = "drafts" || (account.folder folderId).canonicalName = "all"

inductive Event
  | create (folderId : Nat) (msg : RawMessage) (draw : Nat)
  | update (folderId uid : Nat) (newFlags : Flags) (draw : Nat)

section
variable (L : Lookups) (messageId : Nat)

/-- A first row comes from `create_imap_message`. A Gmail message that is known by its `g_msgid` gets
further rows when its creation is deduplicated, where the role of the folder is not looked at. -/
def createRow (folderId : Nat) (msg : RawMessage) (draw : Nat) (state : State) : State :=
  if state.uids.any fun row => row.folderId = folderId ∧ row.msgUid = msg.uid then state
  else
    let imapuid := Common.flaggedRow L folderId messageId msg
    let isDraft :=
      if account.categoryType = .label ∧ state.uids ≠ [] then imapuid.isDraft
      else imapuid.isDraft && inDrafts account folderId
    updateMessageMetadata account draw isDraft (state.uids ++ [imapuid])

/-- One turn of the loop in `update_metadata`. -/
def updateRow (folderId uid : Nat) (newFlags : Flags) (draw : Nat) (state : State) : State :=
  match state.uids.find? fun row => row.folderId = folderId ∧ row.msgUid = uid with
  | none => state
  | some item =>
    let changed := (item.updateFlags newFlags.flags).2 || newFlags.labels.isSome
    let uids := state.uids.map fun row =>
      if row.folderId = folderId ∧ row.msgUid = uid then Common.updatedRow L newFlags row else row
    if changed then
      let isDraft := (Common.updatedRow L newFlags item).isDraft && inDrafts account folderId
      updateMessageMetadata account draw isDraft uids
    else { state with uids }

def step (state : State) : Event → State
  | .create folderId msg draw => createRow account L messageId folderId msg draw state
  | .update folderId uid newFlags draw => updateRow account L folderId uid newFlags draw state

def run (events : List Event) : State := events.foldl (step account L messageId) ⟨[], false, false, false, []⟩
end

/-- What is finally on the server of the message: its UIDs, with the same flags and labels wherever the
engines have got so far. Gmail always tells the labels. -/
structure Copies where
  entries : List (Nat × RawMessage)
  distinct : (entries.map fun entry => (entry.1, entry.2.uid)).Nodup
  labelled : account.categoryType = .label → ∀ entry ∈ entries, entry.2.gLabels.isSome

/-- Two rows agree on what the server tells about them. -/
structure Same (row other : ImapUid) : Prop where
  folderId : row.folderId = other.folderId
  msgUid : row.msgUid = other.msgUid
  columns : row.toFlagColumns = other.toFlagColumns
  labels : ∀ label, label ∈ row.labels ↔ label ∈ other.labels

structure Shows (uids rows : List ImapUid) : Prop where
  known : ∀ row ∈ uids, ∃ other ∈ rows, Same row other
  all : ∀ other ∈ rows, ∃ row ∈ uids, Same row other

def finalRows (L : Lookups) (messageId : Nat) (copies : Copies account) : List ImapUid :=
  copies.entries.map fun entry => Common.flaggedRow L entry.1 messageId entry.2

/-- Whatever the engines do, in the end the message is the same. -/
def OrderIndependent (L : Lookups) (messageId : Nat) (copies : Copies account) : Prop :=
  ∀ events events', Shows (run account L messageId events).uids (finalRows account L messageId copies) →
    Shows (run account L messageId events').uids (finalRows account L messageId copies) →
    (run account L messageId events).isDraft = (run account L messageId events').isDraft ∧
    ∀ category, category ∈ (run account L messageId events).categories ↔
      category ∈ (run account L messageId events').categories

/-- The rows leave nothing to the order: each says the same about drafts, and in an account with folders
they have no more than one category. -/
def Agreed (rows : List ImapUid) : Prop :=
  match account.categoryType with
  | .folder =>
    (∀ row ∈ rows, ∀ other ∈ rows,
      (row.isDraft && inDrafts account row.folderId) =
        (other.isDraft && inDrafts account other.folderId)) ∧
    ∀ category ∈ rows.flatMap (categories account), ∀ other ∈ rows.flatMap (categories account),
      category = other
  | .label => rows.length ≤ 1 ∨ (∀ row ∈ rows, row.isDraft = false) ∨
    ∀ row ∈ rows, row.isDraft = true ∧ inDrafts account row.folderId = true
end

/-! ## What every run keeps -/

section
variable {account : Account} {L : Lookups} {messageId : Nat}

def key (row : ImapUid) : Nat × Nat := (row.folderId, row.msgUid)

/-- The message has the value of one of its rows, and categories of its rows. -/
structure Follows (account : Account) (state : State) : Prop where
  keys : (state.uids.map key).Nodup
  isDraft : state.uids = [] ∧ state.isDraft = false ∨ ∃ row ∈ state.uids,
    state.isDraft = (row.isDraft && inDrafts account row.folderId) ∨
    account.categoryType = .label ∧ 2 ≤ state.uids.length ∧ state.isDraft = row.isDraft
  some : ∀ category ∈ state.categories, category ∈ state.uids.flatMap (categories account)
  every : account.categoryType = .label →
    ∀ category ∈ state.uids.flatMap (categories account), category ∈ state.categories
  nonempty : state.uids.flatMap (categories account) ≠ [] → state.categories ≠ []

theorem selectCategory_spec (draw : Nat) (categories : List Nat) :
    (∀ category ∈ selectCategory draw categories, category ∈ categories) ∧
      (categories ≠ [] → selectCategory draw categories ≠ []) := by
  unfold selectCategory
  constructor
  · intro category member
    rw [Option.mem_toList] at member
    exact List.mem_of_getElem? member
  · intro some
    have inside : draw % categories.length < categories.length :=
      Nat.mod_lt _ (List.length_pos_iff.mpr some)
    rw [List.getElem?_eq_getElem inside]
    simp

theorem follows_update {uids : List ImapUid} (keys : (uids.map key).Nodup) (draw : Nat)
    (isDraft : ∃ row ∈ uids, value = (row.isDraft && inDrafts account row.folderId) ∨
      account.categoryType = .label ∧ 2 ≤ uids.length ∧ value = row.isDraft) :
    Follows account (updateMessageMetadata account draw value uids) := by
  have cases : ∀ kind, account.categoryType = kind →
      (∀ category ∈ syncedCategories account draw uids, category ∈ uids.flatMap (categories account)) ∧
      (kind = .label → ∀ category ∈ uids.flatMap (categories account),
        category ∈ syncedCategories account draw uids) ∧
      (uids.flatMap (categories account) ≠ [] → syncedCategories account draw uids ≠ []) := by
    intro kind is
    have dedup : (uids.flatMap (categories account)).dedup ≠ [] ↔ uids.flatMap (categories account) ≠ [] :=
      not_congr (List.dedup_eq_nil _)
    cases kind with
    | folder =>
      obtain ⟨chosen, found⟩ := selectCategory_spec draw (uids.flatMap (categories account)).dedup
      simp only [syncedCategories, is]
      refine ⟨fun category member => List.mem_dedup.mp (chosen category member), ?_, ?_⟩
      · intro impossible
        cases impossible
      · exact fun some => found (dedup.mpr some)
    | label =>
      simp only [syncedCategories, is]
      exact ⟨fun category => List.mem_dedup.mp, fun _ category => List.mem_dedup.mpr, dedup.mpr⟩
  obtain ⟨some, every, nonempty⟩ := cases account.categoryType rfl
  exact ⟨keys, .inr isDraft, some, every, nonempty⟩

theorem updatedRow_key (newFlags : Flags) (row : ImapUid) :
    key (Common.updatedRow L newFlags row) = key row := by
  obtain ⟨flags, labels, modseq⟩ := newFlags
  cases labels <;> rfl

/-- A row that is reported unchanged. -/
theorem updatedRow_unchanged {newFlags : Flags} {row : ImapUid}
    (same : ((row.updateFlags newFlags.flags).2 || newFlags.labels.isSome) = false) :
    (Common.updatedRow L newFlags row).isDraft = row.isDraft ∧
      categories account (Common.updatedRow L newFlags row) = categories account row := by
  obtain ⟨flags, labels, modseq⟩ := newFlags
  obtain ⟨reported, noLabels⟩ := Bool.or_eq_false_iff.mp same
  cases labels with
  | some labels => cases noLabels
  | none =>
    have columns := (ImapUid.updateFlags_reports row flags).mp reported
    have draft : row.isDraft = decide ("\\Draft" ∈ flags) := congrArg FlagColumns.isDraft columns
    exact ⟨draft.symm, rfl⟩

theorem flaggedRow_key (folderId : Nat) (msg : RawMessage) :
    key (Common.flaggedRow L folderId messageId msg) = (folderId, msg.uid) := by
  obtain ⟨uid, flags, body, gThrid, gMsgid, gLabels, uidvalidity, modseq⟩ := msg
  cases gLabels <;> rfl

theorem keyed_iff {row : ImapUid} {folderId uid : Nat} :
    decide (row.folderId = folderId ∧ row.msgUid = uid) = true ↔ key row = (folderId, uid) := by
  rw [decide_eq_true_eq, key, Prod.mk.injEq]

theorem createRow_follows (follows : Follows account state) (folderId : Nat) (msg : RawMessage) (draw : Nat) :
    Follows account (createRow account L messageId folderId msg draw state) := by
  unfold createRow
  split
  next => exact follows
  next fresh =>
    have absent : (folderId, msg.uid) ∉ state.uids.map key := by
      intro member
      obtain ⟨row, listed, same⟩ := List.mem_map.mp member
      exact fresh (List.any_eq_true.mpr ⟨row, listed, keyed_iff.mpr same⟩)
    have newKey : key (Common.flaggedRow L folderId messageId msg) = (folderId, msg.uid) :=
      flaggedRow_key folderId msg
    have keys : ((state.uids ++ [Common.flaggedRow L folderId messageId msg]).map key).Nodup := by
      rw [List.map_append, List.map_singleton, newKey, List.nodup_append]
      refine ⟨follows.keys, List.nodup_singleton _, ?_⟩
      rintro other member _ single rfl
      exact absent (List.mem_singleton.mp single ▸ member)
    refine follows_update keys draw ⟨Common.flaggedRow L folderId messageId msg, by simp, ?_⟩
    split
    next known =>
      have := List.length_pos_iff.mpr known.2
      refine .inr ⟨known.1, ?_, rfl⟩
      simp only [List.length_append, List.length_singleton]
      omega
    next =>
      have here : (Common.flaggedRow L folderId messageId msg).folderId = folderId :=
        congrArg Prod.fst newKey
      rw [here]
      exact .inl rfl

theorem updateRow_follows (follows : Follows account state) (folderId uid : Nat) (newFlags : Flags)
    (draw : Nat) : Follows account (updateRow account L folderId uid newFlags draw state) := by
  unfold updateRow
  split
  next => exact follows
  next item found =>
    have listed : item ∈ state.uids := List.mem_of_find?_eq_some found
    have holds := List.find?_some found
    have named : key item = (folderId, uid) := keyed_iff.mp holds
    let change := fun row : ImapUid =>
      if row.folderId = folderId ∧ row.msgUid = uid then Common.updatedRow L newFlags row else row
    have only : ∀ row ∈ state.uids, change row = Common.updatedRow L newFlags item ∧ row = item ∨
        change row = row := by
      intro row member
      by_cases here : row.folderId = folderId ∧ row.msgUid = uid
      · have same : key row = key item := (keyed_iff.mp (decide_eq_true here)).trans named.symm
        obtain rfl := List.inj_on_of_nodup_map follows.keys member listed same
        exact .inl ⟨if_pos here, rfl⟩
      · exact .inr (if_neg here)
    have changed : change item = Common.updatedRow L newFlags item :=
      if_pos (of_decide_eq_true (keyed_iff.mpr named))
    have sameKeys : (state.uids.map change).map key = state.uids.map key := by
      rw [List.map_map]
      refine List.map_congr_left fun row member => ?_
      obtain ⟨new, rfl⟩ | old := only row member
      · rw [Function.comp_apply, new, updatedRow_key]
      · rw [Function.comp_apply, old]
    have keys : ((state.uids.map change).map key).Nodup := sameKeys ▸ follows.keys
    dsimp only
    split
    next =>
      have here : (Common.updatedRow L newFlags item).folderId = folderId :=
        congrArg Prod.fst ((updatedRow_key newFlags item).trans named)
      refine follows_update keys draw ⟨change item, List.mem_map_of_mem listed, .inl ?_⟩
      rw [changed, here]
    next unchanged =>
      have same : (Common.updatedRow L newFlags item).isDraft = item.isDraft ∧
          categories account (Common.updatedRow L newFlags item) = categories account item :=
        updatedRow_unchanged (Bool.not_eq_true _ ▸ unchanged)
      have kept : ∀ row ∈ state.uids, (change row).isDraft = row.isDraft ∧
          (change row).folderId = row.folderId ∧
          categories account (change row) = categories account row := by
        intro row member
        obtain ⟨new, rfl⟩ | old := only row member
        · rw [new]
          exact ⟨same.1, congrArg Prod.fst (updatedRow_key newFlags row), same.2⟩
        · rw [old]
          exact ⟨rfl, rfl, rfl⟩
      have sameCategories : (state.uids.map change).flatMap (categories account) =
          state.uids.flatMap (categories account) := by
        rw [List.flatMap_map]
        exact List.flatMap_congr fun row member => (kept row member).2.2
      refine ⟨keys, ?_, ?_, ?_, ?_⟩
      · rcases follows.isDraft with ⟨none, value⟩ | ⟨row, member, value⟩
        · exact .inl ⟨by rw [none]; rfl, value⟩
        · refine .inr ⟨change row, List.mem_map_of_mem member, ?_⟩
          obtain ⟨draft, folder, -⟩ := kept row member
          rw [draft, folder, List.length_map]
          exact value
      · exact fun category member => sameCategories ▸ follows.some category member
      · exact fun label category member => follows.every label category (sameCategories ▸ member)
      · exact fun some => follows.nonempty (sameCategories ▸ some)

theorem run_follows (events : List Event) : Follows account (run account L messageId events) := by
  induction events using List.reverseRecOn with
  | nil => exact ⟨List.nodup_nil, .inl ⟨rfl, rfl⟩, by simp [run], fun _ => by simp [run], by simp [run]⟩
  | append_singleton events event ih =>
    have last : run account L messageId (events ++ [event]) =
        step account L messageId (run account L messageId events) event := List.foldl_concat _ _ _ _
    rw [last]
    cases event with
    | create folderId msg draw => exact createRow_follows ih folderId msg draw
    | update folderId uid newFlags draw => exact updateRow_follows ih folderId uid newFlags draw

/-! ## Rows that agree -/

theorem Same.trans (first : Same row other) (second : Same other third) : Same row third :=
  ⟨first.folderId.trans second.folderId, first.msgUid.trans second.msgUid, first.columns.trans second.columns,
    fun label => (first.labels label).trans (second.labels label)⟩

theorem Same.categories_iff (same : Same row other) :
    category ∈ categories account row ↔ category ∈ categories account other := by
  simp only [categories, List.mem_append, List.mem_map, same.labels, same.folderId]

theorem Shows.categories_iff {uids rows : List ImapUid} (shows : Shows uids rows) :
    category ∈ uids.flatMap (categories account) ↔ category ∈ rows.flatMap (categories account) := by
  rw [List.mem_flatMap, List.mem_flatMap]
  constructor
  · rintro ⟨row, member, here⟩
    obtain ⟨other, listed, same⟩ := shows.known row member
    exact ⟨other, listed, same.categories_iff.mp here⟩
  · rintro ⟨other, listed, here⟩
    obtain ⟨row, member, same⟩ := shows.all other listed
    exact ⟨row, member, same.categories_iff.mpr here⟩

theorem Shows.length_eq {uids rows : List ImapUid} (shows : Shows uids rows) (keys : (uids.map key).Nodup)
    (distinct : (rows.map key).Nodup) : uids.length = rows.length := by
  have perm : (uids.map key).Perm (rows.map key) := by
    refine (List.perm_ext_iff_of_nodup keys distinct).mpr fun k => ?_
    rw [List.mem_map, List.mem_map]
    constructor
    · rintro ⟨row, member, rfl⟩
      obtain ⟨other, listed, same⟩ := shows.known row member
      exact ⟨other, listed, by rw [key, key, same.folderId, same.msgUid]⟩
    · rintro ⟨other, listed, rfl⟩
      obtain ⟨row, member, same⟩ := shows.all other listed
      exact ⟨row, member, by rw [key, key, same.folderId, same.msgUid]⟩
  simpa only [List.length_map] using perm.length_eq

theorem finalRows_keys (copies : Copies account) :
    ((finalRows account L messageId copies).map key).Nodup := by
  have same : (finalRows account L messageId copies).map key =
      copies.entries.map fun entry => (entry.1, entry.2.uid) := by
    rw [finalRows, List.map_map]
    exact List.map_congr_left fun entry _ => flaggedRow_key entry.1 entry.2
  exact same ▸ copies.distinct

/-- The value of a message whose rows are these. -/
theorem Follows.value {rows : List ImapUid} (follows : Follows account state)
    (shows : Shows state.uids rows) (distinct : (rows.map key).Nodup) :
    rows = [] ∧ state.isDraft = false ∨ ∃ row ∈ rows,
      state.isDraft = (row.isDraft && inDrafts account row.folderId) ∨
      account.categoryType = .label ∧ 2 ≤ rows.length ∧ state.isDraft = row.isDraft := by
  rcases follows.isDraft with ⟨none, value⟩ | ⟨row, member, value⟩
  · refine .inl ⟨?_, value⟩
    apply List.eq_nil_iff_forall_not_mem.mpr
    intro other listed
    obtain ⟨row, member, -⟩ := shows.all other listed
    rw [none] at member
    cases member
  · obtain ⟨other, listed, same⟩ := shows.known row member
    have draft : row.isDraft = other.isDraft := congrArg FlagColumns.isDraft same.columns
    rw [shows.length_eq follows.keys distinct, draft, same.folderId] at value
    exact .inr ⟨other, listed, value⟩

theorem agreed_isDraft {rows : List ImapUid} (agreed : Agreed account rows)
    (first : rows = [] ∧ value = false ∨ ∃ row ∈ rows,
      value = (row.isDraft && inDrafts account row.folderId) ∨
      account.categoryType = .label ∧ 2 ≤ rows.length ∧ value = row.isDraft)
    (second : rows = [] ∧ value' = false ∨ ∃ row ∈ rows,
      value' = (row.isDraft && inDrafts account row.folderId) ∨
      account.categoryType = .label ∧ 2 ≤ rows.length ∧ value' = row.isDraft) : value = value' := by
  rcases first with ⟨rfl, rfl⟩ | ⟨row, member, first⟩
  · rcases second with ⟨-, rfl⟩ | ⟨row, member, -⟩
    · rfl
    · cases member
  rcases second with ⟨rfl, -⟩ | ⟨other, listed, second⟩
  · cases member
  cases is : account.categoryType with
  | folder =>
    simp only [Agreed, is] at agreed
    have noLabel : CategoryType.folder ≠ .label := by decide
    rw [first.resolve_right fun label => noLabel (is.symm.trans label.1),
      second.resolve_right fun label => noLabel (is.symm.trans label.1)]
    exact agreed.1 row member other listed
  | label =>
    simp only [Agreed, is] at agreed
    rcases agreed with few | noDrafts | allDrafts
    · have many : ¬ 2 ≤ rows.length := by omega
      obtain rfl : row = other := by
        obtain ⟨only, rfl⟩ := List.length_eq_one_iff.mp
          (Nat.le_antisymm few (List.length_pos_of_mem member))
        rw [List.mem_singleton.mp member, List.mem_singleton.mp listed]
      rw [first.resolve_right fun label => many label.2.1, second.resolve_right fun label => many label.2.1]
    · have no : ∀ row ∈ rows, ∀ value, (value = (row.isDraft && inDrafts account row.folderId) ∨
          account.categoryType = .label ∧ 2 ≤ rows.length ∧ value = row.isDraft) → value = false := by
        rintro row member value (rfl | ⟨-, -, rfl⟩) <;> simp [noDrafts row member]
      rw [no row member value first, no other listed value' second]
    · have yes : ∀ row ∈ rows, ∀ value, (value = (row.isDraft && inDrafts account row.folderId) ∨
          account.categoryType = .label ∧ 2 ≤ rows.length ∧ value = row.isDraft) → value = true := by
        rintro row member value (rfl | ⟨-, -, rfl⟩) <;> simp [allDrafts row member]
      rw [yes row member value first, yes other listed value' second]

theorem agreed_independent {copies : Copies account}
    (agreed : Agreed account (finalRows account L messageId copies)) :
    OrderIndependent account L messageId copies := by
  intro events events' shows shows'
  have follows : Follows account (run account L messageId events) := run_follows events
  have follows' : Follows account (run account L messageId events') := run_follows events'
  have keys : ((finalRows account L messageId copies).map key).Nodup := finalRows_keys copies
  refine ⟨agreed_isDraft agreed (follows.value shows keys) (follows'.value shows' keys), fun category => ?_⟩
  have rows : category ∈ (run account L messageId events).uids.flatMap (categories account) ↔ _ :=
    shows.categories_iff
  have rows' : category ∈ (run account L messageId events').uids.flatMap (categories account) ↔ _ :=
    shows'.categories_iff
  cases is : account.categoryType with
  | label =>
    have all : category ∈ (run account L messageId events).categories ↔ _ :=
      ⟨follows.some category, follows.every is category⟩
    have all' : category ∈ (run account L messageId events').categories ↔ _ :=
      ⟨follows'.some category, follows'.every is category⟩
    rw [all, all', rows, rows']
  | folder =>
    simp only [Agreed, is] at agreed
    -- the one category of the rows is taken as soon as there is one
    have taken : ∀ {state : State}, Follows account state →
        Shows state.uids (finalRows account L messageId copies) →
        category ∈ (finalRows account L messageId copies).flatMap (categories account) →
        category ∈ state.categories := by
      intro state follows shows member
      obtain ⟨chosen, here⟩ := List.exists_mem_of_ne_nil _
        (follows.nonempty (List.ne_nil_of_mem (shows.categories_iff.mpr member)))
      rwa [agreed.2 category member chosen (shows.categories_iff.mp (follows.some chosen here))]
    constructor
    · exact fun member => taken follows' shows' (rows.mp (follows.some category member))
    · exact fun member => taken follows shows (rows'.mp (follows'.some category member))

/-! ## Orders that tell rows apart -/

theorem run_concat (events : List Event) (event : Event) : run account L messageId (events ++ [event]) =
    step account L messageId (run account L messageId events) event := List.foldl_concat _ _ _ _

def createEvent (draw : Nat) (entry : Nat × RawMessage) : Event := .create entry.1 entry.2 draw

def finalRow (L : Lookups) (messageId : Nat) (entry : Nat × RawMessage) : ImapUid :=
  Common.flaggedRow L entry.1 messageId entry.2

def entryKey (entry : Nat × RawMessage) : Nat × Nat := (entry.1, entry.2.uid)

/-- One more row, as long as its UID is new. -/
theorem create_fresh {events : List Event} {entry : Nat × RawMessage}
    (fresh : entryKey entry ∉ (run account L messageId events).uids.map key) (draw : Nat) :
    run account L messageId (events ++ [createEvent draw entry]) =
      updateMessageMetadata account draw
        (if account.categoryType = .label ∧ (run account L messageId events).uids ≠ [] then
          (finalRow L messageId entry).isDraft
        else (finalRow L messageId entry).isDraft && inDrafts account entry.1)
        ((run account L messageId events).uids ++ [finalRow L messageId entry]) := by
  rw [run_concat]
  unfold createEvent step createRow
  dsimp only
  rw [if_neg]
  · rfl
  · intro known
    obtain ⟨row, member, same⟩ := List.any_eq_true.mp known
    exact fresh (List.mem_map.mpr ⟨row, member, keyed_iff.mp same⟩)

theorem finalRow_key (entry : Nat × RawMessage) : key (finalRow L messageId entry) = entryKey entry :=
  flaggedRow_key entry.1 entry.2

theorem entryKey_notMem {entries : List (Nat × RawMessage)}
    (distinct : ((entries ++ [entry]).map entryKey).Nodup) :
    entryKey entry ∉ (entries.map (finalRow L messageId)).map key := by
  rw [List.map_map]
  intro member
  obtain ⟨other, listed, same⟩ := List.mem_map.mp member
  rw [Function.comp_apply, finalRow_key] at same
  rw [List.map_append, List.map_singleton] at distinct
  exact List.disjoint_of_nodup_append distinct (same ▸ List.mem_map_of_mem listed) (List.mem_singleton.mpr rfl)

theorem run_creates (entries : List (Nat × RawMessage)) (distinct : (entries.map entryKey).Nodup) :
    (run account L messageId (entries.map (createEvent 0))).uids = entries.map (finalRow L messageId) := by
  induction entries using List.reverseRecOn with
  | nil => rfl
  | append_singleton entries entry ih =>
    have uids := ih (distinct.sublist ((List.sublist_append_left _ _).map entryKey))
    have fresh : entryKey entry ∉
        (run account L messageId (entries.map (createEvent 0))).uids.map key := by
      rw [uids]
      exact entryKey_notMem distinct
    rw [List.map_append, List.map_singleton, create_fresh fresh, uids, List.map_append, List.map_singleton]
    rfl

/-- The others first, and then this one. -/
structure LastOf (entries others : List (Nat × RawMessage)) (entry : Nat × RawMessage) : Prop where
  distinct : ((others ++ [entry]).map entryKey).Nodup
  mem_iff : ∀ other, other ∈ others ++ [entry] ↔ other ∈ entries
  length : others.length + 1 = entries.length

theorem LastOf.created (last : LastOf entries others entry) :
    (run account L messageId (others.map (createEvent 0))).uids = others.map (finalRow L messageId) :=
  run_creates others (last.distinct.sublist ((List.sublist_append_left _ _).map entryKey))

theorem LastOf.fresh (last : LastOf entries others entry) :
    entryKey entry ∉ (run account L messageId (others.map (createEvent 0))).uids.map key :=
  last.created ▸ entryKey_notMem last.distinct

theorem exists_last (copies : Copies account) {entry : Nat × RawMessage} (member : entry ∈ copies.entries) :
    ∃ others, LastOf copies.entries others entry := by
  obtain ⟨before, after, split⟩ := List.append_of_mem member
  have perm : ((before ++ after) ++ [entry]).Perm copies.entries := by
    rw [split]
    exact (List.perm_append_singleton entry (before ++ after)).trans List.perm_middle.symm
  refine ⟨before ++ after, ?_, fun other => perm.mem_iff, ?_⟩
  · exact (perm.map entryKey).nodup_iff.mpr copies.distinct
  · simpa only [List.length_append, List.length_singleton] using perm.length_eq

theorem shows_of_mem_iff {copies : Copies account} {order : List (Nat × RawMessage)}
    (same : ∀ other, other ∈ order ↔ other ∈ copies.entries) :
    Shows (order.map (finalRow L messageId)) (finalRows account L messageId copies) := by
  have reflexive : ∀ row : ImapUid, Same row row := fun row => ⟨rfl, rfl, rfl, fun _ => Iff.rfl⟩
  constructor
  · intro row member
    obtain ⟨entry, listed, rfl⟩ := List.mem_map.mp member
    exact ⟨_, List.mem_map_of_mem ((same entry).mp listed), reflexive _⟩
  · intro row member
    obtain ⟨entry, listed, rfl⟩ := List.mem_map.mp member
    exact ⟨_, List.mem_map_of_mem ((same entry).mpr listed), reflexive _⟩

/-- A run that creates the row of this entry last. -/
theorem created_last {copies : Copies account} (last : LastOf copies.entries others entry) (draw : Nat) :
    ∃ events, run account L messageId events =
        updateMessageMetadata account draw
          (if account.categoryType = .label ∧ others ≠ [] then (finalRow L messageId entry).isDraft
          else (finalRow L messageId entry).isDraft && inDrafts account entry.1)
          ((others ++ [entry]).map (finalRow L messageId)) ∧
      Shows (run account L messageId events).uids (finalRows account L messageId copies) := by
  have run := create_fresh (last.fresh : _ ∉ (run account L messageId _).uids.map key) draw
  have some : others.map (finalRow L messageId) ≠ [] ↔ others ≠ [] := not_congr List.map_eq_nil_iff
  simp only [last.created, some] at run
  refine ⟨_, by rw [run, List.map_append, List.map_singleton], ?_⟩
  rw [run]
  have shows : Shows _ (finalRows account L messageId copies) := shows_of_mem_iff last.mem_iff
  rwa [List.map_append, List.map_singleton] at shows

/-- The row with no labels yet, before it gets its flags and labels in an update. -/
def interim (msg : RawMessage) : RawMessage := { msg with gLabels := some [] }

theorem updated_interim {msg : RawMessage} (labelled : msg.gLabels.isSome) (folderId : Nat) :
    Same (Common.updatedRow L ⟨msg.flags, msg.gLabels, none⟩
      (Common.flaggedRow L folderId messageId (interim msg)))
      (Common.flaggedRow L folderId messageId msg) := by
  obtain ⟨uid, flags, body, gThrid, gMsgid, gLabels, uidvalidity, modseq⟩ := msg
  cases gLabels with
  | none => cases labelled
  | some labels => exact ⟨rfl, rfl, rfl, fun label => Iff.rfl⟩

theorem updateRow_last {rows : List ImapUid} (uids : state.uids = rows ++ [row])
    (here : key row = (folderId, uid)) (elsewhere : ∀ other ∈ rows, key other ≠ (folderId, uid))
    (newFlags : Flags) (labelled : newFlags.labels.isSome) (draw : Nat) :
    updateRow account L folderId uid newFlags draw state =
      updateMessageMetadata account draw
        ((Common.updatedRow L newFlags row).isDraft && inDrafts account folderId)
        (rows ++ [Common.updatedRow L newFlags row]) := by
  have named : row.folderId = folderId ∧ row.msgUid = uid := Prod.mk.inj here
  have others : ∀ other ∈ rows, ¬ (other.folderId = folderId ∧ other.msgUid = uid) :=
    fun other listed same => elsewhere other listed (Prod.ext same.1 same.2)
  have found : state.uids.find? (fun row => row.folderId = folderId ∧ row.msgUid = uid) = some row := by
    have none : rows.find? (fun row => row.folderId = folderId ∧ row.msgUid = uid) = none :=
      List.find?_eq_none.mpr fun other listed same => others other listed (of_decide_eq_true same)
    rw [uids, List.find?_append, none, Option.none_or]
    simp [named]
  have changed : ((row.updateFlags newFlags.flags).2 || newFlags.labels.isSome) = true := by
    rw [labelled, Bool.or_true]
  have mapped : state.uids.map (fun row =>
      if row.folderId = folderId ∧ row.msgUid = uid then Common.updatedRow L newFlags row else row) =
      rows ++ [Common.updatedRow L newFlags row] := by
    rw [uids, List.map_append, List.map_singleton, if_pos named]
    refine congrArg (· ++ _) ((List.map_congr_left fun other listed => ?_).trans (List.map_id _))
    exact if_neg (others other listed)
  unfold updateRow
  simp only [found, changed, if_true, mapped]

/-- In a Gmail account, a run that updates the row of this entry last. -/
theorem updated_last {copies : Copies account} (label : account.categoryType = .label)
    (last : LastOf copies.entries others entry) (member : entry ∈ copies.entries) :
    ∃ events, (run account L messageId events).isDraft =
        ((finalRow L messageId entry).isDraft && inDrafts account entry.1) ∧
      Shows (run account L messageId events).uids (finalRows account L messageId copies) := by
  have labelled := copies.labelled label entry member
  have elsewhere : ∀ row ∈ others.map (finalRow L messageId), key row ≠ entryKey entry := by
    intro row listed same
    exact entryKey_notMem last.distinct (List.mem_map.mpr ⟨row, listed, same⟩)
  have fresh : entryKey (entry.1, interim entry.2) ∉
      (run account L messageId (others.map (createEvent 0))).uids.map key := last.fresh
  have created := congrArg State.uids (create_fresh fresh 0)
  simp only [last.created, updateMessageMetadata] at created
  have isKey : key (finalRow L messageId (entry.1, interim entry.2)) = (entry.1, entry.2.uid) :=
    finalRow_key (entry.1, interim entry.2)
  have updated : updateRow account L _ _ _ 0 _ = _ := updateRow_last created isKey elsewhere
    ⟨entry.2.flags, entry.2.gLabels, none⟩ labelled 0
  have same : Same (Common.updatedRow L ⟨entry.2.flags, entry.2.gLabels, none⟩
      (finalRow L messageId (entry.1, interim entry.2))) (finalRow L messageId entry) :=
    updated_interim labelled entry.1
  refine ⟨others.map (createEvent 0) ++ [createEvent 0 (entry.1, interim entry.2)] ++
    [.update entry.1 entry.2.uid ⟨entry.2.flags, entry.2.gLabels, none⟩ 0], ?_⟩
  rw [run_concat, step, updated]
  refine ⟨congrArg (· && inDrafts account entry.1) (congrArg FlagColumns.isDraft same.columns), ?_⟩
  have shows : Shows _ (finalRows account L messageId copies) := shows_of_mem_iff last.mem_iff
  rw [List.map_append, List.map_singleton] at shows
  constructor
  · intro row listed
    rcases List.mem_append.mp listed with old | new
    · exact shows.known row (List.mem_append_left _ old)
    · rw [List.mem_singleton.mp new]
      obtain ⟨other, there, alike⟩ := shows.known (finalRow L messageId entry) (by simp)
      exact ⟨other, there, same.trans alike⟩
  · intro other listed
    obtain ⟨row, there, alike⟩ := shows.all other listed
    rcases List.mem_append.mp there with old | new
    · exact ⟨row, List.mem_append_left _ old, alike⟩
    · rw [List.mem_singleton.mp new] at alike
      exact ⟨_, List.mem_append_right _ (List.mem_singleton.mpr rfl), same.trans alike⟩

theorem mem_finalRows {copies : Copies account} : row ∈ finalRows account L messageId copies ↔
    ∃ entry ∈ copies.entries, finalRow L messageId entry = row := List.mem_map

theorem finalRow_folderId (entry : Nat × RawMessage) : (finalRow L messageId entry).folderId = entry.1 :=
  congrArg Prod.fst (finalRow_key entry)

/-- In an account with folders a set of categories can give any of them. -/
theorem exists_draw (folder : account.categoryType = .folder) {uids : List ImapUid}
    (member : category ∈ uids.flatMap (categories account)) :
    ∃ draw, syncedCategories account draw uids = [category] := by
  obtain ⟨draw, inside, here⟩ := List.mem_iff_getElem.mp (List.mem_dedup.mpr member)
  refine ⟨draw, ?_⟩
  simp only [syncedCategories, folder, selectCategory, Nat.mod_eq_of_lt inside]
  rw [List.getElem?_eq_getElem inside, here]
  rfl

theorem independent_agreed {copies : Copies account}
    (independent : OrderIndependent account L messageId copies) :
    Agreed account (finalRows account L messageId copies) := by
  cases is : account.categoryType with
  | folder =>
    have noLabel : account.categoryType ≠ .label := by
      rw [is]
      decide
    have created : ∀ entry ∈ copies.entries, ∃ order : List (Nat × RawMessage),
        (∀ other, other ∈ order ↔ other ∈ copies.entries) ∧ ∀ draw, ∃ events,
        run account L messageId events = updateMessageMetadata account draw
          ((finalRow L messageId entry).isDraft && inDrafts account entry.1)
          (order.map (finalRow L messageId)) ∧
        Shows (run account L messageId events).uids (finalRows account L messageId copies) := by
      intro entry member
      obtain ⟨others, last⟩ := exists_last copies member
      refine ⟨others ++ [entry], last.mem_iff, fun draw => ?_⟩
      obtain ⟨events, run, shows⟩ := created_last last draw
      rw [if_neg fun both => noLabel both.1] at run
      exact ⟨events, run, shows⟩
    simp only [Agreed, is]
    constructor
    · intro row member other listed
      obtain ⟨entry, here, rfl⟩ := mem_finalRows.mp member
      obtain ⟨entry', there, rfl⟩ := mem_finalRows.mp listed
      obtain ⟨order, -, runs⟩ := created entry here
      obtain ⟨order', -, runs'⟩ := created entry' there
      obtain ⟨events, run, shows⟩ := runs 0
      obtain ⟨events', run', shows'⟩ := runs' 0
      have same := (independent events events' shows shows').1
      rw [run, run'] at same
      rwa [finalRow_folderId, finalRow_folderId]
    · intro category member other listed
      obtain ⟨row, here, -⟩ := List.mem_flatMap.mp member
      obtain ⟨entry, inside, rfl⟩ := mem_finalRows.mp here
      obtain ⟨order, same, runs⟩ := created entry inside
      have shown : Shows (order.map (finalRow L messageId)) (finalRows account L messageId copies) :=
        shows_of_mem_iff same
      obtain ⟨draw, drawn⟩ := exists_draw is (shown.categories_iff.mpr member)
      obtain ⟨draw', drawn'⟩ := exists_draw is (shown.categories_iff.mpr listed)
      obtain ⟨events, run, shows⟩ := runs draw
      obtain ⟨events', run', shows'⟩ := runs draw'
      have alike := (independent events events' shows shows').2 category
      rw [run, run'] at alike
      simp only [updateMessageMetadata, drawn, drawn'] at alike
      exact List.mem_singleton.mp (alike.mp (List.mem_singleton.mpr rfl))
  | label =>
    simp only [Agreed, is]
    by_cases few : (finalRows account L messageId copies).length ≤ 1
    · exact .inl few
    have values : ∀ entry ∈ copies.entries, ∀ entry' ∈ copies.entries,
        (finalRow L messageId entry).isDraft = (finalRow L messageId entry').isDraft ∧
        (finalRow L messageId entry).isDraft =
          ((finalRow L messageId entry').isDraft && inDrafts account entry'.1) := by
      intro entry here entry' there
      have created : ∀ entry ∈ copies.entries, ∃ events,
          (run account L messageId events).isDraft = (finalRow L messageId entry).isDraft ∧
          Shows (run account L messageId events).uids (finalRows account L messageId copies) := by
        intro entry member
        obtain ⟨others, last⟩ := exists_last copies member
        have some : others ≠ [] := by
          rintro rfl
          have length := last.length
          rw [finalRows, List.length_map] at few
          exact few (by simpa using length.ge)
        obtain ⟨events, run, shows⟩ := created_last last 0
        rw [if_pos ⟨is, some⟩] at run
        exact ⟨events, by rw [run]; rfl, shows⟩
      obtain ⟨events, value, shows⟩ := created entry here
      obtain ⟨events', value', shows'⟩ := created entry' there
      obtain ⟨others, last⟩ := exists_last copies there
      obtain ⟨updates, updated, shows''⟩ := updated_last is last there
      refine ⟨?_, ?_⟩
      · rw [← value, ← value']
        exact (independent events events' shows shows').1
      · rw [← value, ← updated]
        exact (independent events updates shows shows'').1
    by_cases drafts : ∃ entry ∈ copies.entries, (finalRow L messageId entry).isDraft = true
    · obtain ⟨draft, here, value⟩ := drafts
      refine .inr (.inr fun row member => ?_)
      obtain ⟨entry, there, rfl⟩ := mem_finalRows.mp member
      obtain ⟨same, inFolder⟩ := values draft here entry there
      rw [value] at same inFolder
      rw [finalRow_folderId]
      exact ⟨same.symm, (Bool.and_eq_true_iff.mp inFolder.symm).2⟩
    · refine .inr (.inl fun row member => ?_)
      obtain ⟨entry, there, rfl⟩ := mem_finalRows.mp member
      exact Bool.eq_false_of_not_eq_true fun value => drafts ⟨entry, there, value⟩

/-- The message is a function of its rows exactly when the rows agree. -/
theorem orderIndependent_iff (account : Account) (L : Lookups) (messageId : Nat) (copies : Copies account) :
    OrderIndependent account L messageId copies ↔ Agreed account (finalRows account L messageId copies) :=
  ⟨independent_agreed, agreed_independent⟩

/-- A draft that was also copied to the inbox, where it is none. -/
def copiedAccount : Account where
  categoryType := .folder
  folder id := if id = 1 then ⟨1, "Drafts", "drafts", some 10⟩ else ⟨2, "INBOX", "inbox", some 20⟩

def copiedDraft : Copies copiedAccount where
  entries := [(1, ⟨5, ["\\Draft"], none, none, none, none, 1, 1⟩), (2, ⟨7, [], none, none, none, none, 1, 1⟩)]
  distinct := by decide
  labelled := by
    intro impossible
    cases impossible

/-- Lookups that find nothing. -/
def noLookups : Lookups where
  createFromSynced _ :=
    { id := 0, threadId := none, subject := "", receivedDate := 0, snippet := "", isRead := false
      isStarred := false, isDraft := false, categories := [], categoriesChanges := false, gMsgid := none
      gThrid := none, deletedAt := none, hadUid := false }
  reconcileMessage _ _ := none
  fetchCorrespondingThread _ _ := none
  chooseExistingThreadForGmail _ _ := none
  cleanupSubject := id
  labelFindOrCreate name canonicalName := ⟨name, canonicalName.getD "", 0⟩

theorem copiedDraft_depends : ¬ ∀ account L messageId (copies : Copies account),
    OrderIndependent account L messageId copies := by
  intro independent
  have agreed := independent_agreed (independent copiedAccount noLookups 1 copiedDraft)
  have same := agreed.1 _ (mem_finalRows.mpr ⟨_, .head _, rfl⟩) _
    (mem_finalRows.mpr ⟨_, .tail _ (.head _), rfl⟩)
  exact absurd same (by decide)

end

end SyncEngine.MetadataOrder
