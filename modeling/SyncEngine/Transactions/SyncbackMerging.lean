import SyncEngine.Transactions.Syncback
import SyncEngine.Util.Lookup
import Mathlib.Data.Finset.Image
import Mathlib.Data.List.Perm.Basic

/-! What the tasks of a batch do to the remote mailbox and to the log. Merging a run of label changes
leaves both as one task for each entry does, whatever the other actions of the batch are. -/
namespace SyncEngine.SyncbackMerging
open Syncback

/-- A row that maps a UID of a folder to a message. -/
structure ImapUid where
  msgUid : Nat
  folderName : String
  messageId : Nat

/-- The labels of the messages, by folder and UID. -/
abbrev Mailbox := String → Nat → Option (Finset String)

abbrev Mapping := List (String × List Nat)

/-- `rest` is what only the other actions use. -/
structure World (S : Type) where
  log : Log
  imapUids : List ImapUid
  mailbox : Mailbox
  rest : S

def isPending (log : Log) (id : Nat) : Bool := (log[id]?).any fun entry => entry.status = .pending

/-- The orders in which the database returns the rows of the two queries and a dict its items. -/
structure Orders where
  entries : Log → List Nat → List Nat
  uids : List ImapUid → Nat → List (Nat × String)
  items : Mapping → Mapping
  entries_perm : ∀ log ids, (entries log ids).Perm ((List.range log.length).filter (· ∈ ids))
  uids_perm : ∀ imapUids messageId, (uids imapUids messageId).Perm
    ((imapUids.filter (·.messageId = messageId)).map fun row => (row.msgUid, row.folderName))
  items_perm : ∀ mapping, (items mapping).Perm mapping

/-- `mapping[folder_name].extend(uids)`, for a folder that may be new to the dict. -/
def extend (folderName : String) (uids : List Nat) : Mapping → Mapping
  | [] => [(folderName, uids)]
  | (name, present) :: rest =>
    if name = folderName then (name, present ++ uids) :: rest
    else (name, present) :: extend folderName uids rest

/-- A command on the UIDs of the selected folder. It passes over those that no message has. -/
def store (change : Finset String → Finset String) (folderName : String) (uids : List Nat)
    (mailbox : Mailbox) : Mailbox := fun name uid =>
  if name = folderName ∧ uid ∈ uids then (mailbox name uid).map change else mailbox name uid

section Execution
variable {S : Type} (orders : Orders) (encode : String → String)
  (perform : Task → Nat → World S → World S × Bool)

def uidsByFolder (imapUids : List ImapUid) (messageId : Nat) : Mapping :=
  (orders.uids imapUids messageId).foldl (fun mapping (uid, name) => extend name [uid] mapping) []

def uidsForMessage (imapUids : List ImapUid) (messageIds : List Nat) : Mapping :=
  messageIds.foldl (fun mapping messageId =>
    (orders.items (uidsByFolder orders imapUids messageId)).foldl
      (fun mapping (name, uids) => extend name uids mapping) mapping) []

def addGmailLabels (labels : List String) : String → List Nat → Mailbox → Mailbox :=
  store (· ∪ labels.toFinset)

def removeGmailLabels (labels : List String) : String → List Nat → Mailbox → Mailbox :=
  store (· \ labels.toFinset)

def changeFolder (removedLabels addedLabels : List String) (mailbox : Mailbox) (name : String)
    (uids : List Nat) : Mailbox :=
  let mailbox := if 0 < addedLabels.length then
    addGmailLabels (addedLabels.map encode) name uids mailbox else mailbox
  if 0 < removedLabels.length then
    removeGmailLabels (removedLabels.map encode) name uids mailbox else mailbox

def remoteChangeLabels (imapUids : List ImapUid) (messageIds : List Nat)
    (removedLabels addedLabels : List String) (mailbox : Mailbox) : Mailbox :=
  (orders.items (uidsForMessage orders imapUids messageIds)).foldl
    (fun mailbox (name, uids) => changeFolder encode removedLabels addedLabels mailbox name uids) mailbox

/-- Of two pairs for one id, `dict` keeps the later. -/
def getRecordsAndActionsToProcess (log : Log) (task : Task) : List Nat × List Nat :=
  let actionLogRecordMap := (task.actionLogIds.zip task.recordIds).reverse
  let actionIdsToProcess := (orders.entries log task.actionLogIds).filter (isPending log)
  (actionIdsToProcess.filterMap fun id => actionLogRecordMap.lookup id, actionIdsToProcess)

def markAsSuccessful (ids : List Nat) (log : Log) : Log :=
  log.mapIdx fun id entry => if id ∈ ids then { entry with status := .successful } else entry

/-- `perform` carries out any other action on its record, with the books of its failed attempts, and
tells whether it has succeeded in the end. The commands of a label change succeed. -/
def executeWithLock (task : Task) (w : World S) : World S :=
  let (recordsToProcess, actionIdsToProcess) := getRecordsAndActionsToProcess orders w.log task
  if actionIdsToProcess.length = 0 then w
  else if task.action = .changeLabels then
    { w with
      mailbox := remoteChangeLabels orders encode w.imapUids recordsToProcess task.removedLabels
        task.addedLabels w.mailbox
      log := markAsSuccessful actionIdsToProcess w.log }
  else
    match recordsToProcess with
    | [record] =>
      let (w, success) := perform task record w
      if success then { w with log := markAsSuccessful actionIdsToProcess w.log } else w
    | _ => w

def execute (tasks : List Task) (w : World S) : World S :=
  tasks.foldl (fun w task => executeWithLock orders encode perform task w) w

end Execution

/-! ## What one label change does -/

def Names (mapping : Mapping) (name : String) (uid : Nat) : Prop :=
  ∃ item ∈ mapping, item.1 = name ∧ uid ∈ item.2

theorem names_cons (item : String × List Nat) (rest : Mapping) (name : String) (uid : Nat) :
    Names (item :: rest) name uid ↔ (item.1 = name ∧ uid ∈ item.2) ∨ Names rest name uid :=
  List.exists_mem_cons_iff _ _ _

theorem names_extend (folderName : String) (uids : List Nat) (mapping : Mapping) (name : String) (uid : Nat) :
    Names (extend folderName uids mapping) name uid ↔
      Names mapping name uid ∨ (folderName = name ∧ uid ∈ uids) := by
  induction mapping with
  | nil => simp [extend, Names]
  | cons item rest ih =>
    obtain ⟨present, old⟩ := item
    unfold extend
    split
    case isTrue same =>
      simp only [names_cons, List.mem_append, same, and_or_left]
      rw [or_right_comm]
    case isFalse => rw [names_cons, names_cons, ih, or_assoc]

theorem names_foldl_extend (items mapping : Mapping) (name : String) (uid : Nat) :
    Names (items.foldl (fun mapping (name, uids) => extend name uids mapping) mapping) name uid ↔
      Names mapping name uid ∨ Names items name uid := by
  induction items generalizing mapping with
  | nil => simp [Names]
  | cons item items ih => rw [List.foldl_cons, ih, names_extend, names_cons, or_assoc]

section Rows
variable (orders : Orders) (imapUids : List ImapUid) (name : String) (uid : Nat)

theorem names_items (mapping : Mapping) : Names (orders.items mapping) name uid ↔ Names mapping name uid := by
  simp only [Names, (orders.items_perm mapping).mem_iff]

theorem names_uidsByFolder (messageId : Nat) :
    Names (uidsByFolder orders imapUids messageId) name uid ↔
      ∃ row ∈ imapUids, row.messageId = messageId ∧ row.folderName = name ∧ row.msgUid = uid := by
  have single (rows : List (Nat × String)) (mapping : Mapping) :
      Names (rows.foldl (fun mapping (uid, name) => extend name [uid] mapping) mapping) name uid ↔
        Names mapping name uid ∨ (uid, name) ∈ rows := by
    induction rows generalizing mapping with
    | nil => simp
    | cons row rows ih =>
      rw [List.foldl_cons, ih, names_extend]
      simp only [List.mem_cons, Prod.ext_iff]
      tauto
  rw [uidsByFolder, single, (orders.uids_perm imapUids messageId).mem_iff]
  simp only [Names, List.not_mem_nil, false_and, exists_false, false_or, List.mem_map, List.mem_filter,
    decide_eq_true_eq, Prod.mk.injEq]
  tauto

theorem names_uidsForMessage (messageIds : List Nat) :
    Names (uidsForMessage orders imapUids messageIds) name uid ↔
      ∃ row ∈ imapUids, row.messageId ∈ messageIds ∧ row.folderName = name ∧ row.msgUid = uid := by
  have collected (mapping : Mapping) :
      Names (messageIds.foldl (fun mapping messageId =>
        (orders.items (uidsByFolder orders imapUids messageId)).foldl
          (fun mapping (name, uids) => extend name uids mapping) mapping) mapping) name uid ↔
        Names mapping name uid ∨
          ∃ row ∈ imapUids, row.messageId ∈ messageIds ∧ row.folderName = name ∧ row.msgUid = uid := by
    induction messageIds generalizing mapping with
    | nil => simp
    | cons messageId messageIds ih =>
      rw [List.foldl_cons, ih, names_foldl_extend, names_items, names_uidsByFolder, or_assoc]
      simp only [List.mem_cons, or_and_right, exists_or, and_or_left]
  rw [uidsForMessage, collected]
  simp [Names]

end Rows

/-- What `store` comes to for every UID that the rows give the messages. -/
def relabel (change : Finset String → Finset String) (imapUids : List ImapUid) (messageIds : List Nat)
    (mailbox : Mailbox) : Mailbox := fun name uid =>
  if ∃ row ∈ imapUids, row.messageId ∈ messageIds ∧ row.folderName = name ∧ row.msgUid = uid then
    (mailbox name uid).map change
  else mailbox name uid

/-- The change that a task makes to the labels of each message. -/
def labelChange (encode : String → String) (removedLabels addedLabels : List String)
    (labels : Finset String) : Finset String :=
  (labels ∪ (addedLabels.map encode).toFinset) \ (removedLabels.map encode).toFinset

theorem labelChange_labelChange (encode : String → String) (removedLabels addedLabels : List String)
    (labels : Finset String) :
    labelChange encode removedLabels addedLabels (labelChange encode removedLabels addedLabels labels) =
      labelChange encode removedLabels addedLabels labels := by
  ext label
  simp only [labelChange, Finset.mem_sdiff, Finset.mem_union]
  tauto

theorem store_of_id {change : Finset String → Finset String} (same : ∀ labels, change labels = labels)
    (name : String) (uids : List Nat) (mailbox : Mailbox) : store change name uids mailbox = mailbox := by
  funext folderName uid
  have unchanged : (mailbox folderName uid).map change = mailbox folderName uid := by
    rw [show change = id from funext same, Option.map_id_fun, id]
  simp only [store, unchanged, ite_self]

theorem store_store (change after : Finset String → Finset String) (name : String) (uids : List Nat)
    (mailbox : Mailbox) :
    store after name uids (store change name uids mailbox) = store (after ∘ change) name uids mailbox := by
  funext folderName uid
  by_cases here : folderName = name ∧ uid ∈ uids
  · simp only [store, if_pos here, Option.map_map]
  · simp only [store, if_neg here]

theorem changeFolder_eq (encode : String → String) (removedLabels addedLabels : List String)
    (mailbox : Mailbox) (name : String) (uids : List Nat) :
    changeFolder encode removedLabels addedLabels mailbox name uids =
      store (labelChange encode removedLabels addedLabels) name uids mailbox := by
  have add (mailbox : Mailbox) : (if 0 < addedLabels.length then
      addGmailLabels (addedLabels.map encode) name uids mailbox else mailbox) =
      store (· ∪ (addedLabels.map encode).toFinset) name uids mailbox := by
    cases addedLabels with
    | nil => exact (store_of_id Finset.union_empty name uids mailbox).symm
    | cons => rfl
  have remove (mailbox : Mailbox) : (if 0 < removedLabels.length then
      removeGmailLabels (removedLabels.map encode) name uids mailbox else mailbox) =
      store (· \ (removedLabels.map encode).toFinset) name uids mailbox := by
    cases removedLabels with
    | nil => exact (store_of_id (fun _ => Finset.sdiff_empty) name uids mailbox).symm
    | cons => rfl
  simp only [changeFolder, add, remove, store_store]
  rfl

/-- A change that is made once more changes nothing, so the dict may hold a UID twice. -/
theorem foldl_store (change : Finset String → Finset String)
    (idempotent : ∀ labels, change (change labels) = change labels) (items : Mapping) (mailbox : Mailbox)
    (name : String) (uid : Nat) :
    (Names items name uid → items.foldl (fun mailbox (name, uids) => store change name uids mailbox) mailbox
        name uid = (mailbox name uid).map change) ∧
      (¬ Names items name uid → items.foldl (fun mailbox (name, uids) => store change name uids mailbox)
        mailbox name uid = mailbox name uid) := by
  induction items generalizing mailbox with
  | nil => simp [Names]
  | cons item items ih =>
    obtain ⟨folderName, uids⟩ := item
    obtain ⟨named, unnamed⟩ := ih (store change folderName uids mailbox)
    rw [List.foldl_cons, names_cons]
    by_cases first : folderName = name ∧ uid ∈ uids
    · have stored : store change folderName uids mailbox name uid = (mailbox name uid).map change :=
        if_pos ⟨first.1.symm, first.2⟩
      refine ⟨fun _ => ?_, fun absent => absurd (.inl first) absent⟩
      by_cases later : Names items name uid
      · rw [named later, stored, Option.map_map]
        congr 1
        exact funext idempotent
      · rw [unnamed later, stored]
    · have kept : store change folderName uids mailbox name uid = mailbox name uid :=
        if_neg fun here => first ⟨here.1.symm, here.2⟩
      constructor
      · rintro (here | later)
        · exact absurd here first
        · rw [named later, kept]
      · intro absent
        rw [unnamed fun later => absent (.inr later), kept]

theorem remoteChangeLabels_eq (orders : Orders) (encode : String → String) (imapUids : List ImapUid)
    (messageIds : List Nat) (removedLabels addedLabels : List String) (mailbox : Mailbox) :
    remoteChangeLabels orders encode imapUids messageIds removedLabels addedLabels mailbox =
      relabel (labelChange encode removedLabels addedLabels) imapUids messageIds mailbox := by
  funext name uid
  simp only [remoteChangeLabels, changeFolder_eq, relabel]
  obtain ⟨named, unnamed⟩ := foldl_store (labelChange encode removedLabels addedLabels)
    (labelChange_labelChange encode removedLabels addedLabels)
    (orders.items (uidsForMessage orders imapUids messageIds)) mailbox name uid
  rw [names_items, names_uidsForMessage] at named unnamed
  split
  case isTrue held => exact named held
  case isFalse free => exact unnamed free

theorem relabel_relabel {change : Finset String → Finset String}
    (idempotent : ∀ labels, change (change labels) = change labels) (imapUids : List ImapUid)
    (first later : List Nat) (mailbox : Mailbox) :
    relabel change imapUids later (relabel change imapUids first mailbox) =
      relabel change imapUids (first ++ later) mailbox := by
  funext name uid
  have either : (∃ row ∈ imapUids, row.messageId ∈ first ++ later ∧ row.folderName = name ∧ row.msgUid = uid) ↔
      (∃ row ∈ imapUids, row.messageId ∈ first ∧ row.folderName = name ∧ row.msgUid = uid) ∨
        ∃ row ∈ imapUids, row.messageId ∈ later ∧ row.folderName = name ∧ row.msgUid = uid := by
    simp only [List.mem_append, or_and_right, and_or_left, exists_or]
  simp only [relabel, either]
  by_cases in_first : ∃ row ∈ imapUids, row.messageId ∈ first ∧ row.folderName = name ∧ row.msgUid = uid <;>
    by_cases in_later : ∃ row ∈ imapUids, row.messageId ∈ later ∧ row.folderName = name ∧ row.msgUid = uid <;>
    simp [in_first, in_later, Function.comp_def, idempotent]

/-! ## What executing a task does -/

structure Paired (task : Task) : Prop where
  distinct : task.actionLogIds.Nodup
  length : task.actionLogIds.length = task.recordIds.length

/-- The pending entries of a task with their records. -/
def due (log : Log) (task : Task) : List (Nat × Nat) :=
  (task.actionLogIds.zip task.recordIds).filter fun (id, _) => isPending log id

/-- What a label change leaves behind when it processes these entries. -/
def settle (change : Finset String → Finset String) (due : List (Nat × Nat)) (w : World S) : World S :=
  { w with
    mailbox := relabel change w.imapUids (due.map Prod.snd) w.mailbox
    log := markAsSuccessful (due.map Prod.fst) w.log }

theorem Paired.mem_ids (paired : Paired task) (log : Log) (id : Nat) :
    id ∈ (due log task).map Prod.fst ↔ id ∈ task.actionLogIds ∧ isPending log id := by
  have ids : (task.actionLogIds.zip task.recordIds).map Prod.fst = task.actionLogIds :=
    List.map_fst_zip paired.length.le
  constructor
  · intro member
    obtain ⟨pair, among, rfl⟩ := List.mem_map.mp member
    obtain ⟨zipped, pending⟩ := List.mem_filter.mp among
    exact ⟨ids ▸ List.mem_map_of_mem zipped, pending⟩
  · rintro ⟨listed, pending⟩
    rw [← ids] at listed
    obtain ⟨pair, zipped, rfl⟩ := List.mem_map.mp listed
    exact List.mem_map_of_mem (List.mem_filter.mpr ⟨zipped, pending⟩)

theorem isPending_lt {id : Nat} (pending : isPending log id) : id < log.length := by
  by_contra outside
  simp [isPending, List.getElem?_eq_none (Nat.le_of_not_lt outside)] at pending

section Orders
variable (orders : Orders)

theorem mem_actionIds (log : Log) (task : Task) (id : Nat) :
    id ∈ (getRecordsAndActionsToProcess orders log task).2 ↔ id ∈ task.actionLogIds ∧ isPending log id := by
  simp only [getRecordsAndActionsToProcess, List.mem_filter, (orders.entries_perm log _).mem_iff,
    List.mem_range, decide_eq_true_eq]
  exact ⟨fun found => ⟨found.1.2, found.2⟩, fun found => ⟨⟨isPending_lt found.2, found.1⟩, found.2⟩⟩

theorem Paired.mem_records (paired : Paired task) (log : Log) (record : Nat) :
    record ∈ (getRecordsAndActionsToProcess orders log task).1 ↔ record ∈ (due log task).map Prod.snd := by
  have ids : (task.actionLogIds.zip task.recordIds).map Prod.fst = task.actionLogIds :=
    List.map_fst_zip paired.length.le
  have keys : ((task.actionLogIds.zip task.recordIds).reverse.map Prod.fst).Nodup := by
    rw [List.map_reverse, ids]
    exact List.nodup_reverse.mpr paired.distinct
  have found (id : Nat) : (task.actionLogIds.zip task.recordIds).reverse.lookup id = some record ↔
      (id, record) ∈ task.actionLogIds.zip task.recordIds := by
    rw [lookup_eq_some_iff keys, List.mem_reverse]
  have looked : record ∈ (getRecordsAndActionsToProcess orders log task).1 ↔
      ∃ id, (id ∈ task.actionLogIds ∧ isPending log id) ∧ (id, record) ∈ task.actionLogIds.zip task.recordIds := by
    rw [getRecordsAndActionsToProcess, List.mem_filterMap]
    exact exists_congr fun id => and_congr (mem_actionIds orders log task id) (found id)
  rw [looked, List.mem_map]
  constructor
  · rintro ⟨id, ⟨-, pending⟩, zipped⟩
    exact ⟨(id, record), List.mem_filter.mpr ⟨zipped, pending⟩, rfl⟩
  · rintro ⟨⟨id, _⟩, among, rfl⟩
    obtain ⟨zipped, pending⟩ := List.mem_filter.mp among
    exact ⟨id, ⟨(List.of_mem_zip zipped).1, pending⟩, zipped⟩

end Orders

theorem markAsSuccessful_congr (same : ∀ id, id ∈ ids ↔ id ∈ others) (log : Log) :
    markAsSuccessful ids log = markAsSuccessful others log := by
  simp only [markAsSuccessful, same]

theorem relabel_congr (same : ∀ record, record ∈ messageIds ↔ record ∈ others)
    (change : Finset String → Finset String) (imapUids : List ImapUid) (mailbox : Mailbox) :
    relabel change imapUids messageIds mailbox = relabel change imapUids others mailbox := by
  funext name uid
  simp only [relabel, same]

theorem settle_nil (change : Finset String → Finset String) (w : World S) : settle change [] w = w := by
  have kept : markAsSuccessful [] w.log = w.log := by
    rw [markAsSuccessful, List.mapIdx_eq_iff]
    simp
  have unlabelled : relabel change w.imapUids [] w.mailbox = w.mailbox := by
    funext name uid
    simp [relabel]
  simp only [settle, List.map_nil, kept, unlabelled]

/-- A change that is made once more changes nothing, so two rounds are one. -/
theorem settle_settle {change : Finset String → Finset String}
    (idempotent : ∀ labels, change (change labels) = change labels) (first later : List (Nat × Nat))
    (w : World S) : settle change later (settle change first w) = settle change (first ++ later) w := by
  have marked : markAsSuccessful (later.map Prod.fst) (markAsSuccessful (first.map Prod.fst) w.log) =
      markAsSuccessful ((first ++ later).map Prod.fst) w.log := by
    simp only [markAsSuccessful, List.mapIdx_mapIdx, List.map_append, List.mem_append]
    congr 1
    funext id entry
    by_cases in_first : id ∈ first.map Prod.fst <;> by_cases in_later : id ∈ later.map Prod.fst <;>
      simp [in_first, in_later]
  simp only [settle, relabel_relabel idempotent, marked, List.map_append]

theorem isPending_markAsSuccessful {id : Nat} (log : Log) (apart : id ∉ ids) :
    isPending (markAsSuccessful ids log) id = isPending log id := by
  simp only [isPending, markAsSuccessful, List.getElem?_mapIdx, if_neg apart, Option.map_id']

section Task
variable (orders : Orders) (encode : String → String) (perform : Task → Nat → World S → World S × Bool)

theorem executeWithLock_changeLabels (w : World S) (labels : task.action = .changeLabels)
    (paired : Paired task) :
    executeWithLock orders encode perform task w =
      settle (labelChange encode task.removedLabels task.addedLabels) (due w.log task) w := by
  have ids (id : Nat) : id ∈ (getRecordsAndActionsToProcess orders w.log task).2 ↔
      id ∈ (due w.log task).map Prod.fst :=
    (mem_actionIds orders w.log task id).trans (paired.mem_ids w.log id).symm
  unfold executeWithLock
  dsimp only
  split
  case isTrue none_pending =>
    have nothing : due w.log task = [] := by
      rw [← List.map_eq_nil_iff (f := Prod.fst), List.eq_nil_iff_forall_not_mem]
      intro id member
      rw [← ids, List.eq_nil_of_length_eq_zero none_pending] at member
      cases member
    rw [nothing, settle_nil]
  case isFalse =>
    rw [remoteChangeLabels_eq, relabel_congr (paired.mem_records orders w.log),
      markAsSuccessful_congr ids]
    rfl

/-- A task of one entry does not depend on the orders. -/
theorem executeWithLock_orders (others : Orders) (w : World S) (entry : Entry) (id : Nat) :
    executeWithLock orders encode perform (taskOf entry id) w =
      executeWithLock others encode perform (taskOf entry id) w := by
  have alone (orders : Orders) : getRecordsAndActionsToProcess orders w.log (taskOf entry id) =
      if isPending w.log id then ([entry.recordId], [id]) else ([], []) := by
    have listed (other : Nat) : other ∈ (orders.entries w.log [id]).filter (isPending w.log) ↔
        other = id ∧ isPending w.log other := by
      rw [← List.mem_singleton]
      exact mem_actionIds orders w.log (taskOf entry id) other
    have processed : (orders.entries w.log [id]).filter (isPending w.log) =
        if isPending w.log id then [id] else [] := by
      split
      case isTrue pending =>
        have once : ((orders.entries w.log [id]).filter (isPending w.log)).Nodup :=
          ((orders.entries_perm w.log [id]).nodup_iff.mpr (List.nodup_range.filter _)).filter _
        refine List.perm_singleton.mp ((List.perm_ext_iff_of_nodup once (List.nodup_singleton id)).mpr ?_)
        intro other
        rw [listed, List.mem_singleton]
        exact ⟨And.left, fun same => ⟨same, same ▸ pending⟩⟩
      case isFalse settled =>
        refine List.eq_nil_iff_forall_not_mem.mpr fun other member => settled ?_
        obtain ⟨rfl, pending⟩ := (listed other).mp member
        exact pending
    simp only [getRecordsAndActionsToProcess, taskOf, processed]
    split <;> simp
  have paired : Paired (taskOf entry id) := ⟨List.nodup_singleton id, rfl⟩
  by_cases labels : (taskOf entry id).action = .changeLabels
  · rw [executeWithLock_changeLabels _ _ _ _ labels paired, executeWithLock_changeLabels _ _ _ _ labels paired]
  · simp only [executeWithLock, alone, if_neg labels]

end Task

/-! ## Merging -/

section Merge
variable {last task merged : Task}

theorem labelChange_congr (encode : String → String) (removed : removedLabels.toFinset = others.toFinset)
    (added : addedLabels.toFinset = more.toFinset) :
    labelChange encode removedLabels addedLabels = labelChange encode others more := by
  have image (labels : List String) : (labels.map encode).toFinset = labels.toFinset.image encode := by
    ext
    simp
  funext labels
  simp only [labelChange, image, removed, added]

/-- What `try_merge_with` makes of two tasks. -/
structure Joined (last task merged : Task) : Prop where
  labels : merged.action = .changeLabels
  last_labels : last.action = .changeLabels
  task_labels : task.action = .changeLabels
  ids : merged.actionLogIds = last.actionLogIds ++ task.actionLogIds
  records : merged.recordIds = last.recordIds ++ task.recordIds
  last_change : ∀ encode, labelChange encode last.removedLabels last.addedLabels =
    labelChange encode merged.removedLabels merged.addedLabels
  task_change : ∀ encode, labelChange encode task.removedLabels task.addedLabels =
    labelChange encode merged.removedLabels merged.addedLabels

theorem joined (merges : last.tryMergeWith task = some merged) : Joined last task merged := by
  unfold Task.tryMergeWith at merges
  split at merges
  · cases merges
  next same =>
    split at merges
    next labels =>
      split at merges
      · cases merges
      next removed =>
        split at merges
        · cases merges
        next added =>
          split at merges
          · cases merges
          · cases merges
            exact {
              labels
              last_labels := labels
              task_labels := (not_not.mp same).symm.trans labels
              ids := rfl
              records := rfl
              last_change := fun _ => rfl
              task_change := fun encode =>
                labelChange_congr encode (not_not.mp removed).symm (not_not.mp added).symm }
    · cases merges

theorem Joined.paired (joined : Joined last task merged) (last_paired : Paired last) (paired : Paired task)
    (apart : ∀ id ∈ last.actionLogIds, id ∉ task.actionLogIds) : Paired merged where
  distinct := joined.ids ▸ List.nodup_append'.mpr ⟨last_paired.distinct, paired.distinct, apart⟩
  length := by rw [joined.ids, joined.records, List.length_append, List.length_append, last_paired.length,
    paired.length]

variable (orders : Orders) (encode : String → String) (perform : Task → Nat → World S → World S × Bool)

theorem Joined.executeWithLock (joined : Joined last task merged) (last_paired : Paired last)
    (paired : Paired task) (apart : ∀ id ∈ last.actionLogIds, id ∉ task.actionLogIds) (w : World S) :
    executeWithLock orders encode perform merged w =
      executeWithLock orders encode perform task (executeWithLock orders encode perform last w) := by
  have both : due w.log merged = due w.log last ++ due w.log task := by
    simp only [due, joined.ids, joined.records, List.zip_append last_paired.length, List.filter_append]
  have untouched : due (markAsSuccessful ((due w.log last).map Prod.fst) w.log) task = due w.log task := by
    refine List.filter_congr fun (id, _) zipped => isPending_markAsSuccessful w.log fun member => ?_
    exact apart id ((last_paired.mem_ids w.log id).mp member).1 (List.of_mem_zip zipped).1
  rw [executeWithLock_changeLabels _ _ _ _ joined.labels (joined.paired last_paired paired apart),
    executeWithLock_changeLabels _ _ _ _ joined.last_labels last_paired,
    executeWithLock_changeLabels _ _ _ _ joined.task_labels paired, both, joined.last_change, joined.task_change]
  change _ = settle _ (due (markAsSuccessful _ w.log) task) _
  rw [untouched, settle_settle (labelChange_labelChange encode _ _)]

theorem execute_append (tasks more : List Task) (w : World S) :
    execute orders encode perform (tasks ++ more) w =
      execute orders encode perform more (execute orders encode perform tasks w) :=
  List.foldl_append

theorem execute_cons (task : Task) (tasks : List Task) (w : World S) :
    execute orders encode perform (task :: tasks) w =
      execute orders encode perform tasks (executeWithLock orders encode perform task w) := rfl

/-- The loop keeps what its tasks and the entries ahead of it do. -/
theorem execute_batchLogEntries (running : List Nat) (now : Nat) (entries : List (Entry × Nat))
    (tasks : List Task) (lastTask : Option Task) (expired : List (Nat × Nat))
    (paired : ∀ last ∈ lastTask, Paired last)
    (distinct : (lastTask.toList.flatMap Task.actionLogIds ++ entries.map Prod.snd).Nodup)
    (batched : (batchLogEntries running false now tasks lastTask expired entries).2 = some batch)
    (w : World S) :
    execute orders encode perform batch w =
      execute orders encode perform
        (tasks ++ lastTask.toList ++ entries.map fun (entry, id) => taskOf entry id) w := by
  induction entries generalizing tasks lastTask expired with
  | nil =>
    unfold batchLogEntries at batched
    split at batched
    · cases batched
    · cases batched
      rw [List.map_nil, List.append_nil]
  | cons item rest ih =>
    obtain ⟨entry, id⟩ := item
    have single : ∀ task ∈ some (taskOf entry id), Paired task := by
      rintro _ ⟨⟩
      exact ⟨List.nodup_singleton id, rfl⟩
    unfold batchLogEntries at batched
    split at batched
    · cases batched
    · rw [if_neg Bool.false_ne_true] at batched
      cases lastTask with
      | none =>
        rw [ih _ _ _ single distinct batched]
        simp
      | some last =>
        dsimp only at batched
        split at batched
        case h_1 =>
          have ahead : ((some (taskOf entry id)).toList.flatMap Task.actionLogIds ++ rest.map Prod.snd).Nodup :=
            distinct.of_append_right
          rw [ih _ _ _ single ahead batched]
          simp
        case h_2 merged merges =>
          have apart : ∀ other ∈ last.actionLogIds, other ∉ (taskOf entry id).actionLogIds := by
            intro other listed same
            obtain rfl := List.mem_singleton.mp same
            have disjoint := (List.nodup_append'.mp distinct).2.2
            exact disjoint (List.mem_flatMap.mpr ⟨last, List.mem_singleton_self last, listed⟩) List.mem_cons_self
          have merged_ids : (some merged).toList.flatMap Task.actionLogIds = last.actionLogIds ++ [id] := by
            simp [(joined merges).ids, taskOf]
          have ahead : ((some merged).toList.flatMap Task.actionLogIds ++ rest.map Prod.snd).Nodup := by
            rw [merged_ids, List.append_assoc]
            simpa using distinct
          have last_paired := paired last rfl
          have merged_paired : ∀ task ∈ some merged, Paired task := by
            rintro _ ⟨⟩
            exact (joined merges).paired last_paired (single _ rfl) apart
          rw [ih _ _ _ merged_paired ahead batched]
          simp only [Option.toList_some, execute_append, List.map_cons, execute_cons,
            (joined merges).executeWithLock orders encode perform last_paired (single _ rfl) apart]
          rfl

/-- An account whose actions are skipped has no batch. -/
theorem batchLogEntries_invalid (running : List Nat) (now : Nat) (entries : List (Entry × Nat))
    (expired : List (Nat × Nat)) : (batchLogEntries running true now [] none expired entries).2 = none := by
  induction entries generalizing expired with
  | nil => rfl
  | cons item rest ih =>
    unfold batchLogEntries
    split
    · rfl
    · rw [if_pos rfl]
      dsimp only
      split <;> exact ih _

theorem execute_orders (others : Orders) (entries : List (Entry × Nat)) (w : World S) :
    execute orders encode perform (entries.map fun (entry, id) => taskOf entry id) w =
      execute others encode perform (entries.map fun (entry, id) => taskOf entry id) w := by
  induction entries generalizing w with
  | nil => rfl
  | cons item rest ih =>
    rw [List.map_cons, execute_cons, execute_cons, executeWithLock_orders orders encode perform others, ih]

end Merge

/-- The batch of the entries of an account leaves the mailbox, the log and the database as a task for each
entry does, in any orders of rows and items, and with any effect of the other actions. -/
theorem merged_tasks_settle_alike (orders others : Orders) (encode : String → String)
    (perform : Task → Nat → World S → World S × Bool) (running : List Nat) (invalid : Bool) (now : Nat)
    (entries : List (Entry × Nat)) (batch : List Task) (distinct : (entries.map Prod.snd).Nodup)
    (batched : (batchLogEntries running invalid now [] none [] entries).2 = some batch) (w : World S) :
    execute orders encode perform batch w =
      execute others encode perform (entries.map fun (entry, id) => taskOf entry id) w := by
  cases invalid with
  | true =>
    rw [batchLogEntries_invalid] at batched
    cases batched
  | false =>
    rw [execute_batchLogEntries orders encode perform running now entries [] none [] nofun distinct batched]
    exact execute_orders orders encode perform others entries w

section Trace

/-- The orders of the tables and of insertion. -/
def Orders.plain : Orders where
  entries log ids := (List.range log.length).filter (· ∈ ids)
  uids imapUids messageId := (imapUids.filter (·.messageId = messageId)).map fun row => (row.msgUid, row.folderName)
  items mapping := mapping
  entries_perm _ _ := .refl _
  uids_perm _ _ := .refl _
  items_perm _ := .refl _

/-- An entry that moves a message from the inbox to the archive. -/
def archive (recordId : Nat) (removedLabels : List String) : Entry where
  action := .changeLabels
  recordId
  removedLabels
  addedLabels := ["Archive"]
  createdAt := 0
  status := .pending
  retries := 0
  tries := 0
  expired := none

/-- Two of three entries are merged, and the starring between the second and the third is not. -/
def archived : List (Entry × Nat) :=
  [(archive 5 ["\\Inbox"], 0), (archive 6 ["\\Inbox", "\\Inbox"], 1),
    ({ archive 5 [] with action := .markStarred }, 2), (archive 5 ["\\Inbox"], 3)]

def archivedBatch : List Task :=
  [⟨.changeLabels, [0, 1], [5, 6], ["\\Inbox"], ["Archive"]⟩, ⟨.markStarred, [2], [5], [], ["Archive"]⟩,
    ⟨.changeLabels, [3], [5], ["\\Inbox"], ["Archive"]⟩]

def beforeArchive : World Unit where
  log := archived.map Prod.fst
  imapUids := [⟨11, "INBOX", 5⟩, ⟨12, "INBOX", 6⟩, ⟨40, "All Mail", 5⟩]
  mailbox _ _ := some {"\\Inbox"}
  rest := ()

theorem archived_settles_alike : execute .plain id (fun _ _ w => (w, true)) archivedBatch beforeArchive =
    execute .plain id (fun _ _ w => (w, true)) (archived.map fun (entry, id) => taskOf entry id) beforeArchive :=
  merged_tasks_settle_alike .plain .plain id _ [] false 0 archived archivedBatch (by decide) (by decide)
    beforeArchive

end Trace

end SyncEngine.SyncbackMerging
