import SyncEngine.Crispin.MessageDeletion

/-! Gmail deletes by a copy to the trash, which moves the messages it finds before they are counted. The
deletions of both clients are exact under one condition on the folders. -/
namespace SyncEngine.MessageDeletion

namespace GmailCrispinClient
variable {search : Search} {header : Option String} {deleteMultiple : Bool} {folder trash : String}

theorem finds_given (e : Entry) (given : Given header e) : finds search header e = true := by
  obtain ⟨some, same⟩ := given
  obtain ⟨text, rfl⟩ := Option.ne_none_iff_exists'.mp some
  rw [finds, same, search.finds_exact]

/-- The messages that a copy to the trash moves. -/
def moved (found : Entry → Bool) (entries : List Entry) : List Nat := (entries.filter found).map Entry.msgid

theorem gMsgids_uidsOf (mailbox : Mailbox) (found : Entry → Bool) (name : String) :
    gMsgids (uidsOf found (mailbox.folders name)) (mailbox.folders name) =
      moved found (mailbox.folders name) := by
  unfold gMsgids moved
  congr 1
  refine List.filter_congr fun e member => ?_
  rw [Bool.eq_iff_iff, decide_eq_true_eq, mem_uidsOf (mailbox.unique name) member]

/-- The entries that a copy adds to the trash. -/
def copies (found : Entry → Bool) (entries trashed : List Entry) : List Entry :=
  (entries.filter found).mapIdx fun n e => { e with uid := nextUid trashed + n }

theorem copyToTrash_eq (mailbox : Mailbox) (found : Entry → Bool) (folder trash name : String) :
    copyToTrash (uidsOf found (mailbox.folders folder)) folder trash mailbox.folders name =
      if name = trash then
        mailbox.folders trash ++ copies found (mailbox.folders folder) (mailbox.folders trash)
      else (mailbox.folders name).filter (·.msgid ∉ moved found (mailbox.folders folder)) := by
  have copied : (mailbox.folders folder).filter (·.uid ∈ uidsOf found (mailbox.folders folder)) =
      (mailbox.folders folder).filter found := by
    refine List.filter_congr fun e member => ?_
    rw [Bool.eq_iff_iff, decide_eq_true_eq, mem_uidsOf (mailbox.unique folder) member]
  simp only [copyToTrash, copied]
  rfl

theorem copies_unique (found : Entry → Bool) (entries : List Entry) {trashed : List Entry}
    (unique : (trashed.map Entry.uid).Nodup) :
    ((trashed ++ copies found entries trashed).map Entry.uid).Nodup := by
  have old : ∀ uid ∈ trashed.map Entry.uid, uid < nextUid trashed := by
    unfold nextUid
    generalize trashed.map Entry.uid = uids
    intro uid member
    induction member with
    | head => exact Nat.lt_succ_of_le (Nat.le_max_left _ _)
    | tail _ _ ih => exact Nat.lt_of_lt_of_le ih (Nat.succ_le_succ (Nat.le_max_right _ _))
  have new : (copies found entries trashed).map Entry.uid =
      (List.range (entries.filter found).length).map (nextUid trashed + ·) := by
    refine List.ext_getElem (by simp [copies]) fun n _ _ => ?_
    simp [copies]
  rw [List.map_append, new, List.nodup_append']
  refine ⟨unique, List.nodup_range.map fun a b same => by simpa using same, fun uid member copied => ?_⟩
  obtain ⟨n, -, rfl⟩ := List.mem_map.mp copied
  exact absurd (old _ member) (by omega)

/-- A copy has the header of a message that was found, so it is found as well. -/
theorem copies_found (entries trashed : List Entry) :
    (copies (finds search header) entries trashed).filter (finds search header) =
      copies (finds search header) entries trashed := by
  refine List.filter_eq_self.mpr fun copy member => ?_
  obtain ⟨n, inside, rfl⟩ := List.mem_mapIdx.mp member
  have found := (List.mem_filter.mp (List.getElem_mem inside)).2
  exact found

theorem copies_msgid {found : Entry → Bool} {entries trashed : List Entry} {copy : Entry}
    (member : copy ∈ copies found entries trashed) : copy.msgid ∈ moved found entries := by
  obtain ⟨n, inside, rfl⟩ := List.mem_mapIdx.mp member
  have original := List.mem_map_of_mem (f := Entry.msgid) (List.getElem_mem inside)
  exact original

theorem length_uidsOf_trash (entries trashed : List Entry) :
    (uidsOf (finds search header) (trashed ++ copies (finds search header) entries trashed)).length =
      (uidsOf (finds search header) entries).length + (uidsOf (finds search header) trashed).length := by
  simp only [uidsOf, List.length_map, List.filter_append, List.length_append, copies_found]
  simp only [copies, List.length_mapIdx]
  omega

/-- Other messages stay out of the trash exactly when all that is copied is asked for. -/
theorem moved_kept_iff (mailbox : Mailbox) (found : Entry → Bool) (apart : folder ≠ trash) :
    (∀ name, name ≠ trash → ∀ e ∈ mailbox.folders name, ¬ Given header e →
      e ∈ (mailbox.folders name).filter (·.msgid ∉ moved found (mailbox.folders folder))) ↔
      Spares header found (mailbox.folders folder) := by
  constructor
  · intro kept e member is_found
    by_contra other
    have left := (List.mem_filter.mp (kept folder apart e member other)).2
    have gone : e.msgid ∈ moved found (mailbox.folders folder) :=
      List.mem_map_of_mem (List.mem_filter.mpr ⟨member, is_found⟩)
    exact of_decide_eq_true left gone
  · intro spares name _ e member other
    refine List.mem_filter.mpr ⟨member, decide_eq_true fun gone => other ?_⟩
    obtain ⟨first, among, same⟩ := List.mem_map.mp gone
    obtain ⟨first_member, first_found⟩ := List.mem_filter.mp among
    obtain ⟨some, given⟩ := spares first first_member first_found
    exact ⟨some, (mailbox.consistent name folder e member first first_member same.symm).trans given⟩

theorem found_le_given {found : Entry → Bool} {entries : List Entry}
    (spares : Spares header found entries) :
    (uidsOf found entries).length ≤ (entries.filter fun e => Given header e).length := by
  rw [uidsOf, List.length_map, ← List.countP_eq_length_filter, ← List.countP_eq_length_filter]
  exact List.countP_mono_left fun e member is_found => decide_eq_true (spares e member is_found)

/-- What has been moved is missing from its folder. -/
theorem moved_uids_ne {found : Entry → Bool} {entries : List Entry} (some : uidsOf found entries ≠ []) :
    (entries.filter (·.msgid ∉ moved found entries)).map Entry.uid ≠ entries.map Entry.uid := by
  obtain ⟨uid, member⟩ := List.exists_mem_of_ne_nil _ some
  obtain ⟨e, among, -⟩ := List.mem_map.mp member
  intro same
  have shorter : (entries.filter (·.msgid ∉ moved found entries)).length < entries.length := by
    refine List.length_filter_lt_length_iff_exists.mpr ⟨e, (List.mem_filter.mp among).1, fun left => ?_⟩
    exact of_decide_eq_true left (List.mem_map_of_mem among)
  have lengths := congrArg List.length same
  rw [List.length_map, List.length_map] at lengths
  omega

/-- Nothing but the message that is asked for is found, and no more than one unless all may go. Then the
trash holds the copy and what it held before. -/
def CarefulSent (search : Search) (header : Option String) (deleteMultiple : Bool) (sent trash : String)
    (folders : Folders) : Prop :=
  uidsOf (finds search header) (folders sent) ≠ [] →
    Spares header (finds search header) (folders sent) ∧
      Goes (finds search header) deleteMultiple (folders sent) ∧
      (deleteMultiple = true ∨ uidsOf (finds search header) (folders trash) = [] →
        Spares header (taken (finds search header)) (folders trash))

/-- In the trash the copies are deleted with the rest that is found, or all of it stays. -/
theorem trash_kept_iff (entries : List Entry) {trashed : List Entry}
    (unique : (trashed.map Entry.uid).Nodup) :
    (∀ e ∈ trashed, ¬ Given header e → e ∈ (deleteMessage (finds search header) deleteMultiple
        (trashed ++ copies (finds search header) entries trashed)).2) ↔
      (Goes (finds search header) deleteMultiple (trashed ++ copies (finds search header) entries trashed) →
        Spares header (taken (finds search header)) trashed) := by
  by_cases goes : Goes (finds search header) deleteMultiple
    (trashed ++ copies (finds search header) entries trashed)
  case neg =>
    rw [deleteMessage_stays goes]
    exact iff_of_true (fun e member _ => List.mem_append_left _ member) fun goes' => absurd goes' goes
  have copies_gone : (copies (finds search header) entries trashed).filter
      (!taken (finds search header) ·) = [] := by
    refine List.filter_eq_nil_iff.mpr fun copy member => ?_
    rw [← copies_found] at member
    simp [taken, (List.mem_filter.mp member).2]
  rw [deleteMessage_goes (copies_unique _ entries unique) goes, List.filter_append, copies_gone,
    List.append_nil, ← spares_iff_kept]
  exact ⟨fun spares _ => spares, fun spares => spares goes⟩

/-- The copies are found as well, so a single message goes only when the trash has no other. -/
theorem trash_goes_iff {entries trashed : List Entry}
    (goes : Goes (finds search header) deleteMultiple entries) :
    Goes (finds search header) deleteMultiple
        (trashed ++ copies (finds search header) entries trashed) ↔
      deleteMultiple = true ∨ uidsOf (finds search header) trashed = [] := by
  have length : (uidsOf (finds search header)
    (trashed ++ copies (finds search header) entries trashed)).length = _ := length_uidsOf_trash entries trashed
  have positive := List.length_pos_iff.mpr goes.1
  have found : uidsOf (finds search header)
      (trashed ++ copies (finds search header) entries trashed) ≠ [] :=
    List.length_pos_iff.mp (by omega)
  constructor
  · rintro ⟨-, multiple | few⟩
    · exact .inl multiple
    · exact .inr (List.length_eq_zero_iff.mp (by omega))
  · rintro (multiple | empty)
    · exact ⟨found, .inl multiple⟩
    · refine ⟨found, goes.2.imp_right fun few => ?_⟩
      rw [length, empty]
      exact few

theorem deleteSentMessage_found (mailbox : Mailbox) {sent : String}
    (some : uidsOf (finds search header) (mailbox.folders sent) ≠ []) (name : String) :
    deleteSentMessage search header deleteMultiple sent trash mailbox.folders name =
      if name = trash then
        (deleteMessage (finds search header) deleteMultiple (mailbox.folders trash ++
          copies (finds search header) (mailbox.folders sent) (mailbox.folders trash))).2
      else (mailbox.folders name).filter
        (·.msgid ∉ moved (finds search header) (mailbox.folders sent)) := by
  unfold deleteSentMessage
  dsimp only
  rw [if_neg some, copyToTrash_eq mailbox, if_pos rfl, Function.update_apply, copyToTrash_eq mailbox]
  split <;> rfl

theorem deleteSentMessage_exact_iff (mailbox : Mailbox) {sent : String} (apart : sent ≠ trash) :
    Exact header deleteMultiple (some sent) mailbox.folders
        (deleteSentMessage search header deleteMultiple sent trash mailbox.folders) ↔
      CarefulSent search header deleteMultiple sent trash mailbox.folders := by
  by_cases found : uidsOf (finds search header) (mailbox.folders sent) = []
  case pos =>
    refine iff_of_true (.of_same ?_) fun some => absurd found some
    exact if_pos found
  have left : ∀ name, deleteSentMessage search header deleteMultiple sent trash mailbox.folders name = _ :=
    deleteSentMessage_found mailbox found
  constructor
  · intro exact _
    have spares : Spares header (finds search header) (mailbox.folders sent) := by
      refine (moved_kept_iff mailbox _ apart).mp fun name not_trash e member other => ?_
      have kept := exact.kept name e member other
      rwa [left, if_neg not_trash] at kept
    have goes : Goes (finds search header) deleteMultiple (mailbox.folders sent) := by
      refine ⟨found, ?_⟩
      by_contra many
      obtain ⟨single, many⟩ := not_or.mp many
      have given := found_le_given spares
      have same := exact.refused (Bool.not_eq_true _ ▸ single) sent rfl (by omega) sent
      rw [left, if_neg apart] at same
      exact moved_uids_ne found same
    refine ⟨spares, goes, fun allowed => ?_⟩
    refine (trash_kept_iff (mailbox.folders sent) (mailbox.unique trash)).mp (fun e member other => ?_)
      ((trash_goes_iff goes).mpr allowed)
    have kept := exact.kept trash e member other
    rwa [left, if_pos rfl] at kept
  · intro careful
    obtain ⟨spares, goes, trash_spares⟩ := careful found
    constructor
    · intro name e member other
      rw [left]
      split
      next is_trash =>
        subst is_trash
        have kept := (trash_kept_iff (mailbox.folders sent) (mailbox.unique name)).mpr fun trash_goes =>
          trash_spares ((trash_goes_iff goes).mp trash_goes)
        exact kept e member other
      next not_trash => exact (moved_kept_iff mailbox _ apart).mpr spares name not_trash e member other
    · rintro single _ ⟨⟩ several
      have given : _ ≤ (uidsOf (finds search header) _).length :=
        given_le_found finds_given (mailbox.folders sent)
      rcases goes.2 with multiple | few
      · rw [single] at multiple
        cases multiple
      · omega

/-- A draft that is a sent message as well loses its `\Draft`. Otherwise the one message that is found goes,
with what was flagged in the trash. -/
def CarefulDraft (search : Search) (header : Option String) (drafts sent trash : String)
    (folders : Folders) : Prop :=
  ∀ sentGmMsgid, moved (finds search header) (folders sent) = [sentGmMsgid] →
    uidsOf (finds search header) (folders drafts) ≠ [] →
      if sentGmMsgid ∈ moved (finds search header) (folders drafts) then
        Spares header (fun e => finds search header e && "\\Draft" ∈ e.flags ++ e.labels) (folders drafts)
      else
        Spares header (finds search header) (folders drafts) ∧
          (uidsOf (finds search header) (folders drafts)).length ≤ 1 ∧
          Spares header (taken fun _ => false) (folders trash)

@[simp] theorem removeDraft_uid (uids : List Nat) (e : Entry) : (removeDraft uids e).uid = e.uid := by
  unfold removeDraft
  split <;> rfl

@[simp] theorem removeDraft_msgid (uids : List Nat) (e : Entry) : (removeDraft uids e).msgid = e.msgid := by
  unfold removeDraft
  split <;> rfl

@[simp] theorem removeDraft_messageId (uids : List Nat) (e : Entry) :
    (removeDraft uids e).messageId = e.messageId := by
  unfold removeDraft
  split <;> rfl

theorem removeDraft_eq_iff (uids : List Nat) (e : Entry) :
    removeDraft uids e = e ↔ (e.uid ∈ uids → "\\Draft" ∉ e.flags ++ e.labels) := by
  obtain ⟨uid, messageId, flags, labels, msgid⟩ := e
  unfold removeDraft
  split
  next found =>
    rw [List.mem_append, not_or, imp_iff_right found]
    simp [List.filter_eq_self, List.forall_mem_ne']
  next missed => simp [missed]

/-- The mailbox after the `\Draft` has been removed. -/
def withoutDraft (uids : List Nat) (drafts : String) (mailbox : Mailbox) : Mailbox where
  folders := Function.update mailbox.folders drafts ((mailbox.folders drafts).map (removeDraft uids))
  unique name := by
    rw [Function.update_apply]
    split
    · rw [List.map_map, Function.comp_def]
      simp only [removeDraft_uid]
      exact mailbox.unique drafts
    · exact mailbox.unique name
  consistent name other e member e' member' same := by
    have earlier : ∀ name, ∀ e ∈ Function.update mailbox.folders drafts
        ((mailbox.folders drafts).map (removeDraft uids)) name,
        ∃ before ∈ mailbox.folders name, before.msgid = e.msgid ∧ before.messageId = e.messageId := by
      intro name e member
      rw [Function.update_apply] at member
      split at member
      next here =>
        obtain ⟨before, among, rfl⟩ := List.mem_map.mp member
        exact ⟨before, here ▸ among, by simp, by simp⟩
      next => exact ⟨e, member, rfl, rfl⟩
    obtain ⟨before, among, msgid, messageId⟩ := earlier name e member
    obtain ⟨before', among', msgid', messageId'⟩ := earlier other e' member'
    rw [← messageId, ← messageId']
    exact mailbox.consistent name other before among before' among' (msgid.trans (same.trans msgid'.symm))

theorem removeDraft_found (uids : List Nat) (entries : List Entry) :
    uidsOf (finds search header) (entries.map (removeDraft uids)) = uidsOf (finds search header) entries ∧
      moved (finds search header) (entries.map (removeDraft uids)) = moved (finds search header) entries := by
  simp only [uidsOf, moved, finds, List.filter_map, List.map_map, Function.comp_def, removeDraft_uid,
    removeDraft_msgid, removeDraft_messageId]
  exact ⟨rfl, rfl⟩

/-- What is not moved has not been found, so it keeps its flags. -/
theorem removeDraft_rest {found : Entry → Bool} {entries : List Entry}
    (unique : (entries.map Entry.uid).Nodup) :
    (entries.map (removeDraft (uidsOf found entries))).filter (·.msgid ∉ moved found entries) =
      entries.filter (·.msgid ∉ moved found entries) := by
  rw [List.filter_map, Function.comp_def]
  simp only [removeDraft_msgid]
  refine (List.map_congr_left fun e among => ?_).trans (List.map_id _)
  obtain ⟨member, rest⟩ := List.mem_filter.mp among
  refine (removeDraft_eq_iff _ e).mpr fun found_uid => absurd ?_ (of_decide_eq_true rest)
  exact List.mem_map_of_mem (List.mem_filter.mpr ⟨member, (mem_uidsOf unique member).mp found_uid⟩)

/-- The deletions by `msgid` and the EXPUNGE take the messages with these, and what was flagged before. -/
theorem expunge_each (msgids : List Nat) {entries : List Entry} (unique : (entries.map Entry.uid).Nodup) :
    expunge (msgids.foldl (fun entries msgid =>
        deleteMessages (uidsOf (·.msgid = msgid) entries) entries) entries) =
      entries.filter (!taken (·.msgid ∈ msgids) ·) := by
  induction msgids generalizing entries with
  | nil => simp [expunge, taken]
  | cons msgid rest ih =>
    have same : (entries.map fun e => if e.msgid = msgid then
        { e with flags := "\\Deleted" :: e.flags } else e).map Entry.uid = entries.map Entry.uid := by
      rw [List.map_map]
      refine List.map_congr_left fun e _ => ?_
      dsimp only [Function.comp]
      split <;> rfl
    simp only [List.foldl_cons, deleteMessages_uidsOf unique, decide_eq_true_eq]
    rw [ih (same ▸ unique), List.filter_map, Function.comp_def]
    have left : ∀ e : Entry, (!taken (·.msgid ∈ rest) (if e.msgid = msgid then
        { e with flags := "\\Deleted" :: e.flags } else e)) = !taken (·.msgid ∈ msgid :: rest) e := by
      intro e
      by_cases here : e.msgid = msgid <;> simp [taken, here]
    rw [List.filter_congr fun e _ => left e]
    refine (List.map_congr_left fun e among => ?_).trans (List.map_id _)
    have kept := (List.mem_filter.mp among).2
    refine if_neg fun here => ?_
    simp [taken, here] at kept

theorem withoutDraft_found (mailbox : Mailbox) (uids : List Nat) (drafts : String) :
    uidsOf (finds search header) ((withoutDraft uids drafts mailbox).folders drafts) =
        uidsOf (finds search header) (mailbox.folders drafts) ∧
      moved (finds search header) ((withoutDraft uids drafts mailbox).folders drafts) =
        moved (finds search header) (mailbox.folders drafts) := by
  have drafts_eq : (withoutDraft uids drafts mailbox).folders drafts = _ := Function.update_self drafts _ _
  rw [drafts_eq]
  exact removeDraft_found uids (mailbox.folders drafts)

theorem withoutDraft_other (mailbox : Mailbox) (uids : List Nat) {drafts name : String}
    (other : name ≠ drafts) :
    (withoutDraft uids drafts mailbox).folders name = mailbox.folders name := Function.update_of_ne other _ _

/-- A draft that is a sent message as well is refused after its `\Draft` has been removed. -/
theorem deleteDraft_found (mailbox : Mailbox) {drafts sent : String} {sentGmMsgid : Nat} {uids : List Nat}
    (found : uidsOf (finds search header) (mailbox.folders drafts) = uids) (some : uids ≠ [])
    (one : moved (finds search header) (mailbox.folders sent) = [sentGmMsgid]) :
    deleteDraft search header drafts sent trash mailbox.folders =
      if sentGmMsgid ∈ moved (finds search header) (mailbox.folders drafts) then
        (withoutDraft uids drafts mailbox).folders
      else
        let folders := copyToTrash uids drafts trash (withoutDraft uids drafts mailbox).folders
        Function.update folders trash
          (expunge ((moved (finds search header) (mailbox.folders drafts)).foldl (fun entries msgid =>
            deleteMessages (uidsOf (·.msgid = msgid) entries) entries) (folders trash))) := by
  have updated : Function.update mailbox.folders drafts ((mailbox.folders drafts).map (removeDraft uids)) =
    (withoutDraft uids drafts mailbox).folders := rfl
  have msgids := gMsgids_uidsOf (withoutDraft uids drafts mailbox) (finds search header) drafts
  rw [(withoutDraft_found mailbox uids drafts).1, (withoutDraft_found mailbox uids drafts).2, found] at msgids
  unfold deleteDraft
  rw [gMsgids_uidsOf, one]
  dsimp only
  rw [found, if_neg some, updated, msgids]

/-- A draft is deleted when one sent message has been found and has a `msgid` of its own. -/
theorem deleteDraft_deletes (mailbox : Mailbox) {drafts sent : String} {sentGmMsgid : Nat}
    (apart : drafts ≠ trash)
    (some : uidsOf (finds search header) (mailbox.folders drafts) ≠ [])
    (one : moved (finds search header) (mailbox.folders sent) = [sentGmMsgid])
    (reconciled : sentGmMsgid ∉ moved (finds search header) (mailbox.folders drafts)) (name : String) :
    deleteDraft search header drafts sent trash mailbox.folders name =
      if name = trash then (mailbox.folders trash).filter
        (!taken (·.msgid ∈ moved (finds search header) (mailbox.folders drafts)) ·)
      else (mailbox.folders name).filter
        (·.msgid ∉ moved (finds search header) (mailbox.folders drafts)) := by
  generalize found : uidsOf (finds search header) (mailbox.folders drafts) = uids at some
  obtain ⟨uids_eq, moved_eq⟩ := @withoutDraft_found search header mailbox uids drafts
  have copied := copyToTrash_eq (withoutDraft uids drafts mailbox) (finds search header) drafts trash
  rw [uids_eq, moved_eq, withoutDraft_other mailbox uids apart.symm, found] at copied
  have copies_gone : (copies (finds search header) ((withoutDraft uids drafts mailbox).folders drafts)
      (mailbox.folders trash)).filter
        (!taken (·.msgid ∈ moved (finds search header) (mailbox.folders drafts)) ·) = [] := by
    refine List.filter_eq_nil_iff.mpr fun copy member => ?_
    have gone := copies_msgid member
    rw [moved_eq] at gone
    simp [taken, gone]
  rw [deleteDraft_found mailbox found some one, if_neg reconciled, Function.update_apply, copied trash,
    if_pos rfl, expunge_each _ (copies_unique _ _ (mailbox.unique trash)), copied name, List.filter_append,
    copies_gone, List.append_nil]
  split
  next => rfl
  next not_trash =>
    by_cases here : name = drafts
    · subst here
      have rest := @removeDraft_rest (finds search header) _ (mailbox.unique name)
      rw [found] at rest
      have drafts_eq : (withoutDraft uids name mailbox).folders name = _ := Function.update_self name _ _
      rw [drafts_eq, rest]
    · rw [withoutDraft_other mailbox uids here]

theorem deleteDraft_stays (mailbox : Mailbox) {drafts sent : String}
    (stays : ¬ ∃ sentGmMsgid, moved (finds search header) (mailbox.folders sent) = [sentGmMsgid] ∧
      uidsOf (finds search header) (mailbox.folders drafts) ≠ []) :
    deleteDraft search header drafts sent trash mailbox.folders = mailbox.folders := by
  unfold deleteDraft
  rw [gMsgids_uidsOf]
  dsimp only
  split
  next sentGmMsgid one => exact if_pos (by_contra fun some => stays ⟨sentGmMsgid, one, some⟩)
  next => rfl

theorem withoutDraft_exact_iff (mailbox : Mailbox) (drafts : String) :
    Exact header deleteMultiple (some drafts) mailbox.folders
        (withoutDraft (uidsOf (finds search header) (mailbox.folders drafts)) drafts mailbox).folders ↔
      Spares header (fun e => finds search header e && "\\Draft" ∈ e.flags ++ e.labels)
        (mailbox.folders drafts) := by
  set uids := uidsOf (finds search header) (mailbox.folders drafts) with found
  have unique := mailbox.unique drafts
  have drafts_eq : (withoutDraft uids drafts mailbox).folders drafts =
    (mailbox.folders drafts).map (removeDraft uids) := Function.update_self drafts _ _
  constructor
  · intro exact e member takes
    by_contra other
    have kept := exact.kept drafts e member other
    rw [drafts_eq] at kept
    obtain ⟨before, among, same⟩ := List.mem_map.mp kept
    have uid : before.uid = e.uid := (removeDraft_uid uids before).symm.trans (congrArg Entry.uid same)
    rw [List.inj_on_of_nodup_map unique among member uid, removeDraft_eq_iff] at same
    obtain ⟨is_found, draft⟩ := (Bool.and_eq_true _ _).mp takes
    exact same ((mem_uidsOf unique member).mpr is_found) (of_decide_eq_true draft)
  · intro spares
    refine ⟨fun name e member other => ?_, fun _ _ _ _ name => ?_⟩ <;> by_cases here : name = drafts
    · subst here
      rw [drafts_eq]
      refine List.mem_map.mpr ⟨e, member, (removeDraft_eq_iff uids e).mpr fun is_found draft => other ?_⟩
      have found := (mem_uidsOf unique member).mp is_found
      exact spares e member ((Bool.and_eq_true _ _).mpr ⟨found, decide_eq_true draft⟩)
    · rwa [withoutDraft_other mailbox uids here]
    · subst here
      rw [drafts_eq, List.map_map, Function.comp_def]
      simp only [removeDraft_uid]
    · rw [withoutDraft_other mailbox uids here]

/-- The copies in the trash are asked for when the drafts are, so only the flags there matter. -/
theorem trash_spared_iff (mailbox : Mailbox) {drafts : String} {found : Entry → Bool}
    (spares : Spares header found (mailbox.folders drafts)) :
    Spares header (taken (·.msgid ∈ moved found (mailbox.folders drafts))) (mailbox.folders trash) ↔
      Spares header (taken fun _ => false) (mailbox.folders trash) := by
  refine forall₂_congr fun e member => ?_
  by_cases gone : e.msgid ∈ moved found (mailbox.folders drafts)
  case neg => simp only [taken, gone, decide_false]
  obtain ⟨first, among, same⟩ := List.mem_map.mp gone
  obtain ⟨first_member, first_found⟩ := List.mem_filter.mp among
  obtain ⟨some, given⟩ := spares first first_member first_found
  have asked : Given header e :=
    ⟨some, (mailbox.consistent trash drafts e member first first_member same.symm).trans given⟩
  exact iff_of_true (fun _ => asked) fun _ => asked

theorem deleteDraft_exact_iff (mailbox : Mailbox) {drafts sent : String} (apart : drafts ≠ trash) :
    Exact header false (some drafts) mailbox.folders
        (deleteDraft search header drafts sent trash mailbox.folders) ↔
      CarefulDraft search header drafts sent trash mailbox.folders := by
  by_cases goes : ∃ sentGmMsgid, moved (finds search header) (mailbox.folders sent) = [sentGmMsgid] ∧
      uidsOf (finds search header) (mailbox.folders drafts) ≠ []
  case neg =>
    refine iff_of_true (.of_same (deleteDraft_stays mailbox goes)) fun sentGmMsgid one found => ?_
    exact absurd ⟨sentGmMsgid, one, found⟩ goes
  obtain ⟨sentGmMsgid, one, found⟩ := goes
  have careful_iff : CarefulDraft search header drafts sent trash mailbox.folders ↔ _ :=
    ⟨fun careful => careful sentGmMsgid one found, fun careful other one' _ => by
      obtain rfl : other = sentGmMsgid := List.singleton_inj.mp (one'.symm.trans one)
      exact careful⟩
  rw [careful_iff]
  by_cases shared : sentGmMsgid ∈ moved (finds search header) (mailbox.folders drafts)
  case pos =>
    rw [deleteDraft_found mailbox rfl found one, if_pos shared, if_pos shared]
    exact withoutDraft_exact_iff mailbox drafts
  rw [if_neg shared]
  have left := deleteDraft_deletes mailbox apart found one shared
  constructor
  · intro exact
    have spares : Spares header (finds search header) (mailbox.folders drafts) := by
      refine (moved_kept_iff mailbox _ apart).mp fun name not_trash e member other => ?_
      have kept := exact.kept name e member other
      rwa [left, if_neg not_trash] at kept
    refine ⟨spares, ?_, (trash_spared_iff mailbox spares).mp (spares_iff_kept.mpr ?_)⟩
    · by_contra many
      have given := found_le_given spares
      have same := exact.refused rfl drafts rfl (by omega) drafts
      rw [left, if_neg apart] at same
      exact moved_uids_ne found same
    · have kept := exact.kept trash
      rwa [left, if_pos rfl] at kept
  · rintro ⟨spares, few, flagged⟩
    constructor
    · intro name e member other
      rw [left]
      split
      next is_trash =>
        subst is_trash
        exact spares_iff_kept.mp ((trash_spared_iff mailbox spares).mpr flagged) e member other
      next not_trash => exact (moved_kept_iff mailbox _ apart).mpr spares name not_trash e member other
    · rintro - _ ⟨⟩ several
      have given : _ ≤ (uidsOf (finds search header) _).length :=
        given_le_found finds_given (mailbox.folders drafts)
      omega

end GmailCrispinClient

/-! ## Both clients -/

section Requests
variable (client : Client) (roles : Roles) (header : Option String) (deleteMultiple : Bool)
  (folders : Folders)

def CarefulSent : Prop :=
  match client, roles.sent, roles.trash with
  | .generic, some sent, trash => CrispinClient.Careful header deleteMultiple sent trash folders
  | .gmail search, some sent, some trash =>
    GmailCrispinClient.CarefulSent search header deleteMultiple sent trash folders
  | _, _, _ => True

def CarefulDraft : Prop :=
  match client, roles.drafts, roles.sent, roles.trash with
  | .generic, some drafts, _, trash => CrispinClient.Careful header false drafts trash folders
  | .gmail search, some drafts, some sent, some trash =>
    GmailCrispinClient.CarefulDraft search header drafts sent trash folders
  | _, _, _, _ => True

/-- Of the folders before a request: what it is going to take is what the header asks for. -/
def Careful (request : Request) : Prop :=
  request.asserted = true →
    match request with
    | .deleteDraft _ header => CarefulDraft client roles header folders
    | .deleteSentEmail header => CarefulSent client roles header false folders
    | .deleteSentMessage header deleteMultiple => CarefulSent client roles header deleteMultiple folders

end Requests

theorem deleteSent_exact_iff (client : Client) (roles : Roles) (mailbox : Mailbox) :
    Exact header deleteMultiple roles.sent mailbox.folders
        (deleteSent client roles header deleteMultiple mailbox.folders) ↔
      CarefulSent client roles header deleteMultiple mailbox.folders := by
  unfold deleteSent CarefulSent
  cases is_sent : roles.sent with
  | none => cases client <;> exact iff_of_true (.of_same rfl) trivial
  | some sent =>
    cases client with
    | generic => exact CrispinClient.exact_iff mailbox (roles.sent_trash sent is_sent)
    | gmail search =>
      cases is_trash : roles.trash with
      | none => exact iff_of_true (.of_same rfl) trivial
      | some trash =>
        exact GmailCrispinClient.deleteSentMessage_exact_iff mailbox
          (roles.sent_trash sent is_sent trash is_trash)

theorem deleteDraft_exact_iff (client : Client) (roles : Roles) (mailbox : Mailbox) :
    Exact header false roles.drafts mailbox.folders (deleteDraft client roles header mailbox.folders) ↔
      CarefulDraft client roles header mailbox.folders := by
  unfold deleteDraft CarefulDraft
  cases is_drafts : roles.drafts with
  | none => cases client <;> exact iff_of_true (.of_same rfl) trivial
  | some drafts =>
    cases client with
    | generic => exact CrispinClient.exact_iff mailbox (roles.drafts_trash drafts is_drafts)
    | gmail search =>
      cases roles.sent with
      | none => exact iff_of_true (.of_same rfl) trivial
      | some sent =>
        cases is_trash : roles.trash with
        | none => exact iff_of_true (.of_same rfl) trivial
        | some trash =>
          exact GmailCrispinClient.deleteDraft_exact_iff mailbox
            (roles.drafts_trash drafts is_drafts trash is_trash)

/-- A deletion is exact when what is found, and what is flagged where an EXPUNGE goes, is what the header asks
for, and Gmail finds no more than one. -/
theorem deletion_exact_iff (client : Client) (roles : Roles) (request : Request) (mailbox : Mailbox) :
    Exact request.header request.deleteMultiple (request.searched roles) mailbox.folders
        (run client roles request mailbox.folders) ↔
      Careful client roles mailbox.folders request := by
  by_cases asserted : request.asserted = true
  case neg =>
    refine iff_of_true (.of_same ?_) fun asserted' => absurd asserted' asserted
    exact if_neg asserted
  unfold run Careful
  rw [if_pos asserted, imp_iff_right asserted]
  cases request with
  | deleteDraft nylasUid header => exact deleteDraft_exact_iff client roles mailbox
  | deleteSentEmail header | deleteSentMessage header deleteMultiple =>
    exact deleteSent_exact_iff client roles mailbox

/-! ## Two deletions that are not exact -/

def exactSearch : Search := ⟨fun asked header => asked = header, fun _ => decide_eq_true rfl⟩

def gmailRoles : Roles where
  drafts := some "Drafts"
  sent := some "Sent"
  trash := some "Trash"
  drafts_trash := by decide
  sent_trash := by decide

/-- Two sent messages with one `Message-Id`. -/
def sentTwice : Mailbox where
  folders name := if name = "Sent" then
    [⟨1, some "<a@x>", [], [], 7⟩, ⟨2, some "<a@x>", [], [], 8⟩] else []
  unique name := by split <;> decide
  consistent name other e member e' member' _ := by
    split at member <;> split at member' <;> simp_all
    rcases member with rfl | rfl <;> rcases member' with rfl | rfl <;> rfl

/-- A draft that another client has left without `Message-Id`. -/
def unnamedDraft : Mailbox where
  folders name := if name = "Drafts" then [⟨3, none, ["\\Draft"], [], 9⟩] else []
  unique name := by split <;> decide
  consistent name other e member e' member' _ := by
    split at member <;> split at member' <;> simp_all

theorem deletes_more_than_asked :
    ¬ Exact (some "<a@x>") false (some "Sent") sentTwice.folders
        (run (.gmail exactSearch) gmailRoles (.deleteSentEmail (some "<a@x>")) sentTwice.folders) ∧
      ¬ Exact none false (some "Drafts") unnamedDraft.folders
        (run .generic gmailRoles (.deleteDraft (some "4f") none) unnamedDraft.folders) := by
  constructor
  · intro exact
    exact absurd (exact.refused rfl "Sent" rfl (by decide) "Sent") (by decide)
  · intro exact
    exact absurd (exact.kept "Drafts" _ (List.mem_singleton.mpr rfl) (by decide)) (by decide)

end SyncEngine.MessageDeletion
