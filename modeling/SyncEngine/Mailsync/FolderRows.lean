import SyncEngine.Mailsync.SyncRun

/-! What each transaction of a folder engine does to the rows of its folder. -/
namespace SyncEngine

theorem mem_localUids : uid ∈ Common.localUids db folderId ↔
    ∃ row ∈ db.rows folderId, row.msgUid = uid := by
  simp only [Common.localUids, List.mem_map]

theorem row?_isNone : db.row? folderId uid = none ↔ uid ∉ Common.localUids db folderId := by
  simp only [Db.row?, List.find?_eq_none, Common.localUids, Db.rows, List.mem_map, List.mem_filter,
    decide_eq_true_eq, not_exists, not_and]
  constructor
  · intro missing row held
    exact missing row held.1 held.2
  · intro missing row member folder
    exact missing row ⟨member, folder⟩

/-! ## Removals -/

theorem removeDeletedUid_rows (now folderId uid : Nat) (db : Db) :
    (Common.removeDeletedUid now folderId uid db).rows folderId =
      (db.rows folderId).filter (fun row => row.msgUid ≠ uid) := by
  unfold Db.rows
  rw [removeDeletedUid_imapuids, Db.deleteRow, List.filter_filter, List.filter_filter]
  refine List.filter_congr fun row _ => ?_
  by_cases folder : row.folderId = folderId <;> simp [folder]

theorem removeDeletedUids_rows (now folderId : Nat) (uids : List Nat) (db : Db) :
    (Common.removeDeletedUids now folderId uids db).rows folderId =
      (db.rows folderId).filter (fun row => row.msgUid ∉ uids) := by
  induction uids generalizing db with
  | nil => simp [Common.removeDeletedUids]
  | cons uid rest ih =>
    refine (ih (Common.removeDeletedUid now folderId uid db)).trans ?_
    rw [removeDeletedUid_rows, List.filter_filter]
    refine List.filter_congr fun row _ => ?_
    simp [Bool.and_comm]

theorem removeDeletedUids_all (now : Nat) (db : Db) :
    (Common.removeDeletedUids now folderId (Common.localUids db folderId) db).rows folderId = [] := by
  rw [removeDeletedUids_rows, List.filter_eq_nil_iff]
  intro row member
  simpa using mem_localUids.mpr ⟨row, member, rfl⟩

/-! ## Updates -/

theorem updateMetadataItem_rows (L : Lookups) (now folderId : Nat) (folderRole : String) (uid : Nat)
    (newFlags : Flags) (db : Db) :
    (Common.updateMetadataItem L now folderId folderRole uid newFlags db).rows folderId =
      (db.rows folderId).map fun row =>
        if row.msgUid = uid then Common.updatedRow L newFlags row else row := by
  have updated : (db.updateRow folderId uid (Common.updatedRow L newFlags)).rows folderId =
      (db.rows folderId).map fun row =>
        if row.msgUid = uid then Common.updatedRow L newFlags row else row := by
    simp only [Db.rows, Db.updateRow, List.filter_map]
    have kept : ∀ row : ImapUid, (decide ((if row.folderId = folderId ∧ row.msgUid = uid then
        Common.updatedRow L newFlags row else row).folderId = folderId)) =
        decide (row.folderId = folderId) := by
      intro row
      split
      · rw [(updatedRow_keys L newFlags row).1]
      · rfl
    rw [show ((fun row : ImapUid => decide (row.folderId = folderId)) ∘ fun row =>
      if row.folderId = folderId ∧ row.msgUid = uid then Common.updatedRow L newFlags row else row) =
        fun row => decide (row.folderId = folderId) from funext kept]
    refine List.map_congr_left fun row member => ?_
    have folder : row.folderId = folderId := by simpa using (List.mem_filter.mp member).2
    simp only [folder, true_and]
  unfold Common.updateMetadataItem
  split
  · rename_i missing
    have absent := row?_isNone.mp missing
    refine ((List.map_congr_left fun row member => ?_).trans (List.map_id _)).symm
    exact if_neg fun same => absent (mem_localUids.mpr ⟨row, member, same⟩)
  · dsimp only
    split
    · rw [← updated]
      simp only [Db.rows, updateMessageMetadata_imapuids]
    · exact updated

/-! ## New rows -/

theorem createMessage_rows (L : Lookups) {toThread : RawMessage → Message → Db → Db}
    (keeps : ∀ msg message db, KeepsStatus db (toThread msg message db)) (now folderId : Nat)
    (folderRole : String) (msg : RawMessage) (db : Db) : ∃ messageId,
    (CreateMessage.createMessage L toThread now folderId folderRole msg db).1.rows folderId =
      db.rows folderId ++ if msg.uid ∈ Common.localUids db folderId ∨ msg.body = none then []
        else [Common.flaggedRow L folderId messageId msg] := by
  obtain ⟨messageId, created⟩ := createImapMessage_imapuids L now folderId folderRole msg db
  refine ⟨messageId, ?_⟩
  unfold CreateMessage.createMessage
  split
  · rename_i found
    have held : msg.uid ∈ Common.localUids db folderId := by
      by_contra absent
      simp [row?_isNone.mpr absent] at found
    simp [held]
  · rename_i missing
    have absent := row?_isNone.mp missing
    cases body : msg.body with
    | none => simp
    | some =>
      have rows : (Common.createImapMessage L now folderId folderRole msg db).1.rows folderId =
          db.rows folderId ++ [Common.flaggedRow L folderId messageId msg] := by
        simp [Db.rows, created]
      simp only [absent, reduceCtorEq, or_self, if_false]
      split
      · exact rows
      · rw [← rows]
        simp only [Db.rows, (keeps msg _ _).imapuids]

/-- The new row of a message that another folder has already. -/
theorem deduplicate_rows (L : Lookups) (now folderId : Nat) (msg : RawMessage) (db : Db) :
    ∃ added, (((CreateMessage.deduplicate L now folderId msg db).map Prod.fst).getD db).rows folderId =
        db.rows folderId ++ added ∧
      ∀ row ∈ added, msg.uid ∉ Common.localUids db folderId ∧ ∃ messageId,
        row = ((Common.newRow folderId messageId msg).updateFlags msg.flags).1.updateLabels
          L.labelFindOrCreate (msg.gLabels.getD []) := by
  unfold CreateMessage.deduplicate
  split
  · exact ⟨[], by simp⟩
  · split
    · exact ⟨[], by simp⟩
    · split
      · exact ⟨[], by simp⟩
      · rename_i message _ _ _ missing
        refine ⟨[((Common.newRow folderId message.id msg).updateFlags msg.flags).1.updateLabels
          L.labelFindOrCreate (msg.gLabels.getD [])], ?_, fun row member => ?_⟩
        · change (Common.updateMessageMetadata now (db.insertRow _) message.id _).rows folderId = _
          rw [Db.rows, updateMessageMetadata_imapuids, Db.insertRow_imapuids, List.filter_append]
          congr 1
          exact List.filter_cons_of_pos (by simp [ImapUid.updateLabels, ImapUid.updateFlags, Common.newRow])
        · exact ⟨row?_isNone.mp missing, message.id, List.mem_singleton.mp member⟩

/-- The transaction of a generic download: each new row is that of a message with a body, and
afterwards every such message has a row. -/
theorem commitMessages_rows (L : Lookups) (now folderId : Nat) (folderRole : String)
    (rawMessages : List RawMessage) (db : Db) : ∃ added,
    (CreateMessage.commitMessages L now folderId folderRole rawMessages db).rows folderId =
      db.rows folderId ++ added ∧
    (∀ row ∈ added, row.msgUid ∉ Common.localUids db folderId ∧
      ∃ msg ∈ rawMessages, ∃ messageId, row = Common.flaggedRow L folderId messageId msg) ∧
    ∀ msg ∈ rawMessages, msg.body.isSome → msg.uid ∈ Common.localUids
      (CreateMessage.commitMessages L now folderId folderRole rawMessages db) folderId := by
  induction rawMessages generalizing db with
  | nil => exact ⟨[], by simp [CreateMessage.commitMessages]⟩
  | cons msg rest ih =>
    let first := (CreateMessage.createMessage L (fun _ => CreateMessage.addMessageToThread L) now
      folderId folderRole msg db).1
    obtain ⟨messageId, created⟩ := createMessage_rows L (fun _ => KeepsStatus.addMessageToThread L)
      now folderId folderRole msg db
    obtain ⟨added, rows, origins, saved⟩ := ih first
    have grown : ∀ uid ∈ Common.localUids first folderId, uid ∈ Common.localUids
        (CreateMessage.commitMessages L now folderId folderRole rest first) folderId := by
      intro uid held
      obtain ⟨row, member, same⟩ := mem_localUids.mp held
      exact mem_localUids.mpr ⟨row, by rw [rows]; exact List.mem_append_left _ member, same⟩
    have old : ∀ uid ∈ Common.localUids db folderId, uid ∈ Common.localUids first folderId := by
      intro uid held
      obtain ⟨row, member, same⟩ := mem_localUids.mp held
      exact mem_localUids.mpr ⟨row, by rw [created]; exact List.mem_append_left _ member, same⟩
    refine ⟨(if msg.uid ∈ Common.localUids db folderId ∨ msg.body = none then []
      else [Common.flaggedRow L folderId messageId msg]) ++ added, ?_, ?_, ?_⟩
    · refine rows.trans ?_
      rw [created, List.append_assoc]
    · intro row member
      rcases List.mem_append.mp member with new | later
      · split at new
        · cases new
        · rename_i absent
          obtain rfl := List.mem_singleton.mp new
          rw [not_or] at absent
          exact ⟨by simpa using absent.1, msg, List.mem_cons_self, messageId, rfl⟩
      · obtain ⟨absent, origin, among, same⟩ := origins row later
        exact ⟨fun held => absent (old _ held), origin, List.mem_cons_of_mem _ among, same⟩
    · intro held member body
      rcases List.mem_cons.mp member with rfl | later
      · refine grown _ ?_
        by_cases already : held.uid ∈ Common.localUids db folderId
        · exact old _ already
        · refine mem_localUids.mpr ⟨Common.flaggedRow L folderId messageId held, ?_, by simp⟩
          rw [created, if_neg (not_or.mpr ⟨already, Option.isSome_iff_ne_none.mp body⟩)]
          simp
      · exact saved held later body

/-! ## Other folders -/

theorem removeDeletedUids_other (now : Nat) (uids : List Nat) (db : Db)
    (other : folderId ≠ otherId) :
    (Common.removeDeletedUids now folderId uids db).rows otherId = db.rows otherId := by
  induction uids generalizing db with
  | nil => rfl
  | cons uid rest ih =>
    refine (ih (Common.removeDeletedUid now folderId uid db)).trans ?_
    unfold Db.rows
    rw [removeDeletedUid_imapuids, Db.deleteRow, List.filter_filter]
    refine List.filter_congr fun row _ => ?_
    by_cases folder : row.folderId = otherId
    · simp [folder, Ne.symm other]
    · simp [folder]

theorem createMessage_other (L : Lookups) (now : Nat) (folderRole : String) (msg : RawMessage)
    (db : Db) (other : folderId ≠ otherId) :
    (CreateMessage.createMessage L (fun _ => CreateMessage.addMessageToThread L) now folderId
      folderRole msg db).1.rows otherId = db.rows otherId := by
  obtain ⟨messageId, created⟩ := createImapMessage_imapuids L now folderId folderRole msg db
  have rows : (Common.createImapMessage L now folderId folderRole msg db).1.rows otherId =
      db.rows otherId := by
    simp [Db.rows, created, other]
  unfold CreateMessage.createMessage
  split
  · rfl
  · split
    · rfl
    · dsimp only
      split
      · exact rows
      · simpa only [Db.rows, (KeepsStatus.addMessageToThread L _ _).imapuids] using rows

theorem commitMessages_other (L : Lookups) (now : Nat) (folderRole : String)
    (rawMessages : List RawMessage) (db : Db) (other : folderId ≠ otherId) :
    (CreateMessage.commitMessages L now folderId folderRole rawMessages db).rows otherId =
      db.rows otherId := by
  induction rawMessages generalizing db with
  | nil => rfl
  | cons msg rest ih => exact (ih _).trans (createMessage_other L now folderRole msg db other)

end SyncEngine
