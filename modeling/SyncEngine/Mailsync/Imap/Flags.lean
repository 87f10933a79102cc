import SyncEngine.Mailsync.FolderRows
import SyncEngine.Mailsync.Imap.Engine

/-! The flags that the server has for a message, as they are reported and as they are stored. -/
namespace SyncEngine
namespace Imap

/-! ## Versions and columns -/

/-- A label decides about drafts where there are labels. -/
def Version.columns (version : Version) : FlagColumns :=
  match version.labels with
  | none => .ofFlags version.flags
  | some labels => { FlagColumns.ofFlags version.flags with isDraft := "\\Draft" ∈ labels }

/-- The item of a response to FETCH with FLAGS and MODSEQ. -/
def Version.item (version : Version) : Flags where
  flags := version.flags
  labels := version.labels
  modseq := some version.modseq

theorem updatedRow_columns (L : Lookups) (version : Version) (row : ImapUid) :
    (Common.updatedRow L version.item row).toFlagColumns = version.columns := by
  unfold Common.updatedRow Version.columns Version.item
  cases version.labels <;> rfl

theorem flaggedRow_columns (L : Lookups) (version : Version) {msg : RawMessage}
    (flags : msg.flags = version.flags) (labels : msg.gLabels = version.labels) :
    (Common.flaggedRow L folderId messageId msg).toFlagColumns = version.columns := by
  unfold Common.flaggedRow Version.columns
  rw [labels, ← flags]
  cases version.labels <;> rfl

/-! ## What the server reports -/
section Reports
variable {server : Server} {session : Session} {mailbox : Mailbox}

theorem mem_allUids : uid ∈ mailbox.allUids ↔ mailbox.Exists uid := by
  simp only [Mailbox.allUids, List.mem_filter, List.mem_range, decide_eq_true_eq, and_iff_right_iff_imp]
  intro present
  by_contra beyond
  have never : mailbox.history uid = [] := by
    by_contra given
    exact beyond (mailbox.below uid given).2
  simp [Mailbox.Exists, Mailbox.current, never] at present

theorem allUids_nodup (mailbox : Mailbox) : mailbox.allUids.Nodup :=
  List.Nodup.filter _ List.nodup_range

/-- The item of the version that the message has now. -/
def Reports (mailbox : Mailbox) (entry : Nat × Flags) : Prop :=
  ∃ version, mailbox.current entry.1 = some version ∧ entry.2 = version.item

theorem mem_changedFlags : entry ∈ server.changedFlags session modseq ↔
    ∃ version, (server.folder session).current entry.1 = some version ∧ modseq < version.modseq ∧
      entry.2 = version.item := by
  simp only [Server.changedFlags, List.mem_filterMap, (server.arrange_perm _).mem_iff, mem_allUids]
  constructor
  · rintro ⟨uid, _, reported⟩
    cases current : (server.folder session).current uid with
    | none => simp [current] at reported
    | some version =>
      simp only [current, Option.ite_none_right_eq_some, Option.some.injEq] at reported
      obtain ⟨newer, rfl⟩ := reported
      exact ⟨version, current, newer, rfl⟩
  · rintro ⟨version, current, newer, same⟩
    refine ⟨entry.1, by simp [Mailbox.Exists, current], ?_⟩
    simp only [current, newer, if_true]
    exact congrArg some (Prod.ext rfl same.symm)

theorem changedFlags_keys_nodup (modseq : Nat) :
    ((server.changedFlags session modseq).map Prod.fst).Nodup := by
  have keys : ((server.changedFlags session modseq).map Prod.fst).Sublist
      (server.arrange (server.folder session).allUids) := by
    unfold Server.changedFlags
    generalize server.arrange (server.folder session).allUids = uids
    induction uids with
    | nil => exact List.Sublist.refl _
    | cons uid rest ih =>
      rw [List.filterMap_cons]
      split
      · exact ih.cons _
      · rename_i reported
        split at reported
        · cases reported
        · split at reported
          · cases reported
            exact ih.cons_cons _
          · cases reported
  exact keys.nodup ((server.arrange_perm _).nodup_iff.mpr (allUids_nodup _))

/-- What a body that was fetched is. -/
theorem mem_deliver (delivered : server.deliver session uid = .ok messages) (member : msg ∈ messages) :
    msg.uid = uid ∧ msg.uidvalidity = session.uidvalidity ∧
      ∃ version, (server.folder session).current uid = some version ∧ msg.flags = version.flags ∧
        msg.gLabels = version.labels ∧ msg.modseq = version.modseq := by
  unfold Server.deliver at delivered
  cases current : (server.folder session).current uid with
  | none =>
    simp only [current, Except.ok.injEq] at delivered
    subst delivered
    cases member
  | some version =>
    simp only [current] at delivered
    split at delivered <;> cases delivered
    · obtain rfl := List.mem_singleton.mp member
      exact ⟨rfl, rfl, version, rfl, rfl, rfl, rfl⟩
    · obtain rfl := List.mem_singleton.mp member
      exact ⟨rfl, rfl, version, rfl, rfl, rfl, rfl⟩
    · cases member
    · cases member

end Reports

end Imap
end SyncEngine
