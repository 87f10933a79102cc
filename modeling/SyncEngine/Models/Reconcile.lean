import SyncEngine.Models.ReconcileHeader
import SyncEngine.Sendmail.Drafts

/-! Which message of the API's a synced message is a copy of, where only one row may be named by its
header. -/
namespace SyncEngine
namespace Reconcile
open Sendmail PublicId

/-- The headers of a synced message that reconciling reads. -/
structure Synced where
  nylasUid : Option String
  messageIdHeader : String
  references : List String

def adopt (new : Synced) (existing : Draft) : Draft :=
  { existing with messageIdHeader := some new.messageIdHeader, references := new.references }

/-- `none` for an exception. `sameData` is the message with the same data, which a message without the
header is reconciled with, and `stored` the one row that may be named by a header. -/
def reconcileMessage (sameData : Option Draft) (new : Synced) (stored : Option Draft) :
    Option (Option Draft) :=
  match new.nylasUid with
  | none => some sameData
  | some uid =>
    if '-' ∉ uid.toList then
      some ((stored.filter fun existing => existing.nylasUid = some uid && existing.isCreated).map (adopt new))
    else
      match uid.toList.splitOn '-' with
      | [expectedPublicId, version] =>
        match processBindParam expectedPublicId with
        | .error _ => none
        | .ok key =>
          match stored.filter fun existing =>
              processBindParam existing.publicId.toList = .ok key && existing.isCreated with
          | none => some none
          | some existing => (ReconcileHeader.int version).toOption.map fun version =>
            some (if version = existing.version then adopt new existing else existing)
      | _ => none

/-- Only the Message-Id and the references are taken over. -/
theorem reconcileMessage_keeps (reconciled : reconcileMessage none new stored = some (some existing)) :
    ∃ draft, stored = some draft ∧ (existing = draft ∨ existing = adopt new draft) := by
  unfold reconcileMessage at reconciled
  split at reconciled
  · cases reconciled
  · split at reconciled
    · obtain ⟨draft, found, rfl⟩ := Option.map_eq_some_iff.mp (Option.some.inj reconciled)
      exact ⟨draft, (Option.filter_eq_some_iff.mp found).1, .inr rfl⟩
    · split at reconciled
      · split at reconciled
        · cases reconciled
        · split at reconciled
          · cases reconciled
          · next draft found =>
            obtain ⟨version, _, same⟩ := Option.map_eq_some_iff.mp reconciled
            refine ⟨draft, (Option.filter_eq_some_iff.mp found).1, ?_⟩
            split at same <;> cases same
            · exact .inr rfl
            · exact .inl rfl
      · cases reconciled

/-- A row of the table as the requests of the API see it. -/
structure Stores (row : ReconcileHeader.Message) (draft : Draft) : Prop where
  publicId : processBindParam draft.publicId.toList = .ok (some row.publicId)
  nylasUid : row.nylasUid = draft.nylasUid.map String.toList
  isCreated : row.isCreated = draft.isCreated
  version : row.version = draft.version

section Agrees
variable {row message : ReconcileHeader.Message} {draft : Draft}

theorem byNylasUid_row (stores : Stores row draft) (own : row.namespaceId = message.namespaceId) (uid : String) :
    ReconcileHeader.byNylasUid (· == ·) [row] message uid.toList =
      if (draft.nylasUid = some uid && draft.isCreated) = true then some row else none := by
  have same : row.nylasUid.any (uid.toList == ·) = decide (draft.nylasUid = some uid) := by
    rw [stores.nylasUid, Bool.eq_iff_iff]
    cases draft.nylasUid with
    | none => simp
    | some stored => simp [String.toList_inj, eq_comm (a := uid)]
  simp only [ReconcileHeader.byNylasUid, List.find?_singleton, own, same, stores.isCreated, decide_true,
    Bool.true_and]

theorem byPublicId_row (stores : Stores row draft) (own : row.namespaceId = message.namespaceId)
    (bound : processBindParam expectedPublicId = .ok key) :
    ReconcileHeader.byPublicId [row] message expectedPublicId =
      .ok (if (processBindParam draft.publicId.toList = .ok key && draft.isCreated) = true then some row
        else none) := by
  simp only [ReconcileHeader.byPublicId, bound, List.find?_singleton, own, stores.publicId, stores.isCreated,
    decide_true, Bool.true_and, Except.ok.injEq]

/-- On a table with this one row of the namespace the function is `ReconcileHeader`'s: it raises for the same
headers, and finds and changes the row for the same. -/
theorem reconcileMessage_agrees {new : Synced} (stores : Stores row draft)
    (own : row.namespaceId = message.namespaceId) (named : new.nylasUid = some uid)
    (header : message.nylasUid = some uid.toList) :
    (∃ e, ReconcileHeader.reconcileMessage (· == ·) [row] message = .error e ∧
      reconcileMessage none new (some draft) = none) ∨
    ∃ taken : Option Bool, ReconcileHeader.reconcileMessage (· == ·) [row] message =
        .ok (taken.map fun adopts => if adopts then ReconcileHeader.adopt message row else row) ∧
      reconcileMessage none new (some draft) =
        some (taken.map fun adopts => if adopts then adopt new draft else draft) := by
  unfold ReconcileHeader.reconcileMessage reconcileMessage
  rw [header, named]
  dsimp only
  by_cases old : '-' ∉ uid.toList
  · rw [if_pos old, if_pos old]
    rw [byNylasUid_row stores own]
    cases hit : draft.nylasUid = some uid && draft.isCreated with
    | true => exact .inr ⟨some true, rfl, by simp [Option.filter, hit]⟩
    | false => exact .inr ⟨none, rfl, by simp [Option.filter, hit]⟩
  · rw [if_neg old, if_neg old]
    generalize uid.toList.splitOn '-' = pieces
    obtain _ | ⟨expectedPublicId, _ | ⟨version, _ | ⟨more, rest⟩⟩⟩ := pieces
    · exact .inl ⟨_, rfl, rfl⟩
    · exact .inl ⟨_, rfl, rfl⟩
    · dsimp only
      cases bound : processBindParam expectedPublicId with
      | error text =>
        refine .inl ⟨.statementError text, ?_, rfl⟩
        simp only [ReconcileHeader.byPublicId, bound]
        rfl
      | ok key =>
        rw [byPublicId_row stores own bound]
        cases hit : processBindParam draft.publicId.toList = .ok key && draft.isCreated with
        | false => exact .inr ⟨none, rfl, by simp [Option.filter, hit]⟩
        | true =>
          simp only [Option.filter, hit, if_true, bind, Except.bind]
          cases number : ReconcileHeader.int version with
          | error text => exact .inl ⟨.valueError text, rfl, rfl⟩
          | ok value =>
            refine .inr ⟨some (value = draft.version), ?_, ?_⟩
            · simp [stores.version, pure, Except.pure]
            · simp [Except.toOption]
    · exact .inl ⟨_, rfl, rfl⟩

end Agrees

end Reconcile
end SyncEngine
