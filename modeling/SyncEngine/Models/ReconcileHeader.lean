import SyncEngine.Models.PublicId

/-! `reconcile_message` on whatever text the header X-INBOX-ID of a synced message has: its public id is
decoded by the query that compares it, and its version by `int`. -/
namespace SyncEngine
namespace ReconcileHeader
open PublicId

inductive Error where
  /-- Raised by unpacking what `split` gives, or by `int`. -/
  | valueError (text : String)
  /-- SQLAlchemy's, around what binding a parameter has raised. -/
  | statementError (text : String)
deriving DecidableEq, Repr

/-- A row of the table, with the columns that the queries compare and those that are taken over. -/
structure Message where
  namespaceId : Nat
  publicId : List UInt8
  nylasUid : Option Unicode
  isCreated : Bool
  version : Int
  dataSha256 : String
  messageIdHeader : Option Unicode
  references : List Unicode
  parsedBody : Unicode
deriving DecidableEq, Repr

/-- `int(text)` behind the sign. -/
def magnitude (s : Unicode) : Except String Nat :=
  match (strip s).mapM decimal with
  | some (d :: ds) => .ok ((d :: ds).foldl (fun value d => value * 10 + d) 0)
  | _ => .error "invalid literal for int() with base 10"

def int (text : Unicode) : Except String Int :=
  match text.dropWhile isSpace with
  | '+' :: s => (magnitude s).map Int.ofNat
  | '-' :: s => (magnitude s).map fun n => -Int.ofNat n
  | s => (magnitude s).map Int.ofNat

/-- What the synced message has of its own. -/
def adopt (new existing : Message) : Message :=
  { existing with
      messageIdHeader := new.messageIdHeader
      references := new.references
      parsedBody := new.parsedBody }

section Reconcile
variable (collates : Unicode → Unicode → Bool) (messages : List Message) (new : Message)

/-- `first()` of the query for the old format. -/
def byNylasUid (uid : Unicode) : Option Message :=
  messages.find? fun message => message.namespaceId = new.namespaceId &&
    message.nylasUid.any (collates uid) && message.isCreated

/-- `first()` of the query for the new format; no row has a public id that is NULL. -/
def byPublicId (expectedPublicId : Unicode) : Except Error (Option Message) :=
  match processBindParam expectedPublicId with
  | .error text => .error (.statementError text)
  | .ok key => .ok (messages.find? fun message => message.namespaceId = new.namespaceId &&
      some message.publicId = key && message.isCreated)

def reconcileMessage : Except Error (Option Message) :=
  match new.nylasUid with
  | none => .ok (messages.find? fun message =>
      message.namespaceId = new.namespaceId && message.dataSha256 = new.dataSha256)
  | some uid =>
    if '-' ∉ uid then
      -- Old X-Inbox-Id format; use the old reconciliation strategy.
      .ok ((byNylasUid collates messages new uid).map (adopt new))
    else
      match uid.splitOn '-' with
      | [expectedPublicId, version] => do
        match ← byPublicId messages new expectedPublicId with
        | none => return none
        | some existing =>
          match int version with
          | .error text => .error (.valueError text)
          | .ok version => return some (if version = existing.version then adopt new existing else existing)
      | _ => .error (.valueError "too many values to unpack")

end Reconcile

/-- A header `<public_id>-<version>`. -/
structure Splits (uid publicId version : Unicode) : Prop where
  uid : uid = publicId ++ '-' :: version
  publicId : '-' ∉ publicId
  version : '-' ∉ version

theorem splitOn_at (mem : '-' ∈ uid) : ∃ first rest, uid = first ++ '-' :: rest ∧ '-' ∉ first ∧
    uid.splitOn '-' = first :: rest.splitOn '-' := by
  obtain ⟨first, rest, rfl, absent⟩ := List.eq_append_cons_of_mem mem
  exact ⟨first, rest, rfl, absent, List.splitOn_append_cons_self_of_not_mem absent rest⟩

theorem splitOn_two : uid.splitOn '-' = [publicId, version] ↔ Splits uid publicId version := by
  constructor
  · intro split
    have mem : '-' ∈ uid := by
      by_contra absent
      rw [List.splitOn_eq_singleton absent] at split
      cases split
    obtain ⟨first, rest, rfl, absent, pieces⟩ := splitOn_at mem
    obtain ⟨rfl, pieces⟩ := List.cons.inj (pieces.symm.trans split)
    have none : '-' ∉ rest := by
      intro again
      obtain ⟨_, last, _, _, more⟩ := splitOn_at again
      exact List.splitOn_ne_nil '-' last (List.cons.inj (more.symm.trans pieces)).2
    rw [List.splitOn_eq_singleton none] at pieces
    obtain rfl := List.cons.inj pieces |>.1
    exact ⟨rfl, absent, none⟩
  · rintro ⟨rfl, first, second⟩
    rw [List.splitOn_append_cons_self_of_not_mem first, List.splitOn_eq_singleton second]

/-- What the function can read: no dash, or one between a number to the base 36, which may be left out,
and a decimal one. -/
inductive WellFormed (uid : Unicode) : Prop where
  | old (absent : '-' ∉ uid)
  | new (split : Splits uid publicId version) (key : processBindParam publicId = .ok bound)
      (number : int version = .ok value)

/-- A row that the API has made in the namespace of the new message. -/
def Message.OwnOf (new existing : Message) : Prop :=
  existing.namespaceId = new.namespaceId ∧ existing.isCreated = true

/-- Which message of the API's a header stands for. -/
inductive Reconciled (collates : Unicode → Unicode → Bool) (new : Message) (uid : Unicode) :
    Message → Message → Prop where
  | nylasUid (old : '-' ∉ uid) (own : new.OwnOf existing) (column : existing.nylasUid = some stored)
      (same : collates uid stored = true) : Reconciled collates new uid existing (adopt new existing)
  | version (split : Splits uid publicId text) (own : new.OwnOf existing)
      (key : processBindParam publicId = .ok (some existing.publicId)) (number : int text = .ok existing.version) :
      Reconciled collates new uid existing (adopt new existing)
  /-- An older version of a current draft: no separate message is made for it, and the draft stays as it is. -/
  | older (split : Splits uid publicId text) (own : new.OwnOf existing)
      (key : processBindParam publicId = .ok (some existing.publicId)) (number : int text = .ok value)
      (other : value ≠ existing.version) : Reconciled collates new uid existing existing

section Returned
variable {collates : Unicode → Unicode → Bool} {messages : List Message} {new existing result : Message}
  {uid publicId version : Unicode}

theorem byNylasUid_some (found : byNylasUid collates messages new uid = some existing) :
    existing ∈ messages ∧ new.OwnOf existing ∧ ∃ own, existing.nylasUid = some own ∧ collates uid own = true := by
  have named := List.find?_some found
  simp only [Bool.and_eq_true, decide_eq_true_eq, Option.any_eq_true] at named
  exact ⟨List.mem_of_find?_eq_some found, ⟨named.1.1, named.2⟩, named.1.2⟩

theorem byPublicId_some (found : byPublicId messages new publicId = .ok (some existing)) :
    existing ∈ messages ∧ new.OwnOf existing ∧ processBindParam publicId = .ok (some existing.publicId) := by
  unfold byPublicId at found
  split at found
  · cases found
  · next key bound =>
    have found := Except.ok.inj found
    have named := List.find?_some found
    simp only [Bool.and_eq_true, decide_eq_true_eq] at named
    exact ⟨List.mem_of_find?_eq_some found, ⟨named.1.1, named.2⟩, named.1.2 ▸ bound⟩

theorem reconciled_of_returned (header : new.nylasUid = some uid)
    (returned : reconcileMessage collates messages new = .ok (some result)) :
    ∃ existing ∈ messages, Reconciled collates new uid existing result := by
  unfold reconcileMessage at returned
  rw [header] at returned
  dsimp only at returned
  split at returned
  · next old =>
    obtain ⟨existing, found, rfl⟩ := Option.map_eq_some_iff.mp (Except.ok.inj returned)
    obtain ⟨member, own, stored, column, same⟩ := byNylasUid_some found
    exact ⟨existing, member, .nylasUid old own column same⟩
  · split at returned
    · next publicId text split =>
      cases found : byPublicId messages new publicId with
      | error => simp [found, bind, Except.bind] at returned
      | ok found? =>
        cases found? with
        | none => simp [found, bind, Except.bind, pure, Except.pure] at returned
        | some existing =>
          obtain ⟨member, own, key⟩ := byPublicId_some found
          simp only [found, bind, Except.bind] at returned
          cases number : int text with
          | error => simp [number] at returned
          | ok value =>
            simp only [number] at returned
            obtain rfl := Option.some.inj (Except.ok.inj returned)
            refine ⟨existing, member, ?_⟩
            by_cases same : value = existing.version
            · rw [if_pos same]
              exact .version (splitOn_two.mp split) own key (same ▸ number)
            · rw [if_neg same]
              exact .older (splitOn_two.mp split) own key number same
    · cases returned

theorem returns_of_wellFormed (header : new.nylasUid = some uid) (wellFormed : WellFormed uid) :
    ∃ found, reconcileMessage collates messages new = .ok found := by
  unfold reconcileMessage
  rw [header]
  cases wellFormed with
  | old absent => exact ⟨_, if_pos absent⟩
  | new split key number =>
    have dash : ¬ '-' ∉ uid := by simp [split.uid]
    dsimp only
    rw [if_neg dash, splitOn_two.mpr split]
    simp only [byPublicId, key, number, bind, Except.bind]
    split
    · exact ⟨_, rfl⟩
    · exact ⟨_, rfl⟩

/-- Exactly these headers are read, if the second half is only read when a message was found. -/
theorem reconcileMessage_raises_iff (header : new.nylasUid = some uid) :
    (∃ e, reconcileMessage collates messages new = .error e) ↔ '-' ∈ uid ∧
      ∀ publicId version, Splits uid publicId version → ∀ existing?,
        byPublicId messages new publicId = .ok existing? →
        existing? ≠ none ∧ ∀ value, int version ≠ .ok value := by
  unfold reconcileMessage
  rw [header]
  dsimp only
  by_cases old : '-' ∉ uid
  · rw [if_pos old]
    simp [old]
  · rw [if_neg old]
    simp only [not_not] at old
    simp only [old, true_and]
    split
    · next publicId version pieces =>
      have split := splitOn_two.mp pieces
      have only : ∀ first second, Splits uid first second → publicId = first ∧ version = second := by
        intro first second other
        simpa [pieces] using splitOn_two.mpr other
      constructor
      · rintro ⟨e, raised⟩ first second other existing? found
        obtain ⟨rfl, rfl⟩ := only first second other
        rw [found] at raised
        cases existing? with
        | none => simp [bind, Except.bind, pure, Except.pure] at raised
        | some existing =>
          refine ⟨nofun, fun value number => ?_⟩
          simp [bind, Except.bind, pure, Except.pure, number] at raised
      · intro unreadable
        cases found : byPublicId messages new publicId with
        | error e => exact ⟨e, rfl⟩
        | ok existing? =>
          obtain ⟨some_found, no_number⟩ := unreadable _ _ split _ found
          obtain ⟨existing, rfl⟩ := Option.ne_none_iff_exists'.mp some_found
          cases number : int version with
          | error text => exact ⟨.valueError text, by simp [bind, Except.bind]⟩
          | ok value => exact absurd number (no_number value)
    · next many =>
      refine iff_of_true ⟨_, rfl⟩ fun first second other => ?_
      exact absurd (splitOn_two.mpr other) (many first second)

end Returned

/-- Well-formed headers are read, and whatever header is read, the function returns nothing or a message
that the header stands for. -/
theorem header_reconciles (collates : Unicode → Unicode → Bool) (messages : List Message) (new : Message)
    (uid : Unicode) :
    let new := { new with nylasUid := some uid }
    (WellFormed uid → ∃ found, reconcileMessage collates messages new = .ok found) ∧
      ∀ result, reconcileMessage collates messages new = .ok (some result) →
        ∃ existing ∈ messages, Reconciled collates new uid existing result :=
  ⟨returns_of_wellFormed rfl, fun _ => reconciled_of_returned rfl⟩

namespace Sample

def draft : Message where
  namespaceId := 1
  publicId := [0, 0, 0, 0, 0, 0, 0, 0, 0, 0, 0, 0, 0, 0, 0, 10]
  nylasUid := some "a-2".toList
  isCreated := true
  version := 2
  dataSha256 := "draft"
  messageIdHeader := none
  references := []
  parsedBody := []

/-- The first version of the draft is synced after the second one was made. -/
def synced : Message := { draft with nylasUid := some "a-1".toList, version := 0, dataSha256 := "synced" }

end Sample

theorem older_version_is_reconciled : ¬ ∀ (messages : List Message) (new : Message) (uid : Unicode),
    new.nylasUid = some uid → ∃ found, reconcileMessage (· == ·) messages new = .ok found ∧
      ∀ result ∈ found, result.namespaceId = new.namespaceId ∧
        ∀ publicId version, Splits uid publicId version →
          processBindParam publicId = .ok (some result.publicId) ∧ int version = .ok result.version := by
  intro always
  obtain ⟨found, returned, matching⟩ := always [Sample.draft] Sample.synced "a-1".toList rfl
  have older : reconcileMessage (· == ·) [Sample.draft] Sample.synced = .ok (some Sample.draft) := by decide
  obtain rfl := Except.ok.inj (older.symm.trans returned)
  have split : Splits "a-1".toList "a".toList "1".toList := ⟨by decide, by decide, by decide⟩
  exact absurd ((matching _ rfl).2 _ _ split).2 (by decide)

end ReconcileHeader
end SyncEngine
