import SyncEngine.Transactions.DeltaSync

/-! What the deltas show of an object. The type and the id beside it are those that the log has recorded;
its attributes are encoded from the row as it is by now. -/
namespace SyncEngine
namespace DeltaSync

/-- `category_type` of an account, and the column `type_` of a category. -/
inductive CategoryType where
  | folder
  | label
deriving DecidableEq, Repr

def CategoryType.objectType : CategoryType → ObjectType
  | .folder => .folder
  | .label => .label

inductive Kind where
  | calendar
  | contact
  | message (isDraft : Bool)
  | event
  | block
  | category (type : CategoryType)
  | thread
  | account
  | metadata
deriving DecidableEq, Repr

def Kind.objectClass : Kind → ObjectClass
  | .calendar => .calendar
  | .contact => .contact
  | .message _ => .message
  | .event => .event
  | .block => .block
  | .category _ => .category
  | .thread => .thread
  | .account => .account
  | .metadata => .metadata

/-- `API_OBJECT_NAME`, which a new transaction records. -/
def Kind.apiObjectName : Kind → ObjectType
  | .calendar => .calendar
  | .contact => .contact
  | .message isDraft => if isDraft then .draft else .message
  | .event => .event
  | .block => .file
  | .category type => type.objectType
  | .thread => .thread
  | .account => .account
  | .metadata => .metadata

/-- A row, with the columns that decide about its id and its type. -/
structure Record where
  publicId : String
  kind : Kind
deriving DecidableEq, Repr

/-- The namespace of the caller, and how its account is organized. -/
structure Namespace where
  publicId : String
  categoryType : CategoryType
deriving DecidableEq, Repr

/-- The keys `id` and `object` of what a client gets; the second one may be missing. -/
structure Encoded where
  id : String
  object : Option ObjectType
deriving DecidableEq, Repr

/-- An account is encoded as its namespace. -/
def encode (ns : Namespace) (record : Record) : Encoded :=
  match record.kind with
  | .calendar => { id := record.publicId, object := some .calendar }
  | .contact => { id := record.publicId, object := some .contact }
  | .message isDraft => { id := record.publicId, object := some (if isDraft then .draft else .message) }
  | .event => { id := record.publicId, object := some .event }
  | .block => { id := record.publicId, object := some .file }
  | .category _ => { id := record.publicId, object := some ns.categoryType.objectType }
  | .thread => { id := record.publicId, object := some .thread }
  | .account => { id := ns.publicId, object := some .account }
  | .metadata => { id := record.publicId, object := none }

/-- The log and the rows. Ids start at one, and a row keeps its table and its public id. -/
structure Database extends Db Record where
  positive : ∀ trx ∈ transactions, 0 < trx.id
  tables : ∀ objectClass id obj, objects objectClass id = some obj →
    obj.attributes.kind.objectClass = objectClass
  publicIds : ∀ trx ∈ transactions, ∀ obj,
    objects (transactionObjects trx.objectType) trx.recordId = some obj →
      trx.objectPublicId = obj.attributes.publicId

/-- A delta says the same of its object as the attributes do, and the client wants objects of the type
that it has now. -/
structure Agrees (ns : Namespace) (filter : Filter) (delta : Delta Record) (record : Record) : Prop where
  object : (encode ns record).object = some delta.object
  id : (encode ns record).id = delta.id
  wanted : filter.Selects record.kind.apiObjectName

def DeltasAgree (db : Database) (namespaceId : Nat) (ns : Namespace) : Prop :=
  ∀ filter limit pointer deltas upTo,
    formatTransactionsAfterPointer db.toDb namespaceId filter limit pointer = .ok (deltas, upTo) →
    ∀ delta ∈ deltas, ∀ record ∈ delta.attributes, Agrees ns filter delta record

/-- What the log has recorded of a row is still so, and is what `_encode` makes of it. -/
def Current (ns : Namespace) (trx : Transaction) (record : Record) : Prop :=
  match record.kind with
  | .message isDraft => trx.objectType = if isDraft then .draft else .message
  | .category type => trx.objectType = type.objectType ∧ type = ns.categoryType
  | .account => record.publicId = ns.publicId
  | .metadata => False
  | _ => True

section Page
variable {A : Type} {db : Db A} {namespaceId : Nat} {filter : Filter} {limit pointer : Nat}

theorem mem_scan (member : delta ∈ (scan db namespaceId filter limit pointer).1) :
    ∃ trx ∈ transactionsAfter db namespaceId filter pointer,
      formatTransaction db namespaceId trx = some delta := by
  rcases Nat.eq_zero_or_pos limit with rfl | some
  · rw [scan_end (List.take_zero ..)] at member
    cases member
  · rcases scan_spec db namespaceId filter some pointer with ⟨empty, _⟩ | ⟨trxs, _, _, covers, deltas⟩
    · rw [empty] at member
      cases member
    · have formatted := List.mem_map_of_mem (f := Option.some) member
      rw [deltas] at formatted
      obtain ⟨trx, inside, format⟩ := List.mem_map.mp formatted
      exact ⟨trx, (covers.among trx inside).1, format⟩

/-- A limit past the end of the log has the first page show all there is. -/
theorem mem_scan_all {trx : Transaction} (inside : trx ∈ transactionsAfter db namespaceId filter pointer)
    (latest : Latest (transactionsAfter db namespaceId filter pointer) trx)
    (format : formatTransaction db namespaceId trx = some delta) :
    delta ∈ (scan db namespaceId filter db.transactions.length pointer).1 := by
  have whole : (transactionsAfter db namespaceId filter pointer).take db.transactions.length =
      transactionsAfter db namespaceId filter pointer := by
    refine List.take_of_length_le ?_
    rw [transactionsAfter, List.length_insertionSort]
    exact List.length_filter_le ..
  have survives : trx ∈ surviving db namespaceId (transactionsAfter db namespaceId filter pointer) :=
    mem_surviving.mpr ⟨inside, latest, by rw [format]; rfl⟩
  cases found : (surviving db namespaceId (transactionsAfter db namespaceId filter pointer)).getLast? with
  | none =>
    rw [List.getLast?_eq_none_iff.mp found] at survives
    cases survives
  | some last =>
    rw [scan_page whole found]
    have shown := List.mem_map_of_mem (f := formatTransaction db namespaceId) survives
    rw [← (results_spec (transactionsAfter_sorted ..)).2, format, List.mem_map] at shown
    obtain ⟨_, among, same⟩ := shown
    exact Option.some.inj same ▸ among

end Page

/-- A client that wants one type only. -/
def only (wanted : ObjectType) : Filter where
  excludeTypes := [.calendar, .contact, .draft, .event, .file, .message, .thread, .label, .folder, .account,
    .metadata].filter (· ≠ wanted)
  includeTypes := none
  excludeFolders := false
  excludeMetadata := false
  excludeAccount := false
  metadataOnce := Filter.none_once

theorem only_selects {wanted objectType : ObjectType} :
    (only wanted).Selects objectType ↔ objectType = wanted := by
  cases wanted <;> cases objectType <;> decide

section Agree
variable {db : Database} {namespaceId : Nat} {ns : Namespace} {trx : Transaction} {obj : Object Record}

theorem lookup_publicId (member : trx ∈ db.transactions) (found : lookup db.toDb namespaceId trx = some obj) :
    trx.objectPublicId = obj.attributes.publicId :=
  db.publicIds trx member obj (Option.filter_eq_some_iff.mp found).1

theorem lookup_objectClass (found : lookup db.toDb namespaceId trx = some obj) :
    obj.attributes.kind.objectClass = transactionObjects trx.objectType :=
  db.tables _ _ _ (Option.filter_eq_some_iff.mp found).1

/-- Of most tables a row has one type and one id for good. -/
theorem current_iff (named : trx.objectPublicId = obj.attributes.publicId)
    (table : obj.attributes.kind.objectClass = transactionObjects trx.objectType) :
    Current ns trx obj.attributes ↔ (encode ns obj.attributes).object = some trx.objectType ∧
      (encode ns obj.attributes).id = trx.objectPublicId ∧
      obj.attributes.kind.apiObjectName = trx.objectType := by
  obtain ⟨_, _, publicId, kind⟩ := obj
  dsimp only at named table ⊢
  subst named
  cases kind with
  | message isDraft =>
    simp only [Current, encode, Kind.apiObjectName, Option.some.injEq, true_and, and_self]
    exact eq_comm
  | category type =>
    simp only [Current, encode, Kind.apiObjectName, Option.some.injEq, true_and]
    constructor
    · rintro ⟨same, rfl⟩
      exact ⟨same.symm, same.symm⟩
    · rintro ⟨object, same⟩
      refine ⟨same.symm, ?_⟩
      rw [← same] at object
      cases type <;> cases organized : ns.categoryType <;> simp_all [CategoryType.objectType]
  | account =>
    cases type : trx.objectType <;> simp_all [transactionObjects, Kind.objectClass, Current, encode,
      Kind.apiObjectName, eq_comm]
  | metadata => simp [Current, encode]
  | calendar | contact | event | block | thread =>
    cases type : trx.objectType <;> simp_all [transactionObjects, Kind.objectClass, Current, encode,
      Kind.apiObjectName]

theorem format_found (modified : trx.command ≠ .delete) (found : lookup db.toDb namespaceId trx = some obj) :
    formatTransaction db.toDb namespaceId trx = some {
      object := trx.objectType, event := EVENT_NAME_FOR_COMMAND trx.command, id := trx.objectPublicId
      attributes := some obj.attributes, cursor := trx.publicId } := by
  simp only [formatTransaction, if_neg modified, found, Option.map_some]

/-- A delta with attributes is that of a transaction whose object was found. -/
theorem found_of_format {delta : Delta Record} {record : Record}
    (format : formatTransaction db.toDb namespaceId trx = some delta)
    (attributes : record ∈ delta.attributes) :
    trx.command ≠ .delete ∧ ∃ obj, lookup db.toDb namespaceId trx = some obj ∧
      delta = { object := trx.objectType, event := EVENT_NAME_FOR_COMMAND trx.command
                id := trx.objectPublicId, attributes := some obj.attributes, cursor := trx.publicId } := by
  unfold formatTransaction at format
  dsimp only at format
  split at format
  · cases format
    cases attributes
  · next modified =>
    obtain ⟨obj, found, rfl⟩ := Option.map_eq_some_iff.mp format
    exact ⟨modified, obj, found, rfl⟩

theorem agrees_of_current {filter : Filter} {delta : Delta Record} {record : Record}
    (inside : trx ∈ transactionsAfter db.toDb namespaceId filter pointer)
    (format : formatTransaction db.toDb namespaceId trx = some delta) (attributes : record ∈ delta.attributes)
    (current : ∀ obj, lookup db.toDb namespaceId trx = some obj → Current ns trx obj.attributes) :
    Agrees ns filter delta record := by
  obtain ⟨_, obj, found, rfl⟩ := found_of_format format attributes
  obtain rfl := Option.some.inj attributes
  obtain ⟨among, _, _, selected⟩ := (mem_transactionsAfter ..).mp inside
  obtain ⟨object, id, name⟩ := (current_iff (lookup_publicId among found) (lookup_objectClass found)).mp
    (current obj found)
  exact ⟨object, id, name ▸ selected⟩

/-- A client that asks for one type from the start on sees each row of it in one delta. -/
theorem current_of_agrees (agree : DeltasAgree db namespaceId ns) (member : trx ∈ db.transactions)
    (own : trx.namespaceId = namespaceId) (modified : trx.command ≠ .delete)
    (found : lookup db.toDb namespaceId trx = some obj) : Current ns trx obj.attributes := by
  have inside : trx ∈ transactionsAfter db.toDb namespaceId (only trx.objectType) 0 :=
    (mem_transactionsAfter ..).mpr ⟨member, db.positive trx member, own, only_selects.mpr rfl⟩
  obtain ⟨last, latest, key, _⟩ := exists_latest inside
  obtain ⟨last_inside, latest⟩ := mem_latestTrxs.mp latest
  obtain ⟨type, rest⟩ := Prod.mk.injEq .. ▸ key
  obtain ⟨id, command⟩ := Prod.mk.injEq .. ▸ rest
  have last_found : lookup db.toDb namespaceId last = some obj := by
    unfold lookup at found ⊢
    rwa [type, id]
  have format := format_found (command ▸ modified) last_found
  have shown := mem_scan_all last_inside latest format
  have call : formatTransactionsAfterPointer db.toDb namespaceId (only trx.objectType)
      db.transactions.length 0 =
        .ok (scan db.toDb namespaceId (only trx.objectType) db.transactions.length 0) := by
    unfold formatTransactionsAfterPointer
    cases lastTrx : getLastTrxIdForNamespace db.toDb namespaceId with
    | none =>
      have empty := List.argmax_eq_none.mp (Option.map_eq_none_iff.mp lastTrx)
      have among : trx ∈ db.transactions.filter (·.namespaceId = namespaceId) := by simp [member, own]
      rw [empty] at among
      cases among
    | some lastId =>
      obtain ⟨other, last, rfl⟩ := Option.map_eq_some_iff.mp lastTrx
      have positive := db.positive other (List.mem_filter.mp (List.argmax_mem last)).1
      exact if_neg (by omega)
  obtain ⟨object, id, wanted⟩ := agree _ _ _ _ _ call _ shown obj.attributes rfl
  refine (current_iff (lookup_publicId member found) (lookup_objectClass found)).mpr ⟨?_, ?_, ?_⟩
  · exact object.trans (congrArg some type)
  · rw [lookup_publicId member found, ← lookup_publicId ((mem_transactionsAfter ..).mp last_inside).1 last_found]
    exact id
  · exact only_selects.mp wanted

theorem deltas_agree_iff (db : Database) (namespaceId : Nat) (ns : Namespace) :
    DeltasAgree db namespaceId ns ↔ ∀ trx ∈ db.transactions, trx.namespaceId = namespaceId →
      trx.command ≠ .delete → ∀ obj, lookup db.toDb namespaceId trx = some obj →
        Current ns trx obj.attributes := by
  constructor
  · intro agree trx member own modified obj found
    exact current_of_agrees agree member own modified found
  · intro current filter limit pointer deltas upTo call delta member record attributes
    have scanned : delta ∈ (scan db.toDb namespaceId filter limit pointer).1 := by
      unfold formatTransactionsAfterPointer at call
      split at call
      · cases call
      · split at call
        · cases call
          cases member
        · rw [Except.ok.inj call]
          exact member
    obtain ⟨trx, inside, format⟩ := mem_scan scanned
    obtain ⟨among, _, own, _⟩ := (mem_transactionsAfter ..).mp inside
    exact agrees_of_current inside format attributes
      (current trx among own (found_of_format format attributes).1)

end Agree

namespace Sample

def user : Namespace where
  publicId := "user"
  categoryType := .folder

def saved (id : Nat) (objectType : ObjectType) (command : Command) : Transaction where
  id
  namespaceId := 1
  objectType
  recordId := 1
  objectPublicId := "hello"
  publicId := "cursor"
  command
  createdAt := id

/-- A draft was created, and it has been sent since. -/
def sentDraft : Database where
  transactions := [saved 1 .draft .insert, saved 2 .message .update]
  objects objectClass _ := if objectClass = .message then
    some { namespaceId := 1, thread := true
           attributes := { publicId := "hello", kind := .message false } } else none
  unique := by decide
  positive := by decide
  tables objectClass _ obj found := by
    split at found
    · next same =>
      cases found
      exact same.symm
    · cases found
  publicIds trx member obj found := by
    split at found
    · cases found
      rcases List.mem_cons.mp member with rfl | member
      · rfl
      · obtain rfl := List.mem_singleton.mp member
        rfl
    · cases found

end Sample

/-- The delta of its creation calls it a draft, and its attributes a message. -/
theorem sent_draft_disagrees : ¬ DeltasAgree Sample.sentDraft 1 Sample.user := by
  intro agree
  have first : Sample.saved 1 .draft .insert ∈ Sample.sentDraft.transactions := by decide
  have found : lookup Sample.sentDraft.toDb 1 (Sample.saved 1 .draft .insert) = some {
      namespaceId := 1
      thread := true
      attributes := { publicId := "hello", kind := .message false } } := rfl
  have current : ObjectType.draft = .message := current_of_agrees agree first rfl (by decide) found
  cases current

end DeltaSync
end SyncEngine
