import SyncEngine.Util.Encoding
import SyncEngine.Util.Feed

/-! The contacts of one namespace and the items of a remote address book that are synced into them. -/
namespace SyncEngine.ContactSync

structure PhoneNumber where
  type : Option Unicode
  number : Unicode
deriving DecidableEq

/-- A row of `contact` with its `phone_numbers`. The canonicalized address goes with the raw one. -/
structure Contact where
  providerName : Option Unicode
  uid : Unicode
  name : Option Unicode
  emailAddress : Option Unicode
  rawData : Option Unicode
  phoneNumbers : List PhoneNumber
deriving DecidableEq

/-- What a provider makes of a remote entry, but for the provider's name. -/
structure Item where
  uid : Unicode
  name : Option Unicode
  emailAddress : Option Unicode
  rawData : Option Unicode
  phoneNumbers : List PhoneNumber
  deleted : Bool
deriving DecidableEq

def Item.contact (item : Item) (providerName : Unicode) : Contact where
  providerName := some providerName
  uid := item.uid
  name := item.name
  emailAddress := item.emailAddress
  rawData := item.rawData
  phoneNumbers := item.phoneNumbers

def Contact.mergeFrom (c : Contact) (item : Item) : Contact :=
  { c with name := item.name, emailAddress := item.emailAddress, rawData := item.rawData }

/-- The row of a provider with this uid. -/
def Contact.isOf (providerName uid : Unicode) (c : Contact) : Bool :=
  c.providerName = some providerName && c.uid = uid

inductive SyncError where
  | integrityError
  | multipleResultsFound
deriving DecidableEq

/-- The contacts of a namespace, under the unique constraint of their table. -/
structure Book where
  rows : List Contact
  unique : ∀ providerName uid, (rows.filter (·.isOf providerName uid)).length ≤ 1
deriving DecidableEq

namespace Book

def ofUid (book : Book) (providerName uid : Unicode) : List Contact :=
  book.rows.filter (·.isOf providerName uid)

/-- A row that takes the place of an equal key would break the constraint, and the server refuses it. -/
def add (book : Book) (c : Contact) : Except SyncError Book :=
  if free : ∀ row ∈ book.rows, row.providerName = c.providerName → row.uid ≠ c.uid then
    .ok ⟨c :: book.rows, fun providerName uid => by
      by_cases same : c.isOf providerName uid = true
      · have none : book.rows.filter (·.isOf providerName uid) = [] := by
          rw [List.filter_eq_nil_iff]
          intro row mem found
          simp only [Contact.isOf, Bool.and_eq_true, decide_eq_true_eq] at same found
          exact free row mem (found.1.trans same.1.symm) (found.2.trans same.2.symm)
        simp [same, none]
      · simpa [List.filter_cons, same] using book.unique providerName uid⟩
  else .error .integrityError

def delete (book : Book) (providerName uid : Unicode) : Book where
  rows := book.rows.filter fun c => !c.isOf providerName uid
  unique p u := (List.filter_sublist.filter _).length_le.trans (book.unique p u)

/-- `merge_from` leaves the key of a row alone. -/
theorem isOf_mergeFrom (c : Contact) (item : Item) (providerName uid : Unicode) :
    (c.mergeFrom item).isOf providerName uid = c.isOf providerName uid := rfl

theorem filter_merge (book : Book) (providerName : Unicode) (item : Item) (p u : Unicode) :
    (book.rows.map fun c => if c.isOf providerName item.uid then c.mergeFrom item else c).filter
        (·.isOf p u) =
      (book.ofUid p u).map fun c => if c.isOf providerName item.uid then c.mergeFrom item else c := by
  have same : (Contact.isOf p u) ∘ (fun c => if c.isOf providerName item.uid then c.mergeFrom item else c) =
      Contact.isOf p u := by
    funext c
    simp only [Function.comp_apply]
    split
    · exact isOf_mergeFrom c item p u
    · rfl
  rw [List.filter_map, same, ofUid]

def merge (book : Book) (providerName : Unicode) (item : Item) : Book where
  rows := book.rows.map fun c => if c.isOf providerName item.uid then c.mergeFrom item else c
  unique p u := by
    rw [filter_merge, List.length_map]
    exact book.unique p u

end Book

section Sync

/-! What the server compares texts by, and `canonicalize_address`, which leaves parsing to a library. -/
variable (collate canonicalizeAddress : Unicode → Unicode) (providerName : Unicode)

/-- The filter of the query for a contact that was already imported. -/
def alreadyImported (item : Item) (c : Contact) : Bool :=
  (c.emailAddress.map canonicalizeAddress).map collate =
      (item.emailAddress.map canonicalizeAddress).map collate &&
    c.name.map collate = item.name.map collate

/-- The body of the loop over the items. -/
def syncItem (book : Book) (item : Item) : Except SyncError Book :=
  if !item.deleted && book.rows.any (alreadyImported collate canonicalizeAddress item) then .ok book
  else
    match book.ofUid providerName item.uid with
    | [] => book.add (item.contact providerName)
    | [_] => .ok (if item.deleted then book.delete providerName item.uid else book.merge providerName item)
    | _ => .error .multipleResultsFound

/-- `ContactSync.sync` with these items. -/
def sync (book : Book) (items : List Item) : Except SyncError Book :=
  items.foldlM (syncItem collate canonicalizeAddress providerName) book

def syncs (book : Book) (feeds : List (List Item)) : Except SyncError Book :=
  feeds.foldlM (sync collate canonicalizeAddress providerName) book

end Sync

section Convergence

variable {collate canonicalizeAddress : Unicode → Unicode} {providerName : Unicode}

theorem Item.contact_isOf (item : Item) (uid : Unicode) :
    (item.contact providerName).isOf providerName uid = true ↔ item.uid = uid := by
  simp only [Contact.isOf, Item.contact, decide_true, Bool.true_and]
  exact decide_eq_true_iff

namespace Book

theorem ofUid_cases (book : Book) (providerName uid : Unicode) :
    book.ofUid providerName uid = [] ∨ ∃ c, book.ofUid providerName uid = [c] := by
  have := book.unique providerName uid
  rw [← ofUid] at this
  match found : book.ofUid providerName uid with
  | [] => exact .inl rfl
  | [c] => exact .inr ⟨c, rfl⟩
  | _ :: _ :: _ => simp [found] at this

theorem add_ok {book : Book} {item : Item} (unknown : book.ofUid providerName item.uid = []) :
    ∃ after, book.add (item.contact providerName) = .ok after ∧
      after.rows = item.contact providerName :: book.rows := by
  have free : ∀ row ∈ book.rows, row.providerName = (item.contact providerName).providerName →
      row.uid ≠ (item.contact providerName).uid := by
    intro row mem provider uid
    have absent := List.filter_eq_nil_iff.mp unknown row mem
    simp only [Item.contact] at provider uid
    simp [Contact.isOf, provider, uid] at absent
  unfold add
  rw [dif_pos free]
  exact ⟨_, rfl, rfl⟩

theorem ofUid_delete (book : Book) (providerName uid other : Unicode) :
    (book.delete providerName uid).ofUid providerName other =
      if other = uid then [] else book.ofUid providerName other := by
  unfold ofUid delete
  rw [List.filter_filter]
  split
  next same =>
    subst same
    simp
  next different =>
    refine List.filter_congr fun c _ => ?_
    by_cases here : c.uid = other
    · have : c.uid ≠ uid := fun same => different (here.symm.trans same)
      simp [Contact.isOf, here, different]
    · simp [Contact.isOf, here]

theorem ofUid_merge (book : Book) (item : Item) (other : Unicode) :
    (book.merge providerName item).ofUid providerName other =
      if other = item.uid then (book.ofUid providerName other).map (·.mergeFrom item)
      else book.ofUid providerName other := by
  rw [ofUid, merge, filter_merge]
  have isOf {c : Contact} (mem : c ∈ book.ofUid providerName other) :
      c.isOf providerName item.uid = decide (other = item.uid) := by
    have found := (List.mem_filter.mp mem).2
    simp only [Contact.isOf, Bool.and_eq_true, decide_eq_true_eq] at found
    simp [Contact.isOf, found.1, found.2]
  split
  next same => exact List.map_congr_left fun c mem => by simp [isOf mem, same]
  next different =>
    conv_rhs => rw [← List.map_id (book.ofUid providerName other)]
    exact List.map_congr_left fun c mem => by simp [isOf mem, different]

end Book

/-- What one item does to the rows of its provider, by uid. -/
theorem syncItem_spec (collate canonicalizeAddress : Unicode → Unicode) (providerName : Unicode)
    (book : Book) (item : Item) :
    ∃ after, syncItem collate canonicalizeAddress providerName book item = .ok after ∧
      (∀ uid, uid ≠ item.uid → after.ofUid providerName uid = book.ofUid providerName uid) ∧
      after.ofUid providerName item.uid =
        if !item.deleted && book.rows.any (alreadyImported collate canonicalizeAddress item) then
          book.ofUid providerName item.uid
        else if book.ofUid providerName item.uid = [] then [item.contact providerName]
        else if item.deleted then []
        else (book.ofUid providerName item.uid).map (·.mergeFrom item) := by
  unfold syncItem
  split
  case isTrue imported => exact ⟨book, rfl, fun _ _ => rfl, rfl⟩
  case isFalse imported =>
    rcases book.ofUid_cases providerName item.uid with unknown | ⟨c, known⟩
    · obtain ⟨after, added, rows⟩ := Book.add_ok unknown
      refine ⟨after, by rw [unknown]; exact added, fun uid different => ?_, ?_⟩
      · rw [Book.ofUid, rows, List.filter_cons_of_neg, ← Book.ofUid]
        simpa [Item.contact_isOf] using different.symm
      · rw [if_pos unknown, Book.ofUid, rows, List.filter_cons_of_pos, ← Book.ofUid, unknown]
        simp [Item.contact_isOf]
    · rw [known, if_neg (List.cons_ne_nil c [])]
      refine ⟨_, rfl, fun uid different => ?_, ?_⟩
      · split
        · rw [Book.ofUid_delete, if_neg different]
        · rw [Book.ofUid_merge, if_neg different]
      · split
        · rw [Book.ofUid_delete, if_pos rfl]
        · rw [Book.ofUid_merge, if_pos rfl, known]

variable (collate canonicalizeAddress providerName) in
/-- After any feeds, and for each uid by its last item and the contacts that this item found: a
deletion removes the stored contact, an item that no contact's name and address equal is stored, and
one that was imported before is left out. -/
theorem syncs_converge (book : Book) (feeds : List (List Item)) :
    ∃ after, syncs collate canonicalizeAddress providerName book feeds = .ok after ∧
      ∀ pre item post, feeds.flatten = pre ++ item :: post → (∀ later ∈ post, later.uid ≠ item.uid) →
        ∃ before, sync collate canonicalizeAddress providerName book pre = .ok before ∧
          (item.deleted = true → before.ofUid providerName item.uid ≠ [] →
            after.ofUid providerName item.uid = []) ∧
          (item.deleted = false →
            (∀ c ∈ before.rows, alreadyImported collate canonicalizeAddress item c = false) →
            ∃ c, after.ofUid providerName item.uid = [c] ∧ c.name = item.name ∧
              c.emailAddress = item.emailAddress ∧
              (before.ofUid providerName item.uid = [] → c.phoneNumbers = item.phoneNumbers)) ∧
          (item.deleted = false →
            (∃ c ∈ before.rows, alreadyImported collate canonicalizeAddress item c = true) →
            after.ofUid providerName item.uid = before.ofUid providerName item.uid) := by
  have total (book : Book) (item : Item) :
      ∃ after, syncItem collate canonicalizeAddress providerName book item = .ok after := by
    obtain ⟨after, done, -⟩ := syncItem_spec collate canonicalizeAddress providerName book item
    exact ⟨after, done⟩
  obtain ⟨after, ran⟩ := Feed.run_total total feeds.flatten book
  refine ⟨after, (Feed.run_flatten feeds book).trans ran, fun pre item post split last => ?_⟩
  rw [split] at ran
  obtain ⟨before, ran_pre, rest⟩ := Feed.append_ok.mp ran
  obtain ⟨next, done, ran_post⟩ := Feed.cons_ok.mp rest
  obtain ⟨_, done', -, result⟩ := syncItem_spec collate canonicalizeAddress providerName before item
  obtain rfl := Except.ok.inj (done.symm.trans done')
  have stays : after.ofUid providerName item.uid = next.ofUid providerName item.uid := by
    refine Feed.view_kept (fun book => book.ofUid providerName item.uid)
      (fun later mem s s' stepped => ?_) ran_post
    obtain ⟨_, stepped', others, -⟩ := syncItem_spec collate canonicalizeAddress providerName s later
    obtain rfl := Except.ok.inj (stepped.symm.trans stepped')
    exact others item.uid (last later mem).symm
  rw [stays, result]
  refine ⟨before, ran_pre, fun deleted known => ?_, fun kept fresh => ?_, fun kept imported => ?_⟩
  · simp [deleted, known]
  · have none_imported : before.rows.any (alreadyImported collate canonicalizeAddress item) = false := by
      simpa using fresh
    rcases before.ofUid_cases providerName item.uid with unknown | ⟨c, known⟩
    · exact ⟨item.contact providerName, by simp [kept, none_imported, unknown], rfl, rfl, fun _ => rfl⟩
    · refine ⟨c.mergeFrom item, by simp [kept, none_imported, known], rfl, rfl, fun unknown => ?_⟩
      rw [known] at unknown
      cases unknown
  · have some_imported : before.rows.any (alreadyImported collate canonicalizeAddress item) = true := by
      simpa using imported
    simp [kept, some_imported]

end Convergence

/-- A contact that was imported from mail stands in for one of the address book. -/
theorem imported_not_synced : ¬∀ (book : Book) (feeds : List (List Item)),
    ∃ after, syncs id id "google".toList book feeds = .ok after ∧
      ∀ pre item post, feeds.flatten = pre ++ item :: post → (∀ later ∈ post, later.uid ≠ item.uid) →
        (item.deleted = true → after.ofUid "google".toList item.uid = []) ∧
        (item.deleted = false → ∃ c, after.ofUid "google".toList item.uid = [c] ∧ c.name = item.name ∧
          c.emailAddress = item.emailAddress ∧ c.phoneNumbers = item.phoneNumbers) := by
  intro converges
  let name := some "Ann".toList
  let address := some "ann@example.com".toList
  let mailed : Contact := ⟨some "inbox".toList, ['1'], name, address, none, []⟩
  let book : Book := ⟨[mailed], fun _ _ => List.length_filter_le ..⟩
  let item : Item := ⟨['2'], name, address, none, [], false⟩
  obtain ⟨after, ran, holds⟩ := converges book [[item]]
  have skipped : syncs id id "google".toList book [[item]] = .ok book := by decide +kernel
  obtain rfl := Except.ok.inj (ran.symm.trans skipped)
  obtain ⟨c, found, -⟩ := (holds [] item [] rfl (by simp)).2 rfl
  have absent : book.ofUid "google".toList item.uid = [] := by decide +kernel
  rw [absent] at found
  cases found

end SyncEngine.ContactSync
