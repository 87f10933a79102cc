import Mathlib.Data.List.AList
import Mathlib.Data.List.Infix
import SyncEngine.Util.Encoding

/-! The contacts that are made of the addresses of messages, looked up by their canonical form. -/
namespace SyncEngine.ProcessMail

def MAX_INDEXABLE_LENGTH : Nat := 191

/-- What the address parser and `unicode.lower` make of a text. -/
structure Addresses where
  /-- The mailbox and the host name, if the text is one address. -/
  parse : Unicode → Option (Unicode × Unicode)
  lower : Unicode → Unicode

variable (addresses : Addresses)

def validEmail (emailAddress : Unicode) : Bool := (addresses.parse emailAddress).isSome

def canonicalizeAddress (addr : Unicode) : Unicode :=
  match addresses.parse addr with
  | none => addr
  | some (mailbox, hostname) =>
    let localPart := addresses.lower mailbox
    let hostname := addresses.lower hostname
    let localPart := if hostname ∈ ["gmail.com".toList, "googlemail.com".toList] then localPart.filter (· ≠ '.')
      else localPart
    localPart ++ '@' :: hostname

inductive Provider
  | inbox
  | remote
deriving DecidableEq

/-- A contact of the namespace. -/
structure Contact where
  id : Nat
  providerName : Provider
  name : Option Unicode
  rawAddress : Option Unicode
  canonicalizedAddress : Option Unicode
deriving DecidableEq

/-- `HasEmailAddress.email_address` -/
def Contact.setEmailAddress (contact : Contact) (value : Unicode) : Contact :=
  let value := unicodeSafeTruncate value MAX_INDEXABLE_LENGTH
  { contact with rawAddress := some value, canonicalizedAddress := some (canonicalizeAddress addresses value) }

inductive Field
  | fromAddr
  | toAddr
  | ccAddr
  | bccAddr
  | replyTo
deriving DecidableEq

def Field.all : List Field := [.fromAddr, .toAddr, .ccAddr, .bccAddr, .replyTo]

/-- The fields hold pairs of a name and an address; before the flush one may be null. -/
structure Message where
  id : Nat
  field : Field → Option (List (Option Unicode × Unicode))

structure MessageContactAssociation where
  messageId : Nat
  contactId : Nat
  field : Field
deriving DecidableEq

/-- The rows of the namespace, and the next id. -/
structure State where
  contacts : List Contact
  associations : List MessageContactAssociation
  nextId : Nat

/-- From canonical forms to ids of contacts. -/
abbrev ContactMap := AList fun _ : Unicode => Nat

def Message.allAddresses (message : Message) : List (Option Unicode × Unicode) :=
  Field.all.flatMap fun field => (message.field field).getD []

def contactMap (existingContacts : List Contact) : ContactMap :=
  existingContacts.foldl (fun dict c =>
    match c.canonicalizedAddress with
    | none => dict
    | some key => dict.insert key c.id) ∅

/-- A contact for an address that is not known yet. It is not in the session. -/
def addContact (progress : State × ContactMap) (entry : Option Unicode × Unicode) : State × ContactMap :=
  let (state, dict) := progress
  let canonicalizedAddress := canonicalizeAddress addresses entry.2
  if canonicalizedAddress ∈ dict then progress
  else
    let newContact : Contact := { id := state.nextId, providerName := .inbox, name := entry.1, rawAddress := none,
                                  canonicalizedAddress := none }
    ({ state with
        contacts := state.contacts ++ [newContact.setEmailAddress addresses entry.2], nextId := state.nextId + 1 },
      dict.insert canonicalizedAddress state.nextId)

/-- The name is nulled where senders share an address. -/
def nullName (contactId : Nat) (name : Option Unicode) (canonicalizedAddress : Unicode)
    (contact : Contact) : Contact :=
  if contact.id = contactId ∧ contact.name ≠ name ∧ "noreply".toList <:+: canonicalizedAddress then
    { contact with name := none }
  else contact

/-- The association of one address of a field. -/
def associate (dict : ContactMap) (messageId : Nat) (state : State)
    (entry : Field × Option Unicode × Unicode) : State :=
  if validEmail addresses entry.2.2 then
    match dict.lookup (canonicalizeAddress addresses entry.2.2) with
    -- Every address has a contact by now.
    | none => state
    | some contactId =>
      { state with
        contacts := state.contacts.map (nullName contactId entry.2.1 (canonicalizeAddress addresses entry.2.2))
        associations := state.associations ++ [{ messageId, contactId, field := entry.1 }] }
  else state

def Message.entries (message : Message) : List (Field × Option Unicode × Unicode) :=
  Field.all.flatMap fun field => ((message.field field).getD []).map fun entry => (field, entry)

/-- What the flush makes of the objects: a contact that is not a row yet is saved with an association of it,
which takes it into the session, or not at all. -/
def State.flush (state objects : State) : State where
  contacts := objects.contacts.filter fun c => c.id < state.nextId || objects.associations.any (·.contactId = c.id)
  associations := state.associations ++ objects.associations
  nextId := objects.nextId

/-- `update_contacts_from_message`, with the flush behind it. -/
def updateContactsFromMessage (state : State) (message : Message) : State :=
  let canonicalizedAddresses := message.allAddresses.map fun entry => canonicalizeAddress addresses entry.2
  let existingContacts := state.contacts.filter fun c => c.canonicalizedAddress.any (· ∈ canonicalizedAddresses)
  let (objects, dict) := message.allAddresses.foldl (addContact addresses)
    ({ state with associations := [] }, contactMap existingContacts)
  state.flush (message.entries.foldl (associate addresses dict message.id) objects)

/-! ## One contact for each canonical form -/

/-- No two contacts that were made of mail have one canonical form. -/
def MailContactsUnique (contacts : List Contact) : Prop :=
  contacts.Pairwise fun c d => c.providerName = .inbox ∧ d.providerName = .inbox →
    c.canonicalizedAddress ≠ d.canonicalizedAddress

structure Consistent (state : State) : Prop where
  unique : MailContactsUnique state.contacts
  ids : (state.contacts.map Contact.id).Nodup
  fresh : ∀ c ∈ state.contacts, c.id < state.nextId

/-- Every valid address of the message has a contact of its canonical form. -/
def Associated (state : State) (message : Message) : Prop :=
  ∀ entry ∈ message.entries, validEmail addresses entry.2.2 = true →
    ∃ c ∈ state.contacts, c.canonicalizedAddress = some (canonicalizeAddress addresses entry.2.2) ∧
      { messageId := message.id, contactId := c.id, field := entry.1 } ∈ state.associations

/-- The canonical form that is stored for an address is the one that it is looked up by. -/
def Fits (emailAddress : Unicode) : Prop :=
  canonicalizeAddress addresses (unicodeSafeTruncate emailAddress MAX_INDEXABLE_LENGTH) =
    canonicalizeAddress addresses emailAddress

instance (emailAddress : Unicode) : Decidable (Fits addresses emailAddress) :=
  inferInstanceAs (Decidable (canonicalizeAddress addresses
    (unicodeSafeTruncate emailAddress MAX_INDEXABLE_LENGTH) = canonicalizeAddress addresses emailAddress))

/-- For every valid address there is a contact of its canonical form, or the first address of the message that
has this form is stored with it. -/
def Known (state : State) (message : Message) : Prop :=
  ∀ entry ∈ message.allAddresses, validEmail addresses entry.2 = true →
    (∃ c ∈ state.contacts, c.canonicalizedAddress = some (canonicalizeAddress addresses entry.2)) ∨
      ∃ first ∈ message.allAddresses.find? fun e => canonicalizeAddress addresses e.2 =
        canonicalizeAddress addresses entry.2, Fits addresses first.2

instance (state : State) (message : Message) : Decidable (Known addresses state message) :=
  inferInstanceAs (Decidable (∀ entry ∈ message.allAddresses, validEmail addresses entry.2 = true →
    (∃ c ∈ state.contacts, c.canonicalizedAddress = some (canonicalizeAddress addresses entry.2)) ∨
      ∃ first ∈ message.allAddresses.find? fun e => canonicalizeAddress addresses e.2 =
        canonicalizeAddress addresses entry.2, Fits addresses first.2))

/-- What the steps do not change of a contact. -/
def Contact.key (contact : Contact) : Nat × Provider × Option Unicode :=
  (contact.id, contact.providerName, contact.canonicalizedAddress)

/-- Contacts and associations are only added. -/
structure Extends (state later : State) : Prop where
  contacts : state.contacts.map Contact.key <+: later.contacts.map Contact.key
  associations : state.associations <+: later.associations

variable {addresses} {state later : State} {dict : ContactMap} {message : Message}

theorem Extends.refl (state : State) : Extends state state := ⟨List.prefix_rfl, List.prefix_rfl⟩

theorem Extends.trans {last : State} (first : Extends state later) (second : Extends later last) :
    Extends state last :=
  ⟨first.contacts.trans second.contacts, first.associations.trans second.associations⟩

theorem Extends.contact (extension : Extends state later) {c : Contact} (member : c ∈ state.contacts) :
    ∃ d ∈ later.contacts, d.key = c.key :=
  List.mem_map.mp (extension.contacts.subset (List.mem_map_of_mem member))

theorem Associated.extends (associated : Associated addresses state message) (extension : Extends state later) :
    Associated addresses later message := by
  intro entry member valid
  obtain ⟨c, among, canonical, listed⟩ := associated entry member valid
  obtain ⟨d, among', same⟩ := extension.contact among
  have id : d.id = c.id := congrArg Prod.fst same
  have form : d.canonicalizedAddress = c.canonicalizedAddress := congrArg (·.2.2) same
  exact ⟨d, among', form.trans canonical, id ▸ extension.associations.subset listed⟩

/-! ## New contacts -/

theorem lookup_contactMap {contacts : List Contact} {key : Unicode} {id : Nat}
    (found : (contactMap contacts).lookup key = some id) :
    ∃ c ∈ contacts, c.id = id ∧ c.canonicalizedAddress = some key := by
  induction contacts using List.reverseRecOn with
  | nil => cases found
  | append_singleton contacts c ih =>
    rw [contactMap, List.foldl_concat, ← contactMap] at found
    cases form : c.canonicalizedAddress with
    | none =>
      obtain ⟨d, member, rest⟩ := ih (by simpa [form] using found)
      exact ⟨d, List.mem_append_left _ member, rest⟩
    | some other =>
      simp only [form] at found
      by_cases same : key = other
      · subst same
        rw [AList.lookup_insert] at found
        exact ⟨c, by simp, Option.some.inj found, form⟩
      · rw [AList.lookup_insert_ne same] at found
        obtain ⟨d, member, rest⟩ := ih found
        exact ⟨d, List.mem_append_left _ member, rest⟩

theorem mem_contactMap {contacts : List Contact} {c : Contact} (member : c ∈ contacts) {key : Unicode}
    (form : c.canonicalizedAddress = some key) : key ∈ contactMap contacts := by
  induction contacts using List.reverseRecOn with
  | nil => cases member
  | append_singleton contacts d ih =>
    rw [contactMap, List.foldl_concat, ← contactMap]
    rcases List.mem_append.mp member with before | last
    · cases other : d.canonicalizedAddress with
      | none => exact ih before
      | some => exact (AList.mem_insert _).mpr (Or.inr (ih before))
    · obtain rfl := List.mem_singleton.mp last
      simp only [form]
      exact (AList.mem_insert _).mpr (Or.inl rfl)

/-- Where the entries `done` are through: the new contacts are behind the rows, the map has a contact for
each form that was looked for, and a new contact is the one that was made of the first entry with its form,
which no row has. -/
structure Filed (addresses : Addresses) (state : State) (keys : List Unicode)
    (done : List (Option Unicode × Unicode)) (created : List Contact) (objects : State) (dict : ContactMap) :
    Prop where
  contacts : objects.contacts = state.contacts ++ created
  associations : objects.associations = []
  created_ids : (created.map Contact.id).Nodup
  created_new : ∀ c ∈ created, state.nextId ≤ c.id ∧ c.id < objects.nextId
  nextId : state.nextId ≤ objects.nextId
  rows : ∀ c ∈ state.contacts, ∀ key ∈ keys, c.canonicalizedAddress = some key → key ∈ dict
  known : ∀ entry ∈ done, canonicalizeAddress addresses entry.2 ∈ dict
  sound : ∀ key id, dict.lookup key = some id →
    (∃ c ∈ state.contacts, c.id = id ∧ c.canonicalizedAddress = some key) ∨
    (∀ c ∈ state.contacts, c.canonicalizedAddress ≠ some key) ∧ ∃ c ∈ created, c.id = id ∧ ∃ first,
      done.find? (fun e => canonicalizeAddress addresses e.2 = key) = some first ∧
        c.canonicalizedAddress =
          some (canonicalizeAddress addresses (unicodeSafeTruncate first.2 MAX_INDEXABLE_LENGTH))

theorem filed_contactMap (addresses : Addresses) (state : State) (keys : List Unicode) :
    Filed addresses state keys [] [] { state with associations := [] }
      (contactMap (state.contacts.filter fun c => c.canonicalizedAddress.any (· ∈ keys))) where
  contacts := (List.append_nil _).symm
  associations := rfl
  created_ids := List.nodup_nil
  created_new := by simp
  nextId := Nat.le_refl _
  rows c member key looked_for form := mem_contactMap (List.mem_filter.mpr ⟨member, by simp [form, looked_for]⟩) form
  known := by simp
  sound key id found := by
    obtain ⟨c, member, rest⟩ := lookup_contactMap found
    exact .inl ⟨c, (List.mem_filter.mp member).1, rest⟩

section Filed
variable {keys : List Unicode} {done : List (Option Unicode × Unicode)} {created : List Contact} {objects : State}

/-- One more address, which the map has a contact for. -/
theorem Filed.skip (filed : Filed addresses state keys done created objects dict)
    {entry : Option Unicode × Unicode} (known : canonicalizeAddress addresses entry.2 ∈ dict) :
    Filed addresses state keys (done ++ [entry]) created objects dict :=
  { filed with
    known := by
      intro e member
      rcases List.mem_append.mp member with before | last
      · exact filed.known e before
      · rwa [List.mem_singleton.mp last]
    sound := by
      intro key id found
      refine (filed.sound key id found).imp_right fun ⟨no_row, c, member, is_id, first, entry_first, form⟩ => ?_
      exact ⟨no_row, c, member, is_id, first, by rw [List.find?_append, entry_first, Option.some_or], form⟩ }

theorem Filed.fresh_ids (filed : Filed addresses state keys done created objects dict) :
    objects.nextId ∉ created.map Contact.id := by
  intro member
  obtain ⟨c, among, same⟩ := List.mem_map.mp member
  exact Nat.lt_irrefl _ (same ▸ (filed.created_new c among).2)

/-- The contact that is made of an address becomes the one of its form. -/
theorem Filed.create (filed : Filed addresses state keys done created objects dict)
    {entry : Option Unicode × Unicode} {c : Contact} (looked_for : canonicalizeAddress addresses entry.2 ∈ keys)
    (missing : canonicalizeAddress addresses entry.2 ∉ dict) (id : c.id = objects.nextId)
    (form : c.canonicalizedAddress =
      some (canonicalizeAddress addresses (unicodeSafeTruncate entry.2 MAX_INDEXABLE_LENGTH))) :
    Filed addresses state keys (done ++ [entry]) (created ++ [c])
      { objects with contacts := objects.contacts ++ [c], nextId := objects.nextId + 1 }
      (dict.insert (canonicalizeAddress addresses entry.2) objects.nextId) where
  contacts := by rw [filed.contacts, List.append_assoc]
  associations := filed.associations
  created_ids := by
    rw [List.map_append, List.nodup_append]
    refine ⟨filed.created_ids, List.nodup_singleton _, fun old member new only same => ?_⟩
    rw [same, List.mem_singleton.mp only, id] at member
    exact filed.fresh_ids member
  created_new d member := by
    rcases List.mem_append.mp member with before | last
    · exact ⟨(filed.created_new d before).1, Nat.lt_succ_of_lt (filed.created_new d before).2⟩
    · rw [List.mem_singleton.mp last, id]
      exact ⟨filed.nextId, Nat.lt_succ_self _⟩
  nextId := Nat.le_succ_of_le filed.nextId
  rows d member key looked_for form := (AList.mem_insert _).mpr (.inr (filed.rows d member key looked_for form))
  known e member := by
    rw [AList.mem_insert]
    rcases List.mem_append.mp member with before | last
    · exact .inr (filed.known e before)
    · exact .inl (by rw [List.mem_singleton.mp last])
  sound key id' found := by
    by_cases same : key = canonicalizeAddress addresses entry.2
    · subst same
      rw [AList.lookup_insert] at found
      refine .inr ⟨fun d member form => missing (filed.rows d member _ looked_for form), c,
        List.mem_append_right _ (List.mem_singleton_self c), id.trans (Option.some.inj found), entry, ?_, form⟩
      have nobody : done.find? (fun e => canonicalizeAddress addresses e.2 =
          canonicalizeAddress addresses entry.2) = none :=
        List.find?_eq_none.mpr fun e member same => missing (of_decide_eq_true same ▸ filed.known e member)
      rw [List.find?_append, nobody]
      simp
    · rw [AList.lookup_insert_ne same] at found
      refine (filed.sound key id' found).imp_right fun ⟨no_row, d, member, is_id, first, entry_first, form⟩ => ?_
      exact ⟨no_row, d, List.mem_append_left _ member, is_id, first,
        by rw [List.find?_append, entry_first, Option.some_or], form⟩

theorem Filed.addContact (filed : Filed addresses state keys done created objects dict)
    {entry : Option Unicode × Unicode} (looked_for : canonicalizeAddress addresses entry.2 ∈ keys) :
    ∃ created, Filed addresses state keys (done ++ [entry]) created
      (addContact addresses (objects, dict) entry).1 (addContact addresses (objects, dict) entry).2 := by
  rw [ProcessMail.addContact]
  by_cases known : canonicalizeAddress addresses entry.2 ∈ dict
  · rw [if_pos known]
    exact ⟨created, filed.skip known⟩
  · rw [if_neg known]
    exact ⟨_, filed.create looked_for known rfl rfl⟩

theorem Filed.foldl (filed : Filed addresses state keys done created objects dict)
    {entries : List (Option Unicode × Unicode)}
    (looked_for : ∀ entry ∈ entries, canonicalizeAddress addresses entry.2 ∈ keys) :
    ∃ created, Filed addresses state keys (done ++ entries) created
      (entries.foldl (ProcessMail.addContact addresses) (objects, dict)).1
      (entries.foldl (ProcessMail.addContact addresses) (objects, dict)).2 := by
  induction entries generalizing done created objects dict with
  | nil => exact ⟨created, by rwa [List.append_nil]⟩
  | cons entry entries ih =>
    obtain ⟨created, next⟩ := filed.addContact (looked_for entry List.mem_cons_self)
    obtain ⟨created, last⟩ := ih next fun e member => looked_for e (List.mem_cons_of_mem _ member)
    exact ⟨created, by rwa [List.append_cons]⟩

end Filed

/-! ## Associations -/

theorem key_nullName (contactId : Nat) (name : Option Unicode) (form : Unicode) (c : Contact) :
    (nullName contactId name form c).key = c.key := by
  unfold nullName
  split <;> rfl

theorem keys_associate (entry : Field × Option Unicode × Unicode) :
    (associate addresses dict message.id state entry).contacts.map Contact.key = state.contacts.map Contact.key := by
  unfold associate
  split
  · split
    · rfl
    · rw [List.map_map]
      exact List.map_congr_left fun c _ => key_nullName ..
  · rfl

theorem keys_foldl_associate (addresses : Addresses) (dict : ContactMap) (message : Message) (state : State)
    (entries : List (Field × Option Unicode × Unicode)) :
    (entries.foldl (associate addresses dict message.id) state).contacts.map Contact.key =
      state.contacts.map Contact.key := by
  induction entries generalizing state with
  | nil => rfl
  | cons entry entries ih => exact (ih _).trans (keys_associate entry)

theorem associations_associate (entry : Field × Option Unicode × Unicode) :
    state.associations <+: (associate addresses dict message.id state entry).associations ∧
      ∀ association ∈ (associate addresses dict message.id state entry).associations,
        association ∈ state.associations ∨ validEmail addresses entry.2.2 = true ∧
          dict.lookup (canonicalizeAddress addresses entry.2.2) = some association.contactId := by
  unfold associate
  split
  next valid =>
    split
    next => exact ⟨List.prefix_rfl, fun _ member => .inl member⟩
    next contactId found =>
      refine ⟨List.prefix_append _ _, fun association member => ?_⟩
      rcases List.mem_append.mp member with before | last
      · exact .inl before
      · rw [List.mem_singleton.mp last]
        exact .inr ⟨valid, found⟩
  next => exact ⟨List.prefix_rfl, fun _ member => .inl member⟩

theorem nextId_associate (entry : Field × Option Unicode × Unicode) :
    (associate addresses dict message.id state entry).nextId = state.nextId := by
  unfold associate
  split
  · split <;> rfl
  · rfl

theorem unique_iff_keys (contacts : List Contact) : MailContactsUnique contacts ↔
    (contacts.map Contact.key).Pairwise fun c d => c.2.1 = .inbox ∧ d.2.1 = .inbox → c.2.2 ≠ d.2.2 := by
  rw [List.pairwise_map]
  exact Iff.rfl

theorem Consistent.of_keys (consistent : Consistent state)
    (keys : later.contacts.map Contact.key = state.contacts.map Contact.key) (next : later.nextId = state.nextId) :
    Consistent later := by
  have ids : ∀ contacts : List Contact, contacts.map Contact.id = (contacts.map Contact.key).map Prod.fst := by
    simp [Contact.key]
  refine ⟨?_, ?_, fun c member => ?_⟩
  · rw [unique_iff_keys, keys, ← unique_iff_keys]
    exact consistent.unique
  · rw [ids, keys, ← ids]
    exact consistent.ids
  · obtain ⟨d, among, same⟩ := List.mem_map.mp (keys ▸ List.mem_map_of_mem member)
    have id : d.id = c.id := congrArg Prod.fst same
    rw [next, ← id]
    exact consistent.fresh d among

/-- After the associations every entry whose form is in the map has its own, and there are no others. -/
theorem foldl_associate (addresses : Addresses) (dict : ContactMap) (message : Message) (state : State)
    (entries : List (Field × Option Unicode × Unicode)) :
    let done := entries.foldl (associate addresses dict message.id) state
    state.associations <+: done.associations ∧ done.nextId = state.nextId ∧
      (∀ entry ∈ entries, validEmail addresses entry.2.2 = true →
        ∀ contactId, dict.lookup (canonicalizeAddress addresses entry.2.2) = some contactId →
          { messageId := message.id, contactId, field := entry.1 } ∈ done.associations) ∧
      ∀ association ∈ done.associations, association ∈ state.associations ∨ ∃ entry ∈ entries,
        validEmail addresses entry.2.2 = true ∧
          dict.lookup (canonicalizeAddress addresses entry.2.2) = some association.contactId := by
  induction entries generalizing state with
  | nil => exact ⟨List.prefix_rfl, rfl, by simp, fun association member => .inl member⟩
  | cons entry entries ih =>
    obtain ⟨extension, next, listed, only⟩ := ih (associate addresses dict message.id state entry)
    refine ⟨(associations_associate entry).1.trans extension, next.trans (nextId_associate entry),
      fun e member valid id found => ?_, fun association member => ?_⟩
    · rcases List.mem_cons.mp member with rfl | later
      · refine extension.subset ?_
        simp [associate, valid, found]
      · exact listed e later valid id found
    · rcases only association member with before | ⟨e, later, made⟩
      · refine ((associations_associate entry).2 association before).imp_right fun made => ?_
        exact ⟨entry, List.mem_cons_self, made⟩
      · exact .inr ⟨e, List.mem_cons_of_mem entry later, made⟩

theorem mem_allAddresses {entry : Field × Option Unicode × Unicode} (member : entry ∈ message.entries) :
    entry.2 ∈ message.allAddresses := by
  obtain ⟨field, among, listed⟩ := List.mem_flatMap.mp member
  obtain ⟨pair, of_field, rfl⟩ := List.mem_map.mp listed
  exact List.mem_flatMap.mpr ⟨field, among, of_field⟩

/-! ## The flush -/

section Flush
variable {keys : List Unicode} {created : List Contact} {objects saved : State}

/-- The new contacts that are saved. -/
def savedOf (created : List Contact) (saved : State) : List Contact :=
  created.filter fun c => saved.associations.any (·.contactId = c.id)

theorem keys_flush (fresh : ∀ c ∈ state.contacts, c.id < state.nextId)
    (filed : Filed addresses state keys message.allAddresses created objects dict)
    (same : saved.contacts.map Contact.key = objects.contacts.map Contact.key) :
    (state.flush saved).contacts.map Contact.key =
      state.contacts.map Contact.key ++ (savedOf created saved).map Contact.key := by
  let kept (key : Nat × Provider × Option Unicode) : Bool :=
    key.1 < state.nextId || saved.associations.any (·.contactId = key.1)
  have through : (state.flush saved).contacts.map Contact.key = (saved.contacts.map Contact.key).filter kept := by
    rw [List.filter_map]
    rfl
  have of_rows : state.contacts.filter (kept ∘ Contact.key) = state.contacts :=
    List.filter_eq_self.mpr fun c member => by simp [kept, Contact.key, fresh c member]
  have of_new : created.filter (kept ∘ Contact.key) = savedOf created saved :=
    List.filter_congr fun c member => by
      have new : ¬ c.id < state.nextId := Nat.not_lt.mpr (filed.created_new c member).1
      rw [Function.comp_apply, show kept c.key = (decide (c.id < state.nextId) || _) from rfl,
        decide_eq_false new, Bool.false_or]
      rfl
  rw [through, same, filed.contacts, List.map_append, List.filter_append, List.filter_map, List.filter_map,
    of_rows, of_new]

/-- A new contact that is saved has the canonical form that it is looked up by. -/
theorem Filed.form_of_saved (filed : Filed addresses state keys message.allAddresses created objects dict)
    (consistent : Consistent state) (known : Known addresses state message) {entry : Option Unicode × Unicode}
    (among : entry ∈ message.allAddresses) (valid : validEmail addresses entry.2 = true) {c : Contact}
    (member : c ∈ created) (found : dict.lookup (canonicalizeAddress addresses entry.2) = some c.id) :
    c.canonicalizedAddress = some (canonicalizeAddress addresses entry.2) ∧
      ∀ d ∈ state.contacts, d.canonicalizedAddress ≠ some (canonicalizeAddress addresses entry.2) := by
  rcases filed.sound _ _ found with ⟨d, is_row, same, -⟩ | ⟨no_row, d, is_new, same, first, entry_first, form⟩
  · have old := consistent.fresh d is_row
    have new := (filed.created_new c member).1
    omega
  · obtain rfl := List.inj_on_of_nodup_map filed.created_ids is_new member same
    refine ⟨?_, no_row⟩
    rcases known entry among valid with ⟨e, is_row, its_form⟩ | ⟨first', entry_first', fits⟩
    · exact absurd its_form (no_row e is_row)
    · obtain rfl := Option.some.inj (entry_first.symm.trans entry_first')
      rw [form, fits, of_decide_eq_true (List.find?_some entry_first :)]

/-- A contact that the map has for a valid address is saved with the address's form. -/
theorem Filed.flushed (filed : Filed addresses state keys message.allAddresses created objects dict)
    (consistent : Consistent state) (known : Known addresses state message)
    {entry : Option Unicode × Unicode} (among : entry ∈ message.allAddresses)
    (valid : validEmail addresses entry.2 = true) {contactId : Nat}
    (found : dict.lookup (canonicalizeAddress addresses entry.2) = some contactId)
    (listed : ∃ association ∈ saved.associations, association.contactId = contactId) :
    ∃ c ∈ state.contacts ++ savedOf created saved, c.id = contactId ∧
      c.canonicalizedAddress = some (canonicalizeAddress addresses entry.2) := by
  rcases filed.sound _ _ found with ⟨c, is_row, same, form⟩ | ⟨-, c, is_new, rfl, -⟩
  · exact ⟨c, List.mem_append_left _ is_row, same, form⟩
  · refine ⟨c, List.mem_append_right _ (List.mem_filter.mpr ⟨is_new, ?_⟩), rfl,
      (filed.form_of_saved consistent known among valid is_new found).1⟩
    obtain ⟨association, member, same⟩ := listed
    exact List.any_eq_true.mpr ⟨association, member, decide_eq_true same⟩

/-- The rows and the new contacts that are saved. -/
theorem Filed.consistent (filed : Filed addresses state keys message.allAddresses created objects dict)
    (consistent : Consistent state) (known : Known addresses state message)
    (only : ∀ association ∈ saved.associations, ∃ entry ∈ message.entries, validEmail addresses entry.2.2 = true ∧
      dict.lookup (canonicalizeAddress addresses entry.2.2) = some association.contactId) :
    Consistent { contacts := state.contacts ++ savedOf created saved, associations := saved.associations
                 nextId := objects.nextId } := by
  have new : ∀ c ∈ savedOf created saved, ∃ key, dict.lookup key = some c.id ∧
      c.canonicalizedAddress = some key ∧ ∀ d ∈ state.contacts, d.canonicalizedAddress ≠ some key := by
    intro c member
    obtain ⟨is_new, has⟩ := List.mem_filter.mp member
    obtain ⟨association, listed, same⟩ := List.any_eq_true.mp has
    obtain ⟨entry, among, valid, found⟩ := only association listed
    rw [of_decide_eq_true same] at found
    exact ⟨_, found, filed.form_of_saved consistent known (mem_allAddresses among) valid is_new found⟩
  have ids : ((savedOf created saved).map Contact.id).Nodup :=
    filed.created_ids.sublist (List.filter_sublist.map Contact.id)
  refine ⟨List.pairwise_append.mpr ⟨consistent.unique, ?_, fun d is_row c member _ same => ?_⟩, ?_, ?_⟩
  · refine (List.pairwise_map.mp ids).imp_of_mem fun {c d} c_member d_member apart _ same => apart ?_
    obtain ⟨key, c_found, c_form, -⟩ := new c c_member
    obtain ⟨key', d_found, d_form, -⟩ := new d d_member
    obtain rfl : key = key' := Option.some.inj (c_form.symm.trans (same.trans d_form))
    exact Option.some.inj (c_found.symm.trans d_found)
  · obtain ⟨key, -, form, no_row⟩ := new c member
    exact no_row d is_row (same.trans form)
  · rw [List.map_append, List.nodup_append]
    refine ⟨consistent.ids, ids, fun old old_member new new_member same => ?_⟩
    obtain ⟨d, is_row, rfl⟩ := List.mem_map.mp old_member
    obtain ⟨c, member, rfl⟩ := List.mem_map.mp new_member
    have before := consistent.fresh d is_row
    have after := (filed.created_new c (List.mem_filter.mp member).1).1
    omega
  · intro c member
    rcases List.mem_append.mp member with is_row | is_new
    · exact Nat.lt_of_lt_of_le (consistent.fresh c is_row) filed.nextId
    · exact (filed.created_new c (List.mem_filter.mp is_new).1).2

end Flush

/-- One message. -/
theorem updateContactsFromMessage_spec (consistent : Consistent state) (known : Known addresses state message) :
    let later := updateContactsFromMessage addresses state message
    Consistent later ∧ Extends state later ∧ Associated addresses later message := by
  have looked_for : ∀ entry ∈ message.allAddresses, canonicalizeAddress addresses entry.2 ∈
      message.allAddresses.map fun entry => canonicalizeAddress addresses entry.2 := fun entry member =>
    List.mem_map_of_mem (f := fun entry => canonicalizeAddress addresses entry.2) member
  obtain ⟨created, filed⟩ := (filed_contactMap addresses state _).foldl looked_for
  rw [List.nil_append] at filed
  simp only [updateContactsFromMessage]
  generalize message.allAddresses.foldl (addContact addresses) _ = done at filed
  obtain ⟨objects, dict⟩ := done
  have same := keys_foldl_associate addresses dict message objects message.entries
  obtain ⟨-, next, listed, only⟩ := foldl_associate addresses dict message objects message.entries
  generalize message.entries.foldl (associate addresses dict message.id) objects = saved at same next listed only
  replace only := fun association member =>
    (only association member).resolve_left (by rw [filed.associations]; exact List.not_mem_nil)
  have keys := keys_flush consistent.fresh filed same
  have all : (state.flush saved).contacts.map Contact.key =
      (state.contacts ++ savedOf created saved).map Contact.key := by rw [keys, List.map_append]
  refine ⟨(filed.consistent consistent known only).of_keys all next, ⟨?_, List.prefix_append _ _⟩,
    fun entry member valid => ?_⟩
  · rw [keys]
    exact List.prefix_append _ _
  · have there := filed.known _ (mem_allAddresses member)
    obtain ⟨contactId, found⟩ := Option.isSome_iff_exists.mp (AList.lookup_isSome.mpr there)
    have its_own := listed entry member valid contactId found
    obtain ⟨c, among, rfl, form⟩ := filed.flushed consistent known (mem_allAddresses member) valid found
      ⟨_, its_own, rfl⟩
    obtain ⟨d, among', same⟩ := List.mem_map.mp (all ▸ List.mem_map_of_mem among)
    have id : d.id = c.id := congrArg Prod.fst same
    have form' : d.canonicalizedAddress = c.canonicalizedAddress := congrArg (·.2.2) same
    exact ⟨d, among', form'.trans form, List.mem_append_right _ (id ▸ its_own)⟩

/-- Messages one after the other. -/
def process (addresses : Addresses) (state : State) (messages : List Message) : State :=
  messages.foldl (updateContactsFromMessage addresses) state

/-- Each message finds or makes a contact of the canonical form for each valid address. -/
def AllKnown (addresses : Addresses) : State → List Message → Prop
  | _, [] => True
  | state, message :: messages =>
    Known addresses state message ∧ AllKnown addresses (updateContactsFromMessage addresses state message) messages

def decideAllKnown (addresses : Addresses) : (state : State) → (messages : List Message) →
    Decidable (AllKnown addresses state messages)
  | _, [] => .isTrue trivial
  | state, message :: messages =>
    have := decideAllKnown addresses (updateContactsFromMessage addresses state message) messages
    inferInstanceAs (Decidable (Known addresses state message ∧
      AllKnown addresses (updateContactsFromMessage addresses state message) messages))

instance (state : State) (messages : List Message) : Decidable (AllKnown addresses state messages) :=
  decideAllKnown addresses state messages

theorem process_spec (consistent : Consistent state) {messages : List Message}
    (known : AllKnown addresses state messages) :
    Consistent (process addresses state messages) ∧ Extends state (process addresses state messages) ∧
      ∀ message ∈ messages, Associated addresses (process addresses state messages) message := by
  induction messages generalizing state with
  | nil => exact ⟨consistent, Extends.refl state, by simp⟩
  | cons message messages ih =>
    obtain ⟨next, extension, associated⟩ := updateContactsFromMessage_spec consistent known.1
    obtain ⟨done, extension', others⟩ := ih next known.2
    refine ⟨done, extension.trans extension', fun m member => ?_⟩
    rcases List.mem_cons.mp member with rfl | later
    · exact associated.extends extension'
    · exact others m later

/-- As long as every valid address finds a contact of its canonical form or one with this form is stored for
it, there is one contact for each canonical form that mail has made, and every valid address of every message
has a contact of its form. -/
theorem one_contact_for_each_form (addresses : Addresses) (state : State) (consistent : Consistent state)
    (messages : List Message) (known : AllKnown addresses state messages) :
    MailContactsUnique (process addresses state messages).contacts ∧
    ((process addresses state messages).contacts.map Contact.id).Nodup ∧
    ∀ message ∈ messages, Associated addresses (process addresses state messages) message := by
  obtain ⟨done, _, associated⟩ := process_spec consistent known
  exact ⟨done.unique, done.ids, associated⟩

def nobody : State := { contacts := [], associations := [], nextId := 1 }

theorem consistent_nobody : Consistent nobody :=
  ⟨List.Pairwise.nil, List.nodup_nil, fun _ member => absurd member List.not_mem_nil⟩

/-- A message from one address. -/
def messageFrom (emailAddress : Unicode) : Message :=
  { id := 1, field := fun field => if field = .fromAddr then some [(none, emailAddress)] else none }

/-- Addresses that are split at the first `@`. -/
def plainAddresses : Addresses where
  parse text := if '@' ∈ text then some (text.takeWhile (· ≠ '@'), (text.dropWhile (· ≠ '@')).tail) else none
  lower := List.map Char.toLower

/-- Two spellings of Ann's address, and a text that no address can be found in. -/
def fromAnn : List Message :=
  [messageFrom "Ann@x.org".toList, messageFrom "ann@x.org".toList, messageFrom (List.replicate 192 'a')]

theorem ann_has_one_contact : AllKnown plainAddresses nobody fromAnn ∧
    MailContactsUnique (process plainAddresses nobody fromAnn).contacts ∧
      ∀ message ∈ fromAnn, Associated plainAddresses (process plainAddresses nobody fromAnn) message :=
  have known : AllKnown plainAddresses nobody fromAnn := by decide +kernel
  have one := one_contact_for_each_form plainAddresses nobody consistent_nobody fromAnn known
  ⟨known, one.1, one.2.2⟩

theorem allAddresses_messageFrom (emailAddress : Unicode) :
    (messageFrom emailAddress).allAddresses = [(none, emailAddress)] := rfl

theorem entries_messageFrom (emailAddress : Unicode) :
    (messageFrom emailAddress).entries = [(.fromAddr, none, emailAddress)] := rfl

/-- A valid address that no contact is found for gets one, with the form of what is stored. -/
theorem keys_of_unknown (state : State) {emailAddress : Unicode} (fresh : ∀ c ∈ state.contacts, c.id < state.nextId)
    (valid : validEmail addresses emailAddress = true)
    (unknown : ∀ c ∈ state.contacts, c.canonicalizedAddress ≠ some (canonicalizeAddress addresses emailAddress)) :
    (updateContactsFromMessage addresses state (messageFrom emailAddress)).contacts.map Contact.key =
        state.contacts.map Contact.key ++ [(state.nextId, .inbox,
          some (canonicalizeAddress addresses (unicodeSafeTruncate emailAddress MAX_INDEXABLE_LENGTH)))] ∧
      (updateContactsFromMessage addresses state (messageFrom emailAddress)).nextId = state.nextId + 1 := by
  let key := canonicalizeAddress addresses emailAddress
  have nobody_found : (state.contacts.filter fun c => c.canonicalizedAddress.any (· ∈ [key])) = [] := by
    refine List.filter_eq_nil_iff.mpr fun c member => ?_
    have other := unknown c member
    cases form : c.canonicalizedAddress <;> simp_all [key]
  have filed := filed_contactMap addresses state [key]
  rw [nobody_found] at filed
  have missing : key ∉ contactMap [] := AList.notMem_empty _
  let c : Contact := { id := state.nextId, providerName := .inbox, name := none, rawAddress := none,
                       canonicalizedAddress := none }
  let entry : Option Unicode × Unicode := (none, emailAddress)
  have looked_for : canonicalizeAddress addresses entry.2 ∈ [key] := List.mem_singleton_self key
  have filed : Filed addresses state [key] (messageFrom emailAddress).allAddresses
      [c.setEmailAddress addresses emailAddress]
      { contacts := state.contacts ++ [c.setEmailAddress addresses emailAddress], associations := []
        nextId := state.nextId + 1 } ((contactMap []).insert key state.nextId) :=
    filed.create looked_for missing rfl rfl
  have through : updateContactsFromMessage addresses state (messageFrom emailAddress) =
      state.flush (associate addresses ((contactMap []).insert key state.nextId) (messageFrom emailAddress).id
        { contacts := state.contacts ++ [c.setEmailAddress addresses emailAddress], associations := []
          nextId := state.nextId + 1 } (.fromAddr, none, emailAddress)) := by
    rw [updateContactsFromMessage, allAddresses_messageFrom, entries_messageFrom]
    simp only [List.map_cons, List.map_nil, List.foldl_cons, List.foldl_nil]
    rw [show canonicalizeAddress addresses emailAddress = key from rfl, nobody_found, addContact, if_neg missing]
  rw [through]
  refine ⟨?_, nextId_associate _⟩
  rw [keys_flush fresh filed (keys_associate _)]
  simp [savedOf, associate, valid, key, Contact.key, Contact.setEmailAddress, c]

/-- A valid address that does not fit gets a contact with each message. -/
theorem two_contacts_of_not_fits {emailAddress : Unicode} (valid : validEmail addresses emailAddress = true)
    (long : ¬Fits addresses emailAddress) : ¬MailContactsUnique
      (process addresses nobody [messageFrom emailAddress, messageFrom emailAddress]).contacts := by
  let form := canonicalizeAddress addresses (unicodeSafeTruncate emailAddress MAX_INDEXABLE_LENGTH)
  obtain ⟨first, next⟩ := keys_of_unknown nobody (by simp [nobody]) valid (by simp [nobody])
  rw [process, List.foldl_cons, List.foldl_cons, List.foldl_nil]
  generalize updateContactsFromMessage addresses nobody (messageFrom emailAddress) = state at first next
  have only : ∀ c ∈ state.contacts, c.key = (1, .inbox, some form) := by
    intro c member
    have listed : c.key ∈ state.contacts.map Contact.key := List.mem_map_of_mem member
    rw [first] at listed
    exact List.mem_singleton.mp listed
  have fresh : ∀ c ∈ state.contacts, c.id < state.nextId := by
    intro c member
    rw [next, show c.id = 1 from congrArg Prod.fst (only c member)]
    exact Nat.lt_succ_self 1
  have unknown : ∀ c ∈ state.contacts,
      c.canonicalizedAddress ≠ some (canonicalizeAddress addresses emailAddress) := by
    intro c member same
    have stored : c.canonicalizedAddress = some form := congrArg (·.2.2) (only c member)
    exact long (Option.some.inj (stored.symm.trans same))
  obtain ⟨second, -⟩ := keys_of_unknown state fresh valid unknown
  rw [unique_iff_keys, second, first]
  simp [nobody]

/-- An address of more than 191 characters. -/
def longAddress : Unicode := List.replicate 192 'a' ++ "@x.org".toList

/-- One address in lower case is parsed. -/
def onlyAddress (address mailbox hostname : Unicode) : Addresses :=
  { parse := fun text => if text = address then some (mailbox, hostname) else none
    lower := id }

theorem canonicalize_other {address mailbox hostname text : Unicode} (other : text ≠ address) :
    canonicalizeAddress (onlyAddress address mailbox hostname) text = text := by
  have not_parsed : (onlyAddress address mailbox hostname).parse text = none := if_neg other
  rw [canonicalizeAddress, not_parsed]

theorem canonicalize_only {address mailbox hostname : Unicode}
    (elsewhere : hostname ∉ ["gmail.com".toList, "googlemail.com".toList]) :
    canonicalizeAddress (onlyAddress address mailbox hostname) address = mailbox ++ '@' :: hostname := by
  have parsed : (onlyAddress address mailbox hostname).parse address = some (mailbox, hostname) := if_pos rfl
  rw [canonicalizeAddress, parsed]
  exact congrArg (· ++ '@' :: hostname) (if_neg elsewhere)

theorem longAddress_not_fits : ¬Fits (onlyAddress longAddress (List.replicate 192 'a') "x.org".toList) longAddress := by
  have cut : (unicodeSafeTruncate longAddress MAX_INDEXABLE_LENGTH).length ≤ 191 := length_unicodeSafeTruncate_le ..
  have other : unicodeSafeTruncate longAddress MAX_INDEXABLE_LENGTH ≠ longAddress := by
    intro same
    rw [same, longAddress, List.length_append, List.length_replicate] at cut
    omega
  intro fits
  rw [Fits, canonicalize_other other, canonicalize_only (by decide)] at fits
  rw [fits, List.length_append, List.length_replicate] at cut
  omega

/-- Two messages from the long address make two contacts. -/
theorem long_address_twice :
    ¬ ∀ (addresses : Addresses) (state : State), Consistent state → ∀ messages : List Message,
      MailContactsUnique (process addresses state messages).contacts ∧
      ∀ message ∈ messages, Associated addresses (process addresses state messages) message :=
  fun unique => two_contacts_of_not_fits (by decide +kernel) longAddress_not_fits
    (unique _ nobody consistent_nobody [messageFrom longAddress, messageFrom longAddress]).1

end SyncEngine.ProcessMail
