import SyncEngine.Api.LabelUpdates

/-! Label changes that the API makes on a whole thread: what to add and to remove is found once, against
all labels that the messages of the thread have, and is then applied to each of them. -/
namespace SyncEngine
namespace LabelUpdates

/-- An account whose labels have one category each. -/
structure LabelledAccount extends Account where
  texts : ∀ a ∈ categories, ∀ b ∈ categories, ∀ text, labelOf a = .ok text → labelOf b = .ok text → a = b

/-- In what order a set is iterated over. -/
structure Iteration where
  order : Finset Category → List Category
  mem : ∀ categories category, category ∈ order categories ↔ category ∈ categories

structure Message where
  isDraft : Bool
  isRead : Bool
  isStarred : Bool
  categories : Finset Category
  categoriesChanges : Bool
deriving DecidableEq

/-- A message after the request, and the actions scheduled for it. -/
structure Updated where
  message : Message
  changeLabels : Option (List String × List String)
  markUnread : Option Bool
  markStarred : Option Bool
deriving DecidableEq

/-- `Thread.categories` -/
def threadCategories (messages : List Message) : Finset Category :=
  messages.foldl (fun categories message => categories ∪ message.categories) ∅

def updateMessageFlags (updated : Updated) (optimistic : Bool) (unread starred : Option Bool) : Updated :=
  let message := updated.message
  let reads := unread.filter fun unread => unread = message.isRead
  let stars := starred.filter fun starred => starred ≠ message.isStarred
  { updated with
      message := if optimistic then
        { message with
            isRead := (reads.map (!·)).getD message.isRead
            isStarred := stars.getD message.isStarred } else message
      markUnread := reads
      markStarred := stars }

section Thread
variable (account : Account) (iteration : Iteration)

/-- The body of the first loop. -/
def updateLabels (newLabels removedLabels : List Category) (optimistic : Bool) (message : Message) :
    Except Error Updated :=
  if message.isDraft then .ok ⟨message, none, none, none⟩
  else do
    let update ← updateMessageLabels account message.categories message.categoriesChanges newLabels
      removedLabels optimistic
    return ⟨{ message with categories := update.categories, categoriesChanges := update.categoriesChanges },
      update.action, none, none⟩

/-- The part for an account with labels, of a request whose attributes are all known. -/
def updateThread (messages : List Message) (labels : Option (Finset Category)) (unread starred : Option Bool)
    (optimistic : Bool) : Except Error (List Updated) := do
  let updated ← match labels with
    | none => pure (messages.map fun message => ⟨message, none, none, none⟩)
    | some labels =>
      let newLabels := iteration.order (labels \ threadCategories messages)
      let removedLabels := iteration.order (threadCategories messages \ labels)
      messages.mapM (updateLabels account newLabels removedLabels optimistic)
  return updated.map fun updated =>
    if updated.message.isDraft then updated else updateMessageFlags updated optimistic unread starred

end Thread

/-- What `remote_change_labels` does to the labels of a message on the server. -/
def remoteLabels (labels : Finset String) (action : Option (List String × List String)) : Finset String :=
  match action with
  | none => labels
  | some (removed, added) => (labels ∪ added.toFinset) \ removed.toFinset

/-- Inbox, Important and the labels of the user's own. -/
def IsLabel (category : Category) : Prop :=
  category.name ∉ folders ∧ category.name ≠ "drafts" ∧ category.name ≠ "sent"

instance : DecidablePred IsLabel := fun _ => inferInstanceAs (Decidable (_ ∧ _))

/-! ## One message -/
section Message
variable {account : Account} {categories : Finset Category} {added removed : List Category}
  {category : Category} {text : String}

theorem mem_discards (member : name ∈ (added.foldl rule ([], [])).2) :
    ∃ category ∈ added, ∃ names, discardOf category.name = some names ∧ name ∈ names := by
  rw [rules_discard] at member
  cases last : (added.filterMap fun category => discardOf category.name).getLast? with
  | none =>
    rw [last] at member
    cases member
  | some names =>
    rw [last] at member
    obtain ⟨category, inside, discards⟩ := List.mem_filterMap.mp (List.mem_of_getLast? last)
    exact ⟨category, inside, names, discards, member⟩

/-- The rules take no label away but Inbox, and that only for Trash or Spam. -/
theorem label_kept (label : IsLabel category)
    (calm : category.name = "inbox" → ∀ other ∈ added, other.name ≠ "trash" ∧ other.name ≠ "spam") :
    category.name ∉ (added.foldl rule ([], [])).2 := by
  intro discarded
  have plain : category.name ≠ "all" ∧ category.name ≠ "trash" ∧ category.name ≠ "spam" := by
    simpa [IsLabel, folders] using label.1
  obtain ⟨other, member, names, discards, among⟩ := mem_discards discarded
  have moved := fun inbox => calm inbox other member
  rcases discardOf_cases discards with ⟨name, rfl⟩ | ⟨name, rfl⟩ | ⟨name, rfl⟩ | ⟨name, rfl⟩ <;>
    simp only [List.mem_cons, List.not_mem_nil, or_false] at among <;> grind

/-- A request that is not refused. -/
theorem updateMessageLabels_ok {changes : Bool} {update : Update}
    (updated : updateMessageLabels account categories changes added removed true = .ok update) :
    ∃ addedLabels removedLabels, added.mapM labelOf = .ok addedLabels ∧
      removed.mapM labelOf = .ok removedLabels ∧
      applyGmailLabelRules account (changed categories added removed) added = .ok update.categories ∧
      update.action =
        if removedLabels = [] ∧ addedLabels = [] then none else some (removedLabels, addedLabels) := by
  unfold updateMessageLabels at updated
  cases valid : validateLabels added removed with
  | error => simp [valid, bind, Except.bind] at updated
  | ok =>
    cases adds : added.mapM labelOf with
    | error => simp [valid, adds, bind, Except.bind] at updated
    | ok addedLabels =>
      cases removes : removed.mapM labelOf with
      | error => simp [valid, adds, removes, bind, Except.bind] at updated
      | ok removedLabels =>
        cases rules : applyGmailLabelRules account (changed categories added removed) added with
        | error => simp [valid, adds, removes, rules, bind, Except.bind] at updated
        | ok result =>
          simp only [valid, adds, removes, rules, bind, Except.bind, pure, Except.pure, if_true,
            Except.ok.injEq] at updated
          subst updated
          exact ⟨addedLabels, removedLabels, rfl, rfl, rfl, rfl⟩

/-- Where a label is after the update. -/
theorem mem_updated {changes : Bool} {update : Update}
    (updated : updateMessageLabels account categories changes added removed true = .ok update)
    (within : ∀ category ∈ categories, category ∈ account.categories)
    (known : ∀ category ∈ added, category ∈ account.categories) (label : IsLabel category)
    (calm : category.name = "inbox" → ∀ other ∈ added, other.name ≠ "trash" ∧ other.name ≠ "spam") :
    category ∈ update.categories ↔ (category ∈ categories ∨ category ∈ added) ∧ category ∉ removed := by
  obtain ⟨_, _, _, _, rules, _⟩ := updateMessageLabels_ok updated
  obtain ⟨allMail, _, named, result, done, mem⟩ := rules_spec (within_changed removed within known) added
  cases done.symm.trans rules
  have other : category ≠ allMail := by
    rintro rfl
    exact label.1 (by simp [named, folders])
  rw [mem, mem_changed]
  have kept := label_kept label calm
  have plain := label.1
  grind

end Message

/-! ## The thread -/
section Thread
variable {account : Account} {iteration : Iteration} {messages : List Message} {labels : Finset Category}
  {results : List Updated} {unread starred : Option Bool} {optimistic : Bool} {category : Category}

theorem mem_threadCategories : category ∈ threadCategories messages ↔
    ∃ message ∈ messages, category ∈ message.categories := by
  have collected : ∀ found : Finset Category,
      category ∈ messages.foldl (fun categories message => categories ∪ message.categories) found ↔
        category ∈ found ∨ ∃ message ∈ messages, category ∈ message.categories := by
    induction messages with
    | nil => simp
    | cons message rest ih =>
      intro found
      rw [List.foldl_cons, ih]
      simp only [Finset.mem_union, List.mem_cons, exists_eq_or_imp, or_assoc]
  rw [threadCategories, collected]
  simp

/-- The labels of an account's thread, and those that are asked for. -/
structure Request (account : Account) (messages : List Message) (labels : Finset Category) : Prop where
  within : ∀ message ∈ messages, ∀ category ∈ message.categories, category ∈ account.categories
  known : ∀ category ∈ labels, category ∈ account.categories

/-- Neither Trash nor Spam is new to the thread. -/
def Calm (messages : List Message) (labels : Finset Category) : Prop :=
  ∀ category ∈ labels, category ∉ threadCategories messages → category.name ≠ "trash" ∧ category.name ≠ "spam"

/-- The labels of a message on the server are those of its row. -/
def InSync (account : Account) (categories : Finset Category) (remote : Finset String) : Prop :=
  ∀ category ∈ account.categories, ∀ text, labelOf category = .ok text → (text ∈ remote ↔ category ∈ categories)

/-- The message has the labels that were asked for, and the action puts them on the server. Adding Trash
or Spam takes a message out of Inbox. -/
structure Takes (account : LabelledAccount) (messages : List Message) (labels : Finset Category)
    (before : Message) (after : Updated) : Prop where
  own : ∀ category, IsLabel category → (category.name = "inbox" → Calm messages labels) →
    (category ∈ after.message.categories ↔ category ∈ labels)
  remote : ∀ remote, InSync account.toAccount before.categories remote → ∀ category ∈ account.categories,
    IsLabel category → ∀ text, labelOf category = .ok text →
      (text ∈ remoteLabels remote after.changeLabels ↔ category ∈ labels)

theorem mem_added : category ∈ iteration.order (labels \ threadCategories messages) ↔
    category ∈ labels ∧ category ∉ threadCategories messages := by
  rw [iteration.mem, Finset.mem_sdiff]

theorem mem_removed : category ∈ iteration.order (threadCategories messages \ labels) ↔
    category ∈ threadCategories messages ∧ category ∉ labels := by
  rw [iteration.mem, Finset.mem_sdiff]

theorem Request.added {account : Account} (request : Request account messages labels) :
    ∀ category ∈ iteration.order (labels \ threadCategories messages), category ∈ account.categories :=
  fun category member => request.known category (mem_added.mp member).1

theorem Request.removed {account : Account} (request : Request account messages labels) :
    ∀ category ∈ iteration.order (threadCategories messages \ labels), category ∈ account.categories := by
  intro category member
  obtain ⟨message, inside, held⟩ := mem_threadCategories.mp (mem_removed.mp member).1
  exact request.within message inside category held

/-- A label that another message of the thread has already is not added. -/
theorem partial_label_stays_partial {message : Message} {update : Update}
    (request : Request account messages labels) (label : IsLabel category)
    (calm : category.name = "inbox" → Calm messages labels)
    (member : message ∈ messages) (elsewhere : category ∈ threadCategories messages)
    (updated : updateMessageLabels account message.categories message.categoriesChanges
      (iteration.order (labels \ threadCategories messages))
      (iteration.order (threadCategories messages \ labels)) true = .ok update) :
    category ∈ update.categories ↔ category ∈ message.categories ∧ category ∈ labels := by
  rw [mem_updated updated (request.within message member) request.added label fun inbox other new =>
    calm inbox other (mem_added.mp new).1 (mem_added.mp new).2, mem_added, mem_removed]
  grind

end Thread

namespace Sample

def work : Category := { id := 5, name := "", displayName := "Work" }

noncomputable def iteration : Iteration where
  order := Finset.toList
  mem _ _ := Finset.mem_toList

def message (categories : Finset Category) : Message where
  isDraft := false
  isRead := true
  isStarred := false
  categories
  categoriesChanges := false

def after (categories : Finset Category) (removed added : List String) : Updated where
  message := { message categories with categoriesChanges := true }
  changeLabels := some (removed, added)
  markUnread := none
  markStarred := none

end Sample

end LabelUpdates
end SyncEngine
