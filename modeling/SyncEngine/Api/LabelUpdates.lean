import Mathlib.Data.Finset.Basic
import Mathlib.Data.List.Perm.Basic
import SyncEngine.Util.Traversal

/-! Label changes that the API makes on a Gmail message before the account does: of the folders all,
trash and spam a message is in exactly one. The categories to add and to remove are sets, which are
iterated over in any order. -/
namespace SyncEngine
namespace LabelUpdates

structure Category where
  id : Nat
  /-- Empty for a label of the user's own. -/
  name : String
  displayName : String
deriving DecidableEq, Repr

inductive Error where
  | inputError (message : String)
  | noResultFound
  | multipleResultsFound
deriving DecidableEq, Repr

def folders : List String := ["all", "trash", "spam"]

/-- The categories of an account that can be synced: All Mail is there, and no special label twice. -/
structure Account where
  categories : List Category
  distinct : categories.Nodup
  all : ∃ category ∈ categories, category.name = "all"
  special : ∀ a ∈ categories, ∀ b ∈ categories, a.name = b.name → a.name ∈ folders → a = b

/-- `query(Category).filter(Category.name == name).one()` -/
def Account.one (account : Account) (name : String) : Except Error Category :=
  match account.categories.filter (·.name = name) with
  | [category] => .ok category
  | [] => .error .noResultFound
  | _ => .error .multipleResultsFound

def specialLabelMap : List (String × String) :=
  [("inbox", "\\Inbox"), ("important", "\\Important"), ("all", "\\All"), ("trash", "\\Trash"),
    ("spam", "\\Spam")]

def labelOf (category : Category) : Except Error String :=
  match specialLabelMap.lookup category.name with
  | some label => .ok label
  | none =>
    if category.name = "drafts" ∨ category.name = "sent" then
      .error (.inputError ("The \"" ++ category.name ++ "\" label cannot be changed"))
    else .ok category.displayName

def validateLabels (added removed : List Category) : Except Error Unit :=
  let add := added.map Category.name
  let remove := removed.map Category.name
  if ("all" ∈ add ∧ ("trash" ∈ add ∨ "spam" ∈ add)) ∨ ("trash" ∈ add ∧ "spam" ∈ add) then
    .error (.inputError "Only one of \"all\", \"trash\" or \"spam\" can be added")
  else if "all" ∈ remove ∧ "trash" ∈ remove ∧ "spam" ∈ remove then
    .error (.inputError "\"all\", \"trash\" and \"spam\" cannot all be removed")
  else .ok ()

/-- What adding a category does to the names to add and to discard; the last one decides. -/
def rule (state : List String × List String) (category : Category) : List String × List String :=
  match category.name with
  | "all" => (state.1, ["trash", "spam"])
  | "trash" => (state.1, ["all", "spam", "inbox"])
  | "spam" => (state.1, ["all", "trash", "inbox"])
  | "inbox" => (["all"], ["trash", "spam"])
  | _ => state

/-- The category of each name that was there before is discarded; one just added is not. -/
def applyGmailLabelRules (account : Account) (categories : Finset Category) (added : List Category) :
    Except Error (Finset Category) := do
  let (add, discard) := added.foldl rule ([], [])
  let extended ← add.foldlM (fun extended name =>
    if ∃ category ∈ categories, category.name = name then pure extended
    else return insert (← account.one name) extended) categories
  return discard.foldl (fun kept name => kept \ categories.filter (·.name = name)) extended

/-- The categories of the message before the rules: all, trash and spam are not removed yet. -/
def changed (categories : Finset Category) (added removed : List Category) : Finset Category :=
  removed.foldl (fun kept category => if category.name ∉ folders then kept.erase category else kept)
    (added.foldl (fun kept category => insert category kept) categories)

structure Update where
  categories : Finset Category
  categoriesChanges : Bool
  /-- The `change_labels` action, with the labels to remove and to add. -/
  action : Option (List String × List String)

def updateMessageLabels (account : Account) (categories : Finset Category) (categoriesChanges : Bool)
    (added removed : List Category) (optimistic : Bool) : Except Error Update := do
  validateLabels added removed
  let addedLabels ← added.mapM labelOf
  let removedLabels ← removed.mapM labelOf
  let action := if removedLabels = [] ∧ addedLabels = [] then none else some (removedLabels, addedLabels)
  if optimistic then
    let updated ← applyGmailLabelRules account (changed categories added removed) added
    return { categories := updated, categoriesChanges := categoriesChanges || action.isSome, action }
  else return { categories, categoriesChanges, action }

/-- A Gmail message must belong to exactly one of the three folders. -/
def Exclusive (categories : Finset Category) : Prop :=
  ∃ folder ∈ categories, folder.name ∈ folders ∧
    ∀ other ∈ categories, other.name ∈ folders → other = folder

/-- In whatever order the sets are iterated over, the outcome is the same, and unless the request is
refused the message is in one folder again. -/
def KeepsExclusive (account : Account) (categories : Finset Category) (added removed : List Category) :
    Prop :=
  ∃ outcome : Option (Finset Category), (∀ result ∈ outcome, Exclusive result) ∧
    ∀ adding removing changes, adding.Perm added → removing.Perm removed →
      (updateMessageLabels account categories changes adding removing true).toOption.map
        Update.categories = outcome

/-! ## The rules -/
section Rules
variable {account : Account} {categories : Finset Category} {added removed : List Category}

theorem Account.one_all (account : Account) : ∃ allMail ∈ account.categories, allMail.name = "all" ∧
    account.one "all" = .ok allMail := by
  obtain ⟨allMail, member, named⟩ := account.all
  have only : account.categories.filter (·.name = "all") = [allMail] := by
    refine List.perm_singleton.mp ((List.perm_ext_iff_of_nodup (account.distinct.filter _)
      (List.nodup_singleton _)).mpr fun other => ?_)
    simp only [List.mem_filter, decide_eq_true_eq, List.mem_singleton]
    constructor
    · rintro ⟨inside, same⟩
      exact account.special other inside allMail member (same.trans named.symm) (by simp [same, folders])
    · rintro rfl
      exact ⟨member, named⟩
  exact ⟨allMail, member, named, by rw [Account.one, only]⟩

/-- The names that adding a category of this name discards. -/
def discardOf : String → Option (List String)
  | "all" => some ["trash", "spam"]
  | "trash" => some ["all", "spam", "inbox"]
  | "spam" => some ["all", "trash", "inbox"]
  | "inbox" => some ["trash", "spam"]
  | _ => none

theorem rule_eq (state : List String × List String) (category : Category) : rule state category =
    (if category.name = "inbox" then ["all"] else state.1, (discardOf category.name).getD state.2) := by
  unfold rule discardOf
  split <;> simp_all

theorem rules_add (state : List String × List String) : (added.foldl rule state).1 =
    if "inbox" ∈ added.map Category.name then ["all"] else state.1 := by
  induction added generalizing state with
  | nil => rfl
  | cons category rest ih =>
    rw [List.foldl_cons, ih, rule_eq]
    grind

theorem rules_discard (state : List String × List String) : (added.foldl rule state).2 =
    (added.filterMap fun category => discardOf category.name).getLast?.getD state.2 := by
  induction added generalizing state with
  | nil => rfl
  | cons category rest ih =>
    rw [List.foldl_cons, ih, rule_eq]
    cases discards : discardOf category.name with
    | none => simp [discards]
    | some names => simp [discards, List.getLast?_cons]

theorem mem_discarded {names : List String} {extended : Finset Category} :
    category ∈ names.foldl (fun kept name => kept \ categories.filter (·.name = name)) extended ↔
      category ∈ extended ∧ (category ∈ categories → category.name ∉ names) := by
  induction names generalizing extended with
  | nil => simp
  | cons name rest ih =>
    rw [List.foldl_cons, ih]
    simp only [Finset.mem_sdiff, Finset.mem_filter, List.mem_cons, not_or]
    grind

theorem mem_changed : category ∈ changed categories added removed ↔
    (category ∈ categories ∨ category ∈ added) ∧
      ¬ (category ∈ removed ∧ category.name ∉ folders) := by
  have adds : ∀ kept : Finset Category, category ∈ added.foldl (fun kept c => insert c kept) kept ↔
      category ∈ kept ∨ category ∈ added := by
    induction added with
    | nil => simp
    | cons first rest ih =>
      intro kept
      rw [List.foldl_cons, ih]
      simp only [Finset.mem_insert, List.mem_cons]
      tauto
  have removes : ∀ kept : Finset Category, category ∈ removed.foldl
      (fun kept c => if c.name ∉ folders then kept.erase c else kept) kept ↔
      category ∈ kept ∧ ¬ (category ∈ removed ∧ category.name ∉ folders) := by
    induction removed with
    | nil => simp
    | cons first rest ih =>
      intro kept
      rw [List.foldl_cons, ih]
      split
      · simp only [Finset.mem_erase, List.mem_cons]
        grind
      · simp only [List.mem_cons]
        grind
  rw [changed, removes, adds]

/-- What is left and what is added, when the categories are those of the account. -/
theorem rules_spec (within : ∀ category ∈ categories, category ∈ account.categories)
    (added : List Category) : ∃ allMail ∈ account.categories, allMail.name = "all" ∧ ∃ result,
      applyGmailLabelRules account categories added = .ok result ∧
      ∀ category, category ∈ result ↔
        (category ∈ categories ∨ ("inbox" ∈ added.map Category.name ∧ category = allMail)) ∧
        (category ∈ categories → category.name ∉ (added.foldl rule ([], [])).2) := by
  obtain ⟨allMail, member, named, one⟩ := account.one_all
  refine ⟨allMail, member, named, ?_⟩
  unfold applyGmailLabelRules
  rw [← Prod.mk.eta (p := added.foldl rule ([], [])), rules_add]
  dsimp only
  split
  · rename_i inbox
    by_cases held : ∃ category ∈ categories, category.name = "all"
    · refine ⟨_, by simp only [List.foldlM_cons, List.foldlM_nil, if_pos held]; rfl, fun category => ?_⟩
      rw [mem_discarded]
      obtain ⟨own, inside, same⟩ := held
      have equal : own = allMail :=
        account.special own (within own inside) allMail member (same.trans named.symm) (by simp [same, folders])
      subst equal
      grind
    · refine ⟨_, by simp only [List.foldlM_cons, List.foldlM_nil, if_neg held, one]; rfl, fun category => ?_⟩
      rw [mem_discarded, Finset.mem_insert]
      simp only [inbox, true_and]
      tauto
  · rename_i inbox
    refine ⟨_, rfl, fun category => ?_⟩
    rw [mem_discarded]
    simp [inbox]

/-- A folder that the rules leave the message in. -/
theorem exclusive_of_folder {folder : Category} (within : ∀ category ∈ categories, category ∈ account.categories)
    (member : folder ∈ categories) (named : folder.name ∈ folders)
    (only : ∀ other ∈ categories, other.name ∈ folders → other.name = folder.name) : Exclusive categories :=
  ⟨folder, member, named, fun other inside same => account.special other (within other inside) folder
    (within folder member) (only other inside same) same⟩

/-- Inbox moves a message to All Mail, and the two others take it out of there. -/
def Conflicting (added : List Category) : Prop :=
  "inbox" ∈ added.map Category.name ∧
    ("trash" ∈ added.map Category.name ∨ "spam" ∈ added.map Category.name)

instance : Decidable (Conflicting added) := inferInstanceAs (Decidable (_ ∧ _))

/-- One of the labels cannot be changed. -/
def Refused (added removed : List Category) : Prop :=
  ∃ category ∈ added ++ removed, category.name = "drafts" ∨ category.name = "sent"

theorem validateLabels_ok : validateLabels added removed = .ok () ↔
    ¬ (("all" ∈ added.map Category.name ∧
        ("trash" ∈ added.map Category.name ∨ "spam" ∈ added.map Category.name)) ∨
      ("trash" ∈ added.map Category.name ∧ "spam" ∈ added.map Category.name)) ∧
    ¬ ("all" ∈ removed.map Category.name ∧ "trash" ∈ removed.map Category.name ∧
      "spam" ∈ removed.map Category.name) := by
  unfold validateLabels
  dsimp only
  split
  · rename_i two
    exact iff_of_false nofun fun allowed => allowed.1 two
  · rename_i one
    split
    · rename_i everything
      exact iff_of_false nofun fun allowed => allowed.2 everything
    · rename_i some
      exact iff_of_true rfl ⟨one, some⟩

theorem validateLabels_perm (adding : first.Perm added) (removing : second.Perm removed) :
    validateLabels first second = validateLabels added removed := by
  simp only [validateLabels, (adding.map Category.name).mem_iff, (removing.map Category.name).mem_iff]

theorem labelOf_ok : (∃ label, labelOf category = .ok label) ↔
    ¬ (category.name = "drafts" ∨ category.name = "sent") := by
  unfold labelOf
  split
  · rename_i label found
    refine ⟨fun _ => ?_, fun _ => ⟨label, rfl⟩⟩
    rintro (same | same)
    · rw [same] at found
      cases found
    · rw [same] at found
      cases found
  · split <;> simp_all

theorem mapM_labelOf (added : List Category) : (∃ labels, added.mapM labelOf = .ok labels) ↔
    ∀ category ∈ added, ¬ (category.name = "drafts" ∨ category.name = "sent") :=
  mapM_isOk_iff.trans (forall₂_congr fun _ _ => labelOf_ok)

/-- Past the checks, the categories are those that the rules leave. -/
theorem update_categories (accepted : validateLabels added removed = .ok ()) (changes : Bool) :
    (updateMessageLabels account categories changes added removed true).toOption.map Update.categories =
      if (∃ category ∈ added ++ removed, category.name = "drafts" ∨ category.name = "sent") then none
      else (applyGmailLabelRules account (changed categories added removed) added).toOption := by
  have adds := mapM_labelOf added
  have removes := mapM_labelOf removed
  unfold updateMessageLabels
  rw [accepted]
  simp only [bind, Except.bind, pure, Except.pure, if_true]
  cases first : added.mapM labelOf with
  | error =>
    rw [if_pos]
    · rfl
    · simp only [first, reduceCtorEq, exists_false, false_iff, not_forall, not_not] at adds
      obtain ⟨category, member, fixed⟩ := adds
      exact ⟨category, List.mem_append_left _ member, fixed⟩
  | ok addedLabels =>
    dsimp only
    cases second : removed.mapM labelOf with
    | error =>
      rw [if_pos]
      · rfl
      · simp only [second, reduceCtorEq, exists_false, false_iff, not_forall, not_not] at removes
        obtain ⟨category, member, fixed⟩ := removes
        exact ⟨category, List.mem_append_right _ member, fixed⟩
    | ok removedLabels =>
      rw [if_neg]
      · cases applyGmailLabelRules account (changed categories added removed) added <;> rfl
      · rintro ⟨category, member, fixed⟩
        rcases List.mem_append.mp member with here | there
        · exact adds.mp ⟨_, first⟩ category here fixed
        · exact removes.mp ⟨_, second⟩ category there fixed

theorem changed_perm (adding : first.Perm added) (removing : second.Perm removed) :
    changed categories first second = changed categories added removed := by
  ext category
  simp only [mem_changed, adding.mem_iff, removing.mem_iff]

theorem discardOf_cases (discards : discardOf name = some names) :
    (name = "all" ∧ names = ["trash", "spam"]) ∨ (name = "trash" ∧ names = ["all", "spam", "inbox"]) ∨
      (name = "spam" ∧ names = ["all", "trash", "inbox"]) ∨ (name = "inbox" ∧ names = ["trash", "spam"]) := by
  unfold discardOf at discards
  split at discards <;> simp_all

/-- What is discarded when no two added categories disagree. -/
def discarded (added : List Category) : List String :=
  if "trash" ∈ added.map Category.name then ["all", "spam", "inbox"]
  else if "spam" ∈ added.map Category.name then ["all", "trash", "inbox"]
  else if "all" ∈ added.map Category.name ∨ "inbox" ∈ added.map Category.name then ["trash", "spam"]
  else []

theorem getLast?_of_alike {entries : List α} (alike : ∀ entry ∈ entries, entry = value)
    (empty : entries = [] → otherwise = value) : entries.getLast?.getD otherwise = value := by
  cases last : entries.getLast? with
  | none => exact empty (List.getLast?_eq_none_iff.mp last)
  | some entry => exact alike entry (List.mem_of_getLast? last)

theorem rules_discarded (accepted : validateLabels added removed = .ok ()) (calm : ¬ Conflicting added) :
    (added.foldl rule ([], [])).2 = discarded added := by
  have one := (validateLabels_ok.mp accepted).1
  rw [Conflicting] at calm
  rw [rules_discard]
  refine getLast?_of_alike (fun names member => ?_) fun empty => ?_
  · obtain ⟨category, inside, discards⟩ := List.mem_filterMap.mp member
    have named := List.mem_map_of_mem (f := Category.name) inside
    rcases discardOf_cases discards with ⟨name, rfl⟩ | ⟨name, rfl⟩ | ⟨name, rfl⟩ | ⟨name, rfl⟩
    all_goals
      rw [name] at named
      simp only [discarded]
      grind
  · have none : ∀ name, (discardOf name).isSome → name ∉ added.map Category.name := by
      intro name some member
      obtain ⟨category, inside, rfl⟩ := List.mem_map.mp member
      obtain ⟨names, discards⟩ := Option.isSome_iff_exists.mp some
      have listed : names ∈ added.filterMap fun category => discardOf category.name :=
        List.mem_filterMap.mpr ⟨category, inside, discards⟩
      rw [empty] at listed
      cases listed
    simp only [discarded, none "trash" rfl, none "spam" rfl, none "all" rfl, none "inbox" rfl, if_false,
      or_self]

theorem mem_names : name ∈ added.map Category.name ↔ ∃ category ∈ added, category.name = name :=
  List.mem_map

theorem within_changed (removed : List Category) (within : ∀ category ∈ categories, category ∈ account.categories)
    (known : ∀ category ∈ added, category ∈ account.categories) :
    ∀ category ∈ changed categories added removed, category ∈ account.categories := by
  intro category member
  rcases (mem_changed.mp member).1 with old | new
  · exact within category old
  · exact known category new

/-- Without a conflict the rules leave the message in one folder. -/
theorem rules_exclusive (within : ∀ category ∈ categories, category ∈ account.categories)
    (known : ∀ category ∈ added, category ∈ account.categories) (before : Exclusive categories)
    (accepted : validateLabels added removed = .ok ()) (calm : ¬ Conflicting added)
    (ruled : applyGmailLabelRules account (changed categories added removed) added = .ok result) :
    Exclusive result := by
  obtain ⟨allMail, inside, named, final, done, mem⟩ :=
    rules_spec (within_changed removed within known) added
  cases done.symm.trans ruled
  rw [rules_discarded accepted calm] at mem
  have resultWithin : ∀ category ∈ result, category ∈ account.categories := by
    intro category member
    rcases ((mem category).mp member).1 with old | ⟨_, rfl⟩
    · exact within_changed removed within known category old
    · exact inside
  have accepts := (validateLabels_ok.mp accepted).1
  have folderKept : ∀ category ∈ added, category.name ∈ folders → category ∈ changed categories added removed :=
    fun category member special => mem_changed.mpr ⟨.inr member, fun gone => gone.2 special⟩
  have three : ∀ {name}, name ∈ folders ↔ name = "all" ∨ name = "trash" ∨ name = "spam" := by
    simp [folders]
  rw [Conflicting] at calm
  by_cases trash : "trash" ∈ added.map Category.name
  · obtain ⟨folder, member, name⟩ := mem_names.mp trash
    have special : folder.name ∈ folders := by simp [name, folders]
    have kept := folderKept folder member special
    simp only [discarded, if_pos trash] at mem
    refine exclusive_of_folder resultWithin ((mem folder).mpr ⟨.inl kept, fun _ => by simp [name]⟩) special
      fun other stays some => ?_
    have left := (mem other).mp stays
    rw [three] at some
    grind
  · by_cases spam : "spam" ∈ added.map Category.name
    · obtain ⟨folder, member, name⟩ := mem_names.mp spam
      have special : folder.name ∈ folders := by simp [name, folders]
      have kept := folderKept folder member special
      simp only [discarded, if_neg trash, if_pos spam] at mem
      refine exclusive_of_folder resultWithin ((mem folder).mpr ⟨.inl kept, fun _ => by simp [name]⟩) special
        fun other stays some => ?_
      have left := (mem other).mp stays
      rw [three] at some
      grind
    · by_cases up : "all" ∈ added.map Category.name ∨ "inbox" ∈ added.map Category.name
      · simp only [discarded, if_neg trash, if_neg spam, if_pos up] at mem
        have there : allMail ∈ result := by
          refine (mem allMail).mpr ⟨?_, fun _ => by simp [named]⟩
          rcases up with all | inbox
          · obtain ⟨folder, member, name⟩ := mem_names.mp all
            have same := account.special folder (known folder member) allMail inside (name.trans named.symm)
              (by simp [name, folders])
            exact .inl (same ▸ folderKept folder member (by simp [name, folders]))
          · exact .inr ⟨inbox, rfl⟩
        refine exclusive_of_folder resultWithin there (by simp [named, folders]) fun other stays some => ?_
        have left := (mem other).mp stays
        rw [three] at some
        grind
      · simp only [discarded, if_neg trash, if_neg spam, if_neg up] at mem
        rw [not_or] at up
        obtain ⟨folder, member, special, only⟩ := before
        have base : ∀ category ∈ result, category ∈ changed categories added removed := by
          intro category stays
          rcases ((mem category).mp stays).1 with old | ⟨inbox, _⟩
          · exact old
          · exact absurd inbox up.2
        have kept : folder ∈ changed categories added removed :=
          mem_changed.mpr ⟨.inl member, fun gone => gone.2 special⟩
        refine ⟨folder, (mem folder).mpr ⟨.inl kept, fun _ => nofun⟩, special, fun other stays some => ?_⟩
        rcases (mem_changed.mp (base other stays)).1 with old | new
        · exact only other old some
        · have name := List.mem_map_of_mem (f := Category.name) new
          rw [three] at some
          grind

theorem discarded_perm (adding : first.Perm added) : discarded first = discarded added := by
  simp only [discarded, (adding.map Category.name).mem_iff]

theorem conflicting_perm (adding : first.Perm added) : Conflicting first ↔ Conflicting added := by
  simp only [Conflicting, (adding.map Category.name).mem_iff]

/-- Without a conflict the order does not matter. -/
theorem rules_perm (within : ∀ category ∈ categories, category ∈ account.categories)
    (accepted : validateLabels added removed = .ok ()) (calm : ¬ Conflicting added)
    (adding : first.Perm added) : applyGmailLabelRules account categories first =
      applyGmailLabelRules account categories added := by
  obtain ⟨firstAll, firstInside, firstNamed, firstFinal, firstDone, firstMem⟩ := rules_spec within first
  obtain ⟨allMail, inside, named, final, done, mem⟩ := rules_spec within added
  have same := account.special firstAll firstInside allMail inside (firstNamed.trans named.symm)
    (by simp [firstNamed, folders])
  subst same
  have also : validateLabels first removed = .ok () :=
    (validateLabels_perm adding (.refl removed)).trans accepted
  rw [rules_discarded also (by rwa [conflicting_perm adding])] at firstMem
  rw [rules_discarded accepted calm] at mem
  rw [firstDone, done]
  congr 1
  ext category
  rw [firstMem, mem, discarded_perm adding, (adding.map Category.name).mem_iff]

theorem moved_last (member : category ∈ added) : (added.erase category ++ [category]).Perm added :=
  (List.perm_append_singleton category _).trans (List.perm_cons_erase member).symm

/-- The category that comes last decides what is discarded. -/
theorem last_discards (discards : discardOf category.name = some names) :
    ((added.erase category ++ [category]).foldl rule ([], [])).2 = names := by
  rw [rules_discard, List.filterMap_append]
  simp [discards]

/-- With Inbox first the message stays in Trash or Spam, with Inbox last it leaves. -/
theorem conflict_depends (within : ∀ category ∈ categories, category ∈ account.categories)
    (known : ∀ category ∈ added, category ∈ account.categories)
    (accepted : validateLabels added removed = .ok ()) (allowed : ¬ Refused added removed)
    (conflict : Conflicting added) : ¬ KeepsExclusive account categories added removed := by
  rintro ⟨outcome, _, same⟩
  obtain ⟨inboxed, moved⟩ := conflict
  obtain ⟨inbox, inboxAdded, inboxName⟩ := mem_names.mp inboxed
  obtain ⟨folder, folderAdded, folderName, names, discards, stays⟩ : ∃ folder ∈ added,
      (folder.name = "trash" ∨ folder.name = "spam") ∧ ∃ names, discardOf folder.name = some names ∧
        folder.name ∉ names := by
    rcases moved with trash | spam
    · obtain ⟨folder, member, name⟩ := mem_names.mp trash
      exact ⟨folder, member, .inl name, _, by rw [name]; rfl, by simp [name]⟩
    · obtain ⟨folder, member, name⟩ := mem_names.mp spam
      exact ⟨folder, member, .inr name, _, by rw [name]; rfl, by simp [name]⟩
  have base := within_changed removed within known
  have kept : folder ∈ changed categories added removed := by
    refine mem_changed.mpr ⟨.inr folderAdded, fun gone => gone.2 ?_⟩
    rcases folderName with name | name
    · simp [name, folders]
    · simp [name, folders]
  -- The two orders differ in what comes last.
  have outcomes : ∀ {last}, last ∈ added → ∃ allMail ∈ account.categories, ∃ result,
      outcome = some result ∧ (∀ category, category ∈ result ↔
        (category ∈ changed categories added removed ∨ ("inbox" ∈ (added.erase last ++ [last]).map
          Category.name ∧ category = allMail)) ∧ (category ∈ changed categories added removed →
            category.name ∉ ((added.erase last ++ [last]).foldl rule ([], [])).2)) := by
    intro last member
    have adding := moved_last member
    obtain ⟨allMail, inside, _, result, done, mem⟩ := rules_spec base (added.erase last ++ [last])
    refine ⟨allMail, inside, result, ?_, mem⟩
    rw [← same _ _ false adding (.refl removed),
      update_categories ((validateLabels_perm adding (.refl removed)).trans accepted), if_neg]
    · rw [changed_perm adding (.refl removed), done]
      rfl
    · rintro ⟨category, listed, fixed⟩
      refine allowed ⟨category, ?_, fixed⟩
      simpa only [List.mem_append, adding.mem_iff] using listed
  obtain ⟨_, _, first, found, firstMem⟩ := outcomes inboxAdded
  obtain ⟨_, _, second, other, secondMem⟩ := outcomes folderAdded
  cases found.symm.trans other
  have there : folder ∈ first := by
    refine (secondMem folder).mpr ⟨.inl kept, fun _ => ?_⟩
    rw [last_discards discards]
    exact stays
  have gone := ((firstMem folder).mp there).2 kept
  rw [last_discards (by rw [inboxName]; rfl)] at gone
  rcases folderName with name | name
  · simp [name] at gone
  · simp [name] at gone

/-- The result is one folder in every order exactly when Inbox is not added together with Trash or
Spam, or the request is refused anyway. -/
theorem keeps_exclusive_iff (within : ∀ category ∈ categories, category ∈ account.categories)
    (known : ∀ category ∈ added, category ∈ account.categories) (before : Exclusive categories)
    (accepted : validateLabels added removed = .ok ()) :
    KeepsExclusive account categories added removed ↔ ¬ Conflicting added ∨ Refused added removed := by
  constructor
  · intro keeps
    by_contra neither
    rw [not_or, not_not] at neither
    exact conflict_depends within known accepted neither.2 neither.1 keeps
  · intro either
    by_cases refused : Refused added removed
    · refine ⟨none, nofun, fun adding removing changes first second => ?_⟩
      rw [update_categories ((validateLabels_perm first second).trans accepted), if_pos]
      obtain ⟨category, listed, fixed⟩ := refused
      refine ⟨category, ?_, fixed⟩
      simpa only [List.mem_append, first.mem_iff, second.mem_iff] using listed
    · have calm := either.resolve_right refused
      refine ⟨(applyGmailLabelRules account (changed categories added removed) added).toOption,
        fun result ruled => ?_, fun adding removing changes first second => ?_⟩
      · refine rules_exclusive within known before accepted calm ?_
        cases outcome : applyGmailLabelRules account (changed categories added removed) added with
        | error =>
          rw [outcome] at ruled
          cases ruled
        | ok categories =>
          rw [outcome] at ruled
          cases ruled
          rfl
      · rw [update_categories ((validateLabels_perm first second).trans accepted), if_neg,
          changed_perm first second, rules_perm (within_changed removed within known) accepted calm first]
        rintro ⟨category, listed, fixed⟩
        refine refused ⟨category, ?_, fixed⟩
        simpa only [List.mem_append, first.mem_iff, second.mem_iff] using listed

end Rules

namespace Sample

def allMail : Category := { id := 1, name := "all", displayName := "All Mail" }
def trash : Category := { id := 2, name := "trash", displayName := "Trash" }
def spam : Category := { id := 3, name := "spam", displayName := "Spam" }
def inbox : Category := { id := 4, name := "inbox", displayName := "Inbox" }

def account : Account where
  categories := [allMail, trash, spam, inbox]
  distinct := by decide
  all := ⟨allMail, by decide, rfl⟩
  special := by decide

end Sample

theorem trash_is_exclusive :
    KeepsExclusive Sample.account {Sample.allMail, Sample.inbox} [Sample.trash] [Sample.allMail] :=
  (keeps_exclusive_iff (by decide) (by decide) ⟨Sample.allMail, by decide, by decide, by decide⟩ rfl).mpr
    (.inl (by decide))

/-- A message in Spam gets Inbox and Trash, iterated over in this order: it ends up in Trash and in
All Mail. -/
theorem spam_ends_in_two_folders :
    ¬ KeepsExclusive Sample.account {Sample.spam} [Sample.inbox, Sample.trash] [] := by
  rintro ⟨outcome, exclusive, same⟩
  have first : outcome = some {Sample.trash, Sample.allMail} := by
    rw [← same _ _ false (.refl _) (.refl _)]
    decide +kernel
  obtain ⟨folder, _, _, only⟩ := exclusive _ first
  have trash := only Sample.trash (by decide) (by decide)
  have allMail := only Sample.allMail (by decide) (by decide)
  cases trash.trans allMail.symm

end LabelUpdates
end SyncEngine
