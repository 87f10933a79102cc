import Mathlib.Data.List.AList
import Mathlib.Data.List.Induction
import SyncEngine.Models.Category

/-! The roles of the folders that a server lists, the cache of their names, and the list of folders to sync, which
is the cached list of the inboxes made longer. -/
namespace SyncEngine.FolderRoles
open Naming (RawFolder)

inductive Exc
  | assertionError
deriving DecidableEq

/-- A line of the folder list. -/
structure ListedFolder where
  flags : List String
  name : Unicode

/-- `provider_info.get('folder_map', {})` and `unicode.lower` -/
structure Provider where
  folderMap : Unicode → Option String
  lower : Unicode → Unicode

/-! ## The folders -/

def defaultFolderMap : List (String × String) :=
  [("inbox", "inbox"), ("drafts", "drafts"), ("draft", "drafts"), ("junk", "spam"), ("spam", "spam"),
    ("archive", "archive"), ("sent", "sent"), ("sent items", "sent"), ("trash", "trash")]

def flagMap : List (String × String) :=
  [("\\Trash", "trash"), ("\\Sent", "sent"), ("\\Drafts", "drafts"), ("\\Junk", "spam"), ("\\Inbox", "inbox"),
    ("\\Spam", "spam")]

/-- `localized_folder_names`, without the names that are bytes beyond ASCII, which no `unicode` equals. -/
def localizedFolderNames : List (String × List String) :=
  [("trash", ["Papierkorb", "[Imap]/Trash", "Papelera", "Borradores", "Deleted Items", "Papierkorb/Trash",
      "Deleted Messages", "[Gmail]/Trash", "INBOX/Trash", "Trash", "mail/TRASH", "INBOX.Trash",
      "INBOX.INBOX.Trash"]),
    ("spam", ["Roskaposti", "INBOX.spam", "INBOX.Spam", "Spamverdacht", "spam", "Spam", "[Gmail]/Spam",
      "[Imap]/Spam", "Junk", "Junk Mail", "Junk E-Mail"]),
    ("inbox", ["INBOX"]),
    ("sent", ["Postausgang", "INBOX.Gesendet", "[Gmail]/Sent Mail", "Sent", "Sent Items", "Sent Messages",
      "INBOX.Sent Messages", "mail/sent-mail", "INBOX.SentMail", "Gesendet", "Gesendete Elemente",
      "INBOX.INBOX.Sent"])]

def lookupName (names : List (String × String)) (name : Unicode) : Option String :=
  (names.find? fun entry => entry.1.toList = name).map Prod.snd

/-- `_process_folder` -/
def processFolder (provider : Provider) (displayName : Unicode) (flags : List String) : RawFolder :=
  { displayName
    role := lookupName defaultFolderMap (provider.lower displayName) <|> provider.folderMap displayName <|>
      flags.findSome? fun flag => flagMap.lookup flag }

/-- `_guess_role` -/
def guessRole (folder : Unicode) : Option String :=
  (localizedFolderNames.find? fun entry => entry.2.any fun name => name.toList = folder).map Prod.fst

def systemRoleNames : List String := ["inbox", "sent", "trash", "spam"]

/-- `_get_missing_roles` -/
def getMissingRoles (folders : List RawFolder) (roles : List String) : List String :=
  roles.filter fun role => folders.all fun folder => folder.role ≠ some role

def selectable (listed : ListedFolder) : Bool :=
  listed.flags.all fun flag => flag ∉ ["\\Noselect", "\\NoSelect", "\\NonExistent"]

/-- The folder that is the only one to be guessed for a missing role. -/
def assignGuess (guessedRoles : List (Option String)) (rawFolders : List RawFolder) (role : String) :
    List RawFolder :=
  if guessedRoles.count (some role) = 1 then
    rawFolders.modify (guessedRoles.idxOf (some role)) fun folder => { folder with role := some role }
  else rawFolders

/-- `CrispinClient.folders` -/
def folders (provider : Provider) (server : List ListedFolder) : Except Exc (List RawFolder) :=
  let rawFolders := (server.filter selectable).map fun listed => processFolder provider listed.name listed.flags
  if rawFolders = [] then .error .assertionError
  else .ok ((getMissingRoles rawFolders systemRoleNames).foldl
    (assignGuess (rawFolders.map fun folder => guessRole folder.displayName)) rawFolders)

/-! ## The cache -/

/-- From roles to names of folders. -/
abbrev FolderNames := AList fun _ : Option String => List Unicode

def FolderNames.get (names : FolderNames) (role : Option String) : List Unicode := (names.lookup role).getD []

/-- `self._folder_names[f.role].append(f.display_name)` -/
def appendName (names : FolderNames) (f : RawFolder) : FolderNames :=
  names.insert f.role (names.get f.role ++ [f.displayName])

def inbox : Option String := some "inbox"

/-- What the server answers to `folders`, and the cache of the client. -/
structure Client where
  fetched : Except Exc (List RawFolder)
  folderNames : Option FolderNames

/-- `folder_names`. If `folders` raises, the new dictionary stays empty. -/
def Client.getFolderNames (client : Client) (forceResync : Bool) : Except Exc FolderNames × Client :=
  match client.folderNames, forceResync with
  | some names, false => (.ok names, client)
  | _, _ =>
    match client.fetched with
    | .error e => (.error e, { client with folderNames := some ∅ })
    | .ok rawFolders =>
      let names := rawFolders.foldl appendName ∅
      (.ok names, { client with folderNames := some names })

/-- The names of all roles but one. -/
def FolderNames.others (names : FolderNames) (role : Option String) : List Unicode :=
  (names.entries.filter (·.1 ≠ role)).flatMap Sigma.snd

/-- `sync_folders`. The list that is made longer and returned is the one in the cache. -/
def Client.syncFolders (client : Client) : Except Exc (List Unicode) × Client :=
  match client.getFolderNames false with
  | (.error e, client) => (.error e, client)
  | (.ok haveFolders, client) =>
    match haveFolders.lookup inbox with
    | none => (.error .assertionError, client)
    | some names =>
      let toSync := names ++ haveFolders.others inbox
      (.ok toSync, { client with folderNames := some (haveFolders.insert inbox toSync) })

inductive Call
  | folders
  | folderNames (forceResync : Bool)
  | syncFolders
  /-- Selecting may fail, and then nothing changes. -/
  | selectFolder (selected : Bool)

inductive Answer
  | folders (rawFolders : List RawFolder)
  | folderNames (names : FolderNames)
  | syncFolders (toSync : List Unicode)
  | selectFolder

def Client.call (client : Client) : Call → Except Exc Answer × Client
  | .folders => (client.fetched.map .folders, client)
  | .folderNames forceResync =>
    let (names, client) := client.getFolderNames forceResync
    (names.map .folderNames, client)
  | .syncFolders =>
    let (toSync, client) := client.syncFolders
    (toSync.map .syncFolders, client)
  | .selectFolder selected => (.ok .selectFolder, if selected then { client with folderNames := none } else client)

/-- `should_idle`, for the folder of a sync engine. -/
def shouldIdle (idleSupported : Bool) (names : FolderNames) (folderName : Unicode) : Bool :=
  idleSupported && folderName ∈ names.get inbox

/-! ## The right answers -/

def namesOf (rawFolders : List RawFolder) (role : Option String) : List Unicode :=
  (rawFolders.filter (·.role = role)).map RawFolder.displayName

/-- The folders that have another role. -/
def namesBut (rawFolders : List RawFolder) (role : Option String) : List Unicode :=
  (rawFolders.filter (·.role ≠ role)).map RawFolder.displayName

/-- Each role has its folders, and all folders are to sync once, those of the inbox first. -/
def Right (rawFolders : List RawFolder) : Except Exc Answer → Prop
  | .ok (.folders answer) => answer = rawFolders
  | .ok (.folderNames names) => ∀ role, names.get role = namesOf rawFolders role
  | .ok (.syncFolders toSync) => ∃ rest, toSync = namesOf rawFolders inbox ++ rest ∧
      rest.Perm (namesBut rawFolders inbox)
  | .ok .selectFolder => True
  | .error _ => False

/-- Every call of a sequence is answered right. -/
def Stable (rawFolders : List RawFolder) (client : Client) : List Call → Prop
  | [] => True
  | call :: calls => Right rawFolders (client.call call).1 ∧ Stable rawFolders (client.call call).2 calls

/-! ## When they are given -/

/-- The call looks at the cache. -/
def Call.reads : Call → Bool
  | .folderNames false | .syncFolders => true
  | _ => false

/-- Whether the cached list of the inboxes has been made longer since the cache was filled. -/
def Call.extends (extended : Bool) : Call → Bool
  | .folders | .folderNames false => extended
  | .folderNames true => false
  | .syncFolders => true
  | .selectFolder selected => extended && !selected

/-- No call looks at the cache after `sync_folders`, unless it has been filled again. -/
def Careful (extended : Bool) : List Call → Prop
  | [] => True
  | call :: calls => ¬(extended = true ∧ call.reads = true) ∧ Careful (call.extends extended) calls

section
variable {rawFolders : List RawFolder} {role : Option String}

theorem namesOf_concat (f : RawFolder) : namesOf (rawFolders ++ [f]) role =
    namesOf rawFolders role ++ if f.role = role then [f.displayName] else [] := by
  by_cases same : f.role = role <;> simp [namesOf, same]

theorem namesBut_concat (f : RawFolder) : namesBut (rawFolders ++ [f]) role =
    namesBut rawFolders role ++ if f.role = role then [] else [f.displayName] := by
  by_cases same : f.role = role <;> simp [namesBut, same]

theorem namesBut_eq_nil : namesBut rawFolders role = [] ↔ ∀ f ∈ rawFolders, f.role = role := by
  simp [namesBut]

theorem namesOf_ne_nil (there : ∃ f ∈ rawFolders, f.role = role) : namesOf rawFolders role ≠ [] := by
  simpa [namesOf] using there

theorem mem_namesOf {name : Unicode} :
    name ∈ namesOf rawFolders role ↔ ∃ f ∈ rawFolders, f.role = role ∧ f.displayName = name := by
  simp [namesOf, and_assoc]

end

/-! ## The dictionary of the names -/

section
variable (names : FolderNames) (role : Option String) {other : Option String}

theorem others_insert_self (list : List Unicode) :
    FolderNames.others (names.insert role list) role = names.others role := by
  have kept (entries : List (Sigma fun _ : Option String => List Unicode)) :
      (entries.kerase role).filter (·.1 ≠ role) = entries.filter (·.1 ≠ role) := by
    induction entries with
    | nil => rfl
    | cons entry entries ih =>
      obtain ⟨key, list⟩ := entry
      by_cases same : role = key
      · subst same
        have erased : List.kerase role (⟨role, list⟩ :: entries) = entries := List.kerase_cons_eq rfl
        rw [erased, List.filter_cons_of_neg (by simp)]
      · rw [List.kerase_cons_ne same, List.filter_cons, List.filter_cons, ih]
  rw [FolderNames.others, AList.entries_insert, List.filter_cons_of_neg (by simp), kept, FolderNames.others]

theorem others_insert (ne : role ≠ other) (list : List Unicode) :
    FolderNames.others (names.insert role list) other =
      list ++ FolderNames.others (names.erase role) other := by
  have kept : (names.erase role).entries = names.entries.kerase role := rfl
  rw [FolderNames.others, FolderNames.others, AList.entries_insert, kept,
    List.filter_cons_of_pos (by simpa using ne)]
  rfl

/-- The names of one role, and those of the rest. -/
theorem others_perm (ne : role ≠ other) :
    (names.others other).Perm (names.get role ++ FolderNames.others (names.erase role) other) := by
  have split (entries : List (Sigma fun _ : Option String => List Unicode)) :
      ((entries.filter (·.1 ≠ other)).flatMap Sigma.snd).Perm ((entries.dlookup role).getD [] ++
        ((entries.kerase role).filter (·.1 ≠ other)).flatMap Sigma.snd) := by
    induction entries with
    | nil => rfl
    | cons entry entries ih =>
      obtain ⟨key, list⟩ := entry
      by_cases same : role = key
      · subst same
        have erased : List.kerase role (⟨role, list⟩ :: entries) = entries := List.kerase_cons_eq rfl
        have found : List.dlookup role (⟨role, list⟩ :: entries) = some list := List.dlookup_cons_eq ..
        rw [erased, found, List.filter_cons_of_pos (by simpa using ne)]
        rfl
      · have found : List.dlookup role (⟨key, list⟩ :: entries) = entries.dlookup role :=
          List.dlookup_cons_ne entries ⟨key, list⟩ same
        rw [List.kerase_cons_ne same, found, List.filter_cons, List.filter_cons]
        by_cases left : key = other
        · simpa [left] using ih
        · simpa [left] using (ih.append_left list).trans (List.perm_append_comm_assoc ..)
  exact split names.entries

end

/-! ## What fills it -/

section
variable (rawFolders : List RawFolder) (role : Option String)

/-- Only the roles of folders are keys. -/
theorem lookup_filled : (rawFolders.foldl appendName ∅).lookup role =
    if namesOf rawFolders role = [] then none else some (namesOf rawFolders role) := by
  induction rawFolders using List.reverseRecOn with
  | nil => rfl
  | append_singleton rawFolders f ih =>
    rw [List.foldl_append, List.foldl_cons, List.foldl_nil, appendName, namesOf_concat]
    by_cases same : f.role = role
    · subst same
      rw [AList.lookup_insert, FolderNames.get, ih]
      by_cases first : namesOf rawFolders f.role = [] <;> simp [first]
    · rw [AList.lookup_insert_ne (Ne.symm same), ih]
      simp [same]

theorem get_filled : FolderNames.get (rawFolders.foldl appendName ∅) role = namesOf rawFolders role := by
  rw [FolderNames.get, lookup_filled]
  split
  · rename_i empty
    exact empty.symm
  · rfl

theorem others_filled :
    (FolderNames.others (rawFolders.foldl appendName ∅) role).Perm (namesBut rawFolders role) := by
  induction rawFolders using List.reverseRecOn with
  | nil => rfl
  | append_singleton rawFolders f ih =>
    rw [List.foldl_append, List.foldl_cons, List.foldl_nil, appendName, namesBut_concat]
    by_cases same : f.role = role
    · subst same
      rw [others_insert_self]
      simpa using ih
    · rw [others_insert _ _ same, if_neg same, List.append_assoc]
      refine (List.perm_append_comm.append_left _).trans ?_
      rw [← List.append_assoc]
      exact ((others_perm _ _ same).symm.trans ih).append_right _

end

/-! ## The calls -/

/-- What the cache holds of the folders. Once the list of the inboxes is made longer, the other folders are in
it too. -/
structure Holds (rawFolders : List RawFolder) (extended : Bool) (client : Client) : Prop where
  fetched : client.fetched = .ok rawFolders
  empty : client.folderNames = none → extended = false
  inboxes : ∀ names, client.folderNames = some names → ∃ extra,
    names.lookup inbox = some (namesOf rawFolders inbox ++ extra) ∧
      extra.Perm (if extended then namesBut rawFolders inbox else [])
  roles : ∀ names, client.folderNames = some names → ∀ role ≠ inbox, names.get role = namesOf rawFolders role
  others : ∀ names, client.folderNames = some names → (names.others inbox).Perm (namesBut rawFolders inbox)

section
variable {rawFolders : List RawFolder} {extended : Bool} {client : Client} {calls : List Call}

theorem holds_filled (fetched : client.fetched = .ok rawFolders) (inboxes : ∃ f ∈ rawFolders, f.role = inbox) :
    Holds rawFolders false { client with folderNames := some (rawFolders.foldl appendName ∅) } where
  fetched := fetched
  empty := nofun
  inboxes := by
    rintro _ ⟨⟩
    refine ⟨[], ?_, .refl _⟩
    rw [lookup_filled, if_neg (namesOf_ne_nil inboxes), List.append_nil]
  roles := by
    rintro _ ⟨⟩ role -
    exact get_filled rawFolders role
  others := by
    rintro _ ⟨⟩
    exact others_filled rawFolders inbox

/-- Without `force_resync`, the names are those of the cache, or the cache is filled. -/
theorem getFolderNames_false (holds : Holds rawFolders extended client)
    (inboxes : ∃ f ∈ rawFolders, f.role = inbox) :
    ∃ names, client.getFolderNames false = (.ok names, { client with folderNames := some names }) ∧
      Holds rawFolders extended { client with folderNames := some names } := by
  obtain ⟨fetched, folderNames⟩ := client
  cases folderNames with
  | some names => exact ⟨names, rfl, holds⟩
  | none =>
    obtain rfl := holds.empty rfl
    obtain rfl := holds.fetched
    exact ⟨_, rfl, holds_filled rfl inboxes⟩

theorem getFolderNames_true (holds : Holds rawFolders extended client) :
    client.getFolderNames true = (.ok (rawFolders.foldl appendName ∅),
      { client with folderNames := some (rawFolders.foldl appendName ∅) }) := by
  obtain ⟨fetched, folderNames⟩ := client
  obtain rfl := holds.fetched
  cases folderNames <;> rfl

/-- The folders to sync are those of the cached list of the inboxes, and the others. -/
theorem syncFolders_eq (holds : Holds rawFolders extended client) (inboxes : ∃ f ∈ rawFolders, f.role = inbox) :
    ∃ names extra rest, extra.Perm (if extended then namesBut rawFolders inbox else []) ∧
      rest.Perm (namesBut rawFolders inbox) ∧
      client.syncFolders = (.ok (namesOf rawFolders inbox ++ extra ++ rest),
        { client with folderNames := some (names.insert inbox (namesOf rawFolders inbox ++ extra ++ rest)) }) ∧
      Holds rawFolders extended { client with folderNames := some names } := by
  obtain ⟨names, answered, kept⟩ := getFolderNames_false holds inboxes
  obtain ⟨extra, found, perm⟩ := kept.inboxes names rfl
  refine ⟨names, extra, names.others inbox, perm, kept.others names rfl, ?_, kept⟩
  rw [Client.syncFolders, answered]
  simp only [found]

/-- `sync_folders` leaves the list that it returns in the cache. -/
theorem holds_extended {names : FolderNames} {extra rest : List Unicode}
    (holds : Holds rawFolders extended { client with folderNames := some names })
    (added : (extra ++ rest).Perm (namesBut rawFolders inbox)) :
    Holds rawFolders true
      { client with folderNames := some (names.insert inbox (namesOf rawFolders inbox ++ extra ++ rest)) } where
  fetched := holds.fetched
  empty := nofun
  inboxes := by
    rintro _ ⟨⟩
    exact ⟨extra ++ rest, by rw [AList.lookup_insert, List.append_assoc], added⟩
  roles := by
    rintro _ ⟨⟩ role ne
    rw [FolderNames.get, AList.lookup_insert_ne ne]
    exact holds.roles names rfl role ne
  others := by
    rintro _ ⟨⟩
    rw [others_insert_self]
    exact holds.others names rfl

/-- What the list of the inboxes has too much, where the call does not look at a list that was made longer. -/
theorem extra_eq_nil {extra : List Unicode}
    (perm : extra.Perm (if extended then namesBut rawFolders inbox else []))
    (careful : extended = false ∨ ∀ f ∈ rawFolders, f.role = inbox) : extra = [] := by
  rcases careful with rfl | only
  · exact perm.eq_nil
  · rw [namesBut_eq_nil.mpr only, ite_self] at perm
    exact perm.eq_nil

theorem names_right {names : FolderNames}
    (holds : Holds rawFolders extended { client with folderNames := some names })
    (careful : extended = false ∨ ∀ f ∈ rawFolders, f.role = inbox) :
    Right rawFolders (.ok (.folderNames names)) := by
  intro role
  by_cases same : role = inbox
  · subst same
    obtain ⟨extra, found, perm⟩ := holds.inboxes names rfl
    rw [FolderNames.get, found, extra_eq_nil perm careful, List.append_nil, Option.getD_some]
  · exact holds.roles names rfl role same

/-- One call that does not look at a list that was made longer. -/
theorem call_right (call : Call) (holds : Holds rawFolders extended client)
    (inboxes : ∃ f ∈ rawFolders, f.role = inbox)
    (careful : (∀ f ∈ rawFolders, f.role = inbox) ∨ ¬(extended = true ∧ call.reads = true)) :
    Right rawFolders (client.call call).1 ∧ Holds rawFolders (call.extends extended) (client.call call).2 := by
  cases call with
  | folders =>
    refine ⟨?_, holds⟩
    rw [Client.call, holds.fetched]
    rfl
  | folderNames forceResync =>
    cases forceResync with
    | true =>
      rw [Client.call, getFolderNames_true holds]
      exact ⟨get_filled rawFolders, holds_filled holds.fetched inboxes⟩
    | false =>
      obtain ⟨names, answered, kept⟩ := getFolderNames_false holds inboxes
      rw [Client.call, answered]
      refine ⟨names_right kept ?_, kept⟩
      simpa [Call.reads, or_comm] using careful
  | syncFolders =>
    obtain ⟨names, extra, rest, perm, others, answered, kept⟩ := syncFolders_eq holds inboxes
    have nothing : extra = [] := extra_eq_nil perm (by simpa [Call.reads, or_comm] using careful)
    subst nothing
    rw [Client.call, answered]
    refine ⟨⟨rest, by rw [List.append_nil], others⟩, holds_extended kept (by simpa using others)⟩
  | selectFolder selected =>
    cases selected with
    | false => simpa [Client.call, Call.extends, Right] using holds
    | true =>
      refine ⟨trivial, holds.fetched, ?_, nofun, nofun, nofun⟩
      simp [Call.extends]

/-- One call that does. -/
theorem call_wrong {call : Call} (reads : call.reads = true) (holds : Holds rawFolders true client)
    (inboxes : ∃ f ∈ rawFolders, f.role = inbox) (other : ¬∀ f ∈ rawFolders, f.role = inbox) :
    ¬Right rawFolders (client.call call).1 := by
  have more : 0 < (namesBut rawFolders inbox).length :=
    List.length_pos_iff.mpr (mt namesBut_eq_nil.mp other)
  cases call with
  | folders | selectFolder selected => cases reads
  | folderNames forceResync =>
    cases forceResync with
    | true => cases reads
    | false =>
      obtain ⟨names, answered, kept⟩ := getFolderNames_false holds inboxes
      obtain ⟨extra, found, perm⟩ := kept.inboxes names rfl
      rw [Client.call, answered]
      intro right
      have same : namesOf rawFolders inbox ++ extra = namesOf rawFolders inbox := by
        simpa [FolderNames.get, found] using right inbox
      have lengths := congrArg List.length same
      rw [List.length_append, perm.length_eq, if_pos rfl] at lengths
      omega
  | syncFolders =>
    obtain ⟨names, extra, rest, perm, others, answered, kept⟩ := syncFolders_eq holds inboxes
    rw [Client.call, answered]
    rintro ⟨once, same, permOnce⟩
    have lengths := congrArg List.length same
    rw [List.length_append, List.length_append, List.length_append, perm.length_eq, if_pos rfl,
      others.length_eq, permOnce.length_eq] at lengths
    omega

/-- The calls are answered right just where none looks at a list that was made longer. -/
theorem stable_iff_careful (holds : Holds rawFolders extended client)
    (inboxes : ∃ f ∈ rawFolders, f.role = inbox) :
    Stable rawFolders client calls ↔ (∀ f ∈ rawFolders, f.role = inbox) ∨ Careful extended calls := by
  induction calls generalizing extended client with
  | nil => exact iff_of_true trivial (.inr trivial)
  | cons call calls ih =>
    by_cases looks : (∀ f ∈ rawFolders, f.role = inbox) ∨ ¬(extended = true ∧ call.reads = true)
    · obtain ⟨right, later⟩ := call_right call holds inboxes looks
      rw [Stable, Careful, ih later]
      tauto
    · obtain ⟨other, rfl, reads⟩ : (¬∀ f ∈ rawFolders, f.role = inbox) ∧ extended = true ∧
          call.reads = true := by tauto
      refine iff_of_false (fun stable => call_wrong reads holds inboxes other stable.1) ?_
      rintro (only | careful)
      · exact other only
      · exact careful.1 ⟨rfl, reads⟩

/-- Without an inbox, the names are as they were filled, and `sync_folders` raises. -/
theorem stable_iff_of_no_inbox (missing : ¬∃ f ∈ rawFolders, f.role = inbox)
    (fetched : client.fetched = .ok rawFolders)
    (filled : ∀ names, client.folderNames = some names → names = rawFolders.foldl appendName ∅) :
    Stable rawFolders client calls ↔ .syncFolders ∉ calls := by
  induction calls generalizing client with
  | nil => exact iff_of_true trivial List.not_mem_nil
  | cons call calls ih =>
    obtain ⟨_, folderNames⟩ := client
    obtain rfl : _ = Except.ok rawFolders := fetched
    have names (forceResync : Bool) : Client.getFolderNames ⟨.ok rawFolders, folderNames⟩ forceResync =
        (.ok (rawFolders.foldl appendName ∅), ⟨.ok rawFolders, some (rawFolders.foldl appendName ∅)⟩) := by
      cases folderNames with
      | none => rfl
      | some names =>
        obtain rfl := filled names rfl
        cases forceResync <;> rfl
    cases call with
    | folders => simpa [Stable, Client.call, Except.map, Right] using ih rfl filled
    | folderNames forceResync =>
      rw [Stable, Client.call, names, ih rfl (by simp)]
      simpa [Except.map, Right] using fun _ => get_filled rawFolders
    | selectFolder selected =>
      cases selected with
      | false => simpa [Stable, Client.call, Right] using ih rfl filled
      | true => simpa [Stable, Client.call, Right] using @ih ⟨.ok rawFolders, none⟩ rfl (by simp)
    | syncFolders =>
      have found := lookup_filled rawFolders inbox
      rw [if_pos (by simpa [namesOf] using missing)] at found
      refine iff_of_false ?_ (by simp)
      rintro ⟨right, -⟩
      rw [Client.call, Client.syncFolders, names] at right
      simp only [found] at right
      exact right

theorem careful_of_not_mem (never : .syncFolders ∉ calls) : Careful false calls := by
  induction calls with
  | nil => trivial
  | cons call calls ih =>
    obtain ⟨other, later⟩ := not_or.mp (mt List.mem_cons.mpr never)
    have kept : call.extends false = false := by
      cases call with
      | folders => rfl
      | folderNames forceResync => cases forceResync <;> rfl
      | syncFolders => exact absurd rfl other
      | selectFolder selected => rfl
    rw [Careful, kept]
    exact ⟨by simp, ih later⟩

end

/-- A new client, whose server always lists the same folders, answers each call right just where there is an
inbox for `sync_folders`, and all folders are inboxes or no call looks at the cached names after `sync_folders`,
unless a folder was selected or the names were fetched in between. -/
theorem folder_roles_stable_iff {provider : Provider} {server : List ListedFolder} {rawFolders : List RawFolder}
    {calls : List Call} (listed : folders provider server = .ok rawFolders) :
    Stable rawFolders ⟨folders provider server, none⟩ calls ↔
      ((∃ f ∈ rawFolders, f.role = inbox) ∨ .syncFolders ∉ calls) ∧
        ((∀ f ∈ rawFolders, f.role = inbox) ∨ Careful false calls) := by
  by_cases inboxes : ∃ f ∈ rawFolders, f.role = inbox
  · rw [and_iff_right (.inl inboxes)]
    exact stable_iff_careful ⟨listed, fun _ => rfl, nofun, nofun, nofun⟩ inboxes
  · rw [stable_iff_of_no_inbox inboxes listed (by simp)]
    constructor
    · exact fun never => ⟨.inr never, .inr (careful_of_not_mem never)⟩
    · exact fun holds => holds.1.resolve_left inboxes

def ascii : Provider := ⟨fun _ => none, fun name => name.map Char.toLower⟩

def inboxAndWork : List ListedFolder := [⟨[], "INBOX".toList⟩, ⟨[], "Work".toList⟩]

def inboxAndWorkRoles : List RawFolder := [⟨"INBOX".toList, inbox⟩, ⟨"Work".toList, none⟩]

/-- A folder is selected before the names are looked at again. -/
theorem work_stays_work : Stable inboxAndWorkRoles ⟨folders ascii inboxAndWork, none⟩
    [.folders, .syncFolders, .selectFolder true, .folderNames false, .syncFolders] :=
  (folder_roles_stable_iff (by decide)).mpr
    ⟨.inl ⟨⟨"INBOX".toList, inbox⟩, by decide, rfl⟩, .inr (by simp [Careful, Call.reads, Call.extends])⟩

/-- From the right names, a sync engine idles only on inboxes. -/
theorem shouldIdle_right {rawFolders : List RawFolder} {names : FolderNames} {folderName : Unicode}
    (right : Right rawFolders (.ok (.folderNames names))) (idles : shouldIdle true names folderName = true) :
    ∃ f ∈ rawFolders, f.role = inbox ∧ f.displayName = folderName := by
  rw [shouldIdle, Bool.true_and, decide_eq_true_iff, right inbox] at idles
  exact mem_namesOf.mp idles

/-- Listing the folders to sync makes each of them an inbox, on which its sync engine idles. -/
theorem work_becomes_inbox : folders ascii inboxAndWork = .ok inboxAndWorkRoles ∧
    ¬Stable inboxAndWorkRoles ⟨folders ascii inboxAndWork, none⟩ [.syncFolders, .folderNames false] ∧
    ∃ names, ((Client.call ⟨folders ascii inboxAndWork, none⟩ .syncFolders).2.call (.folderNames false)).1 =
      .ok (.folderNames names) ∧ shouldIdle true names "Work".toList = true := by
  refine ⟨by decide, ?_, _, rfl, by decide⟩
  rintro ⟨-, right, -⟩
  have same := right inbox
  revert same
  decide

end SyncEngine.FolderRoles
