import Mathlib.Data.List.Infix
import Mathlib.Data.Option.Basic

/-! Paths of folders between the API, which writes them with slashes, and an IMAP server with its own
separator and its own prefix for all folders. -/
namespace SyncEngine.FolderPaths

/-- A separator is one character. -/
def join (separator : Char) (folders : List (List Char)) : List Char := [separator].intercalate folders

/-- `imap_folder_path` -/
def imapFolderPath (path : List Char) (separator : Char) (folderPrefix : List Char) : Option (List Char) :=
  let folders := (path.splitOn '/').filter (· ≠ [])
  if folders = [] then none
  else
    let res := join separator folders
    if folderPrefix ≠ [] ∧ ¬ folderPrefix <+: res then
      if folderPrefix.getLast? ≠ some separator then some (folderPrefix ++ separator :: res)
      else some (folderPrefix ++ res)
    else some res

def stripPrefix (path leading : List Char) : List Char :=
  if leading <+: path then path.drop leading.length else path

/-- `fs_folder_path` -/
def fsFolderPath (path : List Char) (separator : Char) (folderPrefix : List Char) : List Char :=
  let path := if folderPrefix ≠ [] then stripPrefix path folderPrefix else path
  let folders := path.splitOn separator
  let folders := if folders.head? = some [] then folders.tail else folders
  join '/' folders

/-- The components of a path. None has a separator of either kind. -/
structure Path (separator : Char) where
  components : List (List Char)
  some_component : components ≠ []
  nonempty : [] ∉ components
  no_separator : ∀ c ∈ components, separator ∉ c
  no_slash : ∀ c ∈ components, '/' ∉ c

namespace Path
variable {separator : Char} (p : Path separator)

/-- As the API reads it. -/
def text (leadingSlash : Bool) : List Char :=
  if leadingSlash then '/' :: join '/' p.components else join '/' p.components

/-- Without its leading slash. -/
def bare : List Char := join '/' p.components

def joined : List Char := join separator p.components

end Path

/-- There is no prefix, or what is joined does not start with it. -/
def Unprefixed (folderPrefix joined : List Char) : Prop := folderPrefix = [] ∨ ¬ folderPrefix <+: joined

/-- The prefix without its trailing separator. -/
def trimmed (separator : Char) (folderPrefix : List Char) : List Char :=
  if folderPrefix.getLast? = some separator then folderPrefix.dropLast else folderPrefix

/-- A slash is in the prefix only as the separator, and then between components that are not empty. -/
def Steady (separator : Char) (folderPrefix : List Char) : Prop :=
  '/' ∉ folderPrefix ∨ separator = '/' ∧ [] ∉ (trimmed separator folderPrefix).splitOn '/'

/-! ## Splitting and joining -/

section Join
variable {separator : Char} {folders : List (List Char)}

theorem splitOn_join (some_folder : folders ≠ []) (free : ∀ f ∈ folders, separator ∉ f) :
    (join separator folders).splitOn separator = folders := List.splitOn_intercalate separator free some_folder

theorem join_nil_cons (some_folder : folders ≠ []) :
    join separator ([] :: folders) = separator :: join separator folders := by
  cases folders with
  | nil => exact absurd rfl some_folder
  | cons first rest => simp [join, List.intercalate_cons_cons]

theorem join_append {more : List (List Char)} (some_folder : folders ≠ []) (some_more : more ≠ []) :
    join separator (folders ++ more) = join separator folders ++ separator :: join separator more := by
  induction folders with
  | nil => exact absurd rfl some_folder
  | cons first rest ih =>
    cases rest with
    | nil => cases more with
      | nil => exact absurd rfl some_more
      | cons => simp [join, List.intercalate_cons_cons]
    | cons second rest =>
      have later := ih (List.cons_ne_nil _ _)
      unfold join at later ⊢
      rw [List.cons_append, List.cons_append, List.intercalate_cons_cons, List.intercalate_cons_cons,
        ← List.cons_append, later]
      simp only [List.append_assoc]

theorem mem_join {c : Char} (member : c ∈ join separator folders) : c = separator ∨ ∃ f ∈ folders, c ∈ f := by
  induction folders with
  | nil => cases member
  | cons first rest ih =>
    cases rest with
    | nil => exact .inr ⟨first, List.mem_cons_self, by simpa [join] using member⟩
    | cons second rest =>
      rw [join, List.intercalate_cons_cons, List.append_assoc, ← join, List.mem_append] at member
      rcases member with here | here | ⟨_, later⟩
      · exact .inr ⟨first, List.mem_cons_self, here⟩
      · exact .inl rfl
      · exact (ih later).imp_right fun ⟨f, among, inside⟩ => ⟨f, .tail _ among, inside⟩

end Join

/-! ## One path -/

section Path
variable {separator : Char} {folderPrefix : List Char} (p : Path separator)

/-- The name of a path on the server. -/
def fullName (separator : Char) (folderPrefix joined : List Char) : List Char :=
  if folderPrefix <+: joined then joined else trimmed separator folderPrefix ++ separator :: joined

theorem trimmed_append (ends : folderPrefix.getLast? = some separator) :
    trimmed separator folderPrefix ++ [separator] = folderPrefix := by
  rw [trimmed, if_pos ends]
  exact List.dropLast_append_getLast? separator ends

/-- What the code makes of components that are joined already. -/
theorem imapFolderPath_eq {path : List Char} (some_folder : (path.splitOn '/').filter (· ≠ []) ≠ []) :
    imapFolderPath path separator folderPrefix =
      some (fullName separator folderPrefix (join separator ((path.splitOn '/').filter (· ≠ [])))) := by
  rw [imapFolderPath, if_neg some_folder]
  generalize join separator ((path.splitOn '/').filter (· ≠ [])) = res
  dsimp only
  by_cases starts : folderPrefix <+: res
  · rw [if_neg fun unprefixed => unprefixed.2 starts, fullName, if_pos starts]
  · have has_folderPrefix : folderPrefix ≠ [] := fun empty => starts (empty ▸ List.nil_prefix)
    rw [if_pos ⟨has_folderPrefix, starts⟩, fullName, if_neg starts]
    by_cases ends : folderPrefix.getLast? = some separator
    · have whole : trimmed separator folderPrefix ++ separator :: res = folderPrefix ++ res := by
        rw [← List.singleton_append, ← List.append_assoc, trimmed_append ends]
      rw [if_neg (not_not.mpr ends), whole]
    · rw [if_pos ends, trimmed, if_neg ends]

theorem folders_text (leadingSlash : Bool) :
    ((p.text leadingSlash).splitOn '/').filter (· ≠ []) = p.components := by
  have all : p.components.filter (· ≠ []) = p.components :=
    List.filter_eq_self.mpr fun c member => decide_eq_true fun empty => p.nonempty (empty ▸ member)
  cases leadingSlash with
  | false =>
    change ((join '/' p.components).splitOn '/').filter _ = _
    rw [splitOn_join p.some_component p.no_slash, all]
  | true =>
    change (('/' :: join '/' p.components).splitOn '/').filter _ = _
    rw [← join_nil_cons p.some_component, splitOn_join (List.cons_ne_nil _ _), List.filter_cons_of_neg, all]
    · simp
    · exact fun c member => (List.mem_cons.mp member).elim (· ▸ List.not_mem_nil) (p.no_slash c)

theorem imapFolderPath_text (leadingSlash : Bool) :
    imapFolderPath (p.text leadingSlash) separator folderPrefix =
      some (fullName separator folderPrefix p.joined) := by
  have some_folder := p.some_component
  rw [← folders_text p leadingSlash] at some_folder
  rw [imapFolderPath_eq some_folder, folders_text]
  rfl

/-- What `fs_folder_path` does once the prefix is off. -/
theorem fsFolderPath_joined : fsFolderPath p.joined separator [] = p.bare := by
  have first : p.components.head? ≠ some [] := fun empty => p.nonempty (List.mem_of_head? empty)
  simp only [fsFolderPath, Path.joined, splitOn_join p.some_component p.no_separator, if_neg first, ne_eq,
    not_true_eq_false, ↓reduceIte]
  rfl

theorem fsFolderPath_separator : fsFolderPath (separator :: p.joined) separator [] = p.bare := by
  have free : ∀ c ∈ [] :: p.components, separator ∉ c := fun c member =>
    (List.mem_cons.mp member).elim (· ▸ List.not_mem_nil) (p.no_separator c)
  have split : (separator :: p.joined).splitOn separator = [] :: p.components := by
    rw [Path.joined, ← join_nil_cons p.some_component, splitOn_join (List.cons_ne_nil _ _) free]
  simp only [fsFolderPath, split, ne_eq, not_true_eq_false, ↓reduceIte, List.head?_cons, List.tail_cons]
  rfl

/-- A prefix is taken off as it is, with or without its separator. -/
theorem fsFolderPath_append (path : List Char) :
    fsFolderPath (folderPrefix ++ path) separator folderPrefix = fsFolderPath path separator [] := by
  have stripped : stripPrefix (folderPrefix ++ path) folderPrefix = path := by
    rw [stripPrefix, if_pos (List.prefix_append ..), List.drop_left]
  by_cases empty : folderPrefix = []
  · subst empty
    rfl
  · simp only [fsFolderPath, if_pos empty, stripped, ne_eq, not_true_eq_false, ↓reduceIte]

/-- The prefix with its separator in front of a path, whichever of the two has the separator. -/
theorem fsFolderPath_trimmed :
    fsFolderPath (trimmed separator folderPrefix ++ separator :: p.joined) separator folderPrefix = p.bare := by
  by_cases ends : folderPrefix.getLast? = some separator
  · rw [← List.singleton_append, ← List.append_assoc, trimmed_append ends, fsFolderPath_append,
      fsFolderPath_joined]
  · rw [trimmed, if_neg ends, fsFolderPath_append, fsFolderPath_separator]

theorem round_trip (unprefixed : Unprefixed folderPrefix p.joined) :
    fsFolderPath (fullName separator folderPrefix p.joined) separator folderPrefix = p.bare := by
  rcases unprefixed with rfl | other
  · rw [fullName, if_pos List.nil_prefix, fsFolderPath_joined]
  · rw [fullName, if_neg other, fsFolderPath_trimmed]

theorem prefix_fullName (joined : List Char) : folderPrefix <+: fullName separator folderPrefix joined := by
  unfold fullName
  split
  next starts => exact starts
  next =>
    by_cases ends : folderPrefix.getLast? = some separator
    · rw [← List.singleton_append, ← List.append_assoc, trimmed_append ends]
      exact List.prefix_append ..
    · rw [trimmed, if_neg ends]
      exact List.prefix_append ..

/-- A name that splits and joins to itself stays as it is. -/
theorem imapFolderPath_fullName {name : List Char} (starts : folderPrefix <+: name)
    (pieces : (name.splitOn '/').filter (· ≠ []) ≠ [])
    (same : join separator ((name.splitOn '/').filter (· ≠ [])) = name) :
    imapFolderPath name separator folderPrefix = some name := by
  rw [imapFolderPath_eq pieces, same, fullName, if_pos starts]

theorem slash_not_mem_joined (other : separator ≠ '/') : '/' ∉ p.joined := fun member =>
  (mem_join member).elim (fun same => other same.symm) fun ⟨c, among, inside⟩ => p.no_slash c among inside

theorem joined_ne_nil : p.joined ≠ [] := by
  intro empty
  have split : p.components = [[]] := by
    rw [← splitOn_join p.some_component p.no_separator, ← Path.joined, empty]
    rfl
  exact p.nonempty (split ▸ List.mem_singleton_self _)

theorem fullName_ne_nil : fullName separator folderPrefix p.joined ≠ [] := by
  unfold fullName
  split
  · exact joined_ne_nil p
  · exact List.append_ne_nil_of_right_ne_nil _ (List.cons_ne_nil _ _)

/-- A separator that is a slash leaves no empty piece. -/
theorem nil_not_mem_fullName {p : Path '/'} (steady : Steady '/' folderPrefix) :
    [] ∉ (fullName '/' folderPrefix p.joined).splitOn '/' := by
  unfold fullName
  split
  next => rw [Path.joined, splitOn_join p.some_component p.no_separator]; exact p.nonempty
  next unprefixed =>
    rw [List.splitOn_append_cons_self, Path.joined, splitOn_join p.some_component p.no_separator,
      List.mem_append, not_or]
    refine ⟨?_, p.nonempty⟩
    rcases steady with free | ⟨_, pieces⟩
    · have last : folderPrefix.getLast? ≠ some '/' := fun ends => free (List.mem_of_getLast? ends)
      rw [trimmed, if_neg last, List.splitOn_eq_singleton free, List.mem_singleton]
      exact fun empty => unprefixed (empty ▸ List.nil_prefix)
    · exact pieces

/-- With another separator the name has no slash. -/
theorem slash_not_mem_fullName (slash : separator ≠ '/') (free : '/' ∉ folderPrefix) :
    '/' ∉ fullName separator folderPrefix p.joined := by
  have free' : '/' ∉ trimmed separator folderPrefix := by
    unfold trimmed
    split
    · exact fun member => free (List.mem_of_mem_dropLast member)
    · exact free
  unfold fullName
  split
  · exact slash_not_mem_joined p slash
  · rw [List.mem_append, List.mem_cons, not_or, not_or]
    exact ⟨free', Ne.symm slash, slash_not_mem_joined p slash⟩

/-- The name of a path as pieces between slashes. -/
theorem pieces_fullName (steady : Steady separator folderPrefix) :
    join separator (((fullName separator folderPrefix p.joined).splitOn '/').filter (· ≠ [])) =
      fullName separator folderPrefix p.joined ∧
    ((fullName separator folderPrefix p.joined).splitOn '/').filter (· ≠ []) ≠ [] := by
  by_cases slash : separator = '/'
  · subst slash
    have all : ((fullName '/' folderPrefix p.joined).splitOn '/').filter (· ≠ []) =
        (fullName '/' folderPrefix p.joined).splitOn '/' :=
      List.filter_eq_self.mpr fun c member =>
        decide_eq_true fun empty => nil_not_mem_fullName steady (empty ▸ member)
    rw [all]
    exact ⟨List.intercalate_splitOn '/', List.splitOn_ne_nil _ _⟩
  · have free : '/' ∉ folderPrefix := steady.elim id fun both => absurd both.1 slash
    rw [List.splitOn_eq_singleton (slash_not_mem_fullName p slash free), List.filter_singleton,
      decide_eq_true (fullName_ne_nil p)]
    exact ⟨List.intercalate_singleton, List.cons_ne_nil _ _⟩

theorem again (steady : Steady separator folderPrefix) :
    imapFolderPath (fullName separator folderPrefix p.joined) separator folderPrefix =
      some (fullName separator folderPrefix p.joined) := by
  obtain ⟨same, pieces⟩ := pieces_fullName p steady
  exact imapFolderPath_fullName (prefix_fullName _) pieces same

theorem joined_injective {p q : Path separator} (same : p.joined = q.joined) : p.components = q.components := by
  rw [← splitOn_join p.some_component p.no_separator, ← splitOn_join q.some_component q.no_separator]
  exact congrArg _ same

end Path

/-! ## Paths that have the prefix already -/

section Prefixed
variable {separator : Char} {folderPrefix : List Char} {leading : List (List Char)} {p q : Path separator}

/-- The path is another one behind the components of the prefix. -/
structure Behind (folderPrefix : List Char) (leading : List (List Char)) (p q : Path separator) : Prop where
  some_leading : leading ≠ []
  spells : folderPrefix = join separator leading ∨ folderPrefix = join separator leading ++ [separator]
  components : p.components = leading ++ q.components

namespace Behind
variable (behind : Behind folderPrefix leading p q)
include behind

theorem joined : p.joined = join separator leading ++ separator :: q.joined := by
  rw [Path.joined, behind.components, join_append behind.some_leading q.some_component, ← Path.joined]

theorem splitOn_leading : (join separator leading).splitOn separator = leading :=
  splitOn_join behind.some_leading fun c member =>
    p.no_separator c (behind.components ▸ List.mem_append_left _ member)

theorem nil_not_mem : [] ∉ leading := fun member =>
  p.nonempty (behind.components ▸ List.mem_append_left _ member)

theorem no_trailing : (join separator leading).getLast? ≠ some separator := by
  intro ends
  have split := behind.splitOn_leading
  rw [← List.dropLast_append_getLast? separator ends, List.splitOn_append_cons_self] at split
  exact behind.nil_not_mem (split ▸ List.mem_append_right _ (List.mem_singleton_self _))

theorem has_folderPrefix : folderPrefix ≠ [] := by
  rcases behind.spells with spells | spells
  · intro empty
    have split := behind.splitOn_leading
    rw [← spells, empty] at split
    exact behind.nil_not_mem (split ▸ List.mem_singleton_self _)
  · exact spells ▸ List.append_ne_nil_of_right_ne_nil _ (List.cons_ne_nil _ _)

theorem trimmed_eq : trimmed separator folderPrefix = join separator leading := by
  rcases behind.spells with spells | spells
  · rw [spells, trimmed, if_neg behind.no_trailing]
  · rw [spells, trimmed, if_pos List.getLast?_concat, List.dropLast_concat]

/-- It is a name on the server as it is. -/
theorem fullName_eq : fullName separator folderPrefix p.joined = p.joined := by
  refine if_pos ?_
  rw [behind.joined]
  rcases behind.spells with spells | spells
  · exact spells ▸ List.prefix_append ..
  · rw [spells, ← List.singleton_append (l := q.joined), ← List.append_assoc]
    exact List.prefix_append ..

theorem fsFolderPath_eq :
    fsFolderPath (fullName separator folderPrefix p.joined) separator folderPrefix = q.bare := by
  rw [behind.fullName_eq, behind.joined, ← behind.trimmed_eq, fsFolderPath_trimmed]

theorem same_name (unprefixed : ¬ folderPrefix <+: q.joined) :
    fullName separator folderPrefix q.joined = fullName separator folderPrefix p.joined := by
  rw [behind.fullName_eq, behind.joined, fullName, if_neg unprefixed, behind.trimmed_eq]

end Behind

end Prefixed

/-- How the paths of the API and the names on a server correspond. -/
structure Corresponds (separator : Char) (folderPrefix : List Char) : Prop where
  round_trip : ∀ (p : Path separator) leadingSlash, Unprefixed folderPrefix p.joined →
    (imapFolderPath (p.text leadingSlash) separator folderPrefix).map
      (fsFolderPath · separator folderPrefix) = some p.bare
  /-- A path that starts with the components of the prefix is what is behind them. -/
  same_folder : ∀ leading (p q : Path separator) leadingSlash leadingSlash', Behind folderPrefix leading p q →
    (imapFolderPath (p.text leadingSlash) separator folderPrefix).map
      (fsFolderPath · separator folderPrefix) = some q.bare ∧
    (Unprefixed folderPrefix q.joined →
      imapFolderPath (q.text leadingSlash') separator folderPrefix =
        imapFolderPath (p.text leadingSlash) separator folderPrefix)
  again : Steady separator folderPrefix → ∀ (p : Path separator) leadingSlash,
    ∀ name ∈ imapFolderPath (p.text leadingSlash) separator folderPrefix,
      imapFolderPath name separator folderPrefix = some name
  distinct : ∀ (p q : Path separator) leadingSlash leadingSlash',
    (folderPrefix <+: p.joined ↔ folderPrefix <+: q.joined) →
    imapFolderPath (p.text leadingSlash) separator folderPrefix =
      imapFolderPath (q.text leadingSlash') separator folderPrefix → p.bare = q.bare

theorem paths_correspond (separator : Char) (folderPrefix : List Char) :
    Corresponds separator folderPrefix := by
  refine ⟨fun p leadingSlash unprefixed => ?_, fun leading p q leadingSlash leadingSlash' behind => ?_,
    fun steady p leadingSlash name named => ?_, fun p q leadingSlash leadingSlash' alike same => ?_⟩
  · rw [imapFolderPath_text]
    exact congrArg some (round_trip p unprefixed)
  · rw [imapFolderPath_text, imapFolderPath_text]
    refine ⟨congrArg some behind.fsFolderPath_eq, fun unprefixed => ?_⟩
    exact congrArg some (behind.same_name (unprefixed.resolve_left behind.has_folderPrefix))
  · rw [imapFolderPath_text] at named
    obtain rfl := Option.some.inj named
    exact again p steady
  · rw [imapFolderPath_text, imapFolderPath_text] at same
    have names := Option.some.inj same
    refine congrArg (join '/') (joined_injective ?_)
    unfold fullName at names
    by_cases starts : folderPrefix <+: p.joined
    · rwa [if_pos starts, if_pos (alike.mp starts)] at names
    · rw [if_neg starts, if_neg (alike.not.mp starts)] at names
      exact (List.cons.inj (List.append_cancel_left names)).2

/-- Both paths of the test name one folder, and the longer one does not come back. A prefix with a leading
slash is taken apart when it is read again. -/
theorem prefixed_path_differs :
    (imapFolderPath "INBOX/A/B".toList '.' "INBOX".toList).map (fsFolderPath · '.' "INBOX".toList) =
      some "A/B".toList ∧
    imapFolderPath "INBOX/A/B".toList '.' "INBOX".toList = imapFolderPath "A/B".toList '.' "INBOX".toList ∧
    (imapFolderPath "A".toList '/' "/mail".toList).bind (imapFolderPath · '/' "/mail".toList) ≠
      imapFolderPath "A".toList '/' "/mail".toList := by
  decide

end SyncEngine.FolderPaths
