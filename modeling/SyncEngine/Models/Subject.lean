import SyncEngine.Util.Encoding

/-! Subjects as messages store them and threads are looked up by them. A subject is cut to the length of its
column before the reply prefixes are taken off, so a prefix can push the end of a subject out. -/
namespace SyncEngine
namespace Subject

/-! ## Cleaning -/

/-- `\s` in a pattern without `re.UNICODE`. -/
def isBlank (c : Char) : Bool := (9 ≤ c.toNat && c.toNat ≤ 13) || c.toNat = 32

def replyWords : List Unicode :=
  ["re", "fw", "fwd", "aw", "wg", "undeliverable", "undelivered"].map String.toList

/-- What is left behind one `(re|fw|fwd|aw|wg|undeliverable|undelivered):\s*`, in any case. -/
def reply? (s : Unicode) : Option Unicode :=
  match s.dropWhile (· ≠ ':') with
  | [] => none
  | _ :: rest =>
    if (s.takeWhile (· ≠ ':')).map Char.toLower ∈ replyWords then some (rest.dropWhile isBlank) else none

/-- Takes off at most `fuel` prefixes. -/
def stripReplies : Nat → Unicode → Unicode
  | 0, s => s
  | fuel + 1, s =>
    match reply? s with
    | none => s
    | some rest => stripReplies fuel rest

/-- `re.sub("\s+", " ", s)` -/
def collapse : Unicode → Unicode
  | [] => []
  | c :: rest =>
    if isBlank c then if rest.head?.any isBlank then collapse rest else ' ' :: collapse rest
    else c :: collapse rest

def withoutReplies (s : Unicode) : Unicode := stripReplies s.length s

def cleanupSubject (s : Unicode) : Unicode := collapse (withoutReplies s)

/-- `Message.sanitize_subject` -/
def sanitizeSubject (s : Unicode) : Unicode := (unicodeSafeTruncate s 255).filter (· ≠ '\x00')

/-- The subject by which `fetch_corresponding_thread` looks for a message's thread. -/
def lookedUp (s : Unicode) : Unicode := cleanupSubject (sanitizeSubject s)

/-- `Thread._cleaned_subject` of a thread that `ImapThread.from_imap_message` creates for the message: the
subject is clean when the validator cleans it again. -/
def stored (s : Unicode) : Unicode := cleanupSubject (cleanupSubject (sanitizeSubject s))

example : cleanupSubject "Re:FWD:   Birthday  party".toList = "Birthday party".toList := by decide

/-! ## Reply prefixes -/

theorem reply?_length (found : reply? s = some rest) : rest.length < s.length := by
  unfold reply? at found
  split at found
  · cases found
  · rename_i colon after split
    split at found
    · cases found
      have shorter := (List.dropWhile_suffix isBlank (l := after)).length_le
      have whole := (List.dropWhile_suffix (· ≠ ':') (l := s)).length_le
      rw [split, List.length_cons] at whole
      omega
    · cases found

theorem stripReplies_fuel (enough : s.length ≤ fuel) : stripReplies fuel s = withoutReplies s := by
  induction fuel using Nat.strong_induction_on generalizing s with
  | h fuel ih =>
    cases found : reply? s with
    | none =>
      have stuck : ∀ fuel, stripReplies fuel s = s := by
        rintro (_ | fuel)
        · rfl
        · rw [stripReplies, found]
      rw [withoutReplies, stuck, stuck]
    | some rest =>
      have shorter := reply?_length found
      obtain ⟨fuel, rfl⟩ := Nat.exists_eq_succ_of_ne_zero (show fuel ≠ 0 by omega)
      obtain ⟨length, whole⟩ := Nat.exists_eq_succ_of_ne_zero (show s.length ≠ 0 by omega)
      have first := ih fuel (Nat.lt_succ_self fuel) (show rest.length ≤ fuel by omega)
      have second := ih length (by omega) (show rest.length ≤ length by omega)
      simp only [withoutReplies, whole, stripReplies, found, first, second]

theorem withoutReplies_none (found : reply? s = none) : withoutReplies s = s := by
  cases length : s.length with
  | zero => rw [withoutReplies, length, stripReplies]
  | succ => rw [withoutReplies, length, stripReplies, found]

theorem withoutReplies_some (found : reply? s = some rest) : withoutReplies s = withoutReplies rest := by
  have shorter := reply?_length found
  obtain ⟨length, whole⟩ := Nat.exists_eq_succ_of_ne_zero (show s.length ≠ 0 by omega)
  rw [withoutReplies, whole, stripReplies, found]
  exact stripReplies_fuel (by omega)

/-- Along the prefixes that are taken off. -/
theorem withoutReplies_induction {motive : Unicode → Prop}
    (none : ∀ s, reply? s = none → motive s)
    (some : ∀ s rest, reply? s = some rest → motive rest → motive s) (s : Unicode) : motive s := by
  induction length : s.length using Nat.strong_induction_on generalizing s with
  | h n ih =>
    cases found : reply? s with
    | none => exact none s found
    | some rest => exact some s rest found (ih _ (length ▸ reply?_length found) rest rfl)

theorem reply?_withoutReplies (s : Unicode) : reply? (withoutReplies s) = none := by
  induction s using withoutReplies_induction with
  | none s found => rwa [withoutReplies_none found]
  | some s rest found ih => rwa [withoutReplies_some found]

theorem toLower_of_isBlank (blank : isBlank c = true) : c.toLower = c := by
  have low : c.toNat ≤ 32 := by
    simp only [isBlank, Bool.or_eq_true, Bool.and_eq_true, decide_eq_true_eq] at blank
    omega
  unfold Char.toLower
  rw [dif_neg]
  rintro ⟨large, _⟩
  have : 65 ≤ c.toNat := UInt32.le_iff_toNat_le.mp large
  omega

/-- The words have at least two characters, none of which is blank or a colon. -/
theorem replyWords_letters : ∀ word ∈ replyWords, 2 ≤ word.length ∧
    ∀ c ∈ word, c ≠ ':' ∧ isBlank c = false := by
  have checked : replyWords.all (fun word => decide (2 ≤ word.length) &&
      word.all fun c => decide (c ≠ ':') && !isBlank c) = true := by decide
  simpa using checked

theorem word_letters {word : Unicode} (listed : word.map Char.toLower ∈ replyWords) :
    2 ≤ word.length ∧ ∀ c ∈ word, c ≠ ':' ∧ isBlank c = false := by
  obtain ⟨long, letters⟩ := replyWords_letters _ listed
  refine ⟨by simpa using long, fun c member => ?_⟩
  obtain ⟨noColon, notBlank⟩ := letters _ (List.mem_map_of_mem member)
  refine ⟨?_, ?_⟩
  · rintro rfl
    exact noColon rfl
  · by_contra blank
    rw [Bool.not_eq_false] at blank
    rw [toLower_of_isBlank blank, blank] at notBlank
    cases notBlank

/-- What a prefix consists of. -/
theorem reply?_eq_some : reply? s = some rest ↔ ∃ word after : Unicode,
    s = word ++ ':' :: after ∧ word.map Char.toLower ∈ replyWords ∧ rest = after.dropWhile isBlank := by
  constructor
  · intro found
    unfold reply? at found
    split at found
    · cases found
    · rename_i colon after split
      split at found
      · rename_i listed
        cases found
        refine ⟨s.takeWhile (· ≠ ':'), after, ?_, listed, rfl⟩
        have some : s.dropWhile (· ≠ ':') ≠ [] := by
          rw [split]
          exact List.cons_ne_nil _ _
        have stops := List.head_dropWhile_not (fun c => decide (c ≠ ':')) some
        simp only [split, List.head_cons, decide_eq_false_iff_not, not_not] at stops
        subst stops
        rw [← split, List.takeWhile_append_dropWhile]
      · cases found
  · rintro ⟨word, after, rfl, listed, rfl⟩
    have letters : ∀ c ∈ word, (decide (c ≠ ':')) = true := fun c member =>
      decide_eq_true ((word_letters listed).2 c member).1
    have rest : (word ++ ':' :: after).dropWhile (· ≠ ':') = ':' :: after := by
      rw [List.dropWhile_append_of_pos letters]
      rfl
    have first : (word ++ ':' :: after).takeWhile (· ≠ ':') = word := by
      rw [List.takeWhile_append_of_pos letters]
      simp
    rw [reply?, rest, first]
    exact if_pos listed

theorem reply?_append (found : reply? s = some rest) (tail : Unicode) :
    reply? (s ++ tail) = some (if rest = [] then tail.dropWhile isBlank else rest ++ tail) := by
  obtain ⟨word, after, rfl, listed, rfl⟩ := reply?_eq_some.mp found
  refine reply?_eq_some.mpr ⟨word, after ++ tail, by simp, listed, ?_⟩
  rw [List.dropWhile_append]
  simp [List.isEmpty_iff]

/-- What follows a subject is cleaned with what is left of the subject. -/
theorem withoutReplies_append (s tail : Unicode) : withoutReplies (s ++ tail) =
    if withoutReplies s = [] then withoutReplies (if s = [] then tail else tail.dropWhile isBlank)
    else withoutReplies (withoutReplies s ++ tail) := by
  induction s using withoutReplies_induction with
  | none s found =>
    rw [withoutReplies_none found]
    by_cases empty : s = []
    · simp [empty]
    · simp [empty]
  | some s rest found ih =>
    have nonempty : s ≠ [] := by
      rintro rfl
      cases found
    rw [withoutReplies_some found, withoutReplies_some (reply?_append found tail), if_neg nonempty]
    by_cases empty : rest = []
    · subst empty
      rw [if_pos rfl, withoutReplies_none (s := []) rfl, if_pos rfl]
    · rw [if_neg empty, ih, if_neg empty]

/-! ## Blanks -/

def StartsBlank (s : Unicode) : Prop := s.head?.any isBlank
def EndsBlank (s : Unicode) : Prop := s.getLast?.any isBlank

instance : DecidablePred StartsBlank := fun s => inferInstanceAs (Decidable (s.head?.any isBlank = true))
instance : DecidablePred EndsBlank := fun s => inferInstanceAs (Decidable (s.getLast?.any isBlank = true))

theorem collapse_eq_nil : collapse s = [] ↔ s = [] := by
  induction s with
  | nil => simp [collapse]
  | cons c rest ih =>
    unfold collapse
    split
    · split
      · rename_i blank
        have : rest ≠ [] := by
          rintro rfl
          cases blank
        simp [ih, this]
      · simp
    · simp

theorem collapse_head (s : Unicode) : (collapse s).head? =
    s.head?.map fun c => if isBlank c then ' ' else c := by
  induction s with
  | nil => rfl
  | cons c rest ih =>
    by_cases blank : isBlank c
    · by_cases more : rest.head?.any isBlank
      · cases rest with
        | nil => cases more
        | cons d rest =>
          have again : isBlank d = true := by simpa using more
          rw [collapse, if_pos blank, if_pos more, ih]
          simp [blank, again]
      · simp [collapse, blank, more]
    · simp [collapse, blank]

theorem startsBlank_collapse : StartsBlank (collapse s) ↔ StartsBlank s := by
  cases s with
  | nil => simp [StartsBlank, collapse]
  | cons c rest =>
    rw [StartsBlank, collapse_head]
    by_cases blank : isBlank c
    · have space : isBlank ' ' = true := rfl
      simp [StartsBlank, blank, space]
    · simp [StartsBlank, blank]

theorem collapse_of_letters (letters : ∀ c ∈ s, isBlank c = false) : collapse s = s := by
  induction s with
  | nil => rfl
  | cons c rest ih =>
    obtain ⟨first, others⟩ := List.forall_mem_cons.mp letters
    rw [collapse, if_neg (by simp [first]), ih others]

theorem collapse_of_startsBlank (blank : StartsBlank s) :
    collapse s = ' ' :: collapse (s.dropWhile isBlank) := by
  induction s with
  | nil => cases blank
  | cons c rest ih =>
    have first : isBlank c = true := by simpa [StartsBlank] using blank
    rw [collapse, if_pos first, List.dropWhile_cons_of_pos first]
    by_cases more : rest.head?.any isBlank
    · rw [if_pos more, ih more]
    · have stops : rest.dropWhile isBlank = rest := by
        cases rest with
        | nil => rfl
        | cons d rest => exact List.dropWhile_cons_of_neg (by simpa using more)
      rw [if_neg more, stops]

theorem collapse_append (s tail : Unicode) : collapse (s ++ tail) =
    collapse s ++ collapse (if EndsBlank s then tail.dropWhile isBlank else tail) := by
  induction s with
  | nil => rfl
  | cons c rest ih =>
    cases rest with
    | nil =>
      by_cases blank : isBlank c
      · have ends : EndsBlank [c] := by simpa [EndsBlank] using blank
        have both : StartsBlank (c :: tail) := by simpa [StartsBlank] using blank
        rw [if_pos ends, List.singleton_append, collapse_of_startsBlank both,
          List.dropWhile_cons_of_pos blank]
        simp [collapse, blank]
      · have ends : ¬ EndsBlank [c] := by simpa [EndsBlank] using blank
        rw [if_neg ends]
        simp [collapse, blank]
    | cons d rest =>
      have ends : EndsBlank (c :: d :: rest) ↔ EndsBlank (d :: rest) := by simp [EndsBlank]
      rw [if_congr ends rfl rfl]
      by_cases blank : isBlank c
      · by_cases more : isBlank d
        · simpa [collapse, blank, more] using ih
        · simpa [collapse, blank, more] using ih
      · simpa [collapse, blank] using ih

/-- A text that comes out without blanks has gone in so. -/
theorem eq_of_collapse (letters : ∀ c ∈ collapse s, isBlank c = false) : collapse s = s := by
  induction s with
  | nil => rfl
  | cons c rest ih =>
    by_cases blank : isBlank c
    · have starts : StartsBlank (c :: rest) := by simpa [StartsBlank] using blank
      rw [collapse_of_startsBlank starts] at letters
      exact absurd (letters ' ' List.mem_cons_self) (by decide)
    · rw [collapse, if_neg blank] at letters ⊢
      rw [ih fun d member => letters d (List.mem_cons_of_mem c member)]

/-- What comes out without blanks at the beginning has gone in so. -/
theorem begins_of_collapse (same : collapse s = first ++ after) (letters : ∀ c ∈ first, isBlank c = false) :
    ∃ after', s = first ++ after' := by
  induction first generalizing s with
  | nil => exact ⟨s, rfl⟩
  | cons c first ih =>
    obtain ⟨letter, others⟩ := List.forall_mem_cons.mp letters
    cases s with
    | nil => cases same
    | cons d rest =>
      by_cases blank : isBlank d
      · have starts : StartsBlank (d :: rest) := by simpa [StartsBlank] using blank
        rw [collapse_of_startsBlank starts, List.cons_append] at same
        rw [← (List.cons.inj same).1] at letter
        exact absurd letter (by decide)
      · rw [collapse, if_neg blank, List.cons_append] at same
        obtain ⟨rfl, later⟩ := List.cons.inj same
        obtain ⟨after', rfl⟩ := ih later others
        exact ⟨after', rfl⟩

theorem collapse_collapse (s : Unicode) : collapse (collapse s) = collapse s := by
  induction s with
  | nil => rfl
  | cons c rest ih =>
    by_cases blank : isBlank c
    · by_cases more : rest.head?.any isBlank
      · rwa [collapse, if_pos blank, if_pos more]
      · have next : ¬ (collapse rest).head?.any isBlank := fun starts =>
          more (startsBlank_collapse.mp starts)
        have space : isBlank ' ' = true := rfl
        rw [collapse, if_pos blank, if_neg more, collapse, if_pos space, if_neg next, ih]
    · rw [collapse, if_neg blank, collapse, if_neg blank, ih]

theorem reply?_collapse (clean : reply? s = none) : reply? (collapse s) = none := by
  by_contra dirty
  obtain ⟨rest, found⟩ := Option.ne_none_iff_exists'.mp dirty
  obtain ⟨word, after, same, listed, _⟩ := reply?_eq_some.mp found
  have letters : ∀ c ∈ word ++ [':'], isBlank c = false := by
    intro c member
    rcases List.mem_append.mp member with inWord | colon
    · exact ((word_letters listed).2 c inWord).2
    · obtain rfl := List.mem_singleton.mp colon
      rfl
  obtain ⟨after', rfl⟩ := begins_of_collapse (by simpa using same) letters
  rw [reply?_eq_some.mpr ⟨word, after', List.append_assoc .., listed, rfl⟩] at clean
  cases clean

/-- Cleaning what is clean changes nothing, so it does not matter how often the code does it. -/
theorem cleanupSubject_twice (s : Unicode) : cleanupSubject (cleanupSubject s) = cleanupSubject s := by
  have clean := reply?_collapse (reply?_withoutReplies s)
  unfold cleanupSubject
  rw [withoutReplies_none clean, collapse_collapse]

theorem stored_eq (s : Unicode) : stored s = lookedUp s := cleanupSubject_twice _

/-! ## Truncation -/

def re (s : Unicode) : Unicode := "Re: ".toList ++ s

/-- What a message with the subject and a reply to it both keep of the subject. -/
def kept (s : Unicode) : Unicode := ((rstrip s).take 251).filter (· ≠ '\x00')

/-- What the prefix of a reply pushes out: the characters from 252 to 255. -/
def pushedOut (s : Unicode) : Unicode := (((rstrip s).drop 251).take 4).filter (· ≠ '\x00')

theorem sanitizeSubject_eq (s : Unicode) : sanitizeSubject s = kept s ++ pushedOut s := by
  rw [sanitizeSubject, unicodeSafeTruncate, kept, pushedOut, ← List.filter_append, ← List.take_add]

theorem pushedOut_length (s : Unicode) : (pushedOut s).length ≤ 4 :=
  (List.length_filter_le _ _).trans (List.length_take_le _ _)

theorem rstrip_append (first s : Unicode) :
    rstrip (first ++ s) = if rstrip s = [] then rstrip first else first ++ rstrip s := by
  simp only [rstrip, List.rdropWhile, List.reverse_append, List.dropWhile_append, List.isEmpty_iff,
    List.reverse_eq_nil_iff]
  split
  · rfl
  · rw [List.reverse_append, List.reverse_reverse]

theorem sanitizeSubject_re (s : Unicode) :
    sanitizeSubject (re s) = if rstrip s = [] then "Re:".toList else re (kept s) := by
  rw [sanitizeSubject, unicodeSafeTruncate, re, rstrip_append]
  split
  · decide
  · rw [List.take_append, List.filter_append]
    rfl

theorem reply?_re (s : Unicode) : reply? (re s) = some (s.dropWhile isBlank) :=
  reply?_eq_some.mpr ⟨"Re".toList, ' ' :: s, rfl, by decide, rfl⟩

theorem lookedUp_re (s : Unicode) : lookedUp (re s) = cleanupSubject ((kept s).dropWhile isBlank) := by
  rw [lookedUp, sanitizeSubject_re]
  split
  · rename_i blank
    rw [kept, blank]
    decide
  · rw [cleanupSubject, withoutReplies_some (reply?_re _), cleanupSubject]

/-! ## What is pushed out -/

theorem not_startsBlank_dropWhile (s : Unicode) : ¬ StartsBlank (s.dropWhile isBlank) := by
  induction s with
  | nil => simp [StartsBlank]
  | cons c rest ih =>
    by_cases blank : isBlank c
    · rwa [List.dropWhile_cons_of_pos blank]
    · rw [List.dropWhile_cons_of_neg blank]
      simpa [StartsBlank] using blank

theorem dropWhile_of_not_startsBlank (letter : ¬ StartsBlank s) : s.dropWhile isBlank = s := by
  cases s with
  | nil => rfl
  | cons c rest => exact List.dropWhile_cons_of_neg (by simpa [StartsBlank] using letter)

theorem not_startsBlank_of_reply (found : reply? s = some rest) : ¬ StartsBlank s := by
  obtain ⟨word, after, rfl, listed, _⟩ := reply?_eq_some.mp found
  obtain ⟨long, letters⟩ := word_letters listed
  cases word with
  | nil => exact absurd long (by decide)
  | cons c word =>
    have letter := (letters c List.mem_cons_self).2
    simpa [StartsBlank] using letter

theorem not_startsBlank_withoutReplies (letter : ¬ StartsBlank s) : ¬ StartsBlank (withoutReplies s) := by
  induction s using withoutReplies_induction with
  | none s found => rwa [withoutReplies_none found]
  | some s rest found ih =>
    rw [withoutReplies_some found]
    obtain ⟨_, after, _, _, rfl⟩ := reply?_eq_some.mp found
    exact ih (not_startsBlank_dropWhile after)

/-- What is taken off consists of prefixes only. -/
theorem withoutReplies_split (s : Unicode) :
    ∃ before, withoutReplies before = [] ∧ before ++ withoutReplies s = s := by
  induction s using withoutReplies_induction with
  | none s found => exact ⟨[], rfl, withoutReplies_none found⟩
  | some s rest found ih =>
    obtain ⟨word, after, rfl, listed, rfl⟩ := reply?_eq_some.mp found
    obtain ⟨before, only, whole⟩ := ih
    refine ⟨word ++ ':' :: (after.takeWhile isBlank ++ before), ?_, ?_⟩
    · have letter : before.dropWhile isBlank = before := by
        cases before with
        | nil => rfl
        | cons c before =>
          have letter := not_startsBlank_dropWhile after
          rw [← whole] at letter
          exact List.dropWhile_cons_of_neg (by simpa [StartsBlank] using letter)
      rw [withoutReplies_some (reply?_eq_some.mpr ⟨word, _, rfl, listed, rfl⟩),
        List.dropWhile_append_of_pos fun c member => List.mem_takeWhile_imp member, letter, only]
    · rw [withoutReplies_some found, List.append_assoc, List.cons_append, List.append_assoc, whole,
        List.takeWhile_append_dropWhile]

theorem endsBlank_withoutReplies (left : withoutReplies s ≠ []) :
    EndsBlank (withoutReplies s) ↔ EndsBlank s := by
  obtain ⟨replies, _, whole⟩ := withoutReplies_split s
  rw [EndsBlank, EndsBlank, ← List.getLast?_append_of_ne_nil replies left, whole]

/-- A word that has only begun is no prefix yet. -/
theorem begun_letters (listed : (begun ++ rest : Unicode).map Char.toLower ∈ replyWords) :
    reply? begun = none ∧ ∀ c ∈ begun, isBlank c = false := by
  have letters := (word_letters listed).2
  refine ⟨?_, fun c member => (letters c (List.mem_append_left rest member)).2⟩
  by_contra complete
  obtain ⟨_, found⟩ := Option.ne_none_iff_exists'.mp complete
  obtain ⟨word, after, rfl, _, _⟩ := reply?_eq_some.mp found
  exact (letters ':' (by simp)).1 rfl

/-- The end of a long subject does not show once the subject is clean. -/
inductive AddsNothing : Unicode → Unicode → Prop where
  | nothing : AddsNothing first []
  | replies (only : withoutReplies first = []) (more : withoutReplies (tail.dropWhile isBlank) = []) :
      AddsNothing first tail
  | blanks (ends : EndsBlank first) (more : tail.dropWhile isBlank = []) : AddsNothing first tail
  /-- The cut goes through a prefix, behind which there is just what comes before the cut. -/
  | again (only : withoutReplies before = []) (some : begun ≠ [])
      (word : (begun ++ rest : Unicode).map Char.toLower ∈ replyWords) (between : ∀ c ∈ gap, isBlank c) :
      AddsNothing (before ++ begun) (rest ++ ':' :: (gap ++ begun))

theorem withoutReplies_begun (only : withoutReplies before = [])
    (listed : (begun ++ rest : Unicode).map Char.toLower ∈ replyWords) :
    withoutReplies (before ++ begun) = begun := by
  obtain ⟨open_, letters⟩ := begun_letters listed
  have starts : begun.dropWhile isBlank = begun := by
    cases begun with
    | nil => rfl
    | cons c begun =>
      exact List.dropWhile_cons_of_neg (by simp [letters c List.mem_cons_self])
  rw [withoutReplies_append, if_pos only, starts, ite_self, withoutReplies_none open_]

theorem reply?_again (listed : (begun ++ rest : Unicode).map Char.toLower ∈ replyWords)
    (between : ∀ c ∈ gap, isBlank c) : reply? (begun ++ (rest ++ ':' :: (gap ++ begun))) = some begun := by
  refine reply?_eq_some.mpr ⟨begun ++ rest, gap ++ begun, by simp, listed, ?_⟩
  obtain ⟨_, letters⟩ := begun_letters listed
  rw [List.dropWhile_append_of_pos between]
  cases begun with
  | nil => rfl
  | cons c begun => exact (List.dropWhile_cons_of_neg (by simp [letters c List.mem_cons_self])).symm

/-- A prefix that only comes about behind the cut goes through it. -/
theorem cut_of_reply (clean : reply? y = none) (found : reply? (y ++ tail) = some rest) :
    ∃ word after : Unicode, tail = word ++ ':' :: after ∧ (y ++ word).map Char.toLower ∈ replyWords ∧
      rest = after.dropWhile isBlank := by
  obtain ⟨whole, after, split, listed, rfl⟩ := reply?_eq_some.mp found
  have split : y ++ tail = whole ++ [':'] ++ after := by simpa using split
  rcases List.append_eq_append_iff.mp split with ⟨middle, complete, rfl⟩ | ⟨middle, rfl, rfl⟩
  · rcases List.eq_nil_or_concat' middle with rfl | ⟨word, colon, rfl⟩
    · rw [reply?_eq_some.mpr ⟨whole, [], by simpa using complete.symm, listed, rfl⟩] at clean
      cases clean
    · rw [← List.append_assoc] at complete
      obtain ⟨rfl, same⟩ := List.append_inj' complete rfl
      cases same
      exact ⟨word, after, by simp, listed, rfl⟩
  · rw [reply?_eq_some.mpr ⟨whole, middle, by simp, listed, rfl⟩] at clean
    cases clean

/-- Behind a prefix that the cut goes through there is no room for another one. -/
theorem again_of_reply (short : tail.length ≤ 4) (left : y ≠ []) (clean : reply? y = none)
    (found : reply? (y ++ tail) = some rest)
    (same : collapse (withoutReplies rest) = collapse y) : ∃ word gap : Unicode,
      (y ++ word).map Char.toLower ∈ replyWords ∧ (∀ c ∈ gap, isBlank c) ∧
        tail = word ++ ':' :: (gap ++ y) := by
  obtain ⟨word, after, rfl, listed, rfl⟩ := cut_of_reply clean found
  have letters : ∀ c ∈ y, isBlank c = false := (begun_letters listed).2
  rw [collapse_of_letters letters] at same
  have room : (after.dropWhile isBlank).length ≤ 3 := by
    have := (List.dropWhile_suffix isBlank (l := after)).length_le
    simp only [List.length_append, List.length_cons] at short
    omega
  have last : reply? (after.dropWhile isBlank) = none := by
    by_contra another
    obtain ⟨rest, another⟩ := Option.ne_none_iff_exists'.mp another
    obtain ⟨second, end_, split, listed, rfl⟩ := reply?_eq_some.mp another
    have long := (word_letters listed).1
    rw [split, List.length_append, List.length_cons] at room
    obtain rfl := List.eq_nil_of_length_eq_zero (show end_.length = 0 by omega)
    rw [withoutReplies_some another] at same
    exact left same.symm
  rw [withoutReplies_none last] at same
  have plain := eq_of_collapse (same ▸ letters)
  refine ⟨word, after.takeWhile isBlank, listed, fun c member => List.mem_takeWhile_imp member, ?_⟩
  rw [← same, plain, List.takeWhile_append_dropWhile]

/-- A subject of reply prefixes only is clean as nothing. -/
theorem addsNothing_of_replies (only : withoutReplies first = []) (letter : ¬ StartsBlank (first ++ tail)) :
    [] = cleanupSubject (first ++ tail) ↔ AddsNothing first tail := by
  have shown : cleanupSubject (first ++ tail) = collapse (withoutReplies (tail.dropWhile isBlank)) := by
    rw [cleanupSubject, withoutReplies_append, if_pos only]
    split
    · rename_i empty
      subst empty
      rw [dropWhile_of_not_startsBlank (s := tail) letter]
    · rfl
  rw [shown, eq_comm, collapse_eq_nil]
  constructor
  · exact .replies only
  · intro adds
    cases adds with
    | nothing => rfl
    | replies _ more => exact more
    | blanks _ more => rw [more]; rfl
    | again before some word =>
      rw [withoutReplies_begun before word] at only
      exact absurd only some

/-- What is left of a subject goes on with the last characters. -/
theorem addsNothing_of_rest (short : tail.length ≤ 4) (left : withoutReplies first ≠ []) :
    cleanupSubject first = cleanupSubject (first ++ tail) ↔ AddsNothing first tail := by
  have clean := reply?_withoutReplies first
  rw [cleanupSubject, cleanupSubject, withoutReplies_append, if_neg left]
  cases found : reply? (withoutReplies first ++ tail) with
  | none =>
    rw [withoutReplies_none found, collapse_append, List.self_eq_append_right, collapse_eq_nil,
      if_congr (endsBlank_withoutReplies left) rfl rfl]
    constructor
    · intro more
      by_cases ends : EndsBlank first
      · rw [if_pos ends] at more
        exact .blanks ends more
      · rw [if_neg ends] at more
        subst more
        exact .nothing
    · intro adds
      cases adds with
      | nothing => simp
      | replies only => exact absurd only left
      | blanks ends more => rwa [if_pos ends]
      | again before _ word between =>
        rw [withoutReplies_begun before word, reply?_again word between] at found
        cases found
  | some rest =>
    rw [withoutReplies_some found]
    constructor
    · intro same
      obtain ⟨before, only, whole⟩ := withoutReplies_split first
      obtain ⟨word, gap, listed, between, rfl⟩ := again_of_reply short left clean found same.symm
      have adds := AddsNothing.again only left listed between
      rwa [whole] at adds
    · intro adds
      cases adds with
      | nothing =>
        rw [List.append_nil, clean] at found
        cases found
      | replies only => exact absurd only left
      | blanks ends more =>
        obtain ⟨word, after, rfl, _, _⟩ := cut_of_reply clean found
        have colon := List.dropWhile_eq_nil_iff.mp more ':' (by simp)
        exact absurd colon (by decide)
      | again before _ word between =>
        rw [withoutReplies_begun before word] at found ⊢
        rw [reply?_again word between] at found
        cases found
        rw [withoutReplies_none (begun_letters word).1]

/-- The first 251 characters and the last four, against the first alone. -/
theorem cleanupSubject_append_iff (first : Unicode) (short : tail.length ≤ 4) :
    cleanupSubject (first.dropWhile isBlank) = cleanupSubject (first ++ tail) ↔
      ¬ StartsBlank (first ++ tail) ∧ AddsNothing first tail := by
  by_cases blank : StartsBlank (first ++ tail)
  · have clean : reply? (first ++ tail) = none := by
      by_contra found
      obtain ⟨_, found⟩ := Option.ne_none_iff_exists'.mp found
      exact not_startsBlank_of_reply found blank
    have shown : StartsBlank (cleanupSubject (first ++ tail)) := by
      rw [cleanupSubject, withoutReplies_none clean]
      exact startsBlank_collapse.mpr blank
    refine ⟨fun same => ?_, fun held => absurd blank held.1⟩
    rw [← same] at shown
    have letter := not_startsBlank_withoutReplies (not_startsBlank_dropWhile first)
    exact absurd (startsBlank_collapse.mp shown) letter
  · have start : first.dropWhile isBlank = first := by
      cases first with
      | nil => rfl
      | cons c first => exact dropWhile_of_not_startsBlank (by simpa [StartsBlank] using blank)
    rw [start, and_iff_right blank]
    by_cases only : withoutReplies first = []
    · rw [cleanupSubject, only]
      exact addsNothing_of_replies only blank
    · exact addsNothing_of_rest short only

/-- A reply looks for the subject that the original's thread has, and the other way round. -/
def Meet (s : Unicode) : Prop := lookedUp (re s) = stored s ∧ lookedUp s = stored (re s)

/-- A subject and a reply to it meet exactly when the subject does not begin with a blank and nothing that
shows is pushed out. -/
theorem subjects_meet_iff (s : Unicode) :
    Meet s ↔ ¬ StartsBlank (kept s ++ pushedOut s) ∧ AddsNothing (kept s) (pushedOut s) := by
  have same : Meet s ↔ lookedUp (re s) = lookedUp s := by
    rw [Meet, stored_eq, stored_eq]
    exact ⟨And.left, fun same => ⟨same, same.symm⟩⟩
  have cleaned : lookedUp s = cleanupSubject (kept s ++ pushedOut s) := by
    rw [lookedUp, sanitizeSubject_eq]
  rw [same, lookedUp_re, cleaned]
  exact cleanupSubject_append_iff (kept s) (pushedOut_length s)

/-- The blank in front of the subject is taken off with the prefix, and stays without one. -/
theorem blank_subject_missed : ¬ ∀ s : Unicode, Meet s := by
  intro claim
  exact absurd (claim " Hi".toList).1 (by decide)

end Subject
end SyncEngine
