import Mathlib.Data.List.TakeWhile
import SyncEngine.Util.Encoding
import SyncEngine.Util.HtmlText

/-! The HTML that is served for a message of plain text: the matches of one regular expression, what each is
replaced by, and what a reader sees of it. -/
namespace SyncEngine.PlaintextHtml
open HtmlText

/-- What `re_string` matches, and the characters between its matches. -/
inductive Match
  | htmlchars (c : Char)
  | space (run : List Char)
  | lineend
  | protocol (before : Option Char) (url : List Char) (last : Option Char)
  | other (c : Char)

def startsUrl (text : List Char) : Bool :=
  (text.take 7).map Char.toLower = "http://".toList ∨ (text.take 6).map Char.toLower = "ftp://".toList

/-- `(^|\s)` in front of a URL: what it takes, and the text from the URL on. -/
def urlAt (lineStarts : Bool) (c : Char) (text : List Char) : Option (Option Char × List Char) :=
  if lineStarts ∧ startsUrl (c :: text) then some (none, c :: text)
  else if isSpace c ∧ startsUrl text then some (some c, text)
  else none

def blank (c : Char) : Bool := c = ' ' ∨ c = '\t'

/-- The first alternative that matches here, whether a line starts behind it, and what is left. -/
def next (lineStarts : Bool) (c : Char) (text : List Char) : Match × Bool × List Char :=
  if c = '<' ∨ c = '&' ∨ c = '>' then (.htmlchars c, false, text)
  else if lineStarts ∧ blank c then (.space (c :: text.takeWhile blank), false, text.dropWhile blank)
  else if c = '\n' then (.lineend, true, text)
  else
    match urlAt lineStarts c text with
    | none => (.other c, false, text)
    | some (before, rest) =>
      -- The lazy `.*?` ends at the first white space, which `(\s|$)` takes, or at the end.
      let url := rest.takeWhile (!isSpace ·)
      match rest.dropWhile (!isSpace ·) with
      | [] => (.protocol before url none, false, [])
      | last :: rest => (.protocol before url (some last), last = '\n', rest)

namespace Match

/-- The text that is matched. -/
def source : Match → List Char
  | .htmlchars c | .other c => [c]
  | .space run => run
  | .lineend => ['\n']
  | .protocol before url last => before.toList ++ url ++ last.toList

/-- What a match is made of. -/
def WellFormed : Match → Prop
  | .htmlchars c => c = '<' ∨ c = '&' ∨ c = '>'
  | .space run => ∀ c ∈ run, blank c = true
  | .lineend => True
  | .protocol before url last =>
    (∀ c ∈ before, isSpace c = true) ∧ (∀ c ∈ url, isSpace c = false) ∧ ∀ c ∈ last, isSpace c = true
  | .other c => c ≠ '<' ∧ c ≠ '&' ∧ c ≠ '>'

/-- A URL without signs that mean something in HTML. -/
def Clean : Match → Prop
  | .protocol _ url _ => ∀ c ∈ url, c ≠ '<' ∧ c ≠ '>' ∧ c ≠ '&' ∧ c ≠ '"'
  | .htmlchars _ | .space _ | .lineend | .other _ => True

end Match

theorem urlAt_spec {lineStarts : Bool} {c : Char} {text rest : List Char} {before : Option Char}
    (found : urlAt lineStarts c text = some (before, rest)) :
    before.toList ++ rest = c :: text ∧ (∀ c ∈ before, isSpace c = true) ∧ rest.length ≤ text.length + 1 := by
  unfold urlAt at found
  split at found
  · obtain ⟨rfl, rfl⟩ := Prod.mk.inj (Option.some.inj found)
    exact ⟨rfl, fun c none_before => (nomatch none_before), Nat.le_refl _⟩
  · split at found
    next space =>
      obtain ⟨rfl, rfl⟩ := Prod.mk.inj (Option.some.inj found)
      refine ⟨rfl, ?_, Nat.le_succ _⟩
      rintro _ ⟨⟩
      exact space.1
    next => cases found

theorem next_spec (lineStarts : Bool) (c : Char) (text : List Char) :
    (next lineStarts c text).1.source ++ (next lineStarts c text).2.2 = c :: text ∧
      (next lineStarts c text).1.WellFormed ∧ (next lineStarts c text).2.2.length ≤ text.length := by
  unfold next
  split
  next markup => exact ⟨rfl, markup, Nat.le_refl _⟩
  next plain =>
    split
    next start =>
      refine ⟨congrArg (c :: ·) List.takeWhile_append_dropWhile, fun c' member => ?_,
        (List.dropWhile_suffix _).length_le⟩
      rcases List.mem_cons.mp member with rfl | member
      · exact start.2
      · exact List.mem_takeWhile_imp member
    next =>
      split
      next line_end => exact ⟨congrArg (· :: text) line_end.symm, trivial, Nat.le_refl _⟩
      next =>
        cases found : urlAt lineStarts c text with
        | none => exact ⟨rfl, by simpa [Match.WellFormed] using plain, Nat.le_refl _⟩
        | some pair =>
          obtain ⟨before, rest⟩ := pair
          obtain ⟨whole, spaces, fewer⟩ := urlAt_spec found
          have cut := List.takeWhile_append_dropWhile (p := (!isSpace ·)) (l := rest)
          have url : ∀ c ∈ rest.takeWhile (!isSpace ·), isSpace c = false := fun c member => by
            simpa using List.mem_takeWhile_imp member
          dsimp only
          cases after : rest.dropWhile (!isSpace ·) with
          | nil =>
            rw [after, List.append_nil] at cut
            exact ⟨by simp [Match.source, cut, whole], ⟨spaces, url, fun c last => nomatch last⟩, Nat.zero_le _⟩
          | cons last rest' =>
            rw [after] at cut
            have space : isSpace last = true := by
              have := List.head?_dropWhile_not (!isSpace ·) rest
              rw [after] at this
              simpa using this
            refine ⟨?_, ⟨spaces, url, ?_⟩, ?_⟩
            · rw [← whole]
              refine Eq.trans ?_ (congrArg (before.toList ++ ·) cut)
              simp [Match.source]
            · rintro _ ⟨⟩
              exact space
            · have length := congrArg List.length cut
              rw [List.length_append, List.length_cons] at length
              simp only
              omega

/-- All matches in a text, from left to right. -/
def scan (lineStarts : Bool) : List Char → List Match
  | [] => []
  | c :: text =>
    have := (next_spec lineStarts c text).2.2
    (next lineStarts c text).1 :: scan (next lineStarts c text).2.1 (next lineStarts c text).2.2
  termination_by text => text.length

/-- `cgi.escape` of one character. -/
def escape (c : Char) : List Char :=
  if c = '&' then "&amp;".toList else if c = '<' then "&lt;".toList else if c = '>' then "&gt;".toList else [c]

def nbsp : List Char := "&nbsp;".toList

def doSub (tabstop : Nat) : Match → List Char
  | .htmlchars c => escape c
  | .lineend => "<br>".toList
  | .space run =>
    run.flatMap fun c =>
      if c = '\t' then (List.replicate tabstop nbsp).flatten else if c = ' ' then nbsp else [c]
  | .protocol before url last =>
    let url := before.toList ++ url
    let leading := if url.head? = some ' ' then [' '] else []
    let url := if url.head? = some ' ' then url.tail else url
    let last := if last = some '\n' ∨ last = some '\r' then "<br>".toList else last.toList
    leading ++ (linkStart ++ (url ++ (linkEnd ++ (url ++ ("</a>".toList ++ last)))))
  | .other c => [c]

/-- `text.split('\n\n')` -/
def paragraphs : List Char → List (List Char)
  | [] => [[]]
  | '\n' :: '\n' :: text => [] :: paragraphs text
  | c :: text =>
    match paragraphs text with
    | [] => [[c]]
    | p :: ps => (c :: p) :: ps

/-- A paragraph with its matches replaced. -/
def paragraph (tabstop : Nat) (p : List Char) : List Char :=
  "<p>".toList ++ ((scan true p).flatMap (doSub tabstop) ++ "</p>".toList)

/-- The assertion fails on a CR. `tabstop` is `False`, which counts as none, for a message. -/
def plaintext2html (text : List Char) (tabstop : Nat) : Option (List Char) :=
  if '\r' ∈ text then none
  else
    some (['\n'].intercalate ((paragraphs text).map (paragraph tabstop)))

/-! ## What a reader sees -/

def visible (c : Char) : Bool := !isSpace c

/-- The HTML has no markup but paragraphs, line breaks and links, and shows each character of the text that
is not white space. -/
def Displays (text html : List Char) : Prop :=
  ∃ seen, Reads html seen ∧ seen.filter visible = text.filter visible

/-- No URL that is made a link has a sign that means something in HTML. -/
def Unmarked (text : List Char) : Prop := ∀ p ∈ paragraphs text, ∀ m ∈ scan true p, m.Clean

/-- A piece of HTML for a piece of text. If it can be read at all, it shows no more than the text, and as
much only if it is good. -/
structure Piece (source html : List Char) (good : Prop) : Prop where
  read : ∀ more seen, Reads (html ++ more) seen → ∃ shown, Shows html shown ∧
    (shown.filter visible).length ≤ (source.filter visible).length ∧
      ((shown.filter visible).length = (source.filter visible).length → good)
  written : good → ∃ shown, Shows html shown ∧ shown.filter visible = source.filter visible

namespace Piece
variable {source source' html html' : List Char} {good good' : Prop}

theorem of_shows {shown : List Char} (shows : Shows html shown)
    (same : shown.filter visible = source.filter visible) (is_good : good) : Piece source html good :=
  ⟨fun _ _ _ => ⟨shown, shows, Nat.le_of_eq (congrArg List.length same), fun _ => is_good⟩,
    fun _ => ⟨shown, shows, same⟩⟩

theorem append (first : Piece source html good) (second : Piece source' html' good') :
    Piece (source ++ source') (html ++ html') (good ∧ good') := by
  constructor
  · intro more seen reads
    rw [List.append_assoc] at reads
    obtain ⟨shown, shows, fewer, all⟩ := first.read _ _ reads
    obtain ⟨seen', _, reads'⟩ := (shows _ _).mp reads
    obtain ⟨shown', shows', fewer', all'⟩ := second.read _ _ reads'
    refine ⟨shown ++ shown', shows.append shows', ?_, fun same => ?_⟩
    · simp only [List.filter_append, List.length_append]
      exact Nat.add_le_add fewer fewer'
    · simp only [List.filter_append, List.length_append] at same
      exact ⟨all (by omega), all' (by omega)⟩
  · rintro ⟨is_good, is_good'⟩
    obtain ⟨shown, shows, same⟩ := first.written is_good
    obtain ⟨shown', shows', same'⟩ := second.written is_good'
    exact ⟨shown ++ shown', shows.append shows', by rw [List.filter_append, List.filter_append, same, same']⟩

theorem displays_iff (piece : Piece source html good) : Displays source html ↔ good := by
  constructor
  · rintro ⟨seen, reads, same⟩
    have reads' := reads
    rw [← List.append_nil html] at reads'
    obtain ⟨shown, shows, _, all⟩ := piece.read [] seen reads'
    obtain rfl := shows.reads_iff.mp reads
    exact all (congrArg List.length same)
  · intro is_good
    obtain ⟨shown, shows, same⟩ := piece.written is_good
    exact ⟨shown, shows.reads_iff.mpr rfl, same⟩

theorem flatMap {Part : Type} (source html : Part → List Char) (good : Part → Prop) (parts : List Part)
    (each : ∀ part ∈ parts, Piece (source part) (html part) (good part)) :
    Piece (parts.flatMap source) (parts.flatMap html) (∀ part ∈ parts, good part) := by
  induction parts with
  | nil => exact of_shows .nil rfl fun part member => nomatch member
  | cons part parts ih =>
    have whole := (each part List.mem_cons_self).append (ih fun part member => each part (.tail _ member))
    rw [← List.forall_mem_cons] at whole
    exact whole

end Piece

/-! ## One match -/

/-- White space shows as nothing. -/
theorem filter_spaces {run : List Char} (spaces : ∀ c ∈ run, isSpace c = true) : run.filter visible = [] :=
  List.filter_eq_nil_iff.mpr fun c member => by simp [visible, spaces c member]

theorem space_plain {c : Char} (space : isSpace c = true) : c ≠ '<' ∧ c ≠ '>' ∧ c ≠ '&' ∧ c ≠ '"' := by
  refine ⟨?_, ?_, ?_, ?_⟩ <;>
  · rintro rfl
    revert space
    decide

theorem shows_nbsp (tabstop : Nat) : ∃ shown, Shows (List.replicate tabstop nbsp).flatten shown ∧
    shown.filter visible = [] := by
  induction tabstop with
  | zero => exact ⟨[], .nil, rfl⟩
  | succ tabstop ih =>
    obtain ⟨shown, shows, nothing⟩ := ih
    have one : Shows nbsp ['\u00a0'] := .entity (by decide)
    refine ⟨['\u00a0'] ++ shown, one.append shows, ?_⟩
    rw [List.filter_append, nothing]
    decide

theorem shows_run (tabstop : Nat) {run : List Char} (blanks : ∀ c ∈ run, blank c = true) :
    ∃ shown, Shows (doSub tabstop (.space run)) shown ∧ shown.filter visible = [] := by
  induction run with
  | nil => exact ⟨[], .nil, rfl⟩
  | cons c run ih =>
    obtain ⟨shown, shows, nothing⟩ := ih fun c member => blanks c (.tail _ member)
    obtain ⟨first, shows_first, nothing_first⟩ : ∃ first, Shows (if c = '\t' then
        (List.replicate tabstop nbsp).flatten else if c = ' ' then nbsp else [c]) first ∧
          first.filter visible = [] := by
      have kind := blanks c List.mem_cons_self
      rw [blank, decide_eq_true_eq] at kind
      rcases kind with rfl | rfl
      · exact ⟨['\u00a0'], .entity (by decide : (nbsp, '\u00a0') ∈ entities), by decide⟩
      · exact shows_nbsp tabstop
    exact ⟨first ++ shown, shows_first.append shows, by rw [List.filter_append, nothing, nothing_first]; rfl⟩

/-- The address of a link, and the space that is put in front of it. -/
theorem address_spec {before : Option Char} {url : List Char} {last : Option Char}
    (wellFormed : (Match.protocol before url last).WellFormed) : ∃ leading address,
    (∀ tabstop, doSub tabstop (.protocol before url last) =
      leading ++ (linkStart ++ (address ++ (linkEnd ++ (address ++ ("</a>".toList ++
        if last = some '\n' ∨ last = some '\r' then "<br>".toList else last.toList)))))) ∧
    Shows leading leading ∧ leading.filter visible = [] ∧ ' ' ∉ address ∧
      address.filter visible = url.filter visible ∧ (∀ c ∈ address, isSpace c = true ∨ c ∈ url) ∧
        ∀ c ∈ url, c ∈ address := by
  obtain ⟨spaces, no_space, _⟩ := wellFormed
  have no_blank : ' ' ∉ url := fun member => Bool.false_ne_true ((no_space _ member).symm.trans rfl)
  have first : url.head? ≠ some ' ' := fun here => no_blank (List.mem_of_head? here)
  cases before with
  | none =>
    refine ⟨[], url, fun tabstop => ?_, .nil, rfl, no_blank, rfl, fun c member => .inr member,
      fun c member => member⟩
    simp [doSub, first]
  | some c =>
    have space : isSpace c = true := spaces c rfl
    by_cases blank : c = ' '
    · subst blank
      exact ⟨[' '], url, fun tabstop => rfl, .char (by decide), by decide, no_blank, rfl,
        fun c member => .inr member, fun c member => member⟩
    · have other : (c :: url).head? ≠ some ' ' := fun same => blank (Option.some.inj same)
      refine ⟨[], c :: url, fun tabstop => ?_, .nil, rfl, fun member => ?_, ?_, fun c' member => ?_,
        fun c member => .tail _ member⟩
      · simp [doSub, blank]
      · exact (List.mem_cons.mp member).elim (fun same => blank same.symm) no_blank
      · exact List.filter_cons_of_neg (by simp [visible, space])
      · rcases List.mem_cons.mp member with rfl | member
        · exact .inl space
        · exact .inr member

theorem shows_last {last : Option Char} (space : ∀ c ∈ last, isSpace c = true) : ∃ shown,
    Shows (if last = some '\n' ∨ last = some '\r' then "<br>".toList else last.toList) shown ∧
      shown.filter visible = [] := by
  split
  · exact ⟨[], .tag (by decide), rfl⟩
  · cases last with
    | none => exact ⟨[], .nil, rfl⟩
    | some c =>
      have plain := space_plain (space c rfl)
      exact ⟨[c], .char ⟨plain.1, plain.2.1, plain.2.2.1⟩, by simp [visible, space c rfl]⟩

theorem entity_visible : ∀ e ∈ entities, ∀ c ∈ e.1, visible c = true := by
  have all : (entities.all fun e => e.1.all visible) = true := by decide
  exact fun e known c inside => List.all_eq_true.mp (List.all_eq_true.mp all e known) c inside

/-- A URL is shown as it is only if it has no markup, and nothing else is shown for it. -/
theorem piece_of_protocol (tabstop : Nat) {before last : Option Char} {url : List Char}
    (wellFormed : (Match.protocol before url last).WellFormed) :
    Piece (Match.protocol before url last).source (doSub tabstop (.protocol before url last))
      (Match.protocol before url last).Clean := by
  obtain ⟨leading, address, html_eq, shows_leading, nothing, no_blank, same, chars, whole⟩ :=
    address_spec wellFormed
  obtain ⟨shown_last, shows_last, nothing_last⟩ := shows_last wellFormed.2.2
  have source_visible : (Match.protocol before url last).source.filter visible = url.filter visible := by
    have spaces (c : Option Char) (all : ∀ x ∈ c, isSpace x = true) : c.toList.filter visible = [] :=
      filter_spaces fun x member => all x (by simpa using member)
    simp only [Match.source, List.filter_append, spaces before wellFormed.1, spaces last wellFormed.2.2,
      List.nil_append, List.append_nil]
  have shows {read : List Char} (value : Value address read) :
      Shows (doSub tabstop (.protocol before url last)) (leading ++ (read ++ shown_last)) := by
    have all := shows_leading.append (value.shows_link.append (value.shows_read.append
      ((Shows.tag (by decide : "</a>".toList ∈ tags)).append shows_last)))
    rw [html_eq]
    simpa only [List.append_assoc, List.nil_append] using all
  have shown_visible (read : List Char) : (leading ++ (read ++ shown_last)).filter visible =
      read.filter visible := by
    rw [List.filter_append, List.filter_append, nothing, nothing_last, List.nil_append, List.append_nil]
  constructor
  · intro more seen reads
    rw [html_eq, List.append_assoc] at reads
    obtain ⟨seen', _, reads'⟩ := (shows_leading _ _).mp reads
    simp only [List.append_assoc] at reads'
    obtain ⟨read, value⟩ := reads'.of_link no_blank
    obtain ⟨fewer, no_amp⟩ := value.length_read visible entity_visible
    refine ⟨leading ++ (read ++ shown_last), shows value, ?_, fun equal c member => ?_⟩
    · rwa [shown_visible, source_visible, ← same]
    · rw [shown_visible, source_visible, ← same] at equal
      have plain := value.chars c (whole c member)
      exact ⟨plain.1, plain.2.1, fun amp => no_amp equal (amp ▸ whole c member), plain.2.2⟩
  · intro clean
    have value : Value address address := .of_plain fun c member =>
      (chars c member).elim space_plain (clean c)
    exact ⟨_, shows value, (shown_visible address).trans (same.trans source_visible.symm)⟩

theorem piece_of_match (tabstop : Nat) {m : Match} (wellFormed : m.WellFormed) :
    Piece m.source (doSub tabstop m) m.Clean := by
  cases m with
  | htmlchars c =>
    have known : (escape c, c) ∈ entities := by rcases wellFormed with rfl | rfl | rfl <;> decide
    exact .of_shows (.entity known) rfl trivial
  | space run =>
    obtain ⟨shown, shows, nothing⟩ := shows_run tabstop wellFormed
    refine .of_shows shows (nothing.trans (filter_spaces fun c member => ?_).symm) trivial
    have kind := wellFormed c member
    rw [blank, decide_eq_true_eq] at kind
    rcases kind with rfl | rfl <;> rfl
  | lineend => exact .of_shows (.tag (by decide : "<br>".toList ∈ tags)) rfl trivial
  | other c => exact .of_shows (.char ⟨wellFormed.1, wellFormed.2.2, wellFormed.2.1⟩) rfl trivial
  | protocol before url last => exact piece_of_protocol tabstop wellFormed

theorem scan_spec (lineStarts : Bool) (text : List Char) :
    (scan lineStarts text).flatMap Match.source = text ∧ ∀ m ∈ scan lineStarts text, m.WellFormed := by
  induction length : text.length using Nat.strongRecOn generalizing lineStarts text with
  | ind n ih =>
    cases text with
    | nil =>
      rw [scan]
      exact ⟨rfl, fun m member => nomatch member⟩
    | cons c text =>
      subst length
      obtain ⟨source, wellFormed, fewer⟩ := next_spec lineStarts c text
      obtain ⟨rest, others⟩ := ih _ (Nat.lt_succ_of_le fewer) (next lineStarts c text).2.1 _ rfl
      rw [scan]
      refine ⟨?_, fun m member => ?_⟩
      · rw [List.flatMap_cons, rest, source]
      · rcases List.mem_cons.mp member with rfl | member
        · exact wellFormed
        · exact others m member

theorem piece_of_paragraph (tabstop : Nat) (p : List Char) :
    Piece p (paragraph tabstop p) (∀ m ∈ scan true p, m.Clean) := by
  obtain ⟨source, wellFormed⟩ := scan_spec true p
  have inner := Piece.flatMap Match.source (doSub tabstop) Match.Clean (scan true p) fun m member =>
    piece_of_match tabstop (wellFormed m member)
  have start : Piece [] "<p>".toList True := .of_shows (.tag (by decide)) rfl trivial
  have stop : Piece [] "</p>".toList True := .of_shows (.tag (by decide)) rfl trivial
  have whole := start.append (inner.append stop)
  rwa [source, List.nil_append, List.append_nil, true_and, and_true] at whole

theorem piece_of_paragraphs (tabstop : Nat) (ps : List (List Char)) :
    Piece ps.flatten (['\n'].intercalate (ps.map (paragraph tabstop)))
      (∀ p ∈ ps, ∀ m ∈ scan true p, m.Clean) := by
  induction ps with
  | nil => exact .of_shows .nil rfl fun p member => nomatch member
  | cons p ps ih =>
    have first := piece_of_paragraph tabstop p
    cases ps with
    | nil =>
      rw [List.map_singleton, List.intercalate_singleton, List.flatten_singleton]
      simpa using first
    | cons p' ps =>
      have newline : Piece [] ['\n'] True := .of_shows (.char (by decide)) rfl trivial
      have whole := first.append (newline.append ih)
      have all : (∀ q ∈ p :: p' :: ps, ∀ m ∈ scan true q, m.Clean) ↔ (∀ m ∈ scan true p, m.Clean) ∧
          ∀ q ∈ p' :: ps, ∀ m ∈ scan true q, m.Clean := List.forall_mem_cons
      rw [true_and, List.nil_append, ← List.append_assoc (paragraph tabstop p), ← all] at whole
      rw [List.map_cons, List.map_cons, List.intercalate_cons_cons, ← List.map_cons]
      exact whole

theorem filter_paragraphs (text : List Char) :
    ((paragraphs text).flatten).filter visible = text.filter visible := by
  induction text using paragraphs.induct with
  | case1 => rfl
  | case2 text ih =>
    have skipped : ('\n' :: '\n' :: text).filter visible = text.filter visible := by
      rw [List.filter_cons_of_neg (by decide), List.filter_cons_of_neg (by decide)]
    rw [paragraphs, List.flatten_cons, List.nil_append, ih, skipped]
  | case3 c text single empty ih =>
    rw [empty, List.flatten_nil, List.filter_nil] at ih
    have alone : paragraphs (c :: text) = [[c]] := by
      rw [paragraphs, empty]
      exact single
    rw [alone, List.flatten_singleton, List.filter_cons, List.filter_cons, ← ih, List.filter_nil]
  | case4 c text single p ps here ih =>
    rw [here, List.flatten_cons] at ih
    have longer : paragraphs (c :: text) = (c :: p) :: ps := by
      rw [paragraphs, here]
      exact single
    rw [longer, List.flatten_cons, List.cons_append, List.filter_cons, List.filter_cons, ih]

theorem displays_iff_unmarked (text : List Char) (tabstop : Nat) :
    (∀ html ∈ plaintext2html text tabstop, Displays text html) ↔ '\r' ∈ text ∨ Unmarked text := by
  unfold plaintext2html
  split
  next cr => exact iff_of_true (fun html none_html => nomatch none_html) (.inl cr)
  next no_cr =>
    have whole := piece_of_paragraphs tabstop (paragraphs text)
    rw [or_iff_right no_cr, Unmarked, ← whole.displays_iff]
    unfold Displays
    rw [filter_paragraphs]
    constructor
    · exact fun each => each _ rfl
    · rintro shows _ ⟨⟩
      exact shows

/-- A link with a tag of its own. -/
def linkText : List Char := 'h' :: "ttp://a\"><b>".toList

theorem url_brings_markup : ∃ text html, plaintext2html text 0 = some html ∧ ¬ Displays text html := by
  refine ⟨linkText, _, if_neg (by decide), fun displays => ?_⟩
  have link : next true 'h' "ttp://a\"><b>".toList = (.protocol none linkText none, false, []) := rfl
  have found : .protocol none linkText none ∈ scan true linkText := by
    rw [linkText, scan, link]
    exact List.mem_cons_self
  have one : paragraphs linkText = [linkText] := rfl
  have whole := (piece_of_paragraphs 0 [linkText]).displays_iff
  rw [List.flatten_singleton] at whole
  rw [one] at displays
  have clean := whole.mp displays linkText List.mem_cons_self _ found
  exact (clean '<' (by decide)).1 rfl

end SyncEngine.PlaintextHtml
