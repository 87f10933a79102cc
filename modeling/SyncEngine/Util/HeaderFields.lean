import Mathlib.Data.List.DropRight
import Mathlib.Data.List.TakeWhile

/-! The lines of a text, and the header fields and the body of a message that is given as lines. -/
namespace SyncEngine.HeaderFields

section Lines
variable {α : Type} (ends : α → Bool)

/-- The lines with what ends them. The last one may have no end. -/
def lines : List α → List (List α)
  | [] => []
  | c :: text =>
    if ends c then [c] :: lines text
    else
      match lines text with
      | [] => [[c]]
      | l :: ls => (c :: l) :: ls

variable {ends}

def Free (ends : α → Bool) (l : List α) : Prop := ∀ c ∈ l, ends c = false

theorem lines_of_free {l : List α} (some_char : l ≠ []) (free : Free ends l) : lines ends l = [l] := by
  induction l with
  | nil => exact absurd rfl some_char
  | cons c l ih =>
    unfold lines
    rw [if_neg (Bool.eq_false_iff.mp (free c List.mem_cons_self))]
    cases l with
    | nil => rfl
    | cons c' l => rw [ih (List.cons_ne_nil _ _) fun c member => free c (.tail _ member)]

theorem lines_append {l : List α} {c : α} (free : Free ends l) (end_of_line : ends c = true)
    (text : List α) : lines ends (l ++ c :: text) = (l ++ [c]) :: lines ends text := by
  induction l with
  | nil => exact if_pos end_of_line
  | cons c' l ih =>
    rw [List.cons_append, lines, if_neg (Bool.eq_false_iff.mp (free c' List.mem_cons_self)),
      ih fun c member => free c (.tail _ member)]
    rfl

variable (ends) in
/-- A text is empty, one line without its end, or a line and another text. -/
@[elab_as_elim]
theorem lines_induction {motive : List α → Prop} (empty : motive [])
    (unfinished : ∀ l, l ≠ [] → Free ends l → motive l)
    (line : ∀ l c text, Free ends l → ends c = true → motive text → motive (l ++ c :: text))
    (text : List α) : motive text := by
  have all : ∀ n, ∀ text : List α, text.length ≤ n → motive text := by
    intro n
    induction n with
    | zero => exact fun text short => List.eq_nil_of_length_eq_zero (Nat.le_zero.mp short) ▸ empty
    | succ n ih =>
      intro text short
      by_cases free : Free ends text
      · by_cases some_char : text = []
        · exact some_char ▸ empty
        · exact unfinished text some_char free
      · obtain ⟨c, member, end_of_line⟩ : ∃ c ∈ text, ends c = true := by simpa [Free] using free
        have cut := List.takeWhile_append_dropWhile (p := (!ends ·)) (l := text)
        cases rest : text.dropWhile (!ends ·) with
        | nil =>
          have all_free := List.dropWhile_eq_nil_iff.mp rest c member
          simp [end_of_line] at all_free
        | cons c' rest' =>
          have ends' : ends c' = true := by
            have := List.head?_dropWhile_not (!ends ·) text
            rw [rest] at this
            simpa using this
          rw [rest] at cut
          have shorter : rest'.length ≤ n := by
            have := congrArg List.length cut
            simp only [List.length_append, List.length_cons] at this
            omega
          rw [← cut]
          refine line _ c' rest' (fun c member => ?_) ends' (ih rest' shorter)
          simpa using List.mem_takeWhile_imp member
  exact all text.length text (Nat.le_refl _)

variable (ends) in
theorem lines_cons {c : α} (inside : ends c = false) (text : List α) :
    ∃ l ls, lines ends (c :: text) = (c :: l) :: ls := by
  rw [lines, if_neg (Bool.eq_false_iff.mp inside)]
  cases lines ends text with
  | nil => exact ⟨[], [], rfl⟩
  | cons l ls => exact ⟨l, ls, rfl⟩

/-- What is in front of the first line is part of it. -/
theorem lines_free_append {start : List α} (free : Free ends start) {text l : List α} {ls : List (List α)}
    (rest : lines ends text = l :: ls) : lines ends (start ++ text) = (start ++ l) :: ls := by
  induction start with
  | nil => exact rest
  | cons c start ih =>
    rw [List.cons_append, lines, if_neg (Bool.eq_false_iff.mp (free c List.mem_cons_self)),
      ih fun c member => free c (.tail _ member)]
    rfl

variable (ends) in
/-- A text as its finished lines and the start of the line that goes on. -/
theorem lines_split (text : List α) : ∃ (ls : List (List α)) (start : List α), Free ends start ∧
    text = ls.flatten ++ start ∧ (∀ l ∈ ls, ∃ l' c, l = l' ++ [c] ∧ ends c = true) ∧
      ∀ more, lines ends (text ++ more) = ls ++ lines ends (start ++ more) := by
  induction text using lines_induction ends with
  | empty =>
    exact ⟨[], [], fun c member => (nomatch member), rfl, fun l member => (nomatch member), fun _ => rfl⟩
  | unfinished l some_char free => exact ⟨[], l, free, rfl, fun l member => (nomatch member), fun _ => rfl⟩
  | line l c text free end_of_line ih =>
    obtain ⟨ls, start, free', same, finished, split⟩ := ih
    refine ⟨(l ++ [c]) :: ls, start, free', by simp [same], fun l' member => ?_, fun more => ?_⟩
    · rcases List.mem_cons.mp member with rfl | member
      · exact ⟨l, c, rfl, end_of_line⟩
      · exact finished l' member
    · rw [List.append_assoc, List.cons_append, lines_append free end_of_line, split, List.cons_append]

/-- Lines that are left out leave the others as they are. -/
theorem lines_filter (keeps : List α → Bool) (text : List α) :
    lines ends ((lines ends text).filter keeps).flatten = (lines ends text).filter keeps := by
  induction text using lines_induction ends with
  | empty => rfl
  | unfinished l some_char free =>
    rw [lines_of_free some_char free, List.filter_singleton]
    cases keeps l with
    | false => rfl
    | true => exact (congrArg (lines ends) List.flatten_singleton).trans (lines_of_free some_char free)
  | line l c text free end_of_line ih =>
    rw [lines_append free end_of_line, List.filter_cons]
    split
    · rw [List.flatten_cons, List.append_assoc, List.singleton_append, lines_append free end_of_line, ih]
    · exact ih

end Lines

/-! ## Messages -/

abbrev Line := List Char

def textLines (text : List Char) : List Line := lines (· = '\n') text

/-- The line between the header and the body. -/
def blank (l : Line) : Bool := l = ['\n'] ∨ l = ['\r', '\n']

def headerLines (ls : List Line) : List Line := ls.takeWhile (!blank ·)

/-- The body, with the blank line in front. -/
def bodyLines (ls : List Line) : List Line := ls.dropWhile (!blank ·)

/-- The line continues the field above it. -/
def continues (l : Line) : Bool := l.head? = some ' ' ∨ l.head? = some '\t'

structure Field where
  first : Line
  folds : List Line
deriving DecidableEq

namespace Field

def lines (f : Field) : List Line := f.first :: f.folds

/-- The name up to a colon, without white space behind it. -/
def isNamed (name : List Char) (f : Field) : Bool :=
  ':' ∈ f.first ∧
    ((f.first.takeWhile (· ≠ ':')).rdropWhile fun c => c = ' ' ∨ c = '\t').map Char.toLower = name

end Field

def fields : List Line → List Field
  | [] => []
  | l :: ls =>
    match fields ls with
    | [] => [⟨l, []⟩]
    | f :: fs => if continues f.first then ⟨l, f.lines⟩ :: fs else ⟨l, []⟩ :: f :: fs

/-- A line without what ends it. -/
def chomp (l : Line) : Line :=
  if l.getLast? = some '\n' then
    if l.dropLast.getLast? = some '\r' then l.dropLast.dropLast else l.dropLast
  else l

theorem chomp_concat (l : Line) (c : Char) : chomp (l ++ [c]) =
    if c = '\n' then (if l.getLast? = some '\r' then l.dropLast else l) else l ++ [c] := by
  simp only [chomp, List.getLast?_concat, List.dropLast_concat, Option.some.injEq]

/-- The text of a field on one line. -/
def Field.unfold (f : Field) : List Char := (f.lines.map chomp).flatten

def headerFields (text : List Char) : List Field := fields (headerLines (textLines text))

def body (text : List Char) : List Char := (bodyLines (textLines text)).flatten

theorem flatMap_fields (ls : List Line) : (fields ls).flatMap Field.lines = ls := by
  induction ls with
  | nil => rfl
  | cons l ls ih =>
    unfold fields
    cases here : fields ls with
    | nil =>
      rw [here] at ih
      rw [← ih]
      rfl
    | cons f fs =>
      rw [here, List.flatMap_cons] at ih
      dsimp only
      split
      · rw [List.flatMap_cons, ← ih]
        rfl
      · rw [List.flatMap_cons, List.flatMap_cons, ih]
        rfl

/-- Only the first field of a list may begin with a line that continues nothing above it. -/
structure Grouped (fs : List Field) : Prop where
  begins : ∀ f ∈ fs.tail, continues f.first = false
  folds : ∀ f ∈ fs, ∀ l ∈ f.folds, continues l = true

theorem grouped_fields (ls : List Line) : Grouped (fields ls) := by
  induction ls with
  | nil => exact ⟨fun f member => (nomatch member), fun f member => (nomatch member)⟩
  | cons l ls ih =>
    unfold fields
    cases here : fields ls with
    | nil =>
      refine ⟨fun f member => (nomatch member), fun f member l' fold => ?_⟩
      obtain rfl := List.mem_singleton.mp member
      cases fold
    | cons f fs =>
      rw [here] at ih
      dsimp only
      split
      next goes_on =>
        refine ⟨ih.begins, fun f' member l' fold => ?_⟩
        rcases List.mem_cons.mp member with rfl | member
        · rcases List.mem_cons.mp fold with rfl | fold
          · exact goes_on
          · exact ih.folds f List.mem_cons_self l' fold
        · exact ih.folds f' (.tail _ member) l' fold
      next starts =>
        refine ⟨fun f' member => ?_, fun f' member l' fold => ?_⟩
        · rcases List.mem_cons.mp member with rfl | member
          · exact Bool.eq_false_iff.mpr starts
          · exact ih.begins f' member
        · rcases List.mem_cons.mp member with rfl | member
          · cases fold
          · exact ih.folds f' member l' fold

/-- A field is read from its lines and what comes after it. -/
theorem fields_cons {folds ls : List Line} (all : ∀ l ∈ folds, continues l = true)
    (begins : ∀ f ∈ (fields ls).head?, continues f.first = false) (first : Line) :
    fields (first :: (folds ++ ls)) = ⟨first, folds⟩ :: fields ls := by
  induction folds generalizing first with
  | nil =>
    rw [List.nil_append, fields]
    cases here : fields ls with
    | nil => rfl
    | cons f fs =>
      have starts : continues f.first = false := begins f (here ▸ rfl)
      simp only [starts, Bool.false_eq_true, ↓reduceIte]
  | cons fold folds ih =>
    rw [List.cons_append, fields, ih (fun l member => all l (.tail _ member)) fold]
    exact if_pos (all fold List.mem_cons_self)

/-- Fields are read back from all their lines. -/
theorem fields_flatMap {fs : List Field} (grouped : Grouped fs) : fields (fs.flatMap Field.lines) = fs := by
  induction fs with
  | nil => rfl
  | cons f fs ih =>
    have rest := ih ⟨fun f' member => grouped.begins f' (List.mem_of_mem_tail member),
      fun f' member => grouped.folds f' (.tail _ member)⟩
    have begins : ∀ f' ∈ (fields (fs.flatMap Field.lines)).head?, continues f'.first = false := by
      rw [rest]
      exact fun f' first => grouped.begins f' (List.mem_of_head? first)
    have lines_cons : (f :: fs).flatMap Field.lines = f.first :: (f.folds ++ fs.flatMap Field.lines) := rfl
    rw [lines_cons, fields_cons (grouped.folds f List.mem_cons_self) begins, rest]

theorem headerLines_cons {l : Line} (full : blank l = false) (ls : List Line) :
    headerLines (l :: ls) = l :: headerLines ls ∧ bodyLines (l :: ls) = bodyLines ls := by
  simp [headerLines, bodyLines, full]

theorem headerLines_cons_blank {l : Line} (empty : blank l = true) (ls : List Line) :
    headerLines (l :: ls) = [] ∧ bodyLines (l :: ls) = l :: ls := by
  simp [headerLines, bodyLines, empty]

theorem length_bodyLines_le (ls : List Line) : (bodyLines ls).flatten.length ≤ ls.flatten.length := by
  obtain ⟨front, whole⟩ : bodyLines ls <:+ ls := List.dropWhile_suffix _
  have lengths := congrArg (fun ls => ls.flatten.length) whole
  simp only [List.flatten_append, List.length_append] at lengths
  omega

theorem headerLines_append {ls : List Line} (full : ∀ l ∈ ls, blank l = false) (more : List Line) :
    headerLines (ls ++ more) = ls ++ headerLines more ∧ bodyLines (ls ++ more) = bodyLines more := by
  have all : ∀ l ∈ ls, (!blank l) = true := fun l member => by rw [full l member, Bool.not_false]
  exact ⟨List.takeWhile_append_of_pos all, List.dropWhile_append_of_pos all⟩

theorem headerLines_append_blank {ls : List Line} {l : Line} (member : l ∈ ls) (empty : blank l = true)
    (more : List Line) : headerLines (ls ++ more) = headerLines ls ∧
      bodyLines (ls ++ more) = bodyLines ls ++ more := by
  induction ls with
  | nil => cases member
  | cons l' ls ih =>
    unfold headerLines bodyLines at ih ⊢
    cases empty' : blank l' with
    | true => simp [empty']
    | false =>
      have later : l ∈ ls := by
        rcases List.mem_cons.mp member with rfl | later
        · exact absurd empty (Bool.eq_false_iff.mp empty')
        · exact later
      simp [empty', ih later]

/-- The header and the body without some lines that are not blank. -/
theorem headerLines_filter {keeps : Line → Bool} (blanks : ∀ l, blank l = true → keeps l = true)
    (ls : List Line) : headerLines (ls.filter keeps) = (headerLines ls).filter keeps ∧
      bodyLines (ls.filter keeps) = (bodyLines ls).filter keeps := by
  induction ls with
  | nil => exact ⟨rfl, rfl⟩
  | cons l ls ih =>
    unfold headerLines bodyLines at ih ⊢
    cases empty : blank l with
    | true => simp [blanks l empty, empty]
    | false => cases kept : keeps l <;> simp [kept, empty, ih]

end SyncEngine.HeaderFields
