import Mathlib.Data.List.Forall2
import SyncEngine.Util.HeaderFields

/-! The folding of the `References` header in the text of an outgoing message: where it is looked for, and
when all other header fields and the body come out as they were. -/
namespace SyncEngine.ReferencesFolding
open HeaderFields

/-- `text.find(stem, start)` -/
def find (stem text : List Char) (start : Nat) : Option Nat :=
  (List.range (text.length + 1)).find? fun i => start ≤ i ∧ stem <+: text.drop i

/-- `replace` with the separator. -/
def foldTabs (text : List Char) : List Char := text.flatMap fun c => if c = '\t' then ['\n', '\t'] else [c]

def references : List Char := "References: ".toList

/-- Where the folding begins and ends. Without a line end `find` returns -1, which as the end of a slice is in
front of the last character. -/
def segment (msgstring : List Char) : Option (Nat × Nat) :=
  (find references msgstring 0).map fun start =>
    (start, (find ['\r', '\n'] msgstring (start + references.length)).getD (msgstring.length - 1))

/-- `_rfc_transform` on the text of the message. -/
def rfcTransform (msgstring : List Char) : List Char :=
  match segment msgstring with
  | none => msgstring
  | some (start, stop) =>
    let substring := (msgstring.take stop).drop start
    msgstring.take start ++ foldTabs substring ++ msgstring.drop stop

/-- The header fields, each on one line, and the body. -/
def parse (text : List Char) : List (List Char) × List Char :=
  ((headerFields text).map Field.unfold, body text)

/-- A tab that comes after this text is inside of a line of the header, and not behind a CR. -/
structure Inside (before : List Char) : Prop where
  header : ∀ l ∈ textLines before, blank l = false
  last : ∃ c ∈ before.getLast?, c ≠ '\r' ∧ c ≠ '\n'

/-! ## One line break -/

section Break
variable {ls : List Line} {start : List Char}

theorem chomp_append (start text : List Char) :
    chomp (start ++ '\t' :: text) = start ++ chomp ('\t' :: text) := by
  rcases List.eq_nil_or_concat text with rfl | ⟨text, c, rfl⟩
  · simp [chomp]
  · have last : (start ++ '\t' :: text).getLast? = ('\t' :: text).getLast? :=
      List.getLast?_append_of_ne_nil _ (List.cons_ne_nil _ _)
    have drop : (start ++ '\t' :: text).dropLast = start ++ ('\t' :: text).dropLast :=
      List.dropLast_append_of_ne_nil (List.cons_ne_nil _ _)
    have whole := chomp_concat (start ++ '\t' :: text) c
    have part := chomp_concat ('\t' :: text) c
    rw [List.append_assoc, last, drop] at whole
    rw [List.concat_eq_append, ← List.cons_append, whole, part]
    split <;> [split; skip] <;> simp

theorem blank_of_tab {l : Line} (tab : '\t' ∈ l) : blank l = false := by
  rw [blank, decide_eq_false_iff_not]
  rintro (rfl | rfl) <;> revert tab <;> decide

theorem blank_of_free {l : Line} (free : Free (· = '\n') l) : blank l = false := by
  rw [blank, decide_eq_false_iff_not]
  rintro (rfl | rfl)
  · exact absurd (free '\n' (by simp)) (by decide)
  · exact absurd (free '\n' (by simp)) (by decide)

/-- What a tab comes after, by the lines that are finished and the one that goes on. -/
theorem inside_iff (free : Free (· = '\n') start)
    (finished : ∀ l ∈ ls, ∃ l' c, l = l' ++ [c] ∧ decide (c = '\n') = true)
    (split : textLines (ls.flatten ++ start) = ls ++ textLines start) :
    Inside (ls.flatten ++ start) ↔
      (∀ l ∈ ls, blank l = false) ∧ start ≠ [] ∧ start.getLast? ≠ some '\r' := by
  constructor
  · rintro ⟨header, c, last, not_cr, not_lf⟩
    rw [split] at header
    refine ⟨fun l member => header l (List.mem_append_left _ member), ?_, ?_⟩
    · rintro rfl
      rw [List.append_nil] at last
      rcases List.eq_nil_or_concat ls with rfl | ⟨ls', l, rfl⟩
      · cases last
      · obtain ⟨l', c', rfl, end_of_line⟩ := finished l (by simp)
        rw [List.concat_eq_append, List.flatten_append, List.flatten_singleton, ← List.append_assoc,
          List.getLast?_concat] at last
        obtain rfl := Option.some.inj last
        exact not_lf (of_decide_eq_true end_of_line)
    · intro cr
      have some_char : start ≠ [] := by
        rintro rfl
        cases cr
      rw [List.getLast?_append_of_ne_nil _ some_char, cr] at last
      exact not_cr (Option.some.inj last).symm
  · rintro ⟨full, some_char, not_cr⟩
    have last : start.getLast? = some (start.getLast some_char) := List.getLast?_eq_some_getLast some_char
    refine ⟨fun l member => ?_, start.getLast some_char, ?_, fun cr => not_cr (cr ▸ last), ?_⟩
    · rw [split, textLines, lines_of_free some_char free, List.mem_append, List.mem_singleton] at member
      rcases member with member | rfl
      · exact full l member
      · exact blank_of_free free
    · rw [List.getLast?_append_of_ne_nil _ some_char]
      exact last
    · exact of_decide_eq_false (free _ (List.getLast_mem some_char))

/-- All that is in the fields of some lines. -/
def unfoldedLength (ls : List Line) : Nat := (ls.map chomp).flatten.length

theorem unfoldedLength_fields (ls : List Line) :
    ((fields ls).map Field.unfold).flatten.length = unfoldedLength ls := by
  have all (fs : List Field) :
      (fs.map Field.unfold).flatten = ((fs.flatMap Field.lines).map chomp).flatten := by
    induction fs with
    | nil => rfl
    | cons f fs ih =>
      rw [List.map_cons, List.flatten_cons, ih, List.flatMap_cons, List.map_append, List.flatten_append]
      rfl
  rw [all, flatMap_fields, unfoldedLength]

/-- Fields that are read alike. -/
def Alike (fs fs' : List Field) : Prop := List.Forall₂ (fun f f' => f.unfold = f'.unfold ∧
  continues f.first = continues f'.first) fs fs'

theorem alike_unfold {fs fs' : List Field} (alike : Alike fs fs') :
    fs.map Field.unfold = fs'.map Field.unfold := by
  induction alike with
  | nil => rfl
  | cons same _ ih => rw [List.map_cons, List.map_cons, ih, same.1]

theorem alike_cons {ls ls' : List Line} (alike : Alike (fields ls) (fields ls')) (l : Line) :
    Alike (fields (l :: ls)) (fields (l :: ls')) := by
  rw [fields, fields]
  generalize fields ls = fs at alike ⊢
  generalize fields ls' = fs' at alike ⊢
  cases alike with
  | nil => exact .cons ⟨rfl, rfl⟩ .nil
  | @cons f f' fs fs' same rest =>
    obtain ⟨unfolded, continued⟩ := same
    dsimp only
    rw [continued]
    split
    · refine .cons ⟨?_, rfl⟩ rest
      exact congrArg (chomp l ++ ·) unfolded
    · exact .cons ⟨rfl, rfl⟩ (.cons ⟨unfolded, continued⟩ rest)

theorem alike_break {a b c : Line} (continued : continues b = true) (same : continues a = continues c)
    (whole : chomp a ++ chomp b = chomp c) (ls : List Line) :
    Alike (fields (a :: b :: ls)) (fields (c :: ls)) := by
  have refl (fs : List Field) : Alike fs fs := List.forall₂_same.mpr fun f _ => ⟨rfl, rfl⟩
  have joined (folds : List Line) : Field.unfold ⟨a, b :: folds⟩ = Field.unfold ⟨c, folds⟩ := by
    simp [Field.unfold, Field.lines, ← whole]
  rw [fields, fields, fields]
  cases fields ls with
  | nil =>
    dsimp only
    rw [if_pos continued]
    exact .cons ⟨joined [], same⟩ .nil
  | cons f fs =>
    dsimp only
    cases further : continues f.first with
    | true =>
      rw [if_pos rfl, if_pos rfl]
      dsimp only
      rw [if_pos continued]
      exact .cons ⟨joined f.lines, same⟩ (refl fs)
    | false =>
      rw [if_neg Bool.false_ne_true, if_neg Bool.false_ne_true]
      dsimp only
      rw [if_pos continued]
      exact .cons ⟨joined [], same⟩ (refl (f :: fs))

end Break

/-- How much more there is in the body than in the fields. Each line break that does harm adds to it. -/
def excess (text : List Char) : Int := (parse text).2.length - ((parse text).1.flatten.length : Int)

/-- The same of lines. -/
def lineExcess (ls : List Line) : Int := (bodyLines ls).flatten.length - (unfoldedLength (headerLines ls) : Int)

theorem excess_eq (text : List Char) : excess text = lineExcess (textLines text) := by
  rw [excess, parse, headerFields, unfoldedLength_fields]
  rfl

theorem unfoldedLength_append (ls ls' : List Line) :
    unfoldedLength (ls ++ ls') = unfoldedLength ls + unfoldedLength ls' := by
  rw [unfoldedLength, List.map_append, List.flatten_append, List.length_append]
  rfl

theorem unfoldedLength_cons (l : Line) (ls : List Line) :
    unfoldedLength (l :: ls) = (chomp l).length + unfoldedLength ls := by
  rw [unfoldedLength, List.map_cons, List.flatten_cons, List.length_append]
  rfl

/-- The lines around a tab, before and after a line break is put in front of it. -/
theorem lines_break (before rest : List Char) : ∃ (ls : List Line) (start l : List Char) (ls' : List Line),
    (Inside before ↔ (∀ l ∈ ls, blank l = false) ∧ start ≠ [] ∧ start.getLast? ≠ some '\r') ∧
    textLines (before ++ '\t' :: rest) = ls ++ (start ++ '\t' :: l) :: ls' ∧
    textLines (before ++ '\n' :: '\t' :: rest) = ls ++ (start ++ ['\n']) :: ('\t' :: l) :: ls' ∧
    Free (· = '\n') start := by
  obtain ⟨ls, start, free, rfl, finished, split⟩ := lines_split (· = '\n') before
  obtain ⟨l, ls', first⟩ := lines_cons (· = '\n') (c := '\t') rfl rest
  refine ⟨ls, start, l, ls', ?_, ?_, ?_, free⟩
  · have parts := split []
    rw [List.append_nil, List.append_nil] at parts
    exact inside_iff free finished parts
  · rw [textLines, split, lines_free_append free first]
  · rw [textLines, split, lines_append free rfl, first]

theorem parse_break {before : List Char} (inside : Inside before) (rest : List Char) :
    parse (before ++ '\n' :: '\t' :: rest) = parse (before ++ '\t' :: rest) := by
  obtain ⟨ls, start, l, ls', inside_iff, one, two, free⟩ := lines_break before rest
  obtain ⟨full, some_char, not_cr⟩ := inside_iff.mp inside
  have whole : blank (start ++ '\t' :: l) = false := blank_of_tab (by simp)
  have first : blank (start ++ ['\n']) = false := by
    rw [blank, decide_eq_false_iff_not]
    rintro (empty | cr)
    · exact some_char (by simpa using empty)
    · have alone : start ++ ['\n'] = ['\r'] ++ ['\n'] := cr
      obtain rfl := List.append_cancel_right alone
      exact not_cr rfl
  have second : blank ('\t' :: l) = false := blank_of_tab (by simp)
  obtain ⟨header, rest_body⟩ := headerLines_append full ((start ++ '\t' :: l) :: ls')
  obtain ⟨header', rest_body'⟩ := headerLines_append full ((start ++ ['\n']) :: ('\t' :: l) :: ls')
  obtain ⟨tail, tail_body⟩ := headerLines_cons whole ls'
  obtain ⟨tail', tail_body'⟩ := headerLines_cons first (('\t' :: l) :: ls')
  obtain ⟨tail'', tail_body''⟩ := headerLines_cons second ls'
  have starts : continues (start ++ ['\n']) = continues (start ++ '\t' :: l) := by
    cases start with
    | nil => exact absurd rfl some_char
    | cons c start => rfl
  have same : chomp (start ++ ['\n']) ++ chomp ('\t' :: l) = chomp (start ++ '\t' :: l) := by
    rw [chomp_append, chomp_concat, if_pos rfl, if_neg not_cr]
  have alike : Alike (fields (ls ++ (start ++ ['\n']) :: ('\t' :: l) :: headerLines ls'))
      (fields (ls ++ (start ++ '\t' :: l) :: headerLines ls')) := by
    clear header header' rest_body rest_body' one two inside_iff full
    induction ls with
    | nil => exact alike_break rfl starts same (headerLines ls')
    | cons l' ls ih => exact alike_cons ih l'
  have unfolded := alike_unfold alike
  rw [parse, parse, headerFields, headerFields, body, body, one, two, header, header', rest_body, rest_body',
    tail, tail_body, tail', tail_body', tail'', tail_body'', unfolded]

/-- A line break in the body makes it longer. -/
theorem excess_break_body {ls : List Line} {l' : Line} (member : l' ∈ ls) (empty : blank l' = true)
    (start l : List Char) (ls' : List Line) :
    lineExcess (ls ++ (start ++ '\t' :: l) :: ls') <
      lineExcess (ls ++ (start ++ ['\n']) :: ('\t' :: l) :: ls') := by
  obtain ⟨header, body⟩ := headerLines_append_blank member empty ((start ++ '\t' :: l) :: ls')
  obtain ⟨header', body'⟩ := headerLines_append_blank member empty ((start ++ ['\n']) :: ('\t' :: l) :: ls')
  rw [lineExcess, lineExcess, header, header', body, body']
  simp only [List.flatten_append, List.flatten_cons, List.length_append, List.length_cons, List.length_nil]
  omega

/-- A line break in the header that makes its line blank ends the header. -/
theorem excess_break_blank {start : List Char} (first : blank (start ++ ['\n']) = true) (l : List Char)
    (ls' : List Line) :
    lineExcess ((start ++ '\t' :: l) :: ls') < lineExcess ((start ++ ['\n']) :: ('\t' :: l) :: ls') := by
  obtain ⟨header, body⟩ := headerLines_cons (blank_of_tab (by simp) : blank (start ++ '\t' :: l) = false) ls'
  obtain ⟨header', body'⟩ := headerLines_cons_blank first (('\t' :: l) :: ls')
  have less := length_bodyLines_le ls'
  rw [lineExcess, lineExcess, header, header', body, body', unfoldedLength_cons, chomp_append]
  simp only [List.flatten_cons, List.length_append, List.length_cons, List.length_nil, unfoldedLength,
    List.map_nil, List.flatten_nil]
  omega

/-- A line break behind a CR takes it, so that there is less in the header. -/
theorem excess_break_cr {start : List Char} (first : blank (start ++ ['\n']) = false)
    (cr : start.getLast? = some '\r') (l : List Char) (ls' : List Line) :
    lineExcess ((start ++ '\t' :: l) :: ls') < lineExcess ((start ++ ['\n']) :: ('\t' :: l) :: ls') := by
  obtain ⟨header, body⟩ := headerLines_cons (blank_of_tab (by simp) : blank (start ++ '\t' :: l) = false) ls'
  obtain ⟨header', body'⟩ := headerLines_cons first (('\t' :: l) :: ls')
  obtain ⟨header'', body''⟩ := headerLines_cons (blank_of_tab (by simp) : blank ('\t' :: l) = false) ls'
  have positive : 0 < start.length := List.length_pos_of_ne_nil (by rintro rfl; cases cr)
  rw [lineExcess, lineExcess, header, header', header'', body, body', body'', unfoldedLength_cons,
    unfoldedLength_cons, unfoldedLength_cons, chomp_append, chomp_concat, if_pos rfl, if_pos cr, List.length_append,
    List.length_dropLast]
  omega

theorem excess_break {before : List Char} (outside : ¬ Inside before) (rest : List Char) :
    excess (before ++ '\t' :: rest) < excess (before ++ '\n' :: '\t' :: rest) := by
  obtain ⟨ls, start, l, ls', inside_iff, one, two, free⟩ := lines_break before rest
  rw [inside_iff] at outside
  rw [excess_eq, excess_eq, one, two]
  by_cases full : ∀ l ∈ ls, blank l = false
  case neg =>
    obtain ⟨l', member, empty⟩ : ∃ l' ∈ ls, blank l' = true := by simpa using full
    exact excess_break_body member empty start l ls'
  obtain ⟨header, body⟩ := headerLines_append full ((start ++ '\t' :: l) :: ls')
  obtain ⟨header', body'⟩ := headerLines_append full ((start ++ ['\n']) :: ('\t' :: l) :: ls')
  have rest_grows :
      lineExcess ((start ++ '\t' :: l) :: ls') < lineExcess ((start ++ ['\n']) :: ('\t' :: l) :: ls') := by
    cases first : blank (start ++ ['\n']) with
    | true => exact excess_break_blank first l ls'
    | false =>
      have some_char : start ≠ [] := by
        rintro rfl
        cases first
      refine excess_break_cr first ?_ l ls'
      by_contra not_cr
      exact outside ⟨full, some_char, not_cr⟩
  rw [lineExcess, lineExcess] at rest_grows ⊢
  rw [header, header', body, body', unfoldedLength_append, unfoldedLength_append]
  omega

/-! ## All tabs of a segment -/

theorem foldTabs_cons_of_ne {c : Char} (other : c ≠ '\t') (text : List Char) :
    foldTabs (c :: text) = c :: foldTabs text := by
  rw [foldTabs, List.flatMap_cons, if_neg other]
  rfl

theorem excess_break_le (before rest : List Char) :
    excess (before ++ '\t' :: rest) ≤ excess (before ++ '\n' :: '\t' :: rest) := by
  by_cases inside : Inside before
  · exact Int.le_of_eq (by rw [excess, excess, parse_break inside])
  · exact Int.le_of_lt (excess_break inside rest)

theorem excess_foldTabs_le (before text after : List Char) :
    excess (before ++ (text ++ after)) ≤ excess (before ++ (foldTabs text ++ after)) := by
  induction text generalizing before with
  | nil => exact Int.le_refl _
  | cons c text ih =>
    have later := ih (before ++ [c])
    rw [List.append_assoc, List.append_assoc] at later
    by_cases tab : c = '\t'
    · subst tab
      exact Int.le_trans later (excess_break_le before (foldTabs text ++ after))
    · rw [foldTabs_cons_of_ne tab]
      exact later

/-- The first character of a text, and then the others. -/
theorem inside_cons_iff {before text : List Char} {c : Char} :
    (∀ l r, c :: text = l ++ '\t' :: r → Inside (before ++ l)) ↔
      (c = '\t' → Inside before) ∧ ∀ l r, text = l ++ '\t' :: r → Inside (before ++ [c] ++ l) := by
  constructor
  · intro each
    refine ⟨fun tab => ?_, fun l r same => ?_⟩
    · have here := each [] text (tab ▸ rfl)
      rwa [List.append_nil] at here
    · rw [List.append_assoc]
      exact each (c :: l) r (congrArg (c :: ·) same)
  · rintro ⟨first, others⟩ l r same
    cases l with
    | nil =>
      rw [List.append_nil]
      exact first (List.cons.inj same).1
    | cons c' l =>
      obtain ⟨rfl, same'⟩ := List.cons.inj same
      have later := others l r same'
      rwa [List.append_assoc] at later

theorem parse_foldTabs_iff (before text after : List Char) :
    parse (before ++ (foldTabs text ++ after)) = parse (before ++ (text ++ after)) ↔
      ∀ l r, text = l ++ '\t' :: r → Inside (before ++ l) := by
  induction text generalizing before with
  | nil =>
    refine iff_of_true rfl fun l r same => ?_
    cases l <;> cases same
  | cons c text ih =>
    have later := ih (before ++ [c])
    rw [List.append_assoc, List.append_assoc] at later
    rw [inside_cons_iff, ← later]
    by_cases tab : c = '\t'
    · subst tab
      have break_eq (inside : Inside before) := parse_break inside (foldTabs text ++ after)
      constructor
      · intro same
        have inside : Inside before := by
          by_contra outside
          have more := excess_break outside (foldTabs text ++ after)
          have fewer := excess_foldTabs_le (before ++ ['\t']) text after
          have equal : excess (before ++ (foldTabs ('\t' :: text) ++ after)) =
              excess (before ++ ('\t' :: text ++ after)) := by rw [excess, same, excess]
          rw [List.append_assoc, List.append_assoc] at fewer
          exact absurd equal (Int.ne_of_gt (Int.lt_of_le_of_lt fewer more))
        exact ⟨fun _ => inside, (break_eq inside).symm.trans same⟩
      · rintro ⟨inside, same⟩
        exact (break_eq (inside rfl)).trans same
    · rw [foldTabs_cons_of_ne tab]
      exact (and_iff_right fun same => absurd same tab).symm

theorem take_append_slice (text : List Char) {start stop : Nat} (order : start ≤ stop) :
    text.take start ++ (text.take stop).drop start = text.take stop := by
  have head : text.take start = (text.take stop).take start := by rw [List.take_take, Nat.min_eq_left order]
  rw [head, List.take_append_drop]

/-- What is around the tabs of a slice, by their places in the whole text. -/
theorem slice_iff {text : List Char} {start stop : Nat} (order : start ≤ stop) (P : List Char → Prop) :
    (∀ l r, (text.take stop).drop start = l ++ '\t' :: r → P (text.take start ++ l)) ↔
      ∀ i, start ≤ i → i < stop → text[i]? = some '\t' → P (text.take i) := by
  constructor
  · intro each i low high tab
    have inside : (text.take stop)[i]? = some '\t' := by rwa [List.getElem?_take_of_lt high]
    obtain ⟨short, here⟩ := List.getElem?_eq_some_iff.mp inside
    have cut : text.take stop = text.take i ++ '\t' :: (text.take stop).drop (i + 1) := by
      rw [← here, ← List.drop_eq_getElem_cons short, take_append_slice _ (Nat.le_of_lt high)]
    rw [← take_append_slice _ low]
    refine each ((text.take i).drop start) ((text.take stop).drop (i + 1)) ?_
    refine (List.append_right_inj (text.take start)).mp ?_
    rw [take_append_slice _ order, ← List.append_assoc, take_append_slice _ low, ← cut]
  · intro each l r same
    have whole := take_append_slice text order
    rw [same] at whole
    have length : (text.take start).length = start := by
      have slice := congrArg List.length same
      rw [List.length_drop, List.length_take, List.length_append, List.length_cons] at slice
      rw [List.length_take]
      omega
    have high : start + l.length < stop := by
      have lengths := congrArg List.length whole
      rw [List.length_append, List.length_append, List.length_cons, List.length_take (i := stop),
        length] at lengths
      omega
    have before : text.take (start + l.length) = text.take start ++ l := by
      have cut : text.take (start + l.length) = (text.take stop).take (start + l.length) := by
        rw [List.take_take, Nat.min_eq_left (Nat.le_of_lt high)]
      rw [cut, ← whole, ← List.append_assoc]
      exact List.take_left' (by rw [List.length_append, length])
    rw [← before]
    refine each (start + l.length) (Nat.le_add_right ..) high ?_
    rw [← List.getElem?_take_of_lt high, ← whole, ← List.append_assoc]
    have here : (text.take start ++ l).length = start + l.length := by rw [List.length_append, length]
    rw [← here, List.getElem?_append_right (Nat.le_refl _), Nat.sub_self]
    rfl

theorem of_find {stem text : List Char} {start i : Nat} (found : find stem text start = some i) :
    start ≤ i ∧ stem <+: text.drop i := by
  unfold find at found
  simpa using List.find?_some found

theorem segment_order {msgstring : List Char} {start stop : Nat}
    (found : segment msgstring = some (start, stop)) : start ≤ stop := by
  obtain ⟨first, here, same⟩ := Option.map_eq_some_iff.mp found
  obtain ⟨rfl, rfl⟩ := Prod.mk.inj same
  have fits := (of_find here).2.length_le
  have twelve : references.length = 12 := rfl
  rw [List.length_drop] at fits
  cases line_end : find ['\r', '\n'] msgstring (first + references.length) with
  | none =>
    rw [Option.getD_none]
    omega
  | some stop =>
    have later := (of_find line_end).1
    rw [Option.getD_some]
    omega

/-- The text up to each tab that is folded. -/
def Foldable (msgstring : List Char) : Prop :=
  ∀ start stop, segment msgstring = some (start, stop) → ∀ i, start ≤ i → i < stop →
    msgstring[i]? = some '\t' → Inside (msgstring.take i)

theorem parse_rfcTransform_iff (msgstring : List Char) :
    parse (rfcTransform msgstring) = parse msgstring ↔ Foldable msgstring := by
  unfold rfcTransform Foldable
  cases found : segment msgstring with
  | none => exact iff_of_true rfl fun start stop found => nomatch found
  | some pair =>
    obtain ⟨start, stop⟩ := pair
    have order := segment_order found
    have whole : msgstring.take start ++ ((msgstring.take stop).drop start ++ msgstring.drop stop) =
        msgstring := by
      rw [← List.append_assoc, take_append_slice _ order, List.take_append_drop]
    have folds := parse_foldTabs_iff (msgstring.take start) ((msgstring.take stop).drop start)
      (msgstring.drop stop)
    rw [whole, slice_iff order] at folds
    dsimp only
    rw [List.append_assoc, folds]
    constructor
    · rintro each _ _ ⟨⟩
      exact each
    · exact fun each => each start stop rfl

/-- A message without a `References` header whose body has the text of one. -/
def bodyText : List Char := "To: a\r\n\r\nReferences: a\tb\r\n".toList

theorem body_is_folded : ∃ msgstring, parse (rfcTransform msgstring) ≠ parse msgstring := by
  refine ⟨bodyText, ?_⟩
  have folded : rfcTransform bodyText = "To: a\r\n\r\nReferences: a\n\tb\r\n".toList := by decide
  rw [folded]
  decide

end SyncEngine.ReferencesFolding
