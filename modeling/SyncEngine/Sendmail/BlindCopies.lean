import SyncEngine.Util.HeaderFields

/-! The removal of `Bcc` from a raw message by a regular expression over its whole text, against the header
fields that the message has. -/
namespace SyncEngine.BlindCopies
open HeaderFields

/-- `^Bcc: [^\r\n]*\r\n` without regard to case, at the start of a line: what is left after a match. -/
def bccRegexp (text : List Char) : Option (List Char) :=
  if (text.take 5).map Char.toLower = ['b', 'c', 'c', ':', ' '] then
    match (text.drop 5).dropWhile fun c => c ≠ '\r' ∧ c ≠ '\n' with
    | '\r' :: '\n' :: rest => some rest
    | _ => none
  else none

/-- What the regular expression matches. -/
def Matches (l : Line) : Prop := ∃ name address, name.map Char.toLower = ['b', 'c', 'c', ':', ' '] ∧
  (∀ c ∈ address, c ≠ '\r' ∧ c ≠ '\n') ∧ l = name ++ address ++ ['\r', '\n']

theorem bccRegexp_iff {text rest : List Char} :
    bccRegexp text = some rest ↔ ∃ l, Matches l ∧ text = l ++ rest := by
  have stops (address rest : List Char) (inside : ∀ c ∈ address, c ≠ '\r' ∧ c ≠ '\n') :
      (address ++ '\r' :: rest).dropWhile (fun c => c ≠ '\r' ∧ c ≠ '\n') = '\r' :: rest := by
    rw [List.dropWhile_append_of_pos fun c member => decide_eq_true (inside c member)]
    rfl
  constructor
  · intro found
    unfold bccRegexp at found
    split at found
    next name =>
      split at found
      next rest' here =>
        obtain rfl := Option.some.inj found
        have cut := List.takeWhile_append_dropWhile (p := fun c => decide (c ≠ '\r' ∧ c ≠ '\n'))
          (l := text.drop 5)
        rw [here] at cut
        refine ⟨text.take 5 ++ (text.drop 5).takeWhile (fun c => c ≠ '\r' ∧ c ≠ '\n') ++ ['\r', '\n'],
          ⟨_, _, name, fun c member => by simpa using List.mem_takeWhile_imp member, rfl⟩, ?_⟩
        rw [List.append_assoc, List.append_assoc, List.cons_append, List.cons_append, List.nil_append, cut,
          List.take_append_drop]
      next => cases found
    next => cases found
  · rintro ⟨_, ⟨name, address, spelled, inside, rfl⟩, rfl⟩
    have five : name.length = 5 := by
      have := congrArg List.length spelled
      rwa [List.length_map] at this
    have split : name ++ address ++ ['\r', '\n'] ++ rest = name ++ (address ++ '\r' :: '\n' :: rest) := by
      simp only [List.append_assoc, List.cons_append, List.nil_append]
    rw [bccRegexp, split, ← five, List.take_left, List.drop_left, if_pos spelled, stops _ _ inside]
    rfl

/-- A match at a place where a line starts or does not. -/
def bccAt (lineStarts : Bool) (text : List Char) : Option (List Char) :=
  if lineStarts then bccRegexp text else none

theorem bccAt_shorter {lineStarts : Bool} {text rest : List Char} (found : bccAt lineStarts text = some rest) :
    rest.length < text.length := by
  cases lineStarts with
  | false => cases found
  | true =>
    obtain ⟨_, ⟨name, address, _, _, rfl⟩, rfl⟩ := bccRegexp_iff.mp found
    simp only [List.length_append, List.length_cons]
    omega

/-- `sub` from left to right. Whether a line starts depends on the text as it was. -/
def sub (lineStarts : Bool) : List Char → List Char
  | [] => []
  | c :: text =>
    match _found : bccAt lineStarts (c :: text) with
    | some rest => sub true rest
    | none => c :: sub (c = '\n') text
  termination_by text => text.length
  decreasing_by
    · exact bccAt_shorter _found
    · exact Nat.lt_succ_self _

/-- `_substitute_bcc` -/
def substituteBcc (rawMessage : List Char) : List Char := sub true rawMessage

/-! ## Line by line -/

theorem Matches.line {m : Line} (matched : Matches m) : ∃ l, Free (· = '\n') l ∧ m = l ++ ['\n'] := by
  obtain ⟨name, address, spelled, inside, rfl⟩ := matched
  refine ⟨name ++ address ++ ['\r'], fun c member => ?_, by simp⟩
  rw [List.mem_append, List.mem_append, List.mem_singleton] at member
  rw [decide_eq_false_iff_not]
  rintro rfl
  rcases member with (member | member) | member
  · have lower := List.mem_map_of_mem (f := Char.toLower) member
    rw [spelled] at lower
    revert lower
    decide
  · exact (inside _ member).2 rfl
  · revert member
    decide

theorem line_cancel {l l' text text' : List Char} (free : Free (· = '\n') l) (free' : Free (· = '\n') l')
    (same : l ++ '\n' :: text = l' ++ '\n' :: text') : l = l' ∧ text = text' := by
  have heads := congrArg (lines (· = '\n')) same
  rw [lines_append free rfl, lines_append free' rfl] at heads
  obtain rfl := List.append_cancel_right (List.cons.inj heads).1
  exact ⟨rfl, (List.cons.inj (List.append_cancel_left same)).2⟩

/-- A line that is taken out. -/
def removed (l : Line) : Bool := bccRegexp l = some []

theorem removed_iff {l : Line} : removed l = true ↔ Matches l := by
  rw [removed, decide_eq_true_eq, bccRegexp_iff]
  constructor
  · rintro ⟨m, matched, rfl⟩
    rwa [List.append_nil]
  · exact fun matched => ⟨l, matched, (List.append_nil l).symm⟩

/-- The first line of a text decides. -/
theorem bccRegexp_line {l : List Char} (free : Free (· = '\n') l) {text rest : List Char} :
    bccRegexp (l ++ '\n' :: text) = some rest ↔ Matches (l ++ ['\n']) ∧ text = rest := by
  rw [bccRegexp_iff]
  constructor
  · rintro ⟨m, matched, same⟩
    obtain ⟨l', free', rfl⟩ := matched.line
    rw [List.append_assoc] at same
    obtain ⟨rfl, rfl⟩ := line_cancel free free' same
    exact ⟨matched, rfl⟩
  · rintro ⟨matched, rfl⟩
    exact ⟨_, matched, by simp⟩

theorem bccRegexp_of_free {l : List Char} (free : Free (· = '\n') l) : bccRegexp l = none := by
  cases found : bccRegexp l with
  | none => rfl
  | some rest =>
    obtain ⟨m, matched, rfl⟩ := bccRegexp_iff.mp found
    obtain ⟨l', _, rfl⟩ := matched.line
    have end_of_line := free '\n' (by simp)
    cases end_of_line

theorem sub_of_match {lineStarts : Bool} {text rest : List Char} (found : bccAt lineStarts text = some rest) :
    sub lineStarts text = sub true rest := by
  cases text with
  | nil => cases lineStarts <;> cases found
  | cons c text =>
    rw [sub]
    split
    next rest' found' => exact congrArg (sub true) (Option.some.inj (found'.symm.trans found))
    next none_found => cases none_found.symm.trans found

theorem sub_of_none {lineStarts : Bool} {c : Char} {text : List Char}
    (none_found : bccAt lineStarts (c :: text) = none) :
    sub lineStarts (c :: text) = c :: sub (c = '\n') text := by
  rw [sub]
  split
  next rest found => cases found.symm.trans none_found
  next => rfl

theorem sub_of_free {l : List Char} (free : Free (· = '\n') l) (lineStarts : Bool) : sub lineStarts l = l := by
  induction l generalizing lineStarts with
  | nil => rw [sub]
  | cons c l ih =>
    have none_found : bccAt lineStarts (c :: l) = none := by
      cases lineStarts with
      | false => rfl
      | true => exact bccRegexp_of_free free
    rw [sub_of_none none_found, ih fun c member => free c (.tail _ member)]

/-- Inside a line nothing matches. -/
theorem sub_inside {l : List Char} (free : Free (· = '\n') l) (text : List Char) :
    sub false (l ++ '\n' :: text) = l ++ '\n' :: sub true text := by
  induction l with
  | nil => exact sub_of_none rfl
  | cons c l ih =>
    have other : decide (c = '\n') = false := free c List.mem_cons_self
    rw [List.cons_append, sub_of_none rfl, other, ih fun c member => free c (.tail _ member)]
    rfl

theorem sub_line {l : List Char} (free : Free (· = '\n') l) (text : List Char) :
    sub true (l ++ '\n' :: text) =
      if removed (l ++ ['\n']) then sub true text else l ++ '\n' :: sub true text := by
  split
  next taken => exact sub_of_match ((bccRegexp_line free).mpr ⟨removed_iff.mp taken, rfl⟩)
  next stays =>
    have none_found : bccAt true (l ++ '\n' :: text) = none := by
      cases found : bccAt true (l ++ '\n' :: text) with
      | none => rfl
      | some rest => exact absurd (removed_iff.mpr ((bccRegexp_line free).mp found).1) stays
    cases l with
    | nil => exact sub_of_none none_found
    | cons c l =>
      have other : decide (c = '\n') = false := free c List.mem_cons_self
      rw [List.cons_append] at none_found ⊢
      rw [sub_of_none none_found, other, sub_inside fun c member => free c (.tail _ member)]
      rfl

theorem substituteBcc_eq (rawMessage : List Char) :
    substituteBcc rawMessage = ((textLines rawMessage).filter (!removed ·)).flatten := by
  unfold substituteBcc textLines
  induction rawMessage using lines_induction (· = '\n') with
  | empty => rw [sub]; rfl
  | unfinished l some_char free =>
    have stays : removed l = false := by simp [removed, bccRegexp_of_free free]
    rw [sub_of_free free, lines_of_free some_char free, List.filter_singleton, stays]
    simp
  | line l c text free end_of_line ih =>
    obtain rfl := of_decide_eq_true end_of_line
    rw [sub_line free, lines_append free end_of_line, List.filter_cons, ih]
    split <;> simp [*]

/-! ## Fields -/

def isBcc (f : Field) : Bool := f.isNamed ['b', 'c', 'c']

/-- The message without its `Bcc` fields, and otherwise as it was. -/
structure Blind (submitted transmitted : List Char) : Prop where
  no_bcc : ∀ f ∈ headerFields transmitted, isBcc f = false
  others : headerFields transmitted = (headerFields submitted).filter (!isBcc ·)
  body : body transmitted = body submitted

/-- Each `Bcc` field is one line as the regular expression has it, and no line of the body is like that. -/
structure Plain (rawMessage : List Char) : Prop where
  header : ∀ f ∈ headerFields rawMessage, isBcc f = true → Matches f.first ∧ f.folds = []
  body : ∀ l ∈ bodyLines (textLines rawMessage), ¬ Matches l

theorem toLower_colon {c : Char} (lower : c.toLower = ':') : c = ':' := by
  unfold Char.toLower at lower
  split at lower
  next upper =>
    obtain ⟨low, high⟩ := upper
    have value : c.val + ('a'.val - 'A'.val) = ':'.val := congrArg Char.val lower
    rw [ge_iff_le, UInt32.le_iff_toNat_le] at low
    rw [UInt32.le_iff_toNat_le] at high
    have value' := congrArg UInt32.toNat value
    rw [UInt32.toNat_add] at value'
    have a : 'A'.val.toNat = 65 := rfl
    have z : 'Z'.val.toNat = 90 := rfl
    have difference : ('a'.val - 'A'.val).toNat = 32 := rfl
    have colon : ':'.val.toNat = 58 := rfl
    omega
  next => exact lower

theorem Matches.spelled {l : Line} (matched : Matches l) :
    ∃ a b c rest, l = a :: b :: c :: ':' :: rest ∧ a.toLower = 'b' ∧ b.toLower = 'c' ∧ c.toLower = 'c' := by
  obtain ⟨name, address, spelled, _, rfl⟩ := matched
  obtain ⟨a, _, rfl, first, spelled⟩ := List.map_eq_cons_iff.mp spelled
  obtain ⟨b, _, rfl, second, spelled⟩ := List.map_eq_cons_iff.mp spelled
  obtain ⟨c, _, rfl, third, spelled⟩ := List.map_eq_cons_iff.mp spelled
  obtain ⟨colon, rest, rfl, fourth, _⟩ := List.map_eq_cons_iff.mp spelled
  obtain rfl := toLower_colon fourth
  exact ⟨a, b, c, _, rfl, first, second, third⟩

theorem Matches.isBcc {f : Field} (matched : Matches f.first) : isBcc f = true := by
  obtain ⟨a, b, c, rest, same, first, second, third⟩ := matched.spelled
  have other {x : Char} (letter : x.toLower = 'b' ∨ x.toLower = 'c') : x ≠ ':' ∧ x ≠ ' ' ∧ x ≠ '\t' := by
    refine ⟨?_, ?_, ?_⟩ <;>
    · rintro rfl
      revert letter
      decide
  have name : f.first.takeWhile (· ≠ ':') = [a, b] ++ [c] := by
    simp [same, (other (.inl first)).1, (other (.inr second)).1, (other (.inr third)).1]
  have whole : ([a, b] ++ [c]).rdropWhile (fun c => c = ' ' ∨ c = '\t') = [a, b] ++ [c] :=
    List.rdropWhile_concat_neg _ _ _ (by simp [(other (.inr third)).2])
  rw [BlindCopies.isBcc, Field.isNamed, name, whole]
  simp [first, second, third, same]

theorem Matches.not_continues {l : Line} (matched : Matches l) : continues l = false := by
  obtain ⟨a, b, c, rest, rfl, first, _⟩ := matched.spelled
  have other : a ≠ ' ' ∧ a ≠ '\t' := by
    constructor <;>
    · rintro rfl
      revert first
      decide
  simp [continues, other]

theorem Matches.not_blank {l : Line} (matched : Matches l) : blank l = false := by
  obtain ⟨a, b, c, rest, rfl, _⟩ := matched.spelled
  simp [blank]

/-- What is left of a field. -/
def left (f : Field) : List Line := if removed f.first then f.folds else f.lines

theorem filter_lines {f : Field} (folds : ∀ l ∈ f.folds, continues l = true) :
    f.lines.filter (!removed ·) = left f := by
  have stay : f.folds.filter (!removed ·) = f.folds := by
    refine List.filter_eq_self.mpr fun l fold => ?_
    rw [Bool.not_eq_true', Bool.eq_false_iff]
    intro taken
    exact Bool.false_ne_true ((removed_iff.mp taken).not_continues.symm.trans (folds l fold))
  rw [Field.lines, left, List.filter_cons, stay]
  cases removed f.first <;> rfl

theorem filter_fields {fs : List Field} (grouped : Grouped fs) :
    (fs.flatMap Field.lines).filter (!removed ·) = fs.flatMap left := by
  rw [List.filter_flatMap]
  exact List.flatMap_congr fun f member => filter_lines (grouped.folds f member)

/-- At least all other fields are left, and no more than these if each `Bcc` field is one line. -/
theorem left_length (fs : List Field) :
    ((fs.filter (!isBcc ·)).flatMap Field.lines).length ≤ (fs.flatMap left).length ∧
      ((fs.flatMap left).length = ((fs.filter (!isBcc ·)).flatMap Field.lines).length →
        ∀ f ∈ fs, isBcc f = true → Matches f.first ∧ f.folds = []) := by
  induction fs with
  | nil => exact ⟨Nat.le_refl _, fun _ f member => nomatch member⟩
  | cons f fs ih =>
    obtain ⟨few, each⟩ := ih
    rw [List.flatMap_cons, List.length_append, List.filter_cons]
    cases bcc : isBcc f with
    | false =>
      have stays : left f = f.lines := by
        refine if_neg fun taken => ?_
        exact Bool.false_ne_true (bcc.symm.trans (removed_iff.mp taken).isBcc)
      rw [stays, Bool.not_false, if_pos rfl, List.flatMap_cons, List.length_append]
      refine ⟨Nat.add_le_add_left few _, fun same f' member bcc' => ?_⟩
      rcases List.mem_cons.mp member with rfl | member
      · exact absurd bcc' (Bool.eq_false_iff.mp bcc)
      · exact each (Nat.add_left_cancel same) f' member bcc'
    | true =>
      rw [Bool.not_true, if_neg Bool.false_ne_true]
      refine ⟨Nat.le_add_left_of_le few, fun same f' member bcc' => ?_⟩
      have nothing : (left f).length = 0 := by omega
      rcases List.mem_cons.mp member with rfl | member
      · unfold left at nothing
        split at nothing
        next taken => exact ⟨removed_iff.mp taken, List.eq_nil_of_length_eq_zero nothing⟩
        next => cases nothing
      · exact each (by omega) f' member bcc'

theorem left_eq {fs : List Field} (plain : ∀ f ∈ fs, isBcc f = true → Matches f.first ∧ f.folds = []) :
    fs.flatMap left = (fs.filter (!isBcc ·)).flatMap Field.lines := by
  induction fs with
  | nil => rfl
  | cons f fs ih =>
    rw [List.flatMap_cons, ih fun f member => plain f (.tail _ member), List.filter_cons]
    cases bcc : isBcc f with
    | false =>
      have stays : left f = f.lines := by
        refine if_neg fun taken => ?_
        exact Bool.false_ne_true (bcc.symm.trans (removed_iff.mp taken).isBcc)
      rw [stays]
      rfl
    | true =>
      obtain ⟨matched, alone⟩ := plain f List.mem_cons_self bcc
      rw [left, if_pos (removed_iff.mpr matched), alone]
      rfl

theorem Grouped.filter {fs : List Field} (grouped : Grouped fs) (keeps : Field → Bool) :
    Grouped (fs.filter keeps) := by
  refine ⟨fun f member => grouped.begins f ?_, fun f member => grouped.folds f (List.mem_filter.mp member).1⟩
  cases fs with
  | nil => cases member
  | cons f' fs =>
    rw [List.filter_cons] at member
    split at member
    · exact (List.mem_filter.mp member).1
    · exact (List.mem_filter.mp (List.mem_of_mem_tail member)).1

theorem filter_flatten_length (ls : List Line) (keeps : Line → Bool) :
    (ls.filter keeps).flatten.length ≤ ls.flatten.length := by
  induction ls with
  | nil => exact Nat.le_refl _
  | cons l ls ih =>
    rw [List.filter_cons]
    split
    · rw [List.flatten_cons, List.flatten_cons, List.length_append, List.length_append]
      exact Nat.add_le_add_left ih _
    · rw [List.flatten_cons, List.length_append]
      exact Nat.le_add_left_of_le ih

theorem of_filter_flatten {ls : List Line} {keeps : Line → Bool}
    (same : (ls.filter keeps).flatten = ls.flatten) : ∀ l ∈ ls, l ≠ [] → keeps l = true := by
  induction ls with
  | nil => exact fun l member => nomatch member
  | cons l ls ih =>
    have few := filter_flatten_length ls keeps
    rw [List.filter_cons] at same
    intro l' member some_char
    split at same
    next kept =>
      rcases List.mem_cons.mp member with rfl | member
      · exact kept
      · exact ih (List.append_cancel_left same) l' member some_char
    next lost =>
      have lengths := congrArg List.length same
      rw [List.flatten_cons, List.length_append] at lengths
      have empty : l = [] := List.eq_nil_of_length_eq_zero (by omega)
      rcases List.mem_cons.mp member with rfl | member
      · exact absurd empty some_char
      · exact ih (by rw [same, empty]; rfl) l' member some_char

theorem blind_iff (rawMessage : List Char) :
    Blind rawMessage (substituteBcc rawMessage) ↔ Plain rawMessage := by
  have grouped : Grouped (headerFields rawMessage) := grouped_fields _
  have blanks l (empty : blank l = true) : (!removed l) = true := by
    rw [Bool.not_eq_true', Bool.eq_false_iff]
    exact fun taken => Bool.false_ne_true ((removed_iff.mp taken).not_blank.symm.trans empty)
  have after : textLines (substituteBcc rawMessage) = (textLines rawMessage).filter (!removed ·) := by
    rw [substituteBcc_eq]
    exact lines_filter ..
  obtain ⟨header, rest⟩ := headerLines_filter blanks (textLines rawMessage)
  have fields_after : headerFields (substituteBcc rawMessage) =
      fields ((headerFields rawMessage).flatMap left) := by
    rw [← filter_fields grouped, headerFields, headerFields, flatMap_fields, after, header]
  have body_after : body (substituteBcc rawMessage) =
      ((bodyLines (textLines rawMessage)).filter (!removed ·)).flatten := by
    rw [body, after, rest]
  constructor
  · intro blind
    constructor
    · have lines_left := congrArg (List.flatMap Field.lines) (fields_after.symm.trans blind.others)
      rw [flatMap_fields] at lines_left
      exact (left_length _).2 (congrArg List.length lines_left)
    · intro l member matched
      have some_char : l ≠ [] := by
        obtain ⟨l', _, rfl⟩ := matched.line
        exact List.append_ne_nil_of_right_ne_nil _ (List.cons_ne_nil _ _)
      have stays := of_filter_flatten (body_after.symm.trans blind.body) l member some_char
      rw [removed_iff.mpr matched] at stays
      cases stays
  · intro plain
    have others : headerFields (substituteBcc rawMessage) = (headerFields rawMessage).filter (!isBcc ·) := by
      rw [fields_after, left_eq plain.header, fields_flatMap (Grouped.filter grouped _)]
    refine ⟨fun f member => ?_, others, ?_⟩
    · rw [others] at member
      simpa using (List.mem_filter.mp member).2
    · rw [body_after, body]
      refine congrArg List.flatten (List.filter_eq_self.mpr fun l member => ?_)
      rw [Bool.not_eq_true', Bool.eq_false_iff]
      exact fun taken => plain.body l member (removed_iff.mp taken)

namespace Example

/-- A `Bcc` field over two lines. -/
def rawMessage : List Char := "To: a@x\r\nBcc: b@x,\r\n c@x\r\n\r\nhi".toList

theorem lines_eq : textLines rawMessage =
    ["To: a@x\r\n".toList, "Bcc: b@x,\r\n".toList, " c@x\r\n".toList, "\r\n".toList, "hi".toList] := by
  decide

end Example

/-- The second address of a folded field stays in the header. -/
theorem folded_bcc_stays : ∃ rawMessage, ¬ Blind rawMessage (substituteBcc rawMessage) := by
  refine ⟨Example.rawMessage, fun blind => ?_⟩
  have others := blind.others
  have sent : substituteBcc Example.rawMessage = "To: a@x\r\n c@x\r\n\r\nhi".toList := by
    rw [substituteBcc_eq, Example.lines_eq]
    decide
  rw [sent] at others
  revert others
  decide

end SyncEngine.BlindCopies
