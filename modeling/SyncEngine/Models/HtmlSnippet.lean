import SyncEngine.Util.Encoding

/-! What `strip_tags` keeps of a page, for any sequence of events that the parser delivers, against the text that
lies outside the elements to be stripped. -/
namespace SyncEngine.HtmlSnippet

/-- Code points, since `unichr` also makes those of surrogates. -/
abbrev Text := List Nat

/-- The text of a reference is that between `&#` or `&` and its end. -/
inductive Event
  | startTag (tag : Unicode)
  | endTag (tag : Unicode)
  | data (d : Text)
  | charref (d : Unicode)
  | entityref (d : Unicode)

/-- The tables of Python. -/
structure Tables where
  maxunicode : Nat
  name2codepoint : Unicode → Option Nat

/-! ## The handler -/

def strippedTags : List Unicode := ["title".toList, "script".toList, "style".toList]

/-- Tags are written in ASCII letters. -/
def lower (tag : Unicode) : Unicode := tag.map Char.toLower

def digitValue (c : Char) : Option Nat :=
  if '0' ≤ c ∧ c ≤ '9' then some (c.toNat - '0'.toNat)
  else if 'a' ≤ c ∧ c ≤ 'f' then some (c.toNat - 'a'.toNat + 10)
  else if 'A' ≤ c ∧ c ≤ 'F' then some (c.toNat - 'A'.toNat + 10)
  else none

/-- `int(text, base)` of a text without sign and blanks. -/
def pyInt (base : Nat) (text : Unicode) : Option Nat :=
  if text = [] then none
  else text.foldlM (fun value c => (digitValue c).bind fun digit =>
    if digit < base then some (value * base + digit) else none) 0

/-- `HTMLTagStripper` -/
structure Stripper where
  fed : List Text
  stripTagContentsMode : Bool

variable (tables : Tables)

def unichr (value : Nat) : Option Text := if value ≤ tables.maxunicode then some [value] else none

/-- What `handle_charref` appends, if nothing is raised. -/
def charrefText : Unicode → Option Text
  | 'x' :: digits => (pyInt 16 digits).bind (unichr tables)
  | d => (pyInt 10 d).bind (unichr tables)

def entityText (d : Unicode) : Option Text := (tables.name2codepoint d).map fun value => [value]

/-- The texts that the handler of an event appends. -/
def appended (mode : Bool) : Event → List Text
  | .startTag tag => if lower tag = "br".toList ∨ lower tag = "div".toList then [[32]] else []
  | .endTag _ => []
  | .data d => if mode then [] else [d]
  | .charref d => (charrefText tables d).toList
  | .entityref d => (entityText tables d).toList

def nextMode (mode : Bool) : Event → Bool
  | .startTag tag => if lower tag ∈ strippedTags then true else mode
  | .endTag _ => false
  | _ => mode

def handle (s : Stripper) (event : Event) : Stripper :=
  { fed := s.fed ++ appended tables s.stripTagContentsMode event,
    stripTagContentsMode := nextMode s.stripTagContentsMode event }

def feed (events : List Event) : Stripper := events.foldl (handle tables) ⟨[], false⟩

/-- `get_data` behind the events of a page. -/
def stripTags (events : List Event) : Text := (feed tables events).fed.flatten

/-! ## What lies inside the elements -/

/-- How many elements of the name are open; an end tag without a start tag closes none. -/
def depth (name : Unicode) (events : List Event) : Nat :=
  events.foldl (fun open_ event =>
    match event with
    | .startTag tag => if lower tag = name then open_ + 1 else open_
    | .endTag tag => if lower tag = name then open_ - 1 else open_
    | _ => open_) 0

/-- The events have opened an element that is stripped, and not its own end tag yet. -/
def Inside (events : List Event) : Prop := ∃ name ∈ strippedTags, 0 < depth name events

instance (events : List Event) : Decidable (Inside events) :=
  inferInstanceAs (Decidable (∃ name ∈ strippedTags, 0 < depth name events))

/-- The text of a valid reference. The letter that marks hexadecimal digits may be a capital. -/
def validCharref : Unicode → Option Text
  | 'X' :: digits => (pyInt 16 digits).bind (unichr tables)
  | d => charrefText tables d

/-- The text of an event, if it is data or a valid reference. -/
def text : Event → Option Text
  | .data d => some d
  | .charref d => validCharref tables d
  | .entityref d => entityText tables d
  | _ => none

/-- Each text inside is left out, and each text outside is appended. Since the handlers only append, the result
then has the texts outside in order. -/
def ShowsVisible (events : List Event) : Prop :=
  ∀ before event after, events = before ++ event :: after → ∀ shown, text tables event = some shown →
    (feed tables (before ++ [event])).fed =
      (feed tables before).fed ++ if Inside before then [] else [shown]

/-! ## When that holds -/

def opens : Event → Bool
  | .startTag tag => lower tag ∈ strippedTags
  | _ => false

def isEnd : Event → Bool
  | .endTag _ => true
  | _ => false

/-- There is an end tag, of any name, behind the last start tag of an element that is stripped. -/
def endedSince (events : List Event) : Bool := (events.reverse.takeWhile fun event => !opens event).any isEnd

/-- The event is no trap for the handler where it stands. -/
def Plain (before : List Event) : Event → Prop
  | .data _ => ¬(Inside before ∧ endedSince before = true)
  -- A capital `X` is not read, which is right inside only.
  | .charref d => (validCharref tables d).isSome → (d.head? = some 'X' ↔ Inside before)
  | .entityref d => (entityText tables d).isSome → ¬Inside before
  | _ => True

variable {tables} {before events : List Event} {event : Event}

theorem feed_concat : feed tables (before ++ [event]) = handle tables (feed tables before) event :=
  List.foldl_concat ..

theorem depth_concat (name : Unicode) : depth name (before ++ [event]) =
    match event with
    | .startTag tag => if lower tag = name then depth name before + 1 else depth name before
    | .endTag tag => if lower tag = name then depth name before - 1 else depth name before
    | _ => depth name before := List.foldl_concat ..

theorem endedSince_concat :
    endedSince (before ++ [event]) = (!opens event && (isEnd event || endedSince before)) := by
  rw [endedSince, List.reverse_concat, List.takeWhile_cons]
  cases opens event <;> simp [endedSince]

/-- The handler is in its mode from the start tag of an element that is stripped to the next end tag. -/
theorem mode_feed (events : List Event) :
    (feed tables events).stripTagContentsMode = (events.any opens && !endedSince events) := by
  induction events using List.reverseRecOn with
  | nil => rfl
  | append_singleton before event ih =>
    rw [feed_concat, handle, ih, endedSince_concat, List.any_append]
    cases event with
    | startTag tag => by_cases stripped : lower tag ∈ strippedTags <;> simp [nextMode, opens, isEnd, stripped]
    | endTag tag | data d | charref d | entityref d => simp [nextMode, opens, isEnd]

/-- What is open has been opened. -/
theorem any_opens_of_inside (inside : Inside events) : events.any opens = true := by
  obtain ⟨name, stripped, deep⟩ := inside
  induction events using List.reverseRecOn with
  | nil => exact absurd deep (Nat.lt_irrefl 0)
  | append_singleton before event ih =>
    rw [depth_concat] at deep
    rw [List.any_append, Bool.or_eq_true]
    cases event with
    | startTag tag =>
      by_cases same : lower tag = name
      · exact Or.inr (by simp [opens, same, stripped])
      · exact Or.inl (ih (by simpa [same] using deep))
    | endTag tag =>
      refine Or.inl (ih ?_)
      simp only at deep
      split at deep
      · exact Nat.lt_of_lt_of_le deep (Nat.sub_le ..)
      · exact deep
    | data d | charref d | entityref d => exact Or.inl (ih deep)

/-- Until the next end tag the element is open. -/
theorem inside_of_mode (mode : (feed tables events).stripTagContentsMode = true) : Inside events := by
  induction events using List.reverseRecOn with
  | nil => cases mode
  | append_singleton before event ih =>
    rw [feed_concat, handle] at mode
    cases event with
    | startTag tag =>
      by_cases stripped : lower tag ∈ strippedTags
      · exact ⟨lower tag, stripped, by simp [depth_concat]⟩
      · obtain ⟨name, member, deep⟩ := ih (by simpa [nextMode, stripped] using mode)
        have other : lower tag ≠ name := fun same => stripped (same ▸ member)
        exact ⟨name, member, by simpa [depth_concat, other] using deep⟩
    | endTag tag => cases mode
    | data d | charref d | entityref d =>
      obtain ⟨name, member, deep⟩ := ih mode; exact ⟨name, member, by simpa [depth_concat] using deep⟩

theorem mode_iff : (feed tables events).stripTagContentsMode = true ↔ Inside events ∧ endedSince events = false := by
  rw [mode_feed, Bool.and_eq_true, Bool.not_eq_true']
  constructor
  · rintro ⟨opened, still⟩
    have mode : (feed tables events).stripTagContentsMode = true := by simp [mode_feed, opened, still]
    exact ⟨inside_of_mode mode, still⟩
  · rintro ⟨inside, still⟩
    exact ⟨any_opens_of_inside inside, still⟩

theorem charrefText_eq (d : Unicode) :
    charrefText tables d = if d.head? = some 'X' then none else validCharref tables d := by
  cases d with
  | nil => rfl
  | cons c digits =>
    by_cases capital : c = 'X'
    · subst capital
      rfl
    · rw [if_neg (by simpa using capital)]
      unfold validCharref
      split
      · rename_i same
        exact absurd (List.cons.inj same).1 capital
      · rfl

theorem data_right_iff (d : Text) : (∀ shown, text tables (.data d) = some shown →
      appended tables (feed tables before).stripTagContentsMode (.data d) = if Inside before then [] else [shown]) ↔
    Plain tables before (.data d) := by
  simp only [text, Option.some.injEq, forall_eq', appended, Plain, mode_iff]
  by_cases inside : Inside before <;> cases ended : endedSince before <;> simp [inside]

theorem charref_right_iff (d : Unicode) : (∀ shown, text tables (.charref d) = some shown →
      appended tables (feed tables before).stripTagContentsMode (.charref d) =
        if Inside before then [] else [shown]) ↔
    Plain tables before (.charref d) := by
  simp only [text, appended, Plain, charrefText_eq]
  cases valid : validCharref tables d with
  | none => simp
  | some shown =>
    by_cases capital : d.head? = some 'X' <;> by_cases inside : Inside before <;> simp [capital, inside]

theorem entityref_right_iff (d : Unicode) : (∀ shown, text tables (.entityref d) = some shown →
      appended tables (feed tables before).stripTagContentsMode (.entityref d) =
        if Inside before then [] else [shown]) ↔
    Plain tables before (.entityref d) := by
  simp only [text, appended, Plain]
  cases valid : entityText tables d with
  | none => simp
  | some shown => by_cases inside : Inside before <;> simp [inside]

/-- An event is handled right exactly where it is no trap. -/
theorem handled_right_iff : (∀ shown, text tables event = some shown →
      appended tables (feed tables before).stripTagContentsMode event = if Inside before then [] else [shown]) ↔
    Plain tables before event := by
  cases event with
  | startTag tag | endTag tag => simp [text, Plain]
  | data d => exact data_right_iff d
  | charref d => exact charref_right_iff d
  | entityref d => exact entityref_right_iff d

/-- What is visible is shown, and nothing else, if and only if each event is plain where it stands. -/
theorem shows_visible_iff (tables : Tables) (events : List Event) : ShowsVisible tables events ↔
    ∀ before event after, events = before ++ event :: after → Plain tables before event := by
  refine forall_congr' fun before => forall₃_congr fun event after _ => ?_
  rw [feed_concat, handle]
  simp only [List.append_cancel_left_eq]
  exact handled_right_iff

/-- A title with a reference, as the parser delivers it. -/
def titleEvents : List Event :=
  [.startTag "title".toList, .data [65], .entityref "amp".toList, .data [66], .endTag "title".toList]

theorem reference_in_title_shown : ¬ ∀ (tables : Tables) (events : List Event), ShowsVisible tables events := by
  intro shows
  have shown := shows ⟨0x10ffff, fun name => if name = "amp".toList then some 38 else none⟩ titleEvents
    [.startTag "title".toList, .data [65]] (.entityref "amp".toList) [.data [66], .endTag "title".toList] rfl [38] rfl
  exact absurd shown (by decide)

end SyncEngine.HtmlSnippet
