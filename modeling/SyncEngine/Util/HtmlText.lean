import Mathlib.Data.List.Basic

/-! How a piece of HTML reads that has paragraphs, line breaks and links and no other markup. -/
namespace SyncEngine.HtmlText

/-- Entities and what they stand for. -/
def entities : List (List Char × Char) :=
  [(['&', 'l', 't', ';'], '<'), (['&', 'g', 't', ';'], '>'), (['&', 'a', 'm', 'p', ';'], '&'),
    (['&', 'q', 'u', 'o', 't', ';'], '"'), (['&', 'n', 'b', 's', 'p', ';'], '\u00a0')]

def tags : List (List Char) :=
  [['<', 'p', '>'], ['<', '/', 'p', '>'], ['<', 'b', 'r', '>'], ['<', '/', 'a', '>']]

def linkStart : List Char := ['<', 'a', ' ', 'h', 'r', 'e', 'f', '=', '"']

def linkEnd : List Char := ['"', '>']

/-- A value between double quotes, and what it stands for. -/
inductive Value : List Char → List Char → Prop
  | nil : Value [] []
  | char {c : Char} {raw read : List Char} (plain : c ≠ '<' ∧ c ≠ '>' ∧ c ≠ '&' ∧ c ≠ '"')
      (rest : Value raw read) : Value (c :: raw) (c :: read)
  | entity {name : List Char} {c : Char} {raw read : List Char} (known : (name, c) ∈ entities)
      (rest : Value raw read) : Value (name ++ raw) (c :: read)

/-- The HTML has no tag but those that are listed and links, and shows these characters. -/
inductive Reads : List Char → List Char → Prop
  | nil : Reads [] []
  | char {c : Char} {html seen : List Char} (plain : c ≠ '<' ∧ c ≠ '>' ∧ c ≠ '&') (rest : Reads html seen) :
      Reads (c :: html) (c :: seen)
  | entity {name : List Char} {c : Char} {html seen : List Char} (known : (name, c) ∈ entities)
      (rest : Reads html seen) : Reads (name ++ html) (c :: seen)
  | tag {tag html seen : List Char} (known : tag ∈ tags) (rest : Reads html seen) : Reads (tag ++ html) seen
  | link {raw read html seen : List Char} (value : Value raw read) (rest : Reads html seen) :
      Reads (linkStart ++ (raw ++ (linkEnd ++ html))) seen

theorem Reads.inversion {text seen : List Char} (reads : Reads text seen) :
    (text = [] ∧ seen = []) ∨
    (∃ c html seen', text = c :: html ∧ seen = c :: seen' ∧ (c ≠ '<' ∧ c ≠ '>' ∧ c ≠ '&') ∧ Reads html seen') ∨
    (∃ name c html seen', (name, c) ∈ entities ∧ text = name ++ html ∧ seen = c :: seen' ∧ Reads html seen') ∨
    (∃ tag html, tag ∈ tags ∧ text = tag ++ html ∧ Reads html seen) ∨
    (∃ raw read html, Value raw read ∧ text = linkStart ++ (raw ++ (linkEnd ++ html)) ∧ Reads html seen) := by
  cases reads with
  | nil => exact .inl ⟨rfl, rfl⟩
  | char plain rest => exact .inr (.inl ⟨_, _, _, rfl, rfl, plain, rest⟩)
  | entity known rest => exact .inr (.inr (.inl ⟨_, _, _, _, known, rfl, rfl, rest⟩))
  | tag known rest => exact .inr (.inr (.inr (.inl ⟨_, _, known, rfl, rest⟩)))
  | link value rest => exact .inr (.inr (.inr (.inr ⟨_, _, _, value, rfl, rest⟩)))

/-! ## What a piece begins with -/

theorem entity_starts : ∀ entity ∈ entities, ∃ rest, entity.1 = '&' :: rest := by
  simp [entities]

theorem tag_starts : ∀ tag ∈ tags, ∃ rest, tag = '<' :: rest := by
  simp [tags]

theorem starts_eq {c c' : Char} {piece html html' : List Char} (starts : ∃ rest, piece = c' :: rest)
    (same : c :: html = piece ++ html') : c = c' := by
  obtain ⟨rest, rfl⟩ := starts
  exact (List.cons.inj same).1

namespace Reads
variable {c : Char} {html seen : List Char}

theorem of_nil (reads : Reads [] seen) : seen = [] := by
  rcases reads.inversion with ⟨_, same⟩ | ⟨_, _, _, same, _⟩ | ⟨name, c, _, _, known, same, _⟩ |
    ⟨tag, _, known, same, _⟩ | ⟨_, _, _, _, same, _⟩
  · exact same
  · cases same
  · obtain ⟨rest, starts⟩ := entity_starts _ known
    dsimp only at starts
    rw [starts] at same
    cases same
  · obtain ⟨rest, rfl⟩ := tag_starts _ known
    cases same
  · cases same

theorem of_plain (plain : c ≠ '<' ∧ c ≠ '>' ∧ c ≠ '&') (reads : Reads (c :: html) seen) :
    ∃ seen', seen = c :: seen' ∧ Reads html seen' := by
  rcases reads.inversion with ⟨⟨⟩, _⟩ | ⟨_, _, seen', same, rfl, _, rest⟩ | ⟨_, _, _, _, known, same, _⟩ |
    ⟨_, _, known, same, _⟩ | ⟨_, _, _, _, same, _⟩
  · obtain ⟨rfl, rfl⟩ := List.cons.inj same
    exact ⟨seen', rfl, rest⟩
  · exact absurd (starts_eq (entity_starts _ known) same) plain.2.2
  · exact absurd (starts_eq (tag_starts _ known) same) plain.1
  · exact absurd (List.cons.inj same).1 plain.1

theorem of_amp (reads : Reads ('&' :: html) seen) : ∃ name c html' seen', (name, c) ∈ entities ∧
    '&' :: html = name ++ html' ∧ seen = c :: seen' ∧ Reads html' seen' := by
  rcases reads.inversion with ⟨⟨⟩, _⟩ | ⟨_, _, _, same, _, plain, _⟩ | entity | ⟨_, _, known, same, _⟩ |
    ⟨_, _, _, _, same, _⟩
  · exact absurd (List.cons.inj same).1.symm plain.2.2
  · exact entity
  · exact absurd (starts_eq (tag_starts _ known) same) (by decide)
  · exact absurd (List.cons.inj same).1 (by decide)

theorem of_lt (reads : Reads ('<' :: html) seen) :
    (∃ tag html', tag ∈ tags ∧ '<' :: html = tag ++ html' ∧ Reads html' seen) ∨
    ∃ raw read html', Value raw read ∧ '<' :: html = linkStart ++ (raw ++ (linkEnd ++ html')) ∧
      Reads html' seen := by
  rcases reads.inversion with ⟨⟨⟩, _⟩ | ⟨_, _, _, same, _, plain, _⟩ | ⟨_, _, _, _, known, same, _⟩ | tag | link
  · exact absurd (List.cons.inj same).1.symm plain.1
  · exact absurd (starts_eq (entity_starts _ known) same) (by decide)
  · exact .inl tag
  · exact .inr link

theorem not_gt : ¬ Reads ('>' :: html) seen := by
  intro reads
  rcases reads.inversion with ⟨⟨⟩, _⟩ | ⟨_, _, _, same, _, plain, _⟩ | ⟨_, _, _, _, known, same, _⟩ |
    ⟨_, _, known, same, _⟩ | ⟨_, _, _, _, same, _⟩
  · exact plain.2.1 (List.cons.inj same).1.symm
  · exact absurd (starts_eq (entity_starts _ known) same) (by decide)
  · exact absurd (starts_eq (tag_starts _ known) same) (by decide)
  · exact absurd (List.cons.inj same).1 (by decide)

end Reads

/-- Where no name is the beginning of another one, a text begins with one name. -/
theorem name_eq {names : List (List Char)} (apart : ∀ n ∈ names, ∀ n' ∈ names, n <+: n' → n = n')
    {n n' html html' : List Char} (known : n ∈ names) (known' : n' ∈ names)
    (same : n ++ html = n' ++ html') : n = n' ∧ html = html' := by
  have equal : n = n' := by
    rcases List.prefix_or_prefix_of_prefix (List.prefix_append n html) (same ▸ List.prefix_append n' html') with
      shorter | shorter
    · exact apart n known n' known' shorter
    · exact (apart n' known' n known shorter).symm
  subst equal
  exact ⟨rfl, List.append_cancel_left same⟩

/-- In front of any other HTML this piece shows these characters, and that is how it must be read. -/
def Shows (piece shown : List Char) : Prop :=
  ∀ html seen, Reads (piece ++ html) seen ↔ ∃ seen', seen = shown ++ seen' ∧ Reads html seen'

namespace Shows

theorem nil : Shows [] [] := fun _ seen =>
  ⟨fun reads => ⟨seen, rfl, reads⟩, fun ⟨_, same, reads⟩ => same ▸ reads⟩

theorem append {piece piece' shown shown' : List Char} (first : Shows piece shown)
    (second : Shows piece' shown') : Shows (piece ++ piece') (shown ++ shown') := by
  intro html seen
  rw [List.append_assoc, first]
  constructor
  · rintro ⟨seen', rfl, reads⟩
    obtain ⟨seen'', rfl, reads'⟩ := (second html seen').mp reads
    exact ⟨seen'', (List.append_assoc ..).symm, reads'⟩
  · rintro ⟨seen', rfl, reads⟩
    exact ⟨shown' ++ seen', List.append_assoc .., (second html _).mpr ⟨seen', rfl, reads⟩⟩

/-- A piece alone. -/
theorem reads_iff {piece shown seen : List Char} (shows : Shows piece shown) :
    Reads piece seen ↔ seen = shown := by
  have alone := shows [] seen
  rw [List.append_nil] at alone
  rw [alone]
  constructor
  · rintro ⟨seen', rfl, reads⟩
    rw [reads.of_nil, List.append_nil]
  · rintro rfl
    exact ⟨[], (List.append_nil _).symm, .nil⟩

theorem char {c : Char} (plain : c ≠ '<' ∧ c ≠ '>' ∧ c ≠ '&') : Shows [c] [c] := by
  intro html seen
  constructor
  · exact fun reads => reads.of_plain plain
  · rintro ⟨seen', rfl, rest⟩
    exact .char plain rest

theorem entity {name : List Char} {c : Char} (known : (name, c) ∈ entities) : Shows name [c] := by
  intro html seen
  constructor
  · intro reads
    obtain ⟨rest, starts⟩ := entity_starts _ known
    dsimp only at starts
    rw [starts, List.cons_append] at reads
    obtain ⟨name', c', html', seen', known', same, rfl, reads'⟩ := reads.of_amp
    rw [← List.cons_append, ← starts] at same
    have apart : ∀ n ∈ entities.map Prod.fst, ∀ n' ∈ entities.map Prod.fst, n <+: n' → n = n' := by decide
    obtain ⟨rfl, rfl⟩ := name_eq apart (List.mem_map_of_mem known) (List.mem_map_of_mem known') same
    have one : ∀ e ∈ entities, ∀ e' ∈ entities, e.1 = e'.1 → e.2 = e'.2 := by decide
    obtain rfl : c = c' := one _ known _ known' rfl
    exact ⟨seen', rfl, reads'⟩
  · rintro ⟨seen', rfl, rest⟩
    exact .entity known rest

theorem tag {tag : List Char} (known : tag ∈ tags) : Shows tag [] := by
  intro html seen
  constructor
  · intro reads
    obtain ⟨rest, starts⟩ := tag_starts _ known
    rw [starts, List.cons_append] at reads
    have apart : ∀ n ∈ linkStart :: tags, ∀ n' ∈ linkStart :: tags, n <+: n' → n = n' := by decide
    rcases reads.of_lt with ⟨tag', html', known', same, reads'⟩ | ⟨_, _, _, _, same, _⟩
    · rw [← List.cons_append, ← starts] at same
      obtain ⟨rfl, rfl⟩ := name_eq apart (.tail _ known) (.tail _ known') same
      exact ⟨seen, rfl, reads'⟩
    · rw [← List.cons_append, ← starts] at same
      obtain ⟨rfl, _⟩ := name_eq apart (.tail _ known) List.mem_cons_self same
      exact absurd known (by decide)
  · rintro ⟨seen', rfl, rest⟩
    exact .tag known rest

end Shows

/-! ## Links -/

theorem quote_not_mem_names : (∀ e ∈ entities, '"' ∉ e.1) ∧ ∀ tag ∈ tags, '"' ∉ tag := by
  decide +kernel

theorem entity_chars : ∀ e ∈ entities, ∀ c ∈ e.1, c ≠ '<' ∧ c ≠ '>' ∧ c ≠ '"' := by
  have all : (entities.all fun e => e.1.all fun c => c ≠ '<' ∧ c ≠ '>' ∧ c ≠ '"') = true := by decide
  exact fun e known c inside =>
    of_decide_eq_true (List.all_eq_true.mp (List.all_eq_true.mp all e known) c inside)

namespace Value
variable {raw read : List Char}

theorem of_plain (plain : ∀ c ∈ raw, c ≠ '<' ∧ c ≠ '>' ∧ c ≠ '&' ∧ c ≠ '"') : Value raw raw := by
  induction raw with
  | nil => exact .nil
  | cons c raw ih => exact .char (plain c List.mem_cons_self) (ih fun c member => plain c (.tail _ member))

theorem chars (value : Value raw read) : ∀ c ∈ raw, c ≠ '<' ∧ c ≠ '>' ∧ c ≠ '"' := by
  induction value with
  | nil => exact fun c member => nomatch member
  | char plain _ ih =>
    intro c member
    rcases List.mem_cons.mp member with rfl | member
    · exact ⟨plain.1, plain.2.1, plain.2.2.2⟩
    · exact ih c member
  | entity known _ ih =>
    exact fun c member => (List.mem_append.mp member).elim (entity_chars _ known c) (ih c)

theorem no_quote (value : Value raw read) : '"' ∉ raw := fun member => (value.chars _ member).2.2 rfl

/-- As text it shows what it stands for. -/
theorem shows_read (value : Value raw read) : Shows raw read := by
  induction value with
  | nil => exact .nil
  | char plain _ ih => exact (Shows.char ⟨plain.1, plain.2.1, plain.2.2.1⟩).append ih
  | entity known _ ih => exact (Shows.entity known).append ih

/-- Without an ampersand it stands for itself, and with one for less. -/
theorem length_read (visible : Char → Bool) (entity_visible : ∀ e ∈ entities, ∀ c ∈ e.1, visible c = true)
    (value : Value raw read) : (read.filter visible).length ≤ (raw.filter visible).length ∧
      ((read.filter visible).length = (raw.filter visible).length → '&' ∉ raw) := by
  induction value with
  | nil => exact ⟨Nat.le_refl _, fun _ => List.not_mem_nil⟩
  | @char c raw read plain _ ih =>
    obtain ⟨fewer, none_left⟩ := ih
    have same : ((c :: read).filter visible).length = ((c :: raw).filter visible).length →
        '&' ∉ c :: raw := by
      rw [List.filter_cons, List.filter_cons]
      intro equal member
      have rest : '&' ∉ raw := none_left (by split at equal <;> simpa using equal)
      exact (List.mem_cons.mp member).elim (fun amp => plain.2.2.1 amp.symm) rest
    refine ⟨?_, same⟩
    rw [List.filter_cons, List.filter_cons]
    split
    · exact Nat.succ_le_succ fewer
    · exact fewer
  | @entity name c raw read known _ ih =>
    have long : 2 ≤ name.length := by
      have all : ∀ e ∈ entities, 2 ≤ e.1.length := by decide
      exact all _ known
    have whole : name.filter visible = name :=
      List.filter_eq_self.mpr fun c member => entity_visible _ known c member
    have one : ((c :: read).filter visible).length ≤ (read.filter visible).length + 1 := by
      rw [List.filter_cons]
      split
      · exact Nat.le_refl _
      · exact Nat.le_succ _
    rw [List.filter_append, whole, List.length_append]
    exact ⟨by omega, fun equal => by omega⟩

end Value

/-- A text up to its first quote. -/
theorem quote_cut {l l' html html' : List Char} (free : '"' ∉ l) (same : l ++ html = l' ++ '"' :: html') :
    ∃ rest, l' = l ++ rest ∧ html = rest ++ '"' :: html' := by
  rcases List.append_eq_append_iff.mp same with ⟨rest, rfl, later⟩ | ⟨rest, rfl, later⟩
  · exact ⟨rest, rfl, later⟩
  · cases rest with
    | nil => exact ⟨[], by simp, by simpa using later.symm⟩
    | cons c rest =>
      obtain ⟨rfl, _⟩ := List.cons.inj later
      exact absurd (List.mem_append_right _ List.mem_cons_self) free

/-- After a quote and a sign that ends no tag there is no reading, unless a link has begun. -/
theorem not_reads_broken (text html seen : List Char) (no_space : ' ' ∉ text) :
    ¬ Reads (text ++ '"' :: '>' :: html) seen := by
  induction length : text.length using Nat.strongRecOn generalizing text seen with
  | ind n ih =>
    intro reads
    cases text with
    | nil =>
      obtain ⟨seen', _, reads'⟩ := reads.of_plain (by decide)
      exact reads'.not_gt
    | cons c text =>
      subst length
      rw [List.cons_append] at reads
      have shorter (rest : List Char) (piece : List Char) (some_char : piece ≠ [])
          (same : c :: text = piece ++ rest) : rest.length < (c :: text).length ∧ ' ' ∉ rest := by
        have positive := List.length_pos_of_ne_nil some_char
        rw [same, List.length_append]
        exact ⟨by omega, fun member => no_space (same ▸ List.mem_append_right _ member)⟩
      by_cases amp : c = '&'
      · subst amp
        obtain ⟨name, _, html', seen', known, same, _, reads'⟩ := reads.of_amp
        rw [← List.cons_append] at same
        obtain ⟨rest, cut, rfl⟩ := quote_cut (quote_not_mem_names.1 _ known) same.symm
        obtain ⟨start, starts⟩ := entity_starts _ known
        obtain ⟨fewer, no_space⟩ := shorter rest name (by rintro rfl; cases starts) cut
        exact ih _ fewer rest seen' no_space rfl reads'
      by_cases lt : c = '<'
      · subst lt
        rcases reads.of_lt with ⟨tag, html', known, same, reads'⟩ | ⟨raw, read, html', _, same, _⟩
        · rw [← List.cons_append] at same
          obtain ⟨rest, cut, rfl⟩ := quote_cut (quote_not_mem_names.2 _ known) same.symm
          obtain ⟨start, starts⟩ := tag_starts _ known
          obtain ⟨fewer, no_space⟩ := shorter rest tag (by rintro rfl; cases starts) cut
          exact ih _ fewer rest seen no_space rfl reads'
        · have front : ['<', 'a', ' '] ++ (['h', 'r', 'e', 'f', '=', '"'] ++ (raw ++ (linkEnd ++ html'))) =
              '<' :: text ++ '"' :: '>' :: html := same.symm
          obtain ⟨rest, cut, _⟩ := quote_cut (by decide) front
          exact no_space (cut ▸ by simp)
      by_cases gt : c = '>'
      · subst gt
        exact reads.not_gt
      · obtain ⟨seen', _, reads'⟩ := reads.of_plain ⟨lt, gt, amp⟩
        obtain ⟨fewer, no_space⟩ := shorter text [c] (List.cons_ne_nil _ _) rfl
        exact ih _ fewer text seen' no_space rfl reads'

/-- What begins like a link is one. -/
theorem Reads.of_linkStart {text seen : List Char} (reads : Reads (linkStart ++ text) seen) :
    ∃ raw read html, Value raw read ∧ text = raw ++ (linkEnd ++ html) ∧ Reads html seen := by
  have apart : ∀ n ∈ linkStart :: tags, ∀ n' ∈ linkStart :: tags, n <+: n' → n = n' := by decide
  rcases reads.of_lt with ⟨tag, html', known, same, _⟩ | ⟨raw, read, html', value, same, reads'⟩
  · obtain ⟨rfl, _⟩ := name_eq apart List.mem_cons_self (.tail _ known) same
    exact absurd known (by decide)
  · have whole : linkStart ++ text = linkStart ++ (raw ++ (linkEnd ++ html')) := same
    exact ⟨raw, read, html', value, List.append_cancel_left whole, reads'⟩

/-- The beginning of a link shows nothing. -/
theorem Value.shows_link {address read : List Char} (value : Value address read) :
    Shows (linkStart ++ (address ++ linkEnd)) [] := by
  intro html seen
  rw [List.append_assoc, List.append_assoc]
  constructor
  · intro reads
    obtain ⟨raw, read', html', value', same, reads'⟩ := reads.of_linkStart
    obtain ⟨rest, rfl, later⟩ := quote_cut value'.no_quote same.symm
    cases rest with
    | nil =>
      have equal : linkEnd ++ html' = linkEnd ++ html := later
      obtain rfl := List.append_cancel_left equal
      exact ⟨seen, rfl, reads'⟩
    | cons c rest =>
      obtain ⟨rfl, _⟩ := List.cons.inj later
      exact absurd (List.mem_append_right _ List.mem_cons_self) value.no_quote
  · rintro ⟨seen', rfl, reads'⟩
    exact .link value reads'

/-- What is written as the address of a link, if it has no space, is read as a value or not at all. -/
theorem Reads.of_link {address html seen : List Char} (no_space : ' ' ∉ address)
    (reads : Reads (linkStart ++ (address ++ (linkEnd ++ html))) seen) :
    ∃ read, Value address read := by
  obtain ⟨raw, read, html', value, same, reads'⟩ := reads.of_linkStart
  obtain ⟨rest, rfl, later⟩ := quote_cut value.no_quote same.symm
  cases rest with
  | nil => exact ⟨read, (List.append_nil raw).symm ▸ value⟩
  | cons c rest =>
    obtain ⟨rfl, broken⟩ := List.cons.inj later
    cases rest with
    | nil => cases broken
    | cons c rest =>
      obtain ⟨rfl, rfl⟩ := List.cons.inj broken
      exact absurd reads' (not_reads_broken rest html seen fun member => no_space (by simp [member]))

end SyncEngine.HtmlText
