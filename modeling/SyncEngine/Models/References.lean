import SyncEngine.Models.ParsingErrors

/-! The References and In-Reply-To of a message, either of which a caller may leave out. -/
namespace SyncEngine
namespace References
open Synced

/-- `not header` -/
def absent (header : Option Unicode) : Bool := (header.getD []).isEmpty

/-- What is no header is appended as it is. -/
def parseReferences (references inReplyTo : Option Unicode) : Except PyError (List (Option Unicode)) := do
  let replyto ← if absent inReplyTo then pure inReplyTo else
    match pySplit (inReplyTo.getD []) with
    | [] => .error .indexError
    | first :: _ => pure (some first)
  if absent references then return if absent replyto then [] else [replyto]
  let references := (pySplit (references.getD [])).map some
  return if replyto ∈ references then references else references ++ [replyto]

/-- On two headers it is the function that the metadata of a message goes through. -/
theorem parseReferences_some (references inReplyTo : Unicode) :
    parseReferences (some references) (some inReplyTo) =
      (Synced.parseReferences references inReplyTo).map (List.map some) := by
  unfold parseReferences Synced.parseReferences
  cases inReplyTo with
  | nil =>
    cases references with
    | nil => rfl
    | cons c rest =>
      by_cases empty : [] ∈ pySplit (c :: rest) <;>
        simp [absent, empty, pure, Except.pure, Except.map, bind, Except.bind]
  | cons d word =>
    simp only [absent, Option.getD_some]
    cases words : pySplit (d :: word) with
    | nil => rfl
    | cons first later =>
      cases references with
      | nil =>
        by_cases empty : first = [] <;> simp [empty, pure, Except.pure, Except.map, bind, Except.bind]
      | cons c rest =>
        by_cases among : first ∈ pySplit (c :: rest) <;>
          simp [among, pure, Except.pure, Except.map, bind, Except.bind]

/-- `header.split()` -/
def tokens (header : Option Unicode) : List Unicode := pySplit (header.getD [])

/-- The tokens of References, and the first one of In-Reply-To unless it is among them. -/
def merged (references inReplyTo : Option Unicode) : List Unicode :=
  match (tokens inReplyTo).head? with
  | none => tokens references
  | some first => if first ∈ tokens references then tokens references else tokens references ++ [first]

theorem token_ne_nil (member : token ∈ tokens header) : token ≠ [] := by
  simpa using (List.mem_filter.mp member).2

theorem tokens_absent (none : absent header = true) : tokens header = [] := by
  rw [tokens, List.isEmpty_iff.mp none]
  rfl

theorem merged_ne_nil (member : token ∈ merged references inReplyTo) : token ≠ [] := by
  unfold merged at member
  split at member
  · exact token_ne_nil member
  · next first found =>
    split at member
    · exact token_ne_nil member
    · rcases List.mem_append.mp member with early | late
      · exact token_ne_nil early
      · rw [List.mem_singleton.mp late]
        exact token_ne_nil (List.mem_of_mem_head? found)

theorem merged_alone (none : absent references = true) (found : (tokens inReplyTo).head? = some first) :
    merged references inReplyTo = [first] := by
  simp [merged, found, tokens_absent none]

/-- With a first token of In-Reply-To, the function returns what it should. -/
theorem parseReferences_first (found : (tokens inReplyTo).head? = some first) :
    parseReferences references inReplyTo = .ok ((merged references inReplyTo).map some) := by
  obtain ⟨later, words⟩ := List.head?_eq_some_iff.mp found
  have present : absent inReplyTo = false := by
    by_contra none
    rw [tokens_absent (Bool.not_eq_false _ ▸ none)] at words
    cases words
  have nonempty : absent (some first) = false := by
    simpa [absent] using token_ne_nil (List.mem_of_mem_head? found)
  unfold parseReferences
  rw [present, show pySplit (inReplyTo.getD []) = first :: later from words]
  cases none : absent references with
  | true =>
    rw [merged_alone none found]
    simp [nonempty, pure, Except.pure, bind, Except.bind]
  | false =>
    have whole : merged references inReplyTo = if first ∈ tokens references then tokens references
        else tokens references ++ [first] := by simp only [merged, found]
    rw [whole, show pySplit (references.getD []) = tokens references from rfl]
    by_cases among : first ∈ tokens references <;> simp [among, pure, Except.pure, bind, Except.bind]

/-- Without one, the function raises unless the header is absent, and then appends what stands for it to
the tokens of References. -/
theorem parseReferences_blank (blank : tokens inReplyTo = []) :
    parseReferences references inReplyTo =
      if absent inReplyTo then .ok (if absent references then [] else (tokens references).map some ++ [inReplyTo])
      else .error .indexError := by
  unfold parseReferences
  cases none : absent inReplyTo with
  | false => simp [show pySplit (inReplyTo.getD []) = [] from blank, bind, Except.bind]
  | true =>
    have fresh : inReplyTo ∉ (tokens references).map some := by
      intro among
      obtain ⟨token, member, same⟩ := List.mem_map.mp among
      rw [← same] at none
      exact token_ne_nil member (by simpa [absent] using none)
    cases absent references with
    | true => simp [none, pure, Except.pure, bind, Except.bind]
    | false => simp [show inReplyTo ∉ (pySplit (references.getD [])).map some from fresh, tokens, pure,
        Except.pure, bind, Except.bind]

/-- In-Reply-To has a token, or there is neither header. -/
def WellFormed (references inReplyTo : Option Unicode) : Prop :=
  (∃ c ∈ inReplyTo.getD [], isSpace c = false) ∨ absent references = true ∧ absent inReplyTo = true

theorem tokens_eq_nil : tokens header = [] ↔ ¬ ∃ c ∈ header.getD [], isSpace c = false := by
  rw [tokens, pySplit_eq_nil]
  simp

/-- The function returns the merged tokens, none of them empty. -/
structure Merges (references inReplyTo : Option Unicode) : Prop where
  returned : parseReferences references inReplyTo = .ok ((merged references inReplyTo).map some)
  nonempty : ∀ token ∈ merged references inReplyTo, token ≠ []

theorem merges_iff (references inReplyTo : Option Unicode) :
    Merges references inReplyTo ↔ WellFormed references inReplyTo := by
  by_cases blank : tokens inReplyTo = []
  · have word := tokens_eq_nil.mp blank
    have unmerged : merged references inReplyTo = tokens references := by simp [merged, blank]
    constructor
    · rintro ⟨returned, _⟩
      rw [parseReferences_blank blank, unmerged] at returned
      cases absence : absent inReplyTo with
      | false => simp [absence] at returned
      | true =>
        cases none : absent references with
        | true => exact .inr ⟨none, absence⟩
        | false => simp [absence, none] at returned
    · rintro (present | ⟨none, absence⟩)
      · exact absurd present word
      · refine ⟨?_, fun _ => merged_ne_nil⟩
        rw [parseReferences_blank blank, unmerged, tokens_absent none, if_pos absence, if_pos none]
        rfl
  · refine iff_of_true ⟨?_, fun _ => merged_ne_nil⟩ (.inl (not_not.mp (mt tokens_eq_nil.mpr blank)))
    obtain ⟨first, later, words⟩ := List.exists_cons_of_ne_nil blank
    exact parseReferences_first (by rw [words]; rfl)

/-- A message that refers to another one without replying to it. -/
theorem no_reply_appends_empty : ¬ Merges (some "<a@x>".toList) (some []) := by
  rintro ⟨returned, _⟩
  exact absurd returned (by decide)

end References
end SyncEngine
