import Mathlib.Data.List.Sort
import Mathlib.Tactic.Ring

/-! Reading a list page by page, where the reader keeps no more of a page than its last element: of
the rest it sees what lies `beyond` that element. -/
namespace Chunked

variable {α : Type*} {limit : Nat} {beyond : α → α → Bool} {s : List α}

theorem left_lt (some_page : s.take limit ≠ []) (p : α → Bool) :
    ((s.drop limit).filter p).length < s.length := by
  have fewer := List.length_filter_le p (s.drop limit)
  have limited : limit ≠ 0 := by
    rintro rfl
    exact some_page rfl
  have some_left : s.length ≠ 0 := by
    intro empty
    rw [List.length_eq_zero_iff.mp empty] at some_page
    exact some_page (List.take_nil ..)
  rw [List.length_drop] at fewer
  omega

/-- What is read in all until a page comes back empty. -/
def drain (limit : Nat) (beyond : α → α → Bool) (s : List α) : List α :=
  if some_page : s.take limit ≠ [] then
    s.take limit ++
      drain limit beyond ((s.drop limit).filter (beyond ((s.take limit).getLast some_page)))
  else []
termination_by s.length
decreasing_by exact left_lt some_page _

theorem drain_empty (no_page : s.take limit = []) : drain limit beyond s = [] := by
  rw [drain, dif_neg (not_not.mpr no_page)]

theorem drain_page (some_page : s.take limit ≠ []) : drain limit beyond s = s.take limit ++
    drain limit beyond ((s.drop limit).filter (beyond ((s.take limit).getLast some_page))) := by
  rw [drain, dif_pos some_page]

theorem drain_sublist : (drain limit beyond s).Sublist s := by
  induction s using drain.induct limit beyond with
  | case1 s some_page ih =>
    rw [drain_page some_page]
    have within := List.Sublist.append_left (ih.trans List.filter_sublist) (s.take limit)
    rwa [List.take_append_drop] at within
  | case2 s no_page =>
    rw [drain_empty (not_not.mp no_page)]
    exact List.nil_sublist s

/-- Everything behind the end of a full page lies beyond the last element of that page. -/
def Continuous (limit : Nat) (beyond : α → α → Bool) (s : List α) : Prop :=
  ∀ page last, s[(page + 1) * limit - 1]? = some last →
    ∀ later ∈ s.drop ((page + 1) * limit), beyond last later = true

theorem continuous_of_no_page (limited : 0 < limit) (no_page : s.take limit = []) :
    Continuous limit beyond s := by
  have empty : s = [] := by
    rcases List.take_eq_nil_iff.mp no_page with rfl | empty
    · exact absurd limited (lt_irrefl 0)
    · exact empty
  subst empty
  intro page last found
  simp at found

theorem continuous_page (limited : 0 < limit) (some_page : s.take limit ≠ []) :
    Continuous limit beyond s ↔
      (∀ later ∈ s.drop limit, beyond ((s.take limit).getLast some_page) later = true) ∧
        Continuous limit beyond (s.drop limit) := by
  have shift (page : Nat) : (s.drop limit)[(page + 1) * limit - 1]? = s[(page + 2) * limit - 1]? := by
    have : 0 < (page + 1) * limit := Nat.mul_pos page.succ_pos limited
    rw [List.getElem?_drop]
    congr 1
    rw [show (page + 2) * limit = (page + 1) * limit + limit by ring]
    omega
  have shift_drop (page : Nat) :
      (s.drop limit).drop ((page + 1) * limit) = s.drop ((page + 2) * limit) := by
    rw [List.drop_drop]
    congr 1
    ring
  have first (full : limit ≤ s.length) :
      s[limit - 1]? = some ((s.take limit).getLast some_page) := by
    rw [← List.getLast?_eq_some_getLast, List.getLast?_eq_getElem?, List.length_take,
      min_eq_left full, List.getElem?_take_of_lt]
    have := List.take_eq_nil_iff.not.mp some_page
    omega
  constructor
  · intro continuous
    refine ⟨fun later later_mem => ?_, fun page last found later later_mem => ?_⟩
    · have full : limit ≤ s.length := by
        have := List.length_pos_of_mem later_mem
        rw [List.length_drop] at this
        omega
      refine continuous 0 _ ?_ later ?_ <;> rw [zero_add, one_mul]
      · exact first full
      · exact later_mem
    · rw [shift] at found
      rw [shift_drop] at later_mem
      exact continuous (page + 1) last found later later_mem
  · rintro ⟨front, rest⟩ page last found later later_mem
    cases page with
    | zero =>
      rw [zero_add, one_mul] at found later_mem
      have full : limit ≤ s.length := by
        have := (List.getElem?_eq_some_iff.mp found).1
        omega
      rw [first full, Option.some.injEq] at found
      exact found ▸ front later later_mem
    | succ page =>
      rw [← shift] at found
      rw [← shift_drop] at later_mem
      exact rest page last found later later_mem

/-- The reader gets everything exactly when no page drops anything behind it. -/
theorem drain_eq_iff (limited : 0 < limit) :
    drain limit beyond s = s ↔ Continuous limit beyond s := by
  induction s using drain.induct limit beyond with
  | case1 s some_page ih =>
    rw [drain_page some_page, continuous_page limited some_page]
    set last := (s.take limit).getLast some_page
    have whole : s.take limit ++ drain limit beyond ((s.drop limit).filter (beyond last)) = s ↔
        drain limit beyond ((s.drop limit).filter (beyond last)) = s.drop limit := by
      conv_lhs => rhs; rw [← List.take_append_drop limit s]
      rw [List.append_cancel_left_eq]
    rw [whole]
    constructor
    · intro all
      have kept : (s.drop limit).filter (beyond last) = s.drop limit := by
        refine List.filter_sublist.eq_of_length_le ?_
        calc
          (s.drop limit).length = (drain limit beyond ((s.drop limit).filter (beyond last))).length := by
            rw [all]
          _ ≤ ((s.drop limit).filter (beyond last)).length := drain_sublist.length_le
      rw [kept] at ih all
      exact ⟨List.filter_eq_self.mp kept, ih.mp all⟩
    · rintro ⟨front, rest⟩
      have kept := List.filter_eq_self.mpr front
      rw [kept] at ih ⊢
      exact ih.mpr rest
  | case2 s no_page =>
    have no_page := not_not.mp no_page
    rcases List.take_eq_nil_iff.mp no_page with rfl | rfl
    · exact absurd limited (lt_irrefl 0)
    · simpa [drain_empty no_page] using continuous_of_no_page limited no_page

end Chunked
