import Mathlib.Data.List.Nodup

/-! What `lookup` finds in a list of pairs. -/
namespace SyncEngine

variable {α β : Type*} [BEq α] [LawfulBEq α] {entries : List (α × β)} {key : α} {value : β}

theorem mem_of_lookup_eq_some (found : entries.lookup key = some value) : (key, value) ∈ entries := by
  induction entries with
  | nil => cases found
  | cons entry rest ih =>
    rw [List.lookup_cons] at found
    split at found
    · rename_i same
      cases found
      rw [eq_of_beq same]
      exact List.mem_cons_self
    · exact List.mem_cons_of_mem _ (ih found)

theorem lookup_isSome (member : key ∈ entries.map Prod.fst) : (entries.lookup key).isSome := by
  obtain ⟨entry, among, rfl⟩ := List.mem_map.mp member
  by_contra missing
  have never := List.lookup_eq_none_iff.mp (Option.not_isSome_iff_eq_none.mp missing) entry among
  simp at never

theorem lookup_eq_some_iff (distinct : (entries.map Prod.fst).Nodup) :
    entries.lookup key = some value ↔ (key, value) ∈ entries := by
  refine ⟨mem_of_lookup_eq_some, fun member => ?_⟩
  obtain ⟨other, found⟩ := Option.isSome_iff_exists.mp (lookup_isSome (List.mem_map_of_mem member))
  rw [found, (Prod.mk.inj (List.inj_on_of_nodup_map distinct (mem_of_lookup_eq_some found) member rfl)).2]

end SyncEngine
