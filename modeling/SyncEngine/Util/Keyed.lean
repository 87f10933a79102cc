import Mathlib.Data.List.AList
import Mathlib.Data.List.Induction
import Mathlib.Data.List.Perm.Subperm

/-! Dictionaries that are made of a list by a key of its elements, where a later element takes the place of an
earlier one. -/
namespace SyncEngine
variable {κ α β : Type*} [DecidableEq κ]

def keyed (key : α → κ) (xs : List α) : AList fun _ : κ => α :=
  xs.foldl (fun dict x => dict.insert (key x) x) ∅

/-- The last element with a key is found under it. -/
theorem lookup_keyed (key : α → κ) (xs : List α) (k : κ) :
    (keyed key xs).lookup k = xs.reverse.find? (key · = k) := by
  induction xs using List.reverseRecOn with
  | nil => rfl
  | append_singleton xs x ih =>
    have whole : keyed key (xs ++ [x]) = (keyed key xs).insert (key x) x := List.foldl_concat ..
    rw [whole, List.reverse_concat, List.find?_cons]
    by_cases same : key x = k
    · subst same
      simp [AList.lookup_insert]
    · rw [AList.lookup_insert_ne (Ne.symm same), ih]
      simp [same]

variable {dict other : AList fun _ : κ => α} {f : α → β}

theorem mem_keys_iff_isSome {k : κ} : k ∈ dict.keys ↔ (dict.lookup k).isSome :=
  AList.lookup_isSome.symm

theorem keys_perm (agree : ∀ k, (dict.lookup k).map f = (other.lookup k).map f) :
    dict.keys.Perm other.keys := by
  refine (List.perm_ext_iff_of_nodup dict.keys_nodup other.keys_nodup).mpr fun k => ?_
  rw [mem_keys_iff_isSome, mem_keys_iff_isSome, ← Option.isSome_map (f := f), agree k, Option.isSome_map]

/-- With as many keys it is enough to compare what is found under the keys of one of them. -/
theorem agree_iff : (∀ k, (dict.lookup k).map f = (other.lookup k).map f) ↔
    dict.keys.length = other.keys.length ∧
      ∀ entry ∈ dict.entries, (other.lookup entry.1).map f = some (f entry.2) := by
  constructor
  · intro agree
    refine ⟨(keys_perm agree).length_eq, fun entry member => ?_⟩
    rw [← agree entry.1, AList.mem_lookup_iff.mpr member]
    rfl
  · rintro ⟨as_many, found⟩ k
    cases here : dict.lookup k with
    | some x => exact (found ⟨k, x⟩ (AList.mem_lookup_iff.mp here)).symm
    | none =>
      have among : dict.keys ⊆ other.keys := by
        intro k' member
        obtain ⟨x, under⟩ := Option.isSome_iff_exists.mp (mem_keys_iff_isSome.mp member)
        have mapped := found ⟨k', x⟩ (AList.mem_lookup_iff.mp under)
        rw [mem_keys_iff_isSome, ← Option.isSome_map (f := f), mapped]
        rfl
      have same := (dict.keys_nodup.subperm among).perm_of_length_le (Nat.le_of_eq as_many.symm)
      have missing : k ∉ other.keys := by
        rw [← same.mem_iff, mem_keys_iff_isSome, here]
        exact Bool.false_ne_true
      rw [mem_keys_iff_isSome, Option.not_isSome_iff_eq_none] at missing
      rw [missing]

end SyncEngine
