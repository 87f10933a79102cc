import Mathlib.Data.List.Forall2
import SyncEngine.Util.Raising

/-! A list that is mapped by a function which may raise. -/
namespace SyncEngine

variable {ε α β : Type} {f : α → Except ε β} {items : List α} {results : List β}

theorem mapM_ok_iff : items.mapM f = .ok results ↔ List.Forall₂ (fun a b => f a = .ok b) items results := by
  induction items generalizing results with
  | nil =>
    rw [List.forall₂_nil_left_iff]
    exact ⟨fun done => (Except.ok.inj done).symm, fun none => none ▸ rfl⟩
  | cons head tail ih =>
    rw [List.mapM_cons]
    constructor
    · intro done
      obtain ⟨value, here, done⟩ := bind_ok done
      obtain ⟨values, later, done⟩ := bind_ok done
      cases done
      exact .cons here (ih.mp later)
    · rintro (_ | ⟨here, later⟩)
      rw [here, ih.mpr later]
      rfl

/-- Where nothing raises, it is a map. -/
theorem mapM_of_forall {g : α → β} (each : ∀ a ∈ items, f a = .ok (g a)) : items.mapM f = .ok (items.map g) :=
  mapM_ok_iff.mpr (List.forall₂_map_right_iff.mpr (List.forall₂_same.mpr each))

theorem mapM_isOk_iff : (∃ results, items.mapM f = .ok results) ↔ ∀ a ∈ items, ∃ b, f a = .ok b := by
  induction items with
  | nil => exact iff_of_true ⟨[], rfl⟩ (List.forall_mem_nil _)
  | cons head tail ih =>
    rw [List.forall_mem_cons, ← ih]
    constructor
    · rintro ⟨results, done⟩
      cases mapM_ok_iff.mp done with
      | cons here later => exact ⟨⟨_, here⟩, _, mapM_ok_iff.mpr later⟩
    · rintro ⟨⟨value, here⟩, values, later⟩
      exact ⟨value :: values, mapM_ok_iff.mpr (.cons here (mapM_ok_iff.mp later))⟩

end SyncEngine
