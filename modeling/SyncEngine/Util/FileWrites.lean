import Mathlib.Data.List.Basic

/-! What a file holds when some of its bytes are written at an offset, perhaps beyond its end. Nothing here
fixes the bytes. -/
namespace FileWrites
variable {Byte : Type} [Zero Byte] {contents data : List Byte} {offset count i : Nat}

/-- What lies between the end of the file and the offset reads as zeros. -/
def overwrite (contents : List Byte) (offset : Nat) (chunk : List Byte) : List Byte :=
  contents.take offset ++ List.replicate (offset - contents.length) 0 ++ chunk ++
    contents.drop (offset + chunk.length)

/-- The next bytes of the data that someone writes who has written `offset` of them. -/
def chunkAt (data : List Byte) (offset count : Nat) : List Byte := (data.drop offset).take count

omit [Zero Byte] in
theorem chunkAt_length (within : offset ≤ data.length) : offset + (chunkAt data offset count).length ≤ data.length := by
  rw [chunkAt, List.length_take, List.length_drop]
  omega

theorem overwrite_length (contents : List Byte) (offset : Nat) (chunk : List Byte) :
    (overwrite contents offset chunk).length = max contents.length (offset + chunk.length) := by
  simp only [overwrite, List.length_append, List.length_take, List.length_replicate, List.length_drop]
  omega

theorem overwrite_before (before : i < offset) (inside : i < contents.length) (chunk : List Byte) :
    (overwrite contents offset chunk)[i]? = contents[i]? := by
  rw [overwrite, List.append_assoc, List.append_assoc, List.getElem?_append_left (by simp; omega),
    List.getElem?_take_of_lt before]

theorem overwrite_after (chunk : List Byte) (after : offset + chunk.length ≤ i) :
    (overwrite contents offset chunk)[i]? = contents[i]? := by
  have front : (contents.take offset ++ List.replicate (offset - contents.length) 0 ++ chunk).length =
      offset + chunk.length := by simp; omega
  rw [overwrite, List.getElem?_append_right (by omega), front, List.getElem?_drop]
  congr 1
  omega

theorem overwrite_inside (chunk : List Byte) (from_offset : offset ≤ i) (below : i < offset + chunk.length) :
    (overwrite contents offset chunk)[i]? = chunk[i - offset]? := by
  have front : (contents.take offset ++ List.replicate (offset - contents.length) (0 : Byte)).length = offset := by
    simp; omega
  rw [overwrite, List.getElem?_append_left (by simp at front ⊢; omega), List.getElem?_append_right (by omega), front]

/-- Every byte that is the right one stays so when others write the same data, and what they write is right. -/
theorem overwrite_agrees (within : offset ≤ data.length)
    (right : contents[i]? = data[i]? ∨ offset ≤ i ∧ i < offset + (chunkAt data offset count).length) :
    (overwrite contents offset (chunkAt data offset count))[i]? = data[i]? := by
  by_cases below : i < offset
  · have agrees : contents[i]? = data[i]? := right.resolve_right (by omega)
    have inside : i < contents.length := by
      by_contra beyond
      rw [List.getElem?_eq_none (by omega)] at agrees
      have := List.getElem?_eq_none_iff.mp agrees.symm
      omega
    rw [overwrite_before below inside, agrees]
  · by_cases written : i < offset + (chunkAt data offset count).length
    · rw [overwrite_inside _ (by omega) written, chunkAt, List.getElem?_take_of_lt, List.getElem?_drop]
      · congr 1
        omega
      · rw [chunkAt, List.length_take] at written
        omega
    · rw [overwrite_after _ (by omega)]
      exact right.resolve_right fun inside => written inside.2

end FileWrites
