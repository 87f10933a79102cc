import Mathlib.Data.List.DropRight

/-! Text as Python's `unicode` holds it, one code point after the other, and the truncation that
fits it into a column. -/
namespace SyncEngine

abbrev Unicode := List Char

instance : LawfulBEq Unicode := List.instLawfulBEq

instance : LawfulBEq (Option Unicode) := Option.instLawfulBEq Unicode

/-- `unicode.isspace` of one character. -/
def isSpace (c : Char) : Bool :=
  (9 ≤ c.toNat && c.toNat ≤ 13) || (28 ≤ c.toNat && c.toNat ≤ 32) ||
  (0x2000 ≤ c.toNat && c.toNat ≤ 0x200a) ||
  [0x85, 0xa0, 0x1680, 0x180e, 0x2028, 0x2029, 0x202f, 0x205f, 0x3000].contains c.toNat

def rstrip (s : Unicode) : Unicode := s.rdropWhile isSpace

def strip (s : Unicode) : Unicode := rstrip (s.dropWhile isSpace)

/-- `s.split()` -/
def pySplit (s : Unicode) : List Unicode := (s.splitOnP isSpace).filter (· ≠ [])

def unicodeSafeTruncate (s : Unicode) (maxLength : Nat) : Unicode := (rstrip s).take maxLength

theorem length_rstrip_le (s : Unicode) : (rstrip s).length ≤ s.length :=
  (List.rdropWhile_prefix isSpace s).length_le

theorem rstrip_rstrip (s : Unicode) : rstrip (rstrip s) = rstrip s :=
  List.rdropWhile_idempotent isSpace s

theorem length_unicodeSafeTruncate_le (s : Unicode) (maxLength : Nat) :
    (unicodeSafeTruncate s maxLength).length ≤ maxLength :=
  List.length_take_le maxLength (rstrip s)

/-- Only the first truncation cuts: what a later one can still do is strip the end. -/
theorem unicodeSafeTruncate_of_length_le {s : Unicode} (short : s.length ≤ maxLength) :
    unicodeSafeTruncate s maxLength = rstrip s :=
  List.take_of_length_le ((length_rstrip_le s).trans short)

theorem unicodeSafeTruncate_twice (s : Unicode) (maxLength : Nat) :
    unicodeSafeTruncate (unicodeSafeTruncate s maxLength) maxLength =
      rstrip (unicodeSafeTruncate s maxLength) :=
  unicodeSafeTruncate_of_length_le (length_unicodeSafeTruncate_le s maxLength)

/-- Truncation need not be idempotent, since the cut can end in whitespace, but twice is enough. -/
theorem unicodeSafeTruncate_thrice (s : Unicode) (maxLength : Nat) :
    unicodeSafeTruncate (unicodeSafeTruncate (unicodeSafeTruncate s maxLength) maxLength) maxLength =
      unicodeSafeTruncate (unicodeSafeTruncate s maxLength) maxLength := by
  rw [unicodeSafeTruncate_twice, unicodeSafeTruncate_twice, rstrip_rstrip]

/-- A name that was cut right behind a blank loses it at the next truncation. -/
example : unicodeSafeTruncate "ab c".toList 3 = "ab ".toList ∧
    unicodeSafeTruncate (unicodeSafeTruncate "ab c".toList 3) 3 = "ab".toList := by decide

end SyncEngine
