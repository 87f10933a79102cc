import Mathlib.Data.Nat.Digits.Lemmas
import Mathlib.Data.Int.ModEq
import SyncEngine.Util.Encoding

/-! The public ids of the API's objects: 128 bits in the database, base-36 text in a URL. The text is
read by `int(value, 36)`, which takes more than `base36encode` writes. -/
namespace SyncEngine.PublicId

/-- The digits zero of Unicode's decimal digits; the other nine follow each of them. -/
def zeros : List Nat :=
  [0x30, 0x660, 0x6f0, 0x7c0, 0x966, 0x9e6, 0xa66, 0xae6, 0xb66, 0xbe6, 0xc66, 0xce6, 0xd66, 0xe50,
    0xed0, 0xf20, 0x1040, 0x1090, 0x17e0, 0x1810, 0x1946, 0x19d0, 0x1a80, 0x1a90, 0x1b50, 0x1bb0,
    0x1c40, 0x1c50, 0xa620, 0xa8d0, 0xa900, 0xa9d0, 0xaa50, 0xabf0, 0xff10, 0x104a0, 0x1d7ce,
    0x1d7d8, 0x1d7e2, 0x1d7ec, 0x1d7f6]

/-- `unicodedata.decimal` of one character. -/
def decimal (c : Char) : Option Nat :=
  (zeros.find? fun first => first ≤ c.toNat && c.toNat < first + 10).map (c.toNat - ·)

/-- What `int` to the base 36 takes a character for. -/
def digit (c : Char) : Option Nat :=
  match decimal c with
  | some d => some d
  | none =>
    if 'a' ≤ c && c ≤ 'z' then some (c.toNat - 'a'.toNat + 10)
    else if 'A' ≤ c && c ≤ 'Z' then some (c.toNat - 'A'.toNat + 10)
    else none

/-- The number that digits denote, the highest first. -/
def valueOf (digits : List Nat) : Nat := digits.foldl (fun value d => value * 36 + d) 0

/-- What stands behind the sign of a numeral, in the blanks that `int` lets surround it. -/
def magnitude (s : Unicode) : Except String Nat :=
  match (strip s).mapM digit with
  | some (d :: ds) => .ok (valueOf (d :: ds))
  | _ => .error "invalid literal for int() with base 36"

/-- `int(number, 36)` -/
def base36decode (number : Unicode) : Except String Int :=
  match number.dropWhile isSpace with
  | '+' :: s => (magnitude s).map Int.ofNat
  | '-' :: s => (magnitude s).map fun n => -Int.ofNat n
  | s => (magnitude s).map Int.ofNat

def alphabet : Unicode := "0123456789ABCDEFGHIJKLMNOPQRSTUVWXYZ".toList

def base36encode.loop (number : Nat) (base36 : Unicode) : Unicode :=
  if number = 0 then base36
  else loop (number / 36) (alphabet.getD (number % 36) '0' :: base36)
termination_by number
decreasing_by omega

def base36encode (number : Int) : Except String Unicode :=
  if number < 0 then .error "number must be positive"
  else
    match base36encode.loop number.toNat [] with
    | [] => .ok (alphabet.take 1)
    | base36 => .ok base36

/-- A number in so many bytes, the highest first: `'>Q'` of `struct` with eight of them. -/
def pack : Nat → Nat → List UInt8
  | 0, _ => []
  | width + 1, n => pack width (n / 256) ++ [UInt8.ofNat n]

def unpack (bytes : List UInt8) : Nat := bytes.foldl (fun n byte => n * 256 + byte.toNat) 0

def int128ToB36 (int128 : List UInt8) : Except String (Option Unicode) :=
  if int128 = [] then .ok none
  else if int128.length ≠ 16 then .error "should be 16 bytes (128 bits)"
  else
    let a := unpack (int128.take 8)
    let b := unpack (int128.drop 8)
    let pubId : Nat := a * 2 ^ 64 + b
    (base36encode pubId).map fun text => some (text.map Char.toLower)

def b36ToBin (b36 : Unicode) : Except String (List UInt8) :=
  (base36decode b36).map fun int128 =>
    pack 8 (int128 / 2 ^ 64 % 2 ^ 64).toNat ++ pack 8 (int128 % 2 ^ 64).toNat

/-- `Base36UID.process_bind_param`: the key that a query by this id compares the column with. -/
def processBindParam (value : Unicode) : Except String (Option (List UInt8)) :=
  if value = [] then .ok none else (b36ToBin value).map some

/-- `validation.valid_public_id` -/
def validPublicId (value : Unicode) : Except String Unicode :=
  match base36decode value with
  | .ok _ => .ok value
  | .error _ => .error ("Invalid id: " ++ String.ofList value)

@[simp] theorem length_pack (width n : Nat) : (pack width n).length = width := by
  induction width generalizing n with
  | zero => rfl
  | succ width ih => simp [pack, ih]

theorem unpack_concat (bytes : List UInt8) (byte : UInt8) :
    unpack (bytes ++ [byte]) = unpack bytes * 256 + byte.toNat := by
  simp [unpack]

theorem unpack_lt (bytes : List UInt8) : unpack bytes < 256 ^ bytes.length := by
  induction bytes using List.reverseRecOn with
  | nil => decide
  | append_singleton bytes byte ih =>
    have := byte.toNat_lt
    rw [unpack_concat, List.length_append, List.length_singleton, Nat.pow_succ]
    omega

theorem pack_unpack (bytes : List UInt8) : pack bytes.length (unpack bytes) = bytes := by
  induction bytes using List.reverseRecOn with
  | nil => rfl
  | append_singleton bytes byte ih =>
    have small := byte.toNat_lt
    have high : (unpack bytes * 256 + byte.toNat) / 256 = unpack bytes := by omega
    have low : UInt8.ofNat (unpack bytes * 256 + byte.toNat) = byte := by
      apply UInt8.toNat_inj.mp
      rw [UInt8.toNat_ofNat']
      omega
    rw [List.length_append, List.length_singleton, pack, unpack_concat, high, low, ih]

theorem unpack_pack (width n : Nat) : unpack (pack width n) = n % 256 ^ width := by
  induction width generalizing n with
  | zero => simp [pack, unpack, Nat.mod_one]
  | succ width ih =>
    have split : n % 256 ^ (width + 1) = n % 256 + 256 * (n / 256 % 256 ^ width) := by
      rw [Nat.pow_succ']
      exact Nat.mod_mul
    rw [pack, unpack_concat, ih, UInt8.toNat_ofNat', split]
    omega

theorem pack_inj (width : Nat) {m n : Nat} :
    pack width m = pack width n ↔ m % 256 ^ width = n % 256 ^ width := by
  constructor
  · intro same
    rw [← unpack_pack, same, unpack_pack]
  · intro same
    have keep (k : Nat) : pack width (k % 256 ^ width) = pack width k := by
      have := pack_unpack (pack width k)
      rwa [length_pack, unpack_pack] at this
    rw [← keep m, same, keep n]

/-- The digits a number is written with, the highest first. -/
def digitsOf (n : Nat) : List Nat := (Nat.digits 36 n).reverse

def textOf (digits : List Nat) : Unicode := digits.map fun d => (alphabet.getD d '0').toLower

theorem loop_eq (n : Nat) (base36 : Unicode) :
    base36encode.loop n base36 = (digitsOf n).map (alphabet.getD · '0') ++ base36 := by
  induction n, base36 using base36encode.loop.induct with
  | case1 base36 => simp [base36encode.loop, digitsOf]
  | case2 n base36 nonzero ih =>
    rw [base36encode.loop, if_neg nonzero, ih, digitsOf, digitsOf,
      Nat.digits_def' (by decide) (Nat.pos_of_ne_zero nonzero)]
    simp

theorem valueOf_eq (digits : List Nat) : valueOf digits = Nat.ofDigits 36 digits.reverse := by
  induction digits using List.reverseRecOn with
  | nil => rfl
  | append_singleton digits d ih =>
    rw [valueOf, List.foldl_append, List.reverse_append]
    simp only [List.foldl_cons, List.foldl_nil, List.reverse_singleton, List.singleton_append,
      Nat.ofDigits_cons, ← ih, valueOf]
    ring

theorem valueOf_digitsOf (n : Nat) : valueOf (digitsOf n) = n := by
  rw [valueOf_eq, digitsOf, List.reverse_reverse, Nat.ofDigits_digits]

/-- The characters that `base36encode` writes, in either case. -/
def letters : Unicode := alphabet ++ alphabet.map Char.toLower

theorem letters_read : (letters.all fun c => (digit c).isSome && (digit c).getD 0 < 36 &&
    c.toLower = (alphabet.getD ((digit c).getD 0) '0').toLower) = true := by
  decide +kernel

theorem digit_letter {c : Char} (letter : c ∈ letters) :
    ∃ d < 36, digit c = some d ∧ c.toLower = (alphabet.getD d '0').toLower := by
  have read := List.all_eq_true.mp letters_read c letter
  simp only [Bool.and_eq_true, decide_eq_true_eq] at read
  obtain ⟨⟨some_digit, small⟩, lower⟩ := read
  obtain ⟨d, reads⟩ := Option.isSome_iff_exists.mp some_digit
  rw [reads, Option.getD_some] at small lower
  exact ⟨d, small, reads, lower⟩

theorem letter_digit : ∀ d < 36, (alphabet.getD d '0').toLower ∈ letters ∧
    digit (alphabet.getD d '0').toLower = some d := by
  decide +kernel

def blanks : List Nat :=
  [9, 10, 11, 12, 13, 28, 29, 30, 31, 32, 0x2000, 0x2001, 0x2002, 0x2003, 0x2004, 0x2005, 0x2006,
    0x2007, 0x2008, 0x2009, 0x200a, 0x85, 0xa0, 0x1680, 0x180e, 0x2028, 0x2029, 0x202f, 0x205f, 0x3000]

theorem low_blanks : ∀ n < 33, 9 ≤ n ∧ n ≤ 13 ∨ 28 ≤ n ∧ n ≤ 32 → n ∈ blanks := by decide

theorem wide_blanks : ∀ n < 11, 0x2000 + n ∈ blanks := by decide

theorem mem_blanks (h : isSpace c = true) : c.toNat ∈ blanks := by
  simp only [isSpace, Bool.or_eq_true, Bool.and_eq_true, decide_eq_true_eq, List.contains_iff_mem] at h
  rcases h with (low | wide) | other
  · exact low_blanks _ (by omega) low
  · obtain ⟨n, same⟩ := Nat.exists_eq_add_of_le wide.1
    exact same ▸ wide_blanks n (by omega)
  · exact List.mem_of_mem_drop (show c.toNat ∈ blanks.drop 21 from other)

theorem digit_blank : ∀ n ∈ blanks, digit (Char.ofNat n) = none := by
  decide +kernel

theorem isSpace_of_digit (h : digit c = some d) : isSpace c = false := by
  by_contra blank
  have none := digit_blank _ (mem_blanks (Bool.not_eq_false _ ▸ blank))
  rw [Char.ofNat_toNat, h] at none
  cases none

theorem map_ok {f : α → β} {x : Except ε α} : x.map f = .ok b ↔ ∃ a, x = .ok a ∧ f a = b := by
  cases x <;> simp [Except.map]

theorem all_spaces_split (s : Unicode) :
    ∃ lead rest, s = lead ++ rest ∧ (∀ c ∈ lead, isSpace c = true) ∧ rest = s.dropWhile isSpace :=
  ⟨s.takeWhile isSpace, s.dropWhile isSpace, List.takeWhile_append_dropWhile.symm,
    fun _ => List.mem_takeWhile_imp, rfl⟩

/-- Blanks, a sign, blanks, at least one digit, blanks: the number that `int` to the base 36 reads. -/
inductive Spells : Unicode → Int → Prop
  | mk (lead sign gap body trail : Unicode) (digits : List Nat)
      (lead_blank : ∀ c ∈ lead, isSpace c = true) (gap_blank : ∀ c ∈ gap, isSpace c = true)
      (trail_blank : ∀ c ∈ trail, isSpace c = true)
      (signed : sign = [] ∨ sign = ['+'] ∨ sign = ['-']) (read : body.mapM digit = some digits)
      (some_digit : digits ≠ []) :
      Spells (lead ++ (sign ++ (gap ++ (body ++ trail))))
        (if sign = ['-'] then -Int.ofNat (valueOf digits) else Int.ofNat (valueOf digits))

theorem mem_of_read {body : Unicode} {digits : List Nat} (read : body.mapM digit = some digits) :
    ∀ c ∈ body, isSpace c = false ∧ c ≠ '+' ∧ c ≠ '-' := by
  induction body generalizing digits with
  | nil => simp
  | cons c body ih =>
    rw [List.mapM_cons] at read
    obtain ⟨d, hd, rest⟩ := Option.bind_eq_some_iff.mp read
    obtain ⟨ds, hds, -⟩ := Option.bind_eq_some_iff.mp rest
    have plus : digit '+' = none := by decide +kernel
    have minus : digit '-' = none := by decide +kernel
    rintro x (_ | ⟨_, later⟩)
    · exact ⟨isSpace_of_digit hd, by rintro rfl; simp [plus] at hd, by rintro rfl; simp [minus] at hd⟩
    · exact ih hds x later

theorem dropWhile_blank {gap : Unicode} (blank : ∀ c ∈ gap, isSpace c = true) (rest : Unicode) :
    (gap ++ rest).dropWhile isSpace = rest.dropWhile isSpace := by
  induction gap with
  | nil => rfl
  | cons c gap ih =>
    simp only [List.mem_cons, forall_eq_or_imp] at blank
    rw [List.cons_append, List.dropWhile_cons_of_pos blank.1, ih blank.2]

theorem strip_tail {gap body trail : Unicode} (gap_blank : ∀ c ∈ gap, isSpace c = true)
    (trail_blank : ∀ c ∈ trail, isSpace c = true) (dark : ∀ c ∈ body, isSpace c = false)
    (nonempty : body ≠ []) : strip (gap ++ (body ++ trail)) = body := by
  have front : (body ++ trail).dropWhile isSpace = body ++ trail := by
    obtain ⟨c, rest, rfl⟩ := List.exists_cons_of_ne_nil nonempty
    rw [List.cons_append, List.dropWhile_cons_of_neg (by simp [dark c])]
  have back : (trail.reverse ++ body.reverse).dropWhile isSpace = body.reverse := by
    rw [dropWhile_blank (by simpa using trail_blank)]
    obtain ⟨c, rest, same⟩ := List.exists_cons_of_ne_nil (List.reverse_ne_nil_iff.mpr nonempty)
    rw [same, List.dropWhile_cons_of_neg]
    have : c ∈ body := List.mem_reverse.mp (same ▸ List.mem_cons_self)
    simp [dark c this]
  rw [strip, dropWhile_blank gap_blank, front, rstrip, List.rdropWhile, List.reverse_append, back,
    List.reverse_reverse]

theorem magnitude_ok {s : Unicode} {n : Nat} : magnitude s = .ok n ↔
    ∃ digits, (strip s).mapM digit = some digits ∧ digits ≠ [] ∧ n = valueOf digits := by
  unfold magnitude
  split
  case h_1 d ds read => simp [read, eq_comm]
  case h_2 bad =>
    simp only [reduceCtorEq, false_iff]
    rintro ⟨_ | ⟨d, ds⟩, read, nonempty, -⟩
    · exact nonempty rfl
    · exact bad d ds read

theorem strip_split (s : Unicode) : ∃ gap trail, s = gap ++ (strip s ++ trail) ∧
    (∀ c ∈ gap, isSpace c = true) ∧ ∀ c ∈ trail, isSpace c = true := by
  obtain ⟨gap, rest, split, gap_blank, stripped⟩ := all_spaces_split s
  refine ⟨gap, rest.rtakeWhile isSpace, ?_, gap_blank, fun _ => List.mem_rtakeWhile_imp⟩
  rw [strip, ← stripped, rstrip, List.rdropWhile_append_rtakeWhile]
  exact split

theorem strip_dropWhile (s : Unicode) : strip (s.dropWhile isSpace) = strip s := by
  rw [strip, strip, List.dropWhile_idempotent]

theorem base36decode_sound (read : base36decode s = .ok n) : Spells s n := by
  obtain ⟨lead, rest, split, lead_blank, dropped⟩ := all_spaces_split s
  have numeral {sign t : Unicode} {k : Nat} (signed : sign = [] ∨ sign = ['+'] ∨ sign = ['-'])
      (behind : rest = sign ++ t) (value : magnitude t = .ok k) :
      Spells s (if sign = ['-'] then -Int.ofNat k else Int.ofNat k) := by
    obtain ⟨digits, reads, nonempty, rfl⟩ := magnitude_ok.mp value
    obtain ⟨gap, trail, inside, gap_blank, trail_blank⟩ := strip_split t
    have whole : s = lead ++ (sign ++ (gap ++ (strip t ++ trail))) := by rw [← inside, ← behind, split]
    rw [whole]
    exact .mk lead sign gap (strip t) trail digits lead_blank gap_blank trail_blank signed reads nonempty
  unfold base36decode at read
  rw [← dropped] at read
  split at read
  case h_1 t =>
    obtain ⟨k, value, rfl⟩ := map_ok.mp read
    exact numeral (.inr (.inl rfl)) rfl value
  case h_2 t =>
    obtain ⟨k, value, rfl⟩ := map_ok.mp read
    exact numeral (.inr (.inr rfl)) rfl value
  case h_3 =>
    obtain ⟨k, value, rfl⟩ := map_ok.mp read
    exact numeral (.inl rfl) rfl value

theorem base36decode_complete (spelled : Spells s n) : base36decode s = .ok n := by
  obtain ⟨lead, sign, gap, body, trail, digits, lead_blank, gap_blank, trail_blank, signed, read,
    some_digit⟩ := spelled
  have dark := mem_of_read read
  have nonempty : body ≠ [] := by
    rintro rfl
    exact some_digit (by simpa [eq_comm] using read)
  have value : magnitude (gap ++ (body ++ trail)) = .ok (valueOf digits) := by
    rw [magnitude_ok, strip_tail gap_blank trail_blank (fun c hc => (dark c hc).1) nonempty]
    exact ⟨digits, read, some_digit, rfl⟩
  unfold base36decode
  rw [dropWhile_blank lead_blank]
  rcases signed with rfl | rfl | rfl
  · have behind : magnitude ((gap ++ (body ++ trail)).dropWhile isSpace) = .ok (valueOf digits) := by
      unfold magnitude at value ⊢
      rwa [strip_dropWhile]
    obtain ⟨c, rest, rfl⟩ := List.exists_cons_of_ne_nil nonempty
    obtain ⟨not_blank, not_plus, not_minus⟩ := dark c List.mem_cons_self
    simp only [List.nil_append, dropWhile_blank gap_blank, List.cons_append] at behind ⊢
    rw [List.dropWhile_cons_of_neg (by simp [not_blank])] at behind ⊢
    split
    case h_1 same => exact absurd (List.cons.inj same).1 not_plus
    case h_2 same => exact absurd (List.cons.inj same).1 not_minus
    case h_3 => rw [behind]; rfl
  · rw [List.singleton_append, List.dropWhile_cons_of_neg (by decide)]
    simp [value, Except.map]
  · rw [List.singleton_append, List.dropWhile_cons_of_neg (by decide)]
    simp [value, Except.map]

/-- `int` takes a numeral for exactly the number that it spells. -/
theorem base36decode_iff : base36decode s = .ok n ↔ Spells s n :=
  ⟨base36decode_sound, base36decode_complete⟩

/-- Two public ids are one to their readers: equal in lower case and without leading zeros. -/
def canonical (s : Unicode) : Unicode := (s.map Char.toLower).dropWhile (· = '0')

/-- An id as the API gives it out, and in upper case. -/
def Plain (s : Unicode) : Prop := ∀ c ∈ s, c ∈ letters

theorem b36ToBin_of_spells (spelled : Spells s n) : b36ToBin s =
    .ok (pack 8 (n / 2 ^ 64 % 2 ^ 64).toNat ++ pack 8 (n % 2 ^ 64).toNat) := by
  rw [b36ToBin, base36decode_iff.mpr spelled, Except.map]

/-- The two halves of a key hold the number modulo `2 ^ 128`. -/
theorem halves_inj (m n : Int) :
    pack 8 (m / 2 ^ 64 % 2 ^ 64).toNat ++ pack 8 (m % 2 ^ 64).toNat =
      pack 8 (n / 2 ^ 64 % 2 ^ 64).toNat ++ pack 8 (n % 2 ^ 64).toNat ↔ m ≡ n [ZMOD 2 ^ 128] := by
  have apart : ∀ {a b c d : List UInt8}, a.length = c.length → (a ++ b = c ++ d ↔ a = c ∧ b = d) :=
    fun same => ⟨fun h => List.append_inj h same, fun ⟨left, right⟩ => by rw [left, right]⟩
  rw [apart (by simp), pack_inj, pack_inj, Int.ModEq]
  omega

theorem accepted_iff : validPublicId s = .ok s ↔ ∃ n, Spells s n := by
  unfold validPublicId
  split
  case h_1 n read => simpa using ⟨n, base36decode_iff.mp read⟩
  case h_2 e failed =>
    simp only [reduceCtorEq, false_iff, not_exists, ← base36decode_iff, failed]
    simp

theorem Spells.nonempty (spelled : Spells s n) : s ≠ [] := by
  rintro rfl
  have := base36decode_iff.mpr spelled
  cases this

theorem processBindParam_of_spells (spelled : Spells s n) : processBindParam s = .ok
    (some (pack 8 (n / 2 ^ 64 % 2 ^ 64).toNat ++ pack 8 (n % 2 ^ 64).toNat)) := by
  rw [processBindParam, if_neg spelled.nonempty, b36ToBin_of_spells spelled, Except.map]

theorem mapM_textOf {digits : List Nat} (small : ∀ d ∈ digits, d < 36) :
    (textOf digits).mapM digit = some digits := by
  induction digits with
  | nil => rfl
  | cons d digits ih =>
    simp only [List.mem_cons, forall_eq_or_imp] at small
    have rest : (textOf digits).mapM digit = some digits := ih small.2
    rw [textOf, List.map_cons, List.mapM_cons, (letter_digit d small.1).2, ← textOf, rest]
    rfl

theorem spells_of_read {s : Unicode} {digits : List Nat} (read : s.mapM digit = some digits)
    (some_digit : digits ≠ []) : Spells s (valueOf digits) := by
  have spelled := Spells.mk [] [] [] s [] digits (by simp) (by simp) (by simp) (.inl rfl) read some_digit
  simpa using spelled

theorem base36encode_spec (n : Nat) : ∃ text digits, base36encode n = .ok text ∧
    text.map Char.toLower = textOf digits ∧ digits ≠ [] ∧ (∀ d ∈ digits, d < 36) ∧
      valueOf digits = n := by
  have written := loop_eq n []
  rw [List.append_nil] at written
  by_cases zero : n = 0
  · subst zero
    refine ⟨alphabet.take 1, [0], ?_, by decide, by simp, by simp, rfl⟩
    simp [base36encode, written, digitsOf]
  · have nonempty : digitsOf n ≠ [] := by
      simpa [digitsOf, Nat.digits_ne_nil_iff_ne_zero] using zero
    refine ⟨(digitsOf n).map (alphabet.getD · '0'), digitsOf n, ?_, by simp [textOf], nonempty,
      fun d hd => Nat.digits_lt_base (by decide) (List.mem_reverse.mp hd), valueOf_digitsOf n⟩
    have nonnegative : ¬(n : Int) < 0 := by omega
    rw [base36encode, if_neg nonnegative, Int.toNat_natCast, written]
    split
    case h_1 empty => exact absurd (List.map_eq_nil_iff.mp empty) nonempty
    case h_2 => rfl

theorem key_halves {m n : Nat} (high : m < 256 ^ 8) (low : n < 256 ^ 8) :
    (((m * 2 ^ 64 + n : Nat) : Int) / 2 ^ 64 % 2 ^ 64).toNat = m ∧
      (((m * 2 ^ 64 + n : Nat) : Int) % 2 ^ 64).toNat = n := by
  constructor <;> omega

theorem int128ToB36_of_length {b : List UInt8} (width : b.length = 16) : int128ToB36 b =
    (base36encode (unpack (b.take 8) * 2 ^ 64 + unpack (b.drop 8) : Nat)).map
      fun text => some (text.map Char.toLower) := by
  have nonempty : b ≠ [] := by
    rintro rfl
    cases width
  unfold int128ToB36
  rw [if_neg nonempty, if_neg (not_not.mpr width)]

theorem b36ToBin_int128ToB36 {b : List UInt8} (width : b.length = 16) :
    ∃ text, int128ToB36 b = .ok (some text) ∧ b36ToBin text = .ok b := by
  have first : (b.take 8).length = 8 := by rw [List.length_take, width]; rfl
  have second : (b.drop 8).length = 8 := by rw [List.length_drop, width]
  have high := unpack_lt (b.take 8)
  have low := unpack_lt (b.drop 8)
  rw [first] at high
  rw [second] at low
  have high_back : pack 8 (unpack (b.take 8)) = b.take 8 := by
    simpa only [first] using pack_unpack (b.take 8)
  have low_back : pack 8 (unpack (b.drop 8)) = b.drop 8 := by
    simpa only [second] using pack_unpack (b.drop 8)
  obtain ⟨text, digits, encoded, lower, some_digit, small, value⟩ :=
    base36encode_spec (unpack (b.take 8) * 2 ^ 64 + unpack (b.drop 8))
  have spelled := spells_of_read (mapM_textOf small) some_digit
  refine ⟨textOf digits, ?_, ?_⟩
  · rw [int128ToB36_of_length width, encoded, Except.map, lower]
  · obtain ⟨upper, lower⟩ := key_halves high low
    rw [b36ToBin_of_spells spelled, value, upper, lower, high_back, low_back, List.take_append_drop]

theorem Spells.unique (first : Spells s m) (second : Spells s n) : m = n := by
  rw [← base36decode_iff] at first second
  exact Except.ok.inj (first.symm.trans second)

theorem key_eq_iff (left : Spells s m) (right : Spells t n) :
    processBindParam s = processBindParam t ↔ m ≡ n [ZMOD 2 ^ 128] := by
  rw [processBindParam_of_spells left, processBindParam_of_spells right, Except.ok.injEq,
    Option.some.injEq, halves_inj]

/-- The text written for a key reads back as that key. Two texts that are accepted as ids and that
differ name different rows exactly unless the numbers they spell are equal modulo `2 ^ 128`: one
number spelled with a sign, with blanks or with other digits, or two that lie `2 ^ 128` apart. -/
theorem faithful_iff (b : List UInt8) (s t : Unicode) (width : b.length = 16)
    (accepted_s : validPublicId s = .ok s) (accepted_t : validPublicId t = .ok t) :
    (∃ text, int128ToB36 b = .ok (some text) ∧ b36ToBin text = .ok b) ∧
      ((canonical s ≠ canonical t → processBindParam s ≠ processBindParam t) ↔
        canonical s = canonical t ∨ ∀ m n, Spells s m → Spells t n → ¬ m ≡ n [ZMOD 2 ^ 128]) := by
  refine ⟨b36ToBin_int128ToB36 width, ?_⟩
  obtain ⟨m, left⟩ := accepted_iff.mp accepted_s
  obtain ⟨n, right⟩ := accepted_iff.mp accepted_t
  have spelled : (∀ m n, Spells s m → Spells t n → ¬ m ≡ n [ZMOD 2 ^ 128]) ↔
      ¬ m ≡ n [ZMOD 2 ^ 128] := by
    constructor
    · intro apart
      exact apart m n left right
    · intro apart m' n' left' right'
      rwa [left'.unique left, right'.unique right]
  rw [spelled, Ne, Ne, key_eq_iff left right]
  tauto

/-- A key that is written and read, and two ids that keep apart. -/
theorem one_and_two_faithful :
    (∃ text, int128ToB36 (List.replicate 16 1) = .ok (some text) ∧
      b36ToBin text = .ok (List.replicate 16 1)) ∧
    processBindParam ['1'] ≠ processBindParam ['2'] := by
  have accepted (d : Char) (n : Nat) (read : [d].mapM digit = some [n]) : Spells [d] (valueOf [n]) :=
    spells_of_read read (List.cons_ne_nil n [])
  have one := accepted '1' 1 (by decide +kernel)
  have two := accepted '2' 2 (by decide +kernel)
  obtain ⟨round_trip, apart⟩ := faithful_iff (List.replicate 16 1) ['1'] ['2'] (by decide)
    (accepted_iff.mpr ⟨_, one⟩) (accepted_iff.mpr ⟨_, two⟩)
  refine ⟨round_trip, apart.mpr (.inr ?_) (by decide +kernel)⟩
  intro m n left right same
  rw [left.unique one, right.unique two] at same
  exact absurd same (by decide)

/-- `2 ^ 128` and zero are one key. -/
theorem wrapped_id : ¬((∀ b : List UInt8, b.length = 16 →
      ∃ text, int128ToB36 b = .ok (some text) ∧ b36ToBin text = .ok b) ∧
    ∀ s t : Unicode, validPublicId s = .ok s → validPublicId t = .ok t →
      canonical s ≠ canonical t → processBindParam s ≠ processBindParam t) := by
  rintro ⟨-, apart⟩
  refine apart "f5lxx1zz5pnorynqglhzmsp34".toList ['0'] ?_ ?_ (by decide +kernel) (by decide +kernel)
  · decide +kernel
  · decide +kernel

theorem plain_read {s : Unicode} (plain : Plain s) : ∃ digits : List Nat,
    (∀ d ∈ digits, d < 36) ∧ s.mapM digit = some digits ∧ s.map Char.toLower = textOf digits := by
  induction s with
  | nil => exact ⟨[], by simp, rfl, rfl⟩
  | cons c s ih =>
    simp only [Plain, List.mem_cons, forall_eq_or_imp] at plain
    obtain ⟨digits, small, read, lower⟩ := ih plain.2
    obtain ⟨d, hd, first, letter⟩ := digit_letter plain.1
    refine ⟨d :: digits, by simpa using ⟨hd, small⟩, ?_, ?_⟩
    · rw [List.mapM_cons, first, read]
      rfl
    · rw [List.map_cons, letter, lower, textOf, textOf, List.map_cons]

theorem letter_zero : ∀ d < 36, ((alphabet.getD d '0').toLower = '0' ↔ d = 0) := by
  decide +kernel

theorem dropWhile_textOf {digits : List Nat} (small : ∀ d ∈ digits, d < 36) :
    (textOf digits).dropWhile (· = '0') = textOf (digits.dropWhile (· = 0)) := by
  induction digits with
  | nil => rfl
  | cons d digits ih =>
    simp only [List.mem_cons, forall_eq_or_imp] at small
    have first := letter_zero d small.1
    have rest := ih small.2
    rw [textOf] at rest ⊢
    by_cases zero : d = 0
    · rw [List.map_cons, List.dropWhile_cons_of_pos (by simpa using first.mpr zero), rest,
        List.dropWhile_cons_of_pos (by simpa using zero)]
    · rw [List.map_cons, List.dropWhile_cons_of_neg (by simpa using mt first.mp zero),
        List.dropWhile_cons_of_neg (by simpa using zero), textOf, List.map_cons]

theorem digitsOf_valueOf {digits : List Nat} (small : ∀ d ∈ digits, d < 36) :
    digitsOf (valueOf digits) = digits.dropWhile (· = 0) := by
  induction digits with
  | nil => rfl
  | cons d digits ih =>
    by_cases zero : d = 0
    · subst zero
      simp only [List.mem_cons, forall_eq_or_imp] at small
      simpa [valueOf] using ih small.2
    · rw [List.dropWhile_cons_of_neg (by simpa using zero), digitsOf, valueOf_eq,
        Nat.digits_ofDigits 36 (by decide) _ (fun x hx => small x (List.mem_reverse.mp hx))
          (by simpa using zero), List.reverse_reverse]

/-- Ids as the API writes them, below `2 ^ 128`, are distinguished by their keys. -/
theorem plain_distinct {s t : Unicode} {m n : Nat} (plain_s : Plain s) (plain_t : Plain t)
    (left : Spells s m) (right : Spells t n) (in_range_s : m < 2 ^ 128) (in_range_t : n < 2 ^ 128)
    (different : canonical s ≠ canonical t) : processBindParam s ≠ processBindParam t := by
  have spelled {s : Unicode} {n : Nat} (plain : Plain s) (spells : Spells s n) :
      canonical s = textOf (digitsOf n) := by
    obtain ⟨digits, small, read, lower⟩ := plain_read plain
    have some_digit : digits ≠ [] := by
      rintro rfl
      have empty : s = [] := by simpa [textOf] using lower
      exact spells.nonempty empty
    have value : n = valueOf digits := by exact_mod_cast spells.unique (spells_of_read read some_digit)
    rw [canonical, lower, dropWhile_textOf small, value, digitsOf_valueOf small]
  intro same
  have congruent := (key_eq_iff left right).mp same
  have equal : m = n := by
    rw [Int.ModEq] at congruent
    omega
  rw [spelled plain_s left, spelled plain_t right, equal] at different
  exact different rfl

end SyncEngine.PublicId
