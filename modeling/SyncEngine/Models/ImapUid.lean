import Mathlib.Algebra.GroupWithZero.Nat
import Mathlib.Data.List.Dedup
import Mathlib.Data.List.Sort

/-! The rows that map UIDs to messages, with the flags and labels that sync keeps for each. -/
namespace SyncEngine

/-- `len(json.dumps(text))` without the quotes: what ASCII output writes for one character. -/
def jsonCharLength (c : Char) : Nat :=
  if c = '"' ∨ c = '\\' ∨ c = '\n' ∨ c = '\r' ∨ c = '\t' ∨ c.val = 8 ∨ c.val = 12 then 2
  else if c.val < 32 ∨ 126 < c.val then (if c.val < 0x10000 then 6 else 12)
  else 1

/-- `len(json.dumps(texts))` for a list of strings. -/
def jsonLength (texts : List String) : Nat :=
  2 + (texts.map (fun text => 2 + (text.toList.map jsonCharLength).sum)).sum + 2 * (texts.length - 1)

/-- `while len(json.dumps(extra_flags)) > 255: extra_flags.pop()`, for at most `fuel` pops. -/
def popExtraFlags : Nat → List String → List String
  | 0, extraFlags => extraFlags
  | fuel + 1, extraFlags =>
    if 255 < jsonLength extraFlags then popExtraFlags fuel extraFlags.dropLast else extraFlags

/-- The loop stops before it runs out of flags to pop. -/
theorem jsonLength_popExtraFlags (fuel : Nat) (extraFlags : List String)
    (enough : extraFlags.length ≤ fuel) : jsonLength (popExtraFlags fuel extraFlags) ≤ 255 := by
  induction fuel generalizing extraFlags with
  | zero =>
    obtain rfl := List.eq_nil_of_length_eq_zero (Nat.le_zero.mp enough)
    decide
  | succ fuel ih =>
    unfold popExtraFlags
    split
    · exact ih _ (by simp; omega)
    · omega

theorem popExtraFlags_of_short {extraFlags : List String} (short : jsonLength extraFlags ≤ 255)
    (fuel : Nat) : popExtraFlags fuel extraFlags = extraFlags := by
  cases fuel with
  | zero => rfl
  | succ => simp only [popExtraFlags, if_neg (Nat.not_lt.mpr short)]

structure FlagColumns where
  isDraft : Bool
  isSeen : Bool
  isFlagged : Bool
  isRecent : Bool
  isAnswered : Bool
  extraFlags : List String
deriving DecidableEq, Repr

namespace FlagColumns

def colForFlag : List String := ["\\Draft", "\\Seen", "\\Recent", "\\Answered", "\\Flagged"]

/-- The columns that a set of flags is stored as. -/
def ofFlags (flags : List String) : FlagColumns :=
  let extra := ((flags.filter (· ∉ colForFlag)).dedup.insertionSort (· ≤ ·))
  { isDraft := "\\Draft" ∈ flags
    isSeen := "\\Seen" ∈ flags
    isFlagged := "\\Flagged" ∈ flags
    isRecent := "\\Recent" ∈ flags
    isAnswered := "\\Answered" ∈ flags
    extraFlags := popExtraFlags extra.length extra }

end FlagColumns

structure Label where
  name : String
  canonicalName : String
  category : Nat
deriving DecidableEq, Repr

structure ImapUid extends FlagColumns where
  folderId : Nat
  msgUid : Nat
  messageId : Nat
  labels : List Label
  /-- Not a column: the UIDVALIDITY under which the server gave this UID. -/
  uidvalidity : Nat
  /-- Not a column: the modseq of the version that the flags were read from. -/
  modseq : Nat
deriving DecidableEq, Repr

namespace ImapUid

/-- The new row, and whether any value differs from what was stored. -/
def updateFlags (self : ImapUid) (newFlags : List String) : ImapUid × Bool :=
  let extraFlags := (newFlags.filter (· ∉ FlagColumns.colForFlag)).dedup.insertionSort (· ≤ ·)
  let isDraft := decide ("\\Draft" ∈ newFlags)
  let isSeen := decide ("\\Seen" ∈ newFlags)
  let isRecent := decide ("\\Recent" ∈ newFlags)
  let isAnswered := decide ("\\Answered" ∈ newFlags)
  let isFlagged := decide ("\\Flagged" ∈ newFlags)
  let changed := self.isDraft != isDraft || self.isSeen != isSeen || self.isRecent != isRecent ||
    self.isAnswered != isAnswered || self.isFlagged != isFlagged || extraFlags != self.extraFlags
  ({ self with
      isDraft, isSeen, isRecent, isAnswered, isFlagged
      extraFlags := popExtraFlags extraFlags.length extraFlags }, changed)

def categoryMap : List (String × String) :=
  [("\\Inbox", "inbox"), ("\\Important", "important"), ("\\Sent", "sent"), ("\\Trash", "trash"),
    ("\\Spam", "spam"), ("\\All", "all")]

/-- The `(name, canonical_name)` keys of the labels that the server lists. -/
def remoteLabels (newLabels : List String) : List (String × Option String) :=
  ((newLabels.filter (· ∉ ["\\Draft", "\\Starred"])).map fun label =>
    match categoryMap.lookup label with
    | some name => (name, some name)
    | none => (label, none)).dedup

/-- `Label.find_or_create` is a parameter: it decides only which label row has a key. -/
def updateLabels (findOrCreate : String → Option String → Label) (self : ImapUid)
    (newLabels : List String) : ImapUid :=
  let keyOf := fun label : Label => (label.name, some label.canonicalName)
  let remote := remoteLabels newLabels
  let add := remote.filter (· ∉ self.labels.map keyOf)
  { self with
      isDraft := "\\Draft" ∈ newLabels
      labels := self.labels.filter (fun label => keyOf label ∈ remote) ++
        add.map (fun key => findOrCreate key.1 key.2) }

end ImapUid
end SyncEngine
