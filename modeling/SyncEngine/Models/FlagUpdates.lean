import SyncEngine.Models.ImapUid

/-! What `update_flags` reports. It compares the flags before it shortens them, and stores them afterwards. -/
namespace SyncEngine

theorem popExtraFlags_of_length_le {extraFlags : List String} (enough : extraFlags.length ≤ fuel) :
    popExtraFlags fuel extraFlags = popExtraFlags extraFlags.length extraFlags := by
  induction fuel generalizing extraFlags with
  | zero =>
    obtain rfl := List.eq_nil_of_length_eq_zero (Nat.le_zero.mp enough)
    rfl
  | succ fuel ih =>
    cases extraFlags with
    | nil => exact popExtraFlags_of_short (by decide) _
    | cons first rest =>
      have shorter : ((first :: rest).dropLast).length = rest.length := by simp
      have enough : rest.length ≤ fuel := Nat.le_of_succ_le_succ enough
      rw [List.length_cons, popExtraFlags, popExtraFlags, ih (shorter.trans_le enough), shorter]

namespace ImapUid

/-- `sorted(new_flags)` once the flags with a column of their own are discarded. -/
def extraFlagsOf (newFlags : List String) : List String :=
  (newFlags.filter (· ∉ FlagColumns.colForFlag)).dedup.insertionSort (· ≤ ·)

/-- The report is right, the loop comes to an end at a text that fits, and a second call finds nothing to do. -/
structure Reliable (row : ImapUid) (newFlags : List String) : Prop where
  reports : (row.updateFlags newFlags).2 = true ↔
    (row.updateFlags newFlags).1.toFlagColumns ≠ row.toFlagColumns
  ends : ∀ fuel, (extraFlagsOf newFlags).length ≤ fuel →
    popExtraFlags fuel (extraFlagsOf newFlags) = (row.updateFlags newFlags).1.extraFlags
  fits : jsonLength (row.updateFlags newFlags).1.extraFlags ≤ 255
  settles : (row.updateFlags newFlags).1.updateFlags newFlags = ((row.updateFlags newFlags).1, false)

theorem updateFlags_columns (self : ImapUid) (newFlags : List String) :
    (self.updateFlags newFlags).1.toFlagColumns = FlagColumns.ofFlags newFlags := rfl

/-- The row of a second call is the row of the first. -/
theorem updateFlags_twice (self : ImapUid) (newFlags : List String) :
    ((self.updateFlags newFlags).1.updateFlags newFlags).1 = (self.updateFlags newFlags).1 := rfl

/-- What is compared are the columns as they would be without a limit. -/
theorem updateFlags_reports (self : ImapUid) (newFlags : List String) :
    (self.updateFlags newFlags).2 = false ↔
      self.toFlagColumns = { FlagColumns.ofFlags newFlags with extraFlags := extraFlagsOf newFlags } := by
  obtain ⟨⟨draft, seen, flagged, recent, answered, extra⟩, _⟩ := self
  simp only [updateFlags, extraFlagsOf, FlagColumns.ofFlags, Bool.or_eq_false_iff, bne_eq_false_iff_eq,
    FlagColumns.mk.injEq]
  constructor
  · rintro ⟨⟨⟨⟨⟨sameDraft, sameSeen⟩, sameRecent⟩, sameAnswered⟩, sameFlagged⟩, sameExtra⟩
    exact ⟨sameDraft, sameSeen, sameFlagged, sameRecent, sameAnswered, sameExtra.symm⟩
  · rintro ⟨sameDraft, sameSeen, sameFlagged, sameRecent, sameAnswered, sameExtra⟩
    exact ⟨⟨⟨⟨⟨sameDraft, sameSeen⟩, sameRecent⟩, sameAnswered⟩, sameFlagged⟩, sameExtra.symm⟩

theorem reports_again_iff (self : ImapUid) (newFlags : List String) :
    ((self.updateFlags newFlags).1.updateFlags newFlags).2 = false ↔
      jsonLength (extraFlagsOf newFlags) ≤ 255 := by
  rw [updateFlags_reports, updateFlags_columns]
  constructor
  · intro same
    have kept : popExtraFlags (extraFlagsOf newFlags).length (extraFlagsOf newFlags) = extraFlagsOf newFlags :=
      congrArg FlagColumns.extraFlags same
    rw [← kept]
    exact jsonLength_popExtraFlags _ _ (Nat.le_refl _)
  · intro short
    have kept : (FlagColumns.ofFlags newFlags).extraFlags = extraFlagsOf newFlags :=
      popExtraFlags_of_short short _
    rw [← kept]

/-- `update_flags` is reliable exactly for flags that need not be shortened. -/
theorem flag_updates_reliable_iff (self : ImapUid) (newFlags : List String) :
    Reliable self newFlags ↔ jsonLength (extraFlagsOf newFlags) ≤ 255 := by
  constructor
  · intro reliable
    exact (reports_again_iff self newFlags).mp (congrArg Prod.snd reliable.settles)
  · intro short
    have kept : (FlagColumns.ofFlags newFlags).extraFlags = extraFlagsOf newFlags :=
      popExtraFlags_of_short short _
    refine ⟨?_, fun fuel enough => popExtraFlags_of_length_le enough,
      jsonLength_popExtraFlags _ _ (Nat.le_refl _), ?_⟩
    · have reports := updateFlags_reports self newFlags
      rw [← kept] at reports
      rw [updateFlags_columns, ← Bool.not_eq_false, not_iff_not, reports, eq_comm]
    · exact Prod.ext (updateFlags_twice self newFlags) ((reports_again_iff self newFlags).mpr short)

/-! ## A keyword that does not fit -/
namespace Trial

def keyword (length : Nat) : String := String.ofList (List.replicate length 'a')

theorem keyword_length (length : Nat) : (keyword length).length = length := by
  rw [keyword, String.length_ofList, List.length_replicate]

theorem keyword_text (length : Nat) : jsonLength [keyword length] = length + 4 := by
  have written : ((keyword length).toList.map jsonCharLength).sum = length := by
    rw [keyword, String.toList_ofList, List.map_replicate, List.sum_replicate_nat]
    exact Nat.mul_one length
  rw [jsonLength, List.map_singleton, List.sum_singleton, written]
  simp only [List.length_singleton]
  omega

theorem keyword_extra (long : 9 < length) : extraFlagsOf [keyword length] = [keyword length] := by
  have other : keyword length ∉ FlagColumns.colForFlag := by
    intro listed
    have short : ∀ flag ∈ FlagColumns.colForFlag, flag.length ≤ 9 := by decide
    have := short _ listed
    rw [keyword_length] at this
    exact Nat.not_le_of_lt long this
  simp [extraFlagsOf, other]

/-- A row as it is first stored. -/
def row : ImapUid where
  isDraft := false
  isSeen := false
  isFlagged := false
  isRecent := false
  isAnswered := false
  extraFlags := []
  folderId := 1
  msgUid := 1
  messageId := 1
  labels := []
  uidvalidity := 1
  modseq := 1

end Trial

/-- With a keyword of 300 characters, each call reports a change, and none changes anything. -/
theorem long_keyword_reported_again : ¬ ∀ (row : ImapUid) (newFlags : List String),
    Reliable row newFlags := by
  intro claim
  have settles := (claim Trial.row [Trial.keyword 300]).settles
  have short := (reports_again_iff Trial.row [Trial.keyword 300]).mp (congrArg Prod.snd settles)
  rw [Trial.keyword_extra (by decide), Trial.keyword_text] at short
  exact absurd short (by decide)

end ImapUid
end SyncEngine
