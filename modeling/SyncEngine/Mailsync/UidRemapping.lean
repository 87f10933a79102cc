import SyncEngine.Mailsync.Gmail
import SyncEngine.Mailsync.MessageAgreement

/-! Which new UIDs the rows of a Gmail folder can be given one after the other, while no two rows of
the folder may ever have the same UID. -/
namespace SyncEngine
namespace Gmail

/-- Every row whose message the server still has, and no other, with its new UID. -/
def remapped (mapping : Nat → Option Nat) (db : Db) (rows : List ImapUid) : List ImapUid :=
  rows.filterMap fun row => (newUid mapping db row.messageId).map fun uid => { row with msgUid := uid }

def Remapped (folderId : Nat) (mapping : Nat → Option Nat) (db : Db) : Prop :=
  ∃ later, remapUids folderId mapping db = some later ∧
    later.rows folderId = remapped mapping db (db.rows folderId)

/-- For a row `a` that comes before a row `b` in the order of primary keys: the new UID of `a` is not
the one that `b` still has, and the new UID of `b` is not the one that `a` has by then. A row that
is about to be deleted keeps its UID for so long. -/
def Clear (mapping : Nat → Option Nat) (db : Db) (a b : ImapUid) : Prop :=
  (∀ uid ∈ newUid mapping db a.messageId, uid ≠ b.msgUid) ∧
    ∀ uid ∈ newUid mapping db b.messageId, uid ≠ (newUid mapping db a.messageId).getD a.msgUid

section Flush
variable (folderId : Nat) (uidFor : Nat → Option Nat)

/-- The UID that the flush gives the row, if it changes the row at all. -/
def target (row : ImapUid) : Option Nat :=
  if row.folderId = folderId then uidFor row.messageId else none

def remapRow (row : ImapUid) : ImapUid :=
  { row with msgUid := (target folderId uidFor row).getD row.msgUid }

/-- The UPDATE of `row` does not collide with `other`. -/
def Avoids (row other : ImapUid) : Prop :=
  ∀ uid ∈ target folderId uidFor row, ¬ (other.folderId = folderId ∧ other.msgUid = uid)

variable {folderId uidFor}

theorem remapRows_cons (done : List ImapUid) (row : ImapUid) (rest : List ImapUid) :
    remapRows folderId uidFor done (row :: rest) =
      if ∃ uid ∈ target folderId uidFor row, ∃ other ∈ done ++ rest,
          other.folderId = folderId ∧ other.msgUid = uid then none
      else remapRows folderId uidFor (done ++ [remapRow folderId uidFor row]) rest := by
  rw [remapRows, ← target, remapRow]
  cases chosen : target folderId uidFor row with
  | none => simp
  | some uid =>
    apply if_congr _ rfl rfl
    simp only [List.any_eq_true, decide_eq_true_eq, Option.mem_some_iff, exists_eq_left']

/-- The statements of the flush are all accepted just when none collides with a row that is done, nor
with one that is to come. -/
theorem remapRows_iff (done rest rows : List ImapUid) :
    remapRows folderId uidFor done rest = some rows ↔
      rows = done ++ rest.map (remapRow folderId uidFor) ∧
        (∀ row ∈ rest, ∀ other ∈ done, Avoids folderId uidFor row other) ∧
        rest.Pairwise fun a b => Avoids folderId uidFor a b ∧
          Avoids folderId uidFor b (remapRow folderId uidFor a) := by
  induction rest generalizing done with
  | nil => simp [remapRows, eq_comm]
  | cons row rest ih =>
    rw [remapRows_cons]
    split
    · rename_i collides
      obtain ⟨uid, chosen, other, member, taken⟩ := collides
      constructor
      · rintro ⟨⟩
      · rintro ⟨_, done_clear, pairs⟩
        rcases List.mem_append.mp member with earlier | later
        · exact absurd taken (done_clear row List.mem_cons_self other earlier uid chosen)
        · exact absurd taken ((List.rel_of_pairwise_cons pairs later).1 uid chosen)
    · rename_i clear
      have avoids : ∀ other ∈ done ++ rest, Avoids folderId uidFor row other :=
        fun other member uid chosen taken => clear ⟨uid, chosen, other, member, taken⟩
      rw [ih, List.pairwise_cons]
      constructor
      · rintro ⟨result, done_clear, pairs⟩
        refine ⟨by simp [result], ?_, ?_, pairs⟩
        · intro next member other earlier
          rcases List.mem_cons.mp member with rfl | member
          · exact avoids other (List.mem_append_left _ earlier)
          · exact done_clear next member other (List.mem_append_left _ earlier)
        · intro next member
          constructor
          · exact avoids next (List.mem_append_right _ member)
          · exact done_clear next member _ (List.mem_append_right _ List.mem_cons_self)
      · rintro ⟨result, done_clear, first, pairs⟩
        refine ⟨by simp [result], ?_, pairs⟩
        intro next member other earlier
        rcases List.mem_append.mp earlier with earlier | same
        · exact done_clear next (List.mem_cons_of_mem _ member) other earlier
        · rw [List.mem_singleton.mp same]
          exact (first next member).2

end Flush

section Folder
variable {folderId : Nat} {mapping : Nat → Option Nat} {db : Db}

/-- Only rows of the folder can collide. -/
theorem pairs_iff_clear :
    (db.imapuids.Pairwise fun a b => Avoids folderId (newUid mapping db) a b ∧
      Avoids folderId (newUid mapping db) b (remapRow folderId (newUid mapping db) a)) ↔
    (db.rows folderId).Pairwise (Clear mapping db) := by
  rw [Db.rows, List.pairwise_filter]
  apply iff_of_eq
  congr 1
  funext a b
  by_cases inside_a : a.folderId = folderId
  · by_cases inside_b : b.folderId = folderId
    · simp [Avoids, Clear, target, remapRow, inside_a, inside_b, eq_comm]
    · simp [Avoids, target, remapRow, inside_a, inside_b]
  · by_cases inside_b : b.folderId = folderId
    · simp [Avoids, target, remapRow, inside_a, inside_b]
    · simp [Avoids, target, remapRow, inside_a, inside_b]

/-- The flush and the deletions after it leave the folder with the rows that have a new UID. -/
theorem rows_after (rows : List ImapUid) :
    ((rows.map (remapRow folderId (newUid mapping db))).filter
        (fun row => !unmapped folderId mapping db row)).filter (fun row => row.folderId = folderId) =
      remapped mapping db (rows.filter fun row => row.folderId = folderId) := by
  induction rows with
  | nil => rfl
  | cons row rest ih =>
    by_cases inside : row.folderId = folderId
    · cases chosen : newUid mapping db row.messageId with
      | none | some uid => simpa [remapped, remapRow, target, unmapped, inside, chosen] using ih
    · simpa [remapRow, target, unmapped, inside] using ih

end Folder

/-- The rows get their new UIDs just when they can be given them in the order of their keys. -/
theorem remapped_iff_clear (folderId : Nat) (mapping : Nat → Option Nat) (db : Db) :
    Remapped folderId mapping db ↔ (db.rows folderId).Pairwise (Clear mapping db) := by
  rw [← pairs_iff_clear]
  constructor
  · rintro ⟨later, accepted, _⟩
    obtain ⟨rows, flushed, _⟩ := Option.map_eq_some_iff.mp accepted
    exact ((remapRows_iff [] db.imapuids rows).mp flushed).2.2
  · intro pairs
    have flushed := (remapRows_iff [] db.imapuids _).mpr ⟨rfl, by simp, pairs⟩
    refine ⟨_, by rw [remapUids, flushed]; rfl, ?_⟩
    exact rows_after db.imapuids

/-! ## A message in front of the others -/

def message (id gMsgid : Nat) : Message where
  id := id
  threadId := none
  subject := ""
  receivedDate := 0
  snippet := ""
  isRead := false
  isStarred := false
  isDraft := false
  categories := []
  categoriesChanges := false
  gMsgid := some gMsgid
  gThrid := none
  deletedAt := none
  hadUid := true

def uidRow (uid messageId : Nat) : ImapUid where
  toFlagColumns := .ofFlags []
  folderId := 1
  msgUid := uid
  messageId := messageId
  labels := []
  uidvalidity := 1
  modseq := 1

def twoMessages : Db where
  categoryType := .label
  folders := []
  imapuids := [uidRow 1 10, uidRow 2 20]
  messages := [message 10 100, message 20 200]
  threads := []
  actionLog := []

def shifted (gMsgid : Nat) : Option Nat :=
  if gMsgid = 100 then some 2 else if gMsgid = 200 then some 3 else none

/-- The first row would have to get the UID that the second still has. -/
theorem shift_refused : ¬ ∀ folderId mapping db,
    (∀ g h uid, mapping g = some uid → mapping h = some uid → g = h) → UniqueUids db →
      Remapped folderId mapping db := by
  intro always
  have injective : ∀ g h uid, shifted g = some uid → shifted h = some uid → g = h := by
    intro g h uid first second
    unfold shifted at first second
    split at first <;> split at second <;> grind
  obtain ⟨later, accepted, _⟩ := always 1 shifted twoMessages injective (by decide)
  have refused : remapUids 1 shifted twoMessages = none := by decide
  rw [refused] at accepted
  cases accepted

end Gmail
end SyncEngine
