import Mathlib.Data.List.Perm.Basic
import Mathlib.Data.List.Perm.Lattice
import SyncEngine.Crispin.MessageDeletion

/-! A message that is moved to another folder by COPY, by flags and by the EXPUNGE of each folder that has
it: what the destination gains, and which other messages of these folders are lost. -/
namespace SyncEngine.MessageMove
open MessageDeletion (Entry Folders deleteMessages expunge taken)

/-- The folders as the server has them. An entry gets the UIDNEXT of its folder. -/
structure State where
  folders : Folders
  uidnext : String → Nat

structure Mailbox extends State where
  unique : ∀ name, ((folders name).map Entry.uid).Nodup
  below : ∀ name, ∀ e ∈ folders name, e.uid < uidnext name

/-- The UIDs that are known of a message, with the names of their folders, and the order in which the
dictionary of `uids_by_folder` has these names. Each folder has its UIDVALIDITY still, so that its server has
given out these UIDs. -/
structure MessageUids (s : State) where
  rows : List (Nat × String)
  folderNames : List String
  rows_nodup : rows.Nodup
  folderNames_nodup : folderNames.Nodup
  mem_folderNames : ∀ name, name ∈ folderNames ↔ ∃ uid, (uid, name) ∈ rows
  given_out : ∀ uid name, (uid, name) ∈ rows → uid < s.uidnext name

namespace MessageUids
variable {s : State} (known : MessageUids s)

def rowsIn (name : String) : List (Nat × String) := known.rows.filter (·.2 = name)

def uidsByFolder : List (String × List Nat) :=
  known.folderNames.map fun name => (name, (known.rowsIn name).map Prod.fst)

end MessageUids

/-- `conn.copy` from the selected folder. The copies have the flags of what is copied. -/
def copy (uids : List Nat) (folder destination : String) (s : State) : State :=
  let copied := (s.folders folder).filter (·.uid ∈ uids)
  { folders := Function.update s.folders destination
      (s.folders destination ++ copied.mapIdx fun n e => { e with uid := s.uidnext destination + n })
    uidnext := Function.update s.uidnext destination (s.uidnext destination + copied.length) }

/-- `CrispinClient.delete_uids` in the selected folder. -/
def deleteUids (uids : List Nat) (folder : String) (s : State) : State :=
  { s with folders := Function.update s.folders folder (expunge (deleteMessages uids (s.folders folder))) }

def moveFrom (destination : String) (s : State) (move : String × List Nat) : State :=
  deleteUids move.2 move.1 (copy move.2 move.1 destination s)

/-- Without UIDs there is only a warning. -/
def remoteMove (uidsForMessage : List (String × List Nat)) (destination : String) (s : State) : State :=
  uidsForMessage.foldl (moveFrom destination) s

/-! ## What a move may do -/

/-- An entry apart from where it is. -/
def content (e : Entry) : Entry := { e with uid := 0 }

def contentAt (s : State) (row : Nat × String) : Option Entry :=
  ((s.folders row.2).find? (·.uid = row.1)).map content

/-- What is not of the message stays with its flags, nothing new comes into other folders, and the
destination gains one copy for each UID. -/
structure MovesOnly {before : State} (known : MessageUids before) (destination : String) (after : State) :
    Prop where
  kept : ∀ name, ∀ e ∈ before.folders name, (e.uid, name) ∉ known.rows → e ∈ after.folders name
  nothing_new : ∀ name ≠ destination, ∀ e ∈ after.folders name, e ∈ before.folders name
  gained : (((after.folders destination).filter (before.uidnext destination ≤ ·.uid)).map
    (some ∘ content)).Perm (known.rows.map (contentAt before))

/-- All UIDs are still there. In the folders of the message nothing else is flagged, and nothing of it is
flagged that is copied to the destination before the EXPUNGE there. -/
structure Unflagged {s : State} (known : MessageUids s) (destination : String) : Prop where
  present : ∀ uid name, (uid, name) ∈ known.rows → ∃ e ∈ s.folders name, e.uid = uid
  spares : ∀ name ∈ known.folderNames, ∀ e ∈ s.folders name, "\\Deleted" ∈ e.flags → (e.uid, name) ∈ known.rows
  survives : ∀ name later, name :: later <:+ known.folderNames → destination ∈ name :: later →
    ∀ e ∈ s.folders name, (e.uid, name) ∈ known.rows → "\\Deleted" ∉ e.flags

/-! ## One folder -/

section Step
variable {destination : String} {s : State}

theorem deleteUids_folders (uids : List Nat) (folder name : String) :
    (deleteUids uids folder s).folders name = if name = folder then
      (s.folders name).filter (!taken (·.uid ∈ uids) ·) else s.folders name := by
  have flagged : deleteMessages uids (s.folders folder) =
      (s.folders folder).map fun e =>
        if decide (e.uid ∈ uids) then { e with flags := "\\Deleted" :: e.flags } else e := by
    simp only [deleteMessages, decide_eq_true_eq]
  by_cases here : name = folder
  · subst here
    rw [if_pos rfl, ← MessageDeletion.expunge_flagged, ← flagged]
    exact Function.update_self ..
  · rw [if_neg here]
    exact Function.update_of_ne here ..

theorem copy_folders_of_ne (uids : List Nat) (folder : String) {name : String} (other : name ≠ destination) :
    (copy uids folder destination s).folders name = s.folders name := Function.update_of_ne other _ _

/-- The entries that a COPY adds. -/
def copies (uids : List Nat) (folder destination : String) (s : State) : List Entry :=
  ((s.folders folder).filter (·.uid ∈ uids)).mapIdx fun n e => { e with uid := s.uidnext destination + n }

theorem copy_folders_self (uids : List Nat) (folder : String) :
    (copy uids folder destination s).folders destination =
      s.folders destination ++ copies uids folder destination s := Function.update_self ..

theorem uidnext_le_of_mem_copies {uids : List Nat} {folder : String} {e : Entry}
    (member : e ∈ copies uids folder destination s) : s.uidnext destination ≤ e.uid := by
  obtain ⟨n, _, rfl⟩ := List.mem_mapIdx.mp member
  exact Nat.le_add_right _ _

theorem uidnext_le_moveFrom (move : String × List Nat) (name : String) :
    s.uidnext name ≤ (moveFrom destination s move).uidnext name := by
  change _ ≤ Function.update s.uidnext destination _ name
  by_cases here : name = destination
  · subst here
    rw [Function.update_self]
    exact Nat.le_add_right _ _
  · exact Nat.le_of_eq (Function.update_of_ne here ..).symm

/-- The contents of the copies, without those that are flagged where `keeps` fails. -/
theorem copies_filter_content (uids : List Nat) (folder : String) (keeps : Bool) :
    ((copies uids folder destination s).filter (keeps || "\\Deleted" ∉ ·.flags)).map content =
      (((s.folders folder).filter (·.uid ∈ uids)).filter (keeps || "\\Deleted" ∉ ·.flags)).map content := by
  unfold copies
  generalize (s.folders folder).filter (·.uid ∈ uids) = copied
  generalize s.uidnext destination = start
  induction copied generalizing start with
  | nil => rfl
  | cons e rest ih =>
    have shifted : (rest.mapIdx fun n e => { e with uid := start + (n + 1) }) =
        rest.mapIdx fun n (e : Entry) => { e with uid := start + 1 + n } := by
      simp only [Nat.add_assoc, Nat.add_comm 1]
    rw [List.mapIdx_cons, shifted, List.filter_cons, List.filter_cons]
    dsimp only
    split
    · exact congrArg₂ List.cons rfl (ih (start + 1))
    · exact ih (start + 1)

/-- What the EXPUNGE of one move takes from a folder. -/
def takesFrom (move : String × List Nat) (name : String) (e : Entry) : Bool :=
  move.1 = name && taken (·.uid ∈ move.2) e

theorem moveFrom_folders (move : String × List Nat) (name : String) :
    (moveFrom destination s move).folders name =
      (s.folders name ++ if name = destination then copies move.2 move.1 destination s else []).filter
        (!takesFrom move name ·) := by
  have copied : (copy move.2 move.1 destination s).folders name =
      s.folders name ++ if name = destination then copies move.2 move.1 destination s else [] := by
    by_cases here : name = destination
    · subst here
      rw [if_pos rfl, copy_folders_self]
    · rw [if_neg here, List.append_nil, copy_folders_of_ne _ _ here]
  rw [moveFrom, deleteUids_folders, copied]
  by_cases source : name = move.1
  · simp [takesFrom, source]
  · simp [takesFrom, source, Ne.symm source]

theorem mem_moveFrom {move : String × List Nat} {name : String} {e : Entry} (old : e.uid < s.uidnext name) :
    e ∈ (moveFrom destination s move).folders name ↔ e ∈ s.folders name ∧ takesFrom move name e = false := by
  have not_copied : e ∉ if name = destination then copies move.2 move.1 destination s else [] := by
    split
    next here =>
      subst here
      exact fun member => absurd (uidnext_le_of_mem_copies member) (Nat.not_le.mpr old)
    next => exact List.not_mem_nil
  rw [moveFrom_folders, List.mem_filter, List.mem_append, Bool.not_eq_true']
  simp only [not_copied, or_false]

theorem moveFrom_of_ne (move : String × List Nat) {name : String} (other : name ≠ destination) :
    (moveFrom destination s move).folders name = (s.folders name).filter (!takesFrom move name ·) := by
  rw [moveFrom_folders, if_neg other, List.append_nil]

end Step

/-! ## All folders of a message -/

section Run
variable {destination : String} {moves : List (String × List Nat)} {s : State}

def takes (moves : List (String × List Nat)) (name : String) (e : Entry) : Bool :=
  moves.any (takesFrom · name e)

/-- What is left of the entries that were there before. -/
theorem mem_remoteMove {name : String} {e : Entry} (old : e.uid < s.uidnext name) :
    e ∈ (remoteMove moves destination s).folders name ↔ e ∈ s.folders name ∧ takes moves name e = false := by
  induction moves generalizing s with
  | nil => simp [remoteMove, takes]
  | cons move rest ih =>
    have later := ih (s := moveFrom destination s move)
      (Nat.lt_of_lt_of_le old (uidnext_le_moveFrom move name))
    have first : takes (move :: rest) name e = (takesFrom move name e || takes rest name e) := List.any_cons
    rw [remoteMove, List.foldl_cons, ← remoteMove, later, mem_moveFrom old, first, Bool.or_eq_false_iff,
      and_assoc]

theorem remoteMove_of_ne {name : String} (other : name ≠ destination) {e : Entry}
    (member : e ∈ (remoteMove moves destination s).folders name) : e ∈ s.folders name := by
  induction moves generalizing s with
  | nil => exact member
  | cons move rest ih =>
    have earlier := ih (s := moveFrom destination s move) member
    rw [moveFrom_of_ne move other] at earlier
    exact (List.mem_filter.mp earlier).1

/-- A copy stays unless it is flagged and the EXPUNGE of the destination is still to come. -/
def stays (moves : List (String × List Nat)) (destination : String) (e : Entry) : Bool :=
  destination ∉ moves.map Prod.fst || "\\Deleted" ∉ e.flags

/-- The contents of what the destination gains. -/
def gains (destination : String) (s : State) : List (String × List Nat) → List Entry
  | [] => []
  | move :: rest =>
    (((s.folders move.1).filter (·.uid ∈ move.2)).filter (stays (move :: rest) destination)).map content ++
      gains destination s rest

theorem gains_congr {s' : State} (same : ∀ move ∈ moves,
    (s'.folders move.1).filter (·.uid ∈ move.2) = (s.folders move.1).filter (·.uid ∈ move.2)) :
    gains destination s' moves = gains destination s moves := by
  induction moves with
  | nil => rfl
  | cons move rest ih =>
    rw [gains, gains, same move List.mem_cons_self, ih fun move member => same move (.tail _ member)]

/-- An earlier move leaves what a later one copies. -/
theorem moveFrom_uids {start : Nat} {move move' : String × List Nat} (other : move'.1 ≠ move.1)
    (known : move'.1 = destination → ∀ uid ∈ move'.2, uid < start) (fresh : start ≤ s.uidnext destination) :
    ((moveFrom destination s move).folders move'.1).filter (·.uid ∈ move'.2) =
      (s.folders move'.1).filter (·.uid ∈ move'.2) := by
  have untouched : (!takesFrom move move'.1 ·) = fun _ => true := by
    funext e
    simp [takesFrom, other.symm]
  rw [moveFrom_folders, untouched, List.filter_true, List.filter_append]
  refine (congrArg _ (List.filter_eq_nil_iff.mpr fun e member => ?_)).trans (List.append_nil _)
  split at member
  next here =>
    have above := Nat.le_trans fresh (uidnext_le_of_mem_copies member)
    rw [decide_eq_true_eq]
    exact fun named => absurd (known here _ named) (Nat.not_lt.mpr above)
  next => cases member

/-- What one move adds above `start`, and what its EXPUNGE takes there. -/
theorem moveFrom_gained {start : Nat} {move : String × List Nat}
    (known : move.1 = destination → ∀ uid ∈ move.2, uid < start) (fresh : start ≤ s.uidnext destination) :
    ((moveFrom destination s move).folders destination).filter (start ≤ ·.uid) =
      (((s.folders destination).filter (start ≤ ·.uid)) ++ copies move.2 move.1 destination s).filter
        (decide (move.1 ≠ destination) || "\\Deleted" ∉ ·.flags) := by
  have above : (copies move.2 move.1 destination s).filter (start ≤ ·.uid) =
      copies move.2 move.1 destination s :=
    List.filter_eq_self.mpr fun e member =>
      decide_eq_true (Nat.le_trans fresh (uidnext_le_of_mem_copies member))
  have joined : (s.folders destination).filter (start ≤ ·.uid) ++ copies move.2 move.1 destination s =
      (s.folders destination ++ copies move.2 move.1 destination s).filter (start ≤ ·.uid) := by
    rw [List.filter_append, above]
  rw [moveFrom_folders, if_pos rfl, joined, List.filter_filter, List.filter_filter]
  refine List.filter_congr fun e _ => ?_
  by_cases old : start ≤ e.uid
  · by_cases here : move.1 = destination
    · have unnamed : e.uid ∉ move.2 := fun named => absurd (known here _ named) (Nat.not_lt.mpr old)
      simp [takesFrom, taken, here, unnamed, old]
    · simp [takesFrom, here, old]
  · simp [old]

theorem stays_cons (move : String × List Nat) (e : Entry) : stays (move :: moves) destination e =
    (stays moves destination e && (decide (move.1 ≠ destination) || decide ("\\Deleted" ∉ e.flags))) := by
  by_cases flagged : "\\Deleted" ∈ e.flags <;> by_cases here : destination = move.1 <;>
    simp [stays, flagged, here, Ne.symm]

theorem gained_remoteMove {start : Nat} (distinct : (moves.map Prod.fst).Nodup)
    (known : ∀ move ∈ moves, move.1 = destination → ∀ uid ∈ move.2, uid < start)
    (fresh : start ≤ s.uidnext destination) :
    (((remoteMove moves destination s).folders destination).filter (start ≤ ·.uid)).map content =
      (((s.folders destination).filter (start ≤ ·.uid)).filter (stays moves destination)).map content ++
        gains destination s moves := by
  induction moves generalizing s with
  | nil => simp [remoteMove, stays, gains]
  | cons move rest ih =>
    obtain ⟨first, distinct⟩ := List.nodup_cons.mp distinct
    have later := ih (s := moveFrom destination s move) distinct
      (fun move' member => known move' (.tail _ member))
      (Nat.le_trans fresh (uidnext_le_moveFrom move destination))
    have same : gains destination (moveFrom destination s move) rest = gains destination s rest :=
      gains_congr fun move' member => moveFrom_uids (fun same => first (same ▸ List.mem_map_of_mem member))
        (known move' (.tail _ member)) fresh
    rw [remoteMove, List.foldl_cons, ← remoteMove, later, same,
      moveFrom_gained (known move List.mem_cons_self) fresh, gains, ← List.append_assoc]
    have both : (fun e => stays rest destination e &&
        (decide (move.1 ≠ destination) || decide ("\\Deleted" ∉ e.flags))) =
          stays (move :: rest) destination := funext fun e => (stays_cons move e).symm
    rw [List.filter_filter, both, List.filter_append, List.map_append]
    exact congrArg (_ ++ · ++ _)
      (copies_filter_content move.2 move.1 (decide (destination ∉ (move :: rest).map Prod.fst)))

/-- The contents of all that a COPY names. -/
def named (s : State) (moves : List (String × List Nat)) : List Entry :=
  moves.flatMap fun move => ((s.folders move.1).filter (·.uid ∈ move.2)).map content

theorem gains_sublist : (gains destination s moves).Sublist (named s moves) := by
  induction moves with
  | nil => exact .slnil
  | cons move rest ih => exact (List.filter_sublist.map content).append ih

/-- Nothing is lost of the copies. -/
theorem gains_length_iff : (gains destination s moves).length = (named s moves).length ↔
    ∀ move later, move :: later <:+ moves → destination ∈ (move :: later).map Prod.fst →
      ∀ e ∈ s.folders move.1, e.uid ∈ move.2 → "\\Deleted" ∉ e.flags := by
  induction moves with
  | nil => exact iff_of_true rfl fun move later suffix => by simp at suffix
  | cons move rest ih =>
    have few : (gains destination s rest).length ≤ (named s rest).length := gains_sublist.length_le
    have first : (((s.folders move.1).filter (·.uid ∈ move.2)).filter
        (stays (move :: rest) destination)).length = ((s.folders move.1).filter (·.uid ∈ move.2)).length ↔
          (destination ∈ (move :: rest).map Prod.fst →
            ∀ e ∈ s.folders move.1, e.uid ∈ move.2 → "\\Deleted" ∉ e.flags) := by
      rw [List.length_filter_eq_length_iff]
      simp only [List.mem_filter, decide_eq_true_eq, and_imp, stays, Bool.or_eq_true, or_iff_not_imp_left,
        not_not]
      exact ⟨fun each last e member named => each e member named last,
        fun each e member named last => each last e member named⟩
    have few' := List.length_filter_le (stays (move :: rest) destination)
      ((s.folders move.1).filter (·.uid ∈ move.2))
    have both : (gains destination s (move :: rest)).length = (named s (move :: rest)).length ↔
        (((s.folders move.1).filter (·.uid ∈ move.2)).filter (stays (move :: rest) destination)).length =
          ((s.folders move.1).filter (·.uid ∈ move.2)).length ∧
        (gains destination s rest).length = (named s rest).length := by
      rw [gains, named, List.flatMap_cons, List.length_append, List.length_append, List.length_map,
        List.length_map, ← named]
      omega
    rw [both, first, ih]
    constructor
    · rintro ⟨here, further⟩ move' later suffix
      rcases List.suffix_cons_iff.mp suffix with same | suffix
      · obtain ⟨rfl, rfl⟩ := List.cons.inj same
        exact here
      · exact further move' later suffix
    · intro each
      exact ⟨each move rest (List.suffix_refl _),
        fun move' later suffix => each move' later (suffix.trans (List.suffix_cons ..))⟩

end Run

namespace MessageUids
variable {s : State} (known : MessageUids s) {destination : String}

theorem mem_uidsByFolder {move : String × List Nat} : move ∈ known.uidsByFolder ↔
    move.1 ∈ known.folderNames ∧ move.2 = (known.rowsIn move.1).map Prod.fst := by
  rw [uidsByFolder, List.mem_map]
  constructor
  · rintro ⟨name, member, rfl⟩
    exact ⟨member, rfl⟩
  · rintro ⟨member, uids⟩
    exact ⟨move.1, member, Prod.ext rfl uids.symm⟩

theorem mem_rowsIn {row : Nat × String} {name : String} :
    row ∈ known.rowsIn name ↔ row ∈ known.rows ∧ row.2 = name := by
  rw [rowsIn, List.mem_filter, decide_eq_true_eq]

theorem rowsIn_nodup (name : String) : (known.rowsIn name).Nodup := known.rows_nodup.filter _

theorem mem_uidsIn {uid : Nat} {name : String} :
    uid ∈ (known.rowsIn name).map Prod.fst ↔ (uid, name) ∈ known.rows := by
  rw [List.mem_map]
  constructor
  · rintro ⟨row, here, rfl⟩
    obtain ⟨member, rfl⟩ := known.mem_rowsIn.mp here
    exact member
  · exact fun member => ⟨(uid, name), known.mem_rowsIn.mpr ⟨member, rfl⟩, rfl⟩

theorem map_uidsByFolder : known.uidsByFolder.map Prod.fst = known.folderNames := by
  rw [uidsByFolder, List.map_map]
  exact List.map_id _

theorem takes_iff {name : String} {e : Entry} : takes known.uidsByFolder name e = true ↔
    name ∈ known.folderNames ∧ ((e.uid, name) ∈ known.rows ∨ "\\Deleted" ∈ e.flags) := by
  simp only [takes, List.any_eq_true, takesFrom, taken, Bool.and_eq_true, Bool.or_eq_true, decide_eq_true_eq]
  constructor
  · rintro ⟨move, member, rfl, takes⟩
    obtain ⟨member, uids⟩ := known.mem_uidsByFolder.mp member
    rw [uids, mem_uidsIn] at takes
    exact ⟨member, takes⟩
  · rintro ⟨member, takes⟩
    refine ⟨(name, (known.rowsIn name).map Prod.fst), known.mem_uidsByFolder.mpr ⟨member, rfl⟩, rfl, ?_⟩
    rwa [mem_uidsIn]

/-- The rows by their folders. -/
theorem rows_perm : known.rows.Perm (known.folderNames.flatMap known.rowsIn) := by
  refine (List.perm_ext_iff_of_nodup known.rows_nodup ?_).mpr fun row => ?_
  · refine List.nodup_flatMap.mpr ⟨fun name _ => known.rowsIn_nodup name, ?_⟩
    refine known.folderNames_nodup.imp fun {name other} different row here there => different ?_
    exact (known.mem_rowsIn.mp here).2.symm.trans (known.mem_rowsIn.mp there).2
  · rw [List.mem_flatMap]
    constructor
    · intro member
      exact ⟨row.2, (known.mem_folderNames row.2).mpr ⟨row.1, member⟩, known.mem_rowsIn.mpr ⟨member, rfl⟩⟩
    · rintro ⟨_, _, member⟩
      exact (known.mem_rowsIn.mp member).1

end MessageUids

section Mailbox
variable {mailbox : Mailbox} {known : MessageUids mailbox.toState} {destination : String}

theorem find_uid {name : String} {e : Entry} (member : e ∈ mailbox.folders name) :
    (mailbox.folders name).find? (·.uid = e.uid) = some e := by
  cases found : (mailbox.folders name).find? (·.uid = e.uid) with
  | none => exact absurd (decide_eq_true rfl) (List.find?_eq_none.mp found e member)
  | some other =>
    have same : other.uid = e.uid := by simpa using List.find?_some found
    rw [List.inj_on_of_nodup_map (mailbox.unique name) (List.mem_of_find?_eq_some found) member same]

theorem named_uidsByFolder (present : ∀ uid name, (uid, name) ∈ known.rows →
    ∃ e ∈ mailbox.folders name, e.uid = uid) :
    ((named mailbox.toState known.uidsByFolder).map some).Perm
      (known.rows.map (contentAt mailbox.toState)) := by
  have each (name : String) : ((((mailbox.folders name).filter
      (·.uid ∈ (known.rowsIn name).map Prod.fst)).map (some ∘ content)).Perm
        ((known.rowsIn name).map (contentAt mailbox.toState))) := by
    have entries : (known.rowsIn name).Perm (((mailbox.folders name).filter
        (·.uid ∈ (known.rowsIn name).map Prod.fst)).map fun e => (e.uid, name)) := by
      refine (List.perm_ext_iff_of_nodup (known.rowsIn_nodup name) ?_).mpr fun row => ?_
      · have uids := (mailbox.unique name).sublist (List.filter_sublist
          (p := (·.uid ∈ (known.rowsIn name).map Prod.fst)).map Entry.uid)
        refine List.Nodup.of_map Prod.fst ?_
        rwa [List.map_map]
      · rw [known.mem_rowsIn, List.mem_map]
        constructor
        · rintro ⟨member, rfl⟩
          obtain ⟨e, here, same⟩ := present row.1 row.2 member
          refine ⟨e, List.mem_filter.mpr ⟨here, decide_eq_true ?_⟩, Prod.ext same rfl⟩
          rw [known.mem_uidsIn, same]
          exact member
        · rintro ⟨e, own, rfl⟩
          exact ⟨known.mem_uidsIn.mp (of_decide_eq_true (List.mem_filter.mp own).2), rfl⟩
    refine .trans (.of_eq ?_) (entries.map (contentAt mailbox.toState)).symm
    rw [List.map_map]
    refine List.map_congr_left fun e member => ?_
    exact (congrArg (Option.map content) (find_uid (List.mem_filter.mp member).1)).symm
  refine .trans ?_ (known.rows_perm.map (contentAt mailbox.toState)).symm
  rw [named, MessageUids.uidsByFolder, List.flatMap_map, List.map_flatMap, List.map_flatMap]
  refine List.Perm.flatMap_left _ fun name _ => ?_
  rw [List.map_map]
  exact each name

theorem gained_remoteMove_known :
    ((((remoteMove known.uidsByFolder destination mailbox.toState).folders destination).filter
      (mailbox.uidnext destination ≤ ·.uid)).map content) =
        gains destination mailbox.toState known.uidsByFolder := by
  have old : (mailbox.folders destination).filter (mailbox.uidnext destination ≤ ·.uid) = [] :=
    List.filter_eq_nil_iff.mpr fun e member => by
      rw [decide_eq_true_eq]
      exact Nat.not_le.mpr (mailbox.below destination e member)
  refine (gained_remoteMove ?_ ?_ (Nat.le_refl _)).trans ?_
  · rw [known.map_uidsByFolder]
    exact known.folderNames_nodup
  · rintro move member rfl uid here
    rw [(known.mem_uidsByFolder.mp member).2, known.mem_uidsIn] at here
    exact known.given_out uid move.1 here
  · rw [old]
    rfl

theorem kept_iff : (∀ name, ∀ e ∈ mailbox.folders name, (e.uid, name) ∉ known.rows →
      e ∈ (remoteMove known.uidsByFolder destination mailbox.toState).folders name) ↔
    ∀ name ∈ known.folderNames, ∀ e ∈ mailbox.folders name, "\\Deleted" ∈ e.flags →
      (e.uid, name) ∈ known.rows := by
  have left {name : String} {e : Entry} (member : e ∈ mailbox.folders name) :
      e ∈ (remoteMove known.uidsByFolder destination mailbox.toState).folders name ↔
        ¬ (name ∈ known.folderNames ∧ ((e.uid, name) ∈ known.rows ∨ "\\Deleted" ∈ e.flags)) := by
    rw [mem_remoteMove (mailbox.below name e member), ← known.takes_iff, Bool.not_eq_true]
    exact and_iff_right member
  constructor
  · intro kept name source e member flagged
    by_contra other
    exact (left member).mp (kept name e member other) ⟨source, .inr flagged⟩
  · intro spares name e member other
    refine (left member).mpr ?_
    rintro ⟨source, own | flagged⟩
    · exact other own
    · exact other (spares name source e member flagged)

theorem survives_iff : (gains destination mailbox.toState known.uidsByFolder).length =
      (named mailbox.toState known.uidsByFolder).length ↔
    ∀ name later, name :: later <:+ known.folderNames → destination ∈ name :: later →
      ∀ e ∈ mailbox.folders name, (e.uid, name) ∈ known.rows → "\\Deleted" ∉ e.flags := by
  rw [gains_length_iff]
  constructor
  · intro survives name later suffix last e member own
    have suffix' := suffix.map fun name => (name, (known.rowsIn name).map Prod.fst)
    rw [List.map_cons] at suffix'
    refine survives _ _ suffix' ?_ e member (known.mem_uidsIn.mpr own)
    rw [List.map_cons, List.map_map]
    exact (List.map_id later).symm ▸ last
  · intro survives move later suffix last e member own
    obtain ⟨names, suffix', same⟩ := List.suffix_map_iff.mp suffix
    cases names with
    | nil => cases same
    | cons name names =>
      obtain ⟨rfl, rfl⟩ := List.cons.inj same
      refine survives name names suffix' ?_ e member (known.mem_uidsIn.mp own)
      rw [List.map_cons, List.map_map] at last
      exact List.map_id names ▸ last

end Mailbox

theorem moves_only_iff (mailbox : Mailbox) (known : MessageUids mailbox.toState) (destination : String) :
    MovesOnly known destination (remoteMove known.uidsByFolder destination mailbox.toState) ↔
      Unflagged known destination := by
  have gained : ((((remoteMove known.uidsByFolder destination mailbox.toState).folders destination).filter
      (mailbox.uidnext destination ≤ ·.uid)).map (some ∘ content)) =
        (gains destination mailbox.toState known.uidsByFolder).map some := by
    rw [← gained_remoteMove_known, List.map_map]
  constructor
  · intro moved
    have perm := gained ▸ moved.gained
    have present uid name (known_uid : (uid, name) ∈ known.rows) :
        ∃ e ∈ mailbox.folders name, e.uid = uid := by
      have member := perm.mem_iff.mpr (List.mem_map_of_mem (f := contentAt mailbox.toState) known_uid)
      obtain ⟨e, _, same⟩ := List.mem_map.mp member
      obtain ⟨e, found, _⟩ := Option.map_eq_some_iff.mp same.symm
      exact ⟨e, List.mem_of_find?_eq_some found, by simpa using List.find?_some found⟩
    refine ⟨present, kept_iff.mp moved.kept, survives_iff.mp ?_⟩
    have length := (perm.trans (named_uidsByFolder present).symm).length_eq
    rwa [List.length_map, List.length_map] at length
  · intro clean
    refine ⟨kept_iff.mpr clean.spares, fun name other e member => remoteMove_of_ne other member, ?_⟩
    rw [gained, gains_sublist.eq_of_length (survives_iff.mpr clean.survives)]
    exact named_uidsByFolder clean.present

namespace Example

def message : Entry := { uid := 1, messageId := some "<a@x>", flags := ["\\Seen"], labels := [], msgid := 0 }

/-- Some client has flagged it and has not expunged it. -/
def flagged : Entry :=
  { uid := 2, messageId := some "<b@x>", flags := ["\\Deleted"], labels := [], msgid := 1 }

def mailbox : Mailbox where
  folders name := if name = "INBOX" then [message, flagged] else []
  uidnext _ := 3
  unique name := by
    split <;> decide
  below name e member := by
    split at member
    · revert e
      decide
    · cases member

def known : MessageUids mailbox.toState where
  rows := [(1, "INBOX")]
  folderNames := ["INBOX"]
  rows_nodup := by decide
  folderNames_nodup := by decide
  mem_folderNames name := by simp
  given_out uid name member := by
    obtain ⟨rfl, rfl⟩ := Prod.mk.inj (List.mem_singleton.mp member)
    decide

end Example

theorem move_takes_flagged : ∃ (mailbox : Mailbox) (known : MessageUids mailbox.toState) (destination : String),
    ¬ MovesOnly known destination (remoteMove known.uidsByFolder destination mailbox.toState) := by
  refine ⟨Example.mailbox, Example.known, "Archive", fun moved => ?_⟩
  have kept := moved.kept "INBOX" Example.flagged (by decide) (by decide)
  exact absurd kept (by decide)

end SyncEngine.MessageMove
