import SyncEngine.Events.Invites

/-! What becomes of the versions of an invite. Each file's rows are looked up once, before any of its
invites is handled; the run is therefore one of single invites, of the answers to unknown events and of the
flushes between them. -/
namespace SyncEngine.Events

/-! ## The run as single steps -/

inductive Step where
  | invite (message : Nat) (invite : Event)
  | rsvp (message : Nat) (rsvp : Event)
  | flush
deriving DecidableEq

namespace EmailedEvents

def uids (c : EmailedEvents) : List Unicode := c.rows.map (·.uid)

/-- The uids of the rows that a query finds. -/
def found (c : EmailedEvents) : List Unicode := c.uids.take c.flushed

/-- The place of the last row with this uid that a query finds. -/
def place (c : EmailedEvents) (uid : Unicode) : Option Nat := placeOf c.found.zipIdx uid

def step (casing : Casing) (c : EmailedEvents) : Step → EmailedEvents
  | .invite message invite => { c with rows := handleInvite casing message (c.place invite.uid) c.rows invite }
  | .rsvp message rsvp => { c with rows := c.rows ++ [{ rsvp with message := some message }] }
  | .flush => { c with flushed := c.rows.length }

def run (casing : Casing) (c : EmailedEvents) (steps : List Step) : EmailedEvents := steps.foldl (step casing) c

end EmailedEvents

/-- What one answer comes to: a new row, a flush, or nothing. -/
def rsvpSteps (message : Nat) (existing : Option Synced) (rsvp : Event) : List Step :=
  match existing with
  | none => [.rsvp message rsvp]
  | some existing => if existing.sequenceNumber = rsvp.sequenceNumber then [.flush] else []

def Attached.steps (casing : Casing) (gmail : Bool) (file : Attached) : List Step :=
  let table := answeredTable casing file.synced file.rsvps
  file.invites.map (.invite file.message) ++
    ((if gmail then [] else file.rsvps.flatMap fun rsvp =>
      rsvpSteps file.message (answered casing table rsvp) rsvp) ++ if file.last then [.flush] else [])

variable {casing : Casing} {gmail : Bool}

theorem placeOf_some {uids : List Unicode} (at_place : placeOf uids.zipIdx uid = some i) :
    uids[i]? = some uid := by
  obtain ⟨⟨u, j⟩, last, rfl⟩ := Option.map_eq_some_iff.mp at_place
  have mem := List.mem_of_getLast? last
  obtain ⟨inside, same⟩ := List.mem_filter.mp mem
  have at_j := List.mem_zipIdx_iff_getElem?.mp inside
  rwa [show u = uid from of_decide_eq_true same] at at_j

theorem placeOf_none {uids : List Unicode} : placeOf uids.zipIdx uid = none ↔ uid ∉ uids := by
  rw [placeOf, Option.map_eq_none_iff, List.getLast?_eq_none_iff, List.filter_eq_nil_iff]
  constructor
  · intro absent mem
    obtain ⟨i, at_i⟩ := List.mem_iff_getElem?.mp mem
    exact absent (uid, i) (List.mem_zipIdx_iff_getElem?.mpr at_i) (by simp)
  · rintro absent ⟨u, i⟩ mem same
    have at_i := List.mem_zipIdx_iff_getElem?.mp mem
    rw [show u = uid from of_decide_eq_true same] at at_i
    exact absent (List.mem_of_getElem? at_i)

theorem placeOf_filter (table : List (Unicode × Nat)) {newUids : List Unicode} (new : uid ∈ newUids) :
    placeOf (table.filter (·.1 ∈ newUids)) uid = placeOf table uid := by
  rw [placeOf, List.filter_filter, placeOf]
  congr 2
  refine List.filter_congr fun entry _ => ?_
  by_cases same : entry.1 = uid <;> simp [same, new]

theorem mergeInvite_uid (same : existing.uid = invite.uid) :
    (mergeInvite casing message invite existing).uid = existing.uid := by
  unfold mergeInvite
  split
  · simp [same]
  · rfl

namespace EmailedEvents

theorem found_eq (c : EmailedEvents) : c.found = (c.rows.take c.flushed).map (·.uid) := by
  rw [found, uids, List.map_take]

theorem row_at_place {c : EmailedEvents} (at_place : c.place uid = some i) :
    ∃ row, c.rows[i]? = some row ∧ row.uid = uid ∧ i < c.flushed := by
  have listed := placeOf_some at_place
  rw [found, List.getElem?_take] at listed
  split at listed
  next small =>
    rw [uids, List.getElem?_map] at listed
    obtain ⟨row, at_i, same⟩ := Option.map_eq_some_iff.mp listed
    exact ⟨row, at_i, same, small⟩
  next => cases listed

/-- A new row is added, unless a query finds one with the uid. -/
theorem step_uids (c : EmailedEvents) (message : Nat) (invite : Event) :
    (c.step casing (.invite message invite)).uids =
      if invite.uid ∈ c.found then c.uids else c.uids ++ [invite.uid] := by
  simp only [step, handleInvite]
  cases at_place : c.place invite.uid with
  | none =>
    rw [if_neg (placeOf_none.mp at_place)]
    simp [uids]
  | some i =>
    obtain ⟨row, at_i, same, small⟩ := row_at_place at_place
    have known : invite.uid ∈ c.found := List.mem_of_getElem? (placeOf_some at_place)
    rw [if_pos known]
    refine List.ext_getElem? fun j => ?_
    simp only [uids, List.getElem?_map, List.getElem?_modify]
    by_cases here : i = j
    · subst here
      simp [at_i, mergeInvite_uid same]
    · simp [here]

theorem step_found (c : EmailedEvents) (message : Nat) (invite : Event) (small : c.flushed ≤ c.rows.length) :
    (c.step casing (.invite message invite)).found = c.found := by
  have same : (c.step casing (.invite message invite)).flushed = c.flushed := rfl
  rw [found, step_uids, same]
  split
  · rfl
  · rw [List.take_append_of_le_length (by simpa [uids] using small), found]

theorem step_rsvp_uids (c : EmailedEvents) (message : Nat) (rsvp : Event) :
    (c.step casing (.rsvp message rsvp)).uids = c.uids ++ [rsvp.uid] := List.map_append

theorem step_rsvp_found (c : EmailedEvents) (message : Nat) (rsvp : Event) (small : c.flushed ≤ c.rows.length) :
    (c.step casing (.rsvp message rsvp)).found = c.found := by
  have same : (c.step casing (.rsvp message rsvp)).flushed = c.flushed := rfl
  rw [found, step_rsvp_uids, same, List.take_append_of_le_length (by simpa [uids] using small), found]

theorem step_flushed_le (c : EmailedEvents) (s : Step) (small : c.flushed ≤ c.rows.length) :
    (c.step casing s).flushed ≤ (c.step casing s).rows.length := by
  cases s with
  | flush => exact le_rfl
  | invite message invite =>
    have longer : c.uids.length ≤ (c.step casing (.invite message invite)).uids.length := by
      rw [step_uids]
      split <;> simp
    simp only [uids, List.length_map] at longer
    exact small.trans longer
  | rsvp message rsvp =>
    change c.flushed ≤ (c.rows ++ [_]).length
    rw [List.length_append]
    exact small.trans (Nat.le_add_right _ _)

theorem run_flushed_le (casing : Casing) (steps : List Step) (c : EmailedEvents)
    (small : c.flushed ≤ c.rows.length) :
    (c.run casing steps).flushed ≤ (c.run casing steps).rows.length := by
  induction steps generalizing c with
  | nil => exact small
  | cons s steps ih => exact ih (c.step casing s) (c.step_flushed_le s small)

@[simp] theorem run_append (c : EmailedEvents) (first second : List Step) :
    c.run casing (first ++ second) = (c.run casing first).run casing second := List.foldl_append ..

@[simp] theorem run_singleton (c : EmailedEvents) (s : Step) : c.run casing [s] = c.step casing s := rfl

/-- The table that is made once serves for every invite of a file: what a query finds stays. -/
theorem run_invites (casing : Casing) (message : Nat) (newUids : List Unicode) (start : EmailedEvents)
    (invites : List Event)
    (new : ∀ invite ∈ invites, invite.uid ∈ newUids) (c : EmailedEvents)
    (small : c.flushed ≤ c.rows.length) (found : c.found = start.found) :
    c.run casing (invites.map (.invite message)) =
      { c with
        rows := invites.foldl (fun rows invite =>
          handleInvite casing message (placeOf (existingEventsTable start newUids) invite.uid) rows invite)
          c.rows } := by
  induction invites generalizing c with
  | nil => rfl
  | cons invite invites ih =>
    simp only [List.mem_cons, forall_eq_or_imp] at new
    have place : placeOf (existingEventsTable start newUids) invite.uid = c.place invite.uid := by
      rw [existingEventsTable, placeOf_filter _ new.1, place, found, found_eq]
    have later := ih new.2 (c.step casing (.invite message invite)) (c.step_flushed_le _ small)
      ((c.step_found message invite small).trans found)
    rw [List.map_cons, List.foldl_cons, place]
    exact later

end EmailedEvents

/-- The answers of a file are handled one by one. -/
theorem run_rsvps (message : Nat) (table : List Synced) (rsvps : List Event) (c : EmailedEvents) :
    c.run casing (rsvps.flatMap fun rsvp => rsvpSteps message (answered casing table rsvp) rsvp) =
      rsvps.foldl (fun c rsvp => handleRsvp message (answered casing table rsvp) c rsvp) c := by
  induction rsvps generalizing c with
  | nil => rfl
  | cons rsvp rest ih =>
    have first : c.run casing (rsvpSteps message (answered casing table rsvp) rsvp) =
        handleRsvp message (answered casing table rsvp) c rsvp := by
      unfold rsvpSteps handleRsvp
      cases answered casing table rsvp with
      | none => rfl
      | some existing => by_cases same : existing.sequenceNumber = rsvp.sequenceNumber <;> simp [same] <;> rfl
    rw [List.flatMap_cons, EmailedEvents.run_append, first, ih, List.foldl_cons]

/-- A file is handled as the single steps of its invites and answers. -/
theorem importAttached_eq (c : EmailedEvents) (file : Attached) (small : c.flushed ≤ c.rows.length) :
    importAttached casing gmail c file = c.run casing (file.steps casing gmail) := by
  have invites := EmailedEvents.run_invites casing file.message (file.invites.map (·.uid)) c file.invites
    (fun invite mem => List.mem_map_of_mem mem) c small rfl
  rw [importAttached, Attached.steps, EmailedEvents.run_append, EmailedEvents.run_append, invites]
  cases gmail with
  | true => cases file.last <;> rfl
  | false =>
    rw [if_neg Bool.false_ne_true, if_neg Bool.false_ne_true, run_rsvps]
    cases file.last <;> rfl

theorem importAll_eq (files : List Attached) :
    importAll casing gmail files =
      (⟨[], 0⟩ : EmailedEvents).run casing (files.flatMap (Attached.steps casing gmail)) := by
  have general (c : EmailedEvents) (small : c.flushed ≤ c.rows.length) :
      files.foldl (importAttached casing gmail) c =
        c.run casing (files.flatMap (Attached.steps casing gmail)) := by
    induction files generalizing c with
    | nil => rfl
    | cons file files ih =>
      rw [List.foldl_cons, importAttached_eq c file small, ih _ (c.run_flushed_le casing _ small),
        List.flatMap_cons, EmailedEvents.run_append]
  exact general ⟨[], 0⟩ le_rfl

/-! ## One row for a uid -/

/-- The uids of the rows up to the last flush, and those of what has come behind it. -/
def handled (steps : List Step) : List Unicode × List Unicode :=
  steps.foldl (fun uids s =>
    match s with
    | .invite _ event | .rsvp _ event => (uids.1, uids.2 ++ [event.uid])
    | .flush => (uids.1 ++ uids.2, [])) ([], [])

/-- An invite does not come again behind the same flush, unless its uid was there before that flush. The uid of an
answer to an unknown event was not there at all. -/
def Step.Fits (seen : List Unicode × List Unicode) : Step → Prop
  | .invite _ event => event.uid ∈ seen.2 → event.uid ∈ seen.1
  | .rsvp _ event => event.uid ∉ seen.1 ∧ event.uid ∉ seen.2
  | .flush => True

def NoRepeats (steps : List Step) : Prop :=
  ∀ pre s post, steps = pre ++ s :: post → s.Fits (handled pre)

abbrev emptied : EmailedEvents := ⟨[], 0⟩

@[simp] theorem handled_invite (steps : List Step) (message : Nat) (invite : Event) :
    handled (steps ++ [.invite message invite]) =
      ((handled steps).1, (handled steps).2 ++ [invite.uid]) := by
  rw [handled, List.foldl_append]
  rfl

@[simp] theorem handled_rsvp (steps : List Step) (message : Nat) (rsvp : Event) :
    handled (steps ++ [.rsvp message rsvp]) =
      ((handled steps).1, (handled steps).2 ++ [rsvp.uid]) := by
  rw [handled, List.foldl_append]
  rfl

@[simp] theorem handled_flush (steps : List Step) :
    handled (steps ++ [.flush]) = ((handled steps).1 ++ (handled steps).2, []) := by
  rw [handled, List.foldl_append]
  rfl

theorem mem_run_uids (casing : Casing) (steps : List Step) (uid : Unicode) :
    (uid ∈ (emptied.run casing steps).uids ↔ uid ∈ (handled steps).1 ∨ uid ∈ (handled steps).2) ∧
      (uid ∈ (emptied.run casing steps).found ↔ uid ∈ (handled steps).1) := by
  induction steps using List.reverseRecOn with
  | nil => simp [EmailedEvents.run, EmailedEvents.uids, EmailedEvents.found, handled]
  | append_singleton steps s ih =>
    have small := emptied.run_flushed_le casing steps le_rfl
    rw [EmailedEvents.run_append, EmailedEvents.run_singleton]
    cases s with
    | invite message invite =>
      rw [EmailedEvents.step_uids, EmailedEvents.step_found _ _ _ small, handled_invite]
      refine ⟨?_, ih.2⟩
      have known : invite.uid ∈ (emptied.run casing steps).found → invite.uid ∈ (emptied.run casing steps).uids :=
        List.mem_of_mem_take
      split <;> simp only [List.mem_append, List.mem_singleton] <;> grind
    | rsvp message rsvp =>
      rw [EmailedEvents.step_rsvp_uids, EmailedEvents.step_rsvp_found _ _ _ small, handled_rsvp]
      refine ⟨?_, ih.2⟩
      rw [List.mem_append, List.mem_append, ih.1, or_assoc]
    | flush =>
      have all : ((emptied.run casing steps).step casing .flush).found = (emptied.run casing steps).uids :=
        List.take_of_length_le (List.length_map _).le
      rw [all, handled_flush]
      have same : ((emptied.run casing steps).step casing .flush).uids = (emptied.run casing steps).uids := rfl
      rw [same, ih.1]
      simp

theorem noRepeats_append (steps : List Step) (s : Step) : NoRepeats (steps ++ [s]) ↔
    NoRepeats steps ∧ s.Fits (handled steps) := by
  constructor
  · intro clean
    refine ⟨fun pre other post split => ?_, clean steps s [] rfl⟩
    exact clean pre other (post ++ [s]) (by rw [split, List.append_assoc]; rfl)
  · rintro ⟨earlier, last⟩ pre other post split
    rcases List.eq_nil_or_concat' post with rfl | ⟨post, final, rfl⟩
    · obtain ⟨rfl, same⟩ := List.append_inj' split rfl
      exact List.singleton_inj.mp same ▸ last
    · have split : steps ++ [s] = (pre ++ other :: post) ++ [final] := by
        rw [split, List.append_assoc]
        rfl
      exact earlier pre other post (List.append_inj' split rfl).1

theorem nodup_concat {uids : List Unicode} : (uids ++ [uid]).Nodup ↔ uids.Nodup ∧ uid ∉ uids := by
  rw [List.perm_append_comm.nodup_iff, List.singleton_append, List.nodup_cons, and_comm]

theorem nodup_uids_iff (casing : Casing) (steps : List Step) :
    (emptied.run casing steps).uids.Nodup ↔ NoRepeats steps := by
  induction steps using List.reverseRecOn with
  | nil =>
    have none : NoRepeats [] := fun pre _ _ split => by simp at split
    simp [EmailedEvents.run, EmailedEvents.uids, none]
  | append_singleton steps s ih =>
    rw [noRepeats_append, ← ih, EmailedEvents.run_append, EmailedEvents.run_singleton]
    cases s with
    | flush =>
      have same : ((emptied.run casing steps).step casing .flush).uids = (emptied.run casing steps).uids := rfl
      simp [same, Step.Fits]
    | rsvp message rsvp =>
      rw [EmailedEvents.step_rsvp_uids, nodup_concat, (mem_run_uids casing steps rsvp.uid).1, not_or]
      rfl
    | invite message invite =>
      obtain ⟨known, found⟩ := mem_run_uids casing steps invite.uid
      rw [EmailedEvents.step_uids]
      split
      next there =>
        have := found.mp there
        simp [Step.Fits, this]
      next absent =>
        rw [found] at absent
        have fresh : (Step.invite message invite).Fits (handled steps) ↔
            invite.uid ∉ (emptied.run casing steps).uids := by
          constructor
          · intro clean mem
            exact absent ((known.mp mem).elim id clean)
          · intro unknown pending
            exact absurd (known.mpr (.inr pending)) unknown
        rw [fresh, nodup_concat]

/-! ## What the rows hold -/

theorem versionLe_refl (a : Option Int) : versionLe a a = true := by
  cases a <;> simp [versionLe]

theorem versionLe_trans (first : versionLe a b = true) (second : versionLe b c = true) :
    versionLe a c = true := by
  cases a <;> cases b <;> cases c <;> simp_all [versionLe]
  omega

theorem versionLe_total (a b : Option Int) : versionLe a b = true ∨ versionLe b a = true := by
  cases a <;> cases b <;> simp [versionLe]
  omega

/-- The columns that an invite's version decides. -/
structure SameVersion (e invite : Event) : Prop where
  sequence : e.sequenceNumber = invite.sequenceNumber
  title : e.title = invite.title
  start : e.start = invite.start
  end_ : e.end_ = invite.end_
  allDay : e.allDay = invite.allDay
  status : e.status = invite.status

theorem sameVersion_merge (newer : versionLe existing.sequenceNumber invite.sequenceNumber = true) :
    SameVersion (mergeInvite casing message invite existing) invite := by
  have sequence : invite.sequenceNumber.or existing.sequenceNumber = invite.sequenceNumber := by
    cases given : invite.sequenceNumber with
    | some n => rfl
    | none =>
      cases held : existing.sequenceNumber with
      | none => rfl
      | some n => simp [versionLe, given, held] at newer
  rw [mergeInvite, if_pos newer]
  constructor <;> unfold Event.update <;> split <;> first | rfl | exact sequence

theorem versionLe_merge (message : Nat) (invite existing : Event) :
    versionLe existing.sequenceNumber (mergeInvite casing message invite existing).sequenceNumber = true := by
  by_cases newer : versionLe existing.sequenceNumber invite.sequenceNumber = true
  · rwa [(sameVersion_merge newer).sequence]
  · rw [mergeInvite, if_neg newer]
    exact versionLe_refl _

/-- Every row of the first state is in the second, with no smaller sequence number. -/
def Grows (c c' : EmailedEvents) : Prop :=
  ∀ (i : Nat) (e : Event), c.rows[i]? = some e →
    ∃ e', c'.rows[i]? = some e' ∧ e'.uid = e.uid ∧ versionLe e.sequenceNumber e'.sequenceNumber = true

theorem Grows.refl (c : EmailedEvents) : Grows c c := fun _ e at_i => ⟨e, at_i, rfl, versionLe_refl _⟩

theorem Grows.trans (first : Grows a b) (second : Grows b c) : Grows a c := by
  intro i e at_i
  obtain ⟨e', at_i', same, le⟩ := first i e at_i
  obtain ⟨e'', at_i'', same', le'⟩ := second i e' at_i'
  exact ⟨e'', at_i'', same'.trans same, versionLe_trans le le'⟩

theorem grows_step (c : EmailedEvents) (s : Step) : Grows c (c.step casing s) := by
  cases s with
  | flush => exact Grows.refl c
  | rsvp message rsvp =>
    intro i e at_i
    have inside := (List.getElem?_eq_some_iff.mp at_i).1
    exact ⟨e, (List.getElem?_append_left inside).trans at_i, rfl, versionLe_refl _⟩
  | invite message invite =>
    intro i e at_i
    simp only [EmailedEvents.step, handleInvite]
    cases at_place : c.place invite.uid with
    | none =>
      have inside := (List.getElem?_eq_some_iff.mp at_i).1
      exact ⟨e, (List.getElem?_append_left inside).trans at_i, rfl, versionLe_refl _⟩
    | some j =>
      obtain ⟨row, at_j, same, -⟩ := EmailedEvents.row_at_place at_place
      simp only [List.getElem?_modify, at_i]
      by_cases here : j = i
      · subst here
        obtain rfl := Option.some.inj (at_i.symm.trans at_j)
        exact ⟨mergeInvite casing message invite e, by simp, mergeInvite_uid same, versionLe_merge message invite e⟩
      · exact ⟨e, by simp [here], rfl, versionLe_refl _⟩

theorem grows_run (casing : Casing) (c : EmailedEvents) (steps : List Step) : Grows c (c.run casing steps) := by
  induction steps generalizing c with
  | nil => exact Grows.refl c
  | cons s steps ih => exact (grows_step c s).trans (ih _)

/-- The invites of a run, in their order. -/
def invitesOf (steps : List Step) : List Event :=
  steps.filterMap fun s =>
    match s with
    | .invite _ invite => some invite
    | .rsvp .. | .flush => none

/-- The row is at the version of an invite with the largest sequence number of its uid. -/
def Newest (invites : List Event) (e : Event) : Prop :=
  ∃ invite ∈ invites, invite.uid = e.uid ∧ SameVersion e invite ∧
    ∀ other ∈ invites, other.uid = e.uid →
      versionLe other.sequenceNumber invite.sequenceNumber = true

theorem Newest.add_other (newest : Newest invites e) (other : invite.uid ≠ e.uid) :
    Newest (invites ++ [invite]) e := by
  obtain ⟨best, mem, same, version, largest⟩ := newest
  refine ⟨best, List.mem_append_left _ mem, same, version, fun x mem_x same_x => ?_⟩
  rcases List.mem_append.mp mem_x with earlier | last
  · exact largest x earlier same_x
  · obtain rfl := List.mem_singleton.mp last
    exact absurd same_x other

theorem Newest.merge (newest : Newest invites e) (same : invite.uid = e.uid) (message : Nat) :
    Newest (invites ++ [invite]) (mergeInvite casing message invite e) := by
  obtain ⟨best, mem, same_best, version, largest⟩ := newest
  have uid : (mergeInvite casing message invite e).uid = e.uid := mergeInvite_uid same.symm
  by_cases newer : versionLe e.sequenceNumber invite.sequenceNumber = true
  · refine ⟨invite, by simp, same.trans uid.symm, sameVersion_merge newer, fun x mem_x same_x => ?_⟩
    rw [uid] at same_x
    rcases List.mem_append.mp mem_x with earlier | last
    · exact versionLe_trans (largest x earlier same_x) (version.sequence ▸ newer)
    · obtain rfl := List.mem_singleton.mp last
      exact versionLe_refl _
  · have older := (versionLe_total e.sequenceNumber invite.sequenceNumber).resolve_left newer
    have kept : mergeInvite casing message invite e = e := if_neg newer
    rw [kept]
    refine ⟨best, List.mem_append_left _ mem, same_best, version, fun x mem_x same_x => ?_⟩
    rcases List.mem_append.mp mem_x with earlier | last
    · exact largest x earlier same_x
    · obtain rfl := List.mem_singleton.mp last
      exact version.sequence ▸ older

@[simp] theorem invitesOf_append (first second : List Step) :
    invitesOf (first ++ second) = invitesOf first ++ invitesOf second := List.filterMap_append

@[simp] theorem invitesOf_invite (message : Nat) (invite : Event) :
    invitesOf [.invite message invite] = [invite] := rfl

@[simp] theorem invitesOf_rsvp (message : Nat) (rsvp : Event) : invitesOf [.rsvp message rsvp] = [] := rfl

@[simp] theorem invitesOf_flush : invitesOf [.flush] = [] := rfl

theorem mem_uids_of_handled (casing : Casing) (steps : List Step) (mem : invite ∈ invitesOf steps) :
    invite.uid ∈ (emptied.run casing steps).uids := by
  rw [(mem_run_uids casing steps invite.uid).1]
  induction steps using List.reverseRecOn with
  | nil => simp [invitesOf] at mem
  | append_singleton steps s ih =>
    rw [invitesOf_append, List.mem_append] at mem
    cases s with
    | flush =>
      rw [handled_flush]
      exact .inl (List.mem_append.mpr (ih (mem.resolve_right List.not_mem_nil)))
    | rsvp message rsvp =>
      rw [handled_rsvp]
      exact (ih (mem.resolve_right List.not_mem_nil)).imp_right (List.mem_append_left _)
    | invite message last =>
      rw [handled_invite]
      rcases mem with earlier | same
      · exact (ih earlier).imp_right (List.mem_append_left _)
      · obtain rfl := List.mem_singleton.mp same
        exact .inr (List.mem_append_right _ List.mem_cons_self)

/-- The row is at the version of an answer, which is newer than every invite of its uid. -/
def Answering (steps : List Step) (e : Event) : Prop :=
  ∃ message rsvp, Step.rsvp message rsvp ∈ steps ∧ rsvp.uid = e.uid ∧ SameVersion e rsvp ∧
    ∀ invite ∈ invitesOf steps, invite.uid = e.uid →
      versionLe rsvp.sequenceNumber invite.sequenceNumber = false

def Versioned (steps : List Step) (e : Event) : Prop := Newest (invitesOf steps) e ∨ Answering steps e

/-- What a step does to another uid leaves a row as it is. -/
theorem Versioned.other (held : Versioned steps e) (s : Step)
    (apart : ∀ message invite, s = .invite message invite → invite.uid ≠ e.uid) :
    Versioned (steps ++ [s]) e := by
  rw [Versioned, invitesOf_append]
  refine held.imp (fun newest => ?_) fun ⟨message, rsvp, mem, same, version, older⟩ => ?_
  · cases s with
    | invite message invite => exact newest.add_other (apart message invite rfl)
    | rsvp | flush =>
      rw [show invitesOf [_] = [] from rfl, List.append_nil]
      exact newest
  · refine ⟨message, rsvp, List.mem_append_left _ mem, same, version, fun invite among own => ?_⟩
    rw [invitesOf_append] at among
    rcases List.mem_append.mp among with earlier | last
    · exact older invite earlier own
    · cases s with
      | invite message other =>
        obtain rfl := List.mem_singleton.mp last
        exact absurd own (apart message invite rfl)
      | rsvp | flush => cases last

/-- An invite of the row's own uid is older than its version, or becomes it. -/
theorem Versioned.merge (held : Versioned steps e) (same : invite.uid = e.uid) (message : Nat) :
    Versioned (steps ++ [.invite message invite]) (mergeInvite casing message invite e) := by
  rw [Versioned, invitesOf_append]
  rcases held with newest | ⟨first, rsvp, mem, same_rsvp, version, older⟩
  · exact .inl (newest.merge same message)
  have uid : (mergeInvite casing message invite e).uid = e.uid := mergeInvite_uid same.symm
  by_cases newer : versionLe e.sequenceNumber invite.sequenceNumber = true
  · refine .inl ⟨invite, by simp, same.trans uid.symm, sameVersion_merge newer, fun x mem_x same_x => ?_⟩
    rw [uid] at same_x
    rcases List.mem_append.mp mem_x with earlier | last
    · have behind := older x earlier same_x
      have under := (versionLe_total x.sequenceNumber rsvp.sequenceNumber).resolve_right (by simp [behind])
      exact versionLe_trans under (version.sequence ▸ newer)
    · obtain rfl := List.mem_singleton.mp last
      exact versionLe_refl _
  · right
    have kept : mergeInvite casing message invite e = e := if_neg newer
    rw [kept]
    refine ⟨first, rsvp, List.mem_append_left _ mem, same_rsvp, version, fun x mem_x same_x => ?_⟩
    rw [invitesOf_append] at mem_x
    rcases List.mem_append.mp mem_x with earlier | last
    · exact older x earlier same_x
    · obtain rfl := List.mem_singleton.mp last
      rw [← version.sequence]
      exact Bool.eq_false_of_not_eq_true newer

/-- Where the uids stay apart, an invite is merged into the row of its uid, or its row is new. -/
theorem step_rows (c : EmailedEvents) (message : Nat) (invite : Event)
    (one : (c.step casing (.invite message invite)).uids.Nodup)
    (mem : e ∈ (c.step casing (.invite message invite)).rows) :
    (e ∈ c.rows ∧ invite.uid ≠ e.uid) ∨
      (∃ row ∈ c.rows, invite.uid = row.uid ∧ e = mergeInvite casing message invite row) ∨
      (e = { invite with message := some message } ∧ invite.uid ∉ c.uids) := by
  rw [EmailedEvents.step_uids] at one
  simp only [EmailedEvents.step, handleInvite] at mem
  cases at_place : c.place invite.uid with
  | none =>
    rw [if_neg (placeOf_none.mp at_place), nodup_concat] at one
    rw [at_place] at mem
    rcases List.mem_append.mp mem with earlier | last
    · exact .inl ⟨earlier, fun same => one.2 (same ▸ List.mem_map_of_mem earlier)⟩
    · exact .inr (.inr ⟨List.mem_singleton.mp last, one.2⟩)
  | some i =>
    obtain ⟨row, at_i, same, -⟩ := EmailedEvents.row_at_place at_place
    have known : invite.uid ∈ c.found := List.mem_of_getElem? (placeOf_some at_place)
    rw [if_pos known] at one
    rw [at_place] at mem
    obtain ⟨j, at_j⟩ := List.mem_iff_getElem?.mp mem
    rw [List.getElem?_modify, Option.map_eq_map] at at_j
    by_cases here : i = j
    · subst here
      simp only [at_i, if_true, Option.map_some, Option.some.injEq] at at_j
      exact .inr (.inl ⟨row, List.mem_of_getElem? at_i, same.symm, at_j.symm⟩)
    · simp only [here, if_false, Option.map_id_fun', id_eq] at at_j
      refine .inl ⟨List.mem_of_getElem? at_j, fun equal => here ?_⟩
      have uid_at {k : Nat} {r : Event} (at_k : c.rows[k]? = some r) : c.uids[k]? = some r.uid := by
        simp [EmailedEvents.uids, at_k]
      have small := (List.getElem?_eq_some_iff.mp (uid_at at_i)).1
      refine (List.getElem?_inj small one).mp ?_
      rw [uid_at at_i, uid_at at_j, same, equal]

theorem versioned_of_nodup (steps : List Step) (one : (emptied.run casing steps).uids.Nodup) :
    ∀ e ∈ (emptied.run casing steps).rows, Versioned steps e := by
  induction steps using List.reverseRecOn with
  | nil => simp [EmailedEvents.run]
  | append_singleton steps s ih =>
    have before : (emptied.run casing steps).uids.Nodup :=
      (nodup_uids_iff casing steps).mpr
        ((noRepeats_append steps s).mp ((nodup_uids_iff casing _).mp one)).1
    have held := ih before
    rw [EmailedEvents.run_append, EmailedEvents.run_singleton] at one ⊢
    intro e mem
    cases s with
    | flush => exact (held e mem).other .flush (by simp)
    | rsvp message rsvp =>
      rcases List.mem_append.mp mem with earlier | last
      · exact (held e earlier).other _ (by simp)
      · obtain rfl := List.mem_singleton.mp last
        rw [EmailedEvents.step_rsvp_uids, nodup_concat] at one
        refine .inr ⟨message, rsvp, by simp, rfl, ⟨rfl, rfl, rfl, rfl, rfl, rfl⟩, fun x mem_x same_x => ?_⟩
        rw [invitesOf_append, invitesOf_rsvp, List.append_nil] at mem_x
        exact absurd (same_x ▸ mem_uids_of_handled casing steps mem_x) one.2
    | invite message invite =>
      rcases step_rows _ message invite one mem with ⟨earlier, other⟩ | ⟨row, among, same, rfl⟩ | ⟨rfl, unknown⟩
      · exact (held e earlier).other _ fun _ _ same => by
          cases same
          exact other
      · exact (held row among).merge same message
      · refine .inl ⟨invite, by simp, rfl, ⟨rfl, rfl, rfl, rfl, rfl, rfl⟩, fun x mem_x same_x => ?_⟩
        rw [invitesOf_append] at mem_x
        rcases List.mem_append.mp mem_x with earlier | last
        · exact absurd (same_x ▸ mem_uids_of_handled casing steps earlier) unknown
        · obtain rfl := List.mem_singleton.mp last
          exact versionLe_refl _

/-- Where an answer made the row of a uid, an invite of the uid, if there is any, is not older than the answer. -/
def Overtaken (steps : List Step) : Prop :=
  ∀ message rsvp, Step.rsvp message rsvp ∈ steps → ∀ invite ∈ invitesOf steps, invite.uid = rsvp.uid →
    ∃ newer ∈ invitesOf steps, newer.uid = rsvp.uid ∧
      versionLe rsvp.sequenceNumber newer.sequenceNumber = true

/-- The row that an answer makes stays, and its sequence number does not fall. -/
theorem row_of_rsvp (casing : Casing) (steps : List Step) (mem : Step.rsvp message rsvp ∈ steps) :
    ∃ e ∈ (emptied.run casing steps).rows, e.uid = rsvp.uid ∧
      versionLe rsvp.sequenceNumber e.sequenceNumber = true := by
  obtain ⟨pre, post, rfl⟩ := List.append_of_mem mem
  let c := (emptied.run casing pre).step casing (.rsvp message rsvp)
  have last : c.rows[(emptied.run casing pre).rows.length]? = some { rsvp with message := some message } :=
    List.getElem?_concat_length
  obtain ⟨e, at_i, same, le⟩ := grows_run casing c post _ _ last
  refine ⟨e, ?_, same, le⟩
  rw [EmailedEvents.run_append]
  exact List.mem_of_getElem? at_i

theorem newest_iff (casing : Casing) (steps : List Step) (one : (emptied.run casing steps).uids.Nodup) :
    (∀ e ∈ (emptied.run casing steps).rows, (∃ invite ∈ invitesOf steps, invite.uid = e.uid) →
      Newest (invitesOf steps) e) ↔ Overtaken steps := by
  constructor
  · intro newest message rsvp mem invite among same
    obtain ⟨e, row, uid, le⟩ := row_of_rsvp casing steps mem
    obtain ⟨best, listed, own, version, _⟩ := newest e row ⟨invite, among, same.trans uid.symm⟩
    exact ⟨best, listed, own.trans uid, version.sequence ▸ le⟩
  · rintro overtaken e row ⟨invite, among, same⟩
    refine (versioned_of_nodup steps one e row).resolve_right fun answering => ?_
    obtain ⟨message, rsvp, mem, uid, _, older⟩ := answering
    obtain ⟨newer, listed, own, le⟩ := overtaken message rsvp mem invite among (same.trans uid.symm)
    rw [older newer listed (own.trans uid)] at le
    cases le

theorem invitesOf_rsvpSteps (message : Nat) (existing : Option Synced) (rsvp : Event) :
    invitesOf (rsvpSteps message existing rsvp) = [] := by
  unfold rsvpSteps
  split
  · rfl
  · split <;> rfl

theorem invitesOf_steps (casing : Casing) (gmail : Bool) (file : Attached) :
    invitesOf (file.steps casing gmail) = file.invites := by
  have invites : invitesOf (file.invites.map (.invite file.message)) = file.invites := by
    rw [invitesOf, List.filterMap_map]
    exact List.filterMap_some
  have answers : ∀ table, invitesOf (file.rsvps.flatMap fun rsvp =>
      rsvpSteps file.message (answered casing table rsvp) rsvp) = [] := by
    intro table
    induction file.rsvps with
    | nil => rfl
    | cons rsvp rest ih => rw [List.flatMap_cons, invitesOf_append, invitesOf_rsvpSteps, ih, List.append_nil]
  have ends : invitesOf (if file.last then [.flush] else []) = [] := by split <;> rfl
  rw [Attached.steps, invitesOf_append, invitesOf_append, invites, ends]
  cases gmail with
  | true => simp [invitesOf]
  | false => rw [if_neg Bool.false_ne_true, answers, List.append_nil, List.append_nil]

theorem invitesOf_files (casing : Casing) (gmail : Bool) (files : List Attached) :
    invitesOf (files.flatMap (Attached.steps casing gmail)) = files.flatMap (·.invites) := by
  induction files with
  | nil => rfl
  | cons file files ih =>
    rw [List.flatMap_cons, List.flatMap_cons, invitesOf_append, invitesOf_steps, ih]

theorem one_iff_nodup (c : EmailedEvents) :
    (∀ uid, (c.rows.filter (·.uid = uid)).length ≤ 1) ↔ c.uids.Nodup := by
  rw [List.nodup_iff_count]
  refine forall_congr' fun uid => ?_
  have same (e : Event) : (e.uid == uid) = decide (e.uid = uid) := by
    rw [Bool.eq_iff_iff, beq_iff_eq, decide_eq_true_iff]
  rw [EmailedEvents.uids, List.count, List.countP_map, List.countP_eq_length_filter]
  simp only [Function.comp_def, same]

/-- At most one event for a uid; no row whose sequence number ever fell, in whatever place of
whatever file; and every event of an invite's uid at the version of one with the largest sequence number. -/
structure Tidy (casing : Casing) (gmail : Bool) (files : List Attached) : Prop where
  one : ∀ uid, ((importAll casing gmail files).rows.filter (·.uid = uid)).length ≤ 1
  rises : ∀ pre file post first rest, files = pre ++ file :: post → file.invites = first ++ rest →
    Grows (processInvites casing (importAll casing gmail pre) file.message first) (importAll casing gmail files)
  newest : ∀ e ∈ (importAll casing gmail files).rows,
    (∃ invite ∈ files.flatMap (·.invites), invite.uid = e.uid) → Newest (files.flatMap (·.invites)) e

theorem grows_within (casing : Casing) (gmail : Bool) (pre : List Attached) (file : Attached)
    (post : List Attached) (first rest : List Event) (split : file.invites = first ++ rest) :
    Grows (processInvites casing (importAll casing gmail pre) file.message first)
      (importAll casing gmail (pre ++ file :: post)) := by
  have small : (importAll casing gmail pre).flushed ≤ (importAll casing gmail pre).rows.length := by
    rw [importAll_eq]
    exact emptied.run_flushed_le casing _ le_rfl
  have until_first : processInvites casing (importAll casing gmail pre) file.message first =
      (importAll casing gmail pre).run casing (first.map (.invite file.message)) :=
    (EmailedEvents.run_invites casing file.message (first.map fun invite : Event => invite.uid) _ first
      (fun _ mem => List.mem_map_of_mem mem) _ small rfl).symm
  have all : ∃ later, importAll casing gmail (pre ++ file :: post) =
      ((importAll casing gmail pre).run casing (first.map (.invite file.message))).run casing later := by
    rw [importAll_eq, importAll_eq, List.flatMap_append, List.flatMap_cons, Attached.steps, split]
    simp only [List.map_append, ← EmailedEvents.run_append, List.append_assoc]
    exact ⟨_, rfl⟩
  obtain ⟨later, all⟩ := all
  rw [until_first, all]
  exact grows_run casing _ _

/-- The calendar of emailed events stays in order exactly in those runs in which an invite comes
behind another of its uid only if a flush lies behind the first of them, an answer to an unknown event comes before
all else of its uid, and the invites that come behind the answer, if there are any, come up to its version. -/
theorem tidy_iff (casing : Casing) (gmail : Bool) (files : List Attached) : Tidy casing gmail files ↔
    NoRepeats (files.flatMap (Attached.steps casing gmail)) ∧
      Overtaken (files.flatMap (Attached.steps casing gmail)) := by
  have nodup : (importAll casing gmail files).uids.Nodup ↔
      NoRepeats (files.flatMap (Attached.steps casing gmail)) := by
    rw [importAll_eq, nodup_uids_iff]
  have newest := newest_iff casing (files.flatMap (Attached.steps casing gmail))
  rw [← importAll_eq, invitesOf_files] at newest
  constructor
  · intro tidy
    have unique := (one_iff_nodup _).mp tidy.one
    exact ⟨nodup.mp unique, (newest unique).mp tidy.newest⟩
  · rintro ⟨clean, overtaken⟩
    have unique := nodup.mpr clean
    refine ⟨(one_iff_nodup _).mpr unique, fun pre file post first rest split inside => ?_,
      (newest unique).mpr overtaken⟩
    rw [split]
    exact grows_within casing gmail pre file post first rest inside

/-- A table of time zones that knows UTC only. -/
def utcOnly : Zones where
  table zone := if zone = "UTC".toList then some zone else none
  localize _ clock := clock

def meeting (start : Int) : VEvent where
  uid := some "meeting".toList
  sequence := none
  status := none
  method := none
  summary := ["Meeting".toList]
  description := none
  location := none
  dtstart := some (.aware start "UTC".toList)
  dtend := some (.aware (start + 3600) "UTC".toList)
  dtstamp := none
  lastModified := none
  rrule := none
  owner := none
  isOwner := false
  participants := []
  ical := []

/-- One request with two events of one uid, as a file has them for a moved instance. -/
theorem two_of_one_file : ¬∀ (casing : Casing) (gmail : Bool) (files : List Attached),
    (∀ file ∈ files, ∃ components events, eventsFromIcs casing utcOnly 1 2 (some components) = .ok events ∧
      file.invites = events.invites ∧ file.rsvps = events.rsvps) → Tidy casing gmail files := by
  intro tidy
  let components : List Component :=
    [.vcalendar (some "REQUEST".toList), .vevent (meeting 0), .vevent (meeting 86400)]
  let uid : Unicode := "meeting".toList
  have two : (eventsFromIcs asciiCasing utcOnly 1 2 (some components)).map
      (fun events => events.invites.map (·.uid)) = .ok [uid, uid] := by decide +kernel
  cases parsed : eventsFromIcs asciiCasing utcOnly 1 2 (some components) with
  | error e => simp [parsed, Except.map] at two
  | ok events =>
    rw [parsed, Except.map, Except.ok.injEq] at two
    have orderly := tidy asciiCasing true [⟨1, events.invites, events.rsvps, [], true⟩] (by
      rintro file (_ | ⟨_, ⟨⟩⟩)
      exact ⟨components, events, parsed, rfl, rfl⟩)
    obtain ⟨first, second, invites⟩ := List.length_eq_two.mp (by simpa using congrArg List.length two)
    rw [invites] at two orderly
    have clean := (nodup_uids_iff _ _).mp (importAll_eq _ ▸ (one_iff_nodup _).mp orderly.one)
    have repeated := clean [.invite 1 first] (.invite 1 second) [.flush] rfl
    have same : first.uid = second.uid := by
      simp only [List.map_cons, List.map_nil, List.cons.injEq] at two
      exact two.1.trans two.2.1.symm
    simp [handled, Step.Fits, same] at repeated

end SyncEngine.Events
