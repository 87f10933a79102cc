import SyncEngine.Mailsync.Imap.Greenlets
import SyncEngine.Mailsync.Imap.RetainedFlags

/-! `FolderSyncEngine.flags_fetch_results`: for each limit the last response that has been stored. When the
same response comes again, nothing is stored. -/
namespace SyncEngine
namespace Imap
namespace FlagsFetchResults
open Cooperative Contract

/-- `(local_uids, flags)`, of which the second has the items of a dictionary. -/
abbrev Response := List Nat × List (Nat × Flags)

/-! ## One call -/
section Call
variable (engine : FolderSyncEngine) (maxUids : Nat)

/-- The part of `refresh_flags_impl` that asks. -/
def fetchFlags : Call Response := do
  let session ← selectFolder uidvalidityCb
  let local_ ← query (fun w => Common.localUidsLimit w.store.db engine.folderId maxUids)
  let flags ← imap (fun server => server.flagsOf session local_)
  .ret (local_, flags)

/-- The part that compares and stores. -/
def keepFlags (response : Response) : Call Unit := do
  let last ← own (fun w => w.memory.flagsFetchResults maxUids)
  match last with
  | some (lastLocal, lastFlags) =>
    if lastLocal.isPerm response.1 ∧ lastFlags.isPerm response.2 then .ret ()
    else refreshFlagsImpl.persist engine maxUids response.1 response.2
  | none => refreshFlagsImpl.persist engine maxUids response.1 response.2

theorem refreshFlagsImpl_eq :
    refreshFlagsImpl engine maxUids = (fetchFlags engine maxUids).bind (keepFlags engine maxUids) := by
  simp only [refreshFlagsImpl, fetchFlags, Routine.bind_eq, Routine.bind_assoc, Routine.ret_bind]
  rfl

end Call

/-! ## Runs -/

inductive Phase where
  | idle
  | fetching (maxUids : Nat) (rest : Call Response)
  | keeping (maxUids : Nat) (response : Response) (rest : Call Unit)

section Runs
variable (engine : FolderSyncEngine) (current : Nat → Response → World → Prop)
  (aside : Response → Command → Prop)

/-- Calls with the two limits, of which each may be cut off. While one is under way the engine's other
greenlet downloads, and between two calls there may be commands of any kind. -/
inductive Step : World × Phase → World × Phase → Prop where
  | calls (limit : maxUids = SLOW_FLAGS_REFRESH_LIMIT ∨ maxUids = FAST_FLAGS_REFRESH_LIMIT) :
      Step (w, .idle) (w, .fetching maxUids (fetchFlags engine maxUids))
  | fetches : Step (w, .fetching maxUids (.step command next))
      (World.perform engine command w, .fetching maxUids (next w))
  | answered (admitted : current maxUids response w) : Step (w, .fetching maxUids (.ret response))
      (w, .keeping maxUids response (keepFlags engine maxUids response))
  | keeps : Step (w, .keeping maxUids response (.step command next))
      (World.perform engine command w, .keeping maxUids response (next w))
  | returns : Step (w, .keeping maxUids response (.ret ())) (w, .idle)
  | fetchStops : Step (w, .fetching maxUids rest) (w, .idle)
  | keepStops : Step (w, .keeping maxUids response rest) (w, .idle)
  | downloads (saves : command.saves)
      (admitted : ∀ maxUids response rest, phase = .keeping maxUids response rest → aside response command) :
      Step (w, phase) (World.perform engine command w, phase)
  | others (other : ∀ maxUids localUids flags, command ≠ .rememberFlags maxUids localUids flags) :
      Step (w, .idle) (World.perform engine command w, .idle)
  | env (moved : Moves engine (fun _ _ => True) w t) : Step (w, phase) (t, phase)
  | restart : Step (w, phase) (w.restart, .idle)

/-- An engine starts with nothing remembered. -/
def Reaches (start : World) (state : World × Phase) : Prop :=
  Relation.ReflTransGen (Step engine current aside) (start.restart, .idle) state

/-- A state in which a call with this limit was asking. -/
def Seen (start : World) (maxUids : Nat) (w : World) : Prop :=
  ∃ rest, Reaches engine current aside start (w, .fetching maxUids rest)

end Runs

/-! ## When a response that comes again may be left out -/

/-- The columns that `update_flags` and, where there are labels, `update_labels` leave. -/
def newColumns (newFlags : Flags) : FlagColumns :=
  Version.columns { flags := newFlags.flags, labels := newFlags.labels, modseq := 0 }

/-- A row of this UID is not one of those that were asked for, or has the flags that came. -/
def Allows (response : Response) (uid : Nat) (columns : FlagColumns) : Prop :=
  uid ∈ response.1 → ∃ newFlags, (uid, newFlags) ∈ response.2 ∧ newColumns newFlags = columns

/-- The same sets and dictionaries. -/
def Same (last response : Response) : Prop := last.1.Perm response.1 ∧ last.2.Perm response.2

/-- The UIDs that the response lacks. -/
def missingUids (response : Response) : List Nat := response.1.filter (· ∉ response.2.map Prod.fst)

def savedUids : Command → List Nat
  | .save _ rawMessages => rawMessages.map RawMessage.uid
  | .saveKnown msg => [msg.uid]
  | .saveNew msg => [msg.uid]
  | _ => []

/-- Nothing is saved under a UID that the response lacks. -/
def Aside (response : Response) (command : Command) : Prop :=
  ∀ uid ∈ savedUids command, uid ∉ missingUids response

section Agreement
variable (engine : FolderSyncEngine)

def Agrees (response : Response) (w : World) : Prop :=
  ∀ row ∈ w.rows engine, Allows response row.msgUid row.toFlagColumns

/-- If the response is the one that is remembered for the limit, the rows have it. -/
def Current (maxUids : Nat) (response : Response) (w : World) : Prop :=
  ∀ last, w.memory.flagsFetchResults maxUids = some last → Same last response → Agrees engine response w

end Agreement

/-! ## What downloads do to the rows -/
section Rows
variable {engine : FolderSyncEngine} {w : World}

theorem commitMessages_whole (L : Lookups) (now folderId : Nat) (folderRole : String)
    (rawMessages : List RawMessage) (db : Db) :
    CreateMessage.commitMessages L now folderId folderRole rawMessages db =
      CreateMessage.commitMessages L now folderId folderRole
        (rawMessages.filter fun msg => msg.body.isSome) db := by
  induction rawMessages generalizing db with
  | nil => rfl
  | cons msg rest ih =>
    cases body : msg.body with
    | some =>
      rw [List.filter_cons_of_pos (by rw [body]; rfl)]
      exact ih _
    | none =>
      rw [List.filter_cons_of_neg (by simp [body])]
      refine Eq.trans ?_ (ih db)
      have skipped : (CreateMessage.createMessage L (fun _ => CreateMessage.addMessageToThread L) now
          folderId folderRole msg db).1 = db := by
        unfold CreateMessage.createMessage
        rw [body]
        split <;> rfl
      exact congrArg (CreateMessage.commitMessages L now folderId folderRole rest) skipped

theorem commit_rows {change : Store → Store} (member : row ∈ (w.commit change).rows engine) :
    row ∈ w.rows engine ∨ row ∈ (change w.store).db.rows engine.folderId := by
  rcases w.commit_cases change with refused | committed
  · rw [refused] at member
    exact .inl member
  · rw [committed] at member
    exact .inr member

/-- A transaction that adds rows to the folder. -/
theorem commit_added {change : Store → Store} {added : List ImapUid}
    (rows : (change w.store).db.rows engine.folderId = w.rows engine ++ added)
    (member : row ∈ (w.commit change).rows engine) : row ∈ w.rows engine ∨ row ∈ added := by
  rcases commit_rows member with old | changed
  · exact .inl old
  · exact List.mem_append.mp (rows ▸ changed)

/-- Every row is one from before, or that of a saved message whose UID had none. -/
theorem saves_rows (saves : command.saves) (member : row ∈ (World.perform engine command w).rows engine) :
    row ∈ w.rows engine ∨
      row.msgUid ∈ savedUids command ∧ row.msgUid ∉ Common.localUids w.store.db engine.folderId := by
  cases command with
  | ask => exact .inl member
  | fetch =>
    unfold World.perform at member
    dsimp only at member
    split at member <;> exact .inl member
  | save greenlet rawMessages =>
    obtain ⟨added, rows, origins, -⟩ := commitMessages_rows engine.lookups w.now engine.folderId
      engine.folderRole (rawMessages.filter fun msg => msg.body.isSome) w.store.db
    rw [← commitMessages_whole] at rows
    let change := fun store : Store => { store with
      db := CreateMessage.commitMessages engine.lookups w.now engine.folderId engine.folderRole rawMessages
        store.db }
    have committed : row ∈ (w.commit change).rows engine := member
    refine (commit_added rows committed).imp_right fun new => ?_
    obtain ⟨fresh, msg, listed, messageId, rfl⟩ := origins row new
    refine ⟨?_, fresh⟩
    rw [flaggedRow_msgUid]
    exact List.mem_map_of_mem (List.mem_filter.mp listed).1
  | saveKnown msg =>
    obtain ⟨added, rows, origins⟩ := deduplicate_rows engine.lookups w.now engine.folderId msg w.store.db
    refine (commit_added rows member).imp_right fun new => ?_
    obtain ⟨fresh, messageId, rfl⟩ := origins row new
    exact ⟨List.mem_singleton_self _, fresh⟩
  | saveNew msg =>
    obtain ⟨messageId, rows⟩ := createMessage_rows engine.lookups
      (KeepsStatus.addMessageToThreadGmail engine.lookups) w.now engine.folderId engine.folderRole msg
      w.store.db
    refine (commit_added rows member).imp_right fun new => ?_
    split at new
    · cases new
    · rename_i free
      obtain rfl := List.mem_singleton.mp new
      rw [flaggedRow_msgUid]
      exact ⟨List.mem_singleton_self _, (not_or.mp free).1⟩
  | _ => cases saves

theorem saves_results (saves : command.saves) :
    (World.perform engine command w).memory.flagsFetchResults = w.memory.flagsFetchResults := by
  cases command with
  | fetch =>
    unfold World.perform
    dsimp only
    split <;> rfl
  | ask | save | saveKnown | saveNew => simp [World.perform]
  | _ => cases saves

theorem updatedRow_newColumns (L : Lookups) (newFlags : Flags) (row : ImapUid) :
    (Common.updatedRow L newFlags row).toFlagColumns = newColumns newFlags := by
  obtain ⟨flags, labels, modseq⟩ := newFlags
  cases labels <;> rfl

end Rows

/-! ## Asking -/
section Fetch
variable (engine : FolderSyncEngine) (current : Nat → Response → World → Prop)
  (aside : Response → Command → Prop) (start : World)

/-- The UIDs and their flags as they were found while a call with this limit was asking. -/
structure Origin (maxUids : Nat) (response : Response) : Prop where
  asked : ∃ w, Seen engine current aside start maxUids w ∧
    response.1 = Common.localUidsLimit w.store.db engine.folderId maxUids
  answered : ∃ w session, Seen engine current aside start maxUids w ∧
    response.2 = w.server.flagsOf session response.1

/-- Every UID that was asked for has a row. -/
def Present (uids : List Nat) (w : World) : Prop :=
  ∀ uid ∈ uids, uid ∈ Common.localUids w.store.db engine.folderId

/-- Meanwhile rows are only added. -/
def asking (maxUids : Nat) : Contract (World.perform engine) where
  inv _ := True
  admits _ := Seen engine current aside start maxUids
  rely s t := ∀ uid ∈ Common.localUids s.store.db engine.folderId,
    uid ∈ Common.localUids t.store.db engine.folderId
  guar _ _ := True
  rely_refl _ _ held := held
  rely_trans first second uid held := second uid (first uid held)

variable {engine current aside start}

theorem present_limit (w : World) (maxUids : Nat) :
    Present engine (Common.localUidsLimit w.store.db engine.folderId maxUids) w := fun _ member =>
  (List.perm_insertionSort _ _).mem_iff.mp (List.mem_of_mem_take member)

theorem spec_fetchFlags (maxUids : Nat) :
    (asking engine current aside start maxUids).Spec (fun _ => True) (fetchFlags engine maxUids)
      (fun response t => Origin engine current aside start maxUids response ∧ Present engine response.1 t)
      (fun _ _ => True) := by
  let K := asking engine current aside start maxUids
  have always : K.Stable fun _ => True := fun _ _ _ _ _ => trivial
  let Listed := fun (uids : List Nat) (t : World) => Present engine uids t ∧
    ∃ w, Seen engine current aside start maxUids w ∧
      uids = Common.localUidsLimit w.store.db engine.folderId maxUids
  have listed : ∀ uids, K.Stable (Listed uids) := by
    rintro uids s t ⟨present, asked⟩ moved -
    exact ⟨fun uid member => moved uid (present uid member), asked⟩
  have issues : (selectFolder uidvalidityCb).Issues fun _ => True := issues_selectFolder trivial trivial
  have selects : K.Spec (fun _ => True) (selectFolder uidvalidityCb) (fun _ _ => True) (fun _ _ => True) :=
    spec_issues always issues fun _ _ _ _ _ _ => ⟨trivial, trivial, trivial⟩
  have queries : K.Spec (fun _ => True)
      (query fun w => Common.localUidsLimit w.store.db engine.folderId maxUids) Listed (fun _ _ => True) := by
    refine spec_transact always listed always fun t _ _ seen => ⟨trivial, trivial, trivial, ?_⟩
    rintro uids - ⟨⟩
    exact ⟨present_limit t maxUids, t, seen, rfl⟩
  refine spec_bind selects fun session => spec_bind queries fun local_ => ?_
  have answers : K.Spec (Listed local_) (imap fun server => server.flagsOf session local_)
      (fun flags t => Origin engine current aside start maxUids (local_, flags) ∧ Present engine local_ t)
      (fun _ _ => True) := by
    have posts : ∀ flags, K.Stable fun t =>
        Origin engine current aside start maxUids (local_, flags) ∧ Present engine local_ t := by
      rintro flags s t ⟨origin, present⟩ moved -
      exact ⟨origin, fun uid member => moved uid (present uid member)⟩
    refine spec_issue (listed local_) posts (fun _ => always) fun t _ held seen => ⟨trivial, trivial, ?_⟩
    cases t.server.fault with
    | some => trivial
    | none => exact ⟨⟨held.2, t, session, seen, rfl⟩, held.1⟩
  exact spec_bind answers fun flags => spec_ret (fun s t held moved _ =>
    ⟨held.1, fun uid member => moved uid (held.2 uid member)⟩) fun _ _ held => held

end Fetch

/-! ## Comparing and storing -/
section Keep
variable (engine : FolderSyncEngine)

/-- Meanwhile messages are saved, but none under a UID that the response lacks. -/
structure Beside (response : Response) (s t : World) : Prop where
  results : t.memory.flagsFetchResults = s.memory.flagsFetchResults
  rows : ∀ row ∈ t.rows engine, row ∈ s.rows engine ∨
    row.msgUid ∉ missingUids response ∧ row.msgUid ∉ Common.localUids s.store.db engine.folderId
  uids : ∀ uid ∈ Common.localUids s.store.db engine.folderId,
    uid ∈ Common.localUids t.store.db engine.folderId

def storing (response : Response) : Contract (World.perform engine) where
  inv _ := True
  admits _ _ := True
  rely := Beside engine response
  guar _ _ := True
  rely_refl _ := ⟨rfl, fun _ => .inl, fun _ held => held⟩
  rely_trans first second := {
    results := second.results.trans first.results
    rows := fun row member => (second.rows row member).elim (first.rows row) fun ⟨there, fresh⟩ =>
      .inr ⟨there, fun held => fresh (first.uids _ held)⟩
    uids := fun uid held => second.uids uid (first.uids uid held) }

/-- The UIDs of which the response has flags. -/
def answeredUids (response : Response) : List Nat := response.1.filter (· ∈ response.2.map Prod.fst)

/-- Of the UIDs that were asked for, those still to be removed or updated are the only ones whose rows
do not agree. -/
structure Left (response : Response) (coming : List Nat) (w : World) : Prop where
  rows : ∀ row ∈ w.rows engine, Allows response row.msgUid row.toFlagColumns ∨ row.msgUid ∈ coming
  present : Present engine (answeredUids response) w

variable {engine} {response : Response}

theorem present_stable (uids : List Nat) : (storing engine response).Stable (Present engine uids) :=
  fun _ _ present moved _ uid member => moved.uids uid (present uid member)

/-- A message that is saved meanwhile has none of the UIDs that were asked for. -/
theorem Beside.allows {s t : World} (beside : Beside engine response s t)
    (present : Present engine (answeredUids response) s) (member : row ∈ t.rows engine) :
    row ∈ s.rows engine ∨ Allows response row.msgUid row.toFlagColumns := by
  refine (beside.rows row member).imp_right fun ⟨there, fresh⟩ asked => ?_
  by_cases answered : row.msgUid ∈ response.2.map Prod.fst
  · exact absurd (present _ (List.mem_filter.mpr ⟨asked, decide_eq_true answered⟩)) fresh
  · exact absurd (List.mem_filter.mpr ⟨asked, decide_eq_true answered⟩) there

theorem left_stable (coming : List Nat) : (storing engine response).Stable (Left engine response coming) := by
  intro s t left moved good
  refine ⟨fun row member => ?_, present_stable _ s t left.present moved good⟩
  rcases moved.allows left.present member with old | new
  · exact left.rows row old
  · exact .inl new

theorem removeUid_calm {w : World} (calm : w.store.fault = none) (uid : Nat) :
    (World.perform engine (.removeUid uid) w).rows engine =
      (w.rows engine).filter fun row => row.msgUid ≠ uid := by
  simp only [World.perform, World.commit, calm]
  exact removeDeletedUid_rows ..

theorem updateItem_calm {w : World} (calm : w.store.fault = none) (uid : Nat) (newFlags : Flags) :
    (World.perform engine (.updateItem uid newFlags) w).rows engine = (w.rows engine).map fun row =>
      if row.msgUid = uid then Common.updatedRow engine.lookups newFlags row else row := by
  simp only [World.perform, World.commit, calm]
  exact updateMetadataItem_rows ..

theorem left_removeUid {w : World} (calm : w.store.fault = none) (missing : uid ∉ answeredUids response)
    (left : Left engine response (uid :: coming) w) :
    Left engine response coming (World.perform engine (.removeUid uid) w) := by
  constructor
  · intro row member
    rw [removeUid_calm calm] at member
    obtain ⟨held, other⟩ := List.mem_filter.mp member
    rcases left.rows row held with agrees | listed
    · exact .inl agrees
    · exact .inr ((List.mem_cons.mp listed).resolve_left (of_decide_eq_true other))
  · intro other listed
    obtain ⟨row, held, rfl⟩ := mem_localUids.mp (left.present other listed)
    refine mem_localUids.mpr ⟨row, ?_, rfl⟩
    change row ∈ (World.perform engine (.removeUid uid) w).rows engine
    rw [removeUid_calm calm, List.mem_filter]
    exact ⟨held, decide_eq_true fun same => missing (same ▸ listed)⟩

theorem left_updateItem {w : World} (calm : w.store.fault = none) (answered : (uid, newFlags) ∈ response.2)
    (left : Left engine response (uid :: coming) w) :
    Left engine response coming (World.perform engine (.updateItem uid newFlags) w) := by
  constructor
  · intro row member
    rw [updateItem_calm calm] at member
    obtain ⟨old, held, rfl⟩ := List.mem_map.mp member
    by_cases here : old.msgUid = uid
    · left
      rw [if_pos here, updatedRow_newColumns, (updatedRow_keys engine.lookups newFlags old).2, here]
      exact fun _ => ⟨newFlags, answered, rfl⟩
    · rw [if_neg here]
      exact (left.rows old held).imp_right fun listed => (List.mem_cons.mp listed).resolve_left here
  · intro other listed
    obtain ⟨row, held, rfl⟩ := mem_localUids.mp (left.present other listed)
    refine mem_localUids.mpr ⟨if row.msgUid = uid then Common.updatedRow engine.lookups newFlags row else row,
      ?_, ?_⟩
    · change _ ∈ (World.perform engine (.updateItem uid newFlags) w).rows engine
      rw [updateItem_calm calm]
      exact List.mem_map_of_mem held
    · split
      · exact (updatedRow_keys engine.lookups newFlags row).2
      · rfl

theorem answeredUids_present (present : Present engine response.1 w) :
    Present engine (answeredUids response) w :=
  fun uid listed => present uid (List.mem_filter.mp listed).1

/-- At first every UID is still to be removed or updated. -/
theorem left_start (present : Present engine response.1 w) :
    Left engine response (missingUids response ++ answeredUids response) w := by
  refine ⟨fun row _ => ?_, answeredUids_present present⟩
  by_cases asked : row.msgUid ∈ response.1
  · right
    by_cases answered : row.msgUid ∈ response.2.map Prod.fst
    · exact List.mem_append_right _ (List.mem_filter.mpr ⟨asked, decide_eq_true answered⟩)
    · exact List.mem_append_left _ (List.mem_filter.mpr ⟨asked, decide_eq_true answered⟩)
  · exact .inl fun listed => absurd listed asked

theorem spec_remove : (storing engine response).Spec (Present engine response.1)
    (removeDeletedUids (missingUids response)) (fun _ => Left engine response (answeredUids response))
    (fun _ _ => True) := by
  let K := storing engine response
  let Removing := fun (coming : List Nat) (t : World) => (∀ uid ∈ coming, uid ∉ answeredUids response) ∧
    Left engine response (coming ++ answeredUids response) t
  have removing : ∀ coming, K.Stable (Removing coming) := by
    rintro coming s t ⟨missing, left⟩ moved good
    exact ⟨missing, left_stable _ s t left moved good⟩
  have always : K.Stable fun _ => True := fun _ _ _ _ _ => trivial
  have removes : ∀ uid rest, K.Spec (Removing (uid :: rest)) (transact (.removeUid uid) fun _ => some ())
      (fun _ => Removing rest) (fun _ _ => True) := by
    intro uid rest
    refine spec_transact (removing _) (fun _ => removing rest) always fun t _ held _ =>
      ⟨trivial, trivial, trivial, fun _ calm _ => ?_⟩
    obtain ⟨missing, left⟩ := held
    exact ⟨fun other listed => missing other (List.mem_cons_of_mem _ listed),
      left_removeUid calm (missing uid List.mem_cons_self) left⟩
  have apart : ∀ uid ∈ missingUids response, uid ∉ answeredUids response := by
    intro uid missing answered
    exact of_decide_eq_true (List.mem_filter.mp missing).2 (of_decide_eq_true (List.mem_filter.mp answered).2)
  exact spec_mono (spec_each Removing (removing []) removes) (fun _ _ present => ⟨apart, left_start present⟩)
    (fun _ _ _ held => held.2) (fun _ _ _ _ => trivial)

theorem lookup_of_answered (listed : uid ∈ answeredUids response) : (response.2.lookup uid).isSome :=
  lookup_isSome (of_decide_eq_true (List.mem_filter.mp listed).2)

theorem spec_update : (storing engine response).Spec (Left engine response (answeredUids response))
    (updateMetadata engine response.2) (fun _ => Left engine response []) (fun _ _ => True) := by
  let K := storing engine response
  have always : K.Stable fun _ => True := fun _ _ _ _ _ => trivial
  unfold updateMetadata
  split
  · rename_i none
    refine spec_ret (left_stable _) fun t _ left => ⟨fun row member => ?_, left.present⟩
    refine (left.rows row member).imp_right fun listed => ?_
    have found := lookup_of_answered listed
    rw [none] at found
    cases found
  · let Updating := fun (coming : List Nat) (t : World) =>
      (∀ uid ∈ coming, (response.2.lookup uid).isSome) ∧ Left engine response coming t
    have updating : ∀ coming, K.Stable (Updating coming) := by
      rintro coming s t ⟨found, left⟩ moved good
      exact ⟨found, left_stable _ s t left moved good⟩
    refine spec_bind (spec_transact (left_stable _) updating always fun t _ left _ =>
      ⟨trivial, trivial, trivial, ?_⟩) fun items => ?_
    · -- a row that is to be updated is one of those that the query finds
      rintro items - ⟨⟩
      refine ⟨fun uid member => (List.mem_filter.mp member).2, fun row member => ?_, left.present⟩
      refine (left.rows row member).imp_right fun listed => List.mem_filter.mpr ⟨?_, lookup_of_answered listed⟩
      exact mem_localUids.mpr ⟨row, member, rfl⟩
    · suffices updates : K.Spec (Updating items) _ (fun _ => Updating []) fun _ _ => True from
        spec_mono updates (fun _ _ held => held) (fun _ _ _ held => held.2) fun _ _ _ _ => trivial
      refine spec_each Updating (updating []) fun uid rest => ?_
      split
      · rename_i absent
        refine spec_ret (updating _) fun t _ held => ?_
        have found := held.1 uid List.mem_cons_self
        rw [absent] at found
        cases found
      · rename_i newFlags present
        refine spec_transact (updating _) (fun _ => updating rest) always fun t _ held _ =>
          ⟨trivial, trivial, trivial, fun _ calm _ => ⟨?_, ?_⟩⟩
        · exact fun other listed => held.1 other (List.mem_cons_of_mem _ listed)
        · exact left_updateItem calm (mem_of_lookup_eq_some present) held.2

/-! ### The whole second part -/

/-- Before the comparison. -/
structure Ready (engine : FolderSyncEngine) (maxUids : Nat) (response : Response) (w : World) : Prop where
  current : Current engine maxUids response w
  present : Present engine response.1 w

/-- After the call. -/
structure Kept (engine : FolderSyncEngine) (response : Response) (w : World) : Prop where
  agrees : Agrees engine response w
  present : Present engine (answeredUids response) w

theorem agrees_stable {s t : World} (agrees : Agrees engine response s)
    (present : Present engine (answeredUids response) s) (moved : Beside engine response s t) :
    Agrees engine response t :=
  fun row member => (moved.allows present member).elim (agrees row) id

theorem ready_stable (maxUids : Nat) : (storing engine response).Stable (Ready engine maxUids response) := by
  intro s t ready moved good
  refine ⟨fun last remembered same => ?_, present_stable _ s t ready.present moved good⟩
  rw [moved.results] at remembered
  exact agrees_stable (ready.current last remembered same) (answeredUids_present ready.present) moved

theorem kept_stable : (storing engine response).Stable (Kept engine response) := by
  intro s t kept moved good
  exact ⟨agrees_stable kept.agrees kept.present moved, present_stable _ s t kept.present moved good⟩

theorem spec_persist (maxUids : Nat) : (storing engine response).Spec (Present engine response.1)
    (refreshFlagsImpl.persist engine maxUids response.1 response.2)
    (fun _ => Kept engine response) (fun _ _ => True) := by
  refine spec_bind spec_remove fun _ => spec_bind spec_update fun _ => ?_
  refine spec_issue (left_stable _) (fun _ => kept_stable) (fun _ _ _ _ _ _ => trivial)
    fun t _ left _ => ⟨trivial, trivial, ?_, left.present⟩
  exact fun row member => (left.rows row member).resolve_right List.not_mem_nil

/-- A response that is the same as the last is as good as stored. -/
theorem spec_keepFlags (maxUids : Nat) : (storing engine response).Spec (Ready engine maxUids response)
    (keepFlags engine maxUids response) (fun _ => Kept engine response) (fun _ _ => True) := by
  let Compared := fun (last : Option Response) (t : World) =>
    Ready engine maxUids response t ∧ t.memory.flagsFetchResults maxUids = last
  have compared : ∀ last, (storing engine response).Stable (Compared last) := by
    rintro last s t ⟨ready, remembered⟩ moved good
    exact ⟨ready_stable maxUids s t ready moved good, (congrFun moved.results maxUids).trans remembered⟩
  have reads : (storing engine response).Spec (Ready engine maxUids response)
      (own fun w => w.memory.flagsFetchResults maxUids) Compared (fun _ _ => True) :=
    spec_issue (ready_stable maxUids) compared (fun _ _ _ _ _ _ => trivial)
      fun t _ ready _ => ⟨trivial, trivial, ready, rfl⟩
  have stores : ∀ last, (storing engine response).Spec (Compared last)
      (refreshFlagsImpl.persist engine maxUids response.1 response.2)
      (fun _ => Kept engine response) (fun _ _ => True) := fun last =>
    spec_mono (spec_persist maxUids) (fun _ _ held => held.1.present) (fun _ _ _ kept => kept)
      (fun _ _ _ failed => failed)
  refine spec_bind reads fun last => ?_
  split
  · rename_i lastLocal lastFlags
    split
    · rename_i repeated
      have same : Same (lastLocal, lastFlags) response :=
        ⟨List.isPerm_iff.mp repeated.1, List.isPerm_iff.mp repeated.2⟩
      refine spec_ret (compared _) fun t _ held => ?_
      obtain ⟨ready, remembered⟩ := held
      exact ⟨ready.current _ remembered same, answeredUids_present ready.present⟩
    · exact stores _
  · exact stores _

end Keep

/-! ## All runs -/
section All
variable {engine : FolderSyncEngine} {start w : World}

/-- What is known in each phase. -/
def Good (engine : FolderSyncEngine) (start w : World) : Phase → Prop
  | .idle => True
  | .fetching maxUids rest => (asking engine (Current engine) Aside start maxUids).wp
      (fun response t => Origin engine (Current engine) Aside start maxUids response ∧
        Present engine response.1 t) (fun _ _ => True) rest w
  | .keeping maxUids response rest => Origin engine (Current engine) Aside start maxUids response ∧
      (storing engine response).wp (fun _ => Kept engine response) (fun _ _ => True) rest w

/-- The rows and what is remembered stay. -/
theorem good_still {w t : World} {phase : Phase} (rows : t.rows engine = w.rows engine)
    (results : t.memory.flagsFetchResults = w.memory.flagsFetchResults) (good : Good engine start w phase) :
    Good engine start t phase := by
  have local_ : Common.localUids t.store.db engine.folderId = Common.localUids w.store.db engine.folderId :=
    congrArg (List.map ImapUid.msgUid) rows
  have uids : ∀ uid ∈ Common.localUids w.store.db engine.folderId,
      uid ∈ Common.localUids t.store.db engine.folderId := fun uid held => local_ ▸ held
  cases phase with
  | idle => trivial
  | fetching maxUids rest => exact wp_rely good uids
  | keeping maxUids response rest =>
    exact ⟨good.1, wp_rely good.2 ⟨results, fun row member => .inl (rows ▸ member), uids⟩⟩

theorem good_downloads {phase : Phase} (saves : command.saves)
    (aside : ∀ maxUids response rest, phase = .keeping maxUids response rest → Aside response command)
    (good : Good engine start w phase) : Good engine start (World.perform engine command w) phase := by
  have uids : ∀ uid ∈ Common.localUids w.store.db engine.folderId,
      uid ∈ Common.localUids (World.perform engine command w).store.db engine.folderId :=
    fun uid held => (spares_saves saves w held).1
  cases phase with
  | idle => trivial
  | fetching maxUids rest => exact wp_rely good uids
  | keeping maxUids response rest =>
    have apart := aside maxUids response rest rfl
    refine ⟨good.1, wp_rely good.2 ⟨saves_results saves, fun row member => ?_, uids⟩⟩
    exact (saves_rows saves member).imp_right fun ⟨saved, fresh⟩ => ⟨apart _ saved, fresh⟩

theorem good_step {state next : World × Phase}
    (reached : Reaches engine (Current engine) Aside start state)
    (step : Step engine (Current engine) Aside state next) (good : Good engine start state.1 state.2) :
    Good engine start next.1 next.2 := by
  cases step with
  | calls => exact spec_fetchFlags _ _ trivial trivial
  | @fetches w maxUids command rest =>
    exact (good w (fun _ held => held) trivial ⟨_, reached⟩).2.2
  | @answered maxUids response w current =>
    obtain ⟨origin, present⟩ := good w (fun _ held => held) trivial
    exact ⟨origin, spec_keepFlags maxUids w trivial ⟨current, present⟩⟩
  | @keeps w maxUids response command rest =>
    exact ⟨good.1, (good.2 w ((storing engine response).rely_refl w) trivial trivial).2.2⟩
  | downloads saves aside => exact good_downloads saves aside good
  | env moved => exact good_still moved.rows (congrArg Memory.flagsFetchResults moved.memory) good
  | returns | fetchStops | keepStops | others | restart => trivial

theorem good_of_reaches {state : World × Phase}
    (reached : Reaches engine (Current engine) Aside start state) : Good engine start state.1 state.2 := by
  induction reached with
  | refl => trivial
  | tail before step ih => exact good_step before step ih

end All

/-! ## After a call -/
section Refreshed
variable (engine : FolderSyncEngine) (current : Nat → Response → World → Prop)
  (aside : Response → Command → Prop) (start : World)

/-- The rows have exactly the flags that came, and there are no rows for which none came. -/
structure Refreshed (maxUids : Nat) (response : Response) (w : World) : Prop where
  origin : Origin engine current aside start maxUids response
  flags : ∀ uid ∈ response.1, ∀ newFlags, response.2.lookup uid = some newFlags →
    uid ∈ Common.localUids w.store.db engine.folderId ∧
      ∀ row ∈ w.rows engine, row.msgUid = uid → row.toFlagColumns = newColumns newFlags
  removed : ∀ uid ∈ response.1, response.2.lookup uid = none →
    uid ∉ Common.localUids w.store.db engine.folderId

variable {engine current aside start}

theorem flagsOf_unique {server : Server} (first : (uid, newFlags) ∈ server.flagsOf session uids)
    (second : (uid, otherFlags) ∈ server.flagsOf session uids) : newFlags = otherFlags := by
  have reported : ∀ {flags : Flags}, (uid, flags) ∈ server.flagsOf session uids →
      ∃ version, (server.folder session).current uid = some version ∧
        flags = { flags := version.flags, labels := version.labels, modseq := none } := by
    intro flags member
    obtain ⟨other, -, found⟩ := List.mem_filterMap.mp member
    split at found
    · obtain ⟨version, current, same⟩ := Option.map_eq_some_iff.mp found
      cases same
      exact ⟨version, current, rfl⟩
    · cases found
  obtain ⟨version, current, rfl⟩ := reported first
  obtain ⟨other, same, rfl⟩ := reported second
  rw [Option.some.inj (current.symm.trans same)]

theorem Kept.refreshed (kept : Kept engine response w)
    (origin : Origin engine current aside start maxUids response) :
    Refreshed engine current aside start maxUids response w := by
  obtain ⟨answered, session, -, answers⟩ := origin.answered
  refine ⟨origin, fun uid asked newFlags found => ⟨?_, ?_⟩, fun uid asked missing held => ?_⟩
  · have key : uid ∈ response.2.map Prod.fst := List.mem_map_of_mem (mem_of_lookup_eq_some found)
    exact kept.present uid (List.mem_filter.mpr ⟨asked, decide_eq_true key⟩)
  · rintro row member rfl
    obtain ⟨otherFlags, listed, columns⟩ := kept.agrees row member asked
    rw [← columns]
    rw [answers] at listed found
    rw [flagsOf_unique listed (mem_of_lookup_eq_some found)]
  · obtain ⟨row, member, rfl⟩ := mem_localUids.mp held
    obtain ⟨newFlags, listed, -⟩ := kept.agrees row member asked
    have found := lookup_isSome (List.mem_map_of_mem (f := Prod.fst) listed)
    rw [missing] at found
    cases found

end Refreshed

/-- In every run in which a response that is remembered comes again only while the rows have it, each call
refreshes the rows: those of its response have the flags that came, and those of the other UIDs are gone. -/
theorem completed_calls_refresh (engine : FolderSyncEngine) (start w : World) (maxUids : Nat)
    (response : Response)
    (reached : Reaches engine (Current engine) Aside start (w, .keeping maxUids response (.ret ()))) :
    Refreshed engine (Current engine) Aside start maxUids response w := by
  obtain ⟨origin, holds⟩ := good_of_reaches reached
  exact (holds w ((storing engine response).rely_refl w) trivial).refreshed origin

/-! ## Calls that nothing interrupts -/
section Alone
variable {engine : FolderSyncEngine} {current : Nat → Response → World → Prop}
  {aside : Response → Command → Prop} {w t : World} {maxUids : Nat} {response : Response}

theorem reach_fetching {routine : Call Response}
    (ended : routine.run (World.perform engine) w = (.ok response, t)) :
    Relation.ReflTransGen (Step engine current aside) (w, .fetching maxUids routine)
      (t, .fetching maxUids (.ret response)) := by
  induction routine generalizing w with
  | ret =>
    cases ended
    exact .refl
  | raise => cases ended
  | step command next ih => exact .head .fetches (ih w ended)

theorem reach_keeping {routine : Call Unit} (ended : routine.run (World.perform engine) w = (.ok (), t)) :
    Relation.ReflTransGen (Step engine current aside) (w, .keeping maxUids response routine)
      (t, .keeping maxUids response (.ret ())) := by
  induction routine generalizing w with
  | ret =>
    cases ended
    exact .refl
  | raise => cases ended
  | step command next ih => exact .head .keeps (ih w ended)

theorem reach_call {v : World} (limit : maxUids = SLOW_FLAGS_REFRESH_LIMIT ∨ maxUids = FAST_FLAGS_REFRESH_LIMIT)
    (fetched : (fetchFlags engine maxUids).run (World.perform engine) w = (.ok response, v))
    (kept : (keepFlags engine maxUids response).run (World.perform engine) v = (.ok (), t))
    (admitted : current maxUids response v) :
    Relation.ReflTransGen (Step engine current aside) (w, .idle) (t, .keeping maxUids response (.ret ())) :=
  .head (.calls limit) ((reach_fetching fetched).trans (.head (.answered admitted) (reach_keeping kept)))

/-- A response that differs from what is remembered may be anything. -/
theorem current_of_differs
    (differs : ∀ last, w.memory.flagsFetchResults maxUids = some last → ¬ Same last response) :
    Current engine maxUids response w :=
  fun last remembered same => absurd same (differs last remembered)

end Alone

/-! ## Flags that were set and cleared -/
namespace TwoLimits
open Trial

variable {current : Nat → Response → World → Prop} {aside : Response → Command → Prop}

def version (flags : List String) (modseq : Nat) : Version where
  flags
  labels := none
  modseq

/-- A server without CONDSTORE that has one message. -/
def serving (history : List Version) (newest : history.Pairwise fun new old => old.modseq < new.modseq) :
    Server :=
  { server 1
      { uidnext := 2
        highestmodseq := 9
        history uid := if uid = 1 then history else []
        expunged _ := false
        content _ := { body := some "Hi", gThrid := none, gMsgid := none }
        below uid given := by
          by_cases first : uid = 1
          · omega
          · exact absurd (if_neg first) given
        newest uid := by
          split
          · exact newest
          · exact List.Pairwise.nil }
    with condstore := false }

def unread : Server := serving [version [] 5] (by decide)
def read : Server := serving [version ["\\Seen"] 6, version [] 5] (by decide)
def unreadAgain : Server := serving [version [] 7, version ["\\Seen"] 6, version [] 5] (by decide)

/-- The message is saved as unread. -/
def saved (server : Server) : World :=
  let start := world server (some (info 1))
  { start with store := { start.store with db := { start.store.db with imapuids := [unseenRow 1] } } }

def asked (maxUids : Nat) (w : World) : World := ((fetchFlags self maxUids).run (World.perform self) w).2

def stored (maxUids : Nat) (response : Response) (w : World) : World :=
  ((keepFlags self maxUids response).run (World.perform self) (asked maxUids w)).2

/-- The server has moved on. -/
def serve (server : Server) (w : World) : World := { w with server }

def answer (flags : List String) : Response := ([1], [(1, { flags, labels := none, modseq := none })])

theorem moves_serve (server : Server) (w : World) (same : server.uidvalidity = w.server.uidvalidity) :
    Moves self (fun _ _ => True) w (serve server w) where
  server := trivial
  rows := rfl
  info := rfl
  memory := rfl
  status := rfl
  trace := (if_pos same).symm

/-- A call that gets this response and returns. -/
theorem reach_stored {w : World}
    (limit : maxUids = SLOW_FLAGS_REFRESH_LIMIT ∨ maxUids = FAST_FLAGS_REFRESH_LIMIT)
    (fetched : ((fetchFlags self maxUids).run (World.perform self) w).1 = .ok response)
    (kept : ((keepFlags self maxUids response).run (World.perform self) (asked maxUids w)).1 = .ok ())
    (admitted : current maxUids response (asked maxUids w)) :
    Relation.ReflTransGen (Step self current aside) (w, .idle)
      (stored maxUids response w, .keeping maxUids response (.ret ())) :=
  reach_call limit (Prod.ext fetched rfl) (Prod.ext kept rfl) admitted

/-- Unread, then read, and unread again, which nobody but the fast refresh has been told twice. -/
def first : World := stored 100 (answer []) (saved unread).restart
def second : World := stored 2000 (answer ["\\Seen"]) (serve read first)
def third : World := stored 100 (answer []) (serve unreadAgain second)

/-- Read, and read still when the fast refresh asks twice more. -/
def again : World := stored 100 (answer ["\\Seen"]) second
def repeated : World := stored 100 (answer ["\\Seen"]) again

/-- The first two calls, between which the server moves. -/
theorem reach_second (one : current 100 (answer []) (asked 100 (saved unread).restart))
    (other : current 2000 (answer ["\\Seen"]) (asked 2000 (serve read first))) :
    Reaches self current aside (saved unread) (second, .keeping 2000 (answer ["\\Seen"]) (.ret ())) := by
  let Run := Relation.ReflTransGen (Step self current aside)
  have fast : Run ((saved unread).restart, .idle) (first, .keeping 100 (answer []) (.ret ())) :=
    reach_stored (.inr rfl) rfl rfl one
  have slow : Run (serve read first, .idle) (second, .keeping 2000 (answer ["\\Seen"]) (.ret ())) :=
    reach_stored (.inl rfl) rfl rfl other
  exact fast.trans (.head .returns (.head (.env (moves_serve read first rfl)) slow))

theorem reach_third : Reaches self (fun _ _ _ => True) (fun _ _ => True) (saved unread)
    (third, .keeping 100 (answer []) (.ret ())) := by
  let Run := Relation.ReflTransGen (Step self (fun _ _ _ => True) fun _ _ => True)
  have last : Run (serve unreadAgain second, .idle) (third, .keeping 100 (answer []) (.ret ())) :=
    reach_stored (.inr rfl) rfl rfl trivial
  exact (reach_second trivial trivial).trans
    (.head .returns (.head (.env (moves_serve unreadAgain second rfl)) last))

/-- The slow refresh has stored what the fast one remembers by now. -/
theorem reach_repeated : Reaches self (Current self) Aside (saved unread)
    (repeated, .keeping 100 (answer ["\\Seen"]) (.ret ())) := by
  let Run := Relation.ReflTransGen (Step self (Current self) Aside)
  have nothing : ∀ maxUids response w, w.memory.flagsFetchResults maxUids = none →
      Current self maxUids response w := fun maxUids response w none =>
    current_of_differs fun last remembered => by rw [none] at remembered; cases remembered
  have unequal : Current self 100 (answer ["\\Seen"]) (asked 100 second) := by
    refine current_of_differs fun last remembered same => ?_
    obtain rfl := Option.some.inj ((rfl : some (answer []) = _).trans remembered)
    exact absurd (List.perm_singleton.mp same.2) (by decide)
  have fast : Run (second, .idle) (again, .keeping 100 (answer ["\\Seen"]) (.ret ())) :=
    reach_stored (.inr rfl) rfl rfl unequal
  have rows : ∀ row ∈ (asked 100 again).rows self, row.toFlagColumns = newColumns
      { flags := ["\\Seen"], labels := none, modseq := none } := by decide
  have same : Current self 100 (answer ["\\Seen"]) (asked 100 again) := by
    rintro - - - row member asked
    rw [List.mem_singleton.mp asked, rows row member]
    exact ⟨_, List.mem_singleton_self _, rfl⟩
  have last : Run (again, .idle) (repeated, .keeping 100 (answer ["\\Seen"]) (.ret ())) :=
    reach_stored (.inr rfl) rfl rfl same
  exact (reach_second (nothing _ _ _ rfl) (nothing _ _ _ rfl)).trans
    (.head .returns (fast.trans (.head .returns last)))

end TwoLimits

open TwoLimits in
/-- Both limits get what the other one has stored, and one of them gets it twice. -/
theorem completed_calls_refresh_repeated : Refreshed Trial.self (Current Trial.self) Aside
    (saved unread) 100 (answer ["\\Seen"]) repeated :=
  completed_calls_refresh Trial.self (saved unread) repeated 100 (answer ["\\Seen"]) reach_repeated

open TwoLimits in
/-- The last call gets what the fast refresh got before, and so the row stays as the slow refresh left it. -/
theorem repeated_response_leaves_row : ¬ ∀ engine start w maxUids response,
    Reaches engine (fun _ _ _ => True) (fun _ _ => True) start (w, .keeping maxUids response (.ret ())) →
      Refreshed engine (fun _ _ _ => True) (fun _ _ => True) start maxUids response w := by
  intro always
  have flags := (always Trial.self (saved unread) third 100 (answer []) reach_third).flags 1
    (by decide) { flags := [], labels := none, modseq := none } rfl
  have row : ∃ row ∈ third.rows Trial.self, row.msgUid = 1 ∧ row.isSeen = true := by decide
  obtain ⟨row, member, named, seen⟩ := row
  have unseen : row.isSeen = false := congrArg FlagColumns.isSeen (flags.2 row member named)
  rw [seen] at unseen
  cases unseen

end FlagsFetchResults
end Imap
end SyncEngine
