import SyncEngine.Cooperative.Contract
import SyncEngine.Mailsync.Imap.StateMachine

/-! What the routines of a folder engine keep, from what each of their commands keeps. The
assertions and the contract are parameters: the statements about UIDVALIDITYs, about copies of
attributes and about flags each have their own. -/
namespace SyncEngine
namespace Imap
open Cooperative Contract

/-! ## Which commands a routine issues -/
section Issued
variable {allowed : Command → Prop}

theorem issues_load {column : Column} {copy : Memory → Option α} {row : ImapFolderInfo → α}
    (ask : allowed .ask) (read : allowed (.load column)) :
    (load column copy row).Issues allowed := by
  refine ⟨ask, fun w => ?_⟩
  dsimp only
  split
  · trivial
  · exact Routine.issues_issue.mpr read

theorem issues_setAttribute {write : Write} (writes : allowed (.write write))
    (caches : allowed (.cache write)) : (setAttribute write).Issues allowed :=
  Routine.issues_bind (Routine.issues_issue.mpr writes)
    (fun _ => Routine.issues_issue.mpr caches)

theorem issues_setHighestmodseq {value : Option Nat} (caches : allowed (.cache (.highestmodseq value)))
    (writes : allowed (.write (.highestmodseq value))) : (setHighestmodseq value).Issues allowed :=
  Routine.issues_bind (Routine.issues_issue.mpr caches)
    (fun _ => Routine.issues_issue.mpr writes)

theorem issues_removeDeletedUids {uids : List Nat} (removes : ∀ uid, allowed (.removeUid uid)) :
    (removeDeletedUids uids).Issues allowed :=
  Routine.issues_each (fun uid _ => Routine.issues_issue.mpr (removes uid))

end Issued

section Commands
variable {self : FolderSyncEngine} {K : Contract (World.perform self)} {P pre : World → Prop}

/-- A command that only asks leaves the world as it is. -/
def Asks (K : Contract (World.perform self)) (P : World → Prop) : Prop :=
  ∀ t, K.inv t → P t → K.guar .ask t

theorem spec_imap {answer : Server → α} {post : α → World → Prop} (stable : K.Stable pre)
    (posts : ∀ value, K.Stable (post value)) (fails : K.Stable P) (asks : Asks K pre)
    (failed : ∀ t, pre t → P t) (answers : ∀ t, K.inv t → pre t → post (answer t.server) t) :
    K.Spec pre (imap answer) post (fun _ => P) := by
  refine spec_issue stable posts (fun _ => fails) fun t good ready _ => ⟨good, asks t good ready, ?_⟩
  cases t.server.fault with
  | some => exact failed t ready
  | none => exact answers t good ready

theorem spec_transact {command : Command} {answer : World → Option α} {post : α → World → Prop}
    (stable : K.Stable pre) (posts : ∀ value, K.Stable (post value)) (fails : K.Stable P)
    (steps : ∀ t, K.inv t → pre t → K.admits command t →
      K.inv (World.perform self command t) ∧ K.guar command t ∧ P (World.perform self command t) ∧
        ∀ value, t.store.fault = none → answer t = some value →
          post value (World.perform self command t)) :
    K.Spec pre (transact command answer) post (fun _ => P) := by
  refine spec_issue stable posts (fun _ => fails) fun t good ready admitted => ?_
  obtain ⟨kept, promised, still, answers⟩ := steps t good ready admitted
  refine ⟨kept, promised, ?_⟩
  cases fault : t.store.fault with
  | some => exact still
  | none =>
    cases reply : answer t with
    | none => exact still
    | some value => exact answers value fault reply

theorem spec_query {answer : World → α} {post : α → World → Prop} (stable : K.Stable pre)
    (posts : ∀ value, K.Stable (post value)) (fails : K.Stable P) (asks : Asks K pre)
    (failed : ∀ t, pre t → P t)
    (answers : ∀ t, K.inv t → pre t → t.store.fault = none → post (answer t) t) :
    K.Spec pre (query answer) post (fun _ => P) := by
  refine spec_transact stable posts fails fun t good ready _ =>
    ⟨good, asks t good ready, failed t ready, ?_⟩
  rintro value calm ⟨⟩
  exact answers t good ready calm

/-- A getter: either the copy is there, or the row is read. -/
theorem spec_load {column : Column} {copy : Memory → Option α} {row : ImapFolderInfo → α}
    {post : α → World → Prop} (stable : K.Stable pre) (posts : ∀ value, K.Stable (post value))
    (fails : K.Stable P) (asks : Asks K pre)
    (copies : ∀ t value, K.inv t → pre t → copy t.memory = some value → post value t)
    (loads : ∀ t, K.inv t → pre t → K.admits (.load column) t →
      K.inv (World.perform self (.load column) t) ∧ K.guar (.load column) t ∧
        P (World.perform self (.load column) t) ∧
        ∀ info, t.store.fault = none → t.store.info = some info →
          post (row info) (World.perform self (.load column) t)) :
    K.Spec pre (load column copy row) post (fun _ => P) := by
  refine spec_step stable fun t good ready _ => ⟨good, asks t good ready, ?_⟩
  cases held : copy t.memory with
  | some value =>
    exact fun u moved here => posts value t u (copies t value good ready held) moved here
  | none =>
    refine spec_transact stable posts fails (fun u here still admitted => ?_) t good ready
    obtain ⟨kept, promised, left, found⟩ := loads u here still admitted
    refine ⟨kept, promised, left, fun value calm reply => ?_⟩
    obtain ⟨info, saved, rfl⟩ := Option.map_eq_some_iff.mp reply
    exact found info calm saved

/-- Where `UidInvalid` is not raised, what holds on failure is all that is to be shown. -/
theorem spec_raising {routine : Call α} {F : Exc → World → Prop} {post : α → World → Prop}
    (fails : ∀ exc t, exc.isUidInvalid = false → P t → F exc t)
    (spec : K.Spec pre routine post (fun _ => P))
    (raises : routine.Raises (fun exc => exc.isUidInvalid = false)) : K.Spec pre routine post F :=
  spec_mono (spec_raises spec raises) (fun _ _ held => held) (fun _ _ _ held => held)
    (fun exc t _ held => fails exc t held.1 held.2)

/-- Selecting: what is known of the session when it is opened, and what the callback makes of it. -/
theorem spec_selectFolder {cb : Session → Call Unit} {F : Exc → World → Prop}
    (opened : Session → World → Prop) {post : Session → World → Prop} (stable : K.Stable P)
    (opens : ∀ session, K.Stable (opened session)) (posts : ∀ session, K.Stable (post session))
    (fails : ∀ exc t, exc.isUidInvalid = false → P t → F exc t) (asks : Asks K P)
    (answers : ∀ t, K.inv t → P t → opened t.server.selectInfo t)
    (checks : ∀ session, K.Spec (opened session) (cb session) (fun _ => post session) F) :
    K.Spec P (selectFolder cb) post F := by
  refine spec_bind (spec_raising fails
    (spec_imap stable opens stable asks (fun _ held => held) answers) remote_raises) fun session => ?_
  exact spec_bind (checks session) fun _ => spec_ret (posts session) fun _ _ held => held

theorem spec_uidvalidityCb {session : Session} {post : World → Prop} {F : Exc → World → Prop}
    (cached : Nat → World → Prop) (stable : ∀ value, K.Stable (cached value))
    (reads : K.Spec pre uidvalidity cached F)
    (passes : ∀ value t, K.inv t → cached value t → session.uidvalidity ≤ value → post t)
    (invalid : ∀ value t, K.inv t → cached value t → value < session.uidvalidity →
      F (.uidInvalid session.uidvalidity value) t) :
    K.Spec pre (uidvalidityCb session) (fun _ => post) F := by
  refine spec_bind reads fun value => ?_
  split
  · rename_i valid
    exact spec_ret (stable value) fun t good held => passes value t good held valid
  · rename_i larger
    exact spec_raise (stable value) fun t good held => invalid value t good held (Nat.lt_of_not_le larger)

/-- The messages that one download has fetched so far are what `holding` is about. -/
theorem spec_fetchUids {greenlet : Greenlet} {session : Session}
    (holding : List RawMessage → World → Prop) (stable : ∀ messages, K.Stable (holding messages))
    (fails : K.Stable P)
    (fetches : ∀ uid messages t, K.inv t → holding messages t → K.admits (.fetch greenlet session uid) t →
      K.inv (World.perform self (.fetch greenlet session uid) t) ∧
        K.guar (.fetch greenlet session uid) t ∧
        P (World.perform self (.fetch greenlet session uid) t) ∧
        ∀ delivered, t.server.fault = none → t.server.deliver session uid = .ok delivered →
          holding (messages ++ delivered) (World.perform self (.fetch greenlet session uid) t))
    (uids : List Nat) (messages : List RawMessage) :
    K.Spec (holding messages) (fetchUids greenlet session uids)
      (fun fetched => holding (messages ++ fetched)) (fun _ => P) := by
  induction uids generalizing messages with
  | nil =>
    refine spec_ret (stable messages) fun _ _ held => ?_
    rwa [List.append_nil]
  | cons uid rest ih =>
    have first : K.Spec (holding messages)
        (remote (.fetch greenlet session uid) fun server => server.deliver session uid)
        (fun fetched => holding (messages ++ fetched)) (fun _ => P) := by
      refine spec_issue (stable messages) (fun _ => stable _) (fun _ => fails)
        fun t good held admitted => ?_
      obtain ⟨kept, promised, failed, delivers⟩ := fetches uid messages t good held admitted
      refine ⟨kept, promised, ?_⟩
      cases fault : t.server.fault with
      | some => exact failed
      | none =>
        cases delivery : t.server.deliver session uid with
        | error => simpa only [Except.mapError, delivery] using failed
        | ok delivered => simpa only [Except.mapError, delivery] using delivers delivered fault delivery
    refine spec_bind first fun fetched => spec_bind (ih (messages ++ fetched)) fun others => ?_
    refine spec_ret (stable _) fun _ _ held => ?_
    rwa [← List.append_assoc]

theorem spec_downloadAndCommitUids {greenlet : Greenlet} {session : Session} {uids : List Nat}
    (holding : List RawMessage → World → Prop) {post : World → Prop}
    (fetched : K.Spec pre (fetchUids greenlet session uids) holding (fun _ => P))
    (nothing : K.Spec (holding []) (.ret () : Call Unit) (fun _ => post) (fun _ => P))
    (saves : ∀ messages, K.Spec (holding messages)
      (transact (.save greenlet messages) fun _ => some ()) (fun _ => post) (fun _ => P)) :
    K.Spec pre (downloadAndCommitUids greenlet session uids) (fun _ => post) (fun _ => P) := by
  refine spec_bind fetched fun messages => ?_
  split
  · rename_i none
    subst none
    exact nothing
  · exact saves messages

end Commands

/-! ## Small routines -/

/-- The commands of a poll that neither save messages nor set an attribute. -/
def Command.minor : Command → Bool
  | .ask => true
  | .lookup _ => true
  | .updateItem _ _ => true
  | .removeUid _ => true
  | .load _ => true
  | .note _ => true
  | .remember _ => true
  | .rememberFlags _ _ _ => true
  | _ => false

/-- Only small commands, and no exception but those of a command that fails. -/
structure Minor (routine : Call α) : Prop where
  issues : routine.Issues (fun command => command.minor)
  raises : routine.Raises (fun exc => exc.isUidInvalid = false)

section Minor
variable {self : FolderSyncEngine}

theorem minor_ret {value : α} : Minor (.ret value) := ⟨trivial, Routine.raises_ret⟩

theorem minor_bind {routine : Call α} {rest : α → Call β} (first : Minor routine)
    (later : ∀ value, Minor (rest value)) : Minor (routine.bind rest) where
  issues := Routine.issues_bind first.issues fun value => (later value).issues
  raises := Routine.raises_bind first.raises fun value => (later value).raises

theorem minor_each {items : List β} {body : β → Call Unit} (bodies : ∀ item, Minor (body item)) :
    Minor (.each items body) where
  issues := Routine.issues_each fun item _ => (bodies item).issues
  raises := Routine.raises_each fun item => (bodies item).raises

theorem minor_transact {command : Command} {answer : World → Option α} (minor : command.minor) :
    Minor (transact command answer) := ⟨Routine.issues_issue.mpr minor, transact_raises⟩

theorem minor_query {answer : World → α} : Minor (query answer) := minor_transact rfl

theorem minor_imap {answer : Server → α} : Minor (imap answer) :=
  ⟨Routine.issues_issue.mpr rfl, remote_raises⟩

theorem minor_own {answer : World → α} : Minor (own answer) where
  issues := Routine.issues_issue.mpr rfl
  raises := Routine.raises_issue fun _ _ raised => by cases raised

theorem minor_local {command : Command} (minor : command.minor) : Minor (local_ command) :=
  ⟨Routine.issues_issue.mpr minor, local_raises⟩

theorem minor_load {column : Column} {copy : Memory → Option α} {row : ImapFolderInfo → α} :
    Minor (load column copy row) := ⟨issues_load rfl rfl, load_raises⟩

theorem minor_removeDeletedUids {uids : List Nat} : Minor (removeDeletedUids uids) :=
  minor_each fun _ => minor_transact rfl

theorem minor_updateMetadata {newFlags : List (Nat × Flags)} :
    Minor (updateMetadata self newFlags) := by
  unfold updateMetadata
  split
  · exact minor_ret
  · refine minor_bind (minor_transact rfl) fun items => minor_each fun uid => ?_
    split
    · exact minor_ret
    · exact minor_transact rfl

theorem minor_compareUids {session : Session} : Minor (compareUids self session) := by
  refine minor_bind minor_imap fun remoteUids => minor_bind minor_query fun local_ => ?_
  exact minor_bind minor_removeDeletedUids fun _ => minor_bind minor_query fun _ => minor_ret

end Minor

/-! ## Exceptions -/
section Raised
variable {greenlet : Greenlet} {session : Session}

theorem fetchUids_raises {uids : List Nat} :
    (fetchUids greenlet session uids).Raises (fun exc => exc.isUidInvalid = false) := by
  induction uids with
  | nil => exact Routine.raises_ret
  | cons uid rest ih =>
    refine Routine.raises_bind remote_raises fun messages => ?_
    exact Routine.raises_bind ih fun others => Routine.raises_ret

theorem download_raises (self : FolderSyncEngine) (backend : Backend) {uids : List Nat} :
    (download self backend greenlet session uids).Raises (fun exc => exc.isUidInvalid = false) := by
  cases backend with
  | generic =>
    refine Routine.raises_bind fetchUids_raises fun rawMessages => ?_
    split
    · exact Routine.raises_ret
    · exact transact_raises
  | gmail =>
    refine Routine.raises_bind fetchUids_raises fun rawMessages => ?_
    split
    · exact Routine.raises_ret
    · refine Routine.raises_bind transact_raises fun known => ?_
      refine Routine.raises_bind (Routine.raises_each fun _ => transact_raises) fun _ => ?_
      exact Routine.raises_bind transact_raises fun _ => Routine.raises_each fun _ => transact_raises

theorem setHighestmodseq_raises {value : Option Nat} :
    (setHighestmodseq value).Raises (fun exc => exc.isUidInvalid = false) :=
  Routine.raises_bind local_raises fun _ => transact_raises

end Raised

/-! ## Polling for new UIDs -/

/-- What `get_new_uids` needs to keep `P`. `Q` is what a selected session is known to satisfy, and
`F` what is left when an exception is raised. -/
structure Downloads (engine : FolderSyncEngine) (K : Contract (World.perform engine))
    (backend : Backend) (greenlet : Greenlet) (P : World → Prop) (Q : Session → World → Prop)
    (F : Exc → World → Prop) : Prop where
  stable : K.Stable P
  knows : ∀ session, K.Stable (Q session)
  fails : ∀ exc t, exc.isUidInvalid = false → P t → F exc t
  asks : Asks K P
  readsUidnext : K.Spec P uidnext (fun _ => P) (fun _ => P)
  selects : K.Spec P (selectFolder uidvalidityCb) (fun session t => P t ∧ Q session t) F
  downloads : ∀ session uid, K.Spec (fun t => P t ∧ Q session t)
    (download engine backend greenlet session [uid]) (fun _ t => P t ∧ Q session t) (fun _ => P)
  counts : ∀ value, K.Spec P (setAttribute (.uidnext value)) (fun _ => P) (fun _ => P)

section Routines
variable {self : FolderSyncEngine} {K : Contract (World.perform self)} {backend : Backend}
  {greenlet : Greenlet} {P : World → Prop} {Q : Session → World → Prop} {F : Exc → World → Prop}

theorem Downloads.raising (keeps : Downloads self K backend greenlet P Q F) {pre : World → Prop}
    {post : α → World → Prop} {routine : Call α} (spec : K.Spec pre routine post (fun _ => P))
    (raises : routine.Raises (fun exc => exc.isUidInvalid = false)) : K.Spec pre routine post F :=
  spec_raising keeps.fails spec raises

theorem Downloads.getNewUids (keeps : Downloads self K backend greenlet P Q F) :
    K.Spec P (getNewUids self backend greenlet) (fun _ => P) F := by
  have stable := keeps.stable
  have both : ∀ session, K.Stable (fun t => P t ∧ Q session t) :=
    fun session => stable_and stable (keeps.knows session)
  have asksBoth : ∀ session, Asks K (fun t => P t ∧ Q session t) :=
    fun _ t good held => keeps.asks t good held.1
  refine spec_bind (keeps.raising (spec_imap stable (fun _ => stable) stable keeps.asks
    (fun _ held => held) fun _ _ held => held) remote_raises) fun remote => ?_
  refine spec_bind (keeps.raising keeps.readsUidnext load_raises) fun saved => ?_
  split
  · exact spec_ret stable fun _ _ held => held
  · refine spec_bind keeps.selects fun session => ?_
    refine spec_bind (keeps.raising (spec_query (both session) (fun _ => both session) stable
      (asksBoth session) (fun _ held => held.1) fun _ _ held _ => held) transact_raises) fun lastseen => ?_
    refine spec_bind (keeps.raising (spec_imap (both session) (fun _ => both session) stable
      (asksBoth session) (fun _ held => held.1) fun _ _ held => held) remote_raises) fun latestUids => ?_
    refine spec_bind (spec_each (fun _ t => P t ∧ Q session t) (both session)
      fun uid _ => keeps.raising (keeps.downloads session uid) (download_raises self backend)) fun _ => ?_
    exact spec_mono (keeps.raising (keeps.counts remote) setAttribute_raises)
      (fun _ _ held => held.1) (fun _ _ _ held => held) (fun _ _ _ held => held)

end Routines

/-! ## One turn of polling -/

/-- What `poll_impl` needs to keep `P`. -/
structure Upkeep (engine : FolderSyncEngine) (K : Contract (World.perform engine))
    (backend : Backend) (greenlet : Greenlet) (P : World → Prop) (Q : Session → World → Prop)
    (F : Exc → World → Prop) : Prop where
  stable : K.Stable P
  knows : ∀ session, K.Stable (Q session)
  fails : ∀ exc t, exc.isUidInvalid = false → P t → F exc t
  minor : ∀ command t, command.minor → K.inv t → P t → K.admits command t →
    K.inv (World.perform engine command t) ∧ K.guar command t ∧ P (World.perform engine command t)
  asks : Asks K P
  selects : K.Spec P (selectFolder uidvalidityCb) (fun session t => P t ∧ Q session t) F
  downloads : ∀ session uid, K.Spec (fun t => P t ∧ Q session t)
    (download engine backend greenlet session [uid]) (fun _ t => P t ∧ Q session t) (fun _ => P)
  counts : ∀ value, K.Spec P (setAttribute (.uidnext value)) (fun _ => P) (fun _ => P)
  refreshes : ∀ value, K.Spec P (setAttribute (.lastSlowRefresh value)) (fun _ => P) (fun _ => P)
  checks : ∀ value, K.Spec P (setHighestmodseq value) (fun _ => P) (fun _ => P)

section Poll
variable {self : FolderSyncEngine} {K : Contract (World.perform self)} {backend : Backend}
  {greenlet : Greenlet} {P : World → Prop} {Q : Session → World → Prop} {F : Exc → World → Prop}

namespace Upkeep

theorem issues (keeps : Upkeep self K backend greenlet P Q F) {routine : Call α}
    (minor : Minor routine) : K.Spec P routine (fun _ => P) (fun _ => P) :=
  spec_issues keeps.stable minor.issues keeps.minor

theorem downloading (keeps : Upkeep self K backend greenlet P Q F) :
    Downloads self K backend greenlet P Q F where
  stable := keeps.stable
  knows := keeps.knows
  fails := keeps.fails
  asks := keeps.asks
  readsUidnext := keeps.issues minor_load
  selects := keeps.selects
  downloads := keeps.downloads
  counts := keeps.counts

theorem doing (keeps : Upkeep self K backend greenlet P Q F) {routine : Call α}
    (minor : Minor routine) : K.Spec P routine (fun _ => P) F :=
  keeps.downloading.raising (keeps.issues minor) minor.raises

theorem setting (keeps : Upkeep self K backend greenlet P Q F) (value : Option Nat) :
    K.Spec P (setHighestmodseq value) (fun _ => P) F :=
  keeps.downloading.raising (keeps.checks value) setHighestmodseq_raises

/-- The session is not needed any more. -/
theorem selected (keeps : Upkeep self K backend greenlet P Q F) :
    K.Spec P (selectFolder uidvalidityCb) (fun _ => P) F :=
  spec_mono keeps.selects (fun _ _ held => held) (fun _ _ _ held => held.1) (fun _ _ _ held => held)

theorem refreshBatches (keeps : Upkeep self K backend greenlet P Q F)
    (batches : List (List (Nat × Flags))) :
    K.Spec P (refreshBatches self batches) (fun _ => P) F := by
  induction batches with
  | nil => exact spec_ret keeps.stable fun _ _ held => held
  | cons flagBatch rest ih =>
    refine spec_bind (keeps.doing minor_updateMetadata) fun _ => spec_bind ?_ fun _ => ih
    unfold checkpoint
    split
    · exact spec_bind (keeps.doing (minor_local rfl)) fun _ => keeps.setting _
    · exact spec_ret keeps.stable fun _ _ held => held

theorem expunge (keeps : Upkeep self K backend greenlet P Q F) (remoteUids expungedUids : List Nat) :
    K.Spec P (expunge self backend greenlet remoteUids expungedUids) (fun _ => P) F := by
  unfold Imap.expunge
  split
  · exact spec_ret keeps.stable fun _ _ held => held
  · refine spec_bind (keeps.doing minor_query) fun lastseen => ?_
    split
    · exact spec_bind keeps.downloading.getNewUids fun _ => keeps.doing minor_removeDeletedUids
    · exact keeps.doing minor_removeDeletedUids

theorem refreshChanged (keeps : Upkeep self K backend greenlet P Q F) (newHighestmodseq : Nat) :
    K.Spec P (refreshChanged self backend greenlet newHighestmodseq) (fun _ => P) F := by
  refine spec_bind keeps.selected fun session => ?_
  refine spec_bind (keeps.doing minor_load) fun saved => ?_
  refine spec_bind (keeps.doing minor_imap) fun changedFlags => ?_
  refine spec_bind (keeps.doing minor_imap) fun remoteUids => ?_
  refine spec_bind (keeps.refreshBatches _) fun _ => ?_
  refine spec_bind (keeps.doing minor_query) fun local_ => ?_
  exact spec_bind (keeps.expunge _ _) fun _ =>
    spec_bind (keeps.doing (minor_local rfl)) fun _ => keeps.setting _

theorem condstoreRefreshFlags (keeps : Upkeep self K backend greenlet P Q F) :
    K.Spec P (condstoreRefreshFlags self backend greenlet) (fun _ => P) F := by
  refine spec_bind (keeps.doing minor_imap) fun newHighestmodseq => ?_
  refine spec_bind (keeps.doing minor_load) fun saved => ?_
  have first : K.Spec P (initHighestmodseq newHighestmodseq saved) (fun _ => P) F := by
    cases saved with
    | none => exact spec_bind (keeps.doing (minor_local rfl)) fun _ => keeps.setting _
    | some => exact spec_ret keeps.stable fun _ _ held => held
  refine spec_bind first fun _ => spec_bind (keeps.doing minor_load) fun saved => ?_
  split
  · exact spec_ret keeps.stable fun _ _ held => held
  · split
    · exact spec_ret keeps.stable fun _ _ held => held
    · exact keeps.refreshChanged newHighestmodseq

theorem refreshFlagsImpl (keeps : Upkeep self K backend greenlet P Q F) (maxUids : Nat) :
    K.Spec P (refreshFlagsImpl self maxUids) (fun _ => P) F := by
  have persists : ∀ local_ flags, K.Spec P (refreshFlagsImpl.persist self maxUids local_ flags)
      (fun _ => P) F := by
    intro local_ flags
    refine keeps.doing (minor_bind minor_removeDeletedUids fun _ => ?_)
    exact minor_bind minor_updateMetadata fun _ => minor_local rfl
  refine spec_bind keeps.selected fun session => ?_
  refine spec_bind (keeps.doing minor_query) fun local_ => ?_
  refine spec_bind (keeps.doing minor_imap) fun flags => ?_
  refine spec_bind (keeps.doing minor_own) fun last => ?_
  split
  · split
    · exact spec_ret keeps.stable fun _ _ held => held
    · exact persists _ _
  · exact persists _ _

theorem genericRefreshFlags (keeps : Upkeep self K backend greenlet P Q F) :
    K.Spec P (genericRefreshFlags self) (fun _ => P) F := by
  refine spec_bind (keeps.doing minor_own) fun now => ?_
  refine spec_bind (keeps.doing minor_load) fun slow => ?_
  refine spec_bind (keeps.doing minor_own) fun fast => ?_
  split
  · refine spec_bind (keeps.refreshFlagsImpl _) fun _ => ?_
    refine spec_bind (keeps.doing minor_own) fun now => ?_
    exact keeps.downloading.raising (keeps.refreshes _) setAttribute_raises
  · split
    · refine spec_bind (keeps.refreshFlagsImpl _) fun _ => ?_
      exact spec_bind (keeps.doing minor_own) fun now => keeps.doing (minor_local rfl)
    · exact spec_ret keeps.stable fun _ _ held => held

/-- One turn of polling, by the engine or by the poller. -/
theorem pollImpl (keeps : Upkeep self K backend greenlet P Q F) :
    K.Spec P (pollImpl self backend greenlet) (fun _ => P) F := by
  have checks : K.Spec P (checkUidChanges self backend greenlet) (fun _ => P) F := by
    refine spec_bind keeps.downloading.getNewUids fun _ => ?_
    refine spec_bind (keeps.doing minor_imap) fun condstore => ?_
    split
    · exact keeps.condstoreRefreshFlags
    · exact keeps.genericRefreshFlags
  refine spec_bind (keeps.doing minor_imap) fun _ => spec_bind checks fun _ => ?_
  refine spec_bind (keeps.doing minor_imap) fun idles => ?_
  split
  · exact spec_bind keeps.selected fun _ => keeps.doing minor_imap
  · exact spec_ret keeps.stable fun _ _ held => held

end Upkeep
end Poll

end Imap
end SyncEngine
