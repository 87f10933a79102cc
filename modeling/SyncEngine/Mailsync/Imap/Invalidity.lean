import SyncEngine.Mailsync.Imap.Attributes

/-! What the handlers leave when each setter runs to its end: copies that are those of the row, a
resync that is the last one for its UIDVALIDITY, and so no more `UidInvalid` than changes. -/
namespace SyncEngine
namespace Imap
open Cooperative Contract

/-! ## The engine's own greenlet -/

/-- There is a change of the UIDVALIDITY for one more `UidInvalid`. -/
def Spare (t : World) : Prop := t.status.uidinvalidCount + 1 ≤ t.trace.epochs.length

/-- As long as the server stays as it is, no select will be refused. -/
def Ready (t : World) : Prop :=
  Spare t ∨ (t.status.uidinvalidCount ≤ t.trace.epochs.length ∧ Passes t.server.uidvalidity t)

/-- What the others may do while the engine's own greenlet waits. -/
structure Meanwhile (s t : World) : Prop where
  status : { t.status with account := s.status.account } = s.status
  polling : t.trace.polling = s.trace.polling
  epoch : t.epoch = s.epoch
  epochs : s.trace.epochs.length ≤ t.trace.epochs.length
  server : t.server.uidvalidity = s.server.uidvalidity ∨
    s.trace.epochs.length + 1 ≤ t.trace.epochs.length
  alone : Alone s → Still s t

/-- What a handler of a normal state finds. -/
def Normal (t : World) : Prop := Alone t ∧ Ready t

section Meanwhile
variable {s t u : World}

theorem Meanwhile.refl (s : World) : Meanwhile s s :=
  ⟨rfl, rfl, rfl, Nat.le_refl _, .inl rfl, fun _ => .refl s⟩

theorem Meanwhile.count (moved : Meanwhile s t) :
    t.status.uidinvalidCount = s.status.uidinvalidCount := by
  have status := moved.status
  rw [← status]

theorem Meanwhile.state (moved : Meanwhile s t) : t.status.state = s.status.state := by
  have status := moved.status
  rw [← status]

theorem Meanwhile.trans (first : Meanwhile s t) (second : Meanwhile t u) : Meanwhile s u where
  status := by
    have early := first.status
    have late := second.status
    rw [← early, ← late]
  polling := second.polling.trans first.polling
  epoch := second.epoch.trans first.epoch
  epochs := first.epochs.trans second.epochs
  server := by
    have := first.epochs
    have := second.epochs
    rcases first.server with same | grown
    · rcases second.server with again | grown
      · exact .inl (again.trans same)
      · exact .inr (by omega)
    · exact .inr (by omega)
  alone before := (first.alone before).trans (second.alone (first.polling.trans before))

theorem Meanwhile.spare (moved : Meanwhile s t) (spare : Spare s) : Spare t := by
  rw [Spare, moved.count]
  exact Nat.le_trans spare moved.epochs

theorem Meanwhile.ready (moved : Meanwhile s t) (ready : Ready s) : Ready t := by
  rcases ready with spare | ⟨counted, passes⟩
  · exact .inl (moved.spare spare)
  · rcases moved.server with same | grown
    · refine .inr ⟨?_, ?_⟩
      · rw [moved.count]
        exact counted.trans moved.epochs
      · rw [Passes, same, moved.epoch]
        exact passes
    · refine .inl ?_
      rw [Spare, moved.count]
      omega

theorem Polls.spare (polls : Polls s t) (spare : Spare s) : Spare t := by
  rw [Spare, polls.status, polls.epochs]
  exact spare

theorem Polls.ready (polls : Polls s t) (ready : Ready s) : Ready t := by
  rw [Ready, Spare, Passes, polls.status, polls.epochs, polls.server, polls.epoch]
  exact ready

end Meanwhile

def copyOwner (engine : FolderSyncEngine) : Contract (World.perform engine) where
  inv := Coherent
  admits := Whole engine
  rely := Meanwhile
  guar command s :=
    (command.signal = .none → s.trace.polling = true →
      (World.perform engine command s).trace.polling = true ∧
        Still s (World.perform engine command s)) ∧
    (command.signal = .spawn → s.trace.setting = none)
  rely_refl := .refl
  rely_trans := .trans

/-- How a handler ends: with `UidInvalid` only for a UIDVALIDITY that no resync has come to, and
only if there is a change for it. -/
def Ended (result : Except Exc String) (t : World) : Prop :=
  Idle Alone t ∧ match result with
    | .ok _ => Ready t
    | .error (.uidInvalid remote _) => Spare t ∧ ¬ Passes remote t
    | .error _ => t.status.state ∈ normalStates → Ready t

section Owner
variable {engine : FolderSyncEngine} {session : Session}

theorem copyOwner_alone {t : World} (alone : Alone t) (other : command.signal ≠ .spawn) :
    (copyOwner engine).guar command t := by
  refine ⟨fun _ polling => ?_, fun spawn => absurd spawn other⟩
  rw [Alone, polling] at alone
  cases alone

/-- A step of a poll does not spawn. -/
theorem copyOwner_polls {t : World} (alone : Alone t)
    (polls : Polls t (World.perform engine command t)) : (copyOwner engine).guar command t := by
  refine copyOwner_alone alone fun spawn => ?_
  cases command with
  | spawn =>
    rw [Alone, ← polls.polling] at alone
    cases alone
  | _ => cases spawn

theorem setter_normal (engine : FolderSyncEngine) :
    Setter engine (copyOwner engine) Normal Spare where
  inv _ := Iff.rfl
  admits _ _ whole := whole
  stable := by
    rintro s t ⟨alone, ready⟩ moved _
    exact ⟨moved.polling.trans alone, moved.ready ready⟩
  still _ _ held moved := moved.alone held.1
  spare _ _ _ spare moved := moved.spare spare
  polls := by
    rintro command t ⟨alone, ready⟩ polls
    exact ⟨copyOwner_polls alone polls, ⟨polls.polling.trans alone, polls.ready ready⟩, polls.spare⟩
  opens := by
    rintro t _ ⟨_, ready⟩
    exact ready.imp_right And.right

theorem ended_refused {t : World} (refused : Refuses Normal Spare exc t) :
    Ended (.error exc) t := by
  obtain ⟨⟨⟨alone, ready⟩, idle⟩, invalid⟩ := refused
  refine ⟨⟨alone, idle⟩, ?_⟩
  cases exc with
  | uidInvalid remote cached => exact invalid remote cached rfl
  | _ => exact fun _ => ready

theorem copyOwner_poll (backend : Backend) :
    (copyOwner engine).Spec (Idle Normal) (poll engine backend)
      (fun state => Ended (.ok state)) (fun exc => Ended (.error exc)) := by
  have polled := ((setter_normal engine).upkeep backend .engine).pollImpl
  have handled : (copyOwner engine).Spec (Idle Normal) (poll engine backend)
      (fun _ => Idle Normal) (Refuses Normal Spare) :=
    spec_bind polled fun _ => spec_ret (setter_normal engine).idle_stable fun _ _ held => held
  exact spec_mono handled (fun _ _ held => held)
    (fun _ _ _ held => ⟨⟨held.1.1, held.2⟩, held.1.2⟩) fun _ _ _ refused => ended_refused refused

/-! ## Initial sync -/

/-- The callback of the module looks at the row itself. -/
theorem copyOwner_moduleUidvalidityCb : (copyOwner engine).Spec
    (Checked Normal Spare session) (moduleUidvalidityCb session)
    (fun _ => Idle Normal) (Refuses Normal Spare) := by
  have setter := setter_normal engine
  have knows := fun known : Option Nat → Prop => setter.checked_stable session known
  have reads : (copyOwner engine).Spec (fun t => Checked Normal Spare session t ∧ True)
      (query fun w => w.store.info.map ImapFolderInfo.uidvalidity)
      (fun saved t => Checked Normal Spare session t ∧ t.epoch = saved)
      (Refuses Normal Spare) := by
    refine spec_raising Setter.fails (spec_query (knows fun _ => True) (fun saved => knows (· = saved))
      setter.idle_stable (fun t good held => setter.asks t good held.1.1) (fun _ held => held.1.1) ?_)
      transact_raises
    exact fun _ _ held _ => ⟨held.1, rfl⟩
  refine spec_bind (spec_mono reads (fun _ _ held => ⟨held, trivial⟩) (fun _ _ _ held => held)
    (fun _ _ _ held => held)) fun saved => ?_
  cases saved with
  | none => exact spec_ret (knows (· = none)) fun _ _ held => held.1.1
  | some saved =>
    dsimp only
    split
    · exact spec_ret (knows (· = some saved)) fun _ _ held => held.1.1
    · rename_i smaller
      refine spec_raise (knows (· = some saved)) ?_
      rintro t _ ⟨⟨idle, spare⟩, epoch⟩
      have ahead : ¬ Passes session.uidvalidity t := by
        rintro ⟨found, stored, below⟩
        cases epoch.symm.trans stored
        exact smaller below
      refine ⟨idle, ?_⟩
      rintro remote cached ⟨⟩
      exact ⟨spare.resolve_right ahead, ahead⟩

/-- A row that is created has no copies yet. -/
theorem coherent_createInfo {t : World} (good : Coherent t) (idle : t.trace.setting = none) :
    Coherent (World.perform engine (.createInfo session) t) ∧
      (Ready t → Ready (World.perform engine (.createInfo session) t)) := by
  rw [World.perform]
  rcases t.commit_cases fun store => { store with
      info := some (store.info.getD
        { uidvalidity := session.uidvalidity, highestmodseq := none, uidnext := session.uidnext
          lastSlowRefresh := none }) } with same | same
  · rw [same]
    exact ⟨good, id⟩
  · rw [same]
    have kept : ∀ uidvalidity, Passes uidvalidity t →
        Passes uidvalidity { t with store := { t.store with
          info := some (t.store.info.getD
            { uidvalidity := session.uidvalidity, highestmodseq := none, uidnext := session.uidnext
              lastSlowRefresh := none }) } } := by
      rintro uidvalidity ⟨saved, stored, below⟩
      obtain ⟨info, found, rfl⟩ := Option.map_eq_some_iff.mp stored
      exact ⟨info.uidvalidity, by simp [World.epoch, found], below⟩
    refine ⟨⟨fun column other apart copy member => ?_, fun uidvalidity member => ?_, good.counted⟩,
      fun ready => ready.imp_right fun held => ⟨held.1, kept _ held.2⟩⟩
    · have row := good.copies column other (by simp [idle]) copy member
      obtain ⟨info, found, read⟩ := Option.map_eq_some_iff.mp row
      simp [found, read]
    · exact kept uidvalidity (good.resynced uidvalidity member)

/-- While the poller is there, the engine's own greenlet only saves messages. -/
theorem copyOwner_saves {routine : Call α} (issued : routine.Issues (fun command => command.saves)) :
    (copyOwner engine).Spec Ready routine (fun _ => Ready) (fun _ => Ready) := by
  refine spec_issues (fun _ _ ready moved _ => moved.ready ready) issued
    fun command t saves good ready _ => ?_
  obtain ⟨polls, still⟩ : Polls t (World.perform engine command t) ∧
    Still t (World.perform engine command t) := still_saves saves
  have other : command.signal ≠ .spawn := by
    cases command with
    | spawn => cases saves
    | _ => nofun
  exact ⟨(tame_saves saves).coherent good,
    ⟨fun _ polling => ⟨polls.polling.trans polling, still⟩, fun spawn => absurd spawn other⟩,
    polls.ready ready⟩

/-- A kill that breaks off no setter. -/
theorem coherent_kill {t : World} (good : Coherent t) (whole : Whole engine .kill t) :
    Coherent (World.perform engine .kill t) where
  copies column other _ := by
    by_cases broken : ∃ write ∈ t.trace.setting, write.column = column
    · obtain ⟨write, member, rfl⟩ := broken
      exact whole write member other
    · exact good.copies column other fun write member equal => broken ⟨write, member, equal⟩
  resynced := good.resynced
  counted := good.counted

theorem copyOwner_kill : (copyOwner engine).Spec Ready (local_ .kill) (fun _ => Idle Normal)
    (fun _ _ => False) := by
  refine spec_issue (fun _ _ ready moved _ => moved.ready ready)
    (fun _ => (setter_normal engine).idle_stable) (fun _ _ _ failed _ _ => failed)
    fun t good ready whole => ?_
  exact ⟨coherent_kill good whole, ⟨nofun, nofun⟩, ⟨rfl, ready⟩, rfl⟩

/-- The poller is killed however the downloads end. -/
theorem copyOwner_ensure {routine : Call Unit} (issued : routine.Issues (fun command => command.saves))
    (raises : routine.Raises (fun exc => exc.isUidInvalid = false)) :
    (copyOwner engine).Spec Ready (routine.ensure (local_ .kill)) (fun _ => Idle Normal)
      (Refuses Normal Spare) := by
  refine spec_ensure (spec_raises (copyOwner_saves issued) raises) (fun _ => ?_) fun exc => ?_
  · exact spec_mono copyOwner_kill (fun _ _ held => held) (fun _ _ _ held => held)
      fun _ _ _ failed => failed.elim
  · by_cases other : exc.isUidInvalid = false
    · exact spec_mono copyOwner_kill (fun _ _ held => held.2)
        (fun _ t _ held => Setter.fails exc t other held) fun _ _ _ failed => failed.elim
    · exact fun _ _ held => absurd held.1 other

theorem copyOwner_initialSyncImpl (backend : Backend) :
    (copyOwner engine).Spec (Idle Normal) (initialSyncImpl engine backend session)
      (fun _ => Idle Normal) (Refuses Normal Spare) := by
  have setter := setter_normal engine
  have compared : (copyOwner engine).Spec (Idle Normal) (compareUids engine session)
      (fun _ => Idle Normal) (Refuses Normal Spare) :=
    spec_raising Setter.fails (setter.issues (tames_minor minor_compareUids)) minor_compareUids.raises
  have spawned : (copyOwner engine).Spec (Idle Normal) (local_ .spawn) (fun _ => Ready)
      (Refuses Normal Spare) := by
    refine spec_raising Setter.fails (spec_issue setter.idle_stable
      (fun _ _ _ ready moved _ => moved.ready ready) (fun _ => setter.idle_stable) ?_) local_raises
    intro t good idle _
    exact ⟨⟨good.copies, good.resynced, good.counted⟩, ⟨nofun, fun _ => idle.2⟩, idle.1.2⟩
  cases backend with
  | generic =>
    refine spec_bind compared fun newUids => spec_bind spawned fun _ => copyOwner_ensure ?_ ?_
    · exact Routine.issues_each fun uid _ => issues_download engine .generic
    · exact Routine.raises_each fun uid => download_raises engine .generic
  | gmail =>
    refine spec_bind compared fun newUids => spec_bind spawned fun _ => copyOwner_ensure ?_ ?_
    · exact Routine.issues_bind (Routine.issues_issue.mpr rfl) fun rounds =>
        Routine.issues_each fun uids _ => issues_download engine .gmail
    · exact Routine.raises_bind remote_raises fun rounds =>
        Routine.raises_each fun uids => download_raises engine .gmail

theorem copyOwner_initialSync (backend : Backend) :
    (copyOwner engine).Spec (Idle Normal) (initialSync engine backend)
      (fun state => Ended (.ok state)) (fun exc => Ended (.error exc)) := by
  have setter := setter_normal engine
  have small : ∀ {α : Type} {routine : Call α}, Minor routine →
      (copyOwner engine).Spec (Idle Normal) routine (fun _ => Idle Normal) (Refuses Normal Spare) :=
    fun minor => spec_raising Setter.fails (setter.issues (tames_minor minor)) minor.raises
  have selected : (copyOwner engine).Spec (Idle Normal) (selectFolder moduleUidvalidityCb)
      (fun _ => Idle Normal) (Refuses Normal Spare) := by
    have checked : ∀ session, (copyOwner engine).Stable (Checked Normal Spare session) := by
      intro session s t held moved good
      exact (setter.checked_stable session (fun _ => True) s t ⟨held, trivial⟩ moved good).1
    refine spec_selectFolder (Checked Normal Spare) setter.idle_stable checked
      (fun _ => setter.idle_stable) Setter.fails setter.asks ?_ fun _ => copyOwner_moduleUidvalidityCb
    exact fun t good idle => ⟨idle, setter.opens t good idle.1⟩
  have created : ∀ session, (copyOwner engine).Spec (Idle Normal)
      (transact (.createInfo session) fun _ => some ()) (fun _ => Idle Normal) (Refuses Normal Spare) := by
    intro session
    refine spec_raising Setter.fails (spec_transact setter.idle_stable (fun _ => setter.idle_stable)
      setter.idle_stable fun t good idle _ => ?_) transact_raises
    obtain ⟨kept, ready⟩ := coherent_createInfo good idle.2
    have still : Idle Normal (World.perform engine (.createInfo session) t) := by
      refine ⟨⟨?_, ready idle.1.2⟩, ?_⟩
      · simpa [Alone, World.perform] using idle.1.1
      · simpa [World.perform] using idle.2
    exact ⟨kept, copyOwner_alone idle.1.1 (by rintro ⟨⟩), still, fun _ _ _ => still⟩
  have handled : (copyOwner engine).Spec (Idle Normal) (initialSync engine backend)
      (fun _ => Idle Normal) (Refuses Normal Spare) := by
    refine spec_bind (small minor_imap) fun _ => spec_bind selected fun session => ?_
    refine spec_bind (created session) fun _ => spec_bind (copyOwner_initialSyncImpl backend) fun _ => ?_
    exact spec_bind (small minor_query) fun _ => spec_ret setter.idle_stable fun _ _ held => held
  exact spec_mono handled (fun _ _ held => held)
    (fun _ _ _ held => ⟨⟨held.1.1, held.2⟩, held.1.2⟩) fun _ _ _ refused => ended_refused refused

/-! ## Resync -/

/-- What the handler of an invalid state finds. -/
def Invalid (t : World) : Prop := Alone t ∧ t.status.state ∉ normalStates

/-- Since the session was opened, the server has stayed as it was, or there is one more change. -/
def Resyncing (session : Session) (t : World) : Prop :=
  Invalid t ∧ (Spare t ∨ (t.status.uidinvalidCount ≤ t.trace.epochs.length ∧
    t.server.uidvalidity = session.uidvalidity))

theorem invalid_meanwhile {s t : World} (invalid : Invalid s) (moved : Meanwhile s t) : Invalid t := by
  refine ⟨moved.polling.trans invalid.1, ?_⟩
  rw [moved.state]
  exact invalid.2

theorem resyncing_meanwhile {s t : World} (held : Resyncing session s) (moved : Meanwhile s t) :
    Resyncing session t := by
  refine ⟨invalid_meanwhile held.1 moved, ?_⟩
  have grown := moved.epochs
  rcases held.2 with spare | ⟨counted, same⟩
  · exact .inl (moved.spare spare)
  · rcases moved.server with stays | changed
    · refine .inr ⟨?_, stays.trans same⟩
      rw [moved.count]
      omega
    · refine .inl ?_
      rw [Spare, moved.count]
      omega

/-- Whatever only this greenlet can change. -/
theorem setter_alone {B : World → Prop} (alone : ∀ t, B t → Alone t)
    (meanwhile : ∀ s t, B s → Meanwhile s t → B t) (polls : ∀ s t, B s → Polls s t → B t) :
    Setter engine (copyOwner engine) B (fun _ => True) where
  inv _ := Iff.rfl
  admits _ _ whole := whole
  stable _ _ held moved _ := meanwhile _ _ held moved
  still _ _ held moved := moved.alone (alone _ held)
  spare _ _ _ _ _ := trivial
  polls _ t held polled := ⟨copyOwner_polls (alone t held) polled, polls _ _ held polled, fun _ => trivial⟩
  opens _ _ _ := .inl trivial

theorem polls_invalid {s t : World} (held : Invalid s) (polls : Polls s t) : Invalid t := by
  refine ⟨polls.polling.trans held.1, ?_⟩
  rw [polls.status]
  exact held.2

theorem setter_invalid (engine : FolderSyncEngine) (known : Option Nat → Prop) :
    Setter engine (copyOwner engine) (fun t => Invalid t ∧ known t.epoch) (fun _ => True) := by
  refine setter_alone (fun _ held => held.1.1) ?_ ?_
  · intro s t held moved
    refine ⟨invalid_meanwhile held.1 moved, ?_⟩
    rw [moved.epoch]
    exact held.2
  · intro s t held polls
    refine ⟨polls_invalid held.1 polls, ?_⟩
    rw [polls.epoch]
    exact held.2

theorem setter_resyncing (engine : FolderSyncEngine) (session : Session) (known : Option Nat → Prop) :
    Setter engine (copyOwner engine) (fun t => Resyncing session t ∧ known t.epoch) (fun _ => True) := by
  refine setter_alone (fun _ held => held.1.1.1) ?_ ?_
  · intro s t held moved
    refine ⟨resyncing_meanwhile held.1 moved, ?_⟩
    rw [moved.epoch]
    exact held.2
  · intro s t held polls
    refine ⟨⟨polls_invalid held.1.1 polls, ?_⟩, ?_⟩
    · rw [Spare, polls.status, polls.epochs, polls.server]
      exact held.1.2
    · rw [polls.epoch]
      exact held.2

theorem invalid_stable (engine : FolderSyncEngine) : (copyOwner engine).Stable (Idle Invalid) := by
  rintro s t ⟨held, idle⟩ moved _
  exact ⟨invalid_meanwhile held moved, (moved.alone held.1).setting.trans idle⟩

/-- Nothing is checked, and what is known of the row stays known. -/
theorem copyOwner_selects (known : Option Nat → Prop) :
    (copyOwner engine).Spec (Idle fun t => Invalid t ∧ known t.epoch) (selectFolder noCb)
      (fun session => Idle fun t => Resyncing session t ∧ known t.epoch) (fun _ => Idle Invalid) := by
  have setter := setter_invalid engine known
  have opened := fun session => (setter_resyncing engine session known).idle_stable
  have selected : (copyOwner engine).Spec (Idle fun t => Invalid t ∧ known t.epoch)
      (selectFolder noCb) (fun session => Idle fun t => Resyncing session t ∧ known t.epoch)
      (fun _ => Idle fun t => Invalid t ∧ known t.epoch) := by
    refine spec_selectFolder _ setter.idle_stable opened opened (fun _ _ _ held => held) setter.asks ?_
      fun session => spec_ret (opened session) fun _ _ held => held
    rintro t good ⟨⟨invalid, knew⟩, idle⟩
    exact ⟨⟨⟨invalid, .inr ⟨good.counted, rfl⟩⟩, knew⟩, idle⟩
  exact spec_mono selected (fun _ _ held => held) (fun _ _ _ held => held)
    fun _ _ _ held => ⟨held.1.1, held.2⟩

/-- The session has become the stored one, or was not ahead of it; so it will not be refused. -/
theorem copyOwner_resynced : (copyOwner engine).Spec
    (Idle fun t => Resyncing session t ∧ ∃ saved ∈ t.epoch, session.uidvalidity ≤ saved)
    (local_ (.resynced session.uidvalidity)) (fun _ => Idle Normal) (fun _ => Idle Invalid) := by
  have setter := setter_resyncing engine session fun epoch => ∃ saved ∈ epoch, session.uidvalidity ≤ saved
  refine spec_issue setter.idle_stable (fun _ => (setter_normal engine).idle_stable)
    (fun _ => invalid_stable engine) ?_
  rintro t good ⟨⟨resyncing, passes⟩, idle⟩ _
  refine ⟨⟨good.copies, ?_, good.counted⟩, copyOwner_alone resyncing.1.1 nofun, ⟨resyncing.1.1, ?_⟩, idle⟩
  · intro uidvalidity member
    rcases List.mem_cons.mp member with rfl | before
    · exact passes
    · exact good.resynced uidvalidity before
  · refine resyncing.2.imp_right fun held => ⟨held.1, ?_⟩
    rw [Passes, show (World.perform engine (.resynced session.uidvalidity) t).server.uidvalidity =
      session.uidvalidity from held.2]
    exact passes

/-- The row moves on to the UIDVALIDITY of the session. -/
theorem coherent_write_uidvalidity {t : World} (good : Coherent t) (idle : t.trace.setting = none)
    (ahead : ∀ saved ∈ t.epoch, saved < session.uidvalidity)
    (whole : Whole engine (.write (.uidvalidity session.uidvalidity)) t) :
    Coherent (World.perform engine (.write (.uidvalidity session.uidvalidity)) t) where
  copies := copies_write good idle nofun whole
  resynced uidvalidity member := by
    obtain ⟨saved, stored, below⟩ := good.resynced uidvalidity (by simpa [World.perform] using member)
    by_cases refused : t.store.fault = some .refused
    · refine ⟨saved, ?_, below⟩
      rw [World.epoch, write_refused refused]
      exact stored
    · obtain ⟨info, found, rfl⟩ := Option.map_eq_some_iff.mp stored
      refine ⟨session.uidvalidity, ?_, below.trans (Nat.le_of_lt (ahead _ stored))⟩
      rw [World.epoch, write_info refused, found]
      rfl
  counted := by simpa [World.perform] using good.counted

theorem resyncing_write {t : World} {write : Write} (held : Resyncing session t) :
    Resyncing session (World.perform engine (.write write) t) := by
  simpa [Resyncing, Invalid, Alone, Spare, World.perform] using held

/-- First the row takes the UIDVALIDITY, then the copy. -/
theorem copyOwner_adopts : (copyOwner engine).Spec
    (Idle fun t => Resyncing session t ∧ ∀ saved ∈ t.epoch, saved < session.uidvalidity)
    (setAttribute (.uidvalidity session.uidvalidity))
    (fun _ => Idle fun t => Resyncing session t ∧ t.epoch = some session.uidvalidity)
    (fun _ => Idle Invalid) := by
  let write := Write.uidvalidity session.uidvalidity
  have rowFirst : write.column ≠ .highestmodseq := by rintro ⟨⟩
  have invalid := invalid_stable engine
  have before := (setter_resyncing engine session fun epoch =>
    ∀ saved ∈ epoch, saved < session.uidvalidity).idle_stable
  have after := setter_resyncing engine session (· = some session.uidvalidity)
  let half := fun t : World => (Resyncing session t ∧ t.epoch = some session.uidvalidity) ∧
    t.trace.setting = some write
  have halfStable : (copyOwner engine).Stable half :=
    after.keeps fun s t setting still => still.setting.trans setting
  have written : (copyOwner engine).Spec
      (Idle fun t => Resyncing session t ∧ ∀ saved ∈ t.epoch, saved < session.uidvalidity)
      (updateImapFolderInfo write) (fun _ => half) (fun _ => Idle Invalid) := by
    refine spec_issue before (fun _ => halfStable) (fun _ => invalid) ?_
    rintro t good ⟨⟨resyncing, ahead⟩, idle⟩ whole
    have still : Resyncing session (World.perform engine (.write write) t) := resyncing_write resyncing
    refine ⟨coherent_write_uidvalidity good idle ahead whole, copyOwner_alone resyncing.1.1 (by rintro ⟨⟩), ?_⟩
    have failed : ¬ (t.store.fault = none ∧ t.store.info.isSome) →
        Idle Invalid (World.perform engine (.write write) t) := by
      intro failed
      refine ⟨still.1, ?_⟩
      rw [write_setting rowFirst, if_neg failed]
      exact idle
    cases fault : t.store.fault with
    | some => exact failed (by simp [fault])
    | none =>
      cases found : t.store.info with
      | none =>
        have idle := failed (by simp [found])
        simpa [found] using idle
      | some info =>
        have begun : half (World.perform engine (.write write) t) := by
          refine ⟨⟨still, ?_⟩, ?_⟩
          · rw [World.epoch, write_info (by simp [fault]), found]
            rfl
          · rw [write_setting rowFirst, if_pos ⟨fault, by simp [found]⟩]
        simpa [found] using begun
  refine spec_bind written fun _ => ?_
  refine spec_issue halfStable (fun _ => after.idle_stable) (fun _ => invalid) ?_
  rintro t good ⟨⟨resyncing, epoch⟩, setting⟩ _
  have row : t.store.info.map (fun info => info.read .uidvalidity) = some write := by
    obtain ⟨info, found, same⟩ := Option.map_eq_some_iff.mp epoch
    rw [found, Option.map_some, ImapFolderInfo.read, same]
  obtain ⟨done, copies⟩ := copies_cache good setting rowFirst row
  have polls : Polls t (World.perform engine (.cache write) t) := polls_cache ..
  refine ⟨polls.coherent good fun column other _ => copies column other,
    copyOwner_alone resyncing.1.1 (by rintro ⟨⟩), ⟨resyncing, epoch⟩, done⟩

theorem copyOwner_discardUids : (copyOwner engine).Spec
    (Idle fun t => Resyncing session t ∧ ∀ saved ∈ t.epoch, saved < session.uidvalidity)
    (discardUids engine session)
    (fun _ => Idle fun t => Resyncing session t ∧ t.epoch = some session.uidvalidity)
    (fun _ => Idle Invalid) := by
  have before := setter_resyncing engine session fun epoch => ∀ saved ∈ epoch, saved < session.uidvalidity
  have after := setter_resyncing engine session (· = some session.uidvalidity)
  refine spec_bind (spec_mono (before.issues (tames_minor minor_query)) (fun _ _ held => held)
    (fun _ _ _ held => held) fun _ _ _ held => ⟨held.1.1.1, held.2⟩) fun invalidUids => ?_
  refine spec_bind (spec_mono (before.issues (tames_minor minor_removeDeletedUids))
    (fun _ _ held => held) (fun _ _ _ held => held) fun _ _ _ held => ⟨held.1.1.1, held.2⟩) fun _ => ?_
  refine spec_bind copyOwner_adopts fun _ => ?_
  refine spec_bind (spec_mono (after.setsHighestmodseq none) (fun _ _ held => held)
    (fun _ _ _ held => held) fun _ _ _ held => ⟨held.1.1.1, held.2⟩) fun _ => ?_
  exact spec_mono (after.sets nofun nofun) (fun _ _ held => held) (fun _ _ _ held => held)
    fun _ _ _ held => ⟨held.1.1.1, held.2⟩

theorem copyOwner_resyncGeneric : (copyOwner engine).Spec (Idle Invalid) (resyncUidsImplGeneric engine)
    (fun _ => Idle Normal) (fun _ => Idle Invalid) := by
  have opened := fun session => setter_resyncing engine session fun _ => True
  have loaded : ∀ session, (copyOwner engine).Spec (Idle fun t => Resyncing session t ∧ True) uidvalidity
      (fun saved => Idle fun t => Resyncing session t ∧ t.epoch = some saved) (fun _ => Idle Invalid) := by
    intro session
    refine spec_load (opened session).idle_stable
      (fun saved => (setter_resyncing engine session (· = some saved)).idle_stable) (invalid_stable engine)
      (opened session).asks ?_ ?_
    · rintro t value good held copy
      have same := good.copies .uidvalidity nofun (by simp [held.2])
      exact ⟨⟨held.1.1, sameCopies_epoch same copy⟩, held.2⟩
    · rintro t good held _
      have tame : Tame t (World.perform engine (.load .uidvalidity) t) := tame_load _
      obtain ⟨kept, promised, still⟩ := (opened session).tame good held tame
      refine ⟨kept, promised, ⟨still.1.1.1, still.2⟩, fun info _ found => ⟨⟨still.1.1, ?_⟩, still.2⟩⟩
      rw [tame.epoch, World.epoch, found]
      rfl
  have selected : (copyOwner engine).Spec (Idle fun t => Invalid t ∧ True) _ _ _ :=
    copyOwner_selects fun _ => True
  refine spec_bind (spec_mono selected (fun _ _ held => ⟨⟨held.1, trivial⟩, held.2⟩)
    (fun _ _ _ held => held) fun _ _ _ held => held) fun session => ?_
  refine spec_bind (loaded session) fun saved => ?_
  refine spec_bind ?_ fun _ => copyOwner_resynced
  unfold unlessUnchanged
  split
  · rename_i unchanged
    refine spec_ret (setter_resyncing engine session (· = some saved)).idle_stable fun _ _ held => ?_
    exact ⟨⟨held.1.1, saved, held.1.2, unchanged⟩, held.2⟩
  · rename_i changed
    refine spec_mono copyOwner_discardUids (fun _ _ held => ⟨⟨held.1.1, ?_⟩, held.2⟩)
      (fun _ _ _ held => ⟨⟨held.1.1, _, held.1.2, Nat.le_refl _⟩, held.2⟩) fun _ _ _ held => held
    intro other stored
    cases held.1.2.symm.trans stored
    exact Nat.lt_of_not_le changed

/-- Gmail's transaction that moves the row on: no copy is left behind. -/
theorem coherent_remap {t : World} (good : Coherent t) (idle : t.trace.setting = none)
    (ahead : ∀ saved ∈ t.epoch, saved < session.uidvalidity) {mapping : Nat → Option Nat}
    (whole : Whole engine (.remap session mapping) t) :
    Coherent (World.perform engine (.remap session mapping) t) := by
  have trace : (World.perform engine (.remap session mapping) t).trace = t.trace := by
    simp [World.perform]
  have memory : (World.perform engine (.remap session mapping) t).memory = t.memory := by
    simp [World.perform]
  have same := fun column other => good.copies column other (by simp [idle])
  have unmoved : (World.perform engine (.remap session mapping) t).store.info = t.store.info →
      Coherent (World.perform engine (.remap session mapping) t) := by
    intro info
    refine ⟨fun column other _ => ?_, fun uidvalidity member => ?_, ?_⟩
    · rw [World.SameCopies, memory, info]
      exact same column other
    · rw [Passes, World.epoch, info]
      exact good.resynced uidvalidity (by rwa [trace] at member)
    · rw [trace, World.perform_status]
      exact good.counted
  by_cases refused : t.store.fault = some .refused
  · apply unmoved
    simp only [World.perform, World.commit, refused]
  · cases remapped : Gmail.remapUids engine.folderId mapping t.store.db with
    | none =>
      apply unmoved
      simp only [World.perform, World.commit, remapped]
    | some db =>
      have info : (World.perform engine (.remap session mapping) t).store.info =
          t.store.info.map fun info =>
            { info with uidvalidity := session.uidvalidity, highestmodseq := none } := by
        cases fault : t.store.fault with
        | none => simp only [World.perform, World.commit, remapped, fault]
        | some failure =>
          cases failure with
          | refused => exact absurd fault refused
          | lost => simp only [World.perform, World.commit, remapped, fault]
      obtain ⟨uidvalidities, modseqs⟩ := whole refused (by simp [remapped])
      refine ⟨fun column other _ copy member => ?_, fun uidvalidity member => ?_, ?_⟩
      · rw [memory] at member
        obtain ⟨row, found, read⟩ := Option.map_eq_some_iff.mp (same column other copy member)
        rw [info, found, Option.map_some, Option.map_some]
        cases column with
        | uidvalidity => rw [uidvalidities copy member, ImapFolderInfo.read]
        | highestmodseq => rw [modseqs copy member, ImapFolderInfo.read]
        | uidnext => rw [← read, ImapFolderInfo.read, ImapFolderInfo.read]
        | lastSlowRefresh => exact absurd rfl other
      · rw [trace] at member
        obtain ⟨saved, stored, below⟩ := good.resynced uidvalidity member
        obtain ⟨row, found, _⟩ := Option.map_eq_some_iff.mp stored
        refine ⟨session.uidvalidity, ?_, below.trans (Nat.le_of_lt (ahead saved stored))⟩
        rw [World.epoch, info, found]
        rfl
      · rw [trace, World.perform_status]
        exact good.counted

theorem copyOwner_remaps (mapping : Nat → Option Nat) : (copyOwner engine).Spec
    (Idle fun t => Resyncing session t ∧ ∀ saved ∈ t.epoch, saved < session.uidvalidity)
    (transact (.remap session mapping) fun w =>
      match Gmail.remapUids engine.folderId mapping w.store.db with
      | none => none
      | some _ => w.store.info.map fun _ => ())
    (fun _ => Idle fun t => Resyncing session t ∧ t.epoch = some session.uidvalidity)
    (fun _ => Idle Invalid) := by
  have before := setter_resyncing engine session fun epoch => ∀ saved ∈ epoch, saved < session.uidvalidity
  have after := setter_resyncing engine session (· = some session.uidvalidity)
  refine spec_transact before.idle_stable (fun _ => after.idle_stable) (invalid_stable engine) ?_
  rintro t good ⟨⟨resyncing, ahead⟩, idle⟩ whole
  have still : Resyncing session (World.perform engine (.remap session mapping) t) := by
    simpa [Resyncing, Invalid, Alone, Spare, World.perform] using resyncing
  have done : (World.perform engine (.remap session mapping) t).trace.setting = none := by
    simpa [World.perform] using idle
  refine ⟨coherent_remap good idle ahead whole, copyOwner_alone resyncing.1.1 (by rintro ⟨⟩), ⟨still.1, done⟩,
    fun _ calm reply => ⟨⟨still, ?_⟩, done⟩⟩
  cases remapped : Gmail.remapUids engine.folderId mapping t.store.db with
  | none => simp [remapped] at reply
  | some db =>
    simp only [remapped] at reply
    obtain ⟨info, found, _⟩ := Option.map_eq_some_iff.mp reply
    simp only [World.epoch, World.perform, World.commit, calm, remapped, found]
    rfl

theorem copyOwner_resyncGmail : (copyOwner engine).Spec (Idle Invalid) (resyncUidsImplGmail engine)
    (fun _ => Idle Normal) (fun _ => Idle Invalid) := by
  have invalid := setter_invalid engine fun _ => True
  have found := fun saved => (setter_invalid engine (· = some saved)).idle_stable
  have reads : (copyOwner engine).Spec (Idle Invalid)
      (transact .ask fun w => w.store.info.map ImapFolderInfo.uidvalidity)
      (fun saved => Idle fun t => Invalid t ∧ t.epoch = some saved) (fun _ => Idle Invalid) := by
    refine spec_transact (invalid_stable engine) found (invalid_stable engine) fun t good held _ => ?_
    exact ⟨good, copyOwner_alone held.1.1 nofun, held, fun saved _ reply => ⟨⟨held.1, reply⟩, held.2⟩⟩
  refine spec_bind reads fun saved => spec_bind (copyOwner_selects (· = some saved)) fun session => ?_
  have opened := setter_resyncing engine session (· = some saved)
  refine spec_bind ?_ fun _ => copyOwner_resynced
  unfold unlessUnchanged
  split
  · rename_i unchanged
    exact spec_ret opened.idle_stable fun _ _ held => ⟨⟨held.1.1, saved, held.1.2, unchanged⟩, held.2⟩
  · rename_i changed
    refine spec_bind (spec_mono (opened.issues (tames_minor minor_imap)) (fun _ _ held => held)
      (fun _ _ _ held => held) fun _ _ _ held => ⟨held.1.1.1, held.2⟩) fun mapping => ?_
    refine spec_mono (copyOwner_remaps mapping) (fun _ _ held => ⟨⟨held.1.1, ?_⟩, held.2⟩)
      (fun _ _ _ held => ⟨⟨held.1.1, _, held.1.2, Nat.le_refl _⟩, held.2⟩) fun _ _ _ held => held
    intro other stored
    cases held.1.2.symm.trans stored
    exact Nat.lt_of_not_le changed

theorem ended_invalid (exc : Exc) (t : World) (other : exc.isUidInvalid = false)
    (held : Idle Invalid t) : Ended (.error exc) t := by
  refine ⟨⟨held.1.1, held.2⟩, ?_⟩
  cases exc with
  | uidInvalid => cases other
  | _ => exact fun normal => absurd normal held.1.2

theorem copyOwner_resyncUids (backend : Backend) :
    (copyOwner engine).Spec (Idle Invalid) (resyncUids engine backend)
      (fun state => Ended (.ok state)) (fun exc => Ended (.error exc)) := by
  have handled : (copyOwner engine).Spec (Idle Invalid) (resyncUids engine backend)
      (fun _ => Idle Normal) (fun _ => Idle Invalid) := by
    refine spec_bind ?_ fun _ => spec_ret (setter_normal engine).idle_stable fun _ _ held => held
    cases backend with
    | generic => exact copyOwner_resyncGeneric
    | gmail => exact copyOwner_resyncGmail
  exact spec_mono (spec_raising ended_invalid handled resyncUids_raises) (fun _ _ held => held)
    (fun _ _ _ held => ⟨⟨held.1.1, held.2⟩, held.1.2⟩) fun _ _ _ held => held

/-- What each handler needs depends on the name of the state. -/
theorem copyOwner_handle (backend : Backend) {w : World} (good : Coherent w) (idle : Idle Alone w)
    (ready : w.status.state ∈ normalStates → Ready w) :
    (copyOwner engine).wp (fun state => Ended (.ok state)) (fun exc => Ended (.error exc))
      (handle engine backend w.status.state) w := by
  rcases handle_cases engine backend w.status.state with ⟨normal, same⟩ | ⟨other, same⟩
  · have found : Idle Normal w := ⟨⟨idle.1, ready normal⟩, idle.2⟩
    rcases same with same | same <;> rw [same]
    · exact copyOwner_initialSync backend w good found
    · exact copyOwner_poll backend w good found
  · have found : Idle Invalid w := ⟨⟨idle.1, other⟩, idle.2⟩
    rcases same with same | same <;> rw [same]
    · exact copyOwner_resyncUids backend w good found
    · exact fun t moved kept => ended_invalid _ t rfl (invalid_stable engine w t found moved kept)

end Owner

/-! ## Both greenlets -/

/-- What the poller counts on as long as it lives. -/
def Untouched (s t : World) : Prop :=
  s.trace.polling = true → t.trace.polling = true ∧ Still s t

def copyPoller (engine : FolderSyncEngine) : Contract (World.perform engine) where
  inv := Coherent
  admits := Whole engine
  rely := Untouched
  guar command s := s.trace.polling = true ∧ Polls s (World.perform engine command s)
  rely_refl s polling := ⟨polling, .refl s⟩
  rely_trans first second polling := by
    obtain ⟨still, same⟩ := first polling
    obtain ⟨last, again⟩ := second still
    exact ⟨last, same.trans again⟩

section Poller
variable {engine : FolderSyncEngine}

theorem setter_poller (engine : FolderSyncEngine) :
    Setter engine (copyPoller engine) (fun t => t.trace.polling = true) (fun _ => True) where
  inv _ := Iff.rfl
  admits _ _ whole := whole
  stable _ _ polling moved _ := (moved polling).1
  still _ _ polling moved := (moved polling).2
  spare _ _ _ _ _ := trivial
  polls _ _ polling polls := ⟨⟨polling, polls⟩, polls.polling.trans polling, fun _ => trivial⟩
  opens _ _ _ := .inl trivial

/-- How the poller ends. -/
def PollEnded (result : Except Exc Unit) (t : World) : Prop :=
  Idle (fun t => t.trace.polling = true) t ∧
    ∀ remote cached, result = .error (.uidInvalid remote cached) → ¬ Passes remote t

theorem copyPoller_pollImpl (backend : Backend) {w : World} (good : Coherent w)
    (idle : Idle (fun t => t.trace.polling = true) w) :
    (copyPoller engine).wp (fun value => PollEnded (.ok value)) (fun exc => PollEnded (.error exc))
      (pollImpl engine backend .poller) w := by
  have polled := ((setter_poller engine).upkeep backend .poller).pollImpl
  refine (spec_mono polled (fun _ _ held => held) (fun _ _ _ held => ⟨held, nofun⟩) ?_) w good idle
  rintro exc t _ ⟨held, invalid⟩
  refine ⟨held, ?_⟩
  rintro remote cached ⟨⟩
  exact (invalid remote cached rfl).2

theorem Polls.meanwhile {s t : World} (polls : Polls s t) (polling : s.trace.polling = true) :
    Meanwhile s t where
  status := by rw [polls.status]
  polling := polls.polling
  epoch := polls.epoch
  epochs := by rw [polls.epochs]
  server := .inl (congrArg _ polls.server)
  alone alone := by
    rw [Alone, polling] at alone
    cases alone

theorem coherent_moves {evolves : Server → Server → Prop} {w t : World} (good : Coherent w)
    (moved : Moves engine evolves w t) :
    Coherent t ∧ Meanwhile w t ∧ Untouched w t := by
  have status := moved.status
  have epoch : t.epoch = w.epoch := by rw [World.epoch, moved.info, World.epoch]
  have count : t.status.uidinvalidCount = w.status.uidinvalidCount := by rw [← status]
  have trace := moved.trace
  have setting : t.trace.setting = w.trace.setting := by rw [trace]; split <;> rfl
  have polling : t.trace.polling = w.trace.polling := by rw [trace]; split <;> rfl
  have resynced : t.trace.resynced = w.trace.resynced := by rw [trace]; split <;> rfl
  have epochs : w.trace.epochs.length ≤ t.trace.epochs.length := by
    rw [trace]
    split
    · exact Nat.le_refl _
    · exact Nat.le_succ _
  have still : Still w t := ⟨moved.memory, moved.info, setting⟩
  refine ⟨⟨?_, ?_, ?_⟩, ⟨status, polling, epoch, epochs, ?_, fun _ => still⟩,
    fun before => ⟨polling.trans before, still⟩⟩
  · rw [setting]
    exact fun column other apart => still.sameCopies (good.copies column other apart)
  · rw [resynced]
    intro uidvalidity member
    rw [Passes, epoch]
    exact good.resynced uidvalidity member
  · rw [count]
    exact good.counted.trans epochs
  · rw [trace]
    split
    · exact .inl ‹_›
    · exact .inr (Nat.le_refl _)

/-- After `_run_impl` the counter is not larger than before, but for a `UidInvalid`. -/
theorem count_after (status : Status) (result : Except Exc String) (fault : Option DbFault) :
    (status.runImpl result fault).2.uidinvalidCount ≤ status.uidinvalidCount +
      if (Entry.ran status.state result .returned).isUidInvalid then 1 else 0 := by
  rw [Status.runImpl_count]
  split
  · exact Nat.zero_le _
  · exact Nat.le_refl _

theorem append_not_normal (state : String) : state ++ " uidinvalid" ∉ normalStates := by
  intro normal
  have longer : 10 < " uidinvalid".length := by decide
  simp only [normalStates, List.mem_cons, List.not_mem_nil, or_false] at normal
  rcases normal with same | same
  all_goals
    have lengths := congrArg String.length same
    rw [String.length_append] at lengths
  · have short : "initial".length = 7 := by decide
    omega
  · have short : "poll".length = 4 := by decide
    omega

theorem ended_count {t : World} {fault : Option DbFault} (good : Coherent t) (ended : Ended result t) :
    (t.status.runImpl result fault).2.uidinvalidCount ≤ t.trace.epochs.length := by
  have bound := count_after t.status result fault
  have counted := good.counted
  cases result with
  | ok => exact bound.trans counted
  | error exc =>
    cases exc with
    | uidInvalid =>
      obtain ⟨_, spare, _⟩ := ended
      exact bound.trans spare
    | _ => exact bound.trans counted

/-- The next handler finds what it needs. -/
theorem ended_resumes {w t : World} {backend : Backend} (good : Coherent w) (ended : Ended result w)
    (resumed : Resumed engine backend w result t next) :
    Coherent t ∧ Idle Alone t ∧ (t.status.state ∈ normalStates → Ready t) := by
  cases resumed with
  | retried => exact ⟨good, ended.1, ended.2⟩
  | ran left fault live =>
    refine ⟨⟨good.copies, good.resynced, ended_count good ended⟩, ended.1, ?_⟩
    have bound := count_after w.status result fault
    have keeps : (w.status.runImpl result fault).2.uidinvalidCount ≤ w.status.uidinvalidCount →
        Ready w → Ready { w with status := (w.status.runImpl result fault).2 } := by
      intro smaller ready
      refine ready.imp (fun spare => ?_) (fun held => ⟨smaller.trans held.1, held.2⟩)
      exact Nat.le_trans (Nat.succ_le_succ smaller) spare
    intro normal
    dsimp only at normal
    rw [Status.runImpl_state] at normal
    cases result with
    | ok => exact keeps bound ended.2
    | error exc =>
      cases exc with
      | uidInvalid => exact absurd normal (append_not_normal _)
      | connection => exact absurd rfl left
      | _ => exact keeps bound (ended.2 normal)

theorem coherent_restart {w : World} (resynced : ∀ uidvalidity ∈ w.trace.resynced, Passes uidvalidity w) :
    Coherent w.restart ∧ Idle Alone w.restart ∧ Ready w.restart := by
  refine ⟨⟨fun column _ _ copy member => ?_, resynced, Nat.zero_le _⟩, ⟨rfl, rfl⟩, .inl (Nat.le_refl 1)⟩
  cases column <;> cases member

/-- Both greenlets keep to it, the one that is there first and the one that it spawns. -/
def copyProtocol (engine : FolderSyncEngine) (backend : Backend) (evolves : Server → Server → Prop) :
    Crew.Protocol (plan engine backend evolves (Whole engine)) where
  main := copyOwner engine
  helper := copyPoller engine
  mainEnd := Ended
  helperEnd := PollEnded
  same_inv _ := Iff.rfl
  admits_main whole := whole
  admits_helper whole := whole
  main_to_helper quiet _ promised := promised.1 quiet
  helper_to_main _ promised := promised.2.meanwhile promised.1
  env_moves := coherent_moves
  spawned := by
    intro command s spawn good promised
    cases command with
    | spawn =>
      have kept : Coherent (World.perform engine .spawn s) :=
        ⟨good.copies, good.resynced, good.counted⟩
      exact copyPoller_pollImpl backend kept ⟨rfl, promised.2 rfl⟩
    | _ => cases spawn
  again good _ ended := copyPoller_pollImpl backend good ended.1
  resumed := by
    intro s result t next good ended resumed
    obtain ⟨kept, idle, ready⟩ := ended_resumes good ended resumed
    obtain ⟨same, rfl⟩ := resumed.frame
    refine ⟨kept, fun polling => ?_, copyOwner_handle backend kept idle ready⟩
    rw [show s.trace.polling = false from ended.1.1] at polling
    cases polling
  restarted := by
    rintro s t next good ⟨rfl, rfl⟩
    obtain ⟨kept, idle, ready⟩ := coherent_restart good.resynced
    exact ⟨kept, copyOwner_handle backend kept idle fun _ => ready⟩

end Poller

instance {w : World} : Decidable w.Agrees := inferInstanceAs (Decidable (_ ∧ _ ∧ _))

/-- When all steps are whole, the copies agree with the row between any two handlers; no select is
refused for a UIDVALIDITY that a resync has come to; and `_run_impl` never counts more `UidInvalid`
than the server has had UIDVALIDITYs since the engine started. -/
theorem copies_agree_between_handlers {engine : FolderSyncEngine} {backend : Backend} {w : World}
    {evolves : Server → Server → Prop} (fresh : w.trace.resynced = [])
    (reached : Reaches engine backend evolves (Whole engine) w crew) :
    (∀ result, crew.main.outcome = some result → crew.shared.Agrees ∧ ∀ fault,
      (crew.shared.status.runImpl result fault).2.uidinvalidCount ≤ crew.shared.trace.epochs.length) ∧
    ∀ remote cached, (crew.main.outcome = some (.error (.uidInvalid remote cached)) ∨
      ∃ routine ∈ crew.helper, routine.outcome = some (.error (.uidInvalid remote cached))) →
        remote ∉ crew.shared.trace.resynced := by
  have starts : (copyProtocol engine backend evolves).Runs (started engine backend w) := by
    obtain ⟨kept, idle, ready⟩ := coherent_restart (by rw [fresh]; nofun)
    exact ⟨kept, copyOwner_handle backend kept idle fun _ => ready, nofun⟩
  obtain ⟨good, main, helper⟩ := (copyProtocol engine backend evolves).reach_runs starts reached
  constructor
  · intro result outcome
    have ended : Ended result crew.shared := Crew.Protocol.ends good main outcome
    have agrees := fun column other => good.copies column other (by simp [ended.1.2])
    exact ⟨⟨agrees _ nofun, agrees _ nofun, agrees _ nofun⟩, fun fault => ended_count good ended⟩
  · rintro remote cached (outcome | ⟨routine, member, outcome⟩) resynced
    · have ended : Ended _ crew.shared := Crew.Protocol.ends good main outcome
      exact ended.2.2 (good.resynced remote resynced)
    · have kept : (copyProtocol engine backend evolves).helper.inv crew.shared := good
      have ended : PollEnded _ crew.shared := Crew.Protocol.ends kept (helper routine member) outcome
      exact ended.2 remote cached rfl (good.resynced remote resynced)

namespace Trial

/-- A folder in the poll state, without messages. -/
def polled : World :=
  { world (server 1 (mailbox 1 1 fun _ => version)) (some (info 1)) with
    status := { initialStatus 0 with state := "poll", saved := some "poll" } }

/-- A message has come, and with it UIDVALIDITY 2. -/
def reset (w : World) : World :=
  { w with
    server := server 2 (mailbox 2 1 fun _ => version)
    trace := { w.trace with epochs := 2 :: w.trace.epochs } }

theorem moves_reset {w : World} (before : w.server.uidvalidity = 1) :
    Moves self (fun _ _ => True) w (reset w) :=
  ⟨trivial, rfl, rfl, rfl, rfl, by simp [reset, server, before]⟩

/-- One turn under the old UIDVALIDITY, and some more under the new one. -/
def afterReset (backend : Backend) (admits : Command → World → Prop)
    [∀ command w, Decidable (admits command w)] (count : Nat) : Option World := do
  let w ← turns self backend admits 1 polled.restart
  if w.server.uidvalidity = 1 then turns self backend admits count (reset w) else none

theorem reaches_afterReset {admits : Command → World → Prop} [∀ command w, Decidable (admits command w)]
    (turned : afterReset backend admits count = some t)
    (admitted : Crew.AdmitsAlone (plan self backend (fun _ _ => True) admits)
      (handle self backend t.status.state) t) :
    ∃ crew, Reaches self backend (fun _ _ => True) admits polled crew ∧
      crew.shared = (ranAlone self backend t).2 ∧
      crew.main.outcome = some (ranAlone self backend t).1 := by
  obtain ⟨w, first, rest⟩ := Option.bind_eq_some_iff.mp turned
  split at rest
  · rename_i before
    obtain ⟨helper, early⟩ := turns_reach self backend admits first none
    obtain ⟨helping, late⟩ := turns_reach self backend admits rest helper
    obtain ⟨final, last, ended, ran⟩ := Crew.reach_alone admitted helping
    refine ⟨_, (early.trans (.head (.env (moves_reset before)) late)).trans ran, rfl, ended⟩
  · cases rest

end Trial

open Trial in
theorem copies_agree_after_resync : ∃ crew,
    Reaches self .generic (fun _ _ => True) (Whole self) polled crew ∧
      crew.shared.memory.uidvalidity = some 2 ∧ 2 ∈ crew.shared.trace.resynced ∧
      crew.shared.Agrees := by
  have run : (afterReset .generic (Whole self) 1).any fun t =>
      Crew.AdmitsAlone (plan self .generic (fun _ _ => True) (Whole self))
        (handle self .generic t.status.state) t ∧
      (ranAlone self .generic t).2.memory.uidvalidity = some 2 ∧
      2 ∈ (ranAlone self .generic t).2.trace.resynced := by
    decide +kernel
  obtain ⟨t, turned, resynced⟩ := (Option.any_eq_true _ _).mp run
  obtain ⟨admitted, copied, done⟩ := of_decide_eq_true resynced
  obtain ⟨crew, reached, same, ended⟩ := reaches_afterReset turned admitted
  rw [← same] at copied done
  exact ⟨crew, reached, copied, done, ((copies_agree_between_handlers rfl reached).1 _ ended).1⟩

open Trial in
/-- Gmail's resync moves the row on and not the copy, which refuses every later select: one change
of the UIDVALIDITY is resynced until the account is stopped. -/
theorem gmail_resync_loops : ∃ crew,
    Reaches self .gmail (fun _ _ => True) (fun _ _ => True) polled crew ∧
      crew.main.outcome = some (.error (.uidInvalid 2 1)) ∧ ¬ crew.shared.Agrees ∧
      2 ∈ crew.shared.trace.resynced ∧ crew.shared.trace.epochs = [2, 1] ∧
      (crew.shared.status.runImpl (.error (.uidInvalid 2 1)) none).2.StoppedByGuard := by
  have run : (afterReset .gmail (fun _ _ => True) 15).any fun t =>
      Crew.AdmitsAlone (plan self .gmail (fun _ _ => True) fun _ _ => True)
        (handle self .gmail t.status.state) t ∧
      (ranAlone self .gmail t).1 = .error (.uidInvalid 2 1) ∧ ¬ (ranAlone self .gmail t).2.Agrees ∧
      2 ∈ (ranAlone self .gmail t).2.trace.resynced ∧
      (ranAlone self .gmail t).2.trace.epochs = [2, 1] ∧
      ((ranAlone self .gmail t).2.status.runImpl (.error (.uidInvalid 2 1)) none).2.StoppedByGuard := by
    decide +kernel
  obtain ⟨t, turned, looped⟩ := (Option.any_eq_true _ _).mp run
  obtain ⟨admitted, invalid, shown⟩ := of_decide_eq_true looped
  obtain ⟨crew, reached, same, ended⟩ := reaches_afterReset turned admitted
  rw [← same] at shown
  exact ⟨crew, reached, ended.trans (congrArg some invalid), shown⟩

end Imap
end SyncEngine
