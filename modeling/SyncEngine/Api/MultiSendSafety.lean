import SyncEngine.Api.MultiSend

/-! What every calm run of a session keeps, so that its message is saved once and with its own body. -/
namespace SyncEngine
namespace MultiSend
open Sendmail DraftFolders Reconcile Remote

section Own
variable {uid body : String} {draft : Draft} {encodes : Mime → Bool}

/-- The message of the session, as all of its processes leave it. -/
structure Own (uid body : String) (draft : Draft) : Prop where
  named : draft.nylasUid = some uid
  header : draft.messageIdHeader = some (generateMessageIdHeader uid)
  body : draft.body = body
  isDraft : draft.isDraft = false

theorem Own.messageId (own : Own uid body draft) (created : createEmail encodes draft = some mime) :
    mime.messageId = generateMessageIdHeader uid := by
  rw [createEmail_messageId created, own.named]
  rfl

theorem createEmail_html (created : createEmail encodes draft = some mime) : mime.html = draft.body := by
  unfold createEmail at created
  split at created
  · cases created
  · dsimp only at created
    split at created
    · cases created
      rfl
    · cases created

theorem Own.customEmail (own : Own uid body draft)
    (created : customEmail encodes draft custom = some mime) :
    mime.messageId = generateMessageIdHeader uid := by
  have copy : Own uid custom { draft with body := custom, bccAddr := [] } :=
    ⟨own.named, own.header, rfl, own.isDraft⟩
  exact copy.messageId created

theorem check_ok {request : Request} (checked : request.check stored = .ok draft) :
    stored = some draft := by
  unfold Request.check at checked
  cases found : getSendingDraft request.publicId stored with
  | error => simp [found, bind, Except.bind] at checked
  | ok seen =>
    have present : stored = some seen := by
      unfold getSendingDraft at found
      split at found
      · cases found
      · next filtered =>
        split at found
        · cases found
        · cases found
          exact (Option.filter_eq_some_iff.mp filtered).1
    simp only [found, bind, Except.bind] at checked
    split at checked
    · cases checked
    · cases kind : request.kind with
      | finish =>
        simp only [kind] at checked
        cases checked
        exact present
      | send custom sendTo =>
        simp only [kind] at checked
        split at checked
        · cases checked
        · cases checked
          exact present

theorem Own.flush (own : Own uid body draft) (seen : Own uid body loaded) (now : Nat) :
    Own uid body (loaded.flush (updateDraftOnSend now loaded) draft) := by
  constructor
  · simp [Draft.flush, updateDraftOnSend, column, own.named]
  · simp [Draft.flush, updateDraftOnSend, column, own.header]
  · simp [Draft.flush, updateDraftOnSend, column, own.body]
  · simp [Draft.flush, updateDraftOnSend, column, own.isDraft, seen.isDraft]

theorem Own.reconcile (own : Own uid body draft) (named : new.messageIdHeader = generateMessageIdHeader uid)
    (reconciled : reconcileMessage none new (some draft) = some (some existing)) :
    Own uid body { existing with isDraft := false } := by
  obtain ⟨_, same, rfl | rfl⟩ := reconcileMessage_keeps reconciled
  · cases same
    exact ⟨own.named, own.header, own.body, rfl⟩
  · cases same
    exact ⟨own.named, congrArg some named, own.body, rfl⟩

theorem multiSendCreate_own
    (created : multiSendCreate parses snippet account publicId now input = .ok draft) :
    Own (Draft.uid publicId MAX_MYSQL_INTEGER) input.body draft := by
  unfold multiSendCreate at created
  simp only [bind, Except.bind] at created
  split at created
  · cases created
  · cases created
    exact ⟨rfl, rfl, rfl, rfl⟩

end Own

theorem all_none {A : Type} {P : A → Prop} : ∀ a ∈ (none : Option A), P a := by
  rintro _ ⟨⟩

section Stage
variable {I : Type} {body : String} {w : World I}

/-- How far the session is. Before its finish no copy outlasts a clean-up; then the Sent folder stays
empty until an attempt saves the message. -/
inductive Stage (body : String) (w : World I) : Prop
  | unfinished (unfinished : ∀ j, w.phase j ≠ .finished) (pending : w.pending = 0)
      (running : w.running = none) (scheduled : w.scheduled = 0) (succeeded : w.succeeded = 0)
      (unsaved : w.saved = false)
      (clean : ∀ j, (w.phase j).hasCleaned = true → w.remote.mailbox .sent = [])
  | scheduled (finished : w.phase j = .finished) (pending : w.pending ≤ 1)
      (running : ∀ mime ∈ w.running, mime.html = body) (scheduled : w.scheduled = 1)
      (succeeded : w.succeeded = 0) (unsaved : w.saved = false)
      (empty : w.lost = false → w.remote.mailbox .sent = [])
  | saved (finished : w.phase j = .finished) (pending : w.pending = 0) (running : w.running = none)
      (scheduled : w.scheduled = 1) (succeeded : w.succeeded = 1) (saved : w.saved = true)
      (sent : w.remote.mailbox .sent = [mail]) (own : mail.mime.html = body)

theorem Stage.lossless (stage : Stage body w) (kept : w.saved = false → w.row.isSome) :
    w.Lossless body := by
  refine ⟨kept, fun some all => ?_⟩
  cases stage with
  | unfinished _ _ _ scheduled => exact absurd scheduled some
  | scheduled _ _ _ scheduled succeeded => omega
  | @saved _ mail _ _ _ _ _ _ sent own => exact ⟨mail, sent, own⟩

/-- The engine and the collector have no part in it. -/
theorem Stage.aside (stage : Stage body w) (row : Option Row) (uids : List Uid) (fetched : List (Uid × Mime))
    (collector : Collector) : Stage body { w with row, uids, fetched, collector } := by
  cases stage with
  | unfinished unfinished pending running scheduled succeeded unsaved clean =>
    exact .unfinished unfinished pending running scheduled succeeded unsaved clean
  | scheduled finished pending running scheduled succeeded unsaved empty =>
    exact .scheduled finished pending running scheduled succeeded unsaved empty
  | saved finished pending running scheduled succeeded saved sent own =>
    exact .saved finished pending running scheduled succeeded saved sent own

/-- Before the session is finished, the mailboxes may change if a clean-up leaves the Sent folder
empty. -/
theorem Stage.move (stage : Stage body w) (unfinished : ∀ j, w.phase j ≠ .finished) (remote : Remote)
    (clean : ∀ j, (w.phase j).hasCleaned = true → remote.mailbox .sent = []) :
    Stage body { w with remote } := by
  cases stage with
  | unfinished unfinished pending running scheduled succeeded unsaved _ =>
    exact .unfinished unfinished pending running scheduled succeeded unsaved clean
  | scheduled finished | saved finished => exact absurd finished (unfinished _)

theorem Stage.expunge (stage : Stage body w) {remote : Remote}
    (same : remote.mailbox .sent = w.remote.mailbox .sent) : Stage body { w with remote } := by
  cases stage with
  | unfinished unfinished pending running scheduled succeeded unsaved clean =>
    refine .unfinished unfinished pending running scheduled succeeded unsaved fun j cleaned => ?_
    exact same.trans (clean j cleaned)
  | scheduled finished pending running scheduled succeeded unsaved empty =>
    refine .scheduled finished pending running scheduled succeeded unsaved fun kept => ?_
    exact same.trans (empty kept)
  | saved finished pending running scheduled succeeded saved sent own =>
    exact .saved finished pending running scheduled succeeded saved (same.trans sent) own

variable [DecidableEq I] {i : I} {phase : Phase}

/-- A request that has not finished does not finish here, and has cleaned up if it is to have. -/
theorem Stage.put (stage : Stage body w) (before : w.phase i ≠ .finished) (after : phase ≠ .finished)
    (clean : phase.hasCleaned = true → (w.phase i).hasCleaned = true ∨ w.remote.mailbox .sent = []) :
    Stage body (w.put i phase) := by
  have others : ∀ j, w.phase j = .finished → (w.put i phase).phase j = .finished := by
    rintro j finished
    have other : j ≠ i := by
      rintro rfl
      exact before finished
    simpa [World.put, other] using finished
  cases stage with
  | unfinished unfinished pending running scheduled succeeded unsaved cleaned =>
    refine .unfinished ?_ pending running scheduled succeeded unsaved ?_
    · intro j
      by_cases same : j = i
      · simpa [World.put, same] using after
      · simpa [World.put, same] using unfinished j
    · intro j
      by_cases same : j = i
      · intro has
        have has : phase.hasCleaned = true := by simpa [World.put, same] using has
        exact (clean has).elim (cleaned i) id
      · simpa [World.put, same] using cleaned j
  | scheduled finished pending running scheduled succeeded unsaved empty =>
    exact .scheduled (others _ finished) pending running scheduled succeeded unsaved empty
  | saved finished pending running scheduled succeeded saved sent own =>
    exact .saved (others _ finished) pending running scheduled succeeded saved sent own

end Stage

section Kept
variable {I : Type} {uid body : String}

/-- The invariant of calm runs. -/
structure Kept (uid body : String) (w : World I) : Prop where
  row : ∀ row ∈ w.row, Own uid body row.draft
  seen : ∀ i, ∀ seen ∈ (w.phase i).seen, Own uid body seen
  copies : Copies (generateMessageIdHeader uid) w.remote
  fetched : ∀ item ∈ w.fetched, item.2.messageId = generateMessageIdHeader uid
  built : ∀ mime ∈ w.running, mime.messageId = generateMessageIdHeader uid
  unsaved : w.saved = false → w.row.isSome ∧ w.collector ≠ .selected ∧ w.collector ≠ .checked
  stage : Stage body w

theorem kept_start (own : Own uid body draft) (empty : ∀ folder, remote.mailbox folder = []) :
    Kept uid body (.start draft remote : World I) where
  row := by
    rintro _ ⟨⟩
    exact own
  seen _ := all_none
  copies := by
    intro folder mail member
    have some : mail ∈ remote.mailbox folder := member
    rw [empty folder] at some
    cases some
  fetched := nofun
  built := all_none
  unsaved _ := ⟨rfl, nofun, nofun⟩
  stage := .unfinished (fun _ => nofun) rfl rfl rfl rfl rfl nofun

variable {w next : World I}

theorem Kept.move (kept : Kept uid body w) (unfinished : ∀ j, w.phase j ≠ .finished) {remote : Remote}
    (copies : Copies (generateMessageIdHeader uid) remote)
    (clean : ∀ j, (w.phase j).hasCleaned = true → remote.mailbox .sent = []) :
    Kept uid body { w with remote } where
  row := kept.row
  seen := kept.seen
  copies := copies
  fetched := kept.fetched
  built := kept.built
  unsaved := kept.unsaved
  stage := kept.stage.move unfinished remote clean

theorem Kept.aside (kept : Kept uid body w) {row : Option Row} {uids : List Uid}
    {fetched : List (Uid × Mime)} {collector : Collector}
    (own : ∀ stored ∈ row, Own uid body stored.draft)
    (copies : ∀ item ∈ fetched, item.2.messageId = generateMessageIdHeader uid)
    (unsaved : w.saved = false → row.isSome ∧ collector ≠ .selected ∧ collector ≠ .checked) :
    Kept uid body { w with row, uids, fetched, collector } where
  row := own
  seen := kept.seen
  copies := kept.copies
  fetched := copies
  built := kept.built
  unsaved := unsaved
  stage := kept.stage.aside ..

/-- What the engine does to the row keeps it, and keeps it the session's own. -/
structure Tended (uid body : String) (w next : World I) : Prop where
  same : next = { w with row := next.row, uids := next.uids }
  own : ∀ row ∈ next.row, Own uid body row.draft
  present : w.row.isSome → next.row.isSome

theorem attach_tended (row : Row) (own : Own uid body { draft with isDraft := false }) (id : Uid)
    (gMsgid : Option Nat) :
    Tended uid body w (w.attach id gMsgid row draft) := by
  refine ⟨rfl, ?_, fun _ => rfl⟩
  rintro _ ⟨⟩
  exact own

theorem Kept.saveUid (kept : Kept uid body w) (id : Uid) {mime : Mime}
    (copy : mime.messageId = generateMessageIdHeader uid) : Tended uid body w (w.saveUid id mime) := by
  have unchanged : Tended uid body w w := ⟨rfl, kept.row, fun present => present⟩
  unfold World.saveUid
  split
  · exact unchanged
  · next row present =>
    have own := kept.row row present
    split
    · exact unchanged
    · split
      · exact attach_tended row ⟨own.named, own.header, own.body, rfl⟩ id _
      · split
        · next draft reconciled => exact attach_tended row (own.reconcile copy reconciled) id _
        · exact unchanged

/-- The row is no draft's, so that losing its last UID only marks it. -/
theorem Kept.removeUid (kept : Kept uid body w) (id : Uid) (now : Nat) :
    Tended uid body w (w.removeUid id now) := by
  unfold World.removeUid
  split
  · next none => exact ⟨rfl, kept.row, fun present => present⟩
  · next row present =>
    have own := kept.row row present
    dsimp only
    split
    · exact ⟨rfl, kept.row, fun present => present⟩
    · rw [if_neg (by simp [own.isDraft])]
      refine ⟨rfl, ?_, fun _ => rfl⟩
      rintro _ ⟨⟩
      exact own

theorem Kept.tend (kept : Kept uid body w) (tended : Tended uid body w next)
    {fetched : List (Uid × Mime)}
    (copies : ∀ item ∈ fetched, item.2.messageId = generateMessageIdHeader uid) :
    Kept uid body { next with fetched } := by
  rw [tended.same]
  exact kept.aside tended.own copies fun unsaved =>
    ⟨tended.present (kept.unsaved unsaved).1, (kept.unsaved unsaved).2⟩

theorem Kept.engine (kept : Kept uid body w) (stepped : w.engine event = some next) :
    Kept uid body next := by
  cases event with
  | fetch id =>
    obtain ⟨mail, found, rfl⟩ := Option.map_eq_some_iff.mp stepped
    refine kept.aside kept.row ?_ kept.unsaved
    rintro item member
    rcases List.mem_cons.mp member with rfl | before
    · exact kept.copies id.1 mail (List.mem_of_find?_eq_some found)
    · exact kept.fetched item before
  | save id =>
    obtain ⟨item, found, rfl⟩ := Option.map_eq_some_iff.mp stepped
    have copy := kept.fetched item (List.mem_of_find?_eq_some found)
    exact kept.tend (kept.saveUid id copy) fun item inside =>
      kept.fetched item (List.mem_of_mem_erase inside)
  | remove id now =>
    simp only [World.engine] at stepped
    split at stepped
    · cases stepped
      have tended := kept.removeUid id now
      have fetched : (w.removeUid id now).fetched = w.fetched := by
        rw [tended.same]
      have copies : ∀ item ∈ (w.removeUid id now).fetched,
          item.2.messageId = generateMessageIdHeader uid := by
        rw [fetched]
        exact kept.fetched
      exact kept.tend tended copies
    · cases stepped

/-- A pass that does not come for an unsaved message leaves it alone. -/
theorem Kept.collect (kept : Kept uid body w) {messageTtl : Nat}
    (calm : ∀ now, event = .select now → w.saved = false → ¬ w.Overdue messageTtl now)
    (stepped : w.collect messageTtl event = some next) : Kept uid body next := by
  cases event with
  | select now =>
    simp only [World.collect] at stepped
    split at stepped
    · cases stepped
    · split at stepped
      · next overdue =>
        cases stepped
        exact kept.aside kept.row kept.fetched fun unsaved => absurd overdue (calm now rfl unsaved)
      · cases stepped
        exact kept
  | look =>
    simp only [World.collect] at stepped
    split at stepped
    · cases stepped
    · next selected =>
      cases stepped
      exact kept.aside kept.row kept.fetched fun unsaved =>
        absurd (not_not.mp selected) (kept.unsaved unsaved).2.1
  | delete =>
    simp only [World.collect] at stepped
    split at stepped
    · cases stepped
    · next checked =>
      cases stepped
      exact kept.aside all_none kept.fetched fun unsaved =>
        absurd (not_not.mp checked) (kept.unsaved unsaved).2.2
  | commit =>
    simp only [World.collect] at stepped
    split at stepped
    · cases stepped
    · cases stepped
      refine kept.aside ?_ kept.fetched fun unsaved => ?_
      · intro row member
        obtain ⟨before, present, rfl⟩ := Option.map_eq_some_iff.mp member
        exact kept.row before present
      · exact ⟨by simpa using (kept.unsaved unsaved).1, nofun, nofun⟩
  | fail =>
    cases stepped
    exact kept.aside kept.row kept.fetched fun unsaved => ⟨(kept.unsaved unsaved).1, nofun, nofun⟩

theorem Kept.expunge (kept : Kept uid body w) {remote : Remote}
    (copies : Copies (generateMessageIdHeader uid) remote)
    (same : remote.mailbox .sent = w.remote.mailbox .sent) : Kept uid body { w with remote } where
  row := kept.row
  seen := kept.seen
  copies := copies
  fetched := kept.fetched
  built := kept.built
  unsaved := kept.unsaved
  stage := kept.stage.expunge same

variable [DecidableEq I] {encodes : Mime → Bool} {requests : I → Request} {i : I}

theorem Kept.put {phase : Phase} (kept : Kept uid body w) (before : w.phase i ≠ .finished)
    (after : phase ≠ .finished) (seen : ∀ seen ∈ phase.seen, Own uid body seen)
    (clean : phase.hasCleaned = true → (w.phase i).hasCleaned = true ∨ w.remote.mailbox .sent = []) :
    Kept uid body (w.put i phase) where
  row := kept.row
  seen := by
    intro j
    by_cases same : j = i
    · simpa [World.put, same] using seen
    · simpa [World.put, same] using kept.seen j
  copies := kept.copies
  fetched := kept.fetched
  built := kept.built
  unsaved := kept.unsaved
  stage := kept.stage.put before after clean

/-- The finish that commits finds the Sent folder empty, and schedules the one entry. -/
theorem Kept.commit (kept : Kept uid body w) (unfinished : ∀ j, w.phase j ≠ .finished) {loaded : Draft}
    (phase : w.phase i = .cleaned loaded) {stored : Row} (present : w.row = some stored) (now : Nat) :
    Kept uid body { w.put i .finished with
      row := some { stored with draft := loaded.flush (updateDraftOnSend now loaded) stored.draft }
      pending := w.pending + 1
      scheduled := w.scheduled + 1 } where
  row := by
    rintro _ ⟨⟩
    exact (kept.row stored present).flush (kept.seen i loaded (by simp [phase, Phase.seen])) now
  seen := by
    intro j
    by_cases same : j = i
    · simp [World.put, same, Phase.seen]
    · simpa [World.put, same] using kept.seen j
  copies := kept.copies
  fetched := kept.fetched
  built := kept.built
  unsaved unsaved := ⟨rfl, (kept.unsaved unsaved).2⟩
  stage := by
    cases kept.stage with
    | unfinished _ pending running scheduled succeeded unsaved clean =>
      have empty := clean i (by simp [phase, Phase.hasCleaned])
      refine .scheduled (j := i) (by simp [World.put]) ?_ ?_ ?_ succeeded unsaved fun _ => empty
      · exact Nat.le_of_eq (congrArg (· + 1) pending)
      · rw [show ({ w.put i .finished with
          row := some { stored with draft := loaded.flush (updateDraftOnSend now loaded) stored.draft }
          pending := w.pending + 1
          scheduled := w.scheduled + 1 } : World I).running = none from running]
        exact all_none
      · exact congrArg (· + 1) scheduled
    | scheduled finished | saved finished => exact absurd finished (unfinished _)

theorem Kept.check (kept : Kept uid body w)
    (stepped : w.request encodes requests i .check = some next) : Kept uid body next := by
  cases phase : w.phase i with
  | waiting =>
    simp only [World.request, phase] at stepped
    have before : w.phase i ≠ .finished := by simp [phase]
    split at stepped
    · cases stepped
      exact kept.put before nofun all_none nofun
    · next draft checked =>
      obtain ⟨row, present, rfl⟩ := Option.map_eq_some_iff.mp (check_ok checked)
      have own := kept.row row present
      split at stepped <;> cases stepped
      · exact kept.put before nofun (by rintro _ ⟨⟩; exact own) nofun
      · exact kept.put before nofun (by rintro _ ⟨⟩; exact own) nofun
  | sending | finishing | trashed | cleaned | finished | closed => simp [World.request, phase] at stepped

theorem Kept.deliver (kept : Kept uid body w) (calm : ∀ j, (w.phase j).hasCleaned = false)
    (stepped : w.request encodes requests i (.deliver taken) = some next) : Kept uid body next := by
  cases phase : w.phase i with
  | sending seen custom =>
    simp only [World.request, phase] at stepped
    have before : w.phase i ≠ .finished := by simp [phase]
    have unfinished : ∀ j, w.phase j ≠ .finished := by
      intro j finished
      simpa [finished, Phase.hasCleaned] using calm j
    have own := kept.seen i seen (by simp [phase, Phase.seen])
    split at stepped
    · next created =>
      cases stepped
      have copies := kept.copies.createMessage (own.customEmail created)
      have moved := kept.move unfinished copies fun j cleaned => by simp [calm j] at cleaned
      exact moved.put before nofun all_none nofun
    · cases stepped
      exact kept.put before nofun all_none nofun
  | waiting | finishing | trashed | cleaned | finished | closed => simp [World.request, phase] at stepped

theorem Kept.trash (kept : Kept uid body w) (calm : ∀ j, w.phase j ≠ .finished)
    (stepped : w.request encodes requests i .trash = some next) : Kept uid body next := by
  cases phase : w.phase i with
  | finishing seen =>
    have own := kept.seen i seen (by simp [phase, Phase.seen])
    obtain ⟨empty, copies⟩ := kept.copies.moveSentToTrash
    simp only [World.request, phase, own.header] at stepped
    cases stepped
    have moved := kept.move calm copies fun _ _ => empty
    refine moved.put (i := i) (by simp [phase]) ?_ ?_ fun _ => .inr empty
    · split <;> nofun
    · split <;> (rintro _ ⟨⟩; exact own)
  | waiting | sending | trashed | cleaned | finished | closed => simp [World.request, phase] at stepped

theorem Kept.expungeTrash (kept : Kept uid body w)
    (stepped : w.request encodes requests i .expunge = some next) : Kept uid body next := by
  cases phase : w.phase i with
  | trashed seen =>
    have own := kept.seen i seen (by simp [phase, Phase.seen])
    obtain ⟨same, copies⟩ := kept.copies.deleteFromTrash seen.messageIdHeader true
    simp only [World.request, phase] at stepped
    cases stepped
    refine (kept.expunge copies same).put (i := i) (by simp [phase]) nofun ?_ fun _ => .inl ?_
    · rintro _ ⟨⟩
      exact own
    · simp [phase, Phase.hasCleaned]
  | waiting | sending | finishing | cleaned | finished | closed => simp [World.request, phase] at stepped

theorem Kept.request (kept : Kept uid body w) (calm : w.Calm messageTtl (.request i event))
    (stepped : w.request encodes requests i event = some next) : Kept uid body next := by
  cases event with
  | check => exact kept.check stepped
  | deliver taken => exact kept.deliver calm stepped
  | trash => exact kept.trash calm stepped
  | expunge => exact kept.expungeTrash stepped
  | fail =>
    cases phase : w.phase i with
    | trashed seen =>
      have own := kept.seen i seen (by simp [phase, Phase.seen])
      simp only [World.request, phase] at stepped
      cases stepped
      refine kept.put (by simp [phase]) nofun ?_ fun _ => .inl (by simp [phase, Phase.hasCleaned])
      rintro _ ⟨⟩
      exact own
    | finishing seen =>
      have cleaned : (w.phase i).hasCleaned = true := calm
      simp [phase, Phase.hasCleaned] at cleaned
    | waiting | sending | cleaned | finished | closed => simp [World.request, phase] at stepped
  | commit now =>
    cases phase : w.phase i with
    | cleaned seen =>
      cases present : w.row with
      | none =>
        simp only [World.request, phase, present] at stepped
        cases stepped
        exact kept.put (by simp [phase]) nofun all_none nofun
      | some row =>
        simp only [World.request, phase, present] at stepped
        cases stepped
        exact kept.commit calm phase present now
    | waiting | sending | finishing | trashed | finished | closed => simp [World.request, phase] at stepped
  | abort =>
    simp only [World.request] at stepped
    split at stepped
    · cases stepped
    · cases stepped
    · next unfinished _ =>
      cases stepped
      exact kept.put unfinished nofun all_none nofun

omit [DecidableEq I]

theorem remoteSaveSent_sent (w : World I) (mime : Mime) :
    ∃ msgid, (w.remoteSaveSent mime).mailbox .sent = w.remote.mailbox .sent ++ [⟨mime, msgid⟩] := by
  refine ⟨(w.remote.selectFolderIfNecessary .sent).nextMsgid, ?_⟩
  rw [World.remoteSaveSent, createMessage_sent]
  unfold selectFolderIfNecessary
  split <;> rfl

theorem copies_remoteSaveSent (copies : Copies messageId w.remote) (named : mime.messageId = messageId) :
    Copies messageId (w.remoteSaveSent mime) := by
  have opened : Copies messageId (w.remote.selectFolderIfNecessary .sent) := by
    unfold selectFolderIfNecessary
    split <;> exact copies
  exact opened.createMessage named

/-- The worker saves the message once, as its row still is. -/
theorem Kept.work (kept : Kept uid body w) (calm : w.Calm messageTtl (.worker event))
    (stepped : w.work encodes event = some next) : Kept uid body next := by
  obtain ⟨row, seen, copies, fetched, built, unsaved, stage⟩ := kept
  cases event with
  | start =>
    simp only [World.work] at stepped
    split at stepped
    · cases stepped
    · next busy =>
      rw [not_or] at busy
      cases stage with
      | unfinished _ pending | saved _ pending => exact absurd pending busy.1
      | scheduled finished pending running scheduled succeeded untouched empty =>
        split at stepped
        · next gone =>
          have present := (unsaved untouched).1
          rw [gone] at present
          cases present
        · next stored present =>
          cases stepped
          have own := row stored present
          refine ⟨row, seen, copies, fetched, fun _ created => own.messageId created, unsaved, ?_⟩
          refine .scheduled finished pending ?_ scheduled succeeded untouched empty
          exact fun mime created => (createEmail_html created).trans own.body
  | append =>
    obtain ⟨mime, running, rfl⟩ := Option.map_eq_some_iff.mp stepped
    refine ⟨row, seen, copies_remoteSaveSent copies (built mime running), fetched, all_none, nofun, ?_⟩
    cases stage with
    | unfinished _ _ idle | saved _ _ idle => simp [idle] at running
    | scheduled finished pending own scheduled succeeded untouched empty =>
      obtain ⟨msgid, sent⟩ := remoteSaveSent_sent w mime
      rw [empty calm, List.nil_append] at sent
      exact .saved finished (Nat.sub_eq_zero_of_le pending) rfl scheduled (congrArg (· + 1) succeeded) rfl
        sent (own mime running)
  | lose =>
    obtain ⟨mime, running, rfl⟩ := Option.map_eq_some_iff.mp stepped
    refine ⟨row, seen, copies_remoteSaveSent copies (built mime running), fetched, all_none, unsaved, ?_⟩
    cases stage with
    | unfinished _ _ idle | saved _ _ idle => simp [idle] at running
    | scheduled finished pending _ scheduled succeeded untouched _ =>
      exact .scheduled finished pending all_none scheduled succeeded untouched nofun
  | fail =>
    obtain ⟨mime, running, rfl⟩ := Option.map_eq_some_iff.mp stepped
    refine ⟨row, seen, copies, fetched, all_none, unsaved, ?_⟩
    cases stage with
    | unfinished _ _ idle | saved _ _ idle => simp [idle] at running
    | scheduled finished pending _ scheduled succeeded untouched empty =>
      exact .scheduled finished pending all_none scheduled succeeded untouched empty
  | giveUp =>
    simp only [World.work] at stepped
    split at stepped
    · cases stepped
    · next busy =>
      rw [not_or] at busy
      cases stepped
      refine ⟨row, seen, copies, fetched, built, unsaved, ?_⟩
      cases stage with
      | unfinished _ pending | saved _ pending => exact absurd pending busy.1
      | scheduled finished pending own scheduled succeeded untouched empty =>
        have fewer : w.pending - 1 ≤ 1 := by omega
        exact .scheduled finished fewer own scheduled succeeded untouched empty

end Kept

section Runs
variable {I : Type} [DecidableEq I] {uid body : String} {encodes : Mime → Bool} {messageTtl : Nat}
  {requests : I → Request} {w next : World I}

theorem Kept.step (kept : Kept uid body w) (calm : w.Calm messageTtl event)
    (stepped : w.step encodes messageTtl requests event = some next) : Kept uid body next := by
  cases event with
  | request i event => exact kept.request calm stepped
  | engine event => exact kept.engine stepped
  | collector event =>
    refine kept.collect ?_ stepped
    rintro now rfl
    exact calm
  | worker event => exact kept.work calm stepped

theorem Kept.run (kept : Kept uid body w) (calm : w.AllCalm encodes messageTtl requests events)
    (ran : w.run encodes messageTtl requests events = some final) : Kept uid body final := by
  induction events generalizing w with
  | nil =>
    cases ran
    exact kept
  | cons event events ih =>
    obtain ⟨next, stepped, later⟩ := Option.bind_eq_some_iff.mp ran
    exact ih (kept.step calm.1 stepped) (calm.2 next stepped) later

/-- In every calm run of a session its message is there until it has been saved, and is then the one
copy in the Sent folder. -/
theorem lossless_while_calm {draft : Draft} {remote : Remote}
    (created : multiSendCreate parses snippet account publicId now input = .ok draft)
    (fresh : ∀ folder, remote.mailbox folder = [])
    (calm : (World.start draft remote).AllCalm encodes messageTtl requests events)
    (ran : (World.start draft remote).run encodes messageTtl requests events = some w) :
    w.Lossless input.body := by
  have kept := (kept_start (multiSendCreate_own created) fresh).run calm ran
  exact kept.stage.lossless fun unsaved => (kept.unsaved unsaved).1

end Runs

namespace Sample

def input : NewDraft := { toAddr := some [("", "you@x.org")], body := "Hello" }

def draft : Draft :=
  { createMessageFromJson id ("", "me@x.org") "s" 0 false input with
    version := MAX_MYSQL_INTEGER }.regenerateNylasUid

theorem created : multiSendCreate DraftSending.Sample.parses id ("", "me@x.org") "s" 0 input = .ok draft := rfl

def remote : Remote := { mailbox := fun _ => [], opened := none, selectedFolder := none, nextMsgid := 0 }

/-- A send and the finish of its session. -/
def requests : Bool → Request
  | false => { publicId := "s", kind := .send "Hello you" "you@x.org" }
  | true => { publicId := "s", kind := .finish }

/-- The copy that has been sent is synced, deleted by the finish, and found expunged. -/
def finished : List (Event Bool) :=
  [.request false .check, .request false (.deliver true), .engine (.fetch (.sent, 0)), .engine (.save (.sent, 0)),
    .request true .check, .request true .trash, .request true .expunge, .request true (.commit 10),
    .engine (.remove (.sent, 0) 20)]

/-- The message is saved and synced again before the collector comes. -/
def inTime : List (Event Bool) :=
  finished ++ [.worker .start, .worker .append, .engine (.fetch (.sent, 1)), .engine (.save (.sent, 1)),
    .collector (.select 200), .collector .look, .collector .commit]

/-- The collector comes first. -/
def late : List (Event Bool) :=
  finished ++ [.collector (.select 200), .collector .look, .collector .delete, .worker .start]

end Sample

def emptySession : World Bool := .start Sample.draft Sample.remote

theorem saved_in_time : ∃ w, emptySession.run (fun _ => true) 120 Sample.requests Sample.inTime = some w ∧
    w.scheduled = 1 ∧ w.succeeded = 1 ∧ w.Lossless "Hello" := by
  have outcome : (emptySession.run (fun _ => true) 120 Sample.requests Sample.inTime).map
      (fun w => (w.scheduled, w.succeeded)) = some (1, 1) := by
    decide +kernel
  obtain ⟨w, ran, same⟩ := Option.map_eq_some_iff.mp outcome
  obtain ⟨scheduled, succeeded⟩ := Prod.mk.inj same
  have calm : emptySession.AllCalm (fun _ => true) 120 Sample.requests Sample.inTime := by decide +kernel
  exact ⟨w, ran, scheduled, succeeded, lossless_while_calm Sample.created (fun _ => rfl) calm ran⟩

/-- The row is collected while its entry waits, and the entry succeeds without a message to save. -/
theorem collected_before_saved : ¬ ∀ (events : List (Event Bool)) (w : World Bool),
    emptySession.run (fun _ => true) 120 Sample.requests events = some w → w.Lossless "Hello" := by
  intro holds
  have outcome : (emptySession.run (fun _ => true) 120 Sample.requests Sample.late).map
      (fun w => (w.saved, w.row.isSome)) = some (false, false) := by
    decide +kernel
  obtain ⟨w, ran, same⟩ := Option.map_eq_some_iff.mp outcome
  obtain ⟨unsaved, gone⟩ := Prod.mk.inj same
  have kept := (holds Sample.late w ran).kept unsaved
  rw [gone] at kept
  cases kept

end MultiSend
end SyncEngine
