import SyncEngine.Mailsync.Imap.InitialSync

/-! The greenlets of initial sync as two contracts: what each keeps while the other one and the server go on,
through the commands of a download and of a refresh. -/
namespace SyncEngine
namespace Imap
namespace InitialSync
open Cooperative Contract

/-! ## The two contracts -/
section Contracts
variable (engine : FolderSyncEngine)

/-- The downloader keeps to what the poller relies on, while the poller leaves what it has in hand alone. -/
def downloading : Contract (World.perform engine) where
  inv := Sound engine
  admits := Calm engine
  rely s t := Goes s t ∧ t.trace.inHand .engine = s.trace.inHand .engine
  guar command t := Beside engine t (World.perform engine command t)
  rely_refl s := ⟨.refl s, rfl⟩
  rely_trans first second := ⟨first.1.trans second.1, second.2.trans first.2⟩

def polling : Contract (World.perform engine) where
  inv := Sound engine
  admits := Calm engine
  rely := Beside engine
  guar command t := (World.perform engine command t).trace.inHand .engine = t.trace.inHand .engine
  rely_refl := .refl
  rely_trans := .trans

end Contracts

section Poller
variable {engine : FolderSyncEngine} {limit : Nat} {listed : Mailbox} {items coming : List Nat} {s t w : World}
  {P : World → Prop}

theorem Sound.performs (good : Sound engine w) {command : Command}
    (carries : Carries engine limit w (World.perform engine command w))
    (bound : ∀ modseq, Known w modseq → modseq ≤ limit)
    (hand : (World.perform engine command w).trace.inHand .engine = w.trace.inHand .engine) :
    Sound engine (World.perform engine command w) := by
  refine good.carried carries bound ?_ ?_ ?_
  · rw [World.perform_server]
    exact good.truthful
  · rw [World.perform_server]
    exact good.condstore
  · rw [World.perform_server, hand]
    exact good.hand

theorem Sound.plain (good : Sound engine w) {command : Command} (plain : Command.plain command)
    (calm : Calm engine command w) : Sound engine (World.perform engine command w) :=
  good.performs (beside_plain plain calm).toCarries good.bound (plain_hand plain)

/-- Nothing that happens between two commands of the poller makes it false. -/
def Stays (engine : FolderSyncEngine) (P : World → Prop) : Prop := ∀ s t, P s → Beside engine s t → P t

/-- It speaks of what is ready up to `limit`, and no larger modseq is known. -/
structure Lasts (engine : FolderSyncEngine) (limit : Nat) (P : World → Prop) : Prop where
  within : ∀ t, P t → limit ≤ (mailboxOf t.server).highestmodseq
  bound : ∀ t, P t → ∀ modseq, Known t modseq → modseq ≤ limit
  carries : ∀ s t, P s → Carries engine limit s t → P t

theorem Lasts.stays (lasts : Lasts engine limit P) : Stays engine P := fun s t held moved =>
  lasts.carries s t held (moved.toCarries.mono (lasts.within s held))

theorem Stays.stable (stays : Stays engine P) : (polling engine).Stable P :=
  fun s t held moved _ => stays s t held moved

theorem Stays.and {Q : World → Prop} (first : Stays engine P) (second : Stays engine Q) :
    Stays engine fun t => P t ∧ Q t :=
  fun s t held moved => ⟨first s t held.1 moved, second s t held.2 moved⟩

theorem stays_const (P : Prop) : Stays engine fun _ => P := fun _ _ held _ => held

theorem stays_copied (copy : Option (Option Nat)) : Stays engine (Copied copy) :=
  fun _ _ held moved => moved.copy.trans held

theorem stays_reached (modseq : Nat) : Stays engine fun t => modseq ≤ (mailboxOf t.server).highestmodseq :=
  fun _ _ held moved => Nat.le_trans held moved.mailbox.grown

/-- The session is with the mailbox that the server has now. -/
def Current (session : Session) (t : World) : Prop := session.uidvalidity = t.server.uidvalidity

theorem stays_current (session : Session) : Stays engine (Current session) :=
  fun _ _ held moved => held.trans moved.uidvalidity.symm

/-- Nothing above `limit` is known. -/
def Below (limit : Nat) (t : World) : Prop :=
  limit ≤ (mailboxOf t.server).highestmodseq ∧ ∀ modseq, Known t modseq → modseq ≤ limit

theorem lasts_below (limit : Nat) : Lasts engine limit (Below limit) where
  within _ held := held.1
  bound _ held := held.2
  carries _ _ held carries :=
    ⟨Nat.le_trans held.1 carries.mailbox.grown,
      fun modseq known => held.2 modseq (carries.known modseq known)⟩

theorem lasts_since : Lasts engine listed.highestmodseq (Since engine listed items coming) where
  within _ held := held.later.grown
  bound _ held := held.bound
  carries _ _ held carries := held.carried carries

theorem Lasts.and (lasts : Lasts engine limit P) {Q : World → Prop}
    (carries : ∀ s t, Q s → Carries engine limit s t → Q t) : Lasts engine limit fun t => P t ∧ Q t where
  within t held := lasts.within t held.1
  bound t held := lasts.bound t held.1
  carries s t held moved := ⟨lasts.carries s t held.1 moved, carries s t held.2 moved⟩

theorem asks_polling : Asks (polling engine) P := fun _ _ _ => rfl

/-- A routine of plain commands keeps what stays. -/
theorem spec_plain (stays : Stays engine P) {routine : Call α}
    (issued : routine.Issues (Command.plain ·)) :
    (polling engine).Spec P routine (fun _ => P) (fun _ => P) :=
  spec_issues stays.stable issued fun _ t plain good held calm =>
    ⟨good.plain plain calm, plain_hand plain, stays t _ held (beside_plain plain calm)⟩

/-- Nothing is said of the state in which an exception is raised. -/
theorem spec_lax {pre : World → Prop} {post : α → World → Prop} {F : Exc → World → Prop} {routine : Call α}
    (spec : (polling engine).Spec pre routine post F) :
    (polling engine).Spec pre routine post (fun _ _ => True) :=
  spec_mono spec (fun _ _ held => held) (fun _ _ _ held => held) (fun _ _ _ _ => trivial)

/-! ## Downloads of the poller -/

/-- The bodies that one download of the poller has in hand. -/
def Holding (P : World → Prop) (limit : Nat) (session : Session) (messages : List RawMessage) (t : World) :
    Prop :=
  (P t ∧ Current session t) ∧
    ∀ msg ∈ messages, Fetched (mailboxOf t.server) msg ∧ UpTo limit (mailboxOf t.server) msg

theorem stays_holding (lasts : Lasts engine limit P) (session : Session) (messages : List RawMessage) :
    Stays engine (Holding P limit session messages) := by
  rintro s t ⟨held, fetched⟩ moved
  refine ⟨(lasts.stays.and (stays_current session)) s t held moved, fun msg member => ?_⟩
  obtain ⟨real, known⟩ := fetched msg member
  exact ⟨real.later moved.mailbox, known.later moved.mailbox (lasts.within s held.1)⟩

theorem spec_downloads (lasts : Lasts engine limit P) (session : Session) (uid : Nat) :
    (polling engine).Spec (fun t => P t ∧ Current session t)
      (download engine .generic .poller session [uid]) (fun _ t => P t ∧ Current session t)
      (fun _ => P) := by
  have stable : (polling engine).Stable fun t => P t ∧ Current session t :=
    (lasts.stays.and (stays_current session)).stable
  have holds := stays_holding lasts session
  have fetches : (polling engine).Spec (Holding P limit session []) (fetchUids .poller session [uid])
      (fun fetched => Holding P limit session fetched) (fun _ => P) := by
    refine spec_fetchUids (Holding P limit session) (fun messages => (holds messages).stable)
      lasts.stays.stable (fun uid messages t good held _ => ?_) [uid] []
    have plain : Command.plain (.fetch .poller session uid) := rfl
    have kept := holds messages t _ held (beside_plain plain trivial)
    refine ⟨good.plain plain trivial, plain_hand plain, kept.1.1, fun delivered calm brought => ?_⟩
    refine ⟨kept.1, fun msg member => ?_⟩
    rcases List.mem_append.mp member with old | new
    · exact kept.2 msg old
    · obtain ⟨real, known⟩ := fetched_deliver held.1.2 brought new
      rw [World.perform_server]
      exact ⟨real, known limit⟩
  refine spec_downloadAndCommitUids (Holding P limit session) ?_ ?_ fun messages => ?_
  · exact spec_mono fetches (fun t _ held => ⟨held, by simp⟩) (fun _ _ _ held => held)
      (fun _ _ _ held => held)
  · exact spec_ret (holds []).stable fun _ _ held => held.1
  · refine spec_transact (holds messages).stable (fun _ => stable) lasts.stays.stable
      fun t good held _ => ?_
    have carries : Carries engine limit t (World.perform engine (.save .poller messages) t) :=
      carries_save held.2
    have kept := lasts.carries t _ held.1.1 carries
    refine ⟨good.performs carries (lasts.bound t held.1.1) rfl, rfl, kept, fun _ _ _ => ?_⟩
    exact ⟨kept, held.1.2.trans carries.uidvalidity.symm⟩

theorem spec_selects (stays : Stays engine P) :
    (polling engine).Spec P (selectFolder uidvalidityCb) (fun session t => P t ∧ Current session t)
      (fun _ _ => True) := by
  have both : ∀ session, Stays engine fun t => P t ∧ Current session t :=
    fun session => stays.and (stays_current session)
  refine spec_selectFolder (fun session t => P t ∧ Current session t) stays.stable
    (fun session => (both session).stable) (fun session => (both session).stable) (fun _ _ _ _ => trivial)
    asks_polling (fun t _ held => ⟨held, rfl⟩) fun session => ?_
  exact spec_uidvalidityCb (fun _ t => P t ∧ Current session t) (fun _ => (both session).stable)
    (spec_lax (spec_plain (both session) (issues_load rfl rfl))) (fun _ _ _ held _ => held)
    (fun _ _ _ _ _ => trivial)

theorem spec_getNewUids (lasts : Lasts engine limit P) :
    (polling engine).Spec P (getNewUids engine .generic .poller) (fun _ => P) (fun _ _ => True) := by
  have keeps : Downloads engine (polling engine) .generic .poller P Current (fun _ _ => True) := {
    stable := lasts.stays.stable
    knows := fun session => (stays_current session).stable
    fails := fun _ _ _ _ => trivial
    asks := asks_polling
    readsUidnext := spec_plain lasts.stays (issues_load rfl rfl)
    selects := spec_selects lasts.stays
    downloads := spec_downloads lasts
    counts := fun value => spec_plain lasts.stays (issues_setAttribute rfl rfl) }
  exact keeps.getNewUids

/-! ## Batches -/

/-- Before the loop in `update_metadata` has come to these items. -/
def Updating (engine : FolderSyncEngine) (listed : Mailbox) (newFlags : List (Nat × Flags))
    (coming items : List Nat) (t : World) : Prop :=
  Since engine listed items coming t ∧ ∀ item ∈ items, (newFlags.lookup item).isSome

theorem lasts_updating {newFlags : List (Nat × Flags)} :
    Lasts engine listed.highestmodseq (Updating engine listed newFlags coming items) :=
  lasts_since.and fun _ _ held _ => held

theorem spec_updateItem {newFlags : List (Nat × Flags)}
    (reported : ∀ entry ∈ newFlags, Reports listed entry) (item : Nat) (items : List Nat) :
    (polling engine).Spec (Updating engine listed newFlags coming (item :: items))
      (match newFlags.lookup item with
        | none => .ret ()
        | some flags => transact (.updateItem item flags) fun _ => some ())
      (fun _ => Updating engine listed newFlags coming items) (fun _ _ => True) := by
  cases found : newFlags.lookup item with
  | none =>
    intro s _ ready
    have named := ready.2 item List.mem_cons_self
    rw [found] at named
    cases named
  | some flags =>
    obtain ⟨version, current, rfl⟩ := reported _ (mem_of_lookup_eq_some found)
    refine spec_transact lasts_updating.stays.stable (fun _ => lasts_updating.stays.stable) stable_true
      fun t good held _ => ?_
    obtain ⟨carries, updates⟩ := carries_updateItem held.1.later current
    have hand : (World.perform engine (.updateItem item version.item) t).trace.inHand .engine =
        t.trace.inHand .engine := congrArg (fun trace : Trace => trace.inHand .engine) (World.commit_trace ..)
    refine ⟨good.performs carries held.1.bound hand, hand, trivial, fun _ calm _ => ?_⟩
    have kept := held.1.carried carries
    refine ⟨⟨kept.later, kept.bound, fun uid => ?_⟩, fun other member =>
      held.2 other (List.mem_cons_of_mem _ member)⟩
    rcases held.1.ready uid with ⟨member, hands⟩ | waits | gone | ready
    · rcases List.mem_cons.mp member with rfl | later
      · exact .inr (.inr (.inr (updates calm hands)))
      · exact .inl ⟨later, carries.held _ uid (Nat.le_refl _) hands⟩
    · exact .inr (.inl waits)
    · exact .inr (.inr (.inl (carries.mailbox.expunged _ gone)))
    · exact .inr (.inr (.inr (carries.ready _ uid (Nat.le_refl _) ready)))

/-- A body in hand is up to the listing if it is not older than what was listed of its message. -/
theorem upTo_listed (later : listed.Advances (mailboxOf w.server))
    (current : listed.current msg.uid = some version)
    (newer : version.modseq ≤ msg.modseq) : UpTo listed.highestmodseq (mailboxOf w.server) msg :=
  fun _ among below =>
    Nat.le_trans ((current_last current).2 _ (later.old_mem among below)) newer

/-- The UIDs of the batch that have a row are updated, and the others wait for no change any more. -/
theorem spec_updateMetadata {flagBatch : List (Nat × Flags)}
    (reported : ∀ entry ∈ flagBatch, Reports listed entry) :
    (polling engine).Spec (Since engine listed [] (flagBatch.map Prod.fst ++ coming))
      (updateMetadata engine flagBatch) (fun _ => Since engine listed [] coming) (fun _ _ => True) := by
  unfold updateMetadata
  split
  · rename_i none
    subst none
    exact spec_ret lasts_since.stays.stable fun _ _ held => held
  · have looks : (polling engine).Spec (Since engine listed [] (flagBatch.map Prod.fst ++ coming))
        (transact (.lookup flagBatch) fun w =>
          some ((Common.localUids w.store.db engine.folderId).filter
            fun uid => (flagBatch.lookup uid).isSome))
        (Updating engine listed flagBatch coming) (fun _ _ => True) := by
      refine spec_transact lasts_since.stays.stable (fun _ => lasts_updating.stays.stable) stable_true
        fun t good held calm => ⟨good, rfl, trivial, ?_⟩
      rintro items _ ⟨⟩
      refine ⟨⟨held.later, held.bound, fun uid => ?_⟩, fun item member => by
        simpa using (List.mem_filter.mp member).2⟩
      change _ ∧ Held engine _ uid t ∨ _ ∨ (mailboxOf t.server).expunged uid = true ∨ Ready engine _ uid t
      rcases held.ready uid with ⟨member, _⟩ | waits | rest
      · cases member
      · rcases List.mem_append.mp waits with here | later
        · by_cases saved : uid ∈ Common.localUids t.store.db engine.folderId
          · exact .inl ⟨List.mem_filter.mpr ⟨saved, lookup_isSome here⟩, .inl saved⟩
          · right; right; right
            refine ⟨fun row member same => absurd (mem_localUids.mpr ⟨row, member, same⟩) saved, .inr ?_⟩
            rintro msg among rfl
            obtain ⟨flags, found⟩ := Option.isSome_iff_exists.mp (lookup_isSome here)
            obtain ⟨version, current, same⟩ := reported _ (mem_of_lookup_eq_some found)
            have newer := calm msg among saved flags found version.modseq
              (by rw [show flags = _ from same]; rfl)
            exact upTo_listed held.later current newer
        · exact .inr (.inl later)
      · exact .inr (.inr rest)
    refine spec_bind looks fun items => ?_
    refine spec_mono (spec_each (Updating engine listed flagBatch coming) lasts_updating.stays.stable
      fun item items => spec_updateItem reported item items) (fun _ _ held => held) ?_
      (fun _ _ _ _ => trivial)
    exact fun _ _ _ held => held.1

/-! ## The setter of the modseq -/

def Noted (waiting : Nat → Bool) (t : World) : Prop := t.trace.waiting = waiting

theorem stays_noted (waiting : Nat → Bool) : Stays engine (Noted waiting) :=
  fun _ _ held moved => moved.waiting.trans held

theorem spec_noteWaiting (lasts : Lasts engine limit P) (waiting : Nat → Bool) :
    (polling engine).Spec P (noteWaiting waiting) (fun _ t => P t ∧ Noted waiting t) (fun _ _ => True) := by
  have both : Stays engine fun t => P t ∧ Noted waiting t := lasts.stays.and (stays_noted waiting)
  refine spec_issue lasts.stays.stable (fun _ => both.stable) (fun _ => stable_true) fun t good held _ => ?_
  have carries : Carries engine limit t (World.perform engine (.note waiting) t) :=
    carries_note waiting (lasts.within t held)
  exact ⟨good.performs carries (lasts.bound t held) rfl, rfl, lasts.carries t _ held carries, rfl⟩

theorem spec_setHighestmodseq {pre : World → Prop} {value : Option Nat}
    (stable : (polling engine).Stable pre) (lasts : Lasts engine limit P)
    (caches : ∀ t, Sound engine t → pre t → Calm engine (.cache (.highestmodseq value)) t →
      Sound engine (World.perform engine (.cache (.highestmodseq value)) t) ∧
        P (World.perform engine (.cache (.highestmodseq value)) t)) :
    (polling engine).Spec pre (setHighestmodseq value)
      (fun _ t => P t ∧ Copied (some value) t) (fun _ _ => True) := by
  have both : Stays engine fun t => P t ∧ Copied (some value) t := lasts.stays.and (stays_copied _)
  have keeps : (polling engine).Spec pre (local_ (.cache (.highestmodseq value)))
      (fun _ t => P t ∧ Copied (some value) t) (fun _ _ => True) := by
    refine spec_issue stable (fun _ => both.stable) (fun _ => stable_true) fun t good held calm => ?_
    obtain ⟨sound, after⟩ := caches t good held calm
    exact ⟨sound, rfl, after, rfl⟩
  refine spec_bind keeps fun _ => ?_
  refine spec_transact both.stable (fun _ => both.stable) stable_true fun t good held _ => ?_
  have carries : Carries engine _ t _ := carries_write (lasts.within t held.1) held.2
  refine ⟨good.performs carries (lasts.bound t held.1) rfl, rfl, trivial, fun _ _ _ => ?_⟩
  refine ⟨lasts.carries t _ held.1 carries, ?_⟩
  exact (congrArg Memory.highestmodseq (World.commit_memory ..)).trans held.2

theorem known_cache {value : Option Nat}
    (known : Known (World.perform engine (.cache (.highestmodseq value)) t) modseq) :
    Known t modseq ∨ value = some modseq := by
  rcases known with stored | copied
  · exact .inl (.inl stored)
  · exact .inr (Option.some.inj copied)

/-- A modseq that is stored after a full batch is one of those that were listed. -/
theorem spec_checkpoint {flagBatch : List (Nat × Flags)} {rest : List (List (Nat × Flags))}
    (truthful : Truthful listed) (reported : ∀ entry ∈ flagBatch, Reports listed entry) :
    (polling engine).Spec (Since engine listed [] (rest.flatten.map Prod.fst)) (checkpoint flagBatch rest)
      (fun _ => Since engine listed [] (rest.flatten.map Prod.fst)) (fun _ _ => True) := by
  unfold checkpoint
  split
  · rename_i full
    have within : ∀ modseq ∈ maxModseq flagBatch, modseq ≤ listed.highestmodseq := by
      intro modseq largest
      have some : flagBatch ≠ [] := by
        rintro rfl
        cases full
      have known : ∀ entry ∈ flagBatch, entry.2.modseq ≠ none := by
        intro entry member
        obtain ⟨version, _, same⟩ := reported entry member
        rw [same]
        exact Option.some_ne_none _
      obtain ⟨entry, member, same⟩ := maxModseq_mem some known
      obtain ⟨version, current, item⟩ := reported entry member
      rw [item, show maxModseq flagBatch = _ from largest] at same
      obtain rfl : version.modseq = modseq := Option.some.inj same
      exact truthful entry.1 version (current_last current).1
    refine spec_bind (spec_noteWaiting lasts_since _) fun _ => ?_
    refine spec_mono (spec_setHighestmodseq (lasts_since.stays.and (stays_noted _)).stable lasts_since ?_)
      (fun _ _ held => held) (fun _ _ _ held => held.1) (fun _ _ _ held => held)
    rintro t good ⟨held, noted⟩ calm
    refine ⟨sound_cache good calm (fun modseq same => ?_) fun modseq same uid => ?_, ?_⟩
    · exact Nat.le_trans (within modseq same) held.later.grown
    · rcases held.ready uid with ⟨member, _⟩ | waits | gone | ready
      · cases member
      · left
        rw [show t.trace.waiting = _ from noted]
        obtain ⟨entry, among, rfl⟩ := List.mem_map.mp waits
        obtain ⟨later, member, has⟩ := List.mem_flatten.mp among
        exact List.any_eq_true.mpr ⟨later, member, List.any_eq_true.mpr ⟨entry, has, by simp⟩⟩
      · exact .inr (.inl gone)
      · exact .inr (.inr (ready.mono (within modseq same)))
    · refine ⟨held.later, fun modseq known => ?_, held.ready⟩
      rcases known_cache known with old | same
      · exact held.bound modseq old
      · exact within modseq same
  · exact spec_ret lasts_since.stays.stable fun _ _ held => held

/-- After the batches nothing is still to be stored. -/
theorem spec_refreshBatches (truthful : Truthful listed) (batches : List (List (Nat × Flags)))
    (reported : ∀ entry ∈ batches.flatten, Reports listed entry) :
    (polling engine).Spec (Since engine listed [] (batches.flatten.map Prod.fst))
      (refreshBatches engine batches) (fun _ => Since engine listed [] []) (fun _ _ => True) := by
  induction batches with
  | nil => exact spec_ret lasts_since.stays.stable fun _ _ held => held
  | cons flagBatch rest ih =>
    have here : ∀ entry ∈ flagBatch, Reports listed entry := fun entry member =>
      reported entry (List.mem_append_left _ member)
    rw [List.flatten_cons, List.map_append]
    refine spec_bind (spec_updateMetadata here) fun _ => spec_bind (spec_checkpoint truthful here) fun _ => ?_
    exact ih fun entry member => reported entry (List.mem_append_right _ member)

theorem plain_removeDeletedUids (uids : List Nat) :
    (removeDeletedUids uids).Issues fun command => Command.plain command :=
  issues_removeDeletedUids fun _ => rfl

theorem spec_expunge (lasts : Lasts engine limit P) (remoteUids expungedUids : List Nat) :
    (polling engine).Spec P (expunge engine .generic .poller remoteUids expungedUids) (fun _ => P)
      (fun _ _ => True) := by
  have removes := spec_lax (spec_plain lasts.stays (plain_removeDeletedUids expungedUids))
  unfold expunge
  split
  · exact spec_ret lasts.stays.stable fun _ _ held => held
  · refine spec_bind (spec_lax (spec_plain lasts.stays (Routine.issues_issue.mpr rfl))) fun lastseen => ?_
    split
    · exact spec_bind (spec_getNewUids lasts) fun _ => removes
    · exact removes

/-! ## A whole refresh -/

/-- The server lists a UID, or nothing has changed of it since the modseq that is known. -/
theorem since_listed (good : Sound engine t) (known : Known t modseq) (session : Session)
    (here : Current session t) :
    Since engine (mailboxOf t.server) [] ((t.server.changedFlags session modseq).map Prod.fst) t := by
  have folder : t.server.folder session = mailboxOf t.server := by rw [Server.folder, here, mailboxOf]
  refine ⟨.refl _, good.bound, fun uid => ?_⟩
  by_cases named : uid ∈ (t.server.changedFlags session modseq).map Prod.fst
  · exact .inr (.inl named)
  by_cases gone : (mailboxOf t.server).expunged uid = true
  · exact .inr (.inr (.inl gone))
  right; right; right
  have unchanged : ∀ version ∈ (mailboxOf t.server).history uid, version.modseq ≤ modseq := by
    intro version member
    cases current : (mailboxOf t.server).current uid with
    | none =>
      have none : (mailboxOf t.server).history uid = [] := by
        simpa [Mailbox.current, gone] using current
      rw [none] at member
      cases member
    | some last =>
      by_contra newer
      refine named (List.mem_map.mpr ⟨(uid, last.item), mem_changedFlags.mpr ⟨last, ?_, ?_, rfl⟩, rfl⟩)
      · rwa [folder]
      · exact Nat.lt_of_lt_of_le (Nat.lt_of_not_le newer) ((current_last current).2 version member)
  obtain ⟨rows, hands⟩ := good.ready modseq known uid
  refine ⟨fun row member same => ?_, hands.imp_right fun hands msg member same => ?_⟩
  · subst same
    exact fun old among _ => rows row member rfl old among (unchanged old among)
  · subst same
    exact fun version among _ => hands msg member rfl version among (unchanged version among)

/-- From the listing of the changes on. -/
theorem spec_stores (truthful : Truthful listed) {changedFlags : List (Nat × Flags)}
    (reported : ∀ entry ∈ changedFlags, Reports listed entry) (session : Session) {newHighestmodseq : Nat}
    (older : newHighestmodseq ≤ listed.highestmodseq) :
    (polling engine).Spec (Since engine listed [] (changedFlags.map Prod.fst))
      (do
        let remoteUids ← imap (fun server => (server.folder session).allUids)
        refreshBatches engine (chunk (byModseq changedFlags) CONDSTORE_FLAGS_REFRESH_BATCH_SIZE)
        let local_ ← localUids engine
        expunge engine .generic .poller remoteUids (local_.filter (· ∉ remoteUids))
        noteWaiting fun _ => false
        setHighestmodseq (some newHighestmodseq))
      (fun _ _ => True) (fun _ _ => True) := by
  let batches := chunk (byModseq changedFlags) CONDSTORE_FLAGS_REFRESH_BATCH_SIZE
  have flatten : batches.flatten = byModseq changedFlags := chunk_flatten (by decide) _
  have entries : ∀ entry ∈ batches.flatten, Reports listed entry := fun entry member =>
    reported entry ((byModseq_perm changedFlags).mem_iff.mp (flatten ▸ member))
  have sorted : ∀ t, Since engine listed [] (changedFlags.map Prod.fst) t →
      Since engine listed [] (batches.flatten.map Prod.fst) t := by
    refine fun t held => ⟨held.later, held.bound, fun uid => ?_⟩
    refine (held.ready uid).imp_right (Or.imp_left fun waits => ?_)
    rw [flatten]
    exact ((byModseq_perm changedFlags).map Prod.fst).mem_iff.mpr waits
  refine spec_bind (spec_lax (spec_plain lasts_since.stays (Routine.issues_issue.mpr rfl)))
    fun remoteUids => ?_
  refine spec_bind (spec_mono (spec_refreshBatches truthful batches entries) (fun t _ held => sorted t held)
    (fun _ _ _ held => held) (fun _ _ _ held => held)) fun _ => ?_
  refine spec_bind (spec_lax (spec_plain lasts_since.stays (Routine.issues_issue.mpr rfl))) fun local_ => ?_
  refine spec_bind (spec_expunge lasts_since remoteUids _) fun _ => ?_
  refine spec_bind (spec_noteWaiting lasts_since _) fun _ => ?_
  refine spec_mono (spec_setHighestmodseq (lasts_since.stays.and (stays_noted _)).stable
    (@lasts_since engine listed [] []) fun t good held calm => ?_)
    (fun _ _ held => held) (fun _ _ _ _ => trivial) (fun _ _ _ held => held)
  obtain ⟨held, _⟩ := held
  refine ⟨sound_cache good calm ?_ ?_, held.later, fun modseq known => ?_, held.ready⟩
  · rintro _ ⟨⟩
    exact Nat.le_trans older held.later.grown
  · rintro _ ⟨⟩ uid
    rcases held.ready uid with ⟨member, _⟩ | waits | gone | ready
    · cases member
    · cases waits
    · exact .inr (.inl gone)
    · exact .inr (.inr (ready.mono older))
  · rcases known_cache known with old | same
    · exact held.bound modseq old
    · cases same
      exact older

/-- A getter leaves the copy behind. -/
theorem spec_highestmodseq (stays : Stays engine P)
    (loads : ∀ t, P t → P (World.perform engine (.load .highestmodseq) t)) :
    (polling engine).Spec P highestmodseq (fun value t => P t ∧ Copied (some value) t) (fun _ _ => True) := by
  refine spec_load stays.stable (fun value => (stays.and (stays_copied _)).stable) stable_true asks_polling
    (fun _ _ _ held copied => ⟨held, copied⟩) fun t good held _ => ?_
  have hand : (World.perform engine (.load .highestmodseq) t).trace.inHand .engine =
      t.trace.inHand .engine := by
    rcases load_cases (w := t) .highestmodseq with same | ⟨_, _, same⟩ <;> rw [same]
  refine ⟨good.performs (carries_load (Nat.le_refl _)) good.bound hand, hand, trivial, ?_⟩
  intro info calm found
  refine ⟨loads t held, ?_⟩
  simp only [Copied, World.perform, calm, found]
  rfl

/-- The engine has a copy of a modseq, and the server is not behind `modseq`. -/
def Remembers (modseq : Nat) (t : World) : Prop :=
  (∃ known, Copied (some (some known)) t) ∧ modseq ≤ (mailboxOf t.server).highestmodseq

theorem stays_remembers (modseq : Nat) : Stays engine (Remembers modseq) := by
  rintro s t ⟨⟨known, copied⟩, reached⟩ moved
  exact ⟨⟨known, moved.copy.trans copied⟩, Nat.le_trans reached moved.mailbox.grown⟩

theorem spec_refreshChanged (newHighestmodseq : Nat) :
    (polling engine).Spec (Remembers newHighestmodseq)
      (refreshChanged engine .generic .poller newHighestmodseq) (fun _ _ => True) (fun _ _ => True) := by
  refine spec_bind (spec_selects (stays_remembers newHighestmodseq)) fun session => ?_
  have stays : Stays engine fun t => Remembers newHighestmodseq t ∧ Current session t :=
    (stays_remembers newHighestmodseq).and (stays_current session)
  -- The copy is there, so the getter does not read the row.
  have reads : (polling engine).Spec (fun t => Remembers newHighestmodseq t ∧ Current session t) highestmodseq
      (fun saved t => (∃ known, saved = some known ∧ Copied (some (some known)) t) ∧
        newHighestmodseq ≤ (mailboxOf t.server).highestmodseq ∧ Current session t) (fun _ _ => True) := by
    refine spec_step stays.stable fun t good held _ => ⟨good, rfl, ?_⟩
    obtain ⟨⟨⟨known, copied⟩, reached⟩, here⟩ := held
    rw [show t.memory.highestmodseq = _ from copied]
    rintro u moved -
    exact ⟨⟨known, rfl, moved.copy.trans copied⟩, Nat.le_trans reached moved.mailbox.grown,
      here.trans moved.uidvalidity.symm⟩
  refine spec_bind reads fun saved => ?_
  have both : Stays engine fun t => (∃ known, saved = some known ∧ Copied (some (some known)) t) ∧
      newHighestmodseq ≤ (mailboxOf t.server).highestmodseq ∧ Current session t := by
    rintro s t ⟨⟨known, same, copied⟩, reached, here⟩ moved
    exact ⟨⟨known, same, moved.copy.trans copied⟩, Nat.le_trans reached moved.mailbox.grown,
      here.trans moved.uidvalidity.symm⟩
  let changes := fun (changedFlags : List (Nat × Flags)) (t : World) => ∃ listed, Truthful listed ∧
    newHighestmodseq ≤ listed.highestmodseq ∧ (∀ entry ∈ changedFlags, Reports listed entry) ∧
      Since engine listed [] (changedFlags.map Prod.fst) t
  have lists : (polling engine).Spec
      (fun t => (∃ known, saved = some known ∧ Copied (some (some known)) t) ∧
        newHighestmodseq ≤ (mailboxOf t.server).highestmodseq ∧ Current session t)
      (imap fun server => server.changedFlags session (saved.getD 0)) changes (fun _ _ => True) := by
    refine spec_imap both.stable (fun changedFlags => ?_) stable_true asks_polling (fun _ _ => trivial) ?_
    · rintro s t ⟨listed, truthful, older, reported, held⟩ moved good
      exact ⟨listed, truthful, older, reported, lasts_since.stays s t held moved⟩
    · rintro t good ⟨⟨known, rfl, copied⟩, reached, here⟩
      have folder : t.server.folder session = mailboxOf t.server := by rw [Server.folder, here, mailboxOf]
      refine ⟨mailboxOf t.server, good.truthful, reached, fun entry member => ?_,
        since_listed good (.inr copied) session here⟩
      obtain ⟨version, current, _, same⟩ := mem_changedFlags.mp member
      exact ⟨version, folder ▸ current, same⟩
  refine spec_bind lists fun changedFlags s good held => ?_
  obtain ⟨listed, truthful, older, reported, since⟩ := held
  exact spec_stores truthful reported session older s good since

theorem spec_condstoreRefreshFlags :
    (polling engine).Spec (fun _ => True) (condstoreRefreshFlags engine .generic .poller)
      (fun _ _ => True) (fun _ _ => True) := by
  have asks : (polling engine).Spec (fun _ => True)
      (imap fun server => (server.mailbox server.uidvalidity).highestmodseq)
      (fun newHighestmodseq t => newHighestmodseq ≤ (mailboxOf t.server).highestmodseq)
      (fun _ _ => True) :=
    spec_imap stable_true (fun value => (stays_reached value).stable) stable_true asks_polling
      (fun _ _ => trivial) fun _ _ _ => Nat.le_refl _
  refine spec_bind asks fun newHighestmodseq => ?_
  have stays := @stays_reached engine newHighestmodseq
  refine spec_bind (spec_highestmodseq stays fun t held => by rwa [World.perform_server]) fun saved => ?_
  have sets : (polling engine).Spec
      (fun t => newHighestmodseq ≤ (mailboxOf t.server).highestmodseq ∧ Copied (some saved) t)
      (initHighestmodseq newHighestmodseq saved) (fun _ => Remembers newHighestmodseq)
      (fun _ _ => True) := by
    have ready := (stays.and (stays_copied (some saved))).stable
    cases saved with
    | some known => exact spec_ret ready fun t _ held => ⟨⟨known, held.2⟩, held.1⟩
    | none =>
      -- Everything waits, and what is known after it is not above what the server has.
      intro s good held
      let limit := (mailboxOf s.server).highestmodseq
      have pre : Stays engine fun t => Below limit t ∧ newHighestmodseq ≤ limit :=
        (lasts_below limit).stays.and (stays_const _)
      have lasts : Lasts engine limit fun t => Below limit t ∧ newHighestmodseq ≤ limit :=
        (lasts_below limit).and fun _ _ older _ => older
      refine spec_bind (spec_noteWaiting lasts fun _ => true) (fun _ => ?_) s good
        ⟨⟨Nat.le_refl _, good.bound⟩, held.1⟩
      refine spec_mono (spec_setHighestmodseq (pre.and (stays_noted _)).stable lasts ?_)
        (fun _ _ held => held) (fun _ t _ done => ⟨⟨newHighestmodseq, done.2⟩, ?_⟩) (fun _ _ _ held => held)
      · rintro t here ⟨ready, noted⟩ calm
        have waits : ∀ uid, t.trace.waiting uid = true := fun uid => congrFun noted uid
        refine ⟨sound_cache here calm ?_ (fun _ _ uid => .inl (waits uid)), ⟨ready.1.1, fun modseq known => ?_⟩, ready.2⟩
        · rintro _ ⟨⟩
          exact Nat.le_trans ready.2 ready.1.1
        · rcases known_cache known with old | same
          · exact ready.1.2 modseq old
          · cases same
            exact ready.2
      · exact Nat.le_trans done.1.2 done.1.1.1
  refine spec_bind sets fun _ => ?_
  have again : Stays engine (Remembers newHighestmodseq) := stays_remembers newHighestmodseq
  refine spec_bind (show (polling engine).Spec _ _ (fun _ => Remembers newHighestmodseq) _ from ?_)
    fun saved => ?_
  · refine spec_step again.stable fun t good held _ => ⟨good, rfl, ?_⟩
    obtain ⟨⟨known, copied⟩, reached⟩ := held
    rw [show t.memory.highestmodseq = _ from copied]
    rintro u moved -
    exact again t u ⟨⟨known, copied⟩, reached⟩ moved
  · split
    · exact spec_ret again.stable fun _ _ _ => trivial
    · split
      · exact spec_ret again.stable fun _ _ _ => trivial
      · exact spec_refreshChanged newHighestmodseq

/-- One turn of the poller. -/
theorem spec_pollImpl : (polling engine).Spec (fun _ => True) (pollImpl engine .generic .poller)
    (fun _ _ => True) (fun _ _ => True) := by
  have free : Stays engine fun _ => True := stays_const True
  have asks : ∀ (answer : Server → Unit), (polling engine).Spec (fun _ => True) (imap answer)
      (fun _ _ => True) (fun _ _ => True) := fun answer => spec_plain free (Routine.issues_issue.mpr rfl)
  have polls : (polling engine).Spec (fun _ => True) (getNewUids engine .generic .poller)
      (fun _ _ => True) (fun _ _ => True) := fun s good _ =>
    spec_mono (spec_getNewUids (lasts_below (mailboxOf s.server).highestmodseq)) (fun _ _ held => held)
      (fun _ _ _ _ => trivial) (fun _ _ _ held => held) s good ⟨Nat.le_refl _, good.bound⟩
  have condstore : (polling engine).Spec (fun _ => True) (imap Server.condstore)
      (fun answer _ => answer = true) (fun _ _ => True) :=
    spec_imap free.stable (fun value => (stays_const (value = true)).stable) stable_true asks_polling
      (fun _ _ => trivial) fun t good _ => good.condstore
  have checks : (polling engine).Spec (fun _ => True) (checkUidChanges engine .generic .poller)
      (fun _ _ => True) (fun _ _ => True) := by
    refine spec_bind polls fun _ => spec_bind condstore fun answer s good held => ?_
    subst held
    exact spec_condstoreRefreshFlags s good trivial
  refine spec_bind (asks _) fun _ => spec_bind checks fun _ => ?_
  refine spec_bind (show (polling engine).Spec _ _ (fun _ _ => True) _ from
    spec_plain free (Routine.issues_issue.mpr rfl)) fun idles => ?_
  split
  · exact spec_bind (spec_selects free) fun _ => spec_mono (asks _) (fun _ _ _ => trivial)
      (fun _ _ _ held => held) (fun _ _ _ held => held)
  · exact spec_ret free.stable fun _ _ _ => trivial

end Poller

/-! ## The downloader -/
section Downloader
variable {engine : FolderSyncEngine} {s t : World}

theorem current_stable (session : Session) : (downloading engine).Stable (Current session) :=
  fun _ _ held moved _ => held.trans moved.1.uidvalidity.symm

theorem asks_downloading {P : World → Prop} : Asks (downloading engine) P := fun t _ _ => .refl t

theorem keeps_plain {P : World → Prop} (server : ∀ s t : World, s.server = t.server → P s → P t)
    (stable : (downloading engine).Stable P) {routine : Call α} (issued : routine.Issues (Command.plain ·)) :
    (downloading engine).Spec P routine (fun _ => P) (fun _ => P) :=
  spec_issues stable issued fun _ t plain good held calm =>
    ⟨good.plain plain calm, beside_plain plain calm, server t _ (World.perform_server ..).symm held⟩

theorem current_plain (session : Session) {routine : Call α} (issued : routine.Issues (Command.plain ·)) :
    (downloading engine).Spec (Current session) routine (fun _ => Current session)
      (fun _ => Current session) :=
  keeps_plain (fun _ _ same held => held.trans (congrArg Server.uidvalidity same)) (current_stable session) issued

theorem spec_download (session : Session) (uids : List Nat) :
    (downloading engine).Spec (Current session) (downloadAndCommitUids .engine session uids)
      (fun _ => Current session) (fun _ => Current session) := by
  let holding := fun (messages : List RawMessage) (t : World) =>
    Current session t ∧ ∀ msg ∈ messages, msg ∈ t.trace.inHand .engine
  have stable : ∀ messages, (downloading engine).Stable (holding messages) := by
    rintro messages s t ⟨here, inHand⟩ moved good
    refine ⟨current_stable session s t here moved good, fun msg member => ?_⟩
    rw [moved.2]
    exact inHand msg member
  have fetches : (downloading engine).Spec (holding []) (fetchUids .engine session uids) holding
      (fun _ => Current session) := by
    refine spec_fetchUids holding stable (current_stable session) (fun uid messages t good held _ => ?_) uids []
    obtain ⟨beside, hand⟩ := beside_fetch held.1 uid
    have here : Current session (World.perform engine (.fetch .engine session uid) t) :=
      held.1.trans (congrArg Server.uidvalidity (World.perform_server ..).symm)
    refine ⟨?_, beside, here, fun delivered calm brought => ⟨here, fun msg member => ?_⟩⟩
    · refine good.carried beside.toCarries good.bound ?_ ?_ fun msg member => ?_
      · rw [World.perform_server]
        exact good.truthful
      · rw [World.perform_server]
        exact good.condstore
      · rw [World.perform_server]
        exact (hand msg member).elim (good.hand msg) fun fresh => fresh.1
    · have grown : (World.perform engine (.fetch .engine session uid) t).trace.inHand .engine =
          t.trace.inHand .engine ++ delivered := by
        simp only [World.perform, calm, brought, if_true, Except.toOption, Option.getD_some]
      rw [grown]
      exact List.mem_append.mpr ((List.mem_append.mp member).imp_left (held.2 msg))
  refine spec_downloadAndCommitUids holding (spec_mono fetches (fun _ _ held => ⟨held, by simp⟩)
    (fun _ _ _ held => held) (fun _ _ _ held => held)) ?_ fun messages => ?_
  · exact spec_ret (stable []) fun _ _ held => held.1
  · refine spec_transact (stable messages) (fun _ => current_stable session) (current_stable session)
      fun t good held _ => ?_
    have beside := beside_save good held.2
    have here : Current session (World.perform engine (.save .engine messages) t) :=
      held.1.trans beside.uidvalidity.symm
    refine ⟨?_, beside, here, fun _ _ _ => here⟩
    have server : (World.perform engine (.save .engine messages) t).server = t.server := World.perform_server ..
    refine good.carried beside.toCarries good.bound (server ▸ good.truthful) (server ▸ good.condstore) ?_
    intro msg member
    cases (show msg ∈ [] from member)

theorem plain_compareUids (session : Session) : (compareUids engine session).Issues (Command.plain ·) := by
  refine Routine.issues_bind (Routine.issues_issue.mpr rfl) fun remoteUids => ?_
  refine Routine.issues_bind (Routine.issues_issue.mpr rfl) fun local_ => ?_
  refine Routine.issues_bind (plain_removeDeletedUids _) fun _ => ?_
  exact Routine.issues_bind (Routine.issues_issue.mpr rfl) fun _ => trivial

theorem spec_initialSync : (downloading engine).Spec (fun _ => True) (initialSync engine .generic)
    (fun _ _ => True) (fun _ _ => True) := by
  have free : ∀ {α : Type} {routine : Call α}, routine.Issues (Command.plain ·) →
      (downloading engine).Spec (fun _ => True) routine (fun _ _ => True) (fun _ _ => True) :=
    keeps_plain (fun _ _ _ _ => trivial) stable_true
  have lax : ∀ {α : Type} {session : Session} {routine : Call α}, routine.Issues (Command.plain ·) →
      (downloading engine).Spec (Current session) routine (fun _ => Current session) (fun _ _ => True) :=
    fun issued => spec_mono (current_plain _ issued) (fun _ _ held => held) (fun _ _ _ held => held)
      (fun _ _ _ _ => trivial)
  have selects : (downloading engine).Spec (fun _ => True) (selectFolder moduleUidvalidityCb)
      (fun session => Current session) (fun _ _ => True) := by
    refine spec_selectFolder (fun session => Current session) stable_true current_stable current_stable
      (fun _ _ _ _ => trivial) asks_downloading (fun _ _ _ => rfl) fun session => ?_
    refine spec_bind (lax (Routine.issues_issue.mpr rfl)) fun saved => ?_
    split
    · exact spec_ret (current_stable session) fun _ _ held => held
    · split
      · exact spec_ret (current_stable session) fun _ _ held => held
      · exact spec_raise (current_stable session) fun _ _ _ => trivial
  refine spec_bind (free (Routine.issues_issue.mpr rfl)) fun _ => spec_bind selects fun session => ?_
  refine spec_bind (lax (Routine.issues_issue.mpr rfl)) fun _ => ?_
  have kills : (downloading engine).Spec (Current session) (local_ .kill)
      (fun _ => Current session) (fun _ => Current session) :=
    current_plain session (Routine.issues_issue.mpr rfl)
  have loop : ∀ newUids : List Nat, (downloading engine).Spec (Current session)
      (Routine.each newUids fun uid => downloadAndCommitUids .engine session [uid])
      (fun _ => Current session) (fun _ => Current session) := fun newUids =>
    spec_each (fun _ => Current session) (current_stable session) fun uid _ => spec_download session [uid]
  have syncs : (downloading engine).Spec (Current session) (initialSyncImpl engine .generic session)
      (fun _ => Current session) (fun _ _ => True) := by
    refine spec_bind (lax (plain_compareUids session)) fun newUids => ?_
    refine spec_bind (lax (Routine.issues_issue.mpr rfl)) fun _ => ?_
    exact spec_mono (spec_ensure (loop _) (fun _ => kills) fun _ => kills) (fun _ _ held => held)
      (fun _ _ _ held => held) (fun _ _ _ _ => trivial)
  refine spec_bind syncs fun _ => spec_bind (lax (Routine.issues_issue.mpr rfl)) fun _ => ?_
  exact spec_ret (current_stable session) fun _ _ _ => trivial

end Downloader

/-! ## Runs -/
section Runs
variable {engine : FolderSyncEngine} {w : World}

/-- A state in which an engine may be started: nothing saved yet, or all that is saved is right. -/
structure Begins (engine : FolderSyncEngine) (w : World) : Prop where
  truthful : Truthful (mailboxOf w.server)
  condstore : w.server.condstore = true
  reached : ∀ modseq ∈ w.storedModseq, modseq ≤ (mailboxOf w.server).highestmodseq
  incorporated : Incorporated engine w

theorem begins_sound (begins : Begins engine w) : Sound engine w.restart := by
  have known : ∀ modseq, Known w.restart modseq → w.storedModseq = some modseq := by
    rintro modseq (stored | copied)
    · exact stored
    · cases copied
  refine ⟨begins.truthful, begins.condstore, by simp [World.restart, Trace.fresh], fun modseq some => ?_,
    fun modseq some uid => ⟨fun row member _ => ?_, .inr (by simp [World.restart, Trace.fresh])⟩⟩
  · exact begins.reached modseq (known modseq some)
  · exact begins.incorporated modseq (known modseq some) row member

theorem Sound.begins (good : Sound engine w) : Begins engine w where
  truthful := good.truthful
  condstore := good.condstore
  reached modseq stored := good.bound modseq (.inl stored)
  incorporated modseq stored row member := (good.ready modseq (.inl stored) row.msgUid).1 row member rfl

theorem moves_beside {t : World} (moved : Moves engine Evolves w t) :
    Beside engine w t ∧ t.trace.inHand .engine = w.trace.inHand .engine := by
  have goes : Goes w t := ⟨moved.server.uidvalidity, moved.server.mailbox⟩
  have copy : t.memory.highestmodseq = w.memory.highestmodseq := by rw [moved.memory]
  have stored : t.storedModseq = w.storedModseq := by rw [World.storedModseq, moved.info, World.storedModseq]
  have hand : t.trace.inHand .engine = w.trace.inHand .engine := by
    rw [moved.trace, if_pos moved.server.uidvalidity]
  have waiting : t.trace.waiting = w.trace.waiting := by rw [moved.trace, if_pos moved.server.uidvalidity]
  exact ⟨{ toCarries := carries_same goes (known_congr copy stored) (Nat.le_refl _) moved.rows hand
           copy, stored, waiting }, hand⟩

theorem moves_sound {t : World} (good : Sound engine w) (moved : Moves engine Evolves w t) :
    Sound engine t := by
  obtain ⟨beside, hand⟩ := moves_beside moved
  refine good.carried beside.toCarries good.bound moved.server.truthful moved.server.condstore
    fun msg member => ?_
  exact (good.hand msg (hand ▸ member)).later beside.mailbox

/-- The contracts of the two greenlets fit. -/
def protocol (engine : FolderSyncEngine) : Crew.Protocol (plan engine (Calm engine)) where
  main := downloading engine
  helper := polling engine
  mainEnd _ _ := True
  helperEnd _ _ := True
  same_inv _ := Iff.rfl
  admits_main := id
  admits_helper := id
  main_to_helper _ _ promised := promised
  helper_to_main _ promised := ⟨goes_perform _, promised⟩
  env_moves good moved := ⟨moves_sound good moved,
    ⟨(moves_beside moved).1.toGoes, (moves_beside moved).2⟩, (moves_beside moved).1⟩
  spawned := by
    intro command s signal good _
    cases command with
    | spawn => exact spec_pollImpl _ (good.plain (show Command.plain .spawn from rfl) trivial) trivial
    | _ => cases signal
  again good _ _ := spec_pollImpl _ good trivial
  resumed := by
    rintro s result t next good - ⟨_, rfl, rfl⟩
    exact ⟨good, .refl t, spec_initialSync t good trivial⟩
  restarted := by
    rintro s t next good ⟨rfl, rfl⟩
    exact ⟨begins_sound good.begins, spec_initialSync _ (begins_sound good.begins) trivial⟩

theorem reaches_sound (begins : Begins engine w) {crew : Crew World Command Exc String Unit}
    (reached : Reaches engine (Calm engine) w crew) : Sound engine crew.shared := by
  refine ((protocol engine).reach_runs ?_ reached).1
  have good := begins_sound begins
  refine ⟨good, spec_initialSync _ good trivial, fun routine member => ?_⟩
  cases member

end Runs

/-- While initial sync downloads beside its poller and the server goes on, every row has the flags that the
stored modseq promises, in runs that leave nothing of the above to chance. -/
theorem initial_sync_incorporates (engine : FolderSyncEngine) (w : World)
    (crew : Crew World Command Exc String Unit) (begins : Begins engine w)
    (reached : Reaches engine (Calm engine) w crew) : Incorporated engine crew.shared :=
  (reaches_sound begins reached).begins.incorporated

/-! ## A first sync -/

/-- Two messages, of which nothing is saved yet. -/
def untouched : World :=
  Trial.world (Trial.server 1 (Trial.mailbox 3 5 fun _ => { flags := [], labels := none, modseq := 5 })) none

/-- One message is saved and the other one in hand when the poller has its first turn, of 13 commands. -/
def turns : List Crew.Turn := List.replicate 11 .main ++ List.replicate 13 .helper ++ [.main]

theorem untouched_begins : Begins Trial.self untouched := by
  refine ⟨fun uid version member => ?_, rfl, by simp [untouched, Trial.world, World.storedModseq], ?_⟩
  · change version ∈ (if 0 < uid ∧ uid < 3 then [_] else []) at member
    split at member
    · obtain rfl := List.mem_singleton.mp member
      exact Nat.le_refl 5
    · cases member
  · rintro modseq stored
    cases stored

theorem turns_followed : ((Crew.follow (plan Trial.self (Calm Trial.self)) turns
    (started Trial.self untouched)).map fun crew => (crew.shared.storedModseq,
      (crew.shared.rows Trial.self).map ImapUid.msgUid)) = some (some 5, [2, 1]) := by
  decide +kernel

theorem first_sync_incorporates : ∃ crew : Crew World Command Exc String Unit,
    crew.shared.storedModseq = some 5 ∧ (crew.shared.rows Trial.self).map ImapUid.msgUid = [2, 1] ∧
      Incorporated Trial.self crew.shared := by
  obtain ⟨crew, followed, same⟩ := Option.map_eq_some_iff.mp turns_followed
  obtain ⟨stored, rows⟩ := Prod.mk.inj same
  exact ⟨crew, stored, rows, initial_sync_incorporates Trial.self untouched crew untouched_begins
    (Crew.follow_reach followed)⟩

end InitialSync
end Imap
end SyncEngine
