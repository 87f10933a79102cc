import Mathlib.Algebra.Group.Int.Defs
import Mathlib.Data.List.Infix
import SyncEngine.Util.Encoding
import SyncEngine.Util.Runs

/-! Google's push notifications for a calendar, the rate limit on them, and the syncs that they are to
start. Times are in microseconds. -/
namespace SyncEngine.Events
namespace Push

def SECOND : Int := 1000000

/-- What a DATETIME column keeps of a time. -/
structure DateTimeColumn where
  keeps : Int → Int
  mono : ∀ {a b}, a ≤ b → keeps a ≤ keeps b

structure Calendar where
  name : Unicode
  uid : Unicode
  lastSynced : Option Int
  gpushLastPing : Option Int
  gpushExpiration : Option Int
deriving DecidableEq

namespace Calendar

/-- `'group.v.calendar.google.com' in self.uid` -/
def isShared (calendar : Calendar) : Bool := "group.v.calendar.google.com".toList <:+: calendar.uid

def needsNewWatch (now : Int) (calendar : Calendar) : Bool :=
  if calendar.name = "Emailed events".toList ∧ calendar.uid = "inbox".toList then false
  else if calendar.isShared then false
  else match calendar.gpushExpiration with
    | none => true
    | some expiration => expiration < now

def shouldUpdateEvents (maxTimeBetweenSyncs now : Int) (calendar : Calendar) : Bool :=
  if calendar.name = "Emailed events".toList then false
  else if calendar.isShared then false
  else match calendar.lastSynced with
    | none => true
    | some lastSynced =>
      calendar.needsNewWatch now || lastSynced + maxTimeBetweenSyncs < now ||
        match calendar.gpushLastPing with
        | none => false
        | some ping => lastSynced < ping

/-- Whether `event_update` leaves the row as it is. `jitter` is `random.randrange(0, 10)`. -/
def rateLimited (now : Int) (jitter : Fin 10) (calendar : Calendar) : Bool :=
  match calendar.gpushLastPing with
  | none => false
  | some ping => now - ping < (10 + jitter.val) * SECOND

/-- `gpush_last_ping` once `event_update` is done. -/
def pingAfter (column : DateTimeColumn) (now : Int) (jitter : Fin 10) (calendar : Calendar) :
    Option Int :=
  if calendar.rateLimited now jitter then calendar.gpushLastPing else some (column.keeps now)

end Calendar

/-- `syncing` is the timestamp of the sync that runs. `notices` and `synced` are when notifications
have come, and the timestamps of the syncs that are complete. -/
structure State where
  now : Int
  calendar : Calendar
  syncing : Option Int
  notices : List Int
  synced : List Int

inductive Event where
  | notify (now : Int) (jitter : Fin 10)
  | beginSync (now : Int)
  | completeSync (now : Int)
  | failSync (now : Int)
  | watch (now expiration : Int)

def Event.time : Event → Int
  | .notify now _ | .beginSync now | .completeSync now | .failSync now | .watch now _ => now

variable (column : DateTimeColumn)

def Event.apply (s : State) : Event → Option State
  | .notify now jitter => some { s with
      now
      calendar := { s.calendar with gpushLastPing := s.calendar.pingAfter column now jitter }
      notices := now :: s.notices }
  | .beginSync now =>
    match s.syncing with
    | none => some { s with now, syncing := some now }
    | some _ => none
  | .completeSync now => s.syncing.map fun timestamp => { s with
      now
      calendar := { s.calendar with lastSynced := some (column.keeps timestamp) }
      syncing := none
      synced := timestamp :: s.synced }
  | .failSync now => s.syncing.map fun _ => { s with now, syncing := none }
  | .watch now expiration => some { s with
      now
      calendar := { s.calendar with gpushExpiration := some (column.keeps expiration) } }

/-- One event after the other, each later than the one before it. -/
def step (s : State) (event : Event) : Option State :=
  if s.now < event.time then event.apply column s else none

/-- Every notification that no complete sync is later than makes the next poll fetch the events. -/
def Heard (maxTimeBetweenSyncs : Int) (s : State) : Prop :=
  ∀ notice ∈ s.notices, (∀ timestamp ∈ s.synced, timestamp ≤ notice) →
    ∀ now, s.now ≤ now → s.calendar.shouldUpdateEvents maxTimeBetweenSyncs now

/-- A time later than the last sync and than the one that runs, as the column keeps their timestamps. -/
def Newest (s : State) (time : Int) : Prop :=
  (∀ lastSynced ∈ s.calendar.lastSynced, lastSynced < time) ∧
    ∀ timestamp ∈ s.syncing, column.keeps timestamp < time

instance (s : State) : DecidablePred (Newest column s) := fun time =>
  inferInstanceAs (Decidable ((∀ lastSynced ∈ s.calendar.lastSynced, lastSynced < time) ∧
    ∀ timestamp ∈ s.syncing, column.keeps timestamp < time))

/-- A notification comes when the stored ping is at least the rate limit ago, and is itself later than the
syncs, or when the stored ping is later than them. -/
def Noticed (s : State) (now : Int) (jitter : Fin 10) : Prop :=
  (∀ ping ∈ s.calendar.gpushLastPing, now < ping + (10 + jitter.val) * SECOND → Newest column s ping) ∧
    ((∀ ping ∈ s.calendar.gpushLastPing, ping + (10 + jitter.val) * SECOND ≤ now) →
      Newest column s (column.keeps now))

instance (s : State) (now : Int) (jitter : Fin 10) : Decidable (Noticed column s now jitter) :=
  inferInstanceAs (Decidable (
    (∀ ping ∈ s.calendar.gpushLastPing, now < ping + (10 + jitter.val) * SECOND → Newest column s ping) ∧
      ((∀ ping ∈ s.calendar.gpushLastPing, ping + (10 + jitter.val) * SECOND ≤ now) →
        Newest column s (column.keeps now))))

def Recorded (s : State) (event : Event) (_ : State) : Prop :=
  ∀ now jitter, event = .notify now jitter → Noticed column s now jitter

instance (s : State) (event : Event) (next : State) : Decidable (Recorded column s event next) :=
  match event with
  | .notify now jitter => decidable_of_iff (Noticed column s now jitter) <| by
      constructor
      · rintro noticed _ _ ⟨⟩
        exact noticed
      · exact fun recorded => recorded now jitter rfl
  | .beginSync _ | .completeSync _ | .failSync _ | .watch _ _ => isTrue fun _ _ other => nomatch other

/-- Google notifies of such a calendar, and its events are polled. -/
def Polled (calendar : Calendar) : Prop :=
  calendar.name ≠ "Emailed events".toList ∧ calendar.isShared = false

instance (calendar : Calendar) : Decidable (Polled calendar) := by
  unfold Polled
  infer_instance

/-- A calendar that has never been synced. -/
def start (now : Int) (name uid : Unicode) : State where
  now := now
  calendar := { name, uid, lastSynced := none, gpushLastPing := none, gpushExpiration := none }
  syncing := none
  notices := []
  synced := []

section Invariant
variable {column} {s next : State}

/-- What is kept of a notification at `notice`: a later sync is complete, or the ping is later than
every sync that does not see what was announced. -/
def Kept (column : DateTimeColumn) (s : State) (notice : Int) : Prop :=
  (∃ timestamp ∈ s.synced, notice < timestamp) ∨
    ∃ ping ∈ s.calendar.gpushLastPing, (∀ lastSynced ∈ s.calendar.lastSynced, lastSynced < ping) ∧
      ∀ timestamp ∈ s.syncing, timestamp ≤ notice → column.keeps timestamp < ping

structure Sound (column : DateTimeColumn) (s : State) : Prop where
  past : ∀ notice ∈ s.notices, notice ≤ s.now
  ping : ∀ ping ∈ s.calendar.gpushLastPing, ping ≤ column.keeps s.now
  kept : ∀ notice ∈ s.notices, Kept column s notice

theorem Sound.past_later (sound : Sound column s) (later : s.now < now) :
    ∀ notice ∈ s.notices, notice ≤ now := by
  intro notice member
  have past := sound.past notice member
  omega

theorem Sound.ping_later (sound : Sound column s) (later : s.now < now) :
    ∀ ping ∈ s.calendar.gpushLastPing, ping ≤ column.keeps now := by
  intro ping member
  have bound := sound.ping ping member
  have grows : column.keeps s.now ≤ column.keeps now := column.mono (by omega)
  omega

/-- A notification never takes the ping back. -/
theorem ping_le_pingAfter (sound : Sound column s) (later : s.now < now) (jitter : Fin 10)
    (before : ping ∈ s.calendar.gpushLastPing) (after : newer ∈ s.calendar.pingAfter column now jitter) :
    ping ≤ newer := by
  unfold Calendar.pingAfter at after
  split at after
  · cases before.symm.trans after
    exact Int.le_refl ping
  · cases after
    exact sound.ping_later later ping before

/-- The ping that the row has then is later than the syncs. -/
theorem Noticed.newest {jitter : Fin 10} (noticed : Noticed column s now jitter) :
    ∃ ping ∈ s.calendar.pingAfter column now jitter, Newest column s ping := by
  unfold Calendar.pingAfter Calendar.rateLimited
  cases stored : s.calendar.gpushLastPing with
  | none =>
    refine ⟨column.keeps now, rfl, noticed.2 fun ping member => ?_⟩
    rw [stored] at member
    cases member
  | some ping =>
    by_cases limited : now - ping < (10 + jitter.val) * SECOND
    · exact ⟨ping, by simp [limited], noticed.1 ping stored (by omega)⟩
    · refine ⟨column.keeps now, by simp [limited], noticed.2 fun old member => ?_⟩
      rw [stored] at member
      obtain rfl := Option.some.inj member
      omega

theorem sound_notify (sound : Sound column s) (later : s.now < now)
    (recorded : Recorded column s (.notify now jitter) next) :
    Sound column { s with
      now
      calendar := { s.calendar with gpushLastPing := s.calendar.pingAfter column now jitter }
      notices := now :: s.notices } := by
  obtain ⟨newer, after, synced, running⟩ := (recorded now jitter rfl).newest
  constructor
  · intro notice member
    rcases List.mem_cons.mp member with rfl | member
    · exact Int.le_refl notice
    · exact sound.past_later later notice member
  · intro ping member
    cases after.symm.trans member
    unfold Calendar.pingAfter at after
    split at after
    · exact sound.ping_later later newer after
    · cases after
      exact Int.le_refl _
  · intro notice member
    rcases List.mem_cons.mp member with rfl | member
    · exact .inr ⟨newer, after, synced, fun timestamp member _ => running timestamp member⟩
    · rcases sound.kept notice member with done | ⟨ping, before, old_synced, old_running⟩
      · exact .inl done
      · have newest := ping_le_pingAfter sound later jitter before after
        refine .inr ⟨newer, after, ?_, ?_⟩
        · intro lastSynced member
          have older := old_synced lastSynced member
          omega
        · intro timestamp member early
          have older := old_running timestamp member early
          omega

/-- A sync that begins now sees what has been announced. -/
theorem sound_syncing (sound : Sound column s) (later : s.now < now) {started : Option Int}
    (begins : ∀ timestamp ∈ started, timestamp = now) : Sound column { s with now, syncing := started } := by
  constructor
  · exact sound.past_later later
  · exact sound.ping_later later
  · intro notice member
    have early := sound.past notice member
    rcases sound.kept notice member with done | ⟨ping, before, synced, _⟩
    · exact .inl done
    · refine .inr ⟨ping, before, synced, fun timestamp running before_notice => ?_⟩
      have begun := begins timestamp running
      omega

theorem sound_completeSync (sound : Sound column s) (later : s.now < now)
    (running : s.syncing = some timestamp) :
    Sound column { s with
      now
      calendar := { s.calendar with lastSynced := some (column.keeps timestamp) }
      syncing := none
      synced := timestamp :: s.synced } := by
  constructor
  · exact sound.past_later later
  · exact sound.ping_later later
  · intro notice member
    rcases sound.kept notice member with ⟨earlier, member, newer⟩ | ⟨ping, before, _, unfinished⟩
    · exact .inl ⟨earlier, List.mem_cons_of_mem _ member, newer⟩
    · by_cases sees : notice < timestamp
      · exact .inl ⟨timestamp, List.mem_cons_self, sees⟩
      · refine .inr ⟨ping, before, ?_, ?_⟩
        · rintro lastSynced ⟨⟩
          exact unfinished timestamp running (Int.not_lt.mp sees)
        · rintro _ ⟨⟩

theorem sound_watch (sound : Sound column s) (later : s.now < now) (expiration : Option Int) :
    Sound column { s with now, calendar := { s.calendar with gpushExpiration := expiration } } := by
  constructor
  · exact sound.past_later later
  · exact sound.ping_later later
  · exact sound.kept

theorem sound_step (sound : Sound column s) (recorded : Recorded column s event next)
    (stepped : step column s event = some next) : Sound column next := by
  unfold step at stepped
  split at stepped
  · rename_i later
    cases event with
    | notify now jitter =>
      cases stepped
      exact sound_notify sound later recorded
    | beginSync now =>
      simp only [Event.apply] at stepped
      split at stepped
      · cases stepped
        exact sound_syncing sound later fun _ begun => (Option.some.inj begun).symm
      · cases stepped
    | completeSync now =>
      obtain ⟨timestamp, running, rfl⟩ := Option.map_eq_some_iff.mp stepped
      exact sound_completeSync sound later running
    | failSync now =>
      obtain ⟨timestamp, _, rfl⟩ := Option.map_eq_some_iff.mp stepped
      exact sound_syncing sound later fun _ begun => nomatch begun
    | watch now expiration =>
      cases stepped
      exact sound_watch sound later _
  · cases stepped

theorem heard_of_sound (sound : Sound column s) (polled : Polled s.calendar) (maxTimeBetweenSyncs : Int) :
    Heard maxTimeBetweenSyncs s := by
  intro notice member unsynced now _
  rcases sound.kept notice member with ⟨timestamp, done, newer⟩ | ⟨ping, pinged, newest, _⟩
  · exact absurd (unsynced timestamp done) (Int.not_le.mpr newer)
  · unfold Calendar.shouldUpdateEvents
    rw [if_neg polled.1, polled.2]
    cases synced : s.calendar.lastSynced with
    | none => rfl
    | some lastSynced =>
      have pinged : s.calendar.gpushLastPing = some ping := pinged
      simp [pinged, newest lastSynced synced]

/-- Notifications and syncs do not change which calendar it is. -/
theorem step_names (stepped : step column s event = some next) :
    next.calendar.name = s.calendar.name ∧ next.calendar.uid = s.calendar.uid := by
  unfold step at stepped
  split at stepped
  · cases event with
    | notify | watch =>
      cases stepped
      exact ⟨rfl, rfl⟩
    | beginSync now =>
      simp only [Event.apply] at stepped
      split at stepped
      · cases stepped
        exact ⟨rfl, rfl⟩
      · cases stepped
    | completeSync | failSync =>
      obtain ⟨_, _, rfl⟩ := Option.map_eq_some_iff.mp stepped
      exact ⟨rfl, rfl⟩
  · cases stepped

end Invariant

/-- No notification is lost in a run in which each one comes later than the syncs before it and at least the
rate limit after the stored ping, unless this ping is later than the syncs too. -/
theorem notifications_heard (maxTimeBetweenSyncs now : Int) (name uid : Unicode) (events : List Event)
    (s : State) (polled : Polled (start now name uid).calendar)
    (recorded : Runs.Each (step column) (Recorded column) (start now name uid) events)
    (ran : Runs.run (step column) (start now name uid) events = some s) :
    Heard maxTimeBetweenSyncs s := by
  have kept : Sound column s ∧ Polled s.calendar := by
    have initial : Sound column (start now name uid) := by
      constructor
      · intro notice member
        cases member
      · intro ping member
        cases member
      · intro notice member
        cases member
    apply Runs.invariant_run (fun s => Sound column s ∧ Polled s.calendar) ⟨initial, polled⟩ recorded _ ran
    intro s event next held recorded stepped
    obtain ⟨name, uid⟩ := step_names stepped
    refine ⟨sound_step held.1 recorded stepped, ?_⟩
    unfold Polled Calendar.isShared
    rw [name, uid]
    exact held.2
  exact heard_of_sound kept.1 kept.2 maxTimeBetweenSyncs

/-! ## A notification right after a sync -/

def everyMicrosecond : DateTimeColumn := ⟨id, id⟩

/-- The calendar is watched, and a notification makes it sync. -/
def oneNotice : List Event :=
  [.watch 0 (10 ^ 15), .notify (1 * SECOND) 0, .beginSync (5 * SECOND), .completeSync (6 * SECOND)]

def synced (ping : Int) (notices : List Int) (now : Int) : State where
  now := now
  calendar := {
    name := "Work".toList
    uid := "work".toList
    lastSynced := some (5 * SECOND)
    gpushLastPing := some ping
    gpushExpiration := some (10 ^ 15) }
  syncing := none
  notices := notices
  synced := [5 * SECOND]

theorem later_notice_heard : Heard (3600 * SECOND)
    (synced (20 * SECOND) [20 * SECOND, 1 * SECOND] (20 * SECOND)) :=
  @notifications_heard everyMicrosecond (3600 * SECOND) (-1) "Work".toList "work".toList
    (oneNotice ++ [.notify (20 * SECOND) 0]) _ (by decide) (by decide) rfl

/-- Two seconds after the sync, and seven after the notification before it, another is left out. -/
theorem notice_lost : ¬ ∀ column maxTimeBetweenSyncs now name uid events s,
    Polled (start now name uid).calendar → Runs.run (step column) (start now name uid) events = some s →
      Heard maxTimeBetweenSyncs s := by
  intro always
  have heard := always everyMicrosecond (3600 * SECOND) (-1) "Work".toList "work".toList
    (oneNotice ++ [.notify (8 * SECOND) 0])
    (synced (1 * SECOND) [8 * SECOND, 1 * SECOND] (8 * SECOND)) (by decide) rfl
  have fetched := heard (8 * SECOND) List.mem_cons_self (by decide) (9 * SECOND) (by decide)
  exact absurd fetched (by decide)

end Push
end SyncEngine.Events
