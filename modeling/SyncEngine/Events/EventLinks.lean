import SyncEngine.Events.FeedUpdates
import SyncEngine.Util.Itert

/-! Which orders of arrival leave an override with its master. Links depend on a few columns of the
rows, so the arrivals are first followed on these alone. -/
namespace SyncEngine.Events

/-- The columns of a row that links are made of. -/
structure Link where
  namespace_ : Option Nat
  calendar : Option Nat
  uid : Unicode
  source : Source
  recurring : Bool
  override : Bool
  masterEventUid : Option Unicode
  master : Option Nat
deriving DecidableEq

def Event.link (e : Event) : Link where
  namespace_ := e.namespace_
  calendar := e.calendar
  uid := e.uid
  source := e.source
  recurring := e.isRecurring
  override := e.isOverride
  masterEventUid := e.masterEventUid
  master := e.master

variable (namespaceId calendarId : Nat)

def Link.here (l : Link) : Bool := l.namespace_ = some namespaceId && l.calendar = some calendarId

/-- The recurring event that an override with this `master_event_uid` names. -/
def Link.Named (masterEventUid : Option Unicode) (l : Link) : Prop :=
  l.here namespaceId calendarId = true ∧ l.recurring = true ∧ masterEventUid = some l.uid

/-- Every override of the calendar has as its master every recurring event that it names. -/
def Linked (links : List Link) : Prop :=
  ∀ (j : Nat) (o : Link), links[j]? = some o → o.here namespaceId calendarId = true →
    o.override = true → ∀ (k : Nat) (r : Link), links[k]? = some r →
      r.Named namespaceId calendarId o.masterEventUid →
      o.master = some k

def findLocal (eventsExist : Bool) (links : List Link) (uid : Unicode) : Option Nat :=
  if eventsExist then links.findIdx? fun l => l.here namespaceId calendarId && l.uid = uid else none

/-- An arrival that leaves every override linked: a stored override is linked already to the event
that its update names; the overrides that name a new recurring event have its source and no master
yet; a new override names no two events, and none of another source. -/
def Sound (eventsExist : Bool) (links : List Link) (e : Link) : Prop :=
  match findLocal namespaceId calendarId eventsExist links e.uid with
  | some i => e.override = true → ∀ row, links[i]? = some row → row.override = true →
      ∀ (k : Nat) (r : Link), links[k]? = some r → r.Named namespaceId calendarId e.masterEventUid →
        row.master = some k
  | none =>
    (e.recurring = true → ∀ o ∈ links, o.here namespaceId calendarId = true → o.override = true →
      o.masterEventUid = some e.uid → o.source = e.source ∧ o.master = none) ∧
    (e.override = true → ∀ (k : Nat) (r : Link), links[k]? = some r →
      r.Named namespaceId calendarId e.masterEventUid → r.source = e.source ∧
        ∀ (k' : Nat) (r' : Link), links[k']? = some r' →
          r'.Named namespaceId calendarId e.masterEventUid → k' = k)

/-- Every row has a namespace, and the key of a master is one of a row. -/
structure Stored (links : List Link) : Prop where
  placed : ∀ l ∈ links, l.namespace_ ≠ none
  keyed : ∀ o ∈ links, ∀ m, o.master = some m → m < links.length

/-! ## Arrivals on the links -/

/-- What an arrival changes in the row that it finds. -/
def Link.relink (e l : Link) : Link :=
  if l.override && e.override then { l with masterEventUid := e.masterEventUid } else l

def Link.linkable (e o : Link) : Bool :=
  o.override && o.here namespaceId calendarId && o.masterEventUid = some e.uid && o.source = e.source &&
    o.master = none

def findMasterLink (links : List Link) (e : Link) : Option Nat :=
  e.masterEventUid.bind fun uid => links.findIdx? fun m =>
    m.recurring && m.here namespaceId calendarId && m.uid = uid && m.source = e.source

/-- The row that a new event becomes. -/
def Link.newRow (e : Link) : Link :=
  { e with namespace_ := some namespaceId, calendar := some calendarId }

def arrive (eventsExist : Bool) (links : List Link) (e : Link) : List Link :=
  match findLocal namespaceId calendarId eventsExist links e.uid with
  | some i => links.modify i e.relink
  | none =>
    let row := e.newRow namespaceId calendarId
    if e.recurring then
      (links.map fun o =>
        if e.linkable namespaceId calendarId o then { o with master := some links.length } else o) ++ [row]
    else if e.override then
      links ++ [{ row with master := findMasterLink namespaceId calendarId links e }]
    else links ++ [row]

variable {namespaceId calendarId} {eventsExist : Bool} {links : List Link} {e : Link}

theorem findLocal_some (found : findLocal namespaceId calendarId eventsExist links uid = some i) :
    ∃ row, links[i]? = some row ∧ row.here namespaceId calendarId = true ∧ row.uid = uid := by
  unfold findLocal at found
  split at found
  · obtain ⟨inside, is_local, -⟩ := List.findIdx?_eq_some_iff_getElem.mp found
    simp only [Bool.and_eq_true, decide_eq_true_eq] at is_local
    exact ⟨links[i], List.getElem?_eq_getElem inside, is_local⟩
  · cases found

theorem Link.relink_eq (e l : Link) : (e.relink l).namespace_ = l.namespace_ ∧
    (e.relink l).calendar = l.calendar ∧ (e.relink l).uid = l.uid ∧ (e.relink l).recurring = l.recurring ∧
    (e.relink l).override = l.override ∧ (e.relink l).master = l.master ∧
    (e.relink l).masterEventUid =
      if l.override && e.override then e.masterEventUid else l.masterEventUid := by
  unfold Link.relink
  split <;> simp_all

theorem Link.relink_named (muid : Option Unicode) (e l : Link) :
    (e.relink l).Named namespaceId calendarId muid ↔ l.Named namespaceId calendarId muid := by
  obtain ⟨namespace_, calendar, uid, recurring, -⟩ := e.relink_eq l
  simp [Link.Named, Link.here, namespace_, calendar, uid, recurring]

theorem getElem?_relinked {k i : Nat} {r' : Link} : (links.modify i e.relink)[k]? = some r' ↔
    ∃ r, links[k]? = some r ∧ r' = if i = k then e.relink r else r := by
  rw [List.getElem?_modify, Option.map_eq_map, Option.map_eq_some_iff]
  by_cases same : i = k <;> simp [same, eq_comm]

theorem linked_modify (linked : Linked namespaceId calendarId links)
    (found : findLocal namespaceId calendarId eventsExist links e.uid = some i) :
    Linked namespaceId calendarId (links.modify i e.relink) ↔
      (e.override = true → ∀ row, links[i]? = some row → row.override = true →
        ∀ (k : Nat) (r : Link), links[k]? = some r → r.Named namespaceId calendarId e.masterEventUid →
          row.master = some k) := by
  obtain ⟨row, at_i, here, -⟩ := findLocal_some found
  have named_then {k : Nat} {r : Link} {muid : Option Unicode} :
      (if i = k then e.relink r else r).Named namespaceId calendarId muid ↔
        r.Named namespaceId calendarId muid := by
    split
    · exact Link.relink_named muid e r
    · rfl
  obtain ⟨namespace_, calendar, -, -, override, master, muid⟩ := e.relink_eq row
  constructor
  · intro linked' e_override row' at_i' row_override k r at_k named
    obtain rfl := Option.some.inj (at_i.symm.trans at_i')
    rw [row_override, e_override, Bool.and_true, if_pos rfl] at muid
    have kept := linked' i (e.relink row) (getElem?_relinked.mpr ⟨row, at_i, by rw [if_pos rfl]⟩)
      (by simpa [Link.here, namespace_, calendar] using here) (override.trans row_override) k _
      (getElem?_relinked.mpr ⟨r, at_k, rfl⟩) (by rw [muid]; exact named_then.mpr named)
    rwa [master] at kept
  · intro settled j o' at_j o_here o_override k r' at_k named
    obtain ⟨o, at_o, rfl⟩ := getElem?_relinked.mp at_j
    obtain ⟨r, at_r, rfl⟩ := getElem?_relinked.mp at_k
    rw [named_then] at named
    by_cases same : i = j
    · subst same
      obtain rfl := Option.some.inj (at_i.symm.trans at_o)
      rw [if_pos rfl] at o_override named ⊢
      rw [override] at o_override
      rw [master]
      rw [muid, o_override, Bool.true_and] at named
      split at named
      next e_override => exact settled e_override row at_i o_override k r at_r named
      next => exact linked i row at_i here o_override k r at_r named
    · rw [if_neg same] at o_here o_override named ⊢
      exact linked j o at_o o_here o_override k r at_r named

theorem Stored.modify (stored : Stored links) (e : Link) (i : Nat) : Stored (links.modify i e.relink) := by
  have kept {l : Link} (mem : l ∈ links.modify i e.relink) :
      ∃ old ∈ links, l.namespace_ = old.namespace_ ∧ l.master = old.master := by
    obtain ⟨k, at_k⟩ := List.mem_iff_getElem?.mp mem
    obtain ⟨old, at_old, rfl⟩ := getElem?_relinked.mp at_k
    refine ⟨old, List.mem_of_getElem? at_old, ?_⟩
    split
    · obtain ⟨namespace_, -, -, -, -, master, -⟩ := e.relink_eq old
      exact ⟨namespace_, master⟩
    · exact ⟨rfl, rfl⟩
  constructor
  · intro l mem
    obtain ⟨old, old_mem, namespace_, -⟩ := kept mem
    rw [namespace_]
    exact stored.placed old old_mem
  · intro l mem m key
    obtain ⟨old, old_mem, -, master⟩ := kept mem
    rw [List.length_modify]
    exact stored.keyed old old_mem m (master.symm.trans key)

theorem Stored.concat (stored : Stored links) {row : Link} (placed : row.namespace_ ≠ none)
    (keyed : ∀ m, row.master = some m → m < links.length) : Stored (links ++ [row]) := by
  constructor
  · intro l mem
    rcases List.mem_append.mp mem with mem | mem
    · exact stored.placed l mem
    · rwa [List.mem_singleton.mp mem]
  · intro l mem m key
    rw [List.length_append]
    rcases List.mem_append.mp mem with mem | mem
    · exact Nat.lt_add_right _ (stored.keyed l mem m key)
    · exact Nat.lt_add_right _ (keyed m (by rwa [← List.mem_singleton.mp mem]))

theorem Stored.concat_claimed (stored : Stored links) (claimed : Link → Bool) {row : Link}
    (placed : row.namespace_ ≠ none) (no_master : row.master = none) :
    Stored ((links.map fun o => if claimed o then { o with master := some links.length } else o) ++ [row]) := by
  constructor
  · intro l mem
    rcases List.mem_append.mp mem with mem | mem
    · obtain ⟨o, o_mem, rfl⟩ := List.mem_map.mp mem
      have o_placed := stored.placed o o_mem
      split <;> exact o_placed
    · rwa [List.mem_singleton.mp mem]
  · intro l mem m key
    rw [List.length_append, List.length_map, List.length_singleton]
    rcases List.mem_append.mp mem with mem | mem
    · obtain ⟨o, o_mem, rfl⟩ := List.mem_map.mp mem
      split at key
      · exact (Option.some.inj key) ▸ Nat.lt_succ_self _
      · exact Nat.lt_succ_of_lt (stored.keyed o o_mem m key)
    · rw [List.mem_singleton.mp mem, no_master] at key
      cases key

theorem findMasterLink_lt {m : Nat} (found : findMasterLink namespaceId calendarId links e = some m) :
    m < links.length := by
  obtain ⟨uid, -, first⟩ := Option.bind_eq_some_iff.mp found
  exact (List.findIdx?_eq_some_iff_getElem.mp first).1

theorem Stored.arrive (stored : Stored links) (no_master : e.master = none) :
    Stored (arrive namespaceId calendarId eventsExist links e) := by
  have placed : (e.newRow namespaceId calendarId).namespace_ ≠ none := by simp [Link.newRow]
  have keyed (m : Nat) (key : (e.newRow namespaceId calendarId).master = some m) : m < links.length := by
    simp [Link.newRow, no_master] at key
  unfold Events.arrive
  split
  next i found => exact stored.modify e i
  next =>
    simp only
    split
    · exact stored.concat_claimed _ placed no_master
    · split
      · exact stored.concat (by simp [Link.newRow]) fun m key => findMasterLink_lt key
      · exact stored.concat placed keyed

/-- Rows that are neither recurring nor overrides have no part in links. -/
theorem linked_concat_plain (row : Link) (no_master : row.recurring = false)
    (no_override : row.override = false) :
    Linked namespaceId calendarId (links ++ [row]) ↔ Linked namespaceId calendarId links := by
  constructor
  · intro linked j o at_j here override k r at_k named
    exact linked j o (getElem?_concat.mpr (.inl at_j)) here override k r (getElem?_concat.mpr (.inl at_k)) named
  · intro linked j o at_j here override k r at_k named
    rcases getElem?_concat.mp at_j with at_j | ⟨-, rfl⟩
    · rcases getElem?_concat.mp at_k with at_k | ⟨-, rfl⟩
      · exact linked j o at_j here override k r at_k named
      · exact absurd named.2.1 (by simp [no_master])
    · simp [no_override] at override

theorem linked_concat_override (linked : Linked namespaceId calendarId links)
    (row : Link) (no_master : row.recurring = false) (here : row.here namespaceId calendarId = true)
    (override : row.override = true) :
    Linked namespaceId calendarId (links ++ [row]) ↔
      ∀ (k : Nat) (r : Link), links[k]? = some r → r.Named namespaceId calendarId row.masterEventUid →
        row.master = some k := by
  constructor
  · intro linked' k r at_k named
    exact linked' links.length row (getElem?_concat.mpr (.inr ⟨rfl, rfl⟩)) here override k r
      (getElem?_concat.mpr (.inl at_k)) named
  · intro found j o at_j o_here o_override k r at_k named
    rcases getElem?_concat.mp at_k with at_k | ⟨-, rfl⟩
    · rcases getElem?_concat.mp at_j with at_j | ⟨-, rfl⟩
      · exact linked j o at_j o_here o_override k r at_k named
      · exact found k r at_k named
    · exact absurd named.2.1 (by simp [no_master])

/-- The query for a master finds every event that the override names if and only if it names no two
and none of another source. -/
theorem findMasterLink_iff : (∀ (k : Nat) (r : Link), links[k]? = some r →
      r.Named namespaceId calendarId e.masterEventUid →
        findMasterLink namespaceId calendarId links e = some k) ↔
    ∀ (k : Nat) (r : Link), links[k]? = some r → r.Named namespaceId calendarId e.masterEventUid →
      r.source = e.source ∧ ∀ (k' : Nat) (r' : Link), links[k']? = some r' →
        r'.Named namespaceId calendarId e.masterEventUid → k' = k := by
  constructor
  · intro finds k r at_k named
    have found := finds k r at_k named
    refine ⟨?_, fun k' r' at_k' named' => ?_⟩
    · obtain ⟨uid, -, first⟩ := Option.bind_eq_some_iff.mp found
      obtain ⟨inside, is_master, -⟩ := List.findIdx?_eq_some_iff_getElem.mp first
      obtain ⟨_, rfl⟩ := List.getElem?_eq_some_iff.mp at_k
      simp only [Bool.and_eq_true, decide_eq_true_eq] at is_master
      exact is_master.2
    · exact Option.some.inj ((finds k' r' at_k' named').symm.trans found)
  · intro alone k r at_k named
    obtain ⟨here, recurring, uid⟩ := named
    obtain ⟨source, unique⟩ := alone k r at_k ⟨here, recurring, uid⟩
    rw [findMasterLink, uid, Option.bind_some]
    cases first : links.findIdx? fun m => m.recurring && m.here namespaceId calendarId &&
        m.uid = r.uid && m.source = e.source with
    | none =>
      have absent := List.findIdx?_eq_none_iff.mp first r (List.mem_of_getElem? at_k)
      simp [here, recurring, source] at absent
    | some k' =>
      obtain ⟨inside, is_master, -⟩ := List.findIdx?_eq_some_iff_getElem.mp first
      simp only [Bool.and_eq_true, decide_eq_true_eq] at is_master
      obtain ⟨⟨⟨recurring', here'⟩, uid'⟩, -⟩ := is_master
      rw [unique k' links[k'] (List.getElem?_eq_getElem inside) ⟨here', recurring', by rw [uid, uid']⟩]

theorem linked_concat_recurring (linked : Linked namespaceId calendarId links) (stored : Stored links)
    (e row : Link)
    (recurring : row.recurring = true) (no_override : row.override = false)
    (here : row.here namespaceId calendarId = true) (uid : row.uid = e.uid) :
    Linked namespaceId calendarId ((links.map fun o =>
        if e.linkable namespaceId calendarId o then { o with master := some links.length } else o) ++ [row]) ↔
      ∀ o ∈ links, o.here namespaceId calendarId = true → o.override = true →
        o.masterEventUid = some e.uid → o.source = e.source ∧ o.master = none := by
  set claimed : Link → Link := fun o =>
    if e.linkable namespaceId calendarId o then { o with master := some links.length } else o with claimed_def
  have columns (o : Link) : (claimed o).here namespaceId calendarId = o.here namespaceId calendarId ∧
      (claimed o).override = o.override ∧ (claimed o).masterEventUid = o.masterEventUid ∧
      ∀ muid, (claimed o).Named namespaceId calendarId muid ↔ o.Named namespaceId calendarId muid := by
    simp only [claimed_def]
    split <;> exact ⟨rfl, rfl, rfl, fun _ => Iff.rfl⟩
  have linkable {o : Link} : e.linkable namespaceId calendarId o = true ↔ o.override = true ∧
      o.here namespaceId calendarId = true ∧ o.masterEventUid = some e.uid ∧ o.source = e.source ∧
        o.master = none := by
    simp only [Link.linkable, Bool.and_eq_true, decide_eq_true_eq, and_assoc]
  have at_end : (links.map claimed).length = links.length := List.length_map _
  constructor
  · intro linked' o mem o_here o_override muid
    obtain ⟨j, at_j⟩ := List.mem_iff_getElem?.mp mem
    obtain ⟨same_here, same_override, same_muid, -⟩ := columns o
    have kept := linked' j (claimed o) (getElem?_concat.mpr (.inl (by simp [at_j])))
      (same_here.trans o_here) (same_override.trans o_override) links.length row
      (getElem?_concat.mpr (.inr ⟨at_end.symm, rfl⟩)) ⟨here, recurring, by rw [same_muid, muid, uid]⟩
    by_cases taken : e.linkable namespaceId calendarId o = true
    · obtain ⟨-, -, -, source, no_master⟩ := linkable.mp taken
      exact ⟨source, no_master⟩
    · simp only [claimed_def, if_neg taken] at kept
      exact absurd (stored.keyed o mem _ kept) (lt_irrefl _)
  · intro free j o' at_j o_here o_override k r' at_k named
    rcases getElem?_concat.mp at_j with at_j | ⟨-, rfl⟩
    · rw [List.getElem?_map] at at_j
      obtain ⟨o, at_o, rfl⟩ := Option.map_eq_some_iff.mp at_j
      obtain ⟨same_here, same_override, same_muid, -⟩ := columns o
      rw [same_here] at o_here
      rw [same_override] at o_override
      rw [same_muid] at named
      rcases getElem?_concat.mp at_k with before | ⟨last, rfl⟩
      · rw [List.getElem?_map] at before
        obtain ⟨r, at_r, rfl⟩ := Option.map_eq_some_iff.mp before
        have has_master := linked j o at_o o_here o_override k r at_r (((columns r).2.2.2 _).mp named)
        have settled : ¬e.linkable namespaceId calendarId o = true := by
          rw [linkable]
          simp [has_master]
        simp only [claimed_def, if_neg settled, has_master]
      · have muid : o.masterEventUid = some e.uid := named.2.2.trans (congrArg some uid)
        obtain ⟨source, no_master⟩ := free o (List.mem_of_getElem? at_o) o_here o_override muid
        have taken := linkable.mpr ⟨o_override, o_here, muid, source, no_master⟩
        rw [last, at_end]
        simp only [claimed_def, if_pos taken]
    · simp [no_override] at o_override

/-- One arrival keeps all links exactly if it is sound. -/
theorem linked_arrive (linked : Linked namespaceId calendarId links) (stored : Stored links)
    (one_class : e.recurring = true → e.override = false) :
    Linked namespaceId calendarId (arrive namespaceId calendarId eventsExist links e) ↔
      Sound namespaceId calendarId eventsExist links e := by
  unfold arrive Sound
  split
  next i found => exact linked_modify linked found
  next =>
    have here : (e.newRow namespaceId calendarId).here namespaceId calendarId = true := by
      simp [Link.here, Link.newRow]
    by_cases recurring : e.recurring = true
    · have no_override := one_class recurring
      rw [if_pos recurring, linked_concat_recurring linked stored e
        (e.newRow namespaceId calendarId) recurring no_override here rfl]
      simp [recurring, no_override]
    · rw [Bool.not_eq_true] at recurring
      rw [if_neg (by simp [recurring])]
      by_cases override : e.override = true
      · rw [if_pos override, linked_concat_override linked
          { e.newRow namespaceId calendarId with
            master := findMasterLink namespaceId calendarId links e } recurring here override]
        refine findMasterLink_iff.trans ?_
        simp [Link.newRow, recurring, override]
      · rw [if_neg override]
        rw [Bool.not_eq_true] at override
        rw [linked_concat_plain (e.newRow namespaceId calendarId) recurring override]
        simp [linked, recurring, override]

end SyncEngine.Events
