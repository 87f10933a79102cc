import Mathlib.Data.List.Induction
import SyncEngine.Transactions.DeltaReader
import SyncEngine.Util.ChangeLog

/-! A client that keeps a copy of the objects of a namespace by the deltas that it reads, beside any
number of sessions that change them. A session locks the rows that it writes until it is over, and
records what it changes. -/
namespace SyncEngine
namespace DeltaReader
open DeltaSync ChangeLog
variable {A : Type}

/-! ## The copy -/

/-- What a client has of the objects of a class, by their public ids. -/
abbrev Copy (A : Type) : Type := ObjectClass → String → Option A

/-- The object that a delta is about. -/
def nameOf (delta : Delta A) : ObjectClass × String := (transactionObjects delta.object, delta.id)

/-- Created and modified objects are stored with their attributes, deleted ones are dropped. -/
def Copy.apply (copy : Copy A) (delta : Delta A) : Copy A := fun objectClass id =>
  if nameOf delta = (objectClass, id) then delta.attributes else copy objectClass id

def Copy.follow (copy : Copy A) (delivered : List (Nat × Delta A)) : Copy A :=
  delivered.foldl (fun copy entry => copy.apply entry.2) copy

theorem Copy.follow_lastFor (copy : Copy A) (delivered : List (Nat × Delta A)) (objectClass : ObjectClass)
    (id : String) : copy.follow delivered objectClass id =
      ((lastFor (fun entry : Nat × Delta A => nameOf entry.2) delivered (objectClass, id)).map
        fun entry => entry.2.attributes).getD (copy objectClass id) := by
  induction delivered using List.reverseRecOn with
  | nil => rfl
  | append_singleton delivered entry ih =>
    rw [Copy.follow, List.foldl_append, List.foldl_cons, List.foldl_nil, Copy.apply, lastFor_append]
    by_cases own : nameOf entry.2 = (objectClass, id)
    · simp [lastFor, own]
    · rw [if_neg own, ← Copy.follow, ih]
      simp [lastFor, own]

/-! ## Rows, and who may write them -/

/-- The row that a transaction is about. -/
def rowOf (trx : Transaction) : ObjectClass × Nat := (transactionObjects trx.objectType, trx.recordId)

theorem rowOf_of_key {trx other : Transaction} (key : other.key = trx.key) : rowOf other = rowOf trx := by
  obtain ⟨objectType, rest⟩ := Prod.mk.inj key
  obtain ⟨record, -⟩ := Prod.mk.inj rest
  rw [rowOf, rowOf, objectType, record]

/-- What the reader can be shown of a row. -/
def shown (reader : Reader) (objects : ObjectClass → Nat → Option (Object A)) (row : ObjectClass × Nat) :
    Option A :=
  ((objects row.1 row.2).filter fun obj =>
    obj.namespaceId = reader.namespaceId ∧ (row.1 = .message → obj.thread)).map Object.attributes

/-- The reader asks for all types of this class. -/
def Reader.Follows (reader : Reader) (objectClass : ObjectClass) : Prop :=
  ∀ objectType, transactionObjects objectType = objectClass → reader.filter.Selects objectType

/-- Of these transactions no other one that the reader asks for is later for the row. -/
structure LastOf (reader : Reader) (trxs : List Transaction) (trx : Transaction) : Prop where
  member : trx ∈ trxs
  wanted : reader.Wants trx
  largest : ∀ other ∈ trxs, reader.Wants other → rowOf other = rowOf trx → other.id ≤ trx.id

/-- What the commit of a session changes for the reader has a transaction, and the last one for a row says
that it is deleted exactly if there is nothing to show of it. -/
structure Recorded (reader : Reader) (w : World A) (session : Nat)
    (objects : ObjectClass → Nat → Option (Object A)) : Prop where
  changed : ∀ row, reader.Follows row.1 → shown reader objects row ≠ shown reader w.objects row →
    ∃ trx ∈ w.log.flushed session, reader.Wants trx ∧ rowOf trx = row
  tells : ∀ trx, LastOf reader (w.log.flushed session) trx → reader.Follows (rowOf trx).1 →
    (shown reader objects (rowOf trx) = none ↔ trx.command = .delete)

/-- No other session has written the row and is not over. -/
def Unlocked (w : World A) (session : Nat) (trx : Transaction) : Prop :=
  ∀ row ∈ w.log.rows, row.session ≠ none → rowOf row.trx = rowOf trx → row.session = some session

/-- `publicId` is that of a row. -/
inductive Move (reader : Reader) (publicId : ObjectClass → Nat → String) : World A → World A → Prop where
  | flush (session : Nat) (trx : Transaction) :
      trx.objectPublicId = publicId (rowOf trx).1 (rowOf trx).2 → Unlocked w session trx →
        Move reader publicId w { w with log := w.log.flush session trx }
  | commit (session : Nat) (objects : ObjectClass → Nat → Option (Object A)) :
      Recorded reader w session objects → Move reader publicId w (w.commit session objects)
  | rollback (session : Nat) : Move reader publicId w { w with log := w.log.rollback session }
  | read : Move reader publicId w (w.read reader)

theorem Move.step {reader : Reader} {publicId : ObjectClass → Nat → String} {w later : World A}
    (move : Move reader publicId w later) : Step reader w later := by
  cases move with
  | flush session trx => exact .flush session trx
  | commit session objects => exact .commit session objects
  | rollback session => exact .rollback session
  | read => exact .read

/-- The client has copied all there was when its cursor was the last transaction. -/
structure Begins (reader : Reader) (publicId : ObjectClass → Nat → String) (copy : Copy A) (start : Nat)
    (log : Log) (objects : ObjectClass → Nat → Option (Object A)) : Prop where
  committed : ∀ row ∈ log.rows, row.session = none ∧
    row.trx.objectPublicId = publicId (rowOf row.trx).1 (rowOf row.trx).2
  cursor : start < log.nextId
  read : ∀ trx ∈ log.visible, reader.Wants trx → trx.id ≤ start
  copied : ∀ row, reader.Follows row.1 → copy row.1 (publicId row.1 row.2) = shown reader objects row

/-! ## What every move keeps -/

section Keeps
variable {reader : Reader} {publicId : ObjectClass → Nat → String} {copy : Copy A} {start : Nat}
  {w later : World A} {trx : Transaction} {entry : Nat × Delta A}

/-- The deltas of the page that is being read. -/
def World.pending (w : World A) : List (Nat × Delta A) :=
  match w.phase with
  | .formatting _ _ _ results => results
  | _ => []

/-- The delta is that of a transaction, and shows the row as it is unless there is a later one. -/
def Fits (reader : Reader) (start : Nat) (w : World A) (entry : Nat × Delta A) : Prop :=
  ∃ trx ∈ w.log.visible, reader.Wants trx ∧ start < trx.id ∧ trx.id = entry.1 ∧ IsDelta trx entry.2 ∧
    (LastOf reader w.log.visible trx → reader.Follows (rowOf trx).1 →
      entry.2.attributes = shown reader w.objects (rowOf trx))

def Overtaken (reader : Reader) (w : World A) (trx : Transaction) : Prop :=
  ∃ other ∈ w.log.visible, reader.Wants other ∧ rowOf other = rowOf trx ∧ trx.id < other.id

structure Keeps (reader : Reader) (publicId : ObjectClass → Nat → String) (copy : Copy A) (start : Nat)
    (w : World A) : Prop where
  named : ∀ row ∈ w.log.rows, row.trx.objectPublicId = publicId (rowOf row.trx).1 (rowOf row.trx).2
  cursor : start < w.log.nextId
  fresh : ∀ row ∈ w.log.rows, row.session ≠ none → start < row.trx.id
  locked : ∀ row ∈ w.log.rows, row.session ≠ none → ∀ other ∈ w.log.rows, rowOf other.trx = rowOf row.trx →
    other.session = row.session ∨ other.session = none ∧ other.trx.id < row.trx.id
  tells : ∀ trx, LastOf reader w.log.visible trx → start < trx.id → reader.Follows (rowOf trx).1 →
    (shown reader w.objects (rowOf trx) = none ↔ trx.command = .delete)
  untouched : ∀ row, reader.Follows row.1 →
    (∀ trx ∈ w.log.visible, reader.Wants trx → rowOf trx = row → trx.id ≤ start) →
      copy row.1 (publicId row.1 row.2) = shown reader w.objects row
  after : start ≤ w.base
  asked : ∀ pointer transactions types results, w.phase = .formatting pointer transactions types results →
    ∀ trx ∈ transactions, reader.Wants trx
  sorted : w.delivered.Pairwise fun a b => a.1 ≤ b.1
  behind : ∀ entry ∈ w.delivered, entry.1 ≤ w.base
  fits : ∀ entry ∈ w.delivered ++ w.pending, Fits reader start w entry
  overtaken : ∀ trx ∈ w.missing, reader.Follows (rowOf trx).1 → Overtaken reader w trx

theorem keeps_starting {log : Log} {objects : ObjectClass → Nat → Option (Object A)}
    (begins : Begins reader publicId copy start log objects) :
    Keeps reader publicId copy start (starting log objects start) where
  named row member := (begins.committed row member).2
  cursor := begins.cursor
  fresh row member open_ := absurd (begins.committed row member).1 open_
  locked row member open_ := absurd (begins.committed row member).1 open_
  tells trx last after := absurd (begins.read trx last.member last.wanted) (Nat.not_le.mpr after)
  untouched row followed _ := begins.copied row followed
  after := Nat.le_refl _
  asked _ _ _ _ other := by cases other
  sorted := .nil
  behind := by simp [starting]
  fits := by simp [starting, World.pending]
  overtaken := by simp [starting]

/-! ### Sessions -/

theorem LastOf.subset {trxs fewer : List Transaction} (last : LastOf reader trxs trx) (member : trx ∈ fewer)
    (subset : fewer ⊆ trxs) : LastOf reader fewer trx :=
  ⟨member, last.wanted, fun other among => last.largest other (subset among)⟩

theorem Keeps.flush (keeps : Keeps reader publicId copy start w) {session : Nat}
    (named : trx.objectPublicId = publicId (rowOf trx).1 (rowOf trx).2) (unlocked : Unlocked w session trx) :
    Keeps reader publicId copy start { w with log := w.log.flush session trx } where
  named row member := by
    rcases List.mem_append.mp member with old | new
    · exact keeps.named row old
    · rw [List.mem_singleton.mp new]
      exact named
  cursor := Nat.lt_succ_of_lt keeps.cursor
  fresh row member open_ := by
    rcases List.mem_append.mp member with old | new
    · exact keeps.fresh row old open_
    · rw [List.mem_singleton.mp new]
      exact keeps.cursor
  locked row member open_ other among same := by
    rcases List.mem_append.mp member with old | new <;> rcases List.mem_append.mp among with before | now
    · exact keeps.locked row old open_ other before same
    · rw [List.mem_singleton.mp now] at same ⊢
      exact .inl (unlocked row old open_ same.symm).symm
    · rw [List.mem_singleton.mp new] at same ⊢
      by_cases ended : other.session = none
      · exact .inr ⟨ended, w.log.below other before⟩
      · exact .inl (unlocked other before ended same)
    · rw [List.mem_singleton.mp new, List.mem_singleton.mp now]
      exact .inl rfl
  tells := by simpa using keeps.tells
  untouched := by simpa using keeps.untouched
  after := keeps.after
  asked := keeps.asked
  sorted := keeps.sorted
  behind := keeps.behind
  fits entry member := by simpa [Fits] using keeps.fits entry member
  overtaken trx member followed := by simpa [Overtaken] using keeps.overtaken trx member followed

theorem Keeps.rollback (keeps : Keeps reader publicId copy start w) (session : Nat) :
    Keeps reader publicId copy start { w with log := w.log.rollback session } where
  named row member := keeps.named row (List.mem_of_mem_filter member)
  cursor := keeps.cursor
  fresh row member := keeps.fresh row (List.mem_of_mem_filter member)
  locked row member open_ other among :=
    keeps.locked row (List.mem_of_mem_filter member) open_ other (List.mem_of_mem_filter among)
  tells := by simpa using keeps.tells
  untouched := by simpa using keeps.untouched
  after := keeps.after
  asked := keeps.asked
  sorted := keeps.sorted
  behind := keeps.behind
  fits entry member := by simpa [Fits] using keeps.fits entry member
  overtaken trx member followed := by simpa [Overtaken] using keeps.overtaken trx member followed

theorem mem_commit_rows {log : Log} {session : Nat} {row : Row} (member : row ∈ (log.commit session).rows) :
    ∃ old ∈ log.rows, row.trx = old.trx ∧
      (row.session = none ∧ old.session = some session ∨
        row.session = old.session ∧ old.session ≠ some session) := by
  obtain ⟨old, among, rfl⟩ := List.mem_map.mp member
  refine ⟨old, among, ?_⟩
  split
  · next own => exact ⟨rfl, .inl ⟨rfl, own⟩⟩
  · next other => exact ⟨rfl, .inr ⟨rfl, other⟩⟩

theorem mem_visible {log : Log} : trx ∈ log.visible ↔ ∃ row ∈ log.rows, row.session = none ∧ row.trx = trx := by
  simp [Log.visible, and_assoc]

theorem mem_flushed {log : Log} {session : Nat} :
    trx ∈ log.flushed session ↔ ∃ row ∈ log.rows, row.session = some session ∧ row.trx = trx := by
  simp [Log.flushed, and_assoc]

/-- What a session has flushed for a row is later than what is committed for it. -/
theorem Keeps.later_flushed (keeps : Keeps reader publicId copy start w) {session : Nat}
    {other : Transaction} (seen : trx ∈ w.log.visible) (new : other ∈ w.log.flushed session)
    (same : rowOf other = rowOf trx) : trx.id < other.id := by
  obtain ⟨row, member, committed, rfl⟩ := mem_visible.mp seen
  obtain ⟨open_, among, own, rfl⟩ := mem_flushed.mp new
  rcases keeps.locked open_ among (by simp [own]) row member same.symm with equal | ⟨-, below⟩
  · rw [committed, own] at equal
    cases equal
  · exact below

/-- Of a row without a transaction in it a commit changes nothing. -/
theorem Recorded.same {session : Nat} {objects : ObjectClass → Nat → Option (Object A)}
    (recorded : Recorded reader w session objects) {row : ObjectClass × Nat} (followed : reader.Follows row.1)
    (none_ : ∀ trx ∈ w.log.flushed session, reader.Wants trx → rowOf trx ≠ row) :
    shown reader objects row = shown reader w.objects row := by
  by_contra changed
  obtain ⟨trx, member, wanted, same⟩ := recorded.changed row followed changed
  exact none_ trx member wanted same

/-- The last transaction for a row, once a session is committed, is the last one of the session for it, or
the session has none for the row. -/
theorem Keeps.last_commit (keeps : Keeps reader publicId copy start w) {session : Nat}
    (last : LastOf reader (w.log.commit session).visible trx) :
    LastOf reader (w.log.flushed session) trx ∨ LastOf reader w.log.visible trx ∧
      ∀ other ∈ w.log.flushed session, reader.Wants other → rowOf other ≠ rowOf trx := by
  rcases Log.mem_visible_commit.mp last.member with seen | new
  · refine .inr ⟨last.subset seen fun _ old => Log.mem_visible_commit.mpr (.inl old), ?_⟩
    intro other among wanted same
    have below := last.largest other (Log.mem_visible_commit.mpr (.inr among)) wanted same
    exact absurd (keeps.later_flushed seen among same) (Nat.not_lt.mpr below)
  · exact .inl (last.subset new fun _ among => Log.mem_visible_commit.mpr (.inr among))

theorem Keeps.commit (keeps : Keeps reader publicId copy start w) {session : Nat}
    {objects : ObjectClass → Nat → Option (Object A)} (recorded : Recorded reader w session objects) :
    Keeps reader publicId copy start (w.commit session objects) where
  named row member := by
    obtain ⟨old, among, same, -⟩ := mem_commit_rows member
    rw [same]
    exact keeps.named old among
  cursor := keeps.cursor
  fresh row member open_ := by
    obtain ⟨old, among, same, ⟨ended, -⟩ | ⟨still, -⟩⟩ := mem_commit_rows member
    · exact absurd ended open_
    · rw [same]
      exact keeps.fresh old among (still ▸ open_)
  locked row member open_ other among same := by
    obtain ⟨mine, rows, trx, ⟨ended, -⟩ | ⟨still, apart⟩⟩ := mem_commit_rows member
    · exact absurd ended open_
    · obtain ⟨its, others, its_trx, state⟩ := mem_commit_rows among
      rw [trx, its_trx] at same ⊢
      rcases keeps.locked mine rows (still ▸ open_) its others same with equal | ⟨committed, below⟩
      · rcases state with ⟨-, own⟩ | ⟨unchanged, -⟩
        · exact absurd (equal.symm.trans own) apart
        · exact .inl (unchanged.trans (equal.trans still.symm))
      · rcases state with ⟨-, own⟩ | ⟨unchanged, -⟩
        · rw [committed] at own
          cases own
        · exact .inr ⟨unchanged.trans committed, below⟩
  tells trx last after followed := by
    rcases keeps.last_commit last with new | ⟨seen, none_⟩
    · exact recorded.tells trx new followed
    · change shown reader objects (rowOf trx) = none ↔ _
      rw [recorded.same followed none_]
      exact keeps.tells trx seen after followed
  untouched row followed old := by
    change _ = shown reader objects row
    rw [recorded.same followed]
    · exact keeps.untouched row followed fun trx seen => old trx (Log.mem_visible_commit.mpr (.inl seen))
    · intro trx new wanted same
      obtain ⟨open_, among, own, rfl⟩ := mem_flushed.mp new
      have before := old open_.trx (Log.mem_visible_commit.mpr (.inr new)) wanted same
      exact absurd (keeps.fresh open_ among (by simp [own])) (Nat.not_lt.mpr before)
  after := keeps.after
  asked := keeps.asked
  sorted := keeps.sorted
  behind := keeps.behind
  fits entry member := by
    obtain ⟨trx, seen, wanted, after, id, isDelta, shows⟩ := keeps.fits entry member
    refine ⟨trx, Log.mem_visible_commit.mpr (.inl seen), wanted, after, id, isDelta, fun last followed => ?_⟩
    rcases keeps.last_commit last with new | ⟨still, none_⟩
    · exact absurd (keeps.later_flushed seen new.member rfl) (Nat.lt_irrefl _)
    · exact (shows still followed).trans (recorded.same followed none_).symm
  overtaken trx member followed := by
    obtain ⟨other, seen, rest⟩ := keeps.overtaken trx member followed
    exact ⟨other, Log.mem_visible_commit.mpr (.inl seen), rest⟩

/-! ### The reader -/

/-- The reader has moved and changed no row. -/
theorem Keeps.moved (keeps : Keeps reader publicId copy start w) (log : later.log = w.log)
    (objects : later.objects = w.objects) (base : w.base ≤ later.base)
    (asked : ∀ pointer transactions types results,
      later.phase = .formatting pointer transactions types results → ∀ trx ∈ transactions, reader.Wants trx)
    (sorted : later.delivered.Pairwise fun a b => a.1 ≤ b.1)
    (behind : ∀ entry ∈ later.delivered, entry.1 ≤ later.base)
    (fits : ∀ entry ∈ later.delivered ++ later.pending, Fits reader start w entry)
    (overtaken : ∀ trx ∈ later.missing, reader.Follows (rowOf trx).1 → Overtaken reader w trx) :
    Keeps reader publicId copy start later where
  named := by rw [log]; exact keeps.named
  cursor := by rw [log]; exact keeps.cursor
  fresh := by rw [log]; exact keeps.fresh
  locked := by rw [log]; exact keeps.locked
  tells := by rw [log, objects]; exact keeps.tells
  untouched := by rw [log, objects]; exact keeps.untouched
  after := Nat.le_trans keeps.after base
  asked := asked
  sorted := sorted
  behind := behind
  fits entry member := by
    have fit := fits entry member
    rwa [Fits, log, objects]
  overtaken trx member followed := by
    have passed := overtaken trx member followed
    rwa [Overtaken, log]

theorem format_shown {delta : Delta A} (changed : trx.command ≠ .delete)
    (format : formatTransaction w.db reader.namespaceId trx = some delta) :
    delta.attributes = shown reader w.objects (rowOf trx) := by
  simp only [formatTransaction, if_neg changed] at format
  obtain ⟨obj, found, rfl⟩ := Option.map_eq_some_iff.mp format
  exact (congrArg (Option.map Object.attributes) found).symm

theorem format_none (gone : formatTransaction w.db reader.namespaceId trx = none) :
    trx.command ≠ .delete ∧ shown reader w.objects (rowOf trx) = none := by
  unfold formatTransaction at gone
  dsimp only at gone
  split at gone
  · cases gone
  · next changed =>
    exact ⟨changed, congrArg (Option.map Object.attributes) (Option.map_eq_none_iff.mp gone)⟩

/-- What is formatted by now shows the row as it is. -/
theorem Keeps.fits_format (keeps : Keeps reader publicId copy start w) {delta : Delta A}
    (seen : trx ∈ w.log.visible) (wanted : reader.Wants trx) (after : start < trx.id)
    (format : formatTransaction w.db reader.namespaceId trx = some delta) :
    Fits reader start w (trx.id, delta) := by
  refine ⟨trx, seen, wanted, after, rfl, isDelta_of_format format, fun last followed => ?_⟩
  by_cases deleted : trx.command = .delete
  · rw [(keeps.tells trx last after followed).mpr deleted]
    simp only [formatTransaction, if_pos deleted, Option.some.injEq] at format
    rw [← format]
  · exact format_shown deleted format

/-- The transactions of a row that is gone are not the last ones for it. -/
theorem Keeps.overtaken_format (keeps : Keeps reader publicId copy start w) (seen : trx ∈ w.log.visible)
    (wanted : reader.Wants trx) (after : start < trx.id) (followed : reader.Follows (rowOf trx).1)
    (gone : formatTransaction w.db reader.namespaceId trx = none) : Overtaken reader w trx := by
  by_contra last
  obtain ⟨changed, nothing⟩ := format_none gone
  have largest : LastOf reader w.log.visible trx := by
    refine ⟨seen, wanted, fun other among asked same => ?_⟩
    by_contra later
    exact last ⟨other, among, asked, same, Nat.not_le.mp later⟩
  exact changed ((keeps.tells trx largest after followed).mp nothing)

theorem Keeps.query (keeps : Keeps reader publicId copy start w) {pointer : Nat}
    (here : w.phase = .begun pointer) : Keeps reader publicId copy start (w.read reader) := by
  have base : w.base = pointer := by simp only [World.base, here]
  have pending : w.pending = [] := by simp only [World.pending, here]
  have behind := keeps.behind
  have fits := keeps.fits
  rw [pending] at fits
  rw [base] at behind
  unfold World.read
  rw [here]
  dsimp only
  split
  · refine keeps.moved rfl rfl ?_ ?_ keeps.sorted behind fits keeps.overtaken
    · exact base.le
    · intro _ _ _ _ other
      cases other
  · refine keeps.moved rfl rfl ?_ ?_ keeps.sorted behind fits keeps.overtaken
    · exact base.le
    · rintro _ _ _ _ ⟨⟩ trx member
      exact (mem_transactionsAfter_db.mp (List.mem_of_mem_take member)).2.2

theorem Keeps.format (keeps : Keeps reader publicId copy start w) (tracks : Tracks reader start w)
    {pointer : Nat} {transactions : List Transaction} {objectType : ObjectType} {types : List ObjectType}
    {results : List (Nat × Delta A)}
    (here : w.phase = .formatting pointer transactions (objectType :: types) results) :
    Keeps reader publicId copy start (w.read reader) := by
  have base : w.base = pointer := by simp only [World.base, here]
  have pending : w.pending = results := by simp only [World.pending, here]
  have reading := tracks.reading _ _ _ _ here
  have asked := keeps.asked _ _ _ _ here
  have inPage : ∀ trx ∈ (latestTrxs transactions).filter (·.objectType = objectType),
      trx ∈ w.log.visible ∧ reader.Wants trx ∧ start < trx.id := by
    intro trx member
    have among := (mem_latestTrxs.mp (List.mem_of_mem_filter member)).1
    obtain ⟨seen, after⟩ := reading.seen trx among
    exact ⟨seen, asked trx among, Nat.lt_of_le_of_lt (base ▸ keeps.after) after⟩
  unfold World.read
  rw [here]
  refine keeps.moved rfl rfl base.le ?_ keeps.sorted (base ▸ keeps.behind) ?_ ?_
  · rintro _ _ _ _ ⟨⟩
    exact asked
  · intro entry member
    rw [World.pending, ← List.append_assoc, ← pending] at member
    rcases List.mem_append.mp member with old | new
    · exact keeps.fits entry old
    · obtain ⟨trx, among, format⟩ := List.mem_filterMap.mp new
      obtain ⟨delta, formats, rfl⟩ := Option.map_eq_some_iff.mp format
      obtain ⟨seen, wanted, after⟩ := inPage trx among
      exact keeps.fits_format seen wanted after formats
  · intro trx member followed
    rcases List.mem_append.mp member with old | new
    · exact keeps.overtaken trx old followed
    · obtain ⟨among, gone⟩ := List.mem_filter.mp new
      obtain ⟨seen, wanted, after⟩ := inPage trx among
      exact keeps.overtaken_format seen wanted after followed (Option.isNone_iff_eq_none.mp gone)

theorem Keeps.finish (keeps : Keeps reader publicId copy start w) (tracks : Tracks reader start w)
    {pointer : Nat} {transactions : List Transaction} {results : List (Nat × Delta A)}
    (here : w.phase = .formatting pointer transactions [] results) :
    Keeps reader publicId copy start (w.read reader) := by
  have base : w.base = pointer := by simp only [World.base, here]
  have pending : w.pending = results := by simp only [World.pending, here]
  have reading := tracks.reading _ _ _ _ here
  have above : ∀ entry ∈ results, pointer < entry.1 := by
    intro entry member
    obtain ⟨trx, among, same⟩ := reading.origin entry member
    exact same ▸ (reading.seen trx among).2
  have behind := keeps.behind
  rw [base] at behind
  have : Std.Total fun a b : Nat × Delta A => a.1 ≤ b.1 := ⟨fun a b => Nat.le_total _ _⟩
  have : IsTrans (Nat × Delta A) fun a b => a.1 ≤ b.1 := ⟨fun _ _ _ => Nat.le_trans⟩
  have ordered := List.pairwise_insertionSort (fun a b : Nat × Delta A => a.1 ≤ b.1) results
  have subset : ∀ entry ∈ results.insertionSort (fun a b : Nat × Delta A => a.1 ≤ b.1), entry ∈ results :=
    fun entry member => (List.mem_insertionSort ..).mp member
  obtain ⟨final, found⟩ := Option.ne_none_iff_exists'.mp
    (fun none => reading.nonempty (List.getLast?_eq_none_iff.mp none))
  unfold World.read
  rw [here]
  dsimp only
  rw [found]
  split
  · rename_i id delta largest
    have last := subset _ (List.mem_of_getLast? largest)
    have upTo : ∀ entry ∈ results.insertionSort (fun a b : Nat × Delta A => a.1 ≤ b.1), entry.1 ≤ id := by
      obtain ⟨before, split⟩ := List.getLast?_eq_some_iff.mp largest
      rw [split] at ordered ⊢
      intro entry member
      rcases List.mem_append.mp member with earlier | same
      · exact (List.pairwise_append.mp ordered).2.2 entry earlier _ List.mem_cons_self
      · rw [List.mem_singleton.mp same]
    refine keeps.moved rfl rfl ?_ ?_ ?_ ?_ ?_ keeps.overtaken
    · exact base.trans_le (above _ last).le
    · intro _ _ _ _ other
      cases other
    · refine List.pairwise_append.mpr ⟨keeps.sorted, ordered, fun old among new member => ?_⟩
      exact Nat.le_trans (behind old among) (above new (subset new member)).le
    · intro entry member
      rcases List.mem_append.mp member with old | new
      · exact Nat.le_trans (behind entry old) (above _ last).le
      · exact upTo entry new
    · intro entry member
      refine keeps.fits entry ?_
      rw [pending]
      change entry ∈ (w.delivered ++ _) ++ [] at member
      rw [List.append_nil] at member
      rcases List.mem_append.mp member with old | new
      · exact List.mem_append_left _ old
      · exact List.mem_append_right _ (subset entry new)
  · rename_i none same
    cases same
    have after := (reading.seen final (List.mem_of_getLast? found)).2
    refine keeps.moved rfl rfl ?_ ?_ keeps.sorted ?_ ?_ keeps.overtaken
    · exact base.trans_le after.le
    · intro _ _ _ _ other
      cases other
    · exact fun entry member => Nat.le_trans (behind entry member) after.le
    · intro entry member
      change entry ∈ w.delivered ++ [] at member
      rw [List.append_nil] at member
      exact keeps.fits entry (List.mem_append_left _ member)
  · exact keeps

theorem Keeps.read (keeps : Keeps reader publicId copy start w) (tracks : Tracks reader start w) :
    Keeps reader publicId copy start (w.read reader) := by
  cases here : w.phase with
  | idle =>
    have base : w.base = w.pointer := by simp only [World.base, here]
    have pending : w.pending = [] := by simp only [World.pending, here]
    have behind := keeps.behind
    have fits := keeps.fits
    rw [pending] at fits
    rw [base] at behind
    unfold World.read
    rw [here]
    dsimp only
    split
    · exact keeps
    · split
      · exact keeps
      · refine keeps.moved rfl rfl base.le ?_ keeps.sorted behind fits keeps.overtaken
        intro _ _ _ _ other
        cases other
  | begun pointer => exact keeps.query here
  | formatting pointer transactions types results =>
    cases types with
    | nil => exact keeps.finish tracks here
    | cons objectType types => exact keeps.format tracks here

theorem Keeps.move (keeps : Keeps reader publicId copy start w) (tracks : Tracks reader start w)
    (move : Move reader publicId w later) : Keeps reader publicId copy start later := by
  cases move with
  | flush session trx named unlocked => exact keeps.flush named unlocked
  | commit session objects recorded => exact keeps.commit recorded
  | rollback session => exact keeps.rollback session
  | read => exact keeps.read tracks

/-! ### Runs -/

theorem moves_keep {log : Log} {objects : ObjectClass → Nat → Option (Object A)}
    (begins : Begins reader publicId copy start log objects)
    (moves : Relation.ReflTransGen (Move reader publicId) (starting log objects start) w) :
    Reaches reader log objects start w ∧ Keeps reader publicId copy start w := by
  induction moves with
  | refl => exact ⟨.refl, keeps_starting begins⟩
  | tail _ move ih => exact ⟨ih.1.tail move.step, ih.2.move ih.1.tracks move⟩

theorem read_late (w : World A) : (w.read reader).late = w.late := by
  unfold World.read
  cases w.phase with
  | idle =>
    dsimp only
    split
    · rfl
    · split <;> rfl
  | begun pointer =>
    dsimp only
    split <;> rfl
  | formatting pointer transactions types results =>
    cases types with
    | nil =>
      dsimp only
      split <;> rfl
    | cons objectType types => rfl

theorem Keeps.reads (keeps : Keeps reader publicId copy start w) (tracks : Tracks reader start w)
    (count : Nat) : Keeps reader publicId copy start (w.reads reader count) ∧
      (w.reads reader count).late = w.late := by
  induction count generalizing w with
  | zero => exact ⟨keeps, rfl⟩
  | succ count ih =>
    obtain ⟨still, late⟩ := ih (keeps.read tracks) tracks.read
    rw [World.reads_succ]
    exact ⟨still, late.trans (read_late w)⟩

/-! ### The copy of a client that has caught up -/

open scoped Classical in
theorem exists_lastOf {trxs : List Transaction} (member : trx ∈ trxs) (wanted : reader.Wants trx) :
    ∃ last, LastOf reader trxs last ∧ rowOf last = rowOf trx ∧ trx.id ≤ last.id := by
  cases found : (trxs.filter fun other => reader.Wants other ∧ rowOf other = rowOf trx).argmax
      Transaction.id with
  | none =>
    have empty := List.argmax_eq_none.mp found
    exact absurd (decide_eq_true ⟨wanted, rfl⟩) (List.filter_eq_nil_iff.mp empty trx member)
  | some last =>
    obtain ⟨among, asked⟩ := List.mem_filter.mp (List.argmax_mem found)
    obtain ⟨asked, same⟩ := of_decide_eq_true asked
    refine ⟨last, ⟨among, asked, fun other inside wants row => ?_⟩, same, ?_⟩
    · exact List.le_of_mem_argmax
        (List.mem_filter.mpr ⟨inside, decide_eq_true ⟨wants, row.trans same⟩⟩) found
    · exact List.le_of_mem_argmax (List.mem_filter.mpr ⟨member, decide_eq_true ⟨wanted, rfl⟩⟩) found

theorem visible_ext {other : Transaction} (seen : trx ∈ w.log.visible) (member : other ∈ w.log.visible)
    (same : other.id = trx.id) : other = trx :=
  List.inj_on_of_nodup_map w.log.visible_unique member seen same

/-- A delta of the row is that of one of its transactions. -/
theorem Keeps.own_entry (keeps : Keeps reader publicId copy start w)
    (injective : ∀ objectClass, Function.Injective (publicId objectClass)) {row : ObjectClass × Nat}
    (member : entry ∈ w.delivered) (named : nameOf entry.2 = (row.1, publicId row.1 row.2)) :
    ∃ trx ∈ w.log.visible, reader.Wants trx ∧ start < trx.id ∧ trx.id = entry.1 ∧ rowOf trx = row ∧
      (LastOf reader w.log.visible trx → reader.Follows row.1 →
        entry.2.attributes = shown reader w.objects row) := by
  obtain ⟨trx, seen, wanted, after, id, isDelta, shows⟩ := keeps.fits entry (List.mem_append_left _ member)
  obtain ⟨inRow, among, -, rfl⟩ := mem_visible.mp seen
  have same : rowOf inRow.trx = row := by
    obtain ⟨objectClass, publicName⟩ := Prod.mk.inj named
    have its_class : (rowOf inRow.trx).1 = row.1 := by
      rw [← objectClass, isDelta.1]
      rfl
    rw [isDelta.2.2.1, keeps.named inRow among, its_class] at publicName
    exact Prod.ext its_class (injective _ publicName)
  exact ⟨inRow.trx, seen, wanted, after, id, same, same ▸ shows⟩

/-- The last transaction for a row is behind the pointer, and its delta has been delivered. -/
theorem Keeps.last_delivered (keeps : Keeps reader publicId copy start w) (tracks : Tracks reader start w)
    (onTime : ∀ trx ∈ w.late, ¬reader.Wants trx) (idle : w.phase = .idle)
    (exhausted : Exhausted w.db reader.namespaceId reader.filter w.pointer)
    (last : LastOf reader w.log.visible trx) (after : start < trx.id)
    (followed : reader.Follows (rowOf trx).1) :
    ∃ delta, (trx.id, delta) ∈ w.delivered ∧ IsDelta trx delta := by
  have behind : trx.id ≤ w.base := by
    rw [show w.base = w.pointer by simp only [World.base, idle]]
    by_contra ahead
    have inside := mem_transactionsAfter_db.mpr ⟨last.member, Nat.not_le.mp ahead, last.wanted⟩
    have gone := exhausted trx inside fun other among key => by
      obtain ⟨seen, -, wanted⟩ := mem_transactionsAfter_db.mp among
      exact last.largest other seen wanted (rowOf_of_key key)
    obtain ⟨changed, nothing⟩ := format_none gone
    exact changed ((keeps.tells trx last after followed).mp nothing)
  rcases tracks.passed trx last.member last.wanted after behind with late | covered | missed
  · exact absurd last.wanted (onTime trx late)
  · obtain ⟨other, seen, key, above, delta, sent, isDelta⟩ := covered
    obtain ⟨same, member, wanted, -, id, -⟩ := keeps.fits _ (List.mem_append_left _ sent)
    obtain rfl := visible_ext seen member id
    have row : rowOf same = rowOf trx := rowOf_of_key key
    obtain rfl := visible_ext last.member seen (Nat.le_antisymm (last.largest same seen wanted row) above)
    exact ⟨delta, sent, isDelta⟩
  · obtain ⟨other, missing, key, above⟩ := missed
    have row : rowOf other = rowOf trx := rowOf_of_key key
    obtain ⟨later, seen, wanted, same, below⟩ := keeps.overtaken other missing (row ▸ followed)
    exact absurd (last.largest later seen wanted (same.trans row)) (by omega)

theorem Keeps.copied (keeps : Keeps reader publicId copy start w) (tracks : Tracks reader start w)
    (injective : ∀ objectClass, Function.Injective (publicId objectClass))
    (onTime : ∀ trx ∈ w.late, ¬reader.Wants trx) (idle : w.phase = .idle)
    (exhausted : Exhausted w.db reader.namespaceId reader.filter w.pointer) (row : ObjectClass × Nat)
    (followed : reader.Follows row.1) :
    copy.follow w.delivered row.1 (publicId row.1 row.2) = shown reader w.objects row := by
  rw [Copy.follow_lastFor]
  by_cases touched : ∃ trx ∈ w.log.visible, reader.Wants trx ∧ rowOf trx = row ∧ start < trx.id
  · obtain ⟨trx, seen, wanted, rfl, after⟩ := touched
    obtain ⟨last, largest, same, above⟩ := exists_lastOf seen wanted
    rw [← same] at followed ⊢
    have afterStart := Nat.lt_of_lt_of_le after above
    obtain ⟨delta, sent, isDelta⟩ :=
      keeps.last_delivered tracks onTime idle exhausted largest afterStart followed
    obtain ⟨inRow, among, -, rfl⟩ := mem_visible.mp largest.member
    have name : nameOf delta = ((rowOf inRow.trx).1, publicId (rowOf inRow.trx).1 (rowOf inRow.trx).2) := by
      rw [nameOf, isDelta.1, isDelta.2.2.1, keeps.named inRow among]
      rfl
    obtain ⟨entry, found⟩ := @lastFor_isSome _ _ (fun entry : Nat × Delta A => nameOf entry.2) _ _ _ _ sent name
    obtain ⟨member, its_name⟩ := lastFor_some found
    obtain ⟨its, its_seen, its_wanted, -, id, its_row, shows⟩ := keeps.own_entry injective member its_name
    rw [found]
    obtain ⟨before, rest, split, others⟩ := lastFor_split found
    have latest : inRow.trx.id ≤ entry.1 := by
      have sorted := keeps.sorted
      rw [split] at sent sorted
      rcases List.mem_append.mp sent with earlier | here
      · exact (List.pairwise_append.mp sorted).2.2 _ earlier entry List.mem_cons_self
      · rcases List.mem_cons.mp here with same | later
        · rw [← same]
        · exact absurd name (others _ later)
    have own : its = inRow.trx := visible_ext largest.member its_seen
      (Nat.le_antisymm (largest.largest its its_seen its_wanted its_row) (id ▸ latest))
    exact shows (own ▸ largest) followed
  · have none_ : lastFor (fun entry : Nat × Delta A => nameOf entry.2) w.delivered
        (row.1, publicId row.1 row.2) = none := by
      refine List.find?_eq_none.mpr fun entry member named => touched ?_
      obtain ⟨trx, seen, wanted, after, -, same, -⟩ :=
        keeps.own_entry injective (List.mem_reverse.mp member) (of_decide_eq_true named)
      exact ⟨trx, seen, wanted, same, after⟩
    rw [none_]
    refine keeps.untouched row followed fun trx seen wanted same => ?_
    by_contra after
    exact touched ⟨trx, seen, wanted, same, Nat.not_le.mp after⟩

end Keeps

/-- Whenever the writers rest and the transaction that was created last has the largest id that a delta is
due for, further calls bring the client's copy to what the database has, of every class that it follows
whole, if no transaction that it asks for was committed behind what it had read. -/
theorem copy_converges (reader : Reader) (publicId : ObjectClass → Nat → String)
    (injective : ∀ objectClass, Function.Injective (publicId objectClass)) (copy : Copy A) (start : Nat)
    (log : Log) (objects : ObjectClass → Nat → Option (Object A))
    (begins : Begins reader publicId copy start log objects) (w : World A)
    (moves : Relation.ReflTransGen (Move reader publicId) (starting log objects start) w)
    (onTime : ∀ trx ∈ w.late, ¬reader.Wants trx)
    (largest : LastIsLargest w.db reader.namespaceId reader.filter) :
    ∃ count, (w.reads reader count).log = w.log ∧ (w.reads reader count).objects = w.objects ∧
      ∀ row, reader.Follows row.1 →
        copy.follow (w.reads reader count).delivered row.1 (publicId row.1 row.2) =
          shown reader w.objects row := by
  obtain ⟨reached, keeps⟩ := moves_keep begins moves
  obtain ⟨count, up⟩ := catches_up reached.tracks largest
  obtain ⟨still, late⟩ := keeps.reads reached.tracks count
  refine ⟨count, up.log, up.objects, fun row followed => ?_⟩
  rw [← up.objects]
  exact still.copied (reached.tracks.reads count) injective (by rwa [late]) up.idle up.exhausted row followed

namespace Sample

def publicIds (_ : ObjectClass) (record : Nat) : String := String.ofList (List.replicate record 'a')

theorem publicIds_injective (objectClass : ObjectClass) : Function.Injective (publicIds objectClass) := by
  intro first second same
  have lengths := congrArg List.length (String.ofList_injective same)
  simpa using lengths

/-- The table of threads has one row, with this subject. -/
def titled (subject : String) (objectClass : ObjectClass) (record : Nat) : Option (Object String) :=
  if objectClass = .thread ∧ record = 1 then some { namespaceId := 1, thread := true, attributes := subject }
  else none

def written (command : Command) (createdAt : Nat) : Transaction :=
  { DeltaSync.Sample.created 1 createdAt with objectPublicId := publicIds .thread 1, command }

/-- A thread is created; it is renamed while the reader is at its first call. -/
def renamed : World String :=
  let w := starting empty (fun _ _ => none) 0
  let w := { w with log := w.log.flush 1 (written .insert 10) }
  let w := w.commit 1 (titled "draft")
  let w := { w with log := w.log.flush 2 (written .update 20) }
  let w := w.read reader
  w.commit 2 (titled "final")

theorem shown_titled {subject : String} {row : ObjectClass × Nat} :
    shown reader (titled subject) row = if row = (.thread, 1) then some subject else none := by
  obtain ⟨objectClass, record⟩ := row
  by_cases here : objectClass = .thread ∧ record = 1
  · obtain ⟨rfl, rfl⟩ := here
    rfl
  · rw [shown, titled, if_neg here, if_neg (by simpa using here)]
    rfl

/-- A session that writes the one thread records it. -/
theorem recorded_titled {w : World String} {session : Nat} {subject : String} {command : Command}
    {createdAt id : Nat} (flushed : w.log.flushed session = [{ written command createdAt with id }])
    (changed : command ≠ .delete)
    (others : ∀ row, row ≠ (.thread, 1) → shown reader w.objects row = none) :
    Recorded reader w session (titled subject) where
  changed row _ differs := by
    rw [flushed]
    have here : row = (.thread, 1) := by
      by_contra elsewhere
      rw [shown_titled, if_neg elsewhere, others row elsewhere] at differs
      exact differs rfl
    have asked : reader.filter.Selects .thread := by decide
    exact ⟨_, List.mem_singleton_self _, ⟨rfl, asked⟩, here.symm⟩
  tells trx last _ := by
    have member := last.member
    rw [flushed] at member
    obtain rfl := List.mem_singleton.mp member
    rw [shown_titled, if_pos (show rowOf _ = (ObjectClass.thread, 1) from rfl)]
    exact iff_of_false (Option.some_ne_none _) changed

theorem renamed_moves : Relation.ReflTransGen (Move reader publicIds)
    (starting empty (fun _ _ => none) 0) renamed := by
  refine .tail (.tail (.tail (.tail (.tail .refl (.flush 1 (written .insert 10) rfl (by simp [Unlocked,
    starting, empty]))) (.commit 1 (titled "draft") ?_)) (.flush 2 (written .update 20) rfl ?_)) .read)
    (.commit 2 (titled "final") ?_)
  · exact recorded_titled rfl (by decide) fun _ _ => rfl
  · intro row member
    obtain rfl := List.mem_singleton.mp member
    simp
  · refine @recorded_titled _ _ _ _ 20 2 rfl (by decide) fun row elsewhere => ?_
    exact shown_titled.trans (if_neg elsewhere)

end Sample

theorem renamed_thread_copied : ∃ count, Copy.follow (fun _ _ => none)
    (Sample.renamed.reads Sample.reader count).delivered .thread "a" = some "final" := by
  have late : Sample.renamed.late = [] := by decide
  have last : getLastTrxIdForNamespace Sample.renamed.db 1 = some 2 := by decide
  have none : transactionsAfter Sample.renamed.db 1 DeltaSync.Sample.everything 2 = [] := by decide
  obtain ⟨count, -, -, copied⟩ := copy_converges Sample.reader Sample.publicIds Sample.publicIds_injective
    (fun _ _ => Option.none) 0 Sample.empty (fun _ _ => Option.none)
    ⟨by simp [Sample.empty], by decide, by simp [Sample.empty, Log.visible], fun _ _ => rfl⟩
    Sample.renamed Sample.renamed_moves (by simp [late]) ⟨2, last, by
      intro trx member
      have absent : trx ∈ transactionsAfter Sample.renamed.db 1 DeltaSync.Sample.everything 2 := member
      rw [none] at absent
      cases absent⟩
  refine ⟨count, (copied (.thread, 1) fun objectType same => ?_).trans Sample.shown_titled⟩
  cases objectType <;> first | decide | cases same

end DeltaReader
end SyncEngine
