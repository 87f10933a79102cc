import Mathlib.Data.Finset.Card
import Mathlib.Data.List.Dedup
import Mathlib.Data.List.Sort
import SyncEngine.Models.Subject

/-! The thread of a new message, found by subject and participants. -/
namespace SyncEngine
namespace CorrespondingThread

def MAX_THREAD_LENGTH : Nat := 500

/-- A phrase and an address. In Python a list never equals a tuple. -/
structure Pair where
  isTuple : Bool
  phrase : Unicode
  address : Unicode
deriving DecidableEq, Repr

structure Message where
  subject : Option Unicode
  fromAddr : List Pair
  toAddr : List Pair
  ccAddr : List Pair
  bccAddr : List Pair
  /-- The parser makes lists of a phrase and an address, and so does JSON. -/
  lists : ∀ pair ∈ bccAddr, pair.isTuple = false
deriving DecidableEq, Repr

structure Thread where
  id : Nat
  namespaceId : Nat
  cleanedSubject : Unicode
  /-- Oldest first. -/
  messages : List Message
deriving DecidableEq, Repr

/-- The table, whose primary key is `id`. -/
structure Threads where
  rows : List Thread
  ids : rows.Pairwise (fun a b => a.id ≠ b.id)

namespace Message

def chain (message : Message) : List Pair :=
  message.fromAddr ++ message.toAddr ++ message.ccAddr ++ message.bccAddr

def phrases (message : Message) (address : Unicode) : List Unicode :=
  ((message.chain.filter (·.address = address)).map fun pair => strip pair.phrase).dedup

/-- An address with both empty and nonempty phrases comes with the nonempty ones only. -/
def participants (message : Message) : List Pair :=
  (message.chain.map Pair.address).dedup.flatMap fun address =>
    ((message.phrases address).filter fun phrase =>
      phrase ≠ [] ∨ (message.phrases address).length = 1).map fun phrase =>
        { isTuple := true, phrase, address }

end Message

section
variable (lower : Unicode → Unicode) (sameText : Unicode → Unicode → Bool)

/-! ## The code -/

/-- A lot of people BCC some address when sending mass emails, so ignore BCC. -/
def emails (message : Message) : List Unicode :=
  ((message.participants.filter (· ∉ message.bccAddr)).map fun pair => lower pair.address).dedup

/-- `len(match_emails & message_emails) >= 2` -/
def Overlaps (message found : Message) : Prop :=
  2 ≤ ((emails lower found).filter (· ∈ emails lower message)).length

instance (message : Message) : DecidablePred (Overlaps lower message) := fun _ =>
  inferInstanceAs (Decidable (_ ≤ _))

/-- The case where someone is self-sending an email. -/
def SelfSending (message found : Message) : Prop :=
  let matchFrom := found.fromAddr.map Pair.address
  let matchTo := found.fromAddr.map Pair.address
  let messageFrom := message.fromAddr.map Pair.address
  let messageTo := message.toAddr.map Pair.address
  messageTo.length = 1 ∧ messageFrom = messageTo ∧ matchFrom = matchTo ∧ messageTo = matchFrom

instance (message : Message) : DecidablePred (SelfSending message) := fun _ =>
  inferInstanceAs (Decidable (_ ∧ _))

def Short (thread : Thread) : Prop := thread.messages.length < MAX_THREAD_LENGTH

instance : DecidablePred Short := fun _ => inferInstanceAs (Decidable (_ < _))

/-- How the loop over one thread's messages ends. -/
inductive Outcome where
  | found
  | gaveUp
  | next
deriving DecidableEq, Repr

def scan (message : Message) (thread : Thread) : List Message → Outcome
  | [] => .next
  | found :: rest =>
    if Overlaps lower message found then if Short thread then .found else .next
    else if message.fromAddr = [] ∨ message.toAddr = [] then .gaveUp
    else if SelfSending message found then if Short thread then .found else .next
    else scan message thread rest

def search (message : Message) : List Thread → Option Thread
  | [] => none
  | thread :: rest =>
    match scan lower message thread thread.messages with
    | .found => some thread
    | .gaveUp => none
    | .next => search message rest

/-- The threads of the query, newest first. -/
def candidates (threads : Threads) (namespaceId : Nat) (message : Message) : List Thread :=
  (threads.rows.filter fun thread => thread.namespaceId = namespaceId ∧
    sameText thread.cleanedSubject ((message.subject.map Subject.cleanupSubject).getD [])).insertionSort
      fun a b => b.id ≤ a.id

def fetchCorrespondingThread (threads : Threads) (namespaceId : Nat) (message : Message) : Option Thread :=
  search lower message (candidates sameText threads namespaceId message)

/-! ## What it is for -/

/-- The addresses of the sender and of those who are addressed openly, without their case. -/
def conversants (message : Message) : List Unicode :=
  (message.fromAddr ++ message.toAddr ++ message.ccAddr).map fun pair => lower pair.address

def SentToSelf (message : Message) (address : Unicode) : Prop :=
  message.fromAddr.map Pair.address = [address] ∧ message.toAddr.map Pair.address = [address]

/-- Two addresses are in both lists. -/
def Share (these those : List Unicode) : Prop :=
  ∃ one other, one ≠ other ∧ one ∈ these ∧ one ∈ those ∧ other ∈ these ∧ other ∈ those

/-- Two persons take part in both messages, or one who only writes to himself. -/
def Related (message found : Message) : Prop :=
  Share (conversants lower message) (conversants lower found) ∨
    ∃ address, SentToSelf message address ∧ SentToSelf found address

def HasRelated (message : Message) (thread : Thread) : Prop :=
  ∃ found ∈ thread.messages, Related lower message found

/-- The result is a short thread of the same conversation, and there is one if there is such a thread. -/
def FindsConversation (threads : Threads) (namespaceId : Nat) (message : Message) : Prop :=
  (∀ thread, fetchCorrespondingThread lower sameText threads namespaceId message = some thread →
    thread ∈ candidates sameText threads namespaceId message ∧ Short thread ∧
      HasRelated lower message thread) ∧
  ((∃ thread ∈ candidates sameText threads namespaceId message, Short thread ∧
    HasRelated lower message thread) →
      fetchCorrespondingThread lower sameText threads namespaceId message ≠ none)

/-! ## When it does that -/

/-- The sender and all who are addressed, in Bcc too. -/
def everybody (message : Message) : List Unicode := message.chain.map fun pair => lower pair.address

/-- Two addresses are in both messages, where Bcc counts, or the new message is to oneself and the other one
has the same sender, whoever it is to. -/
def Alike (message found : Message) : Prop :=
  Share (everybody lower message) (everybody lower found) ∨
    ∃ address, SentToSelf message address ∧ found.fromAddr.map Pair.address = [address]

def Begins (message : Message) (thread : Thread) : Prop :=
  ∃ first ∈ thread.messages.head?, Share (everybody lower message) (everybody lower first)

/-- Of the short threads without a related message, those with a message that looks like one are older than
some short thread that has a related one. -/
def Distinguished (message : Message) (threads : List Thread) : Prop :=
  ∀ thread ∈ threads, Short thread → ¬ HasRelated lower message thread →
    (∃ found ∈ thread.messages, Alike lower message found) →
      ∃ newer ∈ threads, thread.id < newer.id ∧ Short newer ∧ HasRelated lower message newer

/-- Where only the first message of a thread counts and the first thread with another one is the last that
is looked at: a short thread that comes to be looked at and begins with two common addresses has a related
message, and there is one such thread if any short thread has a related message. -/
def Foremost (message : Message) (threads : List Thread) : Prop :=
  (∀ thread ∈ threads, Short thread → Begins lower message thread →
    (∀ newer ∈ threads, thread.id < newer.id →
      newer.messages = [] ∨ Begins lower message newer ∧ ¬ Short newer) → HasRelated lower message thread) ∧
  ((∃ thread ∈ threads, Short thread ∧ HasRelated lower message thread) →
    ∃ thread ∈ threads, Short thread ∧ Begins lower message thread ∧
      ∀ newer ∈ threads, thread.id < newer.id → newer.messages = [] ∨ Begins lower message newer)

/-! ## Where the search ends -/

/-- The new message has a sender and a recipient, so that it can be compared as sent to oneself. -/
def Addressed (message : Message) : Prop := message.fromAddr ≠ [] ∧ message.toAddr ≠ []

instance : DecidablePred Addressed := fun _ => inferInstanceAs (Decidable (_ ∧ _))

/-- What the code takes for a message of the same conversation. -/
def Takes (message found : Message) : Prop := Overlaps lower message found ∨ SelfSending message found

/-- Without a sender or a recipient only the first message of a thread counts. -/
def Accepts (message : Message) (thread : Thread) : Prop :=
  Short thread ∧ if Addressed message then ∃ found ∈ thread.messages, Takes lower message found
    else ∃ found ∈ thread.messages.head?, Overlaps lower message found

/-- The search is given up at this thread. -/
def Stops (message : Message) (thread : Thread) : Prop :=
  ¬ Addressed message ∧ ∃ found ∈ thread.messages.head?, ¬ Overlaps lower message found

variable {lower sameText} {message : Message} {thread : Thread}

theorem scan_addressed (addressed : Addressed message) (messages : List Message) :
    (scan lower message thread messages = .found ↔
      Short thread ∧ ∃ found ∈ messages, Takes lower message found) ∧
    scan lower message thread messages ≠ .gaveUp := by
  induction messages with
  | nil => simp [scan]
  | cons found rest ih =>
    have named : ¬ (message.fromAddr = [] ∨ message.toAddr = []) := not_or.mpr addressed
    rw [scan]
    by_cases overlaps : Overlaps lower message found
    · rw [if_pos overlaps]
      by_cases short : Short thread <;> simp [short, Takes, overlaps]
    · rw [if_neg overlaps, if_neg named]
      by_cases self : SelfSending message found
      · rw [if_pos self]
        by_cases short : Short thread <;> simp [short, Takes, self]
      · rw [if_neg self]
        simpa [Takes, overlaps, self] using ih

theorem scan_unaddressed (unaddressed : ¬ Addressed message) (messages : List Message) :
    (scan lower message thread messages = .found ↔
      Short thread ∧ ∃ found ∈ messages.head?, Overlaps lower message found) ∧
    (scan lower message thread messages = .gaveUp ↔
      ∃ found ∈ messages.head?, ¬ Overlaps lower message found) := by
  cases messages with
  | nil => simp [scan]
  | cons found rest =>
    have missing : message.fromAddr = [] ∨ message.toAddr = [] := by
      by_contra none
      exact unaddressed (not_or.mp none)
    rw [scan]
    by_cases overlaps : Overlaps lower message found
    · rw [if_pos overlaps]
      by_cases short : Short thread <;> simp [short, overlaps]
    · rw [if_neg overlaps, if_pos missing]
      simp [overlaps]

theorem scan_found : scan lower message thread thread.messages = .found ↔ Accepts lower message thread := by
  by_cases addressed : Addressed message
  · rw [(scan_addressed addressed _).1, Accepts, if_pos addressed]
  · rw [(scan_unaddressed addressed _).1, Accepts, if_neg addressed]

theorem scan_gaveUp : scan lower message thread thread.messages = .gaveUp ↔ Stops lower message thread := by
  by_cases addressed : Addressed message
  · simp [Stops, addressed, (scan_addressed addressed _).2]
  · rw [(scan_unaddressed addressed _).2, Stops, and_iff_right addressed]

/-- The search ends at the first thread that is accepted or at which it is given up. -/
theorem search_eq_some (threads : List Thread) : search lower message threads = some thread ↔
    ∃ newer older, threads = newer ++ thread :: older ∧ Accepts lower message thread ∧
      ∀ other ∈ newer, ¬ Accepts lower message other ∧ ¬ Stops lower message other := by
  induction threads with
  | nil => simp [search]
  | cons first rest ih =>
    rw [search]
    cases outcome : scan lower message first first.messages with
    | found =>
      have accepts := scan_found.mp outcome
      constructor
      · rintro ⟨⟩
        exact ⟨[], rest, rfl, accepts, nofun⟩
      · rintro ⟨newer, older, split, _, passed⟩
        cases newer with
        | nil => rw [(List.cons.inj split).1]
        | cons other newer =>
          obtain rfl := (List.cons.inj split).1
          exact absurd accepts (passed first List.mem_cons_self).1
    | gaveUp =>
      have stops := scan_gaveUp.mp outcome
      constructor
      · rintro ⟨⟩
      · rintro ⟨newer, older, split, accepts, passed⟩
        cases newer with
        | nil =>
          obtain rfl := (List.cons.inj split).1
          rw [scan_found.mpr accepts] at outcome
          cases outcome
        | cons other newer =>
          obtain rfl := (List.cons.inj split).1
          exact absurd stops (passed first List.mem_cons_self).2
    | next =>
      have passes : ¬ Accepts lower message first ∧ ¬ Stops lower message first := by
        rw [← scan_found, ← scan_gaveUp, outcome]
        exact ⟨nofun, nofun⟩
      rw [ih]
      constructor
      · rintro ⟨newer, older, rfl, accepts, passed⟩
        exact ⟨first :: newer, older, rfl, accepts, List.forall_mem_cons.mpr ⟨passes, passed⟩⟩
      · rintro ⟨newer, older, split, accepts, passed⟩
        cases newer with
        | nil =>
          obtain rfl := (List.cons.inj split).1
          exact absurd accepts passes.1
        | cons other newer =>
          obtain ⟨rfl, rfl⟩ := List.cons.inj split
          exact ⟨newer, older, rfl, accepts, fun other member => passed other (List.mem_cons_of_mem _ member)⟩

theorem candidates_newest_first (threads : Threads) (namespaceId : Nat) (message : Message) :
    (candidates sameText threads namespaceId message).Pairwise (fun a b => b.id < a.id) := by
  have : Std.Total fun a b : Thread => b.id ≤ a.id := ⟨fun a b => Nat.le_total b.id a.id⟩
  have : IsTrans Thread fun a b => b.id ≤ a.id := ⟨fun _ _ _ first second => Nat.le_trans second first⟩
  have sorted : (candidates sameText threads namespaceId message).Pairwise (fun a b => b.id ≤ a.id) :=
    List.pairwise_insertionSort _ _
  have distinct : (candidates sameText threads namespaceId message).Pairwise (fun a b => a.id ≠ b.id) :=
    ((List.perm_insertionSort _ _).pairwise_iff fun differ => differ.symm).mpr (threads.ids.filter _)
  exact (sorted.and distinct).imp fun both => Nat.lt_of_le_of_ne both.1 (Ne.symm both.2)

/-- What comes before a thread are the newer ones. -/
theorem split_iff {threads : List Thread} (sorted : threads.Pairwise fun a b => b.id < a.id)
    (P : Thread → Prop) : (∃ newer older, threads = newer ++ thread :: older ∧ ∀ other ∈ newer, P other) ↔
      thread ∈ threads ∧ ∀ other ∈ threads, thread.id < other.id → P other := by
  constructor
  · rintro ⟨newer, older, rfl, passed⟩
    refine ⟨by simp, fun other member later => ?_⟩
    have below := (List.pairwise_append.mp sorted).2.1
    rcases List.mem_append.mp member with before | after
    · exact passed other before
    · rcases List.mem_cons.mp after with rfl | older
      · exact absurd later (Nat.lt_irrefl _)
      · exact absurd later (Nat.lt_asymm ((List.pairwise_cons.mp below).1 other older))
  · rintro ⟨member, passed⟩
    obtain ⟨newer, older, rfl⟩ := List.append_of_mem member
    refine ⟨newer, older, rfl, fun other before => passed other (by simp [before]) ?_⟩
    exact (List.pairwise_append.mp sorted).2.2 other before thread List.mem_cons_self

theorem fetch_eq_some {threads : Threads} {namespaceId : Nat} :
    fetchCorrespondingThread lower sameText threads namespaceId message = some thread ↔
      thread ∈ candidates sameText threads namespaceId message ∧ Accepts lower message thread ∧
      ∀ other ∈ candidates sameText threads namespaceId message, thread.id < other.id →
        ¬ Accepts lower message other ∧ ¬ Stops lower message other := by
  have sorted : (candidates sameText threads namespaceId message).Pairwise fun a b => b.id < a.id :=
    candidates_newest_first threads namespaceId message
  rw [fetchCorrespondingThread, search_eq_some]
  constructor
  · rintro ⟨newer, older, parts, accepts, passed⟩
    obtain ⟨member, others⟩ := (split_iff sorted fun other =>
      ¬ Accepts lower message other ∧ ¬ Stops lower message other).mp ⟨newer, older, parts, passed⟩
    exact ⟨member, accepts, others⟩
  · rintro ⟨member, accepts, others⟩
    obtain ⟨newer, older, parts, passed⟩ := (split_iff sorted fun other =>
      ¬ Accepts lower message other ∧ ¬ Stops lower message other).mpr ⟨member, others⟩
    exact ⟨newer, older, parts, accepts, passed⟩

/-- Something is found if a thread is accepted before the search is given up. -/
theorem fetch_ne_none {threads : Threads} {namespaceId : Nat} :
    fetchCorrespondingThread lower sameText threads namespaceId message ≠ none ↔
      ∃ thread ∈ candidates sameText threads namespaceId message, Accepts lower message thread ∧
        ∀ other ∈ candidates sameText threads namespaceId message, thread.id < other.id →
          ¬ Stops lower message other := by
  classical
  rw [Option.ne_none_iff_exists']
  constructor
  · rintro ⟨thread, found⟩
    obtain ⟨member, accepts, others⟩ := fetch_eq_some.mp found
    exact ⟨thread, member, accepts, fun other listed later => (others other listed later).2⟩
  · rintro ⟨thread, member, accepts, passed⟩
    have some : ((candidates sameText threads namespaceId message).find? fun thread =>
        decide (Accepts lower message thread)).isSome :=
      List.find?_isSome.mpr ⟨thread, member, decide_eq_true accepts⟩
    obtain ⟨newest, first⟩ := Option.isSome_iff_exists.mp some
    obtain ⟨accepted, newer, older, parts, refused⟩ := List.find?_eq_some_iff_append.mp first
    obtain ⟨listed, others⟩ := (split_iff (candidates_newest_first threads namespaceId message)
      fun other => ¬ Accepts lower message other).mp ⟨newer, older, parts, by simpa using refused⟩
    -- what stands before the newest is newer than any other that is accepted
    have notBefore : thread.id ≤ newest.id := by
      by_contra before
      exact others thread member (Nat.lt_of_not_le before) accepts
    refine ⟨newest, fetch_eq_some.mpr ⟨listed, of_decide_eq_true accepted, fun other inList later => ?_⟩⟩
    exact ⟨others other inList later, passed other inList (Nat.lt_of_le_of_lt notBefore later)⟩

/-! ## What the tests see -/

theorem mem_emails (email : Unicode) : email ∈ emails lower message ↔ email ∈ everybody lower message := by
  have spared : ∀ pair ∈ message.participants, pair ∉ message.bccAddr := by
    intro pair member listed
    obtain ⟨_, _, member⟩ := List.mem_flatMap.mp member
    obtain ⟨_, _, rfl⟩ := List.mem_map.mp member
    cases message.lists _ listed
  rw [emails, List.mem_dedup, List.filter_eq_self.mpr (by simpa using spared), everybody, List.mem_map,
    List.mem_map]
  constructor
  · rintro ⟨pair, member, rfl⟩
    obtain ⟨address, addressed, inner⟩ := List.mem_flatMap.mp member
    obtain ⟨phrase, _, rfl⟩ := List.mem_map.mp inner
    obtain ⟨source, listed, rfl⟩ := List.mem_map.mp (List.mem_dedup.mp addressed)
    exact ⟨source, listed, rfl⟩
  · rintro ⟨pair, member, rfl⟩
    obtain ⟨phrase, kept⟩ : ∃ phrase, phrase ∈ (message.phrases pair.address).filter fun phrase =>
        phrase ≠ [] ∨ (message.phrases pair.address).length = 1 := by
      have named : strip pair.phrase ∈ message.phrases pair.address :=
        List.mem_dedup.mpr (List.mem_map.mpr ⟨pair, List.mem_filter.mpr ⟨member, decide_eq_true rfl⟩, rfl⟩)
      by_cases some : ∃ phrase ∈ message.phrases pair.address, phrase ≠ []
      · obtain ⟨phrase, listed, nonempty⟩ := some
        exact ⟨phrase, List.mem_filter.mpr ⟨listed, by simp [nonempty]⟩⟩
      · have empty : ∀ phrase ∈ message.phrases pair.address, phrase = [] := by simpa using some
        have single : message.phrases pair.address = [strip pair.phrase] := by
          refine List.perm_singleton.mp ((List.perm_ext_iff_of_nodup (List.nodup_dedup _)
            (List.nodup_singleton _)).mpr fun phrase => ?_)
          rw [List.mem_singleton]
          refine ⟨fun listed => (empty phrase listed).trans (empty _ named).symm, ?_⟩
          rintro rfl
          exact named
        exact ⟨strip pair.phrase, List.mem_filter.mpr ⟨named, by simp [single]⟩⟩
    refine ⟨⟨true, phrase, pair.address⟩, List.mem_flatMap.mpr ⟨pair.address, ?_, ?_⟩, rfl⟩
    · exact List.mem_dedup.mpr (List.mem_map_of_mem member)
    · exact List.mem_map_of_mem kept

theorem overlaps_iff (message found : Message) :
    Overlaps lower message found ↔ Share (everybody lower message) (everybody lower found) := by
  have nodup : ((emails lower found).filter (· ∈ emails lower message)).Nodup :=
    (List.nodup_dedup _).filter _
  rw [Overlaps, ← List.toFinset_card_of_nodup nodup, ← Nat.lt_iff_add_one_le, Finset.one_lt_card]
  simp only [List.mem_toFinset, List.mem_filter, mem_emails, decide_eq_true_eq]
  constructor
  · rintro ⟨one, ⟨one_there, one_here⟩, other, ⟨other_there, other_here⟩, differ⟩
    exact ⟨one, other, differ, one_here, one_there, other_here, other_there⟩
  · rintro ⟨one, other, differ, one_here, one_there, other_here, other_there⟩
    exact ⟨one, ⟨one_there, one_here⟩, other, ⟨other_there, other_here⟩, differ⟩

theorem takes_iff (message found : Message) : Takes lower message found ↔ Alike lower message found := by
  refine or_congr (overlaps_iff message found) ⟨?_, ?_⟩
  · rintro ⟨one, sender, -, same⟩
    obtain ⟨address, only⟩ := List.length_eq_one_iff.mp one
    exact ⟨address, ⟨sender.trans only, only⟩, same.symm.trans only⟩
  · rintro ⟨address, ⟨sender, only⟩, same⟩
    exact ⟨congrArg List.length only, sender.trans only.symm, rfl, only.trans same.symm⟩

theorem Related.alike {found : Message} (related : Related lower message found) :
    Alike lower message found := by
  have openly : ∀ message : Message, conversants lower message ⊆ everybody lower message := fun message =>
    List.map_subset _ (List.subset_append_left _ _)
  refine related.imp ?_ ?_
  · rintro ⟨one, other, differ, one_here, one_there, other_here, other_there⟩
    exact ⟨one, other, differ, openly _ one_here, openly _ one_there, openly _ other_here, openly _ other_there⟩
  · rintro ⟨address, sent, received⟩
    exact ⟨address, sent, received.1⟩

theorem accepts_addressed (addressed : Addressed message) :
    Accepts lower message thread ↔ Short thread ∧ ∃ found ∈ thread.messages, Alike lower message found := by
  rw [Accepts, if_pos addressed]
  simp only [takes_iff]

theorem accepts_unaddressed (unaddressed : ¬ Addressed message) :
    Accepts lower message thread ↔ Short thread ∧ Begins lower message thread := by
  rw [Accepts, if_neg unaddressed]
  simp only [overlaps_iff, Begins]

theorem stops_unaddressed (unaddressed : ¬ Addressed message) :
    ¬ Stops lower message thread ↔ thread.messages = [] ∨ Begins lower message thread := by
  rw [Stops, and_iff_right unaddressed, Begins]
  cases thread.messages with
  | nil => simp
  | cons first rest => simp [overlaps_iff]

theorem eq_of_id {threads : List Thread} (sorted : threads.Pairwise fun a b => b.id < a.id) {other : Thread}
    (member : thread ∈ threads) (listed : other ∈ threads) (same : thread.id = other.id) : thread = other := by
  have distinct : (threads.map Thread.id).Nodup :=
    List.pairwise_map.mpr (sorted.imp fun later => (Nat.ne_of_lt later).symm)
  exact List.inj_on_of_nodup_map distinct member listed same

/-! ## When the search finds the conversation -/

theorem finds_addressed {threads : Threads} {namespaceId : Nat} (addressed : Addressed message) :
    FindsConversation lower sameText threads namespaceId message ↔
      Distinguished lower message (candidates sameText threads namespaceId message) := by
  have goes_on : ∀ other : Thread, ¬ Stops lower message other := fun other stops => stops.1 addressed
  have related : ∀ {other : Thread}, Short other → HasRelated lower message other → Accepts lower message other :=
    fun short ⟨found, member, related⟩ => (accepts_addressed addressed).mpr ⟨short, found, member, related.alike⟩
  constructor
  · rintro ⟨sound, -⟩ thread member short unrelated alike
    have accepts := (accepts_addressed addressed).mpr ⟨short, alike⟩
    obtain ⟨found, result⟩ := Option.ne_none_iff_exists'.mp
      (fetch_ne_none.mpr ⟨thread, member, accepts, fun other _ _ => goes_on other⟩)
    obtain ⟨listed, its_short, its_related⟩ := sound found result
    rcases Nat.lt_trichotomy thread.id found.id with newer | same | older
    · exact ⟨found, listed, newer, its_short, its_related⟩
    · obtain rfl := eq_of_id (candidates_newest_first threads namespaceId message) member listed same
      exact absurd its_related unrelated
    · exact absurd accepts ((fetch_eq_some.mp result).2.2 thread member older).1
  · intro distinguished
    refine ⟨fun thread result => ?_, fun ⟨thread, member, short, has⟩ => ?_⟩
    · obtain ⟨member, accepts, others⟩ := fetch_eq_some.mp result
      obtain ⟨short, alike⟩ := (accepts_addressed addressed).mp accepts
      refine ⟨member, short, ?_⟩
      by_contra unrelated
      obtain ⟨newer, listed, later, its_short, its_related⟩ := distinguished thread member short unrelated alike
      exact (others newer listed later).1 (related its_short its_related)
    · exact fetch_ne_none.mpr ⟨thread, member, related short has, fun other _ _ => goes_on other⟩

theorem finds_unaddressed {threads : Threads} {namespaceId : Nat} (unaddressed : ¬ Addressed message) :
    FindsConversation lower sameText threads namespaceId message ↔
      Foremost lower message (candidates sameText threads namespaceId message) := by
  have passes : ∀ other : Thread, ¬ Accepts lower message other ∧ ¬ Stops lower message other ↔
      other.messages = [] ∨ Begins lower message other ∧ ¬ Short other := by
    intro other
    rw [accepts_unaddressed unaddressed, stops_unaddressed unaddressed]
    have nothing : other.messages = [] → ¬ Begins lower message other := fun empty => by simp [Begins, empty]
    tauto
  refine and_congr ⟨fun sound thread member short begins others => ?_, fun foremost thread result => ?_⟩
    (imp_congr_right fun _ => ?_)
  · have accepts := (accepts_unaddressed unaddressed).mpr ⟨short, begins⟩
    exact (sound thread (fetch_eq_some.mpr
      ⟨member, accepts, fun other listed later => (passes other).mpr (others other listed later)⟩)).2.2
  · obtain ⟨member, accepts, others⟩ := fetch_eq_some.mp result
    obtain ⟨short, begins⟩ := (accepts_unaddressed unaddressed).mp accepts
    exact ⟨member, short, foremost thread member short begins fun newer listed later =>
      (passes newer).mp (others newer listed later)⟩
  · rw [fetch_ne_none]
    simp only [accepts_unaddressed unaddressed, stops_unaddressed unaddressed, and_assoc]

/-- With From and To, the search finds the conversation if and only if no thread looks like one, unless a newer
one is. -/
theorem finds_conversation_iff (lower : Unicode → Unicode) (sameText : Unicode → Unicode → Bool)
    (threads : Threads) (namespaceId : Nat) (message : Message) :
    FindsConversation lower sameText threads namespaceId message ↔
      (Addressed message → Distinguished lower message (candidates sameText threads namespaceId message)) ∧
      (¬ Addressed message → Foremost lower message (candidates sameText threads namespaceId message)) := by
  by_cases addressed : Addressed message
  · simp only [finds_addressed addressed, addressed, true_implies, not_true_eq_false, false_implies, and_true]
  · simp only [finds_unaddressed addressed, addressed, not_false_eq_true, true_implies, false_implies, true_and]

end

/-! ## A message to oneself -/
namespace Trial

def pair (address : String) : Pair := { isTuple := false, phrase := [], address := address.toList }

def message (sender : String) (recipients : List String) : Message where
  subject := some "Notes".toList
  fromAddr := [pair sender]
  toAddr := recipients.map pair
  ccAddr := []
  bccAddr := []
  lists := List.forall_mem_nil _

/-- A thread in which somebody wrote to another person. -/
def threads : Threads where
  rows := [{ id := 1, namespaceId := 1, cleanedSubject := "Notes".toList
             messages := [message "ada@a.org" ["bob@b.org"]] }]
  ids := List.pairwise_singleton _ _

theorem takes_any_sender : fetchCorrespondingThread (List.map Char.toLower) (· = ·) threads 1
    (message "ada@a.org" ["ada@a.org"]) = threads.rows.head? := by decide

end Trial

/-- A message to oneself joins a thread in which one wrote to somebody else. -/
theorem self_sent_joins_other : ¬ ∀ (lower : Unicode → Unicode) (sameText : Unicode → Unicode → Bool)
    (threads : Threads) (namespaceId : Nat) (message : Message),
    FindsConversation lower sameText threads namespaceId message := by
  intro claim
  have sound := (claim (List.map Char.toLower) (· = ·) Trial.threads 1
    (Trial.message "ada@a.org" ["ada@a.org"])).1 _ Trial.takes_any_sender
  obtain ⟨_, _, found, member, related⟩ := sound
  obtain rfl := List.mem_singleton.mp member
  rcases related with ⟨one, other, differ, first, _, second, _⟩ | ⟨address, sent, received⟩
  · have alone : ∀ email ∈ conversants (List.map Char.toLower) (Trial.message "ada@a.org" ["ada@a.org"]),
        email = "ada@a.org".toList := by decide
    exact differ ((alone one first).trans (alone other second).symm)
  · have differ : (Trial.message "ada@a.org" ["bob@b.org"]).fromAddr.map Pair.address ≠
        (Trial.message "ada@a.org" ["bob@b.org"]).toAddr.map Pair.address := by decide
    exact differ (received.1.trans received.2.symm)

end CorrespondingThread
end SyncEngine
