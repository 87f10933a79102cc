import Mathlib.Data.List.Induction
import Mathlib.Data.List.Nodup
import SyncEngine.Util.Itert
import SyncEngine.Util.Lookup

/-! What `CrispinClient` and `GmailCrispinClient` make of the answers to FETCH: messages, flags, and the
flags that changed since a modseq. A server may send data for a message at any time, so an answer has any
part of what was asked for, and may be about messages that were not asked for. -/
namespace SyncEngine.FetchResponses

/-- What an answer says about one message. The first part of the `MODSEQ` tuple. A body can be `NIL`. -/
structure Items where
  seq : Option Nat := none
  internaldate : Option Nat := none
  flags : Option (List String) := none
  body : Option (Option String) := none
  gThrid : Option Nat := none
  gMsgid : Option Nat := none
  gLabels : Option (List String) := none
  modseq : Option Nat := none
deriving DecidableEq

/-- The dictionary that `IMAPClient.fetch` returns. -/
structure Response where
  entries : List (Nat × Items)
  distinct : (entries.map Prod.fst).Nodup

structure KeyError where
  key : String
deriving DecidableEq

structure RawMessage where
  uid : Nat
  internaldate : Nat
  flags : List String
  body : Option String
  gThrid : Option Nat
  gMsgid : Option Nat
  gLabels : Option (List String)
deriving DecidableEq

structure Flags where
  flags : List String
  modseq : Option Nat
deriving DecidableEq

structure GmailFlags where
  flags : List String
  labels : List String
  modseq : Option Nat
deriving DecidableEq

/-- `msg[key]` -/
def item (key : String) : Option α → Except KeyError α
  | some value => .ok value
  | none => .error ⟨key⟩

/-- `msg.keys() == ['SEQ']` -/
def seqOnly (msg : Items) : Bool := msg.seq.isSome && msg == { seq := msg.seq }

/-- What `read` makes of each entry, until one fails. -/
def collect (read : Nat → Items → Except KeyError (Option β)) : List (Nat × Items) → Except KeyError (List β)
  | [] => .ok []
  | (uid, ret) :: data =>
    match read uid ret with
    | .error failure => .error failure
    | .ok none => collect read data
    | .ok (some result) =>
      match collect read data with
      | .error failure => .error failure
      | .ok results => .ok (result :: results)

/-- `raw_messages.update(answer)` -/
def update (raw answer : List (Nat × Items)) : List (Nat × Items) :=
  raw.filter (fun entry => entry.1 ∉ answer.map Prod.fst) ++ answer

def sortByUid (raw : List (Nat × Items)) : List (Nat × Items) := raw.mergeSort fun a b => a.1 ≤ b.1

namespace CrispinClient

def readMessage (uids : List Nat) (uid : Nat) (msg : Items) : Except KeyError (Option RawMessage) :=
  if uid ∉ uids then .ok none
  else if seqOnly msg then .ok none
  else do
    let internaldate ← item "INTERNALDATE" msg.internaldate
    let flags ← item "FLAGS" msg.flags
    let body ← item "BODY[]" msg.body
    return some ⟨uid, internaldate, flags, body, none, none, none⟩

/-- The answers that came in: a UID for which the server is unavailable has none. -/
def answers (fetch : Nat → Option Response) (uids : List Nat) : List Response := uids.filterMap fetch

def rawMessages (answers : List Response) : List (Nat × Items) :=
  answers.foldl (fun raw answer => update raw answer.entries) []

/-- The UIDs are in the order in which the set gives them. -/
def uids (fetch : Nat → Option Response) (uids : List Nat) : Except KeyError (List RawMessage) :=
  collect (readMessage uids) (sortByUid (rawMessages (answers fetch uids)))

def readFlags (uids : List Nat) (uid : Nat) (ret : Items) : Except KeyError (Option (Nat × Flags)) :=
  if uid ∈ uids then do
    let flags ← item "FLAGS" ret.flags
    return some (uid, ⟨flags, none⟩)
  else .ok none

def flags (data : Response) (uids : List Nat) : Except KeyError (List (Nat × Flags)) :=
  collect (readFlags uids) data.entries

def readChanged (uid : Nat) (ret : Items) : Except KeyError (Option (Nat × Flags)) := do
  let flags ← item "FLAGS" ret.flags
  return some (uid, ⟨flags, ret.modseq⟩)

def condstoreChangedFlags (data : Response) : Except KeyError (List (Nat × Flags)) :=
  collect readChanged data.entries

end CrispinClient

namespace GmailCrispinClient

/-- `imapclient.imap_utf7.decode` for each label. -/
def decodeLabels (decode : String → String) (labels : List String) : List String := labels.map decode

section
variable (decode : String → String)

def readMessage (uids : List Nat) (uid : Nat) (msg : Items) : Except KeyError (Option RawMessage) :=
  if uid ∉ uids then .ok none
  else do
    let internaldate ← item "INTERNALDATE" msg.internaldate
    let flags ← item "FLAGS" msg.flags
    let body ← item "BODY[]" msg.body
    let gThrid ← item "X-GM-THRID" msg.gThrid
    let gMsgid ← item "X-GM-MSGID" msg.gMsgid
    let gLabels ← item "X-GM-LABELS" msg.gLabels
    return some ⟨uid, internaldate, flags, body, gThrid, gMsgid, some (decodeLabels decode gLabels)⟩

def uids (data : Response) (uids : List Nat) : Except KeyError (List RawMessage) :=
  collect (readMessage decode uids) (sortByUid data.entries)

def readFlags (uids : List Nat) (uid : Nat) (ret : Items) : Except KeyError (Option (Nat × GmailFlags)) :=
  if uid ∈ uids then do
    let flags ← item "FLAGS" ret.flags
    let labels ← item "X-GM-LABELS" ret.gLabels
    return some (uid, ⟨flags, decodeLabels decode labels, ret.modseq⟩)
  else .ok none

def flags (data : Response) (uids : List Nat) : Except KeyError (List (Nat × GmailFlags)) :=
  collect (readFlags decode uids) data.entries

/-- The entry of `results` for a UID. -/
def changedEntry (uid : Nat) (ret : Items) : Except KeyError (Option (Nat × GmailFlags)) := do
  let flags ← item "FLAGS" ret.flags
  let labels ← item "X-GM-LABELS" ret.gLabels
  let modseq ← item "MODSEQ" ret.modseq
  return some (uid, ⟨flags, decodeLabels decode labels, some modseq⟩)

/-- `fetch` answers for a UID whose data was incomplete. -/
def readChanged (fetch : Nat → Response) (uid : Nat) (ret : Items) :
    Except KeyError (Option (Nat × GmailFlags)) :=
  if ret.flags = none ∨ ret.gLabels = none then
    if (fetch uid).entries = [] then .ok none
    else
      match (fetch uid).entries.lookup uid with
      | none => .error ⟨toString uid⟩
      | some dataForUid => changedEntry decode uid dataForUid
  else changedEntry decode uid ret

def condstoreChangedFlags (fetch : Nat → Response) (data : Response) :
    Except KeyError (List (Nat × GmailFlags)) :=
  collect (readChanged decode fetch) data.entries
end

end GmailCrispinClient

/-! ## The checkpoints of the caller -/

/-- `None` is smaller than any number. -/
def modseqLe : Option Nat → Option Nat → Bool
  | none, _ => true
  | some _, none => false
  | some a, some b => a ≤ b

def condstoreFlagsRefreshBatchSize : Nat := 200

/-- What `condstore_refresh_flags` stores as `highestmodseq`, one after another. -/
def checkpoints (modseqOf : β → Option Nat) (changedFlags : List β) (newHighestmodseq : Nat) :
    List (Option Nat) :=
  let flagBatches := chunk (changedFlags.mergeSort fun a b => modseqLe (modseqOf a) (modseqOf b))
    condstoreFlagsRefreshBatchSize
  (flagBatches.filter fun flagBatch => flagBatch.length = condstoreFlagsRefreshBatchSize).map
    (fun flagBatch => (flagBatch.map modseqOf).foldr max none) ++ [some newHighestmodseq]

/-! ## Entries that are read one by one -/

theorem collect_ok_iff {read : Nat → Items → Except KeyError (Option β)} {data : List (Nat × Items)} :
    (∃ results, collect read data = .ok results) ↔
      ∀ uid ret, (uid, ret) ∈ data → ∃ given, read uid ret = .ok given := by
  induction data with
  | nil => simp [collect]
  | cons entry data ih =>
    obtain ⟨uid, ret⟩ := entry
    have rest : (∀ other ret', (other, ret') ∈ (uid, ret) :: data → ∃ given, read other ret' = .ok given) ↔
        (∃ given, read uid ret = .ok given) ∧ ∃ results, collect read data = .ok results := by
      rw [ih]
      simp only [List.mem_cons, Prod.mk.injEq]
      constructor
      · intro all
        exact ⟨all uid ret (.inl ⟨rfl, rfl⟩), fun other ret' member => all other ret' (.inr member)⟩
      · rintro ⟨first, all⟩ other ret' (⟨rfl, rfl⟩ | member)
        · exact first
        · exact all other ret' member
    rw [rest, collect]
    match read uid ret with
    | .error failure => simp
    | .ok none => simp
    | .ok (some result) =>
      cases collect read data with
      | error failure | ok results => simp

theorem mem_collect {read : Nat → Items → Except KeyError (Option β)} {data : List (Nat × Items)}
    (done : collect read data = .ok results) {result : β} :
    result ∈ results ↔ ∃ uid ret, (uid, ret) ∈ data ∧ read uid ret = .ok (some result) := by
  induction data generalizing results with
  | nil =>
    cases done
    simp
  | cons entry data ih =>
    obtain ⟨uid, ret⟩ := entry
    have split : (∃ other ret', (other, ret') ∈ (uid, ret) :: data ∧ read other ret' = .ok (some result)) ↔
        read uid ret = .ok (some result) ∨
          ∃ other ret', (other, ret') ∈ data ∧ read other ret' = .ok (some result) := by
      simp only [List.mem_cons, Prod.mk.injEq]
      constructor
      · rintro ⟨other, ret', ⟨rfl, rfl⟩ | member, given⟩
        · exact .inl given
        · exact .inr ⟨other, ret', member, given⟩
      · rintro (given | ⟨other, ret', member, given⟩)
        · exact ⟨uid, ret, .inl ⟨rfl, rfl⟩, given⟩
        · exact ⟨other, ret', .inr member, given⟩
    rw [split]
    rw [collect] at done
    cases given : read uid ret with
    | error failure =>
      rw [given] at done
      cases done
    | ok value =>
      cases value with
      | none =>
        rw [given] at done
        rw [ih done]
        simp
      | some first =>
        cases rest : collect read data with
        | error failure =>
          rw [given, rest] at done
          cases done
        | ok more =>
          rw [given, rest] at done
          cases done
          rw [List.mem_cons, ih rest, Except.ok.injEq, Option.some.injEq, eq_comm]

/-- A method does not fail, returns nothing that was not asked for, and what is complete as it is.
`whole` is what complete data amounts to. -/
def Survives (asked : Nat → Prop) (uidOf : β → Nat) (whole : Nat → Items → Option β)
    (data : Nat → Items → Prop) (result : Except KeyError (List β)) : Prop :=
  ∃ returned, result = .ok returned ∧ (∀ entry ∈ returned, asked (uidOf entry)) ∧
    ∀ uid ret entry, data uid ret → asked uid → whole uid ret = some entry →
      entry ∈ returned ∧ ∀ other ∈ returned, uidOf other = uid → other = entry

/-- How a method reads entries: those that were not asked for and those it skips give nothing, complete
ones are taken as they are, and it fails on all others. -/
structure Reads (asked : Nat → Prop) (skipped : Nat → Items → Prop) (uidOf : β → Nat)
    (whole : Nat → Items → Option β) (read : Nat → Items → Except KeyError (Option β)) : Prop where
  unasked : ∀ uid ret, ¬ asked uid → read uid ret = .ok none
  skips : ∀ uid ret, skipped uid ret → read uid ret = .ok none
  taken : ∀ uid ret entry, asked uid → whole uid ret = some entry →
    read uid ret = .ok (some entry) ∧ uidOf entry = uid
  fails : ∀ uid ret, asked uid → ¬ skipped uid ret → whole uid ret = none →
    ∃ failure, read uid ret = .error failure

section
variable {asked : Nat → Prop} {skipped : Nat → Items → Prop} {uidOf : β → Nat}
  {whole : Nat → Items → Option β} {read : Nat → Items → Except KeyError (Option β)}

theorem Reads.gives (reads : Reads asked skipped uidOf whole read) (given : read uid ret = .ok (some entry)) :
    asked uid ∧ whole uid ret = some entry ∧ uidOf entry = uid := by
  by_cases wanted : asked uid
  case neg =>
    rw [reads.unasked uid ret wanted] at given
    cases given
  by_cases left : skipped uid ret
  case pos =>
    rw [reads.skips uid ret left] at given
    cases given
  cases complete : whole uid ret with
  | none =>
    obtain ⟨failure, failed⟩ := reads.fails uid ret wanted left complete
    rw [failed] at given
    cases given
  | some other =>
    obtain ⟨taken, sameUid⟩ := reads.taken uid ret other wanted complete
    rw [taken] at given
    cases given
    exact ⟨wanted, rfl, sameUid⟩

theorem Reads.ok_iff (reads : Reads asked skipped uidOf whole read) :
    (∃ given, read uid ret = .ok given) ↔ (asked uid → skipped uid ret ∨ (whole uid ret).isSome) := by
  constructor
  · rintro ⟨given, done⟩ wanted
    by_contra incomplete
    obtain ⟨notSkipped, missing⟩ := not_or.mp incomplete
    obtain ⟨failure, failed⟩ :=
      reads.fails uid ret wanted notSkipped (Option.not_isSome_iff_eq_none.mp missing)
    rw [failed] at done
    cases done
  · intro complete
    by_cases wanted : asked uid
    · rcases complete wanted with left | present
      · exact ⟨none, reads.skips uid ret left⟩
      · obtain ⟨entry, found⟩ := Option.isSome_iff_exists.mp present
        exact ⟨some entry, (reads.taken uid ret entry wanted found).1⟩
    · exact ⟨none, reads.unasked uid ret wanted⟩

theorem Reads.survives_iff (reads : Reads asked skipped uidOf whole read) {entries : List (Nat × Items)}
    {data : Nat → Items → Prop} (same : ∀ uid ret, (uid, ret) ∈ entries ↔ data uid ret)
    (distinct : (entries.map Prod.fst).Nodup) :
    Survives asked uidOf whole data (collect read entries) ↔
      ∀ uid ret, data uid ret → asked uid → skipped uid ret ∨ (whole uid ret).isSome := by
  constructor
  · rintro ⟨returned, done, -⟩ uid ret member
    exact reads.ok_iff.mp (collect_ok_iff.mp ⟨returned, done⟩ uid ret ((same uid ret).mpr member))
  · intro complete
    obtain ⟨returned, done⟩ := collect_ok_iff.mpr fun uid ret member =>
      reads.ok_iff.mpr (complete uid ret ((same uid ret).mp member))
    refine ⟨returned, done, ?_, ?_⟩
    · intro entry member
      obtain ⟨uid, ret, -, given⟩ := (mem_collect done).mp member
      obtain ⟨wanted, -, sameUid⟩ := reads.gives given
      rwa [sameUid]
    · intro uid ret entry member wanted complete
      have here := (same uid ret).mpr member
      have given := (reads.taken uid ret entry wanted complete).1
      refine ⟨(mem_collect done).mpr ⟨uid, ret, here, given⟩, fun other listed sameUid => ?_⟩
      obtain ⟨uid', ret', there, given'⟩ := (mem_collect done).mp listed
      obtain ⟨-, complete', sameUid'⟩ := reads.gives given'
      obtain rfl : uid' = uid := sameUid'.symm.trans sameUid
      have alike : (uid', ret') = (uid', ret) := List.inj_on_of_nodup_map distinct there here rfl
      cases alike
      rw [complete] at complete'
      exact (Option.some.inj complete').symm
end

@[simp] theorem item_some (key : String) (value : α) : item key (some value) = .ok value := rfl

@[simp] theorem item_none (key : String) : item key (none : Option α) = .error ⟨key⟩ := rfl

/-! ## Items that are read one after the other -/

/-- The reading gives what is whole, under its UID, and fails where something is missing. -/
structure Follows (uidOf : β → Nat) (uid : Nat) (whole : Option β) (reading : Except KeyError (Option β)) :
    Prop where
  gives : ∀ entry, whole = some entry → reading = .ok (some entry) ∧ uidOf entry = uid
  fails : whole = none → ∃ failure, reading = .error failure

theorem follows_some {uidOf : β → Nat} {entry : β} (own : uidOf entry = uid) :
    Follows uidOf uid (some entry) (.ok (some entry)) where
  gives := by
    rintro _ ⟨⟩
    exact ⟨rfl, own⟩
  fails := nofun

theorem follows_item {uidOf : β → Nat} {whole : α → Option β} {reading : α → Except KeyError (Option β)}
    (key : String) (value : Option α) (rest : ∀ a, Follows uidOf uid (whole a) (reading a)) :
    Follows uidOf uid (value >>= whole) (item key value >>= reading) := by
  cases value with
  | none => exact ⟨nofun, fun _ => ⟨_, rfl⟩⟩
  | some a => exact rest a

theorem Reads.of_follows {asked : Nat → Prop} {skipped : Nat → Items → Prop} {uidOf : β → Nat}
    {whole : Nat → Items → Option β} {read : Nat → Items → Except KeyError (Option β)}
    (unasked : ∀ uid ret, ¬ asked uid → read uid ret = .ok none)
    (skips : ∀ uid ret, skipped uid ret → read uid ret = .ok none ∧ whole uid ret = none)
    (follows : ∀ uid ret, asked uid → ¬ skipped uid ret → Follows uidOf uid (whole uid ret) (read uid ret)) :
    Reads asked skipped uidOf whole read where
  unasked
  skips uid ret left := (skips uid ret left).1
  taken uid ret entry wanted given := by
    refine (follows uid ret wanted fun left => ?_).gives entry given
    rw [(skips uid ret left).2] at given
    cases given
  fails uid ret wanted kept := (follows uid ret wanted kept).fails

/-! ## Data that comes in several answers -/

/-- The last answer that mentions the UID has this data. -/
def Latest (answers : List Response) (uid : Nat) (ret : Items) : Prop :=
  ∃ before answer after, answers = before ++ answer :: after ∧ (uid, ret) ∈ answer.entries ∧
    ∀ later ∈ after, uid ∉ later.entries.map Prod.fst

theorem latest_concat {answers : List Response} {last : Response} : Latest (answers ++ [last]) uid ret ↔
    (uid, ret) ∈ last.entries ∨ Latest answers uid ret ∧ uid ∉ last.entries.map Prod.fst := by
  constructor
  · rintro ⟨before, answer, after, split, member, silent⟩
    rcases List.eq_nil_or_concat after with rfl | ⟨after, final, rfl⟩
    · obtain ⟨-, single⟩ := List.append_inj' split rfl
      obtain rfl : last = answer := List.singleton_inj.mp single
      exact .inl member
    · have parts : answers ++ [last] = (before ++ answer :: after) ++ [final] := by
        rw [split]
        simp
      obtain ⟨rfl, single⟩ := List.append_inj' parts rfl
      obtain rfl : last = final := List.singleton_inj.mp single
      refine .inr ⟨⟨before, answer, after, rfl, member, ?_⟩, silent last (by simp)⟩
      exact fun later listed => silent later (by simp [listed])
  · rintro (member | ⟨⟨before, answer, after, rfl, member, silent⟩, absent⟩)
    · exact ⟨answers, last, [], rfl, member, by simp⟩
    · refine ⟨before, answer, after ++ [last], by simp, member, ?_⟩
      intro later listed
      rcases List.mem_append.mp listed with inside | final
      · exact silent later inside
      · rwa [List.mem_singleton.mp final]

theorem mem_update {raw answer : List (Nat × Items)} : (uid, ret) ∈ update raw answer ↔
    (uid, ret) ∈ answer ∨ (uid, ret) ∈ raw ∧ uid ∉ answer.map Prod.fst := by
  rw [update, List.mem_append, List.mem_filter, decide_eq_true_eq, or_comm]

theorem update_distinct {raw answer : List (Nat × Items)} (old : (raw.map Prod.fst).Nodup)
    (new : (answer.map Prod.fst).Nodup) : ((update raw answer).map Prod.fst).Nodup := by
  rw [update, List.map_append, List.nodup_append]
  refine ⟨old.sublist (List.Sublist.map _ List.filter_sublist), new, ?_⟩
  rintro uid kept _ there rfl
  obtain ⟨⟨_, ret⟩, member, rfl⟩ := List.mem_map.mp kept
  exact of_decide_eq_true (List.mem_filter.mp member).2 there

theorem rawMessages_spec (answers : List Response) :
    ((CrispinClient.rawMessages answers).map Prod.fst).Nodup ∧
      ∀ uid ret, (uid, ret) ∈ CrispinClient.rawMessages answers ↔ Latest answers uid ret := by
  induction answers using List.reverseRecOn with
  | nil =>
    refine ⟨List.nodup_nil, fun uid ret => ⟨fun impossible => (List.not_mem_nil impossible).elim, ?_⟩⟩
    rintro ⟨before, answer, after, impossible, -⟩
    exact absurd impossible.symm (by simp)
  | append_singleton answers last ih =>
    have merged : CrispinClient.rawMessages (answers ++ [last]) =
        update (CrispinClient.rawMessages answers) last.entries := List.foldl_concat _ _ _ _
    rw [merged]
    refine ⟨update_distinct ih.1 last.distinct, fun uid ret => ?_⟩
    rw [mem_update, latest_concat, ih.2]

theorem mem_sortByUid {raw : List (Nat × Items)} : entry ∈ sortByUid raw ↔ entry ∈ raw :=
  (List.mergeSort_perm _ _).mem_iff

theorem sortByUid_distinct {raw : List (Nat × Items)} (distinct : (raw.map Prod.fst).Nodup) :
    ((sortByUid raw).map Prod.fst).Nodup :=
  ((List.mergeSort_perm raw _).map Prod.fst).nodup_iff.mpr distinct

/-! ## The methods of `CrispinClient` -/

namespace CrispinClient

def wholeMessage (uid : Nat) (ret : Items) : Option RawMessage := do
  return ⟨uid, ← ret.internaldate, ← ret.flags, ← ret.body, none, none, none⟩

theorem reads_messages (uids : List Nat) :
    Reads (· ∈ uids) (fun _ ret => seqOnly ret) RawMessage.uid wholeMessage (readMessage uids) := by
  refine .of_follows (fun uid ret unwanted => ?_) (fun uid ret only => ⟨?_, ?_⟩) fun uid ret wanted more => ?_
  · rw [readMessage, if_pos unwanted]
  · by_cases wanted : uid ∈ uids
    · rw [readMessage, if_neg (not_not.mpr wanted), if_pos only]
    · rw [readMessage, if_pos wanted]
  · have alone : ret = { seq := ret.seq } := by simpa using (Bool.and_eq_true_iff.mp only).2
    rw [alone]
    rfl
  · rw [readMessage, if_neg (not_not.mpr wanted), if_neg more]
    exact follows_item _ _ fun _ => follows_item _ _ fun _ => follows_item _ _ fun _ => follows_some rfl

theorem wholeMessage_isSome : (wholeMessage uid ret).isSome ↔
    ret.internaldate.isSome ∧ ret.flags.isSome ∧ ret.body.isSome := by
  cases internaldate : ret.internaldate <;> cases flags : ret.flags <;> cases body : ret.body <;>
    simp [wholeMessage, internaldate, flags, body]

def wholeFlags (uid : Nat) (ret : Items) : Option (Nat × Flags) := do
  return (uid, ⟨← ret.flags, none⟩)

theorem reads_flags (uids : List Nat) :
    Reads (· ∈ uids) (fun _ _ => False) Prod.fst wholeFlags (readFlags uids) := by
  refine .of_follows (fun uid ret unwanted => ?_) (fun _ _ => False.elim) fun uid ret wanted _ => ?_
  · rw [readFlags, if_neg unwanted]
  · rw [readFlags, if_pos wanted]
    exact follows_item _ _ fun _ => follows_some rfl

theorem wholeFlags_isSome : (wholeFlags uid ret).isSome ↔ ret.flags.isSome := by
  cases flags : ret.flags <;> simp [wholeFlags, flags]

/-- The modseq is part of it where there is one. -/
def wholeChanged (uid : Nat) (ret : Items) : Option (Nat × Flags) := do
  return (uid, ⟨← ret.flags, ret.modseq⟩)

theorem reads_changed : Reads (fun _ => True) (fun _ _ => False) Prod.fst wholeChanged readChanged :=
  .of_follows (fun _ _ unwanted => absurd trivial unwanted) (fun _ _ => False.elim)
    fun _ _ _ _ => follows_item _ _ fun _ => follows_some rfl

end CrispinClient

/-! ## The methods of `GmailCrispinClient` -/

namespace GmailCrispinClient

section
variable (decode : String → String)

def wholeMessage (uid : Nat) (ret : Items) : Option RawMessage := do
  return ⟨uid, ← ret.internaldate, ← ret.flags, ← ret.body, some (← ret.gThrid), some (← ret.gMsgid),
    some (decodeLabels decode (← ret.gLabels))⟩

theorem reads_messages (uids : List Nat) :
    Reads (· ∈ uids) (fun _ _ => False) RawMessage.uid (wholeMessage decode) (readMessage decode uids) := by
  refine .of_follows (fun uid ret unwanted => ?_) (fun _ _ => False.elim) fun uid ret wanted _ => ?_
  · rw [readMessage, if_pos unwanted]
  · rw [readMessage, if_neg (not_not.mpr wanted)]
    exact follows_item _ _ fun _ => follows_item _ _ fun _ => follows_item _ _ fun _ =>
      follows_item _ _ fun _ => follows_item _ _ fun _ => follows_item _ _ fun _ => follows_some rfl

theorem wholeMessage_isSome : (wholeMessage decode uid ret).isSome ↔ ret.internaldate.isSome ∧
    ret.flags.isSome ∧ ret.body.isSome ∧ ret.gThrid.isSome ∧ ret.gMsgid.isSome ∧ ret.gLabels.isSome := by
  obtain ⟨seq, internaldate, flags, body, gThrid, gMsgid, gLabels, modseq⟩ := ret
  cases internaldate <;> cases flags <;> cases body <;> cases gThrid <;> cases gMsgid <;>
    cases gLabels <;> simp [wholeMessage]

/-- The modseq is part of it where there is one. -/
def wholeFlags (uid : Nat) (ret : Items) : Option (Nat × GmailFlags) := do
  return (uid, ⟨← ret.flags, decodeLabels decode (← ret.gLabels), ret.modseq⟩)

theorem reads_flags (uids : List Nat) :
    Reads (· ∈ uids) (fun _ _ => False) Prod.fst (wholeFlags decode) (readFlags decode uids) := by
  refine .of_follows (fun uid ret unwanted => ?_) (fun _ _ => False.elim) fun uid ret wanted _ => ?_
  · rw [readFlags, if_neg unwanted]
  · rw [readFlags, if_pos wanted]
    exact follows_item _ _ fun _ => follows_item _ _ fun _ => follows_some rfl

theorem wholeFlags_isSome : (wholeFlags decode uid ret).isSome ↔
    ret.flags.isSome ∧ ret.gLabels.isSome := by
  cases flags : ret.flags <;> cases gLabels : ret.gLabels <;> simp [wholeFlags, flags, gLabels]

def wholeEntry (uid : Nat) (ret : Items) : Option (Nat × GmailFlags) := do
  return (uid, ⟨← ret.flags, decodeLabels decode (← ret.gLabels), some (← ret.modseq)⟩)

theorem changedEntry_follows (uid : Nat) (ret : Items) :
    Follows Prod.fst uid (wholeEntry decode uid ret) (changedEntry decode uid ret) :=
  follows_item _ _ fun _ => follows_item _ _ fun _ => follows_item _ _ fun _ => follows_some rfl

theorem wholeEntry_isSome : (wholeEntry decode uid ret).isSome ↔
    ret.flags.isSome ∧ ret.gLabels.isSome ∧ ret.modseq.isSome := by
  cases flags : ret.flags <;> cases gLabels : ret.gLabels <;> cases modseq : ret.modseq <;>
    simp [wholeEntry, flags, gLabels, modseq]

/-- Complete at once, or when it is fetched again. -/
def wholeChanged (fetch : Nat → Response) (uid : Nat) (ret : Items) : Option (Nat × GmailFlags) :=
  if ret.flags = none ∨ ret.gLabels = none then
    ((fetch uid).entries.lookup uid).bind (wholeEntry decode uid)
  else wholeEntry decode uid ret

theorem reads_changed (fetch : Nat → Response) :
    Reads (fun _ => True)
      (fun uid ret => (ret.flags = none ∨ ret.gLabels = none) ∧ (fetch uid).entries = [])
      Prod.fst (wholeChanged decode fetch) (readChanged decode fetch) := by
  refine .of_follows (fun _ _ unwanted => absurd trivial unwanted) ?_ fun uid ret _ kept => ?_
  · rintro uid ret ⟨incomplete, empty⟩
    constructor
    · rw [readChanged, if_pos incomplete, if_pos empty]
    · rw [wholeChanged, if_pos incomplete, empty]
      rfl
  · by_cases incomplete : ret.flags = none ∨ ret.gLabels = none
    · have answered : (fetch uid).entries ≠ [] := fun empty => kept ⟨incomplete, empty⟩
      rw [wholeChanged, if_pos incomplete, readChanged, if_pos incomplete, if_neg answered]
      cases (fetch uid).entries.lookup uid with
      | none => exact ⟨nofun, fun _ => ⟨_, rfl⟩⟩
      | some again => exact changedEntry_follows decode uid again
    · rw [wholeChanged, if_neg incomplete, readChanged, if_neg incomplete]
      exact changedEntry_follows decode uid ret
end

end GmailCrispinClient

/-! ## Changes and checkpoints -/

/-- The caller can go by the changes: each has a modseq, none is missing whose message is still on the
server, and no checkpoint is `None`. -/
structure Tracked (modseqOf : β → Option Nat) (remoteUids : List Nat) (newHighestmodseq : Nat)
    (data : Response) (returned : List (Nat × β)) : Prop where
  modseqs : ∀ entry ∈ returned, (modseqOf entry.2).isSome
  kept : ∀ uid ret, (uid, ret) ∈ data.entries → uid ∈ remoteUids → uid ∈ returned.map Prod.fst
  checkpoints : ∀ checkpoint ∈ checkpoints (fun entry => modseqOf entry.2) returned newHighestmodseq,
    checkpoint.isSome

theorem isSome_foldr_max {modseqs : List (Option Nat)} (some : ∃ modseq ∈ modseqs, modseq.isSome) :
    (modseqs.foldr max none).isSome := by
  induction modseqs with
  | nil => simp at some
  | cons modseq modseqs ih =>
    rw [List.exists_mem_cons_iff] at some
    rw [List.foldr_cons]
    rcases some with first | later
    · cases modseq with
      | none => contradiction
      | some value => cases modseqs.foldr max none <;> rfl
    · obtain ⟨value, found⟩ := Option.isSome_iff_exists.mp (ih later)
      rw [found]
      cases modseq <;> rfl

theorem checkpoints_isSome {modseqOf : β → Option Nat} {changed : List β}
    (modseqs : ∀ entry ∈ changed, (modseqOf entry).isSome) :
    ∀ checkpoint ∈ checkpoints modseqOf changed newHighestmodseq, checkpoint.isSome := by
  intro checkpoint member
  rcases List.mem_append.mp member with interim | final
  · obtain ⟨flagBatch, listed, rfl⟩ := List.mem_map.mp interim
    obtain ⟨inChunk, full⟩ := List.mem_filter.mp listed
    have some : flagBatch ≠ [] := by
      rintro rfl
      simp [condstoreFlagsRefreshBatchSize] at full
    obtain ⟨entry, member⟩ := List.exists_mem_of_ne_nil _ some
    have sorted : entry ∈ changed := by
      have inside := List.mem_flatten.mpr ⟨flagBatch, inChunk, member⟩
      rw [chunk_flatten (by decide)] at inside
      exact (List.mergeSort_perm _ _).mem_iff.mp inside
    exact isSome_foldr_max ⟨modseqOf entry, List.mem_map_of_mem member, modseqs entry sorted⟩
  · rw [List.mem_singleton.mp final]
    rfl

/-- What the caller of `condstore_changed_flags` relies on. -/
def Condstore (whole : Nat → Items → Option (Nat × β)) (modseqOf : β → Option Nat) (remoteUids : List Nat)
    (newHighestmodseq : Nat) (data : Response) (result : Except KeyError (List (Nat × β))) : Prop :=
  Survives (fun _ => True) Prod.fst whole (fun uid ret => (uid, ret) ∈ data.entries) result ∧
    ∀ returned, result = .ok returned → Tracked modseqOf remoteUids newHighestmodseq data returned

theorem Reads.condstore_iff {skipped : Nat → Items → Prop} {whole : Nat → Items → Option (Nat × β)}
    {read : Nat → Items → Except KeyError (Option (Nat × β))}
    (reads : Reads (fun _ => True) skipped Prod.fst whole read) (data : Response) (modseqOf : β → Option Nat)
    (remoteUids : List Nat) (newHighestmodseq : Nat) :
    Condstore whole modseqOf remoteUids newHighestmodseq data (collect read data.entries) ↔
      ∀ uid ret, (uid, ret) ∈ data.entries →
        skipped uid ret ∧ uid ∉ remoteUids ∨
          ∃ entry, read uid ret = .ok (some entry) ∧ (modseqOf entry.2).isSome := by
  rw [Condstore, reads.survives_iff (fun _ _ => Iff.rfl) data.distinct]
  constructor
  · rintro ⟨complete, tracked⟩ uid ret member
    obtain ⟨returned, done⟩ := collect_ok_iff.mpr fun uid ret member =>
      reads.ok_iff.mpr (complete uid ret member)
    obtain ⟨modseqs, kept, -⟩ := tracked returned done
    by_cases left : skipped uid ret
    · refine .inl ⟨left, fun remote => ?_⟩
      obtain ⟨entry, listed, sameUid⟩ := List.mem_map.mp (kept uid ret member remote)
      obtain ⟨uid', ret', there, given⟩ := (mem_collect done).mp listed
      obtain rfl : uid' = uid := (reads.gives given).2.2.symm.trans sameUid
      have alike : (uid', ret') = (uid', ret) := List.inj_on_of_nodup_map data.distinct there member rfl
      cases alike
      rw [reads.skips uid' _ left] at given
      cases given
    · obtain ⟨entry, found⟩ :=
        Option.isSome_iff_exists.mp ((complete uid ret member trivial).resolve_left left)
      have given := (reads.taken uid ret entry trivial found).1
      exact .inr ⟨entry, given, modseqs entry ((mem_collect done).mpr ⟨uid, ret, member, given⟩)⟩
  · intro each
    refine ⟨fun uid ret member _ => ?_, fun returned done => ?_⟩
    · obtain ⟨left, -⟩ | ⟨entry, given, -⟩ := each uid ret member
      · exact .inl left
      · exact .inr (Option.isSome_iff_exists.mpr ⟨entry, (reads.gives given).2.1⟩)
    · have modseqs : ∀ entry ∈ returned, (modseqOf entry.2).isSome := by
        intro entry listed
        obtain ⟨uid, ret, member, given⟩ := (mem_collect done).mp listed
        obtain ⟨left, -⟩ | ⟨other, given', present⟩ := each uid ret member
        · rw [reads.skips uid ret left] at given
          cases given
        · rw [given] at given'
          cases given'
          exact present
      refine ⟨modseqs, fun uid ret member remote => ?_, checkpoints_isSome modseqs⟩
      obtain ⟨-, gone⟩ | ⟨entry, given, -⟩ := each uid ret member
      · exact absurd remote gone
      · exact List.mem_map.mpr ⟨entry, (mem_collect done).mpr ⟨uid, ret, member, given⟩,
          (reads.gives given).2.2⟩

theorem GmailCrispinClient.readChanged_some_iff {decode : String → String} {fetch : Nat → Response} :
    (∃ entry, readChanged decode fetch uid ret = .ok (some entry) ∧ entry.2.modseq.isSome) ↔
      (ret.flags.isSome ∧ ret.gLabels.isSome ∧ ret.modseq.isSome) ∨
      (ret.flags = none ∨ ret.gLabels = none) ∧ ∃ again, (uid, again) ∈ (fetch uid).entries ∧
        again.flags.isSome ∧ again.gLabels.isSome ∧ again.modseq.isSome := by
  have modseq : ∀ {uid ret entry}, wholeEntry decode uid ret = some entry → entry.2.modseq.isSome := by
    rintro uid ⟨seq, internaldate, flags, body, gThrid, gMsgid, gLabels, modseq⟩ entry whole
    cases flags <;> cases gLabels <;> cases modseq <;> cases whole
    rfl
  have whole : (∃ entry, readChanged decode fetch uid ret = .ok (some entry) ∧ entry.2.modseq.isSome) ↔
      ∃ entry, wholeChanged decode fetch uid ret = some entry := by
    have reads := reads_changed decode fetch
    constructor
    · rintro ⟨entry, given, -⟩
      exact ⟨entry, (reads.gives given).2.1⟩
    · rintro ⟨entry, found⟩
      refine ⟨entry, (reads.taken uid ret entry trivial found).1, ?_⟩
      unfold wholeChanged at found
      split at found
      · obtain ⟨again, -, found⟩ := Option.bind_eq_some_iff.mp found
        exact modseq found
      · exact modseq found
  rw [whole, ← Option.isSome_iff_exists]
  by_cases incomplete : ret.flags = none ∨ ret.gLabels = none
  · have notWhole : ¬ (ret.flags.isSome ∧ ret.gLabels.isSome ∧ ret.modseq.isSome) := by
      rintro ⟨flags, labels, -⟩
      rcases incomplete with missing | missing
      · rw [missing] at flags
        cases flags
      · rw [missing] at labels
        cases labels
    rw [wholeChanged, if_pos incomplete, Option.isSome_iff_exists]
    simp only [notWhole, incomplete, true_and, false_or, Option.bind_eq_some_iff]
    simp only [lookup_eq_some_iff (fetch uid).distinct]
    refine exists_comm.trans (exists_congr fun again => ?_)
    rw [exists_and_left, ← Option.isSome_iff_exists, wholeEntry_isSome]
  · rw [wholeChanged, if_neg incomplete, wholeEntry_isSome]
    simp only [incomplete, false_and, or_false]

/-! ## All methods -/

/-- Exactly which incomplete answers each method survives. Only `CrispinClient.uids` skips an entry, one
that is no more than a sequence number; a change without a modseq or without flags is one too many. -/
theorem incomplete_answers_survived_iff (decode : String → String) :
    (∀ fetch uids, Survives (· ∈ uids) RawMessage.uid CrispinClient.wholeMessage
        (Latest (CrispinClient.answers fetch uids)) (CrispinClient.uids fetch uids) ↔
      ∀ uid ret, Latest (CrispinClient.answers fetch uids) uid ret → uid ∈ uids →
        seqOnly ret ∨ ret.internaldate.isSome ∧ ret.flags.isSome ∧ ret.body.isSome) ∧
    (∀ data uids, Survives (· ∈ uids) Prod.fst CrispinClient.wholeFlags
        (fun uid ret => (uid, ret) ∈ data.entries) (CrispinClient.flags data uids) ↔
      ∀ uid ret, (uid, ret) ∈ data.entries → uid ∈ uids → ret.flags.isSome) ∧
    (∀ data remoteUids newHighestmodseq, Condstore CrispinClient.wholeChanged Flags.modseq remoteUids
        newHighestmodseq data (CrispinClient.condstoreChangedFlags data) ↔
      ∀ uid ret, (uid, ret) ∈ data.entries → ret.flags.isSome ∧ ret.modseq.isSome) ∧
    (∀ data uids, Survives (· ∈ uids) RawMessage.uid (GmailCrispinClient.wholeMessage decode)
        (fun uid ret => (uid, ret) ∈ data.entries) (GmailCrispinClient.uids decode data uids) ↔
      ∀ uid ret, (uid, ret) ∈ data.entries → uid ∈ uids → ret.internaldate.isSome ∧ ret.flags.isSome ∧
        ret.body.isSome ∧ ret.gThrid.isSome ∧ ret.gMsgid.isSome ∧ ret.gLabels.isSome) ∧
    (∀ data uids, Survives (· ∈ uids) Prod.fst (GmailCrispinClient.wholeFlags decode)
        (fun uid ret => (uid, ret) ∈ data.entries) (GmailCrispinClient.flags decode data uids) ↔
      ∀ uid ret, (uid, ret) ∈ data.entries → uid ∈ uids → ret.flags.isSome ∧ ret.gLabels.isSome) ∧
    (∀ fetch data remoteUids newHighestmodseq,
      Condstore (GmailCrispinClient.wholeChanged decode fetch) GmailFlags.modseq remoteUids newHighestmodseq
        data (GmailCrispinClient.condstoreChangedFlags decode fetch data) ↔
      ∀ uid ret, (uid, ret) ∈ data.entries →
        (ret.flags.isSome ∧ ret.gLabels.isSome ∧ ret.modseq.isSome) ∨
        (ret.flags = none ∨ ret.gLabels = none) ∧
          ((∃ again, (uid, again) ∈ (fetch uid).entries ∧
            again.flags.isSome ∧ again.gLabels.isSome ∧ again.modseq.isSome) ∨
          (fetch uid).entries = [] ∧ uid ∉ remoteUids)) := by
  refine ⟨fun fetch uids => ?_, fun data uids => ?_, fun data remoteUids newHighestmodseq => ?_,
    fun data uids => ?_, fun data uids => ?_, fun fetch data remoteUids newHighestmodseq => ?_⟩
  · obtain ⟨distinct, same⟩ := rawMessages_spec (CrispinClient.answers fetch uids)
    have survives := (CrispinClient.reads_messages uids).survives_iff
      (fun uid ret => mem_sortByUid.trans (same uid ret)) (sortByUid_distinct distinct)
    simp only [CrispinClient.wholeMessage_isSome] at survives
    exact survives
  · have survives := (CrispinClient.reads_flags uids).survives_iff (fun _ _ => Iff.rfl) data.distinct
    simp only [CrispinClient.wholeFlags_isSome, false_or] at survives
    exact survives
  · have tracked := CrispinClient.reads_changed.condstore_iff data Flags.modseq remoteUids newHighestmodseq
    have read : ∀ uid ret, (∃ entry, CrispinClient.readChanged uid ret = .ok (some entry) ∧
        entry.2.modseq.isSome) ↔ ret.flags.isSome ∧ ret.modseq.isSome := by
      rintro uid ⟨seq, internaldate, flags, body, gThrid, gMsgid, gLabels, modseq⟩
      cases flags <;> simp [CrispinClient.readChanged, bind, Except.bind, pure, Except.pure]
    simp only [read, false_and, false_or] at tracked
    exact tracked
  · have survives := (GmailCrispinClient.reads_messages decode uids).survives_iff
      (fun _ _ => mem_sortByUid) (sortByUid_distinct data.distinct)
    simp only [GmailCrispinClient.wholeMessage_isSome, false_or] at survives
    exact survives
  · have survives := (GmailCrispinClient.reads_flags decode uids).survives_iff (fun _ _ => Iff.rfl)
      data.distinct
    simp only [GmailCrispinClient.wholeFlags_isSome, false_or] at survives
    exact survives
  · have tracked := (GmailCrispinClient.reads_changed decode fetch).condstore_iff data GmailFlags.modseq
      remoteUids newHighestmodseq
    refine tracked.trans (forall_congr' fun uid => forall_congr' fun ret => imp_congr_right fun _ => ?_)
    rw [GmailCrispinClient.readChanged_some_iff, and_assoc, and_or_left, or_left_comm]
    exact or_congr_right or_comm

/-- Gmail answers the second fetch with all it was asked for, which does not include the modseq. -/
theorem repaired_change_fails :
    GmailCrispinClient.condstoreChangedFlags id
      (fun _ => ⟨[(5, { flags := some [], gLabels := some [] })], by decide⟩)
      ⟨[(5, { flags := some [], modseq := some 70 })], by decide⟩ = .error ⟨"MODSEQ"⟩ ∧
    ¬ ∀ fetch data remoteUids newHighestmodseq,
      Condstore (GmailCrispinClient.wholeChanged id fetch) GmailFlags.modseq remoteUids newHighestmodseq
        data (GmailCrispinClient.condstoreChangedFlags id fetch data) := by
  have fails : GmailCrispinClient.condstoreChangedFlags id
      (fun _ => ⟨[(5, { flags := some [], gLabels := some [] })], by decide⟩)
      ⟨[(5, { flags := some [], modseq := some 70 })], by decide⟩ = .error ⟨"MODSEQ"⟩ := rfl
  refine ⟨fails, fun all => ?_⟩
  obtain ⟨returned, done, -⟩ := (all (fun _ => ⟨[(5, { flags := some [], gLabels := some [] })], by decide⟩)
    ⟨[(5, { flags := some [], modseq := some 70 })], by decide⟩ [5] 80).1
  rw [fails] at done
  cases done

end SyncEngine.FetchResponses
