import Mathlib
import SyncEngine.Models.SyncedMessage
import SyncEngine.Util.FileWrites
import SyncEngine.Util.Runs

/-! The blocks that are kept as files named by their hashes. Any number of processes save and read them at
once; nothing locks a file, and whoever saves a block that is there already truncates its file first. -/
namespace SyncEngine
namespace BlockFiles
open FileWrites
open Synced (Bytes)

/-! `sha256(…).hexdigest()` -/
variable (sha256 : Bytes → String)

inductive Phase
  | writing
  | closed
  /-- The process was killed, or the disk was full. -/
  | dead
deriving DecidableEq

/-- A call of `save_to_blockstore` that has opened its file. -/
structure Save where
  data : Bytes
  offset : Nat
  phase : Phase

inductive Outcome
  | missing
  | returned (value : Bytes)
  | assertionError
deriving DecidableEq

/-- A call of `get_from_blockstore`, with what it has read. -/
structure Reading where
  dataSha256 : String
  value : Bytes
  outcome : Option Outcome

/-- `last` has the save that opened each file last; only the proofs look at it. -/
structure World where
  files : String → Option Bytes
  saves : List Save
  readings : List Reading
  last : String → Option Nat

inductive Action
  /-- `open(…, 'wb')` -/
  | save (data : Bytes)
  /-- Some more of the buffered bytes reach the file. -/
  | write (id count : Nat)
  | close (id : Nat)
  | die (id : Nat)
  /-- `open(…, 'rb')` -/
  | get (dataSha256 : String)
  | read (id count : Nat)
deriving DecidableEq

/-- `f.read()` goes on until there are no more bytes. -/
def readMore (contents : Bytes) (count : Nat) (reading : Reading) : Reading :=
  let more := chunkAt contents reading.value.length count
  if more = [] then
    { reading with outcome := some (if reading.dataSha256 = sha256 reading.value then .returned reading.value
        else .assertionError) }
  else { reading with value := reading.value ++ more }

namespace World

/-- The file is created, or truncated, and the new save is the last one to open it. -/
def opens (w : World) (data : Bytes) : World :=
  { w with
    files := Function.update w.files (sha256 data) (some [])
    saves := w.saves ++ [⟨data, 0, .writing⟩]
    last := Function.update w.last (sha256 data) (some w.saves.length) }

def writes (w : World) (id : Nat) (save : Save) (count : Nat) : World :=
  let chunk := chunkAt save.data save.offset count
  let contents := (w.files (sha256 save.data)).getD []
  { w with
    files := Function.update w.files (sha256 save.data) (some (overwrite contents save.offset chunk))
    saves := w.saves.set id { save with offset := save.offset + chunk.length } }

def ends (w : World) (id : Nat) (save : Save) (phase : Phase) : World :=
  { w with saves := w.saves.set id { save with phase } }

def writing (w : World) (id : Nat) : Option Save := w.saves[id]?.filter fun save => save.phase = .writing

end World

def step (w : World) : Action → Option World
  | .save data => if data = [] then some w else some (w.opens sha256 data)
  | .write id count => (w.writing id).map fun save => w.writes sha256 id save count
  | .close id => (w.writing id).bind fun save =>
    if save.offset = save.data.length then some (w.ends id save .closed) else none
  | .die id => (w.writing id).map fun save => w.ends id save .dead
  | .get dataSha256 =>
    let outcome := if dataSha256 = "" ∨ w.files dataSha256 = none then some .missing else none
    some { w with readings := w.readings ++ [⟨dataSha256, [], outcome⟩] }
  | .read id count => (w.readings[id]?.filter fun reading => reading.outcome = none).bind fun reading =>
    let contents := (w.files reading.dataSha256).getD []
    if 0 < count then some { w with readings := w.readings.set id (readMore sha256 contents count reading) }
    else none

def start : World := ⟨fun _ => none, [], [], fun _ => none⟩

/-- The save that opened the file of these data last has closed it. -/
def Settled (w : World) (data : Bytes) : Prop :=
  ∃ id save, w.last (sha256 data) = some id ∧ w.saves[id]? = some save ∧ save.data = data ∧ save.phase = .closed

/-! ## Files -/
section Files
variable {sha256} {w next : World} {pool : Bytes → Prop} {data : Bytes}

/-- Up to where the last save of a file has written it, the file holds the data, and no file is longer than
its data. Other saves of the file may still write, but they write the same. -/
structure Sound (sha256 : Bytes → String) (pool : Bytes → Prop) (w : World) : Prop where
  data : ∀ (id : Nat) (save : Save), w.saves[id]? = some save → pool save.data ∧
    save.offset ≤ save.data.length ∧ (save.phase = .closed → save.offset = save.data.length) ∧
    w.last (sha256 save.data) ≠ none
  last : ∀ (name : String) (id : Nat), w.last name = some id → ∃ (save : Save) (contents : Bytes),
    w.saves[id]? = some save ∧ sha256 save.data = name ∧ w.files name = some contents ∧
    contents.length ≤ save.data.length ∧ ∀ i < save.offset, contents[i]? = save.data[i]?

theorem sound_start : Sound sha256 pool start where
  data _ _ found := by simp [start] at found
  last _ _ found := by simp [start] at found

/-- The file of settled data is whole. -/
theorem Sound.whole (sound : Sound sha256 pool w) (settled : Settled sha256 w data) :
    w.files (sha256 data) = some data := by
  obtain ⟨id, save, latest, found, rfl, closed⟩ := settled
  obtain ⟨same, contents, found', -, file, shorter, right⟩ := sound.last _ _ latest
  obtain rfl := Option.some.inj (found.symm.trans found')
  have done := (sound.data _ _ found).2.2.1 closed
  rw [file]
  congr 1
  refine List.ext_getElem? fun i => ?_
  by_cases inside : i < save.offset
  · exact right i inside
  · rw [List.getElem?_eq_none (by omega), List.getElem?_eq_none (by omega)]

theorem mem_set {saves : List Save} {id other : Nat} {after save : Save}
    (found : (saves.set id after)[other]? = some save) :
    other = id ∧ save = after ∧ id < saves.length ∨ other ≠ id ∧ saves[other]? = some save := by
  by_cases same : other = id
  · subst same
    obtain ⟨inside, rfl⟩ := List.getElem?_eq_some_iff.mp found
    rw [List.length_set] at inside
    exact .inl ⟨rfl, by simp, inside⟩
  · rw [List.getElem?_set_ne (Ne.symm same)] at found
    exact .inr ⟨same, found⟩

/-- A save that ends leaves the files alone. -/
theorem Sound.ends {id : Nat} {before : Save} (sound : Sound sha256 pool w) (found : w.saves[id]? = some before)
    (phase : Phase) (closed : phase = .closed → before.offset = before.data.length) :
    Sound sha256 pool (w.ends id before phase) where
  data other save held := by
    rcases mem_set held with ⟨rfl, rfl, -⟩ | ⟨-, held⟩
    · exact ⟨(sound.data _ _ found).1, (sound.data _ _ found).2.1, closed, (sound.data _ _ found).2.2.2⟩
    · exact sound.data other save held
  last name latest is_last := by
    obtain ⟨save, contents, held, named, file, shorter, right⟩ := sound.last name latest is_last
    by_cases same : latest = id
    · subst same
      obtain rfl := Option.some.inj (found.symm.trans held)
      exact ⟨_, contents, List.getElem?_set_self (List.getElem?_eq_some_iff.mp found).1, named, file, shorter,
        right⟩
    · exact ⟨save, contents, (List.getElem?_set_ne (Ne.symm same)).trans held, named, file, shorter, right⟩

/-- Whoever writes, what was right before stays right, and the writer's own bytes are right. -/
theorem Sound.writes {id : Nat} {before : Save} (sound : Sound sha256 pool w)
    (unique : ∀ a b, pool a → pool b → sha256 a = sha256 b → a = b) (found : w.saves[id]? = some before)
    (writing : before.phase = .writing) (count : Nat) :
    Sound sha256 pool (w.writes sha256 id before count) where
  data other save held := by
    rcases mem_set held with ⟨rfl, rfl, -⟩ | ⟨-, held⟩
    · have was := sound.data _ _ found
      exact ⟨was.1, chunkAt_length was.2.1, fun closed => absurd (writing.symm.trans closed) (by simp), was.2.2.2⟩
    · exact sound.data other save held
  last name latest is_last := by
    obtain ⟨save, contents, held, rfl, file, shorter, right⟩ := sound.last name latest is_last
    have within := (sound.data _ _ found).2.1
    by_cases other_file : sha256 save.data = sha256 before.data
    · obtain data_same := unique _ _ (sound.data _ _ held).1 (sound.data _ _ found).1 other_file
      have long : (overwrite contents before.offset (chunkAt before.data before.offset count)).length ≤
          save.data.length := by
        rw [overwrite_length, data_same]
        exact Nat.max_le.mpr ⟨data_same ▸ shorter, chunkAt_length within⟩
      have file_now : (w.writes sha256 id before count).files (sha256 save.data) =
          some (overwrite contents before.offset (chunkAt before.data before.offset count)) := by
        rw [other_file]
        refine (Function.update_self ..).trans ?_
        rw [← other_file, file, Option.getD_some]
      by_cases same : latest = id
      · subst same
        obtain rfl := Option.some.inj (found.symm.trans held)
        refine ⟨_, _, List.getElem?_set_self (List.getElem?_eq_some_iff.mp found).1, rfl, file_now, long, ?_⟩
        intro i inside
        refine overwrite_agrees within ?_
        by_cases early : i < before.offset
        · exact .inl (right i early)
        · exact .inr ⟨by omega, inside⟩
      · refine ⟨save, _, (List.getElem?_set_ne (Ne.symm same)).trans held, rfl, file_now, long, ?_⟩
        intro i inside
        rw [data_same] at right ⊢
        exact overwrite_agrees within (.inl (right i inside))
    · exact ⟨save, contents, by
        rw [← held]
        refine List.getElem?_set_ne fun same => other_file ?_
        subst same
        rw [Option.some.inj (held.symm.trans found)], rfl,
        (Function.update_of_ne other_file _ _).trans file, shorter, right⟩

theorem Sound.opens (sound : Sound sha256 pool w) (among : pool data) : Sound sha256 pool (w.opens sha256 data) where
  data id save held := by
    rw [World.opens] at held ⊢
    dsimp only at held ⊢
    rcases Nat.lt_or_ge id w.saves.length with old | new
    · rw [List.getElem?_append_left old] at held
      obtain ⟨known, within, closed, is_last⟩ := sound.data id save held
      refine ⟨known, within, closed, ?_⟩
      by_cases same : sha256 save.data = sha256 data
      · rw [same, Function.update_self]
        exact Option.some_ne_none _
      · rwa [Function.update_of_ne same]
    · rw [List.getElem?_append_right new] at held
      obtain rfl := List.mem_singleton.mp (List.mem_of_getElem? held)
      exact ⟨among, Nat.zero_le _, by simp, by simp⟩
  last name id is_last := by
    rw [World.opens] at is_last ⊢
    dsimp only at is_last ⊢
    by_cases same : name = sha256 data
    · subst same
      rw [Function.update_self] at is_last
      cases is_last
      exact ⟨⟨data, 0, .writing⟩, [], by simp, rfl, Function.update_self .., Nat.zero_le _, by simp⟩
    · rw [Function.update_of_ne same] at is_last
      obtain ⟨save, contents, held, named, file, rest⟩ := sound.last name id is_last
      refine ⟨save, contents, ?_, named, (Function.update_of_ne same _ _).trans file, rest⟩
      exact (List.getElem?_append_left (List.getElem?_eq_some_iff.mp held).1).trans held

/-! ### One step -/

theorem writing_some {id : Nat} {save : Save} (found : w.writing id = some save) :
    w.saves[id]? = some save ∧ save.phase = .writing := by
  obtain ⟨found, writing⟩ := Option.filter_eq_some_iff.mp found
  exact ⟨found, of_decide_eq_true writing⟩

/-- What a step can do to the files. -/
theorem step_cases {action : Action} (stepped : step sha256 w action = some next) :
    (∃ readings, next = { w with readings }) ∨
    (∃ data, action = .save data ∧ data ≠ [] ∧ next = w.opens sha256 data) ∨
    ∃ id save, w.saves[id]? = some save ∧ save.phase = .writing ∧
      ((∃ count, next = w.writes sha256 id save count) ∨
        ∃ phase, (phase = .closed → save.offset = save.data.length) ∧ next = w.ends id save phase) := by
  cases action with
  | save data =>
    rw [step] at stepped
    split at stepped <;> cases stepped
    · exact .inl ⟨w.readings, rfl⟩
    · rename_i some_data
      exact .inr (.inl ⟨data, rfl, some_data, rfl⟩)
  | write id count =>
    obtain ⟨save, found, rfl⟩ := Option.map_eq_some_iff.mp stepped
    obtain ⟨found, writing⟩ := writing_some found
    exact .inr (.inr ⟨id, save, found, writing, .inl ⟨count, rfl⟩⟩)
  | close id =>
    obtain ⟨save, found, ended⟩ := Option.bind_eq_some_iff.mp stepped
    obtain ⟨found, writing⟩ := writing_some found
    obtain ⟨done, same⟩ := Option.ite_none_right_eq_some.mp ended
    cases same
    exact .inr (.inr ⟨id, save, found, writing, .inr ⟨.closed, fun _ => done, rfl⟩⟩)
  | die id =>
    obtain ⟨save, found, rfl⟩ := Option.map_eq_some_iff.mp stepped
    obtain ⟨found, writing⟩ := writing_some found
    exact .inr (.inr ⟨id, save, found, writing, .inr ⟨.dead, by simp, rfl⟩⟩)
  | get dataSha256 =>
    cases stepped
    exact .inl ⟨_, rfl⟩
  | read id count =>
    obtain ⟨reading, found, more⟩ := Option.bind_eq_some_iff.mp stepped
    obtain ⟨some_bytes, same⟩ := Option.ite_none_right_eq_some.mp more
    cases same
    exact .inl ⟨_, rfl⟩

theorem sound_step {action : Action} (unique : ∀ a b, pool a → pool b → sha256 a = sha256 b → a = b)
    (sound : Sound sha256 pool w) (among : ∀ data, action = .save data → pool data)
    (stepped : step sha256 w action = some next) : Sound sha256 pool next := by
  obtain ⟨readings, rfl⟩ | ⟨data, rfl, -, rfl⟩ | ⟨id, save, found, writing, ⟨count, rfl⟩ | ⟨phase, done, rfl⟩⟩ :=
    step_cases stepped
  · exact ⟨sound.data, sound.last⟩
  · exact sound.opens (among data rfl)
  · exact sound.writes unique found writing count
  · exact sound.ends found phase done

/-- What is settled stays so until the same data are saved again. -/
theorem settled_step {action : Action} (settled : Settled sha256 w data)
    (other : ∀ again, action = .save again → sha256 again ≠ sha256 data)
    (stepped : step sha256 w action = some next) : Settled sha256 next data := by
  obtain ⟨id, save, latest, found, same, closed⟩ := settled
  have apart : ∀ {writer : Nat} {held : Save}, w.saves[writer]? = some held → held.phase = .writing →
      ∀ after, (w.saves.set writer after)[id]? = some save := by
    intro writer held writes writing after
    refine (List.getElem?_set_ne ?_).trans found
    rintro rfl
    rw [Option.some.inj (writes.symm.trans found), closed] at writing
    cases writing
  obtain ⟨readings, rfl⟩ | ⟨again, rfl, -, rfl⟩ |
      ⟨writer, held, writes, writing, ⟨count, rfl⟩ | ⟨phase, -, rfl⟩⟩ := step_cases stepped
  · exact ⟨id, save, latest, found, same, closed⟩
  · refine ⟨id, save, (Function.update_of_ne (other again rfl).symm _ _).trans latest, ?_, same, closed⟩
    exact (List.getElem?_append_left (List.getElem?_eq_some_iff.mp found).1).trans found
  · exact ⟨id, save, latest, apart writes writing _, same, closed⟩
  · exact ⟨id, save, latest, apart writes writing _, same, closed⟩

/-! ## Readings -/

/-- A reading of these data that has gone well so far. -/
def Reads (sha256 : Bytes → String) (data : Bytes) (reading : Reading) : Prop :=
  reading.dataSha256 = sha256 data ∧
    (reading.outcome = none ∧ reading.value <+: data ∨ reading.outcome = some (.returned data))

theorem reads_readMore {reading : Reading} {count : Nat} (some_bytes : 0 < count)
    (reads : Reads sha256 data reading) (going : reading.outcome = none) :
    Reads sha256 data (readMore sha256 data count reading) := by
  obtain ⟨named, ⟨-, rest, split⟩ | ended⟩ := reads
  · have more : chunkAt data reading.value.length count = rest.take count := by
      rw [chunkAt, ← split, List.drop_left]
    rw [readMore, more]
    split
    · rename_i nothing
      have whole : reading.value = data := by
        rw [← split, (List.take_eq_nil_iff.mp nothing).resolve_left (by omega), List.append_nil]
      refine ⟨named, .inr ?_⟩
      rw [if_pos (by rw [named, whole]), whole]
    · refine ⟨named, .inl ⟨going, ?_⟩⟩
      rw [← split]
      exact (List.prefix_append_right_inj _).mpr (List.take_prefix _ _)
  · rw [going] at ended
    cases ended

theorem reads_step {action : Action} {index : Nat} (sound : Sound sha256 pool w)
    (settled : Settled sha256 w data) (reads : ∃ reading, w.readings[index]? = some reading ∧
      Reads sha256 data reading) (stepped : step sha256 w action = some next) :
    ∃ reading, next.readings[index]? = some reading ∧ Reads sha256 data reading := by
  obtain ⟨reading, found, reads⟩ := reads
  cases action with
  | save again =>
    rw [step] at stepped
    split at stepped <;> cases stepped <;> exact ⟨reading, found, reads⟩
  | write id count =>
    obtain ⟨save, -, rfl⟩ := Option.map_eq_some_iff.mp stepped
    exact ⟨reading, found, reads⟩
  | close id =>
    obtain ⟨save, -, ended⟩ := Option.bind_eq_some_iff.mp stepped
    obtain ⟨-, same⟩ := Option.ite_none_right_eq_some.mp ended
    cases same
    exact ⟨reading, found, reads⟩
  | die id =>
    obtain ⟨save, -, rfl⟩ := Option.map_eq_some_iff.mp stepped
    exact ⟨reading, found, reads⟩
  | get dataSha256 =>
    cases stepped
    exact ⟨reading, (List.getElem?_append_left (List.getElem?_eq_some_iff.mp found).1).trans found, reads⟩
  | read id count =>
    obtain ⟨other, held, more⟩ := Option.bind_eq_some_iff.mp stepped
    obtain ⟨some_bytes, same⟩ := Option.ite_none_right_eq_some.mp more
    cases same
    obtain ⟨held, going⟩ := Option.filter_eq_some_iff.mp held
    by_cases here : id = index
    · subst here
      obtain rfl := Option.some.inj (found.symm.trans held)
      refine ⟨_, List.getElem?_set_self (List.getElem?_eq_some_iff.mp found).1, ?_⟩
      rw [reads.1, sound.whole settled, Option.getD_some]
      exact reads_readMore some_bytes reads (of_decide_eq_true going)
    · exact ⟨reading, (List.getElem?_set_ne here).trans found, reads⟩

end Files

/-- However many processes save the same data at once, once the last that has opened their file has closed it,
the file is whole; whoever begins to read it then gets these data and nothing else, unless the data are
saved again meanwhile. -/
theorem saved_block_read (actions during : List Action)
    (unique : ∀ a b, .save a ∈ actions ++ during → .save b ∈ actions ++ during → sha256 a = sha256 b → a = b)
    (w t : World) (ran : Runs.run (step sha256) start actions = some w) (data : Bytes)
    (named : sha256 data ≠ "") (settled : Settled sha256 w data) :
    w.files (sha256 data) = some data ∧
      ((∀ again, .save again ∈ during → sha256 again ≠ sha256 data) →
        Runs.run (step sha256) w (.get (sha256 data) :: during) = some t →
        ∃ reading, t.readings[w.readings.length]? = some reading ∧
          (reading.outcome = none ∨ reading.outcome = some (.returned data))) := by
  let pool (data : Bytes) : Prop := .save data ∈ actions ++ during
  have sound : Sound sha256 pool w := by
    refine Runs.invariant_of_events (Sound sha256 pool) sound_start (fun action member s next sound stepped =>
      sound_step unique sound (fun data same => ?_) stepped) ran
    exact List.mem_append_left _ (same ▸ member)
  have whole := sound.whole settled
  refine ⟨whole, fun apart goes => ?_⟩
  obtain ⟨opened, got, goes⟩ := Option.bind_eq_some_iff.mp goes
  cases got
  rw [if_neg (by simp [named, whole])] at goes
  let going (s : World) : Prop := Sound sha256 pool s ∧ Settled sha256 s data ∧
    ∃ reading, s.readings[w.readings.length]? = some reading ∧ Reads sha256 data reading
  have begun : going { w with readings := w.readings ++ [⟨sha256 data, [], none⟩] } :=
    ⟨⟨sound.data, sound.last⟩, settled, ⟨sha256 data, [], none⟩, by simp, rfl, .inl ⟨rfl, List.nil_prefix⟩⟩
  have goes_on : ∀ action ∈ during, ∀ s next, going s → step sha256 s action = some next → going next := by
    intro action member s next held stepped
    obtain ⟨sound, settled, reads⟩ := held
    refine ⟨sound_step unique sound (fun again same => ?_) stepped,
      settled_step settled (fun again same => apart again (same ▸ member)) stepped,
      reads_step sound settled reads stepped⟩
    exact List.mem_append_right _ (same ▸ member)
  obtain ⟨-, -, reading, found, reads⟩ := Runs.invariant_of_events going begun goes_on goes
  exact ⟨reading, found, reads.2.imp And.left id⟩

namespace Sample

/-- Any function will do that tells the saved data apart. -/
def hash (data : Bytes) : String := if data = [1, 2, 3, 4] then "a" else "b"

/-- The second save truncates what the first has written, and the first goes on beyond the end of the file. -/
def together : List Action :=
  [.save [1, 2, 3, 4], .write 0 2, .save [1, 2, 3, 4], .write 0 1, .write 1 1, .write 0 1, .close 0, .write 1 3,
    .close 1]

def during : List Action := [.read 0 3, .save [5], .read 0 3, .read 0 1]

end Sample

theorem block_saved_twice : ∃ w t, Runs.run (step Sample.hash) start Sample.together = some w ∧
    w.files "a" = some [1, 2, 3, 4] ∧ Runs.run (step Sample.hash) w (.get "a" :: Sample.during) = some t ∧
    ∃ reading, t.readings[w.readings.length]? = some reading ∧
      (reading.outcome = none ∨ reading.outcome = some (.returned [1, 2, 3, 4])) := by
  have saved : (Runs.run (step Sample.hash) start Sample.together).map (fun w => (w.last "a", w.saves)) =
      some (some 1, [⟨[1, 2, 3, 4], 4, .closed⟩, ⟨[1, 2, 3, 4], 4, .closed⟩]) := rfl
  have goes : ((Runs.run (step Sample.hash) start Sample.together).bind fun w =>
      Runs.run (step Sample.hash) w (.get "a" :: Sample.during)).isSome := rfl
  obtain ⟨w, ran, ends⟩ := Option.map_eq_some_iff.mp saved
  obtain ⟨last, saves⟩ := Prod.mk.inj ends
  rw [ran, Option.bind_some] at goes
  obtain ⟨t, goes⟩ := Option.isSome_iff_exists.mp goes
  have unique : ∀ a b, .save a ∈ Sample.together ++ Sample.during → .save b ∈ Sample.together ++ Sample.during →
      Sample.hash a = Sample.hash b → a = b := by
    intro a b once twice same
    simp [Sample.together, Sample.during] at once twice
    rcases once with rfl | rfl <;> rcases twice with rfl | rfl <;> first | rfl | exact absurd same (by decide)
  obtain ⟨whole, reads⟩ := saved_block_read Sample.hash Sample.together Sample.during unique w t ran [1, 2, 3, 4] (by decide)
    ⟨1, ⟨[1, 2, 3, 4], 4, .closed⟩, last, by rw [saves]; rfl, rfl, rfl⟩
  refine ⟨w, t, ran, whole, goes, reads ?_ goes⟩
  simp [Sample.during, Sample.hash]

end BlockFiles
end SyncEngine
