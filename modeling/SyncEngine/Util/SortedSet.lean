import Mathlib.Data.List.Nodup
import Mathlib.Data.List.Sort
import Mathlib.Order.Lattice

/-! Sets whose members have scores, as Redis keeps them: a member has one score, the one it got last. Nothing
here fixes the members, their scores or the order of two members of one score. -/
variable {Score Member Key : Type}

structure SortedSet (Score Member : Type) where
  entries : List (Score × Member)
  distinct : (entries.map Prod.snd).Nodup

namespace SortedSet
variable {set : SortedSet Score Member} {score : Score} {member other : Member}

def empty : SortedSet Score Member := ⟨[], .nil⟩

@[simp] theorem not_mem_empty (entry : Score × Member) : entry ∉ (empty : SortedSet Score Member).entries :=
  List.not_mem_nil

/-! ## In the order of their scores -/
section Range
variable [LinearOrder Key] (key : Score × Member → Key)

def zrange (set : SortedSet Score Member) : List (Score × Member) :=
  set.entries.insertionSort fun a b => key a ≤ key b

theorem mem_zrange {entry : Score × Member} : entry ∈ set.zrange key ↔ entry ∈ set.entries :=
  (List.perm_insertionSort _ _).mem_iff

theorem zrange_distinct (set : SortedSet Score Member) : ((set.zrange key).map Prod.snd).Nodup :=
  ((List.perm_insertionSort _ _).map Prod.snd).nodup_iff.mpr set.distinct

theorem zrange_sorted (set : SortedSet Score Member) : (set.zrange key).Pairwise fun a b => key a ≤ key b := by
  have total : Std.Total fun a b : Score × Member => key a ≤ key b := ⟨fun a b => le_total (key a) (key b)⟩
  have trans : IsTrans (Score × Member) fun a b => key a ≤ key b := ⟨fun _ _ _ ab bc => ab.trans bc⟩
  exact List.pairwise_insertionSort _ _

end Range

/-! ## Members come and go -/
variable [DecidableEq Member]

def zrem (set : SortedSet Score Member) (member : Member) : SortedSet Score Member where
  entries := set.entries.filter fun entry => entry.2 ≠ member
  distinct := set.distinct.sublist (List.filter_sublist.map _)

theorem zrem_fresh (set : SortedSet Score Member) (member : Member) :
    member ∉ (set.zrem member).entries.map Prod.snd := by
  intro held
  obtain ⟨entry, among, rfl⟩ := List.mem_map.mp held
  exact of_decide_eq_true (List.mem_filter.mp among).2 rfl

def zadd (set : SortedSet Score Member) (score : Score) (member : Member) : SortedSet Score Member where
  entries := (score, member) :: (set.zrem member).entries
  distinct := List.nodup_cons.mpr ⟨set.zrem_fresh member, (set.zrem member).distinct⟩

theorem mem_zrem : (score, other) ∈ (set.zrem member).entries ↔ other ≠ member ∧ (score, other) ∈ set.entries := by
  simp [zrem, and_comm]

theorem mem_zadd {given : Score} : (score, other) ∈ (set.zadd given member).entries ↔
    other = member ∧ score = given ∨ other ≠ member ∧ (score, other) ∈ set.entries := by
  rw [zadd, List.mem_cons, mem_zrem, Prod.mk.injEq, and_comm (a := score = given)]

end SortedSet
