import Mathlib

/-! Items that go one after the other into the bin that is least loaded, the largest first. Nothing here
fixes the items, their sizes or the bins. -/
namespace ListScheduling
variable {Item Load : Type} [Field Load] {size : Item → Load} {n : Nat} {bound : Load} {item : Item}
variable {bin items : List Item} {bins : List (List Item)}

def load (size : Item → Load) (bin : List Item) : Load := (bin.map size).sum

@[simp] theorem load_nil : load size [] = 0 := rfl

@[simp] theorem load_cons : load size (item :: bin) = size item + load size bin := List.sum_cons

@[simp] theorem load_append (other : List Item) : load size (bin ++ other) = load size bin + load size other := by
  simp [load]

theorem load_perm (same : items.Perm bin) : load size items = load size bin := (same.map size).sum_eq

theorem load_flatten (bins : List (List Item)) : load size bins.flatten = (bins.map (load size)).sum := by
  induction bins with
  | nil => rfl
  | cons bin bins ih => rw [List.flatten_cons, load_append, ih, List.map_cons, List.sum_cons]

/-! ## Bins -/
section Put

theorem flatten_put_perm (before after : List (List Item)) (bin : List Item) (item : Item) :
    (before ++ (bin ++ [item]) :: after).flatten.Perm ((before ++ bin :: after).flatten ++ [item]) := by
  simp only [List.flatten_append, List.flatten_cons, List.append_assoc]
  exact (List.perm_append_comm.append_left _).append_left _

theorem split_modify {A : Type} {all : List A} {a : A} {i : Nat} (at_index : all[i]? = some a) :
    ∃ before after, all = before ++ a :: after ∧ ∀ f, all.modify i f = before ++ f a :: after := by
  obtain ⟨inside, rfl⟩ := List.getElem?_eq_some_iff.mp at_index
  exact ⟨all.take i, all.drop (i + 1), by simp, fun f => List.modify_eq_take_cons_drop inside⟩

/-- Wherever the item goes, it is there in the end. -/
theorem flatten_modify_perm {i : Nat} (at_index : bins[i]? = some bin) (item : Item) :
    (bins.modify i (· ++ [item])).flatten.Perm (bins.flatten ++ [item]) := by
  obtain ⟨before, after, rfl, modified⟩ := split_modify at_index
  rw [modified]
  exact flatten_put_perm before after bin item

end Put

section Bins
variable [LinearOrder Load]

/-- `n` bins can hold the items, none of them more than `bound`. -/
def Fits (size : Item → Load) (n : Nat) (bound : Load) (items : List Item) : Prop :=
  ∃ bins : List (List Item), bins.length = n ∧ bins.flatten.Perm items ∧ ∀ bin ∈ bins, load size bin ≤ bound

/-- What `n` bins hold once the items have gone into them, each into a bin that was least loaded then. -/
inductive Filled (size : Item → Load) (n : Nat) : List (List Item) → List Item → Prop where
  | nil : Filled size n (List.replicate n []) []
  | put {before after : List (List Item)} {bin items : List Item} (item : Item) : Filled size n (before ++ bin :: after) items →
      (∀ other ∈ before ++ bin :: after, load size bin ≤ load size other) →
      Filled size n (before ++ (bin ++ [item]) :: after) (items ++ [item])

theorem Filled.length (filled : Filled size n bins items) : bins.length = n := by
  induction filled with
  | nil => exact List.length_replicate
  | put item filled least ih => simpa using ih

theorem Filled.perm (filled : Filled size n bins items) : bins.flatten.Perm items := by
  induction filled with
  | nil => simp
  | put item filled least ih => exact (flatten_put_perm ..).trans (ih.append_right [item])

/-- The item goes into the bin at an index. -/
theorem Filled.modify {i : Nat} (filled : Filled size n bins items) (at_index : bins[i]? = some bin)
    (least : ∀ other ∈ bins, load size bin ≤ load size other) (item : Item) :
    Filled size n (bins.modify i (· ++ [item])) (items ++ [item]) := by
  obtain ⟨before, after, rfl, modified⟩ := split_modify at_index
  rw [modified]
  exact .put item filled least

variable [IsStrictOrderedRing Load]

theorem load_nonneg (nonneg : ∀ item ∈ bin, 0 ≤ size item) : 0 ≤ load size bin := by
  induction bin with
  | nil => exact le_rfl
  | cons item bin ih =>
    rw [load_cons]
    exact add_nonneg (nonneg item List.mem_cons_self) (ih fun other member =>
      nonneg other (List.mem_cons_of_mem _ member))

theorem Fits.nonneg (fits : Fits size n bound items) (some_bin : 0 < n)
    (nonneg : ∀ item ∈ items, 0 ≤ size item) : 0 ≤ bound := by
  obtain ⟨bins, length, perm, within⟩ := fits
  obtain ⟨bin, member⟩ := List.exists_mem_of_length_pos (length ▸ some_bin)
  refine le_trans (load_nonneg fun item among => nonneg item ?_) (within bin member)
  exact perm.mem_iff.mp (List.mem_flatten.mpr ⟨bin, member, among⟩)

/-- An item can be taken out. -/
theorem Fits.of_concat (fits : Fits size n bound (items ++ [item])) (nonneg : 0 ≤ size item) :
    Fits size n bound items := by
  obtain ⟨bins, length, perm, within⟩ := fits
  obtain ⟨bin, member, among⟩ := List.mem_flatten.mp (perm.mem_iff.mpr (List.mem_concat_self))
  obtain ⟨before, after, rfl⟩ := List.append_of_mem member
  obtain ⟨first, rest, rfl⟩ := List.append_of_mem among
  refine ⟨before ++ (first ++ rest) :: after, by simpa using length, ?_, fun other held => ?_⟩
  · refine List.perm_cons item |>.mp (.trans ?_ (perm.trans List.perm_append_comm))
    simp only [List.flatten_append, List.flatten_cons, List.append_assoc, List.cons_append]
    rw [← List.append_assoc, ← List.append_assoc before.flatten]
    exact List.perm_middle.symm
  · rcases List.mem_append.mp held with old | held
    · exact within other (List.mem_append_left _ old)
    · rcases List.mem_cons.mp held with rfl | old
      · have whole := within _ member
        rw [load_append, load_cons] at whole
        rw [load_append]
        linarith
      · exact within other (List.mem_append_right _ (List.mem_cons_of_mem _ old))

/-- All that is packed is at most what the bins may hold. -/
theorem Fits.load_le (fits : Fits size n bound items) : load size items ≤ n * bound := by
  obtain ⟨bins, length, perm, within⟩ := fits
  rw [← load_perm perm, load_flatten, ← length]
  simpa using List.sum_le_card_nsmul (bins.map (load size)) bound (by simpa using within)

/-- The least loaded of the bins is no fuller than the average. -/
theorem Filled.least_le (filled : Filled size n bins items)
    (least : ∀ other ∈ bins, load size bin ≤ load size other) : n * load size bin ≤ load size items := by
  rw [← load_perm filled.perm, load_flatten, ← filled.length]
  simpa using List.card_nsmul_le_sum (bins.map (load size)) (load size bin) (by simpa using least)

end Bins

/-! ## How many items share a bin -/
section Crowds
variable {twice : Item → Bool}

def crowd (twice : Item → Bool) (bin : List Item) : Nat := bin.length + bin.countP twice

omit [Field Load] in
theorem crowd_perm (same : items.Perm bin) : crowd twice items = crowd twice bin := by
  rw [crowd, crowd, same.length_eq, same.countP_eq]

theorem crowd_flatten (bins : List (List Item)) : crowd twice bins.flatten = (bins.map (crowd twice)).sum := by
  rw [crowd, List.length_flatten, List.countP_flatten, ← List.sum_map_add]
  rfl

end Crowds

section Bound
variable [LinearOrder Load] [IsStrictOrderedRing Load]

/-- Beside such an item the new one exceeds the bound. -/
def big (size : Item → Load) (bound : Load) (item other : Item) : Bool := bound < size other + size item

/-- No bin holds three items that are larger than a third of the bound, nor a big one and another. -/
theorem crowd_le_two (large : bound < 3 * size item) (nonneg : 0 ≤ size item)
    (smallest : ∀ other ∈ bin, size item ≤ size other) (within : load size bin ≤ bound) :
    crowd (big size bound item) bin ≤ 2 := by
  rcases bin with _ | ⟨a, _ | ⟨b, _ | ⟨c, rest⟩⟩⟩
  · simp [crowd]
  · have one := List.countP_le_length (p := big size bound item) (l := [a])
    simp only [crowd, List.length_singleton] at one ⊢
    omega
  · have above := smallest a (by simp)
    have beside := smallest b (by simp)
    simp only [load_cons, load_nil] at within
    have neither : big size bound item a = false ∧ big size bound item b = false := by
      constructor <;> refine decide_eq_false ?_ <;> linarith
    simp [crowd, neither]
  · have first := smallest a (by simp)
    have second := smallest b (by simp)
    have third := smallest c (by simp)
    have others : 0 ≤ load size rest :=
      load_nonneg fun other member => le_trans nonneg (smallest other (by simp [member]))
    simp only [load_cons] at within
    exfalso
    linarith

omit [IsStrictOrderedRing Load] in
/-- A bin that cannot take the item holds two items already, or a big one. -/
theorem two_le_crowd (fits : size item ≤ bound) (full : bound < load size bin + size item) :
    2 ≤ crowd (big size bound item) bin := by
  rcases bin with _ | ⟨a, _ | ⟨b, rest⟩⟩
  · exact absurd full (by simpa using fits)
  · have holds : big size bound item a = true := decide_eq_true (by simpa using full)
    simp [crowd, holds]
  · simp only [crowd, List.length_cons]
    omega

/-- A large item finds a bin where it stays within any bound that a packing of all items keeps. -/
theorem Filled.concat_le (filled : Filled size n bins items) (fits : Fits size n bound (items ++ [item]))
    (smallest : ∀ other ∈ items, size item ≤ size other) (nonneg : 0 ≤ size item)
    (least : ∀ other ∈ bins, load size bin ≤ load size other) (large : bound < 3 * size item) :
    load size bin + size item ≤ bound := by
  by_contra exceeds
  obtain ⟨others, length, perm, within⟩ := fits
  have smallest_in : ∀ other ∈ items ++ [item], size item ≤ size other := by
    intro other member
    rcases List.mem_append.mp member with old | new
    · exact smallest other old
    · rw [List.mem_singleton.mp new]
  have few : crowd (big size bound item) (items ++ [item]) ≤ 2 * n := by
    rw [← crowd_perm perm, crowd_flatten, ← length]
    have each : ∀ count ∈ others.map (crowd (big size bound item)), count ≤ 2 := by
      intro count member
      obtain ⟨other, among, rfl⟩ := List.mem_map.mp member
      refine crowd_le_two large nonneg (fun held inside => smallest_in held ?_) (within other among)
      exact perm.mem_iff.mp (List.mem_flatten.mpr ⟨other, among, inside⟩)
    have total := List.sum_le_card_nsmul _ 2 each
    rw [List.length_map, smul_eq_mul] at total
    omega
  have alone : size item ≤ bound := by
    obtain ⟨other, among, inside⟩ := List.mem_flatten.mp (perm.mem_iff.mpr List.mem_concat_self)
    obtain ⟨first, rest, rfl⟩ := List.append_of_mem inside
    have whole := within _ among
    have kept : 0 ≤ load size first ∧ 0 ≤ load size rest := by
      constructor <;> refine load_nonneg fun held here => le_trans nonneg (smallest_in held ?_) <;>
        exact perm.mem_iff.mp (List.mem_flatten.mpr ⟨_, among, by simp [here]⟩)
    rw [load_append, load_cons] at whole
    linarith
  have many : 2 * n ≤ crowd (big size bound item) items := by
    rw [← crowd_perm filled.perm, crowd_flatten, ← filled.length]
    have each : ∀ count ∈ bins.map (crowd (big size bound item)), 2 ≤ count := by
      intro count member
      obtain ⟨other, among, rfl⟩ := List.mem_map.mp member
      refine two_le_crowd alone ?_
      have above := least other among
      linarith
    have total := List.card_nsmul_le_sum _ 2 each
    rw [List.length_map, smul_eq_mul] at total
    omega
  simp only [crowd, List.length_append, List.length_singleton, List.countP_append] at few many
  omega

/-- No bin exceeds 4/3 - 1/3n times a bound that some packing into `n` bins keeps. -/
theorem Filled.load_le (filled : Filled size n bins items) (nonneg : ∀ item ∈ items, 0 ≤ size item)
    (descending : items.Pairwise fun a b => size b ≤ size a) (fits : Fits size n bound items)
    (member : bin ∈ bins) : 3 * n * load size bin ≤ (4 * n - 1) * bound := by
  have some_bin : 0 < n := filled.length ▸ List.length_pos_of_mem member
  have one : (1 : Load) ≤ n := by exact_mod_cast some_bin
  have keeps := fits.nonneg some_bin nonneg
  induction filled generalizing bin with
  | nil =>
    rw [(List.mem_replicate.mp member).2, load_nil, mul_zero]
    exact mul_nonneg (by linarith) keeps
  | @put before after least items item filled lightest ih =>
    have itself := nonneg item List.mem_concat_self
    have smaller := fits.of_concat itself
    obtain ⟨older, -, above⟩ := List.pairwise_append.mp descending
    have old : ∀ other ∈ before ++ least :: after,
        3 * n * load size other ≤ (4 * n - 1) * bound := fun other among =>
      ih (fun held inside => nonneg held (List.mem_append_left _ inside)) older smaller among
    rcases List.mem_append.mp member with first | rest
    · exact old bin (List.mem_append_left _ first)
    rcases List.mem_cons.mp rest with rfl | later
    · rw [load_append, load_cons, load_nil, add_zero]
      by_cases large : bound < 3 * size item
      · have within := filled.concat_le fits (fun other among => above other among item (by simp)) itself
          lightest large
        nlinarith
      · have average := filled.least_le lightest
        have total := fits.load_le
        rw [load_append, load_cons, load_nil, add_zero] at total
        nlinarith [mul_nonneg (sub_nonneg.mpr one) (sub_nonneg.mpr (not_lt.mp large))]
    · exact old bin (List.mem_append_right _ (List.mem_cons_of_mem _ later))

end Bound

end ListScheduling
