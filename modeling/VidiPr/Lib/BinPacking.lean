import Mathlib.Algebra.BigOperators.Group.List.Basic
import Mathlib.Algebra.Order.BigOperators.Group.List
import Mathlib.Algebra.Order.Ring.Nat
import Mathlib.Data.List.Perm.Subperm

/-!
# Bin packing, first fit by decreasing size

Sizes go into bins of one capacity: each into the first bin that has room for it, or into a new one.
Where they come largest first, the bins are never more than three halves of what is needed.

* **`firstFit`** — the search for a bin, over items of any type with a weight; what it decides, it
  decides by the weights (`firstFit_weights`).
* **`FirstFitDecreasing`** — what is known of the bins at any time: a size is larger than what was
  left in every earlier bin, and no larger than what an earlier bin began with.
* **`FirstFitDecreasing.firstFit`**, **`.newBin`** — the two ways a size is packed keep it.
* **`FirstFitDecreasing.bound`** — the bound against any way to group the sizes, or more of them.
-/

namespace BinPacking

section FirstFit

variable {α : Type} {weight : α → Nat} {capacity : Nat} {item : α}
  {bins bins' : List (List α × Nat)}

/-- Put an item into the first bin that has room for it. Beside the items of a bin stands what they
weigh together, as an implementation keeps it; where no bin has room there is no answer. -/
def firstFit (weight : α → Nat) (capacity : Nat) (item : α) :
    List (List α × Nat) → Option (List (List α × Nat))
  | [] => none
  | (items, total) :: bins =>
    if total + weight item ≤ capacity then
      some ((items ++ [item], total + weight item) :: bins)
    else (firstFit weight capacity item bins).map ((items, total) :: ·)

theorem firstFit_eq_none (h : firstFit weight capacity item bins = none) :
    ∀ bin ∈ bins, capacity < bin.2 + weight item := by
  induction bins with
  | nil => exact nofun
  | cons bin bins ih =>
    obtain ⟨items, total⟩ := bin
    rw [firstFit] at h
    split at h
    · cases h
    · rename_i hfull
      exact List.forall_mem_cons.mpr ⟨by omega, ih (Option.map_eq_none_iff.mp h)⟩

/-- The bin that has room, and those before it that have none. -/
theorem firstFit_eq_some (h : firstFit weight capacity item bins = some bins') :
    ∃ before items total after, bins = before ++ (items, total) :: after ∧
      (∀ full ∈ before, capacity < full.2 + weight item) ∧ total + weight item ≤ capacity ∧
      bins' = before ++ (items ++ [item], total + weight item) :: after := by
  induction bins generalizing bins' with
  | nil => cases h
  | cons bin bins ih =>
    obtain ⟨items, total⟩ := bin
    rw [firstFit] at h
    split at h
    · rename_i hfits
      cases h
      exact ⟨[], items, total, bins, rfl, nofun, hfits, rfl⟩
    · rename_i hfull
      obtain ⟨rest, hrest, rfl⟩ := Option.map_eq_some_iff.mp h
      obtain ⟨before, items', total', after, rfl, hbefore, hfits, rfl⟩ := ih hrest
      exact ⟨(items, total) :: before, items', total', after, rfl,
        List.forall_mem_cons.mpr ⟨by omega, hbefore⟩, hfits, rfl⟩

/-- A bin of items, seen through their weights, with its total as it is. -/
def weights (weight : α → Nat) (bin : List α × Nat) : List Nat × Nat := (bin.1.map weight, bin.2)

/-- First fit decides by the weights alone. -/
theorem firstFit_weights (weight : α → Nat) (capacity : Nat) (item : α)
    (bins : List (List α × Nat)) :
    (firstFit weight capacity item bins).map (·.map (weights weight)) =
      firstFit id capacity (weight item) (bins.map (weights weight)) := by
  induction bins with
  | nil => rfl
  | cons bin bins ih =>
    obtain ⟨items, total⟩ := bin
    simp only [firstFit, List.map_cons, weights, id]
    split
    · simp [weights]
    · rw [← ih, Option.map_map, Option.map_map]
      rfl

end FirstFit

/-! ## The invariant -/

/-- What packing largest first, each size into the first bin with room, makes of the bins. -/
structure FirstFitDecreasing (capacity : Nat) (bins : List (List Nat)) : Prop where
  /-- a bin begins with its largest size -/
  begins : ∀ bin ∈ bins, ∃ first ∈ bin.head?, ∀ size ∈ bin, size ≤ first
  leads : bins.Pairwise fun bin later => ∀ first ∈ bin.head?, ∀ size ∈ later, size ≤ first
  full : bins.Pairwise fun bin later => ∀ size ∈ later, capacity < bin.sum + size

namespace FirstFitDecreasing

variable {capacity size : Nat} {bins : List (List Nat)}

theorem nil : FirstFitDecreasing capacity [] := ⟨nofun, .nil, .nil⟩

/-- A new bin, for a size that no bin has room for. -/
theorem newBin (h : FirstFitDecreasing capacity bins)
    (hsmaller : ∀ bin ∈ bins, ∀ other ∈ bin, size ≤ other)
    (hfull : ∀ bin ∈ bins, capacity < bin.sum + size) :
    FirstFitDecreasing capacity (bins ++ [[size]]) where
  begins bin hbin := by
    rcases List.mem_append.mp hbin with hbin | hbin
    · exact h.begins bin hbin
    · rw [List.mem_singleton.mp hbin]
      exact ⟨size, rfl, fun other hother => (List.mem_singleton.mp hother).le⟩
  leads := by
    refine List.pairwise_append.mpr ⟨h.leads, List.pairwise_singleton _ _, ?_⟩
    intro bin hbin last hlast first hfirst other hother
    rw [List.mem_singleton.mp hlast, List.mem_singleton] at hother
    rw [hother]
    exact hsmaller bin hbin first (List.mem_of_mem_head? hfirst)
  full := by
    refine List.pairwise_append.mpr ⟨h.full, List.pairwise_singleton _ _, ?_⟩
    intro bin hbin last hlast other hother
    rw [List.mem_singleton.mp hlast, List.mem_singleton] at hother
    rw [hother]
    exact hfull bin hbin

/-- A size goes into a bin, and the bins before it have no room. -/
theorem put {before after : List (List Nat)} {bin : List Nat}
    (h : FirstFitDecreasing capacity (before ++ bin :: after))
    (hsmaller : ∀ other ∈ before ++ bin :: after, ∀ old ∈ other, size ≤ old)
    (hfull : ∀ other ∈ before, capacity < other.sum + size) :
    FirstFitDecreasing capacity (before ++ (bin ++ [size]) :: after) := by
  have hmem : bin ∈ before ++ bin :: after := List.mem_append_right _ List.mem_cons_self
  obtain ⟨first, hfirst, hlargest⟩ := h.begins bin hmem
  -- the bin still begins with what it began with
  have hhead : ∀ {x}, x ∈ (bin ++ [size]).head? → x ∈ bin.head? := by
    intro x hx
    cases bin with
    | nil => cases hfirst
    | cons y rest => exact hx
  have hsize : size ≤ first := hsmaller bin hmem first (List.mem_of_mem_head? hfirst)
  obtain ⟨hbefore, hrest, hacross⟩ := List.pairwise_append.mp h.leads
  obtain ⟨hbin, hafter⟩ := List.pairwise_cons.mp hrest
  obtain ⟨hbefore', hrest', hacross'⟩ := List.pairwise_append.mp h.full
  obtain ⟨hbin', hafter'⟩ := List.pairwise_cons.mp hrest'
  constructor
  · intro other hother
    rcases List.mem_append.mp hother with hother | hother
    · exact h.begins other (List.mem_append_left _ hother)
    rcases List.mem_cons.mp hother with rfl | hother
    · refine ⟨first, ?_, fun old hold => ?_⟩
      · cases bin with
        | nil => cases hfirst
        | cons y rest => exact hfirst
      · rcases List.mem_append.mp hold with hold | hold
        · exact hlargest old hold
        · rw [List.mem_singleton.mp hold]
          exact hsize
    · exact h.begins other (List.mem_append_right _ (List.mem_cons_of_mem _ hother))
  · refine List.pairwise_append.mpr ⟨hbefore, List.pairwise_cons.mpr ⟨?_, hafter⟩, ?_⟩
    · exact fun later hlater x hx => hbin later hlater x (hhead hx)
    · intro other hother later hlater x hx old hold
      rcases List.mem_cons.mp hlater with rfl | hlater
      · rcases List.mem_append.mp hold with hold | hold
        · exact hacross other hother bin List.mem_cons_self x hx old hold
        · rw [List.mem_singleton.mp hold]
          exact hsmaller other (List.mem_append_left _ hother) x (List.mem_of_mem_head? hx)
      · exact hacross other hother later (List.mem_cons_of_mem _ hlater) x hx old hold
  · refine List.pairwise_append.mpr ⟨hbefore', List.pairwise_cons.mpr ⟨?_, hafter'⟩, ?_⟩
    · intro later hlater old hold
      have hover := hbin' later hlater old hold
      rw [List.sum_append]
      omega
    · intro other hother later hlater old hold
      rcases List.mem_cons.mp hlater with rfl | hlater
      · rcases List.mem_append.mp hold with hold | hold
        · exact hacross' other hother bin List.mem_cons_self old hold
        · rw [List.mem_singleton.mp hold]
          exact hfull other hother
      · exact hacross' other hother later (List.mem_cons_of_mem _ hlater) old hold

/-- A size goes into the first bin that has room for it. -/
theorem firstFit {kept kept' : List (List Nat × Nat)}
    (h : FirstFitDecreasing capacity (kept.map (·.1)))
    (htotals : ∀ bin ∈ kept, bin.2 = bin.1.sum)
    (hsmaller : ∀ bin ∈ kept.map (·.1), ∀ other ∈ bin, size ≤ other)
    (hfit : BinPacking.firstFit id capacity size kept = some kept') :
    FirstFitDecreasing capacity (kept'.map (·.1)) := by
  obtain ⟨before, items, total, after, rfl, hfull, -, rfl⟩ := firstFit_eq_some hfit
  rw [List.map_append, List.map_cons] at h hsmaller ⊢
  refine h.put hsmaller fun other hother => ?_
  obtain ⟨bin, hbin, rfl⟩ := List.mem_map.mp hother
  rw [← htotals bin (List.mem_append_left _ hbin)]
  exact hfull bin hbin

end FirstFitDecreasing

/-! ## Groups that fit -/

section Groups

variable {capacity : Nat} {groups : List (List Nat)}

/-- What fits into one bin has one size above the half at most. -/
theorem countP_large_le_one {group : List Nat} (h : group.sum ≤ capacity) :
    group.countP (fun size => capacity < 2 * size) ≤ 1 := by
  induction group with
  | nil => exact Nat.zero_le 1
  | cons size rest ih =>
    rw [List.sum_cons] at h
    by_cases hlarge : capacity < 2 * size
    · have hnone : rest.countP (fun size => capacity < 2 * size) = 0 := by
        rw [List.countP_eq_zero]
        intro other hother
        have hle : other ≤ rest.sum := List.single_le_sum (fun _ _ => Nat.zero_le _) other hother
        simp only [decide_eq_true_eq]
        omega
      rw [List.countP_cons, hnone]
      split <;> simp
    · rw [List.countP_cons_of_neg (by simpa using hlarge)]
      exact ih (by omega)

theorem countP_large_le (hfit : ∀ group ∈ groups, group.sum ≤ capacity) :
    groups.flatten.countP (fun size => capacity < 2 * size) ≤ groups.length := by
  induction groups with
  | nil => exact Nat.zero_le 0
  | cons group groups ih =>
    have hone := countP_large_le_one (hfit group List.mem_cons_self)
    have hrest := ih fun other hother => hfit other (List.mem_cons_of_mem _ hother)
    rw [List.flatten_cons, List.countP_append, List.length_cons]
    omega

theorem sum_flatten_le (hfit : ∀ group ∈ groups, group.sum ≤ capacity) :
    groups.flatten.sum ≤ groups.length * capacity := by
  induction groups with
  | nil => simp
  | cons group groups ih =>
    have hone := hfit group List.mem_cons_self
    have hrest := ih fun other hother => hfit other (List.mem_cons_of_mem _ hother)
    rw [List.flatten_cons, List.sum_append, List.length_cons, Nat.add_mul]
    omega

end Groups

/-! ## The bound -/

section Bound

variable {capacity : Nat} {bins : List (List Nat)}

/-- Bins that have no room for any of enough sizes: with one of these each they overflow. -/
theorem overflow {sizes : List Nat}
    (hfull : ∀ bin ∈ bins, ∀ size ∈ sizes, capacity < bin.sum + size)
    (hlength : bins.length ≤ sizes.length) :
    bins.length * (capacity + 1) ≤ bins.flatten.sum + sizes.sum := by
  induction bins generalizing sizes with
  | nil => simp
  | cons bin bins ih =>
    cases sizes with
    | nil => simp at hlength
    | cons size sizes =>
      have hone := hfull bin List.mem_cons_self size List.mem_cons_self
      have hrest : bins.length * (capacity + 1) ≤ bins.flatten.sum + sizes.sum :=
        ih (fun other hother x hx =>
          hfull other (List.mem_cons_of_mem _ hother) x (List.mem_cons_of_mem _ hx))
          (by simpa using hlength)
      rw [List.flatten_cons, List.sum_append, List.sum_cons, List.length_cons, Nat.add_mul]
      omega

/-- Bins of small sizes hold two each, but for the last. -/
theorem FirstFitDecreasing.two_each (h : FirstFitDecreasing capacity bins)
    (hsmall : ∀ bin ∈ bins, ∀ size ∈ bin, 2 * size ≤ capacity) :
    2 * bins.length ≤ bins.flatten.length + 1 := by
  induction bins with
  | nil => exact Nat.zero_le 1
  | cons bin bins ih =>
    have hrest : FirstFitDecreasing capacity bins := {
      begins := fun other hother => h.begins other (List.mem_cons_of_mem _ hother)
      leads := (List.pairwise_cons.mp h.leads).2
      full := (List.pairwise_cons.mp h.full).2 }
    have hbound := ih hrest fun other hother => hsmall other (List.mem_cons_of_mem _ hother)
    obtain ⟨first, hfirst, -⟩ := h.begins bin List.mem_cons_self
    rw [List.flatten_cons, List.length_append, List.length_cons]
    cases bin with
    | nil => cases hfirst
    | cons size rest =>
      cases bins with
      | nil => simp
      | cons next bins =>
        -- the next bin has a size that this one had no room for
        obtain ⟨other, hother, -⟩ := h.begins next (List.mem_cons_of_mem _ List.mem_cons_self)
        have hmem : other ∈ next := List.mem_of_mem_head? hother
        have hfull := (List.pairwise_cons.mp h.full).1 next List.mem_cons_self other hmem
        have hsize := hsmall (size :: rest) List.mem_cons_self size List.mem_cons_self
        have hnext := hsmall next (List.mem_cons_of_mem _ List.mem_cons_self) other hmem
        have hmore : rest ≠ [] := by
          rintro rfl
          rw [List.sum_singleton] at hfull
          omega
        have hpos : 0 < rest.length := List.length_pos_of_ne_nil hmore
        have hlength : (size :: rest).length = rest.length + 1 := List.length_cons
        omega

/-- Bins that begin with a size above the half. -/
theorem length_le_countP_large (h : ∀ bin ∈ bins, ∃ size ∈ bin, capacity < 2 * size) :
    bins.length ≤ bins.flatten.countP fun size => capacity < 2 * size := by
  induction bins with
  | nil => exact Nat.zero_le _
  | cons bin bins ih =>
    obtain ⟨size, hsize, hlarge⟩ := h bin List.mem_cons_self
    have hone : 0 < bin.countP fun size => capacity < 2 * size :=
      List.countP_pos_iff.mpr ⟨size, hsize, by simpa using hlarge⟩
    have hrest := ih fun other hother => h other (List.mem_cons_of_mem _ hother)
    rw [List.flatten_cons, List.countP_append, List.length_cons]
    omega

/-- **Three halves.** The bins are no more than three halves of any groups that fit and hold what
the bins hold.

With two thirds of the bins before it, the next bin decides. If it has a size above the half, so
have all before it, and no two of these share a group. If it has none, the sizes from there on are
small, so there is one for each bin before, which had no room for it: these bins overflow. -/
theorem FirstFitDecreasing.bound (h : FirstFitDecreasing capacity bins) {groups : List (List Nat)}
    (hholds : bins.flatten.Subperm groups.flatten)
    (hfit : ∀ group ∈ groups, group.sum ≤ capacity) : 2 * bins.length ≤ 3 * groups.length := by
  rcases Nat.eq_zero_or_pos bins.length with hnone | hpos
  · omega
  have hsplit : bins = bins.take ((2 * bins.length - 1) / 3) ++
      bins.drop ((2 * bins.length - 1) / 3) := (List.take_append_drop _ _).symm
  have hbefore : (bins.take ((2 * bins.length - 1) / 3)).length = (2 * bins.length - 1) / 3 := by
    rw [List.length_take]
    omega
  generalize bins.take ((2 * bins.length - 1) / 3) = before at hsplit hbefore
  cases hrest : bins.drop ((2 * bins.length - 1) / 3) with
  | nil =>
    have hlength := congrArg List.length hrest
    rw [List.length_drop, List.length_nil] at hlength
    omega
  | cons bin after =>
    rw [hrest] at hsplit
    have hlength : bins.length = before.length + (after.length + 1) := by
      rw [hsplit, List.length_append, List.length_cons]
    have hleads := h.leads
    have hfull := h.full
    rw [hsplit] at hleads hfull hholds
    obtain ⟨-, hleadsRest, hleadsAcross⟩ := List.pairwise_append.mp hleads
    obtain ⟨-, hfullRest, hfullAcross⟩ := List.pairwise_append.mp hfull
    have hbegins : ∀ other ∈ before ++ bin :: after, ∃ first ∈ other.head?, ∀ size ∈ other,
        size ≤ first := hsplit ▸ h.begins
    suffices hgroups : before.length + 1 ≤ groups.length by omega
    by_cases hlarge : ∃ size ∈ bin, capacity < 2 * size
    · have hevery : ∀ other ∈ before ++ [bin], ∃ size ∈ other, capacity < 2 * size := by
        intro other hother
        rcases List.mem_append.mp hother with hother | hother
        · obtain ⟨size, hsize, hover⟩ := hlarge
          obtain ⟨first, hfirst, -⟩ := hbegins other (List.mem_append_left _ hother)
          have hle := hleadsAcross other hother bin List.mem_cons_self first hfirst size hsize
          exact ⟨first, List.mem_of_mem_head? hfirst, by omega⟩
        · rw [List.mem_singleton.mp hother]
          exact hlarge
      have hsub : (before ++ [bin]).flatten.Subperm groups.flatten := by
        refine List.Subperm.trans (List.Sublist.subperm ?_) hholds
        rw [List.flatten_append, List.flatten_append, List.flatten_cons, List.flatten_cons]
        simp
      calc before.length + 1 = (before ++ [bin]).length := by simp
        _ ≤ (before ++ [bin]).flatten.countP fun size => capacity < 2 * size :=
          length_le_countP_large hevery
        _ ≤ groups.flatten.countP fun size => capacity < 2 * size := hsub.countP_le _
        _ ≤ groups.length := countP_large_le hfit
    · have hsmall : ∀ other ∈ bin :: after, ∀ size ∈ other, 2 * size ≤ capacity := by
        intro other hother size hsize
        have hbin : ∀ x ∈ bin, 2 * x ≤ capacity := by
          intro x hx
          have hnot : ¬ capacity < 2 * x := fun hover => hlarge ⟨x, hx, hover⟩
          omega
        rcases List.mem_cons.mp hother with rfl | hother
        · exact hbin size hsize
        · obtain ⟨first, hfirst, -⟩ := hbegins bin (List.mem_append_right _ List.mem_cons_self)
          have hle := (List.pairwise_cons.mp hleadsRest).1 other hother first hfirst size hsize
          have hhalf := hbin first (List.mem_of_mem_head? hfirst)
          omega
      have htwo := FirstFitDecreasing.two_each ⟨fun other hother =>
        hbegins other (List.mem_append_right _ hother), hleadsRest, hfullRest⟩ hsmall
      rw [List.length_cons] at htwo
      have hover : before.length * (capacity + 1) ≤
          before.flatten.sum + (bin :: after).flatten.sum := by
        refine overflow (fun other hother size hsize => ?_) (by omega)
        obtain ⟨later, hlater, hsize⟩ := List.mem_flatten.mp hsize
        exact hfullAcross other hother later hlater size hsize
      have hsum : before.flatten.sum + (bin :: after).flatten.sum ≤ groups.length * capacity := by
        rw [← List.sum_append, ← List.flatten_append]
        obtain ⟨sizes, hperm, hsub⟩ := hholds
        calc (before ++ bin :: after).flatten.sum = sizes.sum := hperm.sum_eq.symm
          _ ≤ groups.flatten.sum := hsub.sum_le_sum fun _ _ => Nat.zero_le _
          _ ≤ groups.length * capacity := sum_flatten_le hfit
      have hsome : groups ≠ [] := by
        rintro rfl
        obtain ⟨first, hfirst, -⟩ := hbegins bin (List.mem_append_right _ List.mem_cons_self)
        have hnone := hholds.length_le
        rw [List.flatten_append, List.flatten_cons, List.length_append, List.length_append,
          List.flatten_nil, List.length_nil] at hnone
        have hbin : 0 < bin.length := List.length_pos_of_mem (List.mem_of_mem_head? hfirst)
        omega
      have hpositive : 0 < groups.length := List.length_pos_of_ne_nil hsome
      by_contra hfew
      have hmul : groups.length * capacity ≤ before.length * capacity :=
        Nat.mul_le_mul_right capacity (by omega)
      rw [Nat.mul_add] at hover
      omega

end Bound

end BinPacking
