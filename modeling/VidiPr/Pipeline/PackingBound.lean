import VidiPr.Pipeline.PackingOrder

/-!
# How good the packing is

`pack_chunks` is first fit by decreasing size, cut off at two limits. So a pull request that fits
into `k` chunks somehow is packed into three halves of `k` chunks at most, and if these are allowed
none of its files is skipped.

* **`decreasing_packSize`** — the body of the loop keeps the invariant of the algorithm.
* **`pack_near_optimal`** — the bound, and when nothing is skipped.
-/

namespace VidiPr

open BinPacking (FirstFitDecreasing)

/-! ## The loop, as first fit by decreasing size -/

/-- The sizes of each chunk. -/
def SizePacking.groups (packing : SizePacking) : List (List Nat) := packing.bins.map (·.1)

/-- The invariant of the loop, once it has tried the sizes `tried`. -/
structure SizePacking.Decreasing (maxChunkChars : Nat) (tried : List Nat) (packing : SizePacking) :
    Prop where
  totals : ∀ bin ∈ packing.bins, bin.2 = bin.1.sum
  ordered : FirstFitDecreasing maxChunkChars packing.groups
  old : ∀ bin ∈ packing.groups, ∀ size ∈ bin, size ∈ tried

section Loop

variable {limits : PackLimits} {tried : List Nat} {packing : SizePacking} {size : Nat}

theorem SizePacking.Decreasing.skip (h : packing.Decreasing limits.maxChunkChars tried) :
    packing.Decreasing limits.maxChunkChars (tried ++ [size]) :=
  ⟨h.totals, h.ordered, fun bin hbin old hold => List.mem_append_left _ (h.old bin hbin old hold)⟩

/-- Where no chunk has room for a size, no group has. -/
theorem SizePacking.Decreasing.full (h : packing.Decreasing limits.maxChunkChars tried)
    (hfit : BinPacking.firstFit id limits.maxChunkChars size packing.bins = none) :
    ∀ group ∈ packing.groups, limits.maxChunkChars < group.sum + size := by
  intro group hgroup
  obtain ⟨bin, hbin, rfl⟩ := List.mem_map.mp hgroup
  rw [← h.totals bin hbin]
  exact BinPacking.firstFit_eq_none hfit bin hbin

/-- The body of the loop keeps the invariant, for a size that is no larger than those before. -/
theorem decreasing_packSize (h : packing.Decreasing limits.maxChunkChars tried)
    (hsmaller : ∀ old ∈ tried, size ≤ old) :
    (packSize limits packing size).Decreasing limits.maxChunkChars (tried ++ [size]) := by
  have hplaced : ∀ bin ∈ packing.groups, ∀ old ∈ bin, size ≤ old :=
    fun bin hbin old hold => hsmaller old (h.old bin hbin old hold)
  unfold packSize
  split
  · exact h.skip
  split
  · exact h.skip
  cases hfit : BinPacking.firstFit id limits.maxChunkChars size packing.bins with
  | none =>
    dsimp only
    split
    · exact h.skip
    have hnew : SizePacking.groups ⟨packing.bins ++ [([size], size)], packing.placedCount + 1⟩ =
        packing.groups ++ [[size]] := List.map_append
    refine ⟨fun bin hbin => ?_, ?_, fun bin hbin old hold => ?_⟩
    · rcases List.mem_append.mp hbin with hbin | hbin
      · exact h.totals bin hbin
      · rw [List.mem_singleton.mp hbin]
        exact List.sum_singleton.symm
    · rw [hnew]
      exact h.ordered.newBin hplaced (h.full hfit)
    · rw [hnew] at hbin
      rcases List.mem_append.mp hbin with hbin | hbin
      · exact List.mem_append_left _ (h.old bin hbin old hold)
      · rw [List.mem_singleton.mp hbin] at hold
        exact List.mem_append_right _ hold
  | some bins =>
    have hordered := h.ordered.firstFit h.totals hplaced hfit
    obtain ⟨before, sizes, total, after, hbins, -, -, rfl⟩ := BinPacking.firstFit_eq_some hfit
    -- one chunk has grown, and the others are as they were
    have hother : ∀ bin ∈ before ++ after, bin ∈ packing.bins := by
      intro bin hbin
      rw [hbins]
      exact List.mem_append.mpr ((List.mem_append.mp hbin).imp_right (List.mem_cons_of_mem _))
    have hgrown : (sizes, total) ∈ packing.bins := by
      rw [hbins]
      exact List.mem_append_right _ List.mem_cons_self
    have hcases : ∀ bin ∈ before ++ (sizes ++ [size], total + size) :: after,
        bin ∈ packing.bins ∨ bin = (sizes ++ [size], total + size) := by
      intro bin hbin
      rcases List.mem_append.mp hbin with hbin | hbin
      · exact Or.inl (hother bin (List.mem_append_left _ hbin))
      rcases List.mem_cons.mp hbin with rfl | hbin
      · exact Or.inr rfl
      · exact Or.inl (hother bin (List.mem_append_right _ hbin))
    refine ⟨fun bin hbin => ?_, hordered, fun group hgroup old hold => ?_⟩
    · rcases hcases bin hbin with hbin | rfl
      · exact h.totals bin hbin
      · have htotal : total = sizes.sum := h.totals _ hgrown
        show total + size = (sizes ++ [size]).sum
        rw [List.sum_append, List.sum_singleton, htotal]
    · obtain ⟨bin, hbin, rfl⟩ := List.mem_map.mp hgroup
      rcases hcases bin hbin with hbin | rfl
      · exact List.mem_append_left _ (h.old _ (List.mem_map_of_mem hbin) old hold)
      · rcases List.mem_append.mp hold with hold | hold
        · exact List.mem_append_left _ (h.old sizes (List.mem_map_of_mem hgrown) old hold)
        · exact List.mem_append_right _ hold

/-- The loop keeps the invariant, over sizes that come largest first. -/
theorem decreasing_foldl (h : packing.Decreasing limits.maxChunkChars tried) {rest : List Nat}
    (hsorted : (tried ++ rest).Pairwise fun a b => b ≤ a) :
    (rest.foldl (packSize limits) packing).Decreasing limits.maxChunkChars (tried ++ rest) := by
  induction rest generalizing packing tried with
  | nil =>
    rw [List.append_nil]
    exact h
  | cons size rest ih =>
    have hsmaller : ∀ old ∈ tried, size ≤ old := fun old hold =>
      (List.pairwise_append.mp hsorted).2.2 old hold size List.mem_cons_self
    rw [List.append_cons] at hsorted ⊢
    exact ih (decreasing_packSize h hsmaller) hsorted

/-! ## Sizes that fit into few chunks -/

/-- All sizes that were tried are in the chunks. -/
structure SizePacking.Complete (tried : List Nat) (packing : SizePacking) : Prop where
  placed : packing.groups.flatten.Perm tried
  count : packing.placedCount = tried.length

/-- A chunk more holds a size more. -/
theorem SizePacking.Complete.newBin (h : packing.Complete tried) :
    SizePacking.Complete (tried ++ [size])
      ⟨packing.bins ++ [([size], size)], packing.placedCount + 1⟩ where
  placed := by
    have hgroups : (packing.bins ++ [([size], size)]).map (·.1) = packing.groups ++ [[size]] :=
      List.map_append
    rw [groups, hgroups, List.flatten_append]
    exact h.placed.append_right [size]
  count := by
    rw [List.length_append, ← h.count]
    rfl

/-- A chunk that has room does. -/
theorem SizePacking.Complete.put {bins : List (List Nat × Nat)} (h : packing.Complete tried)
    (hput : BinPacking.firstFit id limits.maxChunkChars size packing.bins = some bins) :
    SizePacking.Complete (tried ++ [size]) ⟨bins, packing.placedCount + 1⟩ where
  placed := by
    obtain ⟨before, sizes, total, after, hbins, -, -, rfl⟩ := BinPacking.firstFit_eq_some hput
    have hplaced := h.placed
    rw [groups, hbins, List.map_append, List.map_cons, List.flatten_append, List.flatten_cons]
      at hplaced
    rw [groups, List.map_append, List.map_cons, List.flatten_append, List.flatten_cons]
    have hmoved : ((before.map (·.1)).flatten ++
        (sizes ++ [size] ++ (after.map (·.1)).flatten)).Perm
        ((before.map (·.1)).flatten ++ (sizes ++ (after.map (·.1)).flatten) ++ [size]) := by
      simp only [List.append_assoc]
      exact (List.perm_append_comm.append_left sizes).append_left _
    exact hmoved.trans (hplaced.append_right [size])
  count := by
    rw [List.length_append, ← h.count]
    rfl

section Fits

variable {rest : List Nat} {groups : List (List Nat)}
  (hfit : ∀ group ∈ groups, group.sum ≤ limits.maxChunkChars)
  (hchunks : 3 * groups.length ≤ 2 * limits.maxChunks + 1)
include hfit hchunks

/-- Where all sizes fit into few groups, the body of the loop skips none: a chunk more than it may
open would be one more than the groups need. -/
theorem complete_packSize (h : packing.Decreasing limits.maxChunkChars tried)
    (hcomplete : packing.Complete tried) (hsmaller : ∀ old ∈ tried, size ≤ old)
    (hholds : (tried ++ [size]).Subperm groups.flatten) (hroom : tried.length < limits.maxFiles) :
    (packSize limits packing size).Complete (tried ++ [size]) := by
  -- there is room for a file more
  have hcount : ¬ limits.maxFiles ≤ packing.placedCount := by
    rw [hcomplete.count]
    omega
  -- a size that is in a group is no larger than a chunk
  have hsize : ¬ limits.maxChunkChars < size := by
    have hmem : size ∈ groups.flatten :=
      hholds.subset (List.mem_append_right _ List.mem_cons_self)
    obtain ⟨group, hgroup, hmem⟩ := List.mem_flatten.mp hmem
    have hle := List.single_le_sum (fun _ _ => Nat.zero_le _) size hmem
    have hsum := hfit group hgroup
    omega
  unfold packSize
  rw [if_neg hcount, if_neg hsize]
  cases hput : BinPacking.firstFit id limits.maxChunkChars size packing.bins with
  | some bins => exact hcomplete.put hput
  | none =>
    have hopened := h.ordered.newBin
      (fun bin hbin old hold => hsmaller old (h.old bin hbin old hold))
      (h.full hput)
    have hplaced : (packing.groups ++ [[size]]).flatten.Subperm groups.flatten := by
      rw [List.flatten_append]
      exact (hcomplete.placed.append_right [size]).subperm.trans hholds
    -- with a new chunk they are still within the bound
    have hbound := hopened.bound hplaced hfit
    have hlength : packing.groups.length = packing.bins.length := List.length_map _
    rw [List.length_append, List.length_singleton, hlength] at hbound
    have hmore : ¬ limits.maxChunks ≤ packing.bins.length := by omega
    dsimp only
    rw [if_neg hmore]
    exact hcomplete.newBin

/-- The loop places all of them. -/
theorem complete_foldl (h : packing.Decreasing limits.maxChunkChars tried)
    (hcomplete : packing.Complete tried) (hsorted : (tried ++ rest).Pairwise fun a b => b ≤ a)
    (hholds : (tried ++ rest).Subperm groups.flatten)
    (hfiles : (tried ++ rest).length ≤ limits.maxFiles) :
    (rest.foldl (packSize limits) packing).Complete (tried ++ rest) := by
  induction rest generalizing packing tried with
  | nil =>
    rw [List.append_nil]
    exact hcomplete
  | cons size rest ih =>
    have hsmaller : ∀ old ∈ tried, size ≤ old := fun old hold =>
      (List.pairwise_append.mp hsorted).2.2 old hold size List.mem_cons_self
    have hroom : tried.length < limits.maxFiles := by
      rw [List.length_append, List.length_cons] at hfiles
      omega
    rw [List.append_cons] at hsorted hholds hfiles ⊢
    have hthis : (tried ++ [size]).Subperm groups.flatten :=
      (List.sublist_append_left _ _).subperm.trans hholds
    exact ih (decreasing_packSize h hsmaller)
      (complete_packSize hfit hchunks h hcomplete hsmaller hthis hroom) hsorted hholds hfiles

end Fits

end Loop

/-! ## The bound -/

theorem decreasing_start (maxChunkChars : Nat) : SizePacking.Decreasing maxChunkChars [] {} :=
  ⟨nofun, .nil, nofun⟩

theorem complete_start : SizePacking.Complete [] {} := ⟨List.Perm.nil, rfl⟩

/-- **Packing within a factor.** However the files could be grouped with no group over the size of a
chunk, packing makes at most three halves as many chunks; and where the limits allow as many, no
file is skipped. -/
theorem pack_near_optimal (limits : PackLimits) {files : List ChangedFile}
    (groups : List (List ChangedFile)) (hcover : files.Perm groups.flatten)
    (hfit : ∀ group ∈ groups, totalSize group ≤ limits.maxChunkChars) :
    2 * (packChunks limits files).chunks.length ≤ 3 * groups.length ∧
      (files.length ≤ limits.maxFiles → 3 * groups.length ≤ 2 * limits.maxChunks + 1 →
        (packChunks limits files).skipped = []) := by
  obtain ⟨skipped, hvalid⟩ := pack_valid limits files
  set packing := (largestFirst files).foldl (packFile limits) {} with hpacking
  have hsizes : packing.sizes = ((largestFirst files).map fileSize).foldl (packSize limits) {} :=
    sizes_foldl limits _ _
  have hsorted : ([] ++ (largestFirst files).map fileSize).Pairwise fun a b => b ≤ a :=
    List.pairwise_map.mpr (List.pairwise_insertionSort _ files)
  have hholds : ((largestFirst files).map fileSize).Perm
      (groups.map (·.map fileSize)).flatten := by
    rw [← List.map_flatten]
    exact ((List.perm_insertionSort _ files).trans hcover).map fileSize
  have hfits : ∀ group ∈ groups.map (·.map fileSize), group.sum ≤ limits.maxChunkChars := by
    intro group hgroup
    obtain ⟨files, hfiles, rfl⟩ := List.mem_map.mp hgroup
    exact hfit files hfiles
  constructor
  · have hordered := (decreasing_foldl (decreasing_start limits.maxChunkChars) hsorted).ordered
    rw [← hsizes] at hordered
    have hplaced : packing.sizes.groups.flatten = packing.placed.map fileSize := by
      rw [SizePacking.groups, Packing.sizes, List.map_map, Packing.placed, List.map_flatMap,
        List.flatMap_def]
      rfl
    have hsub : packing.sizes.groups.flatten.Subperm (groups.map (·.map fileSize)).flatten := by
      rw [hplaced, ← List.map_flatten]
      refine List.Subperm.trans (List.Sublist.subperm ?_)
        ((hvalid.partition.trans hcover).map fileSize).subperm
      exact (List.sublist_append_left _ _).map fileSize
    have hbound := hordered.bound hsub hfits
    rw [SizePacking.groups, Packing.sizes, List.length_map, List.length_map, List.length_map]
      at hbound
    rw [packChunks, length_chunks]
    exact hbound
  · intro hfiles hchunks
    have hlength : ((largestFirst files).map fileSize).length = files.length := by
      rw [List.length_map]
      exact (List.perm_insertionSort _ files).length_eq
    have hcomplete := complete_foldl hfits (by rwa [List.length_map])
      (decreasing_start limits.maxChunkChars) complete_start hsorted
      hholds.subperm (by rw [List.nil_append, hlength]; exact hfiles)
    rw [← hsizes, List.nil_append] at hcomplete
    -- as many are placed as there are, so none is left to skip
    have hcount : packing.placed.length = files.length := by
      rw [← hvalid.count, ← hlength]
      exact hcomplete.count
    have hall := hvalid.partition.length_eq
    rw [List.length_append, hcount] at hall
    have hnone : skipped = [] := List.eq_nil_of_length_eq_zero (by omega)
    show packing.skipped = []
    rw [hvalid.names, hnone]
    rfl

/-- Four files of 2, 2, 3 and 3 characters that go in two chunks of 5 characters: they are packed
into two or three, and none is skipped where three are allowed. -/
theorem pack_near_optimal_pairs :
    2 * (packChunks ⟨4, 3, 5⟩ [⟨"a", .added, 1, 0, some "xx"⟩, ⟨"b", .added, 1, 0, some "yyy"⟩,
      ⟨"c", .added, 1, 0, some "zz"⟩, ⟨"d", .added, 1, 0, some "www"⟩]).chunks.length ≤ 3 * 2 ∧
    (packChunks ⟨4, 3, 5⟩ [⟨"a", .added, 1, 0, some "xx"⟩, ⟨"b", .added, 1, 0, some "yyy"⟩,
      ⟨"c", .added, 1, 0, some "zz"⟩, ⟨"d", .added, 1, 0, some "www"⟩]).skipped = [] := by
  have hbound := pack_near_optimal ⟨4, 3, 5⟩ [
    [⟨"a", .added, 1, 0, some "xx"⟩, ⟨"b", .added, 1, 0, some "yyy"⟩],
    [⟨"c", .added, 1, 0, some "zz"⟩, ⟨"d", .added, 1, 0, some "www"⟩]] (List.Perm.refl _)
    (by decide)
  exact ⟨hbound.1, hbound.2 (by decide) (by decide)⟩

end VidiPr
