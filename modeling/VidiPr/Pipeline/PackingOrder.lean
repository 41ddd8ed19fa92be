import VidiPr.Pipeline.Packing

/-!
# Packing and the order of the input

Every decision of `pack_chunks` is one about sizes: the packing of the files is, size for size, a
packing of their sizes (`SizePacking`), and the sizes come sorted.

* **`sizes_packFile`** — the body of the loop, seen through the sizes.
* **`pack_order_independent`** — two orders of the same files give chunks of the same sizes, and the
  same result where no two sizes are equal.
-/

namespace VidiPr

/-! ## Packing sizes -/

/-- Which sizes are in each chunk, beside what they add up to. -/
structure SizePacking where
  bins : List (List Nat × Nat) := []
  placedCount : Nat := 0

/-- Pack one size. -/
def packSize (limits : PackLimits) (packing : SizePacking) (size : Nat) : SizePacking :=
  if limits.maxFiles ≤ packing.placedCount then packing
  else if limits.maxChunkChars < size then packing
  else match BinPacking.firstFit id limits.maxChunkChars size packing.bins with
    | some bins => { bins, placedCount := packing.placedCount + 1 }
    | none =>
      if limits.maxChunks ≤ packing.bins.length then packing
      else { bins := packing.bins ++ [([size], size)], placedCount := packing.placedCount + 1 }

/-! ## The sizes of a packing of files -/

def Packing.sizes (packing : Packing) : SizePacking where
  bins := packing.bins.map (BinPacking.weights fileSize)
  placedCount := packing.placedCount

/-- The body of the loop reads the size of the file and no more. -/
theorem sizes_packFile (limits : PackLimits) (packing : Packing) (file : ChangedFile) :
    (packFile limits packing file).sizes = packSize limits packing.sizes (fileSize file) := by
  have hlength : packing.sizes.bins.length = packing.bins.length := List.length_map _
  have hfit := BinPacking.firstFit_weights fileSize limits.maxChunkChars file packing.bins
  unfold packFile packSize
  rw [hlength]
  show Packing.sizes (if _ then _ else _) = if limits.maxFiles ≤ packing.placedCount then _ else _
  split
  · rfl
  split
  · rfl
  rw [show packing.sizes.bins = packing.bins.map (BinPacking.weights fileSize) from rfl, ← hfit]
  unfold firstFit
  cases BinPacking.firstFit fileSize limits.maxChunkChars file packing.bins with
  | some bins => rfl
  | none =>
    show Packing.sizes (if _ then _ else _) = if _ then _ else _
    split
    · rfl
    · simp [Packing.sizes, BinPacking.weights]

theorem sizes_foldl (limits : PackLimits) (files : List ChangedFile) (packing : Packing) :
    (files.foldl (packFile limits) packing).sizes =
      (files.map fileSize).foldl (packSize limits) packing.sizes := by
  induction files generalizing packing with
  | nil => rfl
  | cons file files ih => rw [List.foldl_cons, ih, sizes_packFile, List.map_cons, List.foldl_cons]

/-! ## Two orders of the same files -/

section Orders

variable {files files' : List ChangedFile} (h : files.Perm files')
include h

theorem largestFirst_perm : (largestFirst files).Perm (largestFirst files') :=
  ((List.perm_insertionSort _ files).trans h).trans (List.perm_insertionSort _ files').symm

/-- The sizes come in the same order. -/
theorem largestFirst_sizes :
    (largestFirst files).map fileSize = (largestFirst files').map fileSize := by
  have hsorted : ∀ files : List ChangedFile,
      ((largestFirst files).map fileSize).Pairwise fun a b => b ≤ a := fun files =>
    List.pairwise_map.mpr (List.pairwise_insertionSort _ files)
  exact ((largestFirst_perm h).map fileSize).eq_of_pairwise
    (fun a b _ _ hab hba => Nat.le_antisymm hba hab) (hsorted files) (hsorted files')

/-- Where no two sizes are equal, the files do. -/
theorem largestFirst_eq (hsizes : (files.map fileSize).Nodup) :
    largestFirst files = largestFirst files' := by
  have hmem : ∀ file ∈ largestFirst files, file ∈ files := fun file hfile =>
    (List.perm_insertionSort _ files).mem_iff.mp hfile
  refine (largestFirst_perm h).eq_of_pairwise (fun a b ha hb hab hba => ?_)
    (List.pairwise_insertionSort _ files) (List.pairwise_insertionSort _ files')
  have hb' := hmem b ((largestFirst_perm h).mem_iff.mpr hb)
  exact List.inj_on_of_nodup_map hsizes (hmem a ha) hb' (Nat.le_antisymm hba hab)

end Orders

/-- Two results with chunks of the same sizes and numbers of files, and the same sizes skipped. -/
structure SameShape (files files' : List ChangedFile) (result result' : PackingResult) : Prop where
  sizes : result.chunks.map (fun chunk => totalSize chunk.files) =
    result'.chunks.map fun chunk => totalSize chunk.files
  counts : result.chunks.map (fun chunk => chunk.files.length) =
    result'.chunks.map fun chunk => chunk.files.length
  skipped : ∃ skipped skipped' : List ChangedFile,
    result.skipped = skipped.map (·.filename) ∧ result'.skipped = skipped'.map (·.filename) ∧
    (result.chunks.flatMap (·.files) ++ skipped).Perm files ∧
    (result'.chunks.flatMap (·.files) ++ skipped').Perm files' ∧
    (skipped.map fileSize).Perm (skipped'.map fileSize)

theorem map_chunks {α : Type} (packing : Packing) (f : List ChangedFile → α) :
    packing.chunks.map (fun chunk => f chunk.files) = packing.bins.map fun bin => f bin.1 := by
  refine List.ext_getElem? fun i => ?_
  rw [List.getElem?_map, Packing.chunks, List.getElem?_mapIdx, List.getElem?_map, Option.map_map]
  rfl

/-- The sizes of the files of each chunk. -/
theorem map_chunks_sizes {α : Type} (packing : Packing) (f : List Nat → α) :
    packing.chunks.map (fun chunk => f (chunk.files.map fileSize)) =
      packing.sizes.bins.map fun bin => f bin.1 := by
  rw [map_chunks packing fun files => f (files.map fileSize), Packing.sizes, List.map_map]
  rfl

/-- The order of the files decides nothing but which of several files of one size goes where. -/
theorem pack_order_independent (limits : PackLimits) {files files' : List ChangedFile}
    (h : files.Perm files') :
    SameShape files files' (packChunks limits files) (packChunks limits files') ∧
      ((files.map fileSize).Nodup → packChunks limits files = packChunks limits files') := by
  have hsizes : ((largestFirst files).foldl (packFile limits) {}).sizes =
      ((largestFirst files').foldl (packFile limits) {}).sizes := by
    rw [sizes_foldl, sizes_foldl, largestFirst_sizes h]
  have hchunks : ∀ {α : Type} (f : List Nat → α),
      (packChunks limits files).chunks.map (fun chunk => f (chunk.files.map fileSize)) =
        (packChunks limits files').chunks.map fun chunk => f (chunk.files.map fileSize) := by
    intro α f
    show (Packing.chunks _).map _ = (Packing.chunks _).map _
    rw [map_chunks_sizes, map_chunks_sizes, hsizes]
  refine ⟨⟨hchunks List.sum, ?_, ?_⟩, fun hnodup => ?_⟩
  · have hlength := hchunks List.length
    simpa only [List.length_map] using hlength
  · obtain ⟨skipped, hnames, hperm⟩ := pack_places limits files
    obtain ⟨skipped', hnames', hperm'⟩ := pack_places limits files'
    refine ⟨skipped, skipped', hnames, hnames', hperm, hperm', ?_⟩
    -- what is placed has the same sizes, so what is left has
    have hplaced : ((packChunks limits files).chunks.flatMap (·.files)).map fileSize =
        ((packChunks limits files').chunks.flatMap (·.files)).map fileSize := by
      rw [List.map_flatMap, List.map_flatMap, List.flatMap_def, List.flatMap_def]
      exact congrArg List.flatten (hchunks id)
    have hall := ((hperm.trans h).trans hperm'.symm).map fileSize
    rw [List.map_append, List.map_append, hplaced] at hall
    exact (List.perm_append_left_iff _).mp hall
  · rw [packChunks, packChunks, largestFirst_eq h hnodup]

/-- Two files of one size and a larger one, in two orders: the larger file is alone in its chunk
either way. -/
theorem pack_order_independent_swapped :
    SameShape
      [⟨"a", .added, 1, 0, some "xx"⟩, ⟨"b", .added, 1, 0, some "yy"⟩,
        ⟨"c", .added, 1, 0, some "zzz"⟩]
      [⟨"b", .added, 1, 0, some "yy"⟩, ⟨"a", .added, 1, 0, some "xx"⟩,
        ⟨"c", .added, 1, 0, some "zzz"⟩]
      (packChunks ⟨5, 2, 4⟩ [⟨"a", .added, 1, 0, some "xx"⟩, ⟨"b", .added, 1, 0, some "yy"⟩,
        ⟨"c", .added, 1, 0, some "zzz"⟩])
      (packChunks ⟨5, 2, 4⟩ [⟨"b", .added, 1, 0, some "yy"⟩, ⟨"a", .added, 1, 0, some "xx"⟩,
        ⟨"c", .added, 1, 0, some "zzz"⟩]) :=
  (pack_order_independent ⟨5, 2, 4⟩ (List.Perm.swap _ _ _)).1

end VidiPr
