import VidiPr.Pipeline.Chunking

/-!
# What packing guarantees

The loop of `pack_chunks` as steps, and the invariant the steps keep.

* **`packFile_step`** — what the body of the loop does with a file: skip it, put it into a chunk
  that has room, or open a chunk.
* **`PackStep.valid`** — the invariant is kept by each of the three.
* **`pack_bounded_partition`** — the chunks and the skipped files partition the input, within the
  limits.
* **`pack_wastes_nothing`** — every skip is justified by the final chunks, and no two of them could
  be one.
-/

namespace VidiPr

/-! ## Steps of the loop -/

/-- The text a chunk's files add up to. -/
def totalSize (files : List ChangedFile) : Nat := (files.map fileSize).sum

/-- No chunk has room for the file. -/
def FitsNowhere (maxChunkChars : Nat) (file : ChangedFile) (bins : List (List ChangedFile × Nat)) :
    Prop :=
  ∀ bin ∈ bins, maxChunkChars < bin.2 + fileSize file

/-- What the body of the loop does with a file. -/
inductive PackStep (limits : PackLimits) (packing : Packing) (file : ChangedFile) :
    Packing → Prop where
  | skip (why : limits.maxFiles ≤ packing.placedCount ∨ limits.maxChunkChars < fileSize file ∨
      (limits.maxChunks ≤ packing.bins.length ∧
        FitsNowhere limits.maxChunkChars file packing.bins)) :
      PackStep limits packing file
        { packing with skipped := packing.skipped ++ [file.filename] }
  | put {before after : List (List ChangedFile × Nat)} {files : List ChangedFile} {size : Nat}
      (hroom : packing.placedCount < limits.maxFiles)
      (hbins : packing.bins = before ++ (files, size) :: after)
      (hfits : size + fileSize file ≤ limits.maxChunkChars) :
      PackStep limits packing file { packing with
        bins := before ++ (files ++ [file], size + fileSize file) :: after
        placedCount := packing.placedCount + 1 }
  | newBin (hroom : packing.placedCount < limits.maxFiles)
      (hsize : fileSize file ≤ limits.maxChunkChars)
      (hbins : packing.bins.length < limits.maxChunks)
      (hfull : FitsNowhere limits.maxChunkChars file packing.bins) :
      PackStep limits packing file { packing with
        bins := packing.bins ++ [([file], fileSize file)]
        placedCount := packing.placedCount + 1 }

theorem packFile_step (limits : PackLimits) (packing : Packing) (file : ChangedFile) :
    PackStep limits packing file (packFile limits packing file) := by
  unfold packFile
  dsimp only
  split
  · -- as many files are placed as may be
    rename_i hfiles
    exact .skip (Or.inl hfiles)
  rename_i hroom
  split
  · -- larger than a chunk may be
    rename_i hlarge
    exact .skip (Or.inr (Or.inl hlarge))
  rename_i hsize
  cases hfit : firstFit limits.maxChunkChars file packing.bins with
  | some bins =>
    obtain ⟨before, files, size, after, hbins, -, hfits, rfl⟩ := BinPacking.firstFit_eq_some hfit
    exact .put (by omega) hbins hfits
  | none =>
    have hfull : FitsNowhere limits.maxChunkChars file packing.bins :=
      BinPacking.firstFit_eq_none hfit
    dsimp only
    split
    · -- as many chunks are open as may be, and none has room
      rename_i hchunks
      exact .skip (Or.inr (Or.inr ⟨hchunks, hfull⟩))
    · exact .newBin (by omega) (by omega) (by omega) hfull

/-! ## The invariant -/

/-- The size that is kept beside a chunk is the size of its files, which came largest first. -/
structure BinValid (maxChunkChars : Nat) (bin : List ChangedFile × Nat) : Prop where
  nonempty : bin.1 ≠ []
  size : bin.2 = totalSize bin.1
  fits : bin.2 ≤ maxChunkChars
  sorted : bin.1.Pairwise fun a b => fileSize b ≤ fileSize a

/-- Why a file is not in a chunk, read off the chunks as they are now. -/
def Justified (limits : PackLimits) (packing : Packing) (file : ChangedFile) : Prop :=
  limits.maxChunkChars < fileSize file ∨ packing.placedCount = limits.maxFiles ∨
    (packing.bins.length = limits.maxChunks ∧ FitsNowhere limits.maxChunkChars file packing.bins)

/-- The invariant of the loop, once it has tried the files `tried` and skipped `skipped` of them. -/
structure Packing.Valid (limits : PackLimits) (tried skipped : List ChangedFile)
    (packing : Packing) : Prop where
  names : packing.skipped = skipped.map (·.filename)
  partition : (packing.placed ++ skipped).Perm tried
  bins : ∀ bin ∈ packing.bins, BinValid limits.maxChunkChars bin
  count : packing.placedCount = packing.placed.length
  count_le : packing.placedCount ≤ limits.maxFiles
  bins_le : packing.bins.length ≤ limits.maxChunks
  apart : packing.bins.Pairwise fun bin bin' => limits.maxChunkChars < bin.2 + bin'.2
  justified : ∀ file ∈ skipped, Justified limits packing file

theorem totalSize_concat (files : List ChangedFile) (file : ChangedFile) :
    totalSize (files ++ [file]) = totalSize files + fileSize file := by
  rw [totalSize, totalSize, List.map_append, List.sum_append, List.map_singleton,
    List.sum_singleton]

/-- A smaller file goes to the end of a chunk. -/
theorem BinValid.put {maxChunkChars size : Nat} {files : List ChangedFile} {file : ChangedFile}
    (h : BinValid maxChunkChars (files, size)) (hfits : size + fileSize file ≤ maxChunkChars)
    (hsmaller : ∀ placed ∈ files, fileSize file ≤ fileSize placed) :
    BinValid maxChunkChars (files ++ [file], size + fileSize file) where
  nonempty := List.append_ne_nil_of_right_ne_nil _ (List.cons_ne_nil _ _)
  size := by
    have hsize : size = totalSize files := h.size
    rw [totalSize_concat, hsize]
  fits := hfits
  sorted := by
    refine List.pairwise_append.mpr ⟨h.sorted, List.pairwise_singleton _ _, ?_⟩
    intro placed hplaced last hlast
    rw [List.mem_singleton.mp hlast]
    exact hsmaller placed hplaced

theorem BinValid.single {maxChunkChars : Nat} {file : ChangedFile}
    (hsize : fileSize file ≤ maxChunkChars) : BinValid maxChunkChars ([file], fileSize file) where
  nonempty := List.cons_ne_nil _ _
  size := (Nat.add_zero _).symm
  fits := hsize
  sorted := List.pairwise_singleton _ _

/-- What justified a skip still does after a chunk has grown. -/
theorem Justified.put {limits : PackLimits} {packing : Packing} {file skipped : ChangedFile}
    {before after : List (List ChangedFile × Nat)} {files : List ChangedFile} {size : Nat}
    (hroom : packing.placedCount < limits.maxFiles)
    (hbins : packing.bins = before ++ (files, size) :: after)
    (h : Justified limits packing skipped) :
    Justified limits { packing with
      bins := before ++ (files ++ [file], size + fileSize file) :: after
      placedCount := packing.placedCount + 1 } skipped := by
  rcases h with hlarge | hcount | ⟨hlength, hfull⟩
  · exact Or.inl hlarge
  · omega
  · refine Or.inr (Or.inr ⟨?_, ?_⟩)
    · rw [← hlength, hbins, List.length_append, List.length_append]
      rfl
    · intro bin hbin
      rw [hbins] at hfull
      have hgrown := hfull (files, size) (List.mem_append_right _ List.mem_cons_self)
      rcases List.mem_append.mp hbin with hbin | hbin
      · exact hfull bin (List.mem_append_left _ hbin)
      · rcases List.mem_cons.mp hbin with rfl | hbin
        · dsimp only at hgrown ⊢
          omega
        · exact hfull bin (List.mem_append_right _ (List.mem_cons_of_mem _ hbin))

/-- Chunks that were too full to be one still are after one of them has grown. -/
theorem apart_grow {maxChunkChars size more : Nat} {before after : List (List ChangedFile × Nat)}
    {files files' : List ChangedFile}
    (h : (before ++ (files, size) :: after).Pairwise
      fun bin bin' => maxChunkChars < bin.2 + bin'.2) :
    (before ++ (files', size + more) :: after).Pairwise fun bin bin' =>
      maxChunkChars < bin.2 + bin'.2 := by
  obtain ⟨hbefore, hafter, hacross⟩ := List.pairwise_append.mp h
  obtain ⟨hbin, hafter⟩ := List.pairwise_cons.mp hafter
  refine List.pairwise_append.mpr ⟨hbefore, List.pairwise_cons.mpr ⟨?_, hafter⟩, ?_⟩
  · intro bin hmem
    have hover := hbin bin hmem
    dsimp only at hover ⊢
    omega
  · intro bin hmem bin' hmem'
    rcases List.mem_cons.mp hmem' with rfl | hmem'
    · have hover := hacross bin hmem (files, size) List.mem_cons_self
      dsimp only at hover ⊢
      omega
    · exact hacross bin hmem bin' (List.mem_cons_of_mem _ hmem')

/-- A file that was placed is accounted for. -/
theorem placed_partition {placed placed' skipped tried : List ChangedFile} {file : ChangedFile}
    (h : (placed ++ skipped).Perm tried) (hplaced : placed'.Perm (file :: placed)) :
    (placed' ++ skipped).Perm (tried ++ [file]) := by
  have hfront : (placed' ++ skipped).Perm (file :: (placed ++ skipped)) :=
    hplaced.append_right skipped
  exact (hfront.trans (h.cons file)).trans (List.perm_append_singleton file tried).symm

variable {limits : PackLimits} {packing packing' : Packing} {tried skipped : List ChangedFile}
  {file : ChangedFile}

/-- One step of the loop keeps the invariant, for a file that is no larger than those before. That
the files come largest first is what keeps each chunk sorted, and is used for nothing else. -/
theorem PackStep.valid (hstep : PackStep limits packing file packing')
    (h : packing.Valid limits tried skipped)
    (hsmaller : ∀ before ∈ tried, fileSize file ≤ fileSize before) :
    ∃ skipped', packing'.Valid limits (tried ++ [file]) skipped' := by
  -- the file is no larger than any that is placed
  have hplaced : ∀ bin ∈ packing.bins, ∀ placed ∈ bin.1, fileSize file ≤ fileSize placed := by
    intro bin hbin placed hmem
    refine hsmaller placed (h.partition.mem_iff.mp (List.mem_append_left _ ?_))
    exact List.mem_flatMap.mpr ⟨bin, hbin, hmem⟩
  cases hstep with
  | skip why =>
    refine ⟨skipped ++ [file], ?_⟩
    -- a reason to skip is one that stays
    have hwhy : Justified limits packing file := by
      rcases why with hfiles | hlarge | ⟨hchunks, hfull⟩
      · exact Or.inr (Or.inl (Nat.le_antisymm h.count_le hfiles))
      · exact Or.inl hlarge
      · exact Or.inr (Or.inr ⟨Nat.le_antisymm h.bins_le hchunks, hfull⟩)
    exact {
      names := by rw [h.names, List.map_append]; rfl
      partition := by
        rw [← List.append_assoc]
        exact h.partition.append_right [file]
      bins := h.bins
      count := h.count
      count_le := h.count_le
      bins_le := h.bins_le
      apart := h.apart
      justified := by
        intro other hother
        rcases List.mem_append.mp hother with hother | hother
        · exact h.justified other hother
        · rw [List.mem_singleton.mp hother]
          exact hwhy }
  | put hroom hbins hfits =>
    rename_i before after files size
    -- one file more is placed
    have hperm : (Packing.placed { packing with
        bins := before ++ (files ++ [file], size + fileSize file) :: after
        placedCount := packing.placedCount + 1 }).Perm (file :: packing.placed) := by
      simp only [Packing.placed, hbins, List.flatMap_append, List.flatMap_cons, List.append_assoc,
        List.singleton_append]
      rw [← List.append_assoc, ← List.append_assoc]
      exact List.perm_middle
    have hmem : (files, size) ∈ packing.bins := by
      rw [hbins]
      exact List.mem_append_right _ List.mem_cons_self
    exact ⟨skipped, {
      names := h.names
      partition := placed_partition h.partition hperm
      bins := by
        have hothers := h.bins
        rw [hbins] at hothers
        intro bin hbin
        rcases List.mem_append.mp hbin with hbin | hbin
        · exact hothers bin (List.mem_append_left _ hbin)
        · rcases List.mem_cons.mp hbin with rfl | hbin
          · exact (h.bins _ hmem).put hfits (hplaced _ hmem)
          · exact hothers bin (List.mem_append_right _ (List.mem_cons_of_mem _ hbin))
      count := by rw [hperm.length_eq, List.length_cons, ← h.count]
      count_le := hroom
      bins_le := by
        have hle := h.bins_le
        rw [hbins, List.length_append] at hle
        rw [List.length_append]
        exact hle
      apart := by
        have happart := h.apart
        rw [hbins] at happart
        exact apart_grow happart
      -- what no chunk had room for, none has room for now
      justified := fun other hother => (h.justified other hother).put hroom hbins }⟩
  | newBin hroom hsize hbins hfull =>
    have hperm : (Packing.placed { packing with
        bins := packing.bins ++ [([file], fileSize file)]
        placedCount := packing.placedCount + 1 }).Perm (file :: packing.placed) := by
      simp only [Packing.placed, List.flatMap_append, List.flatMap_cons, List.flatMap_nil,
        List.append_nil]
      exact List.perm_append_singleton file _
    exact ⟨skipped, {
      names := h.names
      partition := placed_partition h.partition hperm
      bins := by
        intro bin hbin
        rcases List.mem_append.mp hbin with hbin | hbin
        · exact h.bins bin hbin
        · rw [List.mem_singleton.mp hbin]
          exact .single hsize
      count := by rw [hperm.length_eq, List.length_cons, ← h.count]
      count_le := hroom
      bins_le := by
        rw [List.length_append]
        exact hbins
      apart := by
        refine List.pairwise_append.mpr ⟨h.apart, List.pairwise_singleton _ _, ?_⟩
        intro bin hbin last hlast
        rw [List.mem_singleton.mp hlast]
        exact hfull bin hbin
      justified := by
        intro other hother
        rcases h.justified other hother with hlarge | hcount | ⟨hlength, -⟩
        · exact Or.inl hlarge
        · -- there was still room for a file, and for a chunk
          omega
        · omega }⟩

/-- The loop keeps the invariant, over files that come largest first. -/
theorem foldl_valid (h : packing.Valid limits tried skipped) {rest : List ChangedFile}
    (hsorted : (tried ++ rest).Pairwise fun a b => fileSize b ≤ fileSize a) :
    ∃ skipped', (rest.foldl (packFile limits) packing).Valid limits (tried ++ rest) skipped' := by
  induction rest generalizing packing tried skipped with
  | nil =>
    rw [List.append_nil]
    exact ⟨skipped, h⟩
  | cons file rest ih =>
    have hsmaller : ∀ before ∈ tried, fileSize file ≤ fileSize before := fun before hbefore =>
      (List.pairwise_append.mp hsorted).2.2 before hbefore file List.mem_cons_self
    obtain ⟨skipped', hnext⟩ := (packFile_step limits packing file).valid h hsmaller
    rw [List.append_cons] at hsorted ⊢
    exact ih hnext hsorted

theorem valid_start (limits : PackLimits) : Packing.Valid limits [] [] {} where
  names := rfl
  partition := List.Perm.refl []
  bins := fun _ hbin => absurd hbin List.not_mem_nil
  count := rfl
  count_le := Nat.zero_le _
  bins_le := Nat.zero_le _
  apart := List.Pairwise.nil
  justified := fun _ hfile => absurd hfile List.not_mem_nil

/-- The state the loop ends in. -/
theorem pack_valid (limits : PackLimits) (files : List ChangedFile) :
    ∃ skipped, ((largestFirst files).foldl (packFile limits) {}).Valid limits files skipped := by
  have hsorted : ([] ++ largestFirst files).Pairwise fun a b => fileSize b ≤ fileSize a :=
    List.pairwise_insertionSort _ files
  obtain ⟨skipped, hvalid⟩ := foldl_valid (valid_start limits) hsorted
  exact ⟨skipped, { hvalid with
    partition := hvalid.partition.trans (List.perm_insertionSort _ files) }⟩

/-! ## What is returned -/

/-- The chunks are those of the loop, numbered. -/
theorem mem_chunks {chunk : Chunk} (h : chunk ∈ packing.chunks) :
    ∃ bin ∈ packing.bins, chunk.files = bin.1 := by
  obtain ⟨i, hi, rfl⟩ := List.mem_mapIdx.mp h
  exact ⟨packing.bins[i], List.getElem_mem hi, rfl⟩

theorem length_chunks (packing : Packing) : packing.chunks.length = packing.bins.length :=
  List.length_mapIdx

/-- Every file is in one chunk, or its name is among the skipped. -/
theorem pack_places (limits : PackLimits) (files : List ChangedFile) :
    ∃ skipped : List ChangedFile, (packChunks limits files).skipped = skipped.map (·.filename) ∧
      ((packChunks limits files).chunks.flatMap (·.files) ++ skipped).Perm files := by
  obtain ⟨skipped, hvalid⟩ := pack_valid limits files
  refine ⟨skipped, hvalid.names, ?_⟩
  rw [packChunks, Packing.flatMap_chunks]
  exact hvalid.partition

/-- The result is a partition of the files into chunks within the limits and skipped files. -/
structure BoundedPartition (limits : PackLimits) (files : List ChangedFile)
    (result : PackingResult) : Prop where
  names : ((result.chunks.flatMap (·.files)).map (·.filename) ++ result.skipped).Perm
    (files.map (·.filename))
  placed : ∃ skipped : List ChangedFile, result.skipped = skipped.map (·.filename) ∧
    (result.chunks.flatMap (·.files) ++ skipped).Perm files
  nonempty : ∀ chunk ∈ result.chunks, chunk.files ≠ []
  size_le : ∀ chunk ∈ result.chunks, totalSize chunk.files ≤ limits.maxChunkChars
  sorted : ∀ chunk ∈ result.chunks, chunk.files.Pairwise fun a b => fileSize b ≤ fileSize a
  chunks_le : result.chunks.length ≤ limits.maxChunks
  files_le : (result.chunks.flatMap (·.files)).length ≤ limits.maxFiles
  numbered : ∀ i chunk, result.chunks[i]? = some chunk →
    chunk.index = i + 1 ∧ chunk.total = result.chunks.length

/-- The chunks and the skipped files are a partition of the input, and every limit is kept; the
invariant of the loop, read off the state it ends in. -/
theorem pack_bounded_partition (limits : PackLimits) (files : List ChangedFile) :
    BoundedPartition limits files (packChunks limits files) := by
  obtain ⟨skipped, hvalid⟩ := pack_valid limits files
  have hplaced := pack_places limits files
  exact {
    names := by
      obtain ⟨others, hnames, hperm⟩ := hplaced
      rw [hnames, ← List.map_append]
      exact hperm.map _
    placed := hplaced
    nonempty := by
      intro chunk hchunk
      obtain ⟨bin, hbin, hfiles⟩ := mem_chunks hchunk
      rw [hfiles]
      exact (hvalid.bins bin hbin).nonempty
    size_le := by
      intro chunk hchunk
      obtain ⟨bin, hbin, hfiles⟩ := mem_chunks hchunk
      rw [hfiles, ← (hvalid.bins bin hbin).size]
      exact (hvalid.bins bin hbin).fits
    sorted := by
      intro chunk hchunk
      obtain ⟨bin, hbin, hfiles⟩ := mem_chunks hchunk
      rw [hfiles]
      exact (hvalid.bins bin hbin).sorted
    chunks_le := by
      rw [packChunks, length_chunks]
      exact hvalid.bins_le
    files_le := by
      rw [packChunks, Packing.flatMap_chunks, ← hvalid.count]
      exact hvalid.count_le
    -- chunks are numbered from one, after the loop
    numbered := by
      intro i chunk hchunk
      rw [packChunks, Packing.chunks, List.getElem?_mapIdx] at hchunk
      obtain ⟨bin, -, rfl⟩ := Option.map_eq_some_iff.mp hchunk
      exact ⟨rfl, (length_chunks _).symm⟩ }

/-- No room is left unused: a skipped file is too large, or came after the last that may be placed,
or fits in none of the chunks, of which there are as many as there may be; and no two chunks fit in
one. -/
structure WastesNothing (limits : PackLimits) (files : List ChangedFile)
    (result : PackingResult) : Prop where
  skipped : ∃ skipped : List ChangedFile, result.skipped = skipped.map (·.filename) ∧
    (result.chunks.flatMap (·.files) ++ skipped).Perm files ∧
    ∀ file ∈ skipped, limits.maxChunkChars < fileSize file ∨
      (result.chunks.flatMap (·.files)).length = limits.maxFiles ∨
      (result.chunks.length = limits.maxChunks ∧
        ∀ chunk ∈ result.chunks, limits.maxChunkChars < totalSize chunk.files + fileSize file)
  apart : result.chunks.Pairwise fun chunk chunk' =>
    limits.maxChunkChars < totalSize chunk.files + totalSize chunk'.files

theorem pack_wastes_nothing (limits : PackLimits) (files : List ChangedFile) :
    WastesNothing limits files (packChunks limits files) := by
  obtain ⟨skipped, hvalid⟩ := pack_valid limits files
  constructor
  · refine ⟨skipped, hvalid.names, ?_, fun file hfile => ?_⟩
    · rw [packChunks, Packing.flatMap_chunks]
      exact hvalid.partition
    · rw [packChunks, Packing.flatMap_chunks, length_chunks]
      rcases hvalid.justified file hfile with hlarge | hcount | ⟨hchunks, hfull⟩
      · exact Or.inl hlarge
      · exact Or.inr (Or.inl (hvalid.count.symm.trans hcount))
      · refine Or.inr (Or.inr ⟨hchunks, fun chunk hchunk => ?_⟩)
        obtain ⟨bin, hbin, hfiles⟩ := mem_chunks hchunk
        rw [hfiles, ← (hvalid.bins bin hbin).size]
        exact hfull bin hbin
  · rw [packChunks]
    refine List.pairwise_iff_getElem.mpr fun i j hi hj hij => ?_
    simp only [Packing.chunks, List.getElem_mapIdx]
    rw [Packing.chunks, List.length_mapIdx] at hi hj
    rw [← (hvalid.bins _ (List.getElem_mem hi)).size, ← (hvalid.bins _ (List.getElem_mem hj)).size]
    exact List.pairwise_iff_getElem.mp hvalid.apart i j hi hj hij

end VidiPr
