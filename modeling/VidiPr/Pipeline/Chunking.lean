import Mathlib.Algebra.GroupWithZero.Nat
import Mathlib.Algebra.Ring.Int.Defs
import Mathlib.Data.List.Sort
import VidiPr.Lib.BinPacking
import VidiPr.Models.Review

/-!
# Packing files into chunks

`pipeline/chunking.py`: files are tried largest first, each goes to the first chunk it fits in, a
new chunk is opened while there may be one more, and what finds no place is skipped.
-/

namespace VidiPr

/-- The limits of `PipelineConfig` that packing reads: on the files placed, on the chunks, and on
the characters of one chunk. -/
structure PackLimits where
  maxFiles : Nat
  maxChunks : Nat
  maxChunkChars : Nat

structure PackingResult where
  chunks : List Chunk
  skipped : List String
deriving DecidableEq, Repr

/-- `_file_size`: the characters of the patch, none where there is no patch. Neither the name of a
file nor what the prompt puts around a patch counts. -/
def fileSize (file : ChangedFile) : Nat := (file.patch.getD "").length

/-- The two lists of the loop, chunk by chunk, with what it has skipped and counted. -/
structure Packing where
  bins : List (List ChangedFile × Nat) := []
  skipped : List String := []
  placedCount : Nat := 0

/-- Put a file into the first chunk that has room for it. -/
def firstFit (maxChunkChars : Nat) (file : ChangedFile) (bins : List (List ChangedFile × Nat)) :
    Option (List (List ChangedFile × Nat)) :=
  BinPacking.firstFit fileSize maxChunkChars file bins

/-- The body of the loop: a file is skipped for its number or its size, or goes to the first chunk
with room for it, or into a chunk of its own, as long as there may be one more. -/
def packFile (limits : PackLimits) (packing : Packing) (file : ChangedFile) : Packing :=
  let skip : Packing := { packing with skipped := packing.skipped ++ [file.filename] }
  if limits.maxFiles ≤ packing.placedCount then skip
  else if limits.maxChunkChars < fileSize file then skip
  else match firstFit limits.maxChunkChars file packing.bins with
    | some bins => { packing with bins, placedCount := packing.placedCount + 1 }
    | none =>
      if limits.maxChunks ≤ packing.bins.length then skip
      else { packing with
        bins := packing.bins ++ [([file], fileSize file)]
        placedCount := packing.placedCount + 1 }

/-- `sorted(files, key=_file_size, reverse=True)`, which is stable. -/
def largestFirst (files : List ChangedFile) : List ChangedFile :=
  files.insertionSort fun a b => fileSize b ≤ fileSize a

/-- The chunks of a packing, numbered from 1. -/
def Packing.chunks (packing : Packing) : List Chunk :=
  packing.bins.mapIdx fun i bin => {
    index := i + 1
    total := packing.bins.length
    files := bin.1 }

/-- `pack_chunks`: the files are placed one by one, largest first, and the chunks are numbered only
when all of them are placed. -/
def packChunks (limits : PackLimits) (files : List ChangedFile) : PackingResult :=
  let packing := (largestFirst files).foldl (packFile limits) {}
  { chunks := packing.chunks, skipped := packing.skipped }

/-- The files of the chunks, in their order. -/
def Packing.placed (packing : Packing) : List ChangedFile := packing.bins.flatMap (·.1)

theorem Packing.flatMap_chunks (packing : Packing) :
    packing.chunks.flatMap (·.files) = packing.placed := by
  have hmap : packing.chunks.map (·.files) = packing.bins.map (·.1) := by
    refine List.ext_getElem? fun i => ?_
    rw [List.getElem?_map, chunks, List.getElem?_mapIdx, List.getElem?_map, Option.map_map]
    rfl
  rw [placed, List.flatMap_def, List.flatMap_def, hmap]

end VidiPr
