import Mathlib.Data.List.TakeDrop
import Mathlib.Data.List.TakeWhile
import VidiPr.Prompts.Composer

/-!
# Which part of a file name decides its languages

`detect_languages` cuts a file name at its last dot. What stands in front of the base name matters
for a base name that is a dot and a known extension, and for no other.

* **`rpartition_last`**, **`rpartition_none`** — where `str.rpartition` cuts.
* **`languages_of_base_name`** — when a directory makes no difference.
-/

namespace VidiPr

open Text

/-! ## The last separator -/

section Separator

variable {sep : Char} {s head tail : List Char}

theorem rpartition_last (h : sep ∉ tail) :
    rpartition sep (String.ofList (head ++ sep :: tail)) =
      (String.ofList head, true, String.ofList tail) := by
  have htail : ∀ c ∈ tail.reverse, decide (c ≠ sep) = true := by
    intro c hc
    exact decide_eq_true fun heq => h (heq ▸ List.mem_reverse.mp hc)
  have hspan : (head ++ sep :: tail).reverse.span (· ≠ sep) =
      (tail.reverse, sep :: head.reverse) := by
    rw [List.reverse_append, List.reverse_cons, List.append_assoc, List.span_eq_takeWhile_dropWhile,
      List.takeWhile_append_of_pos htail, List.dropWhile_append_of_pos htail]
    simp
  simp only [rpartition, String.toList_ofList, hspan, List.reverse_reverse]

theorem rpartition_none (h : sep ∉ s) :
    rpartition sep (String.ofList s) = ("", false, String.ofList s) := by
  have hall : ∀ c ∈ s.reverse, decide (c ≠ sep) = true := by
    intro c hc
    exact decide_eq_true fun heq => h (heq ▸ List.mem_reverse.mp hc)
  have hspan : s.reverse.span (· ≠ sep) = (s.reverse, []) := by
    rw [List.span_eq_takeWhile_dropWhile, List.takeWhile_eq_self_iff.mpr hall,
      List.dropWhile_eq_nil_iff.mpr hall]
  simp only [rpartition, String.toList_ofList, hspan]

/-- A text that holds a separator, cut at the last one. -/
theorem exists_last_sep (h : sep ∈ s) : ∃ head tail, s = head ++ sep :: tail ∧ sep ∉ tail := by
  obtain ⟨front, back, hs, hfront⟩ := List.eq_append_cons_of_mem (List.mem_reverse.mpr h)
  refine ⟨back.reverse, front.reverse, ?_, by simpa using hfront⟩
  rw [← List.reverse_reverse s, hs]
  simp

end Separator

/-! ## The languages of one file -/

namespace Language

theorem mem_sorted (language : Language) : language ∈ sorted := by
  cases language <;> decide

theorem generic_not_mem_ofExtension (extension : String) : generic ∉ ofExtension extension := by
  unfold ofExtension
  split <;> decide

theorem ofExtension_slash {extension : String} (h : '/' ∈ extension.toList) :
    ofExtension extension = [] := by
  unfold ofExtension
  split
  all_goals first
    | rfl
    | exact absurd h (by decide)

variable [UnicodeDb]

theorem mem_detect {files : List ChangedFile} {language : Language} :
    language ∈ detect files ↔ ∃ file ∈ files, language ∈ ofFile file := by
  simp [detect, mem_sorted]

/-- The languages of the text after the last dot. -/
def known (tail : List Char) : List Language :=
  let matched := ofExtension (UnicodeDb.lower (String.ofList tail))
  if matched.isEmpty then [.generic] else matched

variable {file : ChangedFile} {s head tail : List Char}

theorem ofFile_none (hname : file.filename = String.ofList s) (h : '.' ∉ s) :
    ofFile file = [.generic] := by
  simp [ofFile, hname, rpartition_none h]

theorem ofFile_last (hname : file.filename = String.ofList (head ++ '.' :: tail)) (h : '.' ∉ tail) :
    ofFile file = if head = [] then [.generic] else known tail := by
  unfold ofFile
  rw [hname, rpartition_last h]
  by_cases hhead : head = []
  · simp [hhead]
  · simp [known, hhead]

/-- What is known of a tail is not generic, or nothing else. -/
theorem known_eq_generic : known tail = [.generic] ∨ Language.generic ∉ known tail := by
  unfold known
  dsimp only
  split
  · exact Or.inl rfl
  · exact Or.inr (generic_not_mem_ofExtension _)

/-! ## Directories -/

/-- What is relied on of `str.lower`: a slash stays. -/
def KeepsSlash : Prop := ∀ s : String, '/' ∈ s.toList → '/' ∈ (UnicodeDb.lower s).toList

theorem known_slash (hlower : KeepsSlash) (h : '/' ∈ tail) : known tail = [.generic] := by
  have hslash : '/' ∈ (UnicodeDb.lower (String.ofList tail)).toList :=
    hlower _ (by rwa [String.toList_ofList])
  simp [known, ofExtension_slash hslash]

/-- The name is a dot and a known extension. -/
def IsKnownDotfile (name : String) : Prop :=
  ∃ extension : List Char, name = String.ofList ('.' :: extension) ∧ '.' ∉ extension ∧
    known extension ≠ [.generic]

/-- A directory makes no difference to the languages of a base name, unless that is a dot and a
known extension. -/
theorem ofFile_directory (hlower : KeepsSlash) (directory : String) {name : String}
    (hname : '/' ∉ name.toList) (file : ChangedFile) :
    ofFile { file with filename := directory ++ "/" ++ name } =
        ofFile { file with filename := name } ∨
      (IsKnownDotfile name ∧ ofFile { file with filename := name } = [.generic] ∧
        Language.generic ∉ ofFile { file with filename := directory ++ "/" ++ name }) := by
  have hpath : ∀ s, name = String.ofList s →
      directory ++ "/" ++ name = String.ofList (directory.toList ++ '/' :: s) := by
    rintro s rfl
    apply String.ext
    simp
  by_cases hdot : '.' ∈ name.toList
  · -- the name is cut at its own last dot
    obtain ⟨head, tail, hs, htail⟩ := exists_last_sep hdot
    have hs' : name = String.ofList (head ++ '.' :: tail) := by rw [← hs, String.ofList_toList]
    have hfull := hpath _ hs'
    rw [← List.cons_append, ← List.append_assoc] at hfull
    have hpart : ofFile { file with filename := name } =
        if head = [] then [.generic] else known tail := ofFile_last hs' htail
    have hwhole : ofFile { file with filename := directory ++ "/" ++ name } = known tail :=
      (ofFile_last hfull htail).trans (if_neg (by simp))
    rw [hpart, hwhole]
    by_cases hhead : head = []
    · subst hhead
      rw [if_pos rfl]
      by_cases hknown : known tail = [.generic]
      · exact Or.inl hknown
      · exact Or.inr ⟨⟨tail, hs', htail, hknown⟩, rfl, known_eq_generic.resolve_left hknown⟩
    · exact Or.inl (if_neg hhead).symm
  · left
    have hs' : name = String.ofList name.toList := (String.ofList_toList).symm
    have hpart : ofFile { file with filename := name } = [.generic] := ofFile_none hs' hdot
    rw [hpart]
    by_cases hdir : '.' ∈ directory.toList
    · -- the path is cut in the directory, so that its tail holds the slash
      obtain ⟨head, tail, hs, htail⟩ := exists_last_sep hdir
      have hfull := hpath _ hs'
      rw [hs, List.append_assoc, List.cons_append] at hfull
      have hrest : '.' ∉ tail ++ '/' :: name.toList := by
        simp [htail, hdot]
      refine (ofFile_last hfull hrest).trans ?_
      split
      · rfl
      · exact known_slash hlower (by simp)
    · exact ofFile_none (hpath _ hs') (by simp [hdir, hdot])

theorem detect_singleton {file file' : ChangedFile} (h : ofFile file = ofFile file') :
    detect [file] = detect [file'] := by
  simp only [detect, List.any_cons, List.any_nil, h]

/-- A directory changes the languages of a base name exactly where that is a dot and a known
extension; and the languages of several files are those of each. -/
theorem languages_of_base_name (hlower : KeepsSlash) :
    (∀ (directory name : String) (file : ChangedFile), '/' ∉ name.toList →
      (detect [{ file with filename := directory ++ "/" ++ name }] =
        detect [{ file with filename := name }] ↔ ¬ IsKnownDotfile name)) ∧
    (∀ (files : List ChangedFile) (language : Language),
      language ∈ detect files ↔ ∃ file ∈ files, language ∈ detect [file]) := by
  constructor
  · intro directory name file hname
    rcases ofFile_directory hlower directory hname file with heq | ⟨hknown, hpart, hwhole⟩
    · refine ⟨fun _ => ?_, fun _ => detect_singleton heq⟩
      rintro ⟨extension, hs, hdot, hextension⟩
      -- at the root the name has no extension, in the directory it has a known one
      have hpath : directory ++ "/" ++ name =
          String.ofList ((directory.toList ++ ['/']) ++ '.' :: extension) := by
        apply String.ext
        simp [hs]
      have hpart : ofFile { file with filename := name } = [.generic] :=
        (ofFile_last hs hdot).trans (if_pos rfl)
      have hwhole : ofFile { file with filename := directory ++ "/" ++ name } = known extension :=
        (ofFile_last hpath hdot).trans (if_neg (by simp))
      exact hextension (hwhole.symm.trans (heq.trans hpart))
    · refine ⟨fun heq => ?_, fun hnot => absurd hknown hnot⟩
      have hmem : Language.generic ∈ detect [{ file with filename := name }] :=
        mem_detect.mpr ⟨_, List.mem_singleton_self _, by
          rw [hpart]
          exact List.mem_singleton_self _⟩
      rw [← heq] at hmem
      obtain ⟨file', hfile', hgeneric⟩ := mem_detect.mp hmem
      rw [List.mem_singleton.mp hfile'] at hgeneric
      exact absurd hgeneric hwhole
  · intro files language
    simp only [mem_detect, List.mem_singleton, exists_eq_left]

end Language

section Example

attribute [local instance] asciiDb

theorem asciiDb_keepsSlash : Language.KeepsSlash := by
  intro s h
  rw [UnicodeDb.lower, String.toList_ofList]
  exact List.mem_map.mpr ⟨'/', h, rfl⟩

def exampleFile (filename : String) : ChangedFile :=
  { filename, status := .added, additions := 1, deletions := 0, patch := some "" }

/-- `src/app.py` is a Python file as `app.py` is. -/
theorem languages_of_base_name_python :
    Language.detect [exampleFile "src/app.py"] = Language.detect [exampleFile "app.py"] := by
  refine ((Language.languages_of_base_name asciiDb_keepsSlash).1 "src" "app.py"
    (exampleFile "") (by decide)).mpr ?_
  rintro ⟨extension, hs, _⟩
  have hchars : "app.py".toList = '.' :: extension := by rw [hs, String.toList_ofList]
  cases hchars

/-- `.bash` has no language, `scripts/.bash` is a shell script. -/
theorem dotfile_in_directory :
    Language.detect [exampleFile "scripts/.bash"] ≠ Language.detect [exampleFile ".bash"] := by
  decide

end Example

end VidiPr
