import Mathlib.Data.List.Infix

/-!
# Text between tags

Where a tag first occurs in a text, and when what a writer put in front of it is all that stands
there.

* **`infix_linesText`** — a tag on one line occurs in some lines where it occurs in one of them.
* **`textUntil_linesText`** — so lines before a tag end at it unless one of them has the tag.
-/

namespace Text

variable {tag v w : List Char}

/-! ## Occurrences and separators -/

/-- A prefix does not reach behind a character it does not have. -/
theorem prefix_append_cons {c : Char} (hc : c ∉ tag) : tag <+: v ++ c :: w ↔ tag <+: v := by
  constructor
  · intro h
    rcases List.prefix_or_prefix_of_prefix h (List.prefix_append v (c :: w)) with hshort | hlong
    · exact hshort
    · obtain ⟨rest, rfl⟩ := hlong
      cases rest with
      | nil => rw [List.append_nil]
      | cons d rest =>
        have hd : d = c := (List.cons_prefix_cons.mp ((List.prefix_append_right_inj v).mp h)).1
        rw [hd] at hc
        exact absurd (List.mem_append_right v List.mem_cons_self) hc
  · exact fun h => h.trans (List.prefix_append v _)

/-- What occurs around a character it does not have occurs on one side of it. -/
theorem infix_append_cons {c : Char} (hc : c ∉ tag) :
    tag <:+: v ++ c :: w ↔ tag <:+: v ∨ tag <:+: w := by
  induction v with
  | nil =>
    rw [List.nil_append, List.infix_cons_iff]
    have hfirst : tag <+: [] ++ c :: w ↔ tag <+: [] := prefix_append_cons hc
    rw [List.nil_append] at hfirst
    rw [hfirst, List.prefix_nil, List.infix_nil]
  | cons d v ih =>
    have hfirst : tag <+: (d :: v) ++ c :: w ↔ tag <+: d :: v := prefix_append_cons hc
    rw [List.cons_append] at hfirst ⊢
    rw [List.infix_cons_iff, hfirst, ih, List.infix_cons_iff, or_assoc]

/-- It does not start in a text without its first character. -/
theorem infix_append_of_head {c : Char} (hc : c ∉ v) : c :: tag <:+: v ++ w ↔ c :: tag <:+: w := by
  induction v with
  | nil => rfl
  | cons d v ih =>
    have hfirst : ¬ c :: tag <+: d :: (v ++ w) := fun hprefix =>
      hc ((List.cons_prefix_cons.mp hprefix).1 ▸ List.mem_cons_self)
    rw [List.cons_append, List.infix_cons_iff, or_iff_right hfirst]
    exact ih fun h => hc (List.mem_cons_of_mem d h)

/-- Nor end in a text without its last. -/
theorem infix_append_of_last {c : Char} (hc : c ∉ w) :
    tag ++ [c] <:+: v ++ w ↔ tag ++ [c] <:+: v := by
  rw [← List.reverse_infix, List.reverse_append, List.reverse_append, List.reverse_singleton,
    List.singleton_append, infix_append_of_head (fun h => hc (List.mem_reverse.mp h)),
    ← List.reverse_infix, List.reverse_reverse, List.reverse_cons, List.reverse_reverse]

/-! ## The text up to a tag -/

/-- `text[:text.index(tag)]` -/
def textUntil (tag : List Char) : List Char → Option (List Char)
  | [] => if tag = [] then some [] else none
  | c :: rest => if tag <+: c :: rest then some [] else (textUntil tag rest).map (c :: ·)

/-- It ends at the first place where the tag stands. -/
theorem textUntil_append {rest : List Char} : textUntil tag (w ++ (tag ++ rest)) = some w ↔
    ∀ v u, w = v ++ u → u ≠ [] → ¬ tag <+: u ++ (tag ++ rest) := by
  induction w with
  | nil =>
    refine iff_of_true ?_ fun v u hvu hu => absurd (List.append_eq_nil_iff.mp hvu.symm).2 hu
    rw [List.nil_append]
    cases htext : tag ++ rest with
    | nil => exact if_pos (List.append_eq_nil_iff.mp htext).1
    | cons c text =>
      rw [textUntil, if_pos]
      rw [← htext]
      exact List.prefix_append tag rest
  | cons c w ih =>
    rw [List.cons_append, textUntil]
    constructor
    · -- the tag stands neither here nor further on
      intro h v u hvu hu
      split at h
      · cases h
      · rename_i hfirst
        obtain ⟨w', hw', heq⟩ := Option.map_eq_some_iff.mp h
        obtain rfl : w' = w := (List.cons_eq_cons.mp heq).2
        cases v with
        | nil =>
          rw [List.nil_append] at hvu
          rw [← hvu]
          exact hfirst
        | cons d v => exact ih.mp hw' v u (List.cons_eq_cons.mp hvu).2 hu
    · intro h
      -- the tag does not stand here, so the text goes on
      have hfirst : ¬ tag <+: c :: (w ++ (tag ++ rest)) := h [] (c :: w) rfl (List.cons_ne_nil c w)
      rw [if_neg hfirst, Option.map_eq_some_iff]
      exact ⟨w, ih.mpr fun v u hvu hu => h (c :: v) u (congrArg (c :: ·) hvu) hu, rfl⟩

/-! ## Lines -/

/-- Lines between two tags that are on lines of their own. -/
def linesText (lines : List String) : List Char :=
  '\n' :: lines.flatMap fun line => line.toList ++ ['\n']

theorem linesText_cons (line : String) (lines : List String) :
    linesText (line :: lines) = '\n' :: (line.toList ++ linesText lines) := by
  simp [linesText]

theorem exists_linesText_concat (lines : List String) :
    ∃ before, linesText lines = before ++ ['\n'] := by
  induction lines with
  | nil => exact ⟨[], rfl⟩
  | cons line lines ih =>
    obtain ⟨before, hbefore⟩ := ih
    exact ⟨'\n' :: (line.toList ++ before), by rw [linesText_cons, hbefore]; simp⟩

/-- Lines joined between a first and a last one. -/
theorem toList_intercalate_lines (first last : String) (lines : List String) :
    ("\n".intercalate ([first] ++ lines ++ [last])).toList =
      first.toList ++ (linesText lines ++ last.toList) := by
  have hrest : ∀ lines : List String, ∀ line,
      ("\n".intercalate (line :: (lines ++ [last]))).toList =
        line.toList ++ (linesText lines ++ last.toList) := by
    intro lines
    induction lines with
    | nil =>
      intro line
      simp [linesText]
    | cons next lines ih =>
      intro line
      rw [List.cons_append, String.intercalate_cons_cons, String.toList_append, ih next,
        linesText_cons]
      simp
  exact hrest lines first

/-- A tag on one line occurs where one of the lines has it. -/
theorem infix_linesText {lines : List String} (hline : '\n' ∉ tag) (hne : tag ≠ []) :
    tag <:+: linesText lines ↔ ∃ line ∈ lines, tag <:+: line.toList := by
  have hnil : ¬ tag <:+: [] := fun h => hne (List.infix_nil.mp h)
  induction lines with
  | nil =>
    have hnone : ¬ tag <:+: [] ++ '\n' :: [] := by
      rw [infix_append_cons hline]
      exact fun h => h.elim hnil hnil
    exact iff_of_false hnone (by simp)
  | cons line lines ih =>
    have hfirst : tag <:+: [] ++ '\n' :: (line.toList ++ linesText lines) ↔
        tag <:+: line.toList ++ linesText lines := by
      rw [infix_append_cons hline, or_iff_right hnil]
    have hlater : tag <:+: linesText lines ↔
        tag <:+: lines.flatMap fun line => line.toList ++ ['\n'] := by
      have hsplit := infix_append_cons (v := [])
        (w := lines.flatMap fun line => line.toList ++ ['\n']) hline
      rw [or_iff_right hnil] at hsplit
      exact hsplit
    rw [List.nil_append] at hfirst
    rw [linesText_cons, hfirst, List.exists_mem_cons_iff]
    refine (infix_append_cons hline).trans (or_congr_right ?_)
    exact hlater.symm.trans ih

/-- The lines before a tag are what stands before it unless one of them has it. -/
theorem textUntil_linesText {lines : List String} {rest : List Char} (hline : '\n' ∉ tag)
    (hne : tag ≠ []) : textUntil tag (linesText lines ++ (tag ++ rest)) = some (linesText lines) ↔
      ∀ line ∈ lines, ¬ tag <:+: line.toList := by
  have hall : (∀ line ∈ lines, ¬ tag <:+: line.toList) ↔ ¬ tag <:+: linesText lines := by
    rw [infix_linesText hline hne]
    simp only [not_exists, not_and]
  rw [textUntil_append, hall]
  constructor
  · rintro h ⟨v, u, hvu⟩
    refine h v (tag ++ u) (by rw [← hvu, List.append_assoc]) ?_ ?_
    · exact fun hnil => hne (List.append_eq_nil_iff.mp hnil).1
    · exact (List.prefix_append tag u).trans (List.prefix_append _ _)
  · intro h v u hvu hu hprefix
    -- the rest of the lines ends with a newline, which the tag does not cross
    obtain ⟨before, hbefore⟩ := exists_linesText_concat lines
    obtain ⟨u', c, rfl⟩ : ∃ u' c, u = u' ++ [c] := ⟨_, _, (List.dropLast_append_getLast hu).symm⟩
    have hlast : v ++ u' ++ [c] = before ++ ['\n'] := by
      rw [← hbefore, hvu, List.append_assoc]
    obtain ⟨-, hc⟩ := List.append_inj' hlast rfl
    obtain rfl : c = '\n' := List.singleton_inj.mp hc
    rw [List.append_assoc, List.singleton_append, prefix_append_cons hline] at hprefix
    refine h ?_
    rw [hvu]
    exact ( hprefix.isInfix.trans (List.prefix_append u' ['\n']).isInfix).trans
      (List.suffix_append v _).isInfix

end Text
