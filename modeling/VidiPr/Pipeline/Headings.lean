import VidiPr.Lib.Lines
import VidiPr.Pipeline.Rendering

/-!
# The headings of a reply

`_HEADING` of `pipeline/parsing.py`, read as a grammar: what a match consists of, and which lines of
a reply are headings.

* **`mem_ends_heading`** — a match is `##`, whitespace, a name and whitespace up to the end of a
  line.
* **`findIter_heading`** — every place where the pattern matches is found.
* **`heading_grammar`** — the headings found are the heading lines exactly where no `##` stands on a
  line of its own before a line with a name.
-/

namespace VidiPr

open Text Regex

/-! ## A heading -/

/-- The sections of a review. -/
def sectionNames : List String := ["Summary", "Findings", "Suggestions", "Positives"]

theorem mem_sectionNames {name : String} : name ∈ sectionNames ↔
    name = "Summary" ∨ name = "Findings" ∨ name = "Suggestions" ∨ name = "Positives" := by
  simp only [sectionNames, List.mem_cons, List.not_mem_nil, or_false]

/-- The text starts with a heading: `##`, whitespace, a name, and nothing else on the line where the
name ends. -/
structure HeadingAt (after gap : List Char) (name : String) (tail : List Char) : Prop where
  text : after = ['#', '#'] ++ (gap ++ (name.toList ++ tail))
  gap_ne_nil : gap ≠ []
  gap_space : ∀ c ∈ gap, isSpace c
  name_mem : name ∈ sectionNames
  blank : BlankLine tail

/-- What the heading pattern matches, in full: `##`, whitespace, one of the four names, and
whitespace up to the end of a line. The whitespace on either side may contain line feeds. -/
theorem mem_ends_heading {m m' : Cursor} : m' ∈ headingPattern.ends m ↔
    AtLineStart m.before ∧ ∃ gap name trail rest,
      HeadingAt m.after gap name (trail ++ rest) ∧ (∀ c ∈ trail, isSpace c) ∧ AtLineEnd rest ∧
        m' = { m.skip (['#', '#'] ++ (gap ++ (name.toList ++ trail))) rest with
          group := some name.toList } := by
  -- one of the four names
  have hname : ∀ {m m' : Cursor}, m' ∈ (alt (exactly "Summary") (alt (exactly "Findings")
      (alt (exactly "Suggestions") (exactly "Positives")))).ends m ↔
      ∃ name ∈ sectionNames, ∃ rest, m.after = name.toList ++ rest ∧
        m' = m.skip name.toList rest := by
    intro m m'
    simp only [mem_ends_alt, mem_ends_exactly, mem_sectionNames, exists_eq_or_imp, exists_eq_left]
  unfold headingPattern
  constructor
  · -- piece by piece through the pattern
    intro h
    obtain ⟨m₁, h₁, t₁⟩ := mem_ends_seq.mp h
    obtain ⟨heq, hstart⟩ := mem_ends_lineStart.mp h₁
    rw [heq] at t₁
    obtain ⟨m₂, h₂, t₂⟩ := mem_ends_seq.mp t₁
    obtain ⟨c₂, after₂, hafter₂, hc₂, rfl⟩ := mem_ends_chr.mp h₂
    obtain ⟨m₃, h₃, t₃⟩ := mem_ends_seq.mp t₂
    obtain ⟨c₃, after₃, hafter₃, hc₃, rfl⟩ := mem_ends_chr.mp h₃
    obtain ⟨m₄, h₄, t₄⟩ := mem_ends_seq.mp t₃
    obtain ⟨gap, after₄, hafter₄, hgap, hspace, rfl⟩ := mem_ends_some'.mp h₄
    obtain ⟨m₅, h₅, t₅⟩ := mem_ends_seq.mp t₄
    obtain ⟨m₅', h₅', rfl⟩ := mem_ends_group.mp h₅
    obtain ⟨name, hmem, after₅, hafter₅, rfl⟩ := hname.mp h₅'
    obtain ⟨m₆, h₆, t₆⟩ := mem_ends_seq.mp t₅
    obtain ⟨trail, rest, hafter₆, htrail, rfl⟩ := mem_ends_many.mp h₆
    obtain ⟨rfl, hend⟩ := mem_ends_lineEnd.mp t₆
    obtain rfl := of_decide_eq_true hc₂
    obtain rfl := of_decide_eq_true hc₃
    simp only [Cursor.skip_after] at hafter₃ hafter₄ hafter₅ hafter₆
    subst hafter₃ hafter₄ hafter₅ hafter₆
    refine ⟨hstart, gap, name, trail, rest, ⟨hafter₂, hgap, hspace, hmem, ⟨trail, rest, rfl, htrail,
      hend⟩⟩, htrail, hend, ?_⟩
    simp [Cursor.skip, Cursor.upTo]
  · -- and back
    rintro ⟨hstart, gap, name, trail, rest, hheading, htrail, hend, rfl⟩
    refine mem_ends_seq.mpr ⟨m, mem_ends_lineStart.mpr ⟨rfl, hstart⟩, ?_⟩
    refine mem_ends_seq.mpr ⟨_, mem_ends_chr.mpr ⟨'#', _, hheading.text, rfl, rfl⟩, ?_⟩
    refine mem_ends_seq.mpr ⟨_, mem_ends_chr.mpr ⟨'#', _, rfl, rfl, rfl⟩, ?_⟩
    refine mem_ends_seq.mpr ⟨_, mem_ends_some'.mpr ⟨gap, _, rfl, hheading.gap_ne_nil,
      hheading.gap_space, rfl⟩, ?_⟩
    refine mem_ends_seq.mpr ⟨_, mem_ends_group.mpr ⟨_, hname.mpr ⟨name, hheading.name_mem, _, rfl,
      rfl⟩, rfl⟩, ?_⟩
    refine mem_ends_seq.mpr ⟨_, mem_ends_many.mpr ⟨trail, rest, rfl, htrail, rfl⟩, ?_⟩
    refine mem_ends_lineEnd.mpr ⟨?_, hend⟩
    simp [Cursor.skip, Cursor.upTo]

theorem not_space_of_mem_names {name : String} (h : name ∈ sectionNames) :
    ∃ c rest, name.toList = c :: rest ∧ isSpace c = false := by
  rcases mem_sectionNames.mp h with rfl | rfl | rfl | rfl <;> exact ⟨_, _, rfl, by decide⟩

/-- Whitespace before something else is the same whitespace. -/
theorem space_append_inj {gap gap' rest rest' : List Char} {c c' : Char}
    (h : gap ++ c :: rest = gap' ++ c' :: rest') (hgap : ∀ c ∈ gap, isSpace c)
    (hgap' : ∀ c ∈ gap', isSpace c) (hc : isSpace c = false) (hc' : isSpace c' = false) :
    gap = gap' ∧ c :: rest = c' :: rest' := by
  induction gap generalizing gap' with
  | nil =>
    cases gap' with
    | nil => exact ⟨rfl, h⟩
    | cons d gap' =>
      cases h
      rw [hgap' c List.mem_cons_self] at hc
      cases hc
  | cons d gap ih =>
    cases gap' with
    | nil =>
      cases h
      rw [hgap c' List.mem_cons_self] at hc'
      cases hc'
    | cons d' gap' =>
      obtain ⟨rfl, htail⟩ := List.cons_eq_cons.mp h
      obtain ⟨rfl, hrest⟩ := ih htail (fun c hc => hgap c (List.mem_cons_of_mem _ hc))
        fun c hc => hgap' c (List.mem_cons_of_mem _ hc)
      exact ⟨rfl, hrest⟩

/-- No name is the beginning of another. -/
theorem name_append_inj {name name' : String} {tail tail' : List Char}
    (hname : name ∈ sectionNames) (hname' : name' ∈ sectionNames)
    (h : name.toList ++ tail = name'.toList ++ tail') : name = name' ∧ tail = tail' := by
  have hsame : name = name' := by
    by_contra hne
    have htake : (name.toList ++ tail).take 3 = (name'.toList ++ tail').take 3 := by rw [h]
    rcases mem_sectionNames.mp hname with rfl | rfl | rfl | rfl <;>
      rcases mem_sectionNames.mp hname' with rfl | rfl | rfl | rfl <;>
      first | exact hne rfl | exact absurd htake (by simp)
  subst hsame
  exact ⟨rfl, List.append_cancel_left h⟩

/-- A heading is read in one way. -/
theorem HeadingAt.unique {after gap gap' tail tail' : List Char} {name name' : String}
    (h : HeadingAt after gap name tail) (h' : HeadingAt after gap' name' tail') :
    gap = gap' ∧ name = name' ∧ tail = tail' := by
  have heq := List.append_cancel_left (h.text.symm.trans h'.text)
  obtain ⟨c, rest, hname, hc⟩ := not_space_of_mem_names h.name_mem
  obtain ⟨c', rest', hname', hc'⟩ := not_space_of_mem_names h'.name_mem
  rw [hname, hname'] at heq
  obtain ⟨hgap, hrest⟩ := space_append_inj heq h.gap_space h'.gap_space hc hc'
  refine ⟨hgap, name_append_inj h.name_mem h'.name_mem ?_⟩
  rw [hname, hname']
  exact hrest

/-- A match is preferred at a place where a heading starts at the beginning of a line. -/
theorem of_matchAt_heading {before after : List Char} {m m' : Cursor}
    (h : headingPattern.matchAt before after = some (m, m')) :
    m = { before, after } ∧ AtLineStart before ∧ ∃ gap name trail rest,
      HeadingAt after gap name (trail ++ rest) ∧ (∀ c ∈ trail, isSpace c) ∧ AtLineEnd rest ∧
        m' = { m.skip (['#', '#'] ++ (gap ++ (name.toList ++ trail))) rest with
          group := some name.toList } := by
  obtain ⟨rfl, hmem⟩ := of_matchAt h
  exact ⟨rfl, Iff.mp mem_ends_heading hmem⟩

/-- Where a heading starts at the beginning of a line, the match ends in the whitespace behind the
name. -/
theorem matchAt_heading {before after gap tail : List Char} {name : String}
    (hstart : AtLineStart before) (h : HeadingAt after gap name tail) :
    ∃ trail rest, tail = trail ++ rest ∧ (∀ c ∈ trail, isSpace c) ∧
      headingPattern.matchAt before after = some ({ before, after }, {
        before := (['#', '#'] ++ (gap ++ (name.toList ++ trail))).reverse ++ before
        after := rest
        group := some name.toList }) := by
  obtain ⟨trail, rest, rfl, htrail, hend⟩ := h.blank
  have hsome : ∃ m', m' ∈ headingPattern.ends { before, after } :=
    ⟨_, Iff.mpr mem_ends_heading ⟨hstart, gap, name, trail, rest, h, htrail, hend, rfl⟩⟩
  obtain ⟨m', hmem⟩ := hsome
  cases hmatch : headingPattern.matchAt before after with
  | none => exact absurd hmem (by rw [matchAt_eq_none.mp hmatch]; exact List.not_mem_nil)
  | some p =>
    rcases p with ⟨m, m'⟩
    obtain ⟨rfl, -, gap', name', trail', rest', h', htrail', -, rfl⟩ := of_matchAt_heading hmatch
    obtain ⟨rfl, rfl, htail⟩ := h.unique h'
    exact ⟨trail', rest', htail, htrail', rfl⟩

theorem matchAt_heading_eq_none {before after : List Char} :
    headingPattern.matchAt before after = none ↔
      ¬ (AtLineStart before ∧ ∃ gap name tail, HeadingAt after gap name tail) := by
  rw [matchAt_eq_none, List.eq_nil_iff_forall_not_mem]
  constructor
  · rintro h ⟨hstart, gap, name, tail, hheading⟩
    obtain ⟨trail, rest, rfl, htrail, hend⟩ := hheading.blank
    exact h _ (Iff.mpr mem_ends_heading
      ⟨hstart, gap, name, trail, rest, hheading, htrail, hend, rfl⟩)
  · intro h m' hmem
    obtain ⟨hstart, gap, name, trail, rest, hheading, -⟩ := Iff.mp mem_ends_heading hmem
    exact h ⟨hstart, gap, name, _, hheading⟩

/-- After its `##` a heading has no `#`. -/
theorem hash_not_mem {gap trail : List Char} {name : String} (hgap : ∀ c ∈ gap, isSpace c)
    (hname : name ∈ sectionNames) (htrail : ∀ c ∈ trail, isSpace c) :
    '#' ∉ gap ++ (name.toList ++ trail) := by
  have hspace : isSpace '#' = false := by decide
  have hletters : '#' ∉ name.toList := by
    rcases mem_sectionNames.mp hname with rfl | rfl | rfl | rfl <;> decide
  intro hmem
  rcases List.mem_append.mp hmem with hmem | hmem
  · rw [hgap _ hmem] at hspace
    cases hspace
  · rcases List.mem_append.mp hmem with hmem | hmem
    · exact hletters hmem
    · rw [htrail _ hmem] at hspace
      cases hspace

theorem heading_apart : headingPattern.Apart := by
  intro m m' h
  obtain ⟨-, gap, name, trail, rest, hheading, htrail, -, rfl⟩ := Iff.mp mem_ends_heading h
  have hafter : m.after = (['#', '#'] ++ (gap ++ (name.toList ++ trail))) ++ rest := by
    rw [hheading.text]
    simp only [List.append_assoc]
  constructor
  · rw [hafter]
    simp only [Cursor.skip_after, List.length_append, List.length_cons, List.length_nil]
    omega
  · intro w rest' hw heq hlength
    refine List.eq_nil_iff_forall_not_mem.mpr fun m'' hmem => ?_
    obtain ⟨hstart, gap', name', trail', rest'', hheading', -⟩ := Iff.mp mem_ends_heading hmem
    have htext := hheading'.text
    dsimp only at htext hstart hlength
    -- the second heading would start with a `#` of the first
    have hsplit : (['#', '#'] ++ (gap ++ (name.toList ++ trail))) ++ rest = w ++ rest' :=
      hafter.symm.trans heq
    rcases List.append_eq_append_iff.mp hsplit with ⟨u, rfl, rfl⟩ | ⟨u, hu, rfl⟩
    · rw [Cursor.skip_after, List.length_append] at hlength
      omega
    · cases u with
      | nil => exact absurd hlength (Nat.lt_irrefl _)
      | cons c u =>
        obtain rfl : c = '#' := (List.cons_eq_cons.mp htext).1
        cases w with
        | nil => exact hw rfl
        | cons c w =>
          obtain ⟨rfl, hrest⟩ := List.cons_eq_cons.mp hu
          cases w with
          | nil => exact absurd (atLineStart_cons.mp hstart) (by decide)
          | cons c w =>
            refine hash_not_mem hheading.gap_space hheading.name_mem htrail ?_
            rw [show gap ++ (name.toList ++ trail) = w ++ '#' :: u from
              (List.cons_eq_cons.mp hrest).2]
            exact List.mem_append_right _ List.mem_cons_self

theorem findIter_heading (text : String) :
    headingPattern.findIter text = headingPattern.places [] text.toList :=
  findIter_eq_places heading_apart text

/-- A reply without a `#` has no heading. -/
theorem findIter_heading_eq_nil {text : String} (h : '#' ∉ text.toList) :
    headingPattern.findIter text = [] := by
  have hnone : ∀ v u, text.toList = v ++ u → u ≠ [] → headingPattern.ends
      { before := v.reverse ++ [], after := u ++ [] } = [] := by
    intro v u hvu hu
    refine matchAt_eq_none.mp (matchAt_heading_eq_none.mpr ?_)
    rintro ⟨-, gap, name, tail, hheading⟩
    refine h ?_
    rw [hvu, ← List.append_nil u, hheading.text]
    exact List.mem_append_right v List.mem_cons_self
  rw [findIter_heading, ← List.append_nil text.toList, places_append hnone, places,
    matchAt_heading_eq_none.mpr, Option.toList_none]
  rintro ⟨-, gap, name, tail, hheading⟩
  cases hheading.text

/-- Such a reply is kept as it is. -/
theorem parseReviewOutput_eq_failed {text : String} (h : '#' ∉ text.toList) :
    parseReviewOutput text = {
      summary := ""
      findings := ""
      suggestions := ""
      positives := ""
      raw := text
      parseFailed := true } := by
  unfold parseReviewOutput
  simp only [findIter_heading_eq_nil h, List.isEmpty_nil, if_true]

/-! ## Heading lines -/

/-- The name on a line that is a heading: `##` at the start, whitespace, a name, and whitespace. -/
def headingLine : List Char → Option String
  | '#' :: '#' :: c :: rest =>
    let name := strip (String.ofList rest)
    if isSpace c ∧ name ∈ sectionNames then some name else none
  | _ => none

/-- The heading lines of a text, with their numbers from 0. -/
def headingLines (text : String) : List (Nat × String) :=
  numbered headingLine 0 (splitOn '\n' text.toList)

/-- The headings `parse_review_output` finds: the number of the line each starts on, and its
name. -/
def foundHeadings (text : String) : List (Nat × String) :=
  (headingPattern.findIter text).map fun (m, m') =>
    (m.before.count '\n', String.ofList (m'.group.getD []))

/-- A heading whose name is on a later line than its `##`. -/
def SpansLines (after : List Char) : Prop :=
  ∃ gap name tail, HeadingAt after gap name tail ∧ '\n' ∈ gap

theorem strip_name {name : String} (h : name ∈ sectionNames) :
    stripChars name.toList = name.toList := by
  rcases mem_sectionNames.mp h with rfl | rfl | rfl | rfl <;> decide

/-- The name of a heading line stands between whitespace. -/
theorem headingLine_eq_some {line : List Char} {name : String} : headingLine line = some name ↔
    name ∈ sectionNames ∧ ∃ gap trail, line = ['#', '#'] ++ (gap ++ (name.toList ++ trail)) ∧
      gap ≠ [] ∧ (∀ c ∈ gap, isSpace c) ∧ ∀ c ∈ trail, isSpace c := by
  constructor
  · intro h
    rw [headingLine.eq_def] at h
    split at h
    · rename_i c rest
      dsimp only at h
      split at h
      · rename_i hline
        obtain rfl := Option.some.inj h
        -- what `strip` takes off is the whitespace on both sides
        obtain ⟨x, y, hrest, hx, hy⟩ := exists_stripChars rest
        refine ⟨hline.2, c :: x, y, ?_, List.cons_ne_nil c x, ?_, hy⟩
        · rw [strip, String.toList_ofList, String.toList_ofList]
          exact congrArg ('#' :: '#' :: c :: ·) hrest
        · exact List.forall_mem_cons.mpr ⟨hline.1, hx⟩
      · cases h
    · cases h
  · rintro ⟨hname, gap, trail, rfl, hne, hgap, htrail⟩
    cases gap with
    | nil => exact absurd rfl hne
    | cons c x =>
      obtain ⟨hc, hx⟩ := List.forall_mem_cons.mp hgap
      have hstrip : strip (String.ofList (x ++ (name.toList ++ trail))) = name := by
        rw [strip, String.toList_ofList, stripChars_append hx, append_stripChars htrail,
          strip_name hname, String.ofList_toList]
      show (if isSpace c ∧ strip (String.ofList (x ++ (name.toList ++ trail))) ∈ sectionNames then
        some (strip (String.ofList (x ++ (name.toList ++ trail)))) else none) = some name
      rw [hstrip, if_pos ⟨hc, hname⟩]

/-- A heading on one line makes that line a heading line, and the other way round. -/
theorem headingLine_firstLine {after : List Char} {name : String} :
    headingLine (firstLine after) = some name ↔
      ∃ gap tail, HeadingAt after gap name tail ∧ '\n' ∉ gap := by
  obtain ⟨rest, hafter, hend⟩ := firstLine_append_rest after
  constructor
  · intro h
    obtain ⟨hname, gap, trail, hline, hne, hgap, htrail⟩ := headingLine_eq_some.mp h
    refine ⟨gap, trail ++ rest, ⟨?_, hne, hgap, hname, ⟨trail, rest, rfl, htrail, hend⟩⟩, ?_⟩
    · rw [hafter, hline]
      simp only [List.append_assoc]
    · intro hmem
      refine newline_not_mem_firstLine after ?_
      rw [hline]
      exact List.mem_append_right _ (List.mem_append_left _ hmem)
  · -- with the gap on the line, all of the heading is on it
    rintro ⟨gap, tail, hheading, hgap⟩
    obtain ⟨rest', htail, hend'⟩ := firstLine_append_rest tail
    -- what follows the name on its line is whitespace
    have hblank : ∀ c ∈ firstLine tail, isSpace c := by
      have hblank := hheading.blank
      rw [htail] at hblank
      exact (blankLine_iff (newline_not_mem_firstLine tail) hend').mp hblank
    have hletters : '\n' ∉ name.toList := by
      rcases mem_sectionNames.mp hheading.name_mem with rfl | rfl | rfl | rfl <;> decide
    have hline : firstLine after = ['#', '#'] ++ (gap ++ (name.toList ++ firstLine tail)) := by
      have hnone : '\n' ∉ ['#', '#'] ++ (gap ++ (name.toList ++ firstLine tail)) := by
        simp only [List.mem_append, not_or]
        exact ⟨by decide, hgap, hletters, newline_not_mem_firstLine tail⟩
      have htext : after = (['#', '#'] ++ (gap ++ (name.toList ++ firstLine tail))) ++ rest' := by
        rw [hheading.text]
        nth_rewrite 1 [htail]
        simp only [List.append_assoc]
      rw [htext, firstLine_append hnone hend']
    exact headingLine_eq_some.mpr ⟨hheading.name_mem, gap, firstLine tail, hline,
      hheading.gap_ne_nil, hheading.gap_space, hblank⟩

theorem heading_anchored : headingPattern.Anchored := by
  intro m hne
  obtain ⟨m', hmem⟩ := List.exists_mem_of_ne_nil _ hne
  exact (Iff.mp mem_ends_heading hmem).1

/-- The name of the heading a text starts with. -/
def headingName (after : List Char) : Option String :=
  (headingPattern.matchAt [] after).map fun p => String.ofList (p.2.group.getD [])

theorem headingName_eq_some {after : List Char} {name : String} :
    headingName after = some name ↔ ∃ gap tail, HeadingAt after gap name tail := by
  constructor
  · intro h
    obtain ⟨⟨m, m'⟩, hmatch, hname⟩ := Option.map_eq_some_iff.mp h
    obtain ⟨-, -, gap, name', trail, rest, hheading, -, -, rfl⟩ := of_matchAt_heading hmatch
    rw [← hname]
    dsimp only [Option.getD_some]
    rw [String.ofList_toList]
    exact ⟨gap, _, hheading⟩
  · rintro ⟨gap, tail, hheading⟩
    cases hmatch : headingPattern.matchAt [] after with
    | none =>
      exact absurd ⟨rfl, gap, name, tail, hheading⟩ (matchAt_heading_eq_none.mp hmatch)
    | some p =>
      rcases p with ⟨m, m'⟩
      obtain ⟨-, -, gap', name', trail, rest, hheading', -, -, rfl⟩ := of_matchAt_heading hmatch
      obtain ⟨-, rfl, -⟩ := hheading.unique hheading'
      rw [headingName, hmatch]
      exact congrArg some String.ofList_toList

/-- What precedes the line does not matter. -/
theorem matchAt_headingName {before after : List Char} (h : AtLineStart before) :
    (headingPattern.matchAt before after).map (fun p => String.ofList (p.2.group.getD [])) =
      headingName after := by
  cases hmatch : headingPattern.matchAt before after with
  | none =>
    cases hname : headingName after with
    | none => rfl
    | some name =>
      obtain ⟨gap, tail, hheading⟩ := headingName_eq_some.mp hname
      exact absurd ⟨h, gap, name, tail, hheading⟩ (matchAt_heading_eq_none.mp hmatch)
  | some p =>
    rcases p with ⟨m, m'⟩
    obtain ⟨-, -, gap, name, trail, rest, hheading, -, -, rfl⟩ := of_matchAt_heading hmatch
    rw [headingName_eq_some.mpr ⟨gap, _, hheading⟩]
    exact congrArg some String.ofList_toList

/-- The pattern and the grammar of lines agree at a line start unless a heading spans lines
there. -/
theorem headingName_eq_headingLine {after : List Char} :
    headingName after = headingLine (firstLine after) ↔ ¬ SpansLines after := by
  constructor
  · rintro heq ⟨gap, name, tail, hheading, hspans⟩
    rw [headingName_eq_some.mpr ⟨gap, tail, hheading⟩] at heq
    obtain ⟨gap', tail', hheading', hgap'⟩ := headingLine_firstLine.mp heq.symm
    obtain ⟨rfl, -⟩ := hheading.unique hheading'
    exact hgap' hspans
  · intro hspans
    refine Option.ext fun name => ?_
    rw [headingName_eq_some, headingLine_firstLine]
    constructor
    · rintro ⟨gap, tail, hheading⟩
      exact ⟨gap, tail, hheading, fun hmem => hspans ⟨gap, name, tail, hheading, hmem⟩⟩
    · rintro ⟨gap, tail, hheading, -⟩
      exact ⟨gap, tail, hheading⟩

/-- The headings of a reply are its heading lines; it fails to parse where there is none; and no
heading goes over more than one line. -/
structure HeadingGrammar (text : String) : Prop where
  lines : foundHeadings text = headingLines text
  failed : (parseReviewOutput text).parseFailed = true ↔ headingLines text = []
  oneLine : ∀ m m', (m, m') ∈ headingPattern.findIter text → ¬ SpansLines m.after

theorem parseFailed_iff (text : String) :
    (parseReviewOutput text).parseFailed = true ↔ foundHeadings text = [] := by
  rw [foundHeadings, List.map_eq_nil_iff, parseReviewOutput]
  cases headingPattern.findIter text with
  | nil => exact iff_of_true rfl rfl
  | cons p found => exact iff_of_false Bool.false_ne_true (List.cons_ne_nil p found)

theorem heading_grammar (text : String) :
    HeadingGrammar text ↔ ∀ after ∈ lineStarts text.toList, ¬ SpansLines after := by
  have hfound : foundHeadings text = numbered headingName 0 (lineStarts text.toList) := by
    rw [foundHeadings, findIter_heading]
    exact places_anchored_start heading_anchored (fun _ _ h => matchAt_headingName h) text.toList
  have hlines : headingLines text =
      numbered (headingLine ∘ firstLine) 0 (lineStarts text.toList) := by
    rw [headingLines, splitOn_eq_map, numbered_map]
  have hagree : foundHeadings text = headingLines text ↔
      ∀ after ∈ lineStarts text.toList, ¬ SpansLines after := by
    rw [hfound, hlines, numbered_inj]
    exact forall₂_congr fun after _ => headingName_eq_headingLine
  refine ⟨fun h => hagree.mp h.lines, fun h => ?_⟩
  have hsame := hagree.mpr h
  refine ⟨hsame, ?_, fun m m' hmem => ?_⟩
  · rw [parseFailed_iff, hsame]
  · rw [findIter_heading] at hmem
    obtain ⟨w, rest, htext, hmatch⟩ := mem_places hmem
    obtain ⟨rfl, hstart, -⟩ := of_matchAt_heading hmatch
    rw [List.append_nil] at hstart
    exact h rest (mem_lineStarts.mpr ⟨w, htext, hstart⟩)

/-- A name below a lone `##` makes a heading of two lines. -/
theorem heading_spans_lines : ¬ HeadingGrammar "##\nSummary" :=
  fun h => absurd h.lines (by decide +kernel)

end VidiPr
