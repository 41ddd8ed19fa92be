import VidiPr.Pipeline.Headings

/-!
# The sections of a reply, and back

What `parse_review_output` makes of the text under the headings, and what it makes of a review that
`_render_review_body` built from the result.

* **`section_text_kept`** — nothing under a heading is lost exactly where a repeated section repeats
  what it said before.
* **`sectionsOf_cons`** — the sections of a text, one heading at a time.
* **`rendering_preserves_sections`** — the rendered sections parse to themselves exactly where no
  section starts with what is a heading once it is stripped.
-/

namespace VidiPr

open Text Regex

/-! ## The result by name -/

/-- The section of a parsed review with a name. -/
def ParsedReview.sectionText (parsed : ParsedReview) (name : String) : String :=
  if name = "Summary" then parsed.summary
  else if name = "Findings" then parsed.findings
  else if name = "Suggestions" then parsed.suggestions
  else if name = "Positives" then parsed.positives
  else ""

/-- The names and stripped texts of the headings of a reply. -/
def replySections (text : String) : List (String × String) :=
  sectionsOf (headingPattern.findIter text)

/-- Of the sections with one name the last one counts. -/
theorem sectionText_parse {text name : String} (h : name ∈ sectionNames) :
    (parseReviewOutput text).sectionText name =
      ((replySections text).reverse.lookup name).getD "" := by
  have hname := mem_sectionNames.mp h
  unfold parseReviewOutput replySections
  cases headingPattern.findIter text with
  | nil => rcases hname with rfl | rfl | rfl | rfl <;> rfl
  | cons p found => rcases hname with rfl | rfl | rfl | rfl <;> rfl

/-- A section belongs to a heading that was found. -/
theorem mem_sectionsOf {found : List (Cursor × Cursor)} {name content : String}
    (h : (name, content) ∈ sectionsOf found) :
    ∃ m m', (m, m') ∈ found ∧ name = String.ofList (m'.group.getD []) := by
  induction found with
  | nil => cases h
  | cons p rest ih =>
    rcases p with ⟨m, m'⟩
    cases rest with
    | nil =>
      cases List.mem_singleton.mp h
      exact ⟨m, m', List.mem_cons_self, rfl⟩
    | cons q rest =>
      rcases List.mem_cons.mp h with heq | h
      · cases heq
        exact ⟨m, m', List.mem_cons_self, rfl⟩
      · obtain ⟨n, n', hmem, hname⟩ := ih h
        exact ⟨n, n', List.mem_cons_of_mem _ hmem, hname⟩

theorem name_of_mem_replySections {text name content : String}
    (h : (name, content) ∈ replySections text) : name ∈ sectionNames := by
  obtain ⟨m, m', hmem, rfl⟩ := mem_sectionsOf h
  rw [findIter_heading] at hmem
  obtain ⟨w, rest, -, hmatch⟩ := mem_places hmem
  obtain ⟨-, -, gap, name, trail, rest', hheading, -, -, rfl⟩ := of_matchAt_heading hmatch
  dsimp only [Option.getD_some]
  rw [String.ofList_toList]
  exact hheading.name_mem

/-! ## No text is dropped -/

/-- What stands under each heading is in the section of that name. -/
def TextKept (text : String) : Prop :=
  ∀ name content, (name, content) ∈ replySections text →
    content.toList <:+: ((parseReviewOutput text).sectionText name).toList

/-- A section that comes again says again what it said, where it comes last. -/
def RepeatsItself (text : String) : Prop :=
  ∀ before name content after last, replySections text = before ++ (name, content) :: after →
    after.reverse.lookup name = some last → content.toList <:+: last.toList

theorem lookup_reverse_cons {name key value : String} {after before : List (String × String)} :
    (before ++ (key, value) :: after).reverse.lookup name =
      (after.reverse.lookup name).or (((key, value) :: before.reverse).lookup name) := by
  rw [List.reverse_append, List.reverse_cons, List.append_assoc, List.lookup_append,
    List.singleton_append]

theorem section_text_kept (text : String) : TextKept text ↔ RepeatsItself text := by
  constructor
  · intro h before name content after last hsections hlast
    have hmem : (name, content) ∈ replySections text := by
      rw [hsections]
      exact List.mem_append_right _ List.mem_cons_self
    have hkept := h name content hmem
    rwa [sectionText_parse (name_of_mem_replySections hmem), hsections, lookup_reverse_cons, hlast]
      at hkept
  · intro h name content hmem
    obtain ⟨before, after, hsections⟩ := List.append_of_mem hmem
    rw [sectionText_parse (name_of_mem_replySections hmem), hsections, lookup_reverse_cons]
    cases hlast : after.reverse.lookup name with
    | none =>
      rw [List.lookup_cons_self]
      exact List.infix_rfl
    | some last => exact h before name content after last hsections hlast

/-- The first of two sections with one name is lost. -/
theorem repeated_section_dropped : ¬ TextKept "## Findings\nA leak.\n## Findings\nA race.\n" := by
  intro h
  have hkept := h "Findings" "A leak." (by decide +kernel)
  exact absurd hkept (by decide +kernel)

/-! ## One heading at a time -/

/-- The text starts with what would be a heading at the start of a line. -/
def StartsHeading (s : List Char) : Prop := ∃ gap name tail, HeadingAt s gap name tail

theorem StartsHeading.hash {s : List Char} (h : StartsHeading s) :
    ∃ rest, s = '#' :: '#' :: rest := by
  obtain ⟨gap, name, tail, hheading⟩ := h
  exact ⟨_, hheading.text⟩

theorem not_startsHeading_cons {c : Char} {s : List Char} (hc : c ≠ '#') :
    ¬ StartsHeading (c :: s) := by
  intro h
  obtain ⟨rest, heq⟩ := h.hash
  exact hc (List.cons_eq_cons.mp heq).1

theorem not_startsHeading_nil : ¬ StartsHeading [] := fun h => by
  obtain ⟨rest, heq⟩ := h.hash
  cases heq

theorem ends_heading_eq_nil {before s : List Char} (h : AtLineStart before → ¬ StartsHeading s) :
    headingPattern.ends { before, after := s } = [] :=
  matchAt_eq_none.mp (matchAt_heading_eq_none.mpr fun hboth => h hboth.1 hboth.2)

/-- The first section of a text that starts with a heading: its text goes up to the next heading. -/
theorem sectionsOf_cons {before w t next gap : List Char} {name : String}
    (hstart : AtLineStart before) (hw : w = ['#', '#'] ++ (gap ++ (name.toList ++ t)))
    (hheading : HeadingAt (w ++ next) gap name (t ++ next))
    (hinside : ∀ v u, w = v ++ u → v ≠ [] → u ≠ [] → AtLineStart v.reverse →
      ¬ StartsHeading (u ++ next))
    (hnext : next = [] ∨ (AtLineStart (w.reverse ++ before) ∧ StartsHeading next)) :
    sectionsOf (headingPattern.places before (w ++ next)) =
      (name, String.ofList (stripChars t)) ::
        sectionsOf (headingPattern.places (w.reverse ++ before) next) := by
  obtain ⟨trail, rest, htail, htrail, hmatch⟩ := matchAt_heading hstart hheading
  -- the match ends within the section
  obtain ⟨x, ht, hrest⟩ : ∃ x, t = trail ++ x ∧ rest = x ++ next := by
    rcases List.append_eq_append_iff.mp htail with ⟨x, hx, hnextx⟩ | ⟨x, ht, hrest⟩
    · cases x with
      | nil =>
        rw [List.append_nil] at hx
        exact ⟨[], by rw [List.append_nil, hx], hnextx.symm⟩
      | cons c x =>
        rcases hnext with rfl | ⟨-, hnext⟩
        · cases hnextx
        · obtain ⟨more, hmore⟩ := hnext.hash
          rw [hmore] at hnextx
          obtain rfl := (List.cons_eq_cons.mp hnextx).1
          have hspace := htrail '#' (by rw [hx]; exact List.mem_append_right _ List.mem_cons_self)
          exact absurd hspace (by decide)
    · exact ⟨x, ht, hrest⟩
  have hstrip : stripChars t = stripChars x := by rw [ht, stripChars_append htrail]
  have hplaces := places_append_of_match (by rw [hw]; exact List.cons_ne_nil _ _)
    hmatch fun v u hvu hv hu => ends_heading_eq_nil fun hline =>
      hinside v u hvu hv hu ((atLineStart_append (mt List.reverse_eq_nil_iff.mp hv)).mp hline)
  rw [hplaces, hstrip]
  rcases hnext with rfl | ⟨hline, gap', name', tail', hnext⟩
  · -- the last section
    have hnone : headingPattern.places (w.reverse ++ before) [] = [] := by
      rw [places, matchAt_heading_eq_none.mpr fun h => not_startsHeading_nil h.2]
      rfl
    rw [List.append_nil] at hrest
    rw [hnone, hrest, sectionsOf, sectionsOf, strip]
    simp only [Option.getD_some, String.ofList_toList, String.toList_ofList]
  · obtain ⟨trail', rest', -, -, hmatch'⟩ := matchAt_heading hline hnext
    have hfirst : ∃ more, headingPattern.places (w.reverse ++ before) next =
        ({ before := w.reverse ++ before, after := next }, {
          before := (['#', '#'] ++ (gap' ++ (name'.toList ++ trail'))).reverse ++
            (w.reverse ++ before)
          after := rest'
          group := some name'.toList }) :: more := by
      obtain ⟨more, hmore⟩ := StartsHeading.hash ⟨gap', name', tail', hnext⟩
      rw [hmore] at hmatch' ⊢
      rw [places, hmatch']
      exact ⟨_, rfl⟩
    obtain ⟨more, hfirst⟩ := hfirst
    rw [hfirst, sectionsOf, strip, Cursor.upTo_of_before (w := x)]
    · simp only [Option.getD_some, String.ofList_toList, String.toList_ofList]
    · rw [hw, ht]
      simp only [List.reverse_append, List.append_assoc]

/-! ## What follows a text -/

/-- A heading at the end of a text stays one before a blank rest of a line. -/
theorem HeadingAt.append {u gap tail rest : List Char} {name : String}
    (h : HeadingAt u gap name tail) (hlast : ∀ c ∈ u.getLast?, isSpace c = false)
    (hrest : BlankLine rest) : HeadingAt (u ++ rest) gap name (tail ++ rest) where
  text := by
    rw [h.text]
    simp only [List.append_assoc]
  gap_ne_nil := h.gap_ne_nil
  gap_space := h.gap_space
  name_mem := h.name_mem
  blank := by
    obtain ⟨trail, more, rfl, htrail, hend⟩ := h.blank
    cases more with
    | nil =>
      -- the text does not end in whitespace
      rcases List.eq_nil_or_concat' trail with rfl | ⟨trail, c, rfl⟩
      · exact hrest
      · have hc : isSpace c = false := by
          refine hlast c ?_
          rw [h.text]
          simp only [← List.append_assoc, List.append_nil]
          exact List.getLast?_concat
        rw [htrail c (List.mem_append_right _ List.mem_cons_self)] at hc
        cases hc
    | cons c more =>
      refine ⟨trail, c :: more ++ rest, by rw [List.append_assoc], htrail, ?_⟩
      exact atLineEnd_cons.mpr (atLineEnd_cons.mp hend)

theorem StartsHeading.append {u rest : List Char} (h : StartsHeading u)
    (hlast : ∀ c ∈ u.getLast?, isSpace c = false) (hrest : BlankLine rest) :
    StartsHeading (u ++ rest) := by
  obtain ⟨gap, name, tail, hheading⟩ := h
  exact ⟨gap, name, tail ++ rest, hheading.append hlast hrest⟩

/-- What a section of a rendered review is followed by: nothing, or a blank line and a heading. -/
def Continues (rest : List Char) : Prop := rest = [] ∨ ∃ more, rest = ['\n', '\n'] ++ '#' :: more

theorem Continues.blankLine {rest : List Char} (h : Continues rest) : BlankLine rest := by
  rcases h with rfl | ⟨more, rfl⟩
  · exact ⟨[], [], rfl, nofun, rfl⟩
  · exact ⟨[], _, rfl, nofun, rfl⟩

theorem newline_not_mem_name {name : String} (h : name ∈ sectionNames) : '\n' ∉ name.toList := by
  rcases mem_sectionNames.mp h with rfl | rfl | rfl | rfl <;> decide

/-- Such a continuation does not make a heading of a text that is none. -/
theorem StartsHeading.of_append {u rest : List Char} (h : StartsHeading (u ++ rest))
    (hu : u ≠ []) (hlast : ∀ c ∈ u.getLast?, isSpace c = false) (hrest : Continues rest) :
    StartsHeading u := by
  obtain ⟨gap, name, tail, hheading⟩ := h
  have htext : u ++ rest = (['#', '#'] ++ (gap ++ name.toList)) ++ tail := by
    rw [hheading.text]
    simp only [List.append_assoc]
  rcases List.append_eq_append_iff.mp htext with ⟨x, hx, hrestx⟩ | ⟨x, hu, htail⟩
  · cases x with
    | nil =>
      refine ⟨gap, name, [], ?_, hheading.gap_ne_nil, hheading.gap_space, hheading.name_mem,
        ⟨[], [], rfl, nofun, rfl⟩⟩
      rw [List.append_nil] at hx ⊢
      exact hx.symm
    | cons c x =>
      -- the text would end within the heading, in front of the continuation's blank line
      exfalso
      rcases hrest with rfl | ⟨more, rfl⟩
      · cases hrestx
      · obtain ⟨rfl, hmore⟩ := List.cons_eq_cons.mp hrestx
        obtain ⟨first, letters, hname, hfirst⟩ := not_space_of_mem_names hheading.name_mem
        cases u with
        | nil => exact hu rfl
        | cons d u =>
          cases u with
          | nil => exact absurd (List.cons_eq_cons.mp (List.cons_eq_cons.mp hx).2).1 (by decide)
          | cons d' u =>
            have hafter : gap ++ name.toList = u ++ '\n' :: x :=
              (List.cons_eq_cons.mp (List.cons_eq_cons.mp hx).2).2
            rcases List.eq_nil_or_concat' u with rfl | ⟨u, e, rfl⟩
            · -- after the `##` comes the blank line and another `#`, not a name
              have hgap : gap ++ first :: (letters ++ tail) = ['\n', '\n'] ++ '#' :: more := by
                rw [← List.cons_append, ← hname, ← List.append_assoc, hafter]
                exact congrArg ('\n' :: ·) hmore.symm
              obtain ⟨-, hhash⟩ := space_append_inj hgap hheading.gap_space blankLine_space hfirst
                (by decide)
              refine @hash_not_mem gap [] name hheading.gap_space hheading.name_mem nofun ?_
              rw [hname, (List.cons_eq_cons.mp hhash).1]
              exact List.mem_append_right _ List.mem_cons_self
            · rcases List.append_eq_append_iff.mp hafter with ⟨y, -, hy⟩ | ⟨y, hy, -⟩
              · refine newline_not_mem_name hheading.name_mem ?_
                rw [hy]
                exact List.mem_append_right _ List.mem_cons_self
              · -- the text would end in whitespace
                have he : isSpace e = false := hlast e (List.getLast?_concat (l := d :: d' :: u))
                rw [hheading.gap_space e (by rw [hy]; simp)] at he
                cases he
  · refine ⟨gap, name, x, ?_, hheading.gap_ne_nil, hheading.gap_space, hheading.name_mem, ?_⟩
    · rw [hu]
      simp only [List.append_assoc]
    · obtain ⟨trail, more, htrailmore, htrail, hend⟩ := hheading.blank
      rw [htail] at htrailmore
      rcases List.append_eq_append_iff.mp htrailmore with ⟨y, rfl, -⟩ | ⟨y, rfl, rfl⟩
      · exact ⟨x, [], (List.append_nil x).symm,
          fun c hc => htrail c (List.mem_append_left _ hc), rfl⟩
      · refine ⟨trail, y, rfl, htrail, ?_⟩
        cases y with
        | nil => rfl
        | cons c y => exact atLineEnd_cons.mpr (atLineEnd_cons.mp hend)

/-! ## Sections of a text -/

/-- A section's text: stripped, and without a line in it that a heading starts on. -/
structure Clean (content : List Char) : Prop where
  stripped : stripChars content = content
  quiet : ∀ v u, content = v ++ u → v ≠ [] → AtLineStart v.reverse → ¬ StartsHeading u

/-- A text up to the next heading. -/
theorem next_heading (before s : List Char) : ∃ w next, s = w ++ next ∧
    (∀ v u, w = v ++ u → u ≠ [] → AtLineStart (v.reverse ++ before) → ¬ StartsHeading (u ++ next)) ∧
    (next = [] ∨ (AtLineStart (w.reverse ++ before) ∧ StartsHeading next)) := by
  induction s generalizing before with
  | nil =>
    refine ⟨[], [], rfl, fun v u hvu hu => ?_, Or.inl rfl⟩
    exact absurd (List.append_eq_nil_iff.mp hvu.symm).2 hu
  | cons c s ih =>
    by_cases hhere : AtLineStart before ∧ StartsHeading (c :: s)
    · refine ⟨[], c :: s, rfl, fun v u hvu hu => ?_, Or.inr hhere⟩
      exact absurd (List.append_eq_nil_iff.mp hvu.symm).2 hu
    · obtain ⟨w, next, rfl, hinside, hnext⟩ := ih (c :: before)
      refine ⟨c :: w, next, rfl, fun v u hvu hu hline => ?_, ?_⟩
      · cases v with
        | nil =>
          rw [List.nil_append] at hvu
          rw [← hvu]
          exact fun hstarts => hhere ⟨hline, hstarts⟩
        | cons d v =>
          obtain ⟨rfl, hw⟩ := List.cons_eq_cons.mp hvu
          refine hinside v u hw hu ?_
          rwa [List.reverse_cons, List.append_assoc] at hline
      · rwa [List.reverse_cons, List.append_assoc]

/-- A section of a text is clean: what is between two headings has no heading of its own, except
where stripping brings an indented one to the front. -/
theorem clean_strip {w t next gap : List Char} {name : String}
    (hw : w = ['#', '#'] ++ (gap ++ (name.toList ++ t)))
    (hinside : ∀ v u, w = v ++ u → v ≠ [] → u ≠ [] → AtLineStart v.reverse →
      ¬ StartsHeading (u ++ next))
    (hnext : next = [] ∨ AtLineStart w.reverse) : Clean (stripChars t) where
  stripped := stripChars_stripChars t
  quiet := by
    intro v u hvu hv hline hstarts
    obtain ⟨x, y, ht, -, hy⟩ := exists_stripChars t
    obtain ⟨more, hmore⟩ := hstarts.hash
    have hlast : ∀ c ∈ u.getLast?, isSpace c = false := by
      intro c hc
      refine getLast?_stripChars t c ?_
      rw [hvu, List.getLast?_append, hc]
      rfl
    have hsplit : w = (['#', '#'] ++ (gap ++ (name.toList ++ (x ++ v)))) ++ (u ++ y) := by
      rw [hw, ht, hvu]
      simp only [List.append_assoc]
    -- what is stripped behind the section ends its last line
    have hblank : BlankLine (y ++ next) := by
      rcases hnext with rfl | hend
      · exact ⟨y, [], rfl, hy, rfl⟩
      · rcases List.eq_nil_or_concat' y with rfl | ⟨z, c, rfl⟩
        · exfalso
          rcases List.eq_nil_or_concat' u with rfl | ⟨u, c, rfl⟩
          · cases hmore
          · rw [hsplit, List.append_nil, ← List.append_assoc, List.reverse_append] at hend
            have hc : isSpace c = false := hlast c List.getLast?_concat
            rw [atLineStart_cons.mp hend] at hc
            cases hc
        · rw [hsplit, ← List.append_assoc, ← List.append_assoc, List.reverse_append] at hend
          obtain rfl := atLineStart_cons.mp hend
          refine ⟨z, '\n' :: next, ?_, fun c hc => hy c (List.mem_append_left _ hc), rfl⟩
          rw [List.append_assoc]
          rfl
    refine hinside _ (u ++ y) hsplit (List.cons_ne_nil _ _) ?_ ?_ ?_
    · rw [hmore]
      exact List.cons_ne_nil _ _
    · simp only [← List.append_assoc]
      rw [List.reverse_append]
      exact (atLineStart_append (mt List.reverse_eq_nil_iff.mp hv)).mpr hline
    · rw [List.append_assoc]
      exact hstarts.append hlast hblank

/-- The next heading comes after the whole of this one: neither the gap nor the name has a `#`, and
the second `#` of this one starts no line. -/
theorem HeadingAt.before_next {w next gap tail : List Char} {name : String}
    (h : HeadingAt (w ++ next) gap name tail) (hw : w ≠ [])
    (hnext : next = [] ∨ (AtLineStart w.reverse ∧ StartsHeading next)) :
    ∃ t, w = ['#', '#'] ++ (gap ++ (name.toList ++ t)) ∧ tail = t ++ next := by
  have htext : w ++ next = (['#', '#'] ++ (gap ++ name.toList)) ++ tail := by
    rw [h.text]
    simp only [List.append_assoc]
  have hassoc : ∀ t, (['#', '#'] ++ (gap ++ name.toList)) ++ t =
      ['#', '#'] ++ (gap ++ (name.toList ++ t)) := by
    intro t
    simp only [List.append_assoc]
  rcases List.append_eq_append_iff.mp htext with ⟨y, hy, hnexty⟩ | ⟨t, ht, htail⟩
  · -- the next heading would start inside this one
    cases y with
    | nil =>
      rw [List.append_nil] at hy
      exact ⟨[], by rw [← hassoc, List.append_nil, hy], hnexty.symm⟩
    | cons c y =>
      exfalso
      rcases hnext with rfl | ⟨hline, hstarts⟩
      · cases hnexty
      · obtain ⟨more, hmore⟩ := hstarts.hash
        rw [hmore] at hnexty
        obtain ⟨rfl, -⟩ := List.cons_eq_cons.mp hnexty
        cases w with
        | nil => exact hw rfl
        | cons d w =>
          obtain ⟨rfl, hrest⟩ := List.cons_eq_cons.mp hy
          cases w with
          -- at its second character, which is not at the start of a line
          | nil => exact absurd (atLineStart_cons.mp hline) (by decide)
          | cons d w =>
            -- or in the gap or the name
            refine @hash_not_mem gap [] name h.gap_space h.name_mem nofun ?_
            rw [List.append_nil, show gap ++ name.toList = w ++ '#' :: y from
              (List.cons_eq_cons.mp hrest).2]
            exact List.mem_append_right _ List.mem_cons_self
  · exact ⟨t, ht.trans (hassoc t), htail⟩

/-- The sections of a text that starts with a heading, or is empty, are clean. -/
theorem clean_of_starts {n : Nat} {before s : List Char} (hn : s.length ≤ n)
    (hs : s = [] ∨ (AtLineStart before ∧ StartsHeading s)) {name content : String}
    (hmem : (name, content) ∈ sectionsOf (headingPattern.places before s)) :
    Clean content.toList := by
  induction n generalizing before s with
  | zero =>
    obtain rfl := List.length_eq_zero_iff.mp (Nat.le_zero.mp hn)
    rw [places, matchAt_heading_eq_none.mpr fun h => not_startsHeading_nil h.2] at hmem
    cases hmem
  | succ n ih =>
    rcases hs with rfl | ⟨hstart, gap, heading, tail, hheading⟩
    · rw [places, matchAt_heading_eq_none.mpr fun h => not_startsHeading_nil h.2] at hmem
      cases hmem
    · obtain ⟨w, next, hsplit, hinside, hnext⟩ :=
        next_heading ('#' :: before) ('#' :: (gap ++ (heading.toList ++ tail)))
      obtain rfl : s = '#' :: w ++ next :=
        hheading.text.trans (congrArg ('#' :: ·) hsplit)
      -- no heading starts inside this section
      have hquiet : ∀ v u, '#' :: w = v ++ u → v ≠ [] → u ≠ [] → AtLineStart v.reverse →
          ¬ StartsHeading (u ++ next) := by
        intro v u hvu hv hu hvline
        cases v with
        | nil => exact absurd rfl hv
        | cons c v =>
          obtain ⟨rfl, hw⟩ := List.cons_eq_cons.mp hvu
          refine hinside v u hw hu ?_
          exact atLineStart_reverse_cons.mpr hvline
      have hends : next = [] ∨ (AtLineStart ('#' :: w).reverse ∧ StartsHeading next) :=
        hnext.imp_right fun h => ⟨atLineStart_reverse_cons.mp h.1, h.2⟩
      obtain ⟨t, ht, rfl⟩ := hheading.before_next (List.cons_ne_nil _ _) hends
      have hplace : ('#' :: w).reverse ++ before = w.reverse ++ '#' :: before := by
        rw [List.reverse_cons, List.append_assoc]
        rfl
      have hlater : next = [] ∨ (AtLineStart (('#' :: w).reverse ++ before) ∧
          StartsHeading next) := by
        rw [hplace]
        exact hnext
      rw [sectionsOf_cons hstart ht hheading hquiet hlater] at hmem
      rcases List.mem_cons.mp hmem with heq | hmem
      · -- the first section
        cases heq
        rw [String.toList_ofList]
        exact clean_strip ht hquiet (hends.imp_right And.left)
      · -- and the others, in a shorter text
        refine ih ?_ hlater hmem
        rw [List.length_append, List.length_cons] at hn
        omega

theorem clean_of_mem_replySections {text name content : String}
    (h : (name, content) ∈ replySections text) : Clean content.toList := by
  obtain ⟨w, next, htext, hinside, hnext⟩ := next_heading [] text.toList
  rw [replySections, findIter_heading, htext, places_append fun v u hvu hu =>
    ends_heading_eq_nil fun hline => hinside v u hvu hu hline] at h
  exact clean_of_starts (Nat.le_refl _) hnext h

/-! ## Renderable sections -/

/-- How a section begins. -/
def blockHead (name : String) : List Char := ['#', '#'] ++ ([' '] ++ (name.toList ++ ['\n', '\n']))

/-- Sections, each with its heading, with a blank line between them. -/
def blockText : List (String × String) → List Char
  | [] => []
  | [(name, content)] => blockHead name ++ content.toList
  | (name, content) :: section' :: rest =>
    blockHead name ++ (content.toList ++ (['\n', '\n'] ++ blockText (section' :: rest)))

/-- The blank line after a section that is not the last. -/
def separator (rest : List (String × String)) : List Char := if rest = [] then [] else ['\n', '\n']

theorem separator_space (rest : List (String × String)) : ∀ c ∈ separator rest, isSpace c := by
  unfold separator
  split
  · exact nofun
  · exact blankLine_space

theorem blockText_cons (name content : String) (rest : List (String × String)) :
    blockText ((name, content) :: rest) =
      (blockHead name ++ (content.toList ++ separator rest)) ++ blockText rest := by
  cases rest with
  | nil => simp only [blockText, separator, if_true, List.append_nil]
  | cons b rest =>
    simp only [blockText, separator, if_neg (List.cons_ne_nil b rest), List.append_assoc]

/-- The sections a review is rendered from. -/
structure Renderable (blocks : List (String × String)) : Prop where
  name : ∀ name content, (name, content) ∈ blocks → name ∈ sectionNames
  nonempty : ∀ name content, (name, content) ∈ blocks → content.toList ≠ []
  clean : ∀ name content, (name, content) ∈ blocks → Clean content.toList

theorem Renderable.tail {b : String × String} {rest : List (String × String)}
    (h : Renderable (b :: rest)) : Renderable rest where
  name := fun name content hmem => h.name name content (List.mem_cons_of_mem b hmem)
  nonempty := fun name content hmem => h.nonempty name content (List.mem_cons_of_mem b hmem)
  clean := fun name content hmem => h.clean name content (List.mem_cons_of_mem b hmem)

theorem headingAt_blockHead {name : String} (h : name ∈ sectionNames) (rest : List Char) :
    HeadingAt (blockHead name ++ rest) [' '] name (['\n', '\n'] ++ rest) where
  text := by simp only [blockHead, List.append_assoc]
  gap_ne_nil := List.cons_ne_nil _ _
  gap_space := List.all_eq_true.mp rfl
  name_mem := h
  blank := ⟨[], _, rfl, nofun, rfl⟩

theorem continues_separator {rest : List (String × String)} (h : Renderable rest) :
    Continues (separator rest ++ blockText rest) := by
  cases rest with
  | nil => exact Or.inl rfl
  | cons b rest =>
    rcases b with ⟨name, content⟩
    refine Or.inr ⟨['#'] ++ ([' '] ++ (name.toList ++ ['\n', '\n'])) ++
      ((content.toList ++ separator rest) ++ blockText rest), ?_⟩
    rw [blockText_cons, separator, if_neg (List.cons_ne_nil _ _)]
    simp only [blockHead, List.append_assoc, List.cons_append, List.nil_append]

/-- The rendered text goes on with a heading, or ends. -/
theorem blockText_starts {rest : List (String × String)} (h : Renderable rest) {before : List Char}
    (hline : rest ≠ [] → AtLineStart before) :
    blockText rest = [] ∨ (AtLineStart before ∧ StartsHeading (blockText rest)) := by
  cases rest with
  | nil => exact Or.inl rfl
  | cons b rest =>
    rcases b with ⟨name, content⟩
    have hheading := headingAt_blockHead (h.name name content List.mem_cons_self)
      (content.toList ++ separator rest ++ blockText rest)
    have htext := blockText_cons name content rest
    rw [List.append_assoc] at htext
    rw [← htext] at hheading
    exact Or.inr ⟨hline (List.cons_ne_nil _ _), _, _, _, hheading⟩

/-- No heading starts within the lines a section begins with. -/
theorem blockHead_quiet {name : String} (hname : name ∈ sectionNames) {v x rest : List Char}
    (hsplit : blockHead name = v ++ x) (hv : v ≠ []) (hx : x ≠ []) (hline : AtLineStart v.reverse) :
    ¬ StartsHeading (x ++ rest) := by
  cases x with
  | nil => exact absurd rfl hx
  | cons c x =>
    by_cases hc : c = '#'
    · subst hc
      exfalso
      cases v with
      | nil => exact hv rfl
      | cons d v =>
        obtain ⟨rfl, hrest⟩ := List.cons_eq_cons.mp hsplit
        cases v with
        | nil => exact absurd (atLineStart_cons.mp hline) (by decide)
        | cons d v =>
          refine @hash_not_mem [' '] ['\n', '\n'] name (List.all_eq_true.mp rfl) hname
            blankLine_space ?_
          rw [show [' '] ++ (name.toList ++ ['\n', '\n']) = v ++ '#' :: x from
            (List.cons_eq_cons.mp hrest).2]
          exact List.mem_append_right _ List.mem_cons_self
    · exact not_startsHeading_cons hc

/-- No heading starts within a clean section, whatever section follows. -/
theorem Clean.quiet_append {content : List Char} (h : Clean content)
    {rest : List (String × String)} (hrest : Renderable rest) {v u : List Char}
    (hsplit : content ++ separator rest = v ++ u) (hv : v ≠ []) (hu : u ≠ [])
    (hline : AtLineStart v.reverse) : ¬ StartsHeading (u ++ blockText rest) := by
  -- in the separator there are line feeds only
  have hblank : ∀ y, separator rest = y ++ u → ¬ StartsHeading (u ++ blockText rest) := by
    intro y hy
    cases u with
    | nil => exact absurd rfl hu
    | cons c u =>
      refine not_startsHeading_cons fun hc => ?_
      have hmem : c ∈ separator rest := by
        rw [hy]
        exact List.mem_append_right _ List.mem_cons_self
      rw [hc, separator] at hmem
      split at hmem
      · cases hmem
      · exact absurd hmem (by decide)
  rcases List.append_eq_append_iff.mp hsplit with ⟨y, -, hy⟩ | ⟨z, hz, rfl⟩
  · exact hblank y hy
  · -- inside the content, or at its end
    cases z with
    | nil => exact hblank [] rfl
    | cons c z =>
      intro hstarts
      rw [List.append_assoc] at hstarts
      refine h.quiet v (c :: z) hz hv hline (hstarts.of_append (List.cons_ne_nil c z) ?_
        (continues_separator hrest))
      intro d hd
      refine getLast?_stripChars content d ?_
      rw [h.stripped, hz, List.getLast?_append, hd]
      rfl

/-- A line starts after a section that is not the last. -/
theorem atLineStart_separator {rest : List (String × String)} {w before : List Char}
    (h : rest ≠ []) : AtLineStart ((w ++ separator rest).reverse ++ before) := by
  rw [separator, if_neg h, List.reverse_append]
  exact atLineStart_cons.mpr rfl

/-- A rendered section that does not start with a heading parses to itself. Between the head and the
content there is a blank line, and the content is followed by one; both are stripped off again. -/
theorem sectionsOf_block {name content : String} {rest : List (String × String)}
    {before : List Char} (h : Renderable ((name, content) :: rest)) (hstart : AtLineStart before)
    (hquiet : ¬ StartsHeading content.toList) :
    ∃ before', (rest ≠ [] → AtLineStart before') ∧
      sectionsOf (headingPattern.places before (blockText ((name, content) :: rest))) =
        (name, content) :: sectionsOf (headingPattern.places before' (blockText rest)) := by
  have hname := h.name name content List.mem_cons_self
  have hclean := h.clean name content List.mem_cons_self
  have hne := h.nonempty name content List.mem_cons_self
  have hline : rest ≠ [] → AtLineStart
      ((blockHead name ++ (content.toList ++ separator rest)).reverse ++ before) := by
    intro hrest
    rw [← List.append_assoc]
    exact atLineStart_separator hrest
  refine ⟨_, hline, ?_⟩
  -- what is stripped is what the rendering added
  have hstrip : stripChars (['\n', '\n'] ++ (content.toList ++ separator rest)) =
      content.toList := by
    rw [stripChars_append blankLine_space, append_stripChars (separator_space rest),
      hclean.stripped]
  -- the content starts no heading, with whatever follows it
  have hcontent : ¬ StartsHeading ((content.toList ++ separator rest) ++ blockText rest) := by
    intro hstarts
    rw [List.append_assoc] at hstarts
    refine hquiet (hstarts.of_append hne ?_ (continues_separator h.tail))
    rw [← hclean.stripped]
    exact getLast?_stripChars content.toList
  have hw : blockHead name ++ (content.toList ++ separator rest) = ['#', '#'] ++ ([' '] ++
      (name.toList ++ (['\n', '\n'] ++ (content.toList ++ separator rest)))) := by
    simp only [blockHead, List.append_assoc]
  rw [blockText_cons, sectionsOf_cons hstart hw ?_ ?_ (blockText_starts h.tail hline), hstrip,
    String.ofList_toList]
  · have hheading := headingAt_blockHead hname
      ((content.toList ++ separator rest) ++ blockText rest)
    simpa only [List.append_assoc] using hheading
  · -- nowhere inside the block does a heading start
    intro v u hsplit hv hu hvline
    rcases List.append_eq_append_iff.mp hsplit with ⟨y, rfl, hy⟩ | ⟨x, hx, rfl⟩
    · rcases List.eq_nil_or_concat' y with rfl | ⟨y, c, rfl⟩
      · rw [List.nil_append] at hy
        rw [← hy]
        exact hcontent
      · refine hclean.quiet_append h.tail hy
          (List.append_ne_nil_of_right_ne_nil _ (List.cons_ne_nil _ _)) hu ?_
        rw [List.reverse_append] at hvline
        exact (atLineStart_append (mt List.reverse_eq_nil_iff.mp
          (List.append_ne_nil_of_right_ne_nil _ (List.cons_ne_nil _ _)))).mp hvline
    · cases x with
      | nil => exact hcontent
      | cons c x =>
        rw [List.append_assoc]
        exact blockHead_quiet hname hx hv (List.cons_ne_nil c x) hvline

/-- Sections that do not start with a heading parse to themselves. -/
theorem sectionsOf_blocks {blocks : List (String × String)} {before : List Char}
    (h : Renderable blocks) (hline : blocks ≠ [] → AtLineStart before)
    (hquiet : ∀ name content, (name, content) ∈ blocks → ¬ StartsHeading content.toList) :
    sectionsOf (headingPattern.places before (blockText blocks)) = blocks := by
  induction blocks generalizing before with
  | nil =>
    rw [blockText, places, matchAt_heading_eq_none.mpr fun h => not_startsHeading_nil h.2]
    rfl
  | cons b rest ih =>
    rcases b with ⟨name, content⟩
    obtain ⟨before', hline', hsections⟩ := sectionsOf_block h (hline (List.cons_ne_nil _ _))
      (hquiet name content List.mem_cons_self)
    rw [hsections, ih h.tail hline' fun name content hmem =>
      hquiet name content (List.mem_cons_of_mem _ hmem)]

/-- A section that starts with a heading: its own heading is left with nothing, and what follows the
other one is shorter than the section was. -/
theorem sectionsOf_block_split {name content : String} {rest : List (String × String)}
    {before : List Char} (h : Renderable ((name, content) :: rest)) (hstart : AtLineStart before)
    (hstarts : StartsHeading content.toList)
    (hquiet : ∀ name content, (name, content) ∈ rest → ¬ StartsHeading content.toList) :
    ∃ other short, short.length < content.length ∧
      sectionsOf (headingPattern.places before (blockText ((name, content) :: rest))) =
        (name, "") :: (other, short) :: rest := by
  have hname := h.name name content List.mem_cons_self
  have hclean := h.clean name content List.mem_cons_self
  have hlast : ∀ c ∈ content.toList.getLast?, isSpace c = false := by
    rw [← hclean.stripped]
    exact getLast?_stripChars content.toList
  have hfollow := hstarts.append hlast (continues_separator h.tail).blankLine
  have htext : blockText ((name, content) :: rest) =
      blockHead name ++ (content.toList ++ (separator rest ++ blockText rest)) := by
    rw [blockText_cons, List.append_assoc, List.append_assoc]
  have hhead : AtLineStart ((blockHead name).reverse ++ before) := by
    rw [show blockHead name = (['#', '#'] ++ ([' '] ++ (name.toList ++ ['\n']))) ++ ['\n'] by
      simp [blockHead], List.reverse_append]
    exact atLineStart_cons.mpr rfl
  -- nothing is left under the section's own heading
  have hfirst := sectionsOf_cons (w := blockHead name) hstart rfl (headingAt_blockHead hname _)
    (fun v u hsplit hv hu hvline => blockHead_quiet hname hsplit hv hu hvline)
    (Or.inr ⟨hhead, hfollow⟩)
  obtain ⟨gap, other, tail, hheading⟩ := hstarts
  have hblank : BlankLine (separator rest ++ blockText rest) :=
    (continues_separator h.tail).blankLine
  have hother := hheading.append hlast hblank
  have hline : rest ≠ [] → AtLineStart ((content.toList ++ separator rest).reverse ++
      ((blockHead name).reverse ++ before)) := fun hrest => atLineStart_separator hrest
  have hw : content.toList ++ separator rest =
      ['#', '#'] ++ (gap ++ (other.toList ++ (tail ++ separator rest))) := by
    rw [hheading.text]
    simp only [List.append_assoc]
  have hsecond := sectionsOf_cons hhead hw
    (by rw [List.append_assoc, List.append_assoc]; exact hother)
    (fun v u hsplit hv hu hvline => hclean.quiet_append h.tail hsplit hv hu hvline)
    (blockText_starts h.tail hline)
  refine ⟨other, String.ofList (stripChars (tail ++ separator rest)), ?_, ?_⟩
  · rw [String.length_ofList, append_stripChars (separator_space rest)]
    · have hlength := congrArg List.length hheading.text
      have hle := length_stripChars_le tail
      simp only [String.length_toList, List.length_append] at hlength
      simp only [List.length_cons, List.length_nil] at hlength
      omega
  · have hempty : String.ofList (stripChars ['\n', '\n']) = "" := by decide
    rw [htext, hfirst, ← List.append_assoc, hsecond, sectionsOf_blocks h.tail hline hquiet, hempty]

/-! ## Rendering and parsing again -/

/-- The sections that have a text. -/
def blocksOf (parsed : ParsedReview) : List (String × String) :=
  (sectionNames.map fun name => (name, parsed.sectionText name)).filter fun (_, content) =>
    content ≠ ""

theorem toList_intercalate_blocks (blocks : List (String × String)) :
    ("\n\n".intercalate (blocks.map fun b => "## " ++ b.1 ++ "\n\n" ++ b.2)).toList =
      blockText blocks := by
  have hblock : ∀ name content : String, ("## " ++ name ++ "\n\n" ++ content).toList =
      blockHead name ++ content.toList := by
    intro name content
    simp only [String.toList_append, blockHead, List.append_assoc]
    rfl
  induction blocks with
  | nil => rfl
  | cons b rest ih =>
    rcases b with ⟨name, content⟩
    cases rest with
    | nil =>
      rw [List.map_singleton, String.intercalate_singleton, hblock]
      rfl
    | cons b' rest =>
      rw [List.map_cons, List.map_cons] at *
      rw [String.intercalate_cons_cons, String.toList_append, String.toList_append, ih, hblock,
        blockText, List.append_assoc, List.append_assoc]
      rfl

/-- The text of a review that was parsed is that of its sections. -/
theorem toList_reviewText {parsed : ParsedReview} (h : parsed.parseFailed = false)
    (reasoningChars : Nat) (finishReason : Option String) :
    (reviewText parsed reasoningChars finishReason).toList = blockText (blocksOf parsed) := by
  rw [← toList_intercalate_blocks, reviewText, h, if_neg Bool.false_ne_true]
  congr 2
  have hnames : sectionNames.map (fun name => (name, parsed.sectionText name)) =
      [("Summary", parsed.summary), ("Findings", parsed.findings),
        ("Suggestions", parsed.suggestions), ("Positives", parsed.positives)] := rfl
  rw [blocksOf, hnames]
  by_cases h₁ : parsed.summary = "" <;> by_cases h₂ : parsed.findings = "" <;>
    by_cases h₃ : parsed.suggestions = "" <;> by_cases h₄ : parsed.positives = "" <;>
    simp [h₁, h₂, h₃, h₄]

/-- The sections of a text end with those of what is left of it. -/
theorem sectionsOf_append (front found : List (Cursor × Cursor)) :
    ∃ others, sectionsOf (front ++ found) = others ++ sectionsOf found := by
  induction front with
  | nil => exact ⟨[], rfl⟩
  | cons p front ih =>
    rcases p with ⟨m, m'⟩
    obtain ⟨others, hothers⟩ := ih
    cases hrest : front ++ found with
    | nil =>
      obtain ⟨-, rfl⟩ := List.append_eq_nil_iff.mp hrest
      exact ⟨_, (List.append_nil _).symm⟩
    | cons q rest =>
      rcases q with ⟨n, n'⟩
      rw [List.cons_append, hrest, sectionsOf, ← hrest, hothers]
      exact ⟨_ :: others, rfl⟩

/-- The rendered text ends with that of the last sections, on a line of its own. -/
theorem blockText_append (front : List (String × String)) (b : String × String)
    (rest : List (String × String)) :
    ∃ w, blockText (front ++ b :: rest) = w ++ blockText (b :: rest) ∧ AtLineStart w.reverse := by
  induction front with
  | nil => exact ⟨[], rfl, rfl⟩
  | cons a front ih =>
    rcases a with ⟨name, content⟩
    obtain ⟨w, hw, hline⟩ := ih
    have hmore : front ++ b :: rest ≠ [] :=
      List.append_ne_nil_of_right_ne_nil _ (List.cons_ne_nil _ _)
    refine ⟨(blockHead name ++ (content.toList ++ separator (front ++ b :: rest))) ++ w, ?_, ?_⟩
    · rw [List.cons_append, blockText_cons, hw, ← List.append_assoc]
    · rw [List.reverse_append]
      rcases List.eq_nil_or_concat' w with rfl | ⟨w, c, rfl⟩
      · have hsep := @atLineStart_separator _ (blockHead name ++ content.toList) [] hmore
        rwa [List.append_nil, List.append_assoc] at hsep
      · exact (atLineStart_append (mt List.reverse_eq_nil_iff.mp
          (List.append_ne_nil_of_right_ne_nil _ (List.cons_ne_nil _ _)))).mpr hline

/-- The last entry of a list with a property. -/
theorem exists_last {α : Type} {P : α → Prop} {l : List α} (h : ∃ a ∈ l, P a) :
    ∃ front a rest, l = front ++ a :: rest ∧ P a ∧ ∀ b ∈ rest, ¬ P b := by
  induction l with
  | nil =>
    obtain ⟨a, hmem, -⟩ := h
    cases hmem
  | cons b l ih =>
    by_cases hlater : ∃ a ∈ l, P a
    · obtain ⟨front, a, rest, rfl, ha, hrest⟩ := ih hlater
      exact ⟨b :: front, a, rest, rfl, ha, hrest⟩
    · obtain ⟨a, hmem, ha⟩ := h
      rcases List.mem_cons.mp hmem with rfl | hmem
      · exact ⟨[], a, l, rfl, ha, fun b hb hPb => hlater ⟨b, hb, hPb⟩⟩
      · exact absurd ⟨a, hmem, ha⟩ hlater

/-- Of names that differ each has one entry. -/
theorem lookup_reverse_of_nodup {before after : List (String × String)} {name content : String}
    (h : ((before ++ (name, content) :: after).map (·.1)).Nodup) :
    after.reverse.lookup name = none := by
  rw [List.map_append, List.map_cons] at h
  have hnodup := (List.nodup_append.mp h).2.1
  refine List.lookup_eq_none_iff.mpr fun b hb => bne_iff_ne.mpr fun heq => ?_
  refine (List.nodup_cons.mp hnodup).1 ?_
  dsimp only
  rw [heq]
  exact List.mem_map.mpr ⟨b, List.mem_reverse.mp hb, rfl⟩

theorem mem_blocksOf {parsed : ParsedReview} {name content : String} :
    (name, content) ∈ blocksOf parsed ↔
      name ∈ sectionNames ∧ content = parsed.sectionText name ∧ content ≠ "" := by
  unfold blocksOf
  rw [List.mem_filter, List.mem_map]
  constructor
  · rintro ⟨⟨name', hname, heq⟩, hne⟩
    cases heq
    exact ⟨hname, rfl, of_decide_eq_true hne⟩
  · rintro ⟨hname, rfl, hne⟩
    exact ⟨⟨name, hname, rfl⟩, decide_eq_true hne⟩

theorem nodup_blocksOf (parsed : ParsedReview) : ((blocksOf parsed).map (·.1)).Nodup := by
  have hnames : (sectionNames.map fun name => (name, parsed.sectionText name)).map (·.1) =
      sectionNames := by
    rw [List.map_map]
    exact List.map_id _
  have hsublist := (List.filter_sublist (p := fun b : String × String => decide (b.2 ≠ ""))
    (l := sectionNames.map fun name => (name, parsed.sectionText name))).map (·.1)
  rw [hnames] at hsublist
  exact hsublist.nodup (by decide)

theorem rendered_blocksOf (text : String) : Renderable (blocksOf (parseReviewOutput text)) where
  name := fun name content hmem => (mem_blocksOf.mp hmem).1
  nonempty := by
    intro name content hmem hnil
    exact (mem_blocksOf.mp hmem).2.2 (String.toList_eq_nil_iff.mp hnil)
  clean := by
    intro name content hmem
    obtain ⟨hname, hcontent, hne⟩ := mem_blocksOf.mp hmem
    rw [sectionText_parse hname] at hcontent
    cases hlookup : (replySections text).reverse.lookup name with
    | none =>
      rw [hlookup] at hcontent
      exact absurd hcontent hne
    | some last =>
      rw [hlookup] at hcontent
      obtain ⟨l₁, l₂, hsplit, -⟩ := List.lookup_eq_some_iff.mp hlookup
      rw [hcontent]
      have hmem : (name, last) ∈ (replySections text).reverse := by
        rw [hsplit]
        exact List.mem_append_right _ List.mem_cons_self
      exact clean_of_mem_replySections (List.mem_reverse.mp hmem)

/-- The review text parses to the sections it was rendered from. -/
def SectionsKept (parsed : ParsedReview) (rendered : String) : Prop :=
  ∀ name ∈ sectionNames, (parseReviewOutput rendered).sectionText name = parsed.sectionText name

theorem rendering_preserves_sections {text : String}
    (h : (parseReviewOutput text).parseFailed = false) (reasoningChars : Nat)
    (finishReason : Option String) :
    SectionsKept (parseReviewOutput text)
        (reviewText (parseReviewOutput text) reasoningChars finishReason) ↔
      ∀ name ∈ sectionNames,
        ¬ StartsHeading ((parseReviewOutput text).sectionText name).toList := by
  generalize hparsed : parseReviewOutput text = parsed at h ⊢
  have hrendered : Renderable (blocksOf parsed) := by
    rw [← hparsed]
    exact rendered_blocksOf text
  have hsections : replySections (reviewText parsed reasoningChars finishReason) =
      sectionsOf (headingPattern.places [] (blockText (blocksOf parsed))) := by
    rw [replySections, findIter_heading, toList_reviewText h]
  constructor
  · intro hkept
    by_contra hsome
    -- the last section that starts with a heading is lost
    obtain ⟨front, ⟨name, content⟩, rest, hsplit, hstarts, hlater⟩ :
        ∃ front b rest, blocksOf parsed = front ++ b :: rest ∧ StartsHeading b.2.toList ∧
          ∀ b' ∈ rest, ¬ StartsHeading b'.2.toList := by
      refine exists_last ?_
      obtain ⟨name, hname⟩ := not_forall.mp hsome
      obtain ⟨hmem, hstarts⟩ := Classical.not_imp.mp hname
      have hstarts := not_not.mp hstarts
      refine ⟨(name, parsed.sectionText name), mem_blocksOf.mpr ⟨hmem, rfl, fun hempty => ?_⟩,
        hstarts⟩
      rw [hempty] at hstarts
      exact not_startsHeading_nil hstarts
    obtain ⟨w, hw, hline⟩ := blockText_append front (name, content) rest
    have hlast : Renderable ((name, content) :: rest) := by
      rw [hsplit] at hrendered
      exact {
        name := fun n c hmem => hrendered.name n c (List.mem_append_right _ hmem)
        nonempty := fun n c hmem => hrendered.nonempty n c (List.mem_append_right _ hmem)
        clean := fun n c hmem => hrendered.clean n c (List.mem_append_right _ hmem) }
    have hname := hlast.name name content List.mem_cons_self
    obtain ⟨found, hfound⟩ := places_split (r := headingPattern) [] w
      (blockText ((name, content) :: rest))
    rw [List.append_nil] at hfound
    obtain ⟨other, short, hshort, hsplitted⟩ := sectionsOf_block_split hlast hline hstarts
      fun n c hmem => hlater (n, c) hmem
    obtain ⟨others, hothers⟩ := sectionsOf_append found
      (headingPattern.places w.reverse (blockText ((name, content) :: rest)))
    have hall : replySections (reviewText parsed reasoningChars finishReason) =
        others ++ (name, "") :: ([] ++ (other, short) :: rest) := by
      rw [hsections, hsplit, hw, hfound, hothers, hsplitted]
      rfl
    have hcontent : content = parsed.sectionText name ∧ content ≠ "" :=
      (mem_blocksOf.mp (by rw [hsplit]; exact List.mem_append_right _ List.mem_cons_self)).2
    have hrest : rest.reverse.lookup name = none := by
      have hnodup := nodup_blocksOf parsed
      rw [hsplit] at hnodup
      exact lookup_reverse_of_nodup hnodup
    have hsame := hkept name hname
    rw [sectionText_parse hname, hall, lookup_reverse_cons, lookup_reverse_cons, hrest,
      ← hcontent.1] at hsame
    by_cases hother : name = other
    · rw [hother, List.lookup_cons_self] at hsame
      rw [← hsame] at hshort
      exact absurd hshort (Nat.lt_irrefl _)
    · rw [List.lookup_cons, beq_false_of_ne hother, List.lookup_cons_self] at hsame
      exact hcontent.2 hsame.symm
  · intro hquiet name hname
    have hlineStart : blocksOf parsed ≠ [] → AtLineStart [] := fun _ => rfl
    rw [sectionText_parse hname, hsections, sectionsOf_blocks hrendered hlineStart ?_]
    · by_cases hempty : parsed.sectionText name = ""
      · have hnone : (blocksOf parsed).reverse.lookup name = none := by
          refine List.lookup_eq_none_iff.mpr fun b hb => bne_iff_ne.mpr fun heq => ?_
          obtain ⟨-, hcontent, hne⟩ := mem_blocksOf.mp (List.mem_reverse.mp hb)
          exact hne (by rw [hcontent, ← heq, hempty])
        rw [hnone, hempty]
        rfl
      · obtain ⟨front, rest, hsplit⟩ := List.append_of_mem
          (mem_blocksOf.mpr ⟨hname, rfl, hempty⟩)
        have hnodup := nodup_blocksOf parsed
        rw [hsplit] at hnodup ⊢
        rw [lookup_reverse_cons, lookup_reverse_of_nodup hnodup, List.lookup_cons_self]
        rfl
    · intro name content hmem
      obtain ⟨hname, rfl, -⟩ := mem_blocksOf.mp hmem
      exact hquiet name hname

/-- A plain review does. -/
theorem rendering_preserves_sections_plain :
    SectionsKept (parseReviewOutput "## Summary\nFine.\n## Positives\n- short\n")
      (reviewText (parseReviewOutput "## Summary\nFine.\n## Positives\n- short\n") 0 none) := by
  refine (rendering_preserves_sections (by decide +kernel) 0 none).mpr fun name hname hstarts => ?_
  have hheads : ∀ name ∈ sectionNames, ((parseReviewOutput
      "## Summary\nFine.\n## Positives\n- short\n").sectionText name).toList.head? ≠ some '#' := by
    decide +kernel
  obtain ⟨rest, hrest⟩ := hstarts.hash
  refine hheads name hname ?_
  rw [hrest]
  rfl

/-- An indented heading at the start of a section is one once the section is stripped. -/
theorem indented_heading_promoted :
    (parseReviewOutput "## Summary\n   ## Findings\nA leak.\n").parseFailed = false ∧
      ¬ SectionsKept (parseReviewOutput "## Summary\n   ## Findings\nA leak.\n")
        (reviewText (parseReviewOutput "## Summary\n   ## Findings\nA leak.\n") 0 none) := by
  refine ⟨by decide +kernel, fun h => ?_⟩
  have hsummary := h "Summary" (by decide)
  exact absurd hsummary (by decide +kernel)

end VidiPr
