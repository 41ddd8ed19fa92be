import VidiPr.Lib.Regex
import VidiPr.Lib.Unicode

/-!
# Lines and whitespace of a text

Where the lines of a text start, what stripping leaves of it, and what an expression that matches
only at the start of a line finds in it.

* **`splitOn_eq_map`** — the lines are what the line starts show up to the next line feed.
* **`stripChars_append`**, **`append_stripChars`** — stripping does not see whitespace at either
  end.
* **`places_anchored`** — the matches of an anchored expression, line start by line start.
-/

namespace Text

/-! ## Where lines start -/

/-- The beginning of the text, or just after a line feed. -/
def AtLineStart (before : List Char) : Prop := before.head?.all (· = '\n')

/-- The end of the text, or just before a line feed. -/
def AtLineEnd (after : List Char) : Prop := after.head?.all (· = '\n')

instance (before : List Char) : Decidable (AtLineStart before) :=
  inferInstanceAs (Decidable (_ = true))

instance (after : List Char) : Decidable (AtLineEnd after) :=
  inferInstanceAs (Decidable (_ = true))

theorem atLineStart_cons {c : Char} {before : List Char} :
    AtLineStart (c :: before) ↔ c = '\n' := by
  simp [AtLineStart]

theorem atLineEnd_cons {c : Char} {after : List Char} : AtLineEnd (c :: after) ↔ c = '\n' := by
  simp [AtLineEnd]

theorem atLineStart_append {w before : List Char} (hw : w ≠ []) :
    AtLineStart (w ++ before) ↔ AtLineStart w := by
  cases w with
  | nil => exact absurd rfl hw
  | cons c w => exact atLineStart_cons.trans atLineStart_cons.symm

theorem atLineStart_reverse_cons {c : Char} {v before : List Char} :
    AtLineStart (v.reverse ++ c :: before) ↔ AtLineStart (c :: v).reverse := by
  rw [List.reverse_cons, List.append_cons]
  exact atLineStart_append (List.append_ne_nil_of_right_ne_nil _ (List.cons_ne_nil _ _))

/-- A text up to its first line feed. -/
def firstLine (s : List Char) : List Char := s.takeWhile (· ≠ '\n')

/-- What follows each line feed, up to the end of the text. -/
def afterNewlines : List Char → List (List Char)
  | [] => []
  | c :: rest => if c = '\n' then rest :: afterNewlines rest else afterNewlines rest

/-- The text from each of its line starts on. -/
def lineStarts (s : List Char) : List (List Char) := s :: afterNewlines s

theorem newline_not_mem_firstLine (s : List Char) : '\n' ∉ firstLine s := by
  intro hmem
  have hne := List.all_eq_true.mp List.all_takeWhile '\n' hmem
  exact absurd rfl (of_decide_eq_true hne)

/-- A text is its first line and what starts at a line end. -/
theorem firstLine_append_rest (s : List Char) :
    ∃ rest, s = firstLine s ++ rest ∧ AtLineEnd rest := by
  refine ⟨s.dropWhile (· ≠ '\n'), List.takeWhile_append_dropWhile.symm, ?_⟩
  cases h : s.dropWhile (· ≠ '\n') with
  | nil => rfl
  | cons c rest =>
    have hhead := List.head?_dropWhile_not (· ≠ '\n') s
    rw [h] at hhead
    exact atLineEnd_cons.mpr (by simpa using hhead)

theorem firstLine_append {line rest : List Char} (hline : '\n' ∉ line) (hrest : AtLineEnd rest) :
    firstLine (line ++ rest) = line := by
  have hall : ∀ c ∈ line, decide (c ≠ '\n') = true :=
    fun c hc => decide_eq_true fun heq => hline (heq ▸ hc)
  rw [firstLine, List.takeWhile_append_of_pos hall]
  cases rest with
  | nil => rw [List.takeWhile_nil, List.append_nil]
  | cons c rest =>
    rw [atLineEnd_cons.mp hrest, List.takeWhile_cons_of_neg (by decide), List.append_nil]

theorem splitOn_eq_map (s : List Char) : splitOn '\n' s = (lineStarts s).map firstLine := by
  induction s with
  | nil => rfl
  | cons c rest ih =>
    rw [splitOn, ih]
    by_cases hc : c = '\n'
    · rw [if_pos hc]
      simp [lineStarts, afterNewlines, firstLine, hc]
    · rw [if_neg hc]
      simp [lineStarts, afterNewlines, firstLine, hc]

/-- A line starts at the beginning and after each line feed. This is where `^` matches in multi-line
mode, so the matches of a pattern that begins with `^` can be looked for line by line. -/
theorem mem_lineStarts {s rest : List Char} :
    rest ∈ lineStarts s ↔ ∃ w, s = w ++ rest ∧ AtLineStart w.reverse := by
  have hlater : rest ∈ afterNewlines s ↔ ∃ w, s = w ++ '\n' :: rest := by
    induction s with
    | nil => exact iff_of_false List.not_mem_nil fun ⟨w, hw⟩ => by simp at hw
    | cons c s ih =>
      -- a line feed further on is one after the first character, or the first character
      have hskip : (∃ w, c :: s = w ++ '\n' :: rest) ↔
          (c = '\n' ∧ s = rest) ∨ ∃ w, s = w ++ '\n' :: rest := by
        constructor
        · rintro ⟨w, hw⟩
          cases w with
          | nil => exact Or.inl (List.cons_eq_cons.mp hw)
          | cons d w => exact Or.inr ⟨w, (List.cons_eq_cons.mp hw).2⟩
        · rintro (⟨rfl, rfl⟩ | ⟨w, rfl⟩)
          · exact ⟨[], rfl⟩
          · exact ⟨c :: w, rfl⟩
      rw [hskip, afterNewlines]
      by_cases hc : c = '\n'
      · rw [if_pos hc, List.mem_cons, ih, eq_comm, and_iff_right hc]
      · rw [if_neg hc, ih, or_iff_right fun h => hc h.1]
  rw [lineStarts, List.mem_cons, hlater]
  constructor
  · rintro (rfl | ⟨w, rfl⟩)
    · exact ⟨[], rfl, rfl⟩
    · -- what is before it ends in the line feed
      refine ⟨w ++ ['\n'], List.append_cons .., ?_⟩
      rw [List.reverse_append]
      exact atLineStart_cons.mpr rfl
  · rintro ⟨w, rfl, hstart⟩
    rcases List.eq_nil_or_concat' w with rfl | ⟨w, c, rfl⟩
    · exact Or.inl rfl
    · rw [List.reverse_append] at hstart
      obtain rfl := atLineStart_cons.mp hstart
      exact Or.inr ⟨w, (List.append_cons ..).symm⟩

/-! ## Whitespace -/

/-- Nothing but whitespace up to the end of the line. -/
def BlankLine (tail : List Char) : Prop :=
  ∃ trail rest, tail = trail ++ rest ∧ (∀ c ∈ trail, isSpace c) ∧ AtLineEnd rest

/-- The rest of a line is blank where all its characters are whitespace. -/
theorem blankLine_iff {line tail : List Char} (hline : '\n' ∉ line) (htail : AtLineEnd tail) :
    BlankLine (line ++ tail) ↔ ∀ c ∈ line, isSpace c := by
  constructor
  · rintro ⟨trail, rest, heq, hspace, hend⟩ c hc
    rcases List.append_eq_append_iff.mp heq with ⟨more, rfl, rfl⟩ | ⟨more, rfl, rfl⟩
    · exact hspace c (List.mem_append_left more hc)
    · cases more with
      | nil =>
        rw [List.append_nil] at hc
        exact hspace c hc
      | cons c' more =>
        -- the whitespace would end within the line
        obtain rfl := atLineEnd_cons.mp hend
        exact absurd (List.mem_append_right _ List.mem_cons_self) hline
  · intro h
    exact ⟨line, tail, rfl, h, htail⟩

/-- What a list shows when it is gone through. -/
theorem forall_eq_false_of_any {p : Char → Bool} {w : List Char} (h : w.any p = false) :
    ∀ c ∈ w, p c = false := fun c hc =>
  Bool.eq_false_iff.mpr (List.any_eq_false.mp h c hc)

/-- A text is cut at its first separator in one way. -/
theorem append_cons_inj {p : Char → Bool} {v v' w w' : List Char} {c c' : Char}
    (h : v ++ c :: w = v' ++ c' :: w') (hv : ∀ d ∈ v, p d = false) (hv' : ∀ d ∈ v', p d = false)
    (hc : p c) (hc' : p c') : v = v' ∧ c = c' ∧ w = w' := by
  induction v generalizing v' with
  | nil =>
    cases v' with
    | nil => exact ⟨rfl, List.cons_eq_cons.mp h⟩
    | cons d v' =>
      obtain ⟨rfl, -⟩ := List.cons_eq_cons.mp h
      exact absurd hc (ne_true_of_eq_false (hv' c List.mem_cons_self))
  | cons d v ih =>
    obtain ⟨hd, hv⟩ := List.forall_mem_cons.mp hv
    cases v' with
    | nil =>
      obtain ⟨rfl, -⟩ := List.cons_eq_cons.mp h
      exact absurd hc' (ne_true_of_eq_false hd)
    | cons d' v' =>
      obtain ⟨rfl, htail⟩ := List.cons_eq_cons.mp h
      obtain ⟨rfl, hrest⟩ := ih htail hv (List.forall_mem_cons.mp hv').2
      exact ⟨rfl, hrest⟩

section Whitespace

variable {x w : List Char}

theorem blankLine_space : ∀ c ∈ ['\n', '\n'], isSpace c := List.all_eq_true.mp rfl

/-- Whitespace before something else is what `takeWhile` takes. -/
theorem takeWhile_space {gap rest : List Char} (hgap : ∀ c ∈ gap, isSpace c)
    (hrest : ∀ c ∈ rest.head?, isSpace c = false) :
    (gap ++ rest).takeWhile isSpace = gap ∧ (gap ++ rest).dropWhile isSpace = rest := by
  rw [List.takeWhile_append_of_pos hgap, List.dropWhile_append_of_pos hgap]
  cases rest with
  | nil => exact ⟨List.append_nil gap, rfl⟩
  | cons c rest =>
    have hc : ¬ isSpace c = true := by
      rw [hrest c rfl]
      exact Bool.false_ne_true
    rw [List.takeWhile_cons_of_neg hc, List.dropWhile_cons_of_neg hc, List.append_nil]
    exact ⟨rfl, rfl⟩

theorem dropWhile_space_append (hx : ∀ c ∈ x, isSpace c) :
    (x ++ w).dropWhile isSpace = w.dropWhile isSpace :=
  List.dropWhile_append_of_pos hx

theorem stripChars_append (hx : ∀ c ∈ x, isSpace c) : stripChars (x ++ w) = stripChars w := by
  rw [stripChars, dropWhile_space_append hx, stripChars]

theorem append_stripChars (hx : ∀ c ∈ x, isSpace c) : stripChars (w ++ x) = stripChars w := by
  have hreverse : ∀ c ∈ x.reverse, isSpace c := fun c hc => hx c (List.mem_reverse.mp hc)
  induction w with
  | nil =>
    have hnone : x.dropWhile isSpace = [] := by
      have hdrop := dropWhile_space_append (w := []) hx
      rwa [List.append_nil] at hdrop
    rw [List.nil_append, stripChars, hnone]
    rfl
  | cons c w ih =>
    by_cases hc : isSpace c = true
    · rw [List.cons_append, stripChars, List.dropWhile_cons_of_pos hc]
      rw [stripChars] at ih
      rw [ih, stripChars, stripChars, List.dropWhile_cons_of_pos hc]
    · rw [List.cons_append, stripChars, List.dropWhile_cons_of_neg hc, ← List.cons_append,
        List.reverse_append, dropWhile_space_append hreverse, stripChars,
        List.dropWhile_cons_of_neg hc]

/-- A text is what stripping leaves of it, between whitespace. -/
theorem exists_stripChars (s : List Char) : ∃ x y, s = x ++ (stripChars s ++ y) ∧
    (∀ c ∈ x, isSpace c) ∧ ∀ c ∈ y, isSpace c := by
  refine ⟨s.takeWhile isSpace, ((s.dropWhile isSpace).reverse.takeWhile isSpace).reverse, ?_, ?_,
    ?_⟩
  · rw [stripChars, ← List.reverse_append, List.takeWhile_append_dropWhile, List.reverse_reverse,
      List.takeWhile_append_dropWhile]
  · exact List.all_eq_true.mp List.all_takeWhile
  · exact fun c hc => List.all_eq_true.mp List.all_takeWhile c (List.mem_reverse.mp hc)

/-- It starts and ends with something else. -/
theorem stripChars_eq_self (hhead : ∀ c ∈ w.head?, isSpace c = false)
    (hlast : ∀ c ∈ w.getLast?, isSpace c = false) : stripChars w = w := by
  cases w with
  | nil => rfl
  | cons c w =>
    have hc := hhead c rfl
    rw [stripChars, List.dropWhile_cons_of_neg (by rw [hc]; exact Bool.false_ne_true)]
    cases hrev : (c :: w).reverse with
    | nil => cases List.reverse_eq_nil_iff.mp hrev
    | cons d rest =>
      have hd : isSpace d = false := by
        refine hlast d ?_
        rw [← List.head?_reverse, hrev]
        rfl
      rw [List.dropWhile_cons_of_neg (by rw [hd]; exact Bool.false_ne_true), ← hrev,
        List.reverse_reverse]

theorem getLast?_stripChars (s : List Char) : ∀ c ∈ (stripChars s).getLast?, isSpace c = false := by
  intro c hc
  rw [stripChars, List.getLast?_reverse] at hc
  have hhead := List.head?_dropWhile_not isSpace (s.dropWhile isSpace).reverse
  rw [hc] at hhead
  simpa using hhead

theorem head?_stripChars (s : List Char) : ∀ c ∈ (stripChars s).head?, isSpace c = false := by
  intro c hc
  have hsplit : s.dropWhile isSpace =
      stripChars s ++ ((s.dropWhile isSpace).reverse.takeWhile isSpace).reverse := by
    rw [stripChars, ← List.reverse_append, List.takeWhile_append_dropWhile, List.reverse_reverse]
  have hhead := List.head?_dropWhile_not isSpace s
  have hfirst : (s.dropWhile isSpace).head? = some c := by
    rw [hsplit, List.head?_append, hc]
    rfl
  rw [hfirst] at hhead
  simpa using hhead

theorem stripChars_stripChars (s : List Char) : stripChars (stripChars s) = stripChars s :=
  stripChars_eq_self (head?_stripChars s) (getLast?_stripChars s)

theorem length_stripChars_le (s : List Char) : (stripChars s).length ≤ s.length := by
  obtain ⟨x, y, hs, -, -⟩ := exists_stripChars s
  have hlength := congrArg List.length hs
  rw [List.length_append, List.length_append] at hlength
  omega

theorem stripChars_eq_nil {s : List Char} : stripChars s = [] ↔ ∀ c ∈ s, isSpace c := by
  constructor
  · intro h
    obtain ⟨x, y, hs, hx, hy⟩ := exists_stripChars s
    rw [h] at hs
    rw [hs]
    exact List.forall_mem_append.mpr ⟨hx, hy⟩
  · intro h
    have hstrip := stripChars_append (w := []) h
    rwa [List.append_nil] at hstrip

end Whitespace

/-! ## Anchored expressions -/

namespace Regex

variable {r : Regex}

/-- Every match starts at the start of a line. -/
def Anchored (r : Regex) : Prop := ∀ m, r.ends m ≠ [] → AtLineStart m.before

/-- A match of a text starts at a place of it. -/
theorem mem_places {before s : List Char} {m m' : Cursor} (h : (m, m') ∈ r.places before s) :
    ∃ w rest, s = w ++ rest ∧ r.matchAt (w.reverse ++ before) rest = some (m, m') := by
  induction s generalizing before with
  | nil => exact ⟨[], [], rfl, Option.mem_toList.mp h⟩
  | cons c s ih =>
    rcases List.mem_append.mp h with h | h
    · exact ⟨[], c :: s, rfl, Option.mem_toList.mp h⟩
    · obtain ⟨w, rest, rfl, hmatch⟩ := ih h
      refine ⟨c :: w, rest, rfl, ?_⟩
      rwa [List.reverse_cons, List.append_assoc]

theorem matchAt_of_anchored (hr : r.Anchored) {before after : List Char}
    (h : ¬ AtLineStart before) : r.matchAt before after = none :=
  matchAt_eq_none.mpr (by_contra fun hne => h (hr _ hne))

/-- What `g` finds in the entries of a list, each with its number. -/
def numbered {α β : Type} (g : α → Option β) (number : Nat) : List α → List (Nat × β)
  | [] => []
  | a :: rest => (g a).toList.map (number, ·) ++ numbered g (number + 1) rest

/-- Where `g` says what `f` makes of the match at a line start, the matches of a text are read off
its line starts, with the number of each line. -/
theorem places_anchored {β : Type} (hr : r.Anchored) {f : Cursor × Cursor → β}
    {g : List Char → Option β}
    (hg : ∀ before after, AtLineStart before → (r.matchAt before after).map f = g after)
    (before s : List Char) :
    (r.places before s).map (fun p => (p.1.before.count '\n', f p)) =
      (if AtLineStart before then (g s).toList.map (before.count '\n', ·) else []) ++
        numbered g (before.count '\n' + 1) (afterNewlines s) := by
  -- at one position: the pattern matches at a line start only, and `g` says what
  have hhere : ∀ before s, (r.matchAt before s).toList.map
      (fun p => (p.1.before.count '\n', f p)) =
        if AtLineStart before then (g s).toList.map (before.count '\n', ·) else [] := by
    intro before s
    by_cases hstart : AtLineStart before
    · rw [if_pos hstart, ← hg before s hstart]
      cases hmatch : r.matchAt before s with
      | none => rfl
      | some p =>
        rcases p with ⟨m, m'⟩
        obtain ⟨rfl, -⟩ := of_matchAt hmatch
        rfl
    · rw [if_neg hstart, matchAt_of_anchored hr hstart]
      rfl
  -- over the text, with the lines before it counted
  induction s generalizing before with
  | nil => exact (hhere before []).trans (List.append_nil _).symm
  | cons c rest ih =>
    rw [places, List.map_append, hhere, ih (c :: before), afterNewlines]
    congr 1
    by_cases hc : c = '\n'
    · rw [if_pos hc, if_pos (atLineStart_cons.mpr hc), hc, List.count_cons_self]
      rfl
    · rw [if_neg hc, if_neg (mt atLineStart_cons.mp hc), List.count_cons_of_ne hc]
      rfl

theorem places_anchored_start {β : Type} (hr : r.Anchored) {f : Cursor × Cursor → β}
    {g : List Char → Option β}
    (hg : ∀ before after, AtLineStart before → (r.matchAt before after).map f = g after)
    (s : List Char) :
    (r.places [] s).map (fun p => (p.1.before.count '\n', f p)) = numbered g 0 (lineStarts s) :=
  places_anchored hr hg [] s

variable {α β : Type} {g h : α → Option β}

theorem numbered_map {γ : Type} (f : γ → α) (number : Nat) (l : List γ) :
    numbered g number (l.map f) = numbered (g ∘ f) number l := by
  induction l generalizing number with
  | nil => rfl
  | cons a rest ih => rw [List.map_cons, numbered, ih, numbered, Function.comp]

theorem numbered_snd (number : Nat) (l : List α) :
    (numbered g number l).map Prod.snd = l.filterMap g := by
  induction l generalizing number with
  | nil => rfl
  | cons a rest ih =>
    rw [numbered, List.map_append, ih, List.map_map, List.filterMap_cons]
    cases g a <;> rfl

theorem le_of_mem_numbered {number i : Nat} {b : β} {l : List α}
    (hmem : (i, b) ∈ numbered g number l) : number ≤ i := by
  induction l generalizing number with
  | nil => cases hmem
  | cons a rest ih =>
    rcases List.mem_append.mp hmem with hmem | hmem
    · obtain ⟨b', -, heq⟩ := List.mem_map.mp hmem
      cases heq
      exact Nat.le_refl _
    · exact Nat.le_of_succ_le (ih hmem)

/-- The numbers tell the entries apart. -/
theorem numbered_inj {number : Nat} {l : List α} :
    numbered g number l = numbered h number l ↔ ∀ a ∈ l, g a = h a := by
  induction l generalizing number with
  | nil => exact iff_of_true rfl nofun
  | cons a rest ih =>
    rw [List.forall_mem_cons, ← @ih (number + 1), numbered, numbered]
    constructor
    · intro heq
      -- the numbers go up, so this one is not given again
      have hnumber : ∀ {k : α → Option β} {b}, (number, b) ∉ numbered k (number + 1) rest :=
        fun hmem => absurd (le_of_mem_numbered hmem) (by omega)
      have hfirst : g a = h a := by
        refine Option.ext fun b => ?_
        -- what stands beside this number is what the function gives for the first entry
        have hmem : ∀ {k : α → Option β}, b ∈ k a ↔
            (number, b) ∈ (k a).toList.map (number, ·) ++ numbered k (number + 1) rest := by
          intro k
          rw [List.mem_append, or_iff_left hnumber, List.mem_map]
          constructor
          · exact fun hb => ⟨b, Option.mem_toList.mpr hb, rfl⟩
          · rintro ⟨b', hb', heq⟩
            cases heq
            exact Option.mem_toList.mp hb'
        exact hmem.trans (Iff.trans (by rw [heq]) hmem.symm)
      refine ⟨hfirst, ?_⟩
      rw [hfirst] at heq
      exact List.append_cancel_left heq
    · rintro ⟨hfirst, hrest⟩
      rw [hfirst, hrest]

end Regex

end Text
