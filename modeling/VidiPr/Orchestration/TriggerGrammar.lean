import Mathlib.Data.List.TakeWhile
import VidiPr.Lib.Lines
import VidiPr.Orchestration.Triggers

/-!
# The grammar of trigger comments

`_TRIGGER` of `orchestration/triggers.py`, read as a grammar of commands, beside the grammar of
single lines its comment describes.

* **`matchAt_trigger`** — what the pattern matches at a line start, and what it captures: the first
  text behind `review`, on whatever line that is.
* **`parseTrigger_eq`** — `parse_trigger` as a search for the first command.
* **`trigger_grammar`** — it reads single lines exactly where the first command is on one line and
  has its text there, or no text follows.
-/

namespace VidiPr

open Text Regex

/-! ## Commands -/

/-- What is left of a text after a word, in any case. -/
def dropCaseless : List Char → List Char → Option (List Char)
  | [], s => some s
  | c :: word, c' :: s => if c' ∈ caseVariants c then dropCaseless word s else none
  | _ :: _, [] => none

/-- The characters of a word, each in any case. -/
def AnyCase (word : String) (s : List Char) : Prop :=
  List.Forall₂ (fun c c' => c' ∈ caseVariants c) word.toList s

theorem dropCaseless_eq_some {word s rest : List Char} : dropCaseless word s = some rest ↔
    ∃ w, s = w ++ rest ∧ List.Forall₂ (fun c c' => c' ∈ caseVariants c) word w := by
  induction word generalizing s with
  | nil =>
    rw [dropCaseless]
    constructor
    · intro h
      exact ⟨[], Option.some.inj h, .nil⟩
    · rintro ⟨w, rfl, hw⟩
      cases hw
      rfl
  | cons c word ih =>
    cases s with
    | nil =>
      -- the text ends before the word does
      refine iff_of_false (by rw [dropCaseless]; exact nofun) ?_
      rintro ⟨w, hs, hw⟩
      cases hw
      cases hs
    | cons c' s =>
      rw [dropCaseless]
      constructor
      · intro h
        split at h
        · rename_i hc
          obtain ⟨w, rfl, hw⟩ := ih.mp h
          exact ⟨c' :: w, rfl, .cons hc hw⟩
        · cases h
      · rintro ⟨w, hs, hw⟩
        -- the first characters agree up to case, and the rest does
        cases hw with
        | cons hc hw =>
          obtain ⟨rfl, hrest⟩ := List.cons_eq_cons.mp hs
          rw [if_pos hc]
          exact ih.mpr ⟨_, hrest, hw⟩

section Commands

variable [UnicodeDb]

/-- The text starts with a command; `gap` is the whitespace in it, `tail` what follows it. -/
structure CommandAt (after gap tail : List Char) : Prop where
  text : ∃ name word, after = name ++ (gap ++ (word ++ tail)) ∧ AnyCase "@vidi-pr" name ∧
    AnyCase "review" word
  gap_ne_nil : gap ≠ []
  gap_space : ∀ c ∈ gap, isSpace c
  boundary : tail.head?.any isWord = false

/-- The command a text starts with: the whitespace in it and what follows it. -/
def commandAt (s : List Char) : Option (List Char × List Char) :=
  (dropCaseless "@vidi-pr".toList s).bind fun afterName =>
    let gap := afterName.takeWhile isSpace
    if gap = [] then none
    else (dropCaseless "review".toList (afterName.dropWhile isSpace)).bind fun tail =>
      if tail.head?.any isWord then none else some (gap, tail)

omit [UnicodeDb] in
/-- What holds of every variant of a word's letters holds of the word in any case. -/
theorem AnyCase.forall {word : String} {s : List Char} {P : Char → Prop} (h : AnyCase word s)
    (hP : ∀ c ∈ word.toList, ∀ c' ∈ caseVariants c, P c') : ∀ c' ∈ s, P c' := by
  unfold AnyCase at h
  generalize word.toList = letters at h hP
  induction h with
  | nil => exact nofun
  | cons hc _ ih =>
    obtain ⟨hfirst, hrest⟩ := List.forall_mem_cons.mp hP
    exact List.forall_mem_cons.mpr ⟨hfirst _ hc, ih hrest⟩

omit [UnicodeDb] in
/-- `review` does not start with whitespace. -/
theorem AnyCase.head {word : List Char} (h : AnyCase "review" word) :
    ∃ c rest, word = c :: rest ∧ isSpace c = false := by
  cases h with
  | cons hc _ => exact ⟨_, _, rfl, forall_eq_false_of_any (w := caseVariants 'r') rfl _ hc⟩

/-- It ends in a word character. -/
theorem AnyCase.last {word : List Char} (h : AnyCase "review" word) :
    ∃ before c, word = before ++ [c] ∧ isWord c = true := by
  have hw : ∀ c ∈ caseVariants 'w', isWord c = true := by
    have hascii : ((caseVariants 'w').all fun c => c.toNat < 128 && c.isAlphanum) = true := by
      decide
    intro c hc
    obtain ⟨hlt, hletter⟩ := Bool.and_eq_true_iff.mp (List.all_eq_true.mp hascii c hc)
    rw [isWord, UnicodeDb.isAlnum_ascii c (of_decide_eq_true hlt), hletter]
    rfl
  obtain ⟨c₁, w₁, -, h₁, rfl⟩ := List.forall₂_cons_left_iff.mp h
  obtain ⟨c₂, w₂, -, h₂, rfl⟩ := List.forall₂_cons_left_iff.mp h₁
  obtain ⟨c₃, w₃, -, h₃, rfl⟩ := List.forall₂_cons_left_iff.mp h₂
  obtain ⟨c₄, w₄, -, h₄, rfl⟩ := List.forall₂_cons_left_iff.mp h₃
  obtain ⟨c₅, w₅, -, h₅, rfl⟩ := List.forall₂_cons_left_iff.mp h₄
  obtain ⟨c₆, w₆, hc₆, h₆, rfl⟩ := List.forall₂_cons_left_iff.mp h₅
  cases h₆
  exact ⟨[c₁, c₂, c₃, c₄, c₅], c₆, rfl, hw c₆ hc₆⟩

theorem isWord_newline : isWord '\n' = false := by
  rw [isWord, UnicodeDb.isAlnum_ascii '\n' (by decide)]
  decide

/-- The scanner is the grammar of a command: the name, a gap of whitespace, the word `review`, and
no word character after it. -/
theorem commandAt_eq_some {s gap tail : List Char} :
    commandAt s = some (gap, tail) ↔ CommandAt s gap tail := by
  constructor
  · intro h
    -- what the scanner has taken is a command
    obtain ⟨afterName, hfirst, hrest⟩ := Option.bind_eq_some_iff.mp h
    obtain ⟨name, hs, hname⟩ := dropCaseless_eq_some.mp hfirst
    dsimp only at hrest
    split at hrest
    · cases hrest
    · rename_i hgap
      obtain ⟨after, hsecond, hlast⟩ := Option.bind_eq_some_iff.mp hrest
      obtain ⟨word, hdrop, hword⟩ := dropCaseless_eq_some.mp hsecond
      split at hlast
      · cases hlast
      · rename_i hboundary
        cases hlast
        refine ⟨⟨name, word, ?_, hname, hword⟩, hgap, ?_, Bool.eq_false_iff.mpr hboundary⟩
        · rw [← hdrop, List.takeWhile_append_dropWhile, hs]
        · exact List.all_eq_true.mp List.all_takeWhile
  · intro h
    -- and it takes all of the gap, since a word follows
    obtain ⟨name, word, rfl, hname, hword⟩ := h.text
    obtain ⟨c, rest, rfl, hc⟩ := hword.head
    have hstop : ∀ d ∈ (c :: rest ++ tail).head?, isSpace d = false :=
      fun d hd => Option.some.inj hd ▸ hc
    obtain ⟨htake, hdrop⟩ := takeWhile_space h.gap_space hstop
    have hfirst : dropCaseless "@vidi-pr".toList (name ++ (gap ++ (c :: rest ++ tail))) =
        some (gap ++ (c :: rest ++ tail)) := dropCaseless_eq_some.mpr ⟨name, rfl, hname⟩
    have hsecond : dropCaseless "review".toList (c :: rest ++ tail) = some tail :=
      dropCaseless_eq_some.mpr ⟨c :: rest, rfl, hword⟩
    rw [commandAt, hfirst, Option.bind_some, htake, hdrop, if_neg h.gap_ne_nil, hsecond,
      Option.bind_some, if_neg (by rw [h.boundary]; exact Bool.false_ne_true)]

/-! ## Matches -/

/-- A pattern that reads a command and goes on with `r`. -/
def commandThen (r : Regex) : Regex :=
  .seq .lineStart <| Regex.literal caseVariants "@vidi-pr" <| .seq (.some' isSpace) <|
    Regex.literal caseVariants "review" r

theorem ends_boundary {m : Cursor} {before tail : List Char} {c : Char}
    (hbefore : m.before = c :: before) (hafter : m.after = tail) (hc : isWord c = true) :
    (boundary isWord).ends m = if tail.head?.any isWord then [] else [m] := by
  rw [ends, hbefore, hafter, List.head?_cons, Option.any_some, hc]
  cases tail.head?.any isWord <;> rfl

omit [UnicodeDb] in
theorem mem_ends_commandThen {r : Regex} {m m' : Cursor} : m' ∈ (commandThen r).ends m ↔
    AtLineStart m.before ∧ ∃ name gap word tail, m.after = name ++ (gap ++ (word ++ tail)) ∧
      AnyCase "@vidi-pr" name ∧ gap ≠ [] ∧ (∀ c ∈ gap, isSpace c) ∧ AnyCase "review" word ∧
        m' ∈ r.ends (m.skip (name ++ (gap ++ word)) tail) := by
  constructor
  · intro h
    obtain ⟨m₁, h₁, t₁⟩ := mem_ends_seq.mp h
    obtain ⟨heq, hstart⟩ := mem_ends_lineStart.mp h₁
    rw [heq] at t₁
    obtain ⟨name, after₁, hafter₁, hname, t₂⟩ := mem_ends_literal.mp t₁
    obtain ⟨m₂, h₂, t₃⟩ := mem_ends_seq.mp t₂
    obtain ⟨gap, after₂, hafter₂, hgap, hspace, rfl⟩ := mem_ends_some'.mp h₂
    obtain ⟨word, tail, hafter₃, hword, t₄⟩ := mem_ends_literal.mp t₃
    rw [Cursor.skip_skip, Cursor.skip_skip] at t₄
    rw [Cursor.skip_after] at hafter₂ hafter₃
    refine ⟨hstart, name, gap, word, tail, ?_, hname, hgap, hspace, hword, t₄⟩
    rw [hafter₁, hafter₂, hafter₃]
  · rintro ⟨hstart, name, gap, word, tail, hafter, hname, hgap, hspace, hword, h⟩
    refine mem_ends_seq.mpr ⟨m, mem_ends_lineStart.mpr ⟨rfl, hstart⟩, ?_⟩
    refine mem_ends_literal.mpr ⟨name, _, hafter, hname, ?_⟩
    refine mem_ends_seq.mpr ⟨_, mem_ends_some'.mpr ⟨gap, _, rfl, hgap, hspace, rfl⟩, ?_⟩
    refine mem_ends_literal.mpr ⟨word, tail, rfl, hword, ?_⟩
    rwa [Cursor.skip_skip, Cursor.skip_skip]

/-- What goes on after a command goes on from where the command ends. -/
theorem ends_commandThen {r : Regex} {m : Cursor} {gap tail : List Char}
    (hstart : AtLineStart m.before) (h : CommandAt m.after gap tail) :
    ∃ m₁ : Cursor, m₁.after = tail ∧ (∃ c before, m₁.before = c :: before ∧ isWord c = true) ∧
      (commandThen r).ends m = r.ends m₁ := by
  obtain ⟨name, word, hafter, hname, hword⟩ := h.text
  obtain ⟨before, c, rfl, hc⟩ := hword.last
  obtain ⟨d, rest, hfirst, hd⟩ := hword.head
  refine ⟨m.skip (name ++ (gap ++ (before ++ [c]))) tail, rfl,
    ⟨c, (name ++ (gap ++ before)).reverse ++ m.before, ?_, hc⟩, ?_⟩
  · simp [Cursor.skip]
  · have hline : lineStart.ends m = [m] := by
      rw [ends]
      exact if_pos hstart
    have hstop : ∀ e ∈ (before ++ [c] ++ tail).head?, isSpace e = false := by
      rw [hfirst]
      exact fun e he => Option.some.inj he ▸ hd
    -- whitespace cannot be the `r` of `review`, so the gap gives nothing back
    have hdead : ∀ (m : Cursor) e after, m.after = e :: after → isSpace e →
        (Regex.literal caseVariants "review" r).ends m = [] := by
      intro m' e after hafter' he
      refine List.eq_nil_iff_forall_not_mem.mpr fun m'' hmem => ?_
      obtain ⟨w, rest', hsplit, hw, -⟩ := mem_ends_literal.mp hmem
      obtain ⟨f, more, rfl, hf⟩ := AnyCase.head hw
      rw [hafter'] at hsplit
      rw [(List.cons_eq_cons.mp hsplit).1, hf] at he
      cases he
    rw [commandThen, ends, hline, List.flatMap_singleton, ends_literal hafter hname,
      ends_some'_seq rfl h.gap_ne_nil h.gap_space hstop hdead, ends_literal rfl hword,
      Cursor.skip_skip, Cursor.skip_skip]

/-- A pattern that goes on with a word boundary matches where a command is. -/
theorem commandAt_of_mem_ends {r : Regex} {m m' : Cursor}
    (hr : ∀ m m', m' ∈ r.ends m → m.before.head?.any isWord ≠ m.after.head?.any isWord)
    (h : m' ∈ (commandThen r).ends m) :
    AtLineStart m.before ∧ ∃ gap tail, CommandAt m.after gap tail := by
  obtain ⟨hstart, name, gap, word, tail, hafter, hname, hgap, hspace, hword, hmem⟩ :=
    mem_ends_commandThen.mp h
  refine ⟨hstart, gap, tail, ⟨name, word, hafter, hname, hword⟩, hgap, hspace, ?_⟩
  have hne := hr _ _ hmem
  obtain ⟨before, c, rfl, hc⟩ := hword.last
  have hbefore : (m.skip (name ++ (gap ++ (before ++ [c]))) tail).before.head? = some c := by
    simp [Cursor.skip]
  rw [hbefore, Option.any_some, hc] at hne
  exact Bool.eq_false_iff.mpr fun htail => hne htail.symm

/-- What `_TRIGGER` goes on with: whitespace, the captured text, and whitespace to the end of a
line. -/
def captureRest : Regex :=
  .seq (.many isSpace true) <| .seq (.group (.many Regex.notNewline false)) <|
    .seq (.many isSpace true) .lineEnd

theorem triggerPattern_eq :
    triggerPattern = commandThen (.seq (.boundary isWord) captureRest) := rfl

omit [UnicodeDb] in
/-- A capture is what is left of its line, up to whitespace. -/
theorem strip_capture {m m' : Cursor} (h : m' ∈ (seq (group (many notNewline false))
    (seq (many isSpace true) lineEnd)).ends m) :
    ∃ captured, m'.group = some captured ∧
      stripChars captured = stripChars (firstLine m.after) := by
  obtain ⟨m₁, h₁, t₁⟩ := mem_ends_seq.mp h
  obtain ⟨m₁', h₁', rfl⟩ := mem_ends_group.mp h₁
  obtain ⟨captured, rest, hafter, hline, rfl⟩ := mem_ends_many.mp h₁'
  obtain ⟨m₂, h₂, t₂⟩ := mem_ends_seq.mp t₁
  obtain ⟨trail, more, hrest, htrail, rfl⟩ := mem_ends_many.mp h₂
  obtain ⟨rfl, hend⟩ := mem_ends_lineEnd.mp t₂
  refine ⟨captured, ?_, ?_⟩
  · rw [Cursor.skip_group]
    exact congrArg some (Cursor.upTo_of_before rfl)
  · rw [Cursor.skip_after] at hrest
    have hnewline : '\n' ∉ captured := fun hmem => of_decide_eq_true (hline '\n' hmem) rfl
    obtain ⟨more', hsplit, hend'⟩ := firstLine_append_rest rest
    -- after the capture there is whitespace alone up to the end of the line
    have hblank : ∀ c ∈ firstLine rest, isSpace c := by
      refine (blankLine_iff (newline_not_mem_firstLine rest) hend').mp ?_
      rw [← hsplit]
      exact ⟨trail, more, hrest, htrail, hend⟩
    have hfirst : firstLine (captured ++ rest) = captured ++ firstLine rest := by
      conv_lhs => rw [hsplit, ← List.append_assoc]
      refine firstLine_append ?_ hend'
      exact fun hmem => (List.mem_append.mp hmem).elim hnewline (newline_not_mem_firstLine rest)
    rw [hafter, hfirst, append_stripChars hblank]

omit [UnicodeDb] in
theorem capture_ne_nil (m : Cursor) :
    (seq (group (many notNewline false)) (seq (many isSpace true) lineEnd)).ends m ≠ [] := by
  obtain ⟨rest, hafter, hend⟩ := firstLine_append_rest m.after
  have hline : ∀ c ∈ firstLine m.after, notNewline c :=
    fun c hc => decide_eq_true fun heq => newline_not_mem_firstLine m.after (heq ▸ hc)
  have hcapture : m.skip (firstLine m.after) rest ∈ (many notNewline false).ends m :=
    mem_ends_many.mpr ⟨firstLine m.after, rest, hafter, hline, rfl⟩
  have hgroup := mem_ends_group.mpr ⟨_, hcapture, rfl⟩
  have hspace : ∀ m' : Cursor, m'.after = rest → m'.skip [] rest ∈ (many isSpace true).ends m' :=
    fun m' hafter' => mem_ends_many.mpr ⟨[], rest, hafter', nofun, rfl⟩
  exact List.ne_nil_of_mem (mem_ends_seq.mpr ⟨_, hgroup, mem_ends_seq.mpr ⟨_, hspace _ rfl,
    mem_ends_lineEnd.mpr ⟨rfl, hend⟩⟩⟩)

omit [UnicodeDb] in
/-- What `_TRIGGER` goes on with captures the first text it comes to, on whatever line. -/
theorem head?_ends_captureRest (m : Cursor) :
    ∃ m' captured, (captureRest.ends m).head? = some m' ∧ m'.group = some captured ∧
      stripChars captured = stripChars (firstLine (m.after.dropWhile isSpace)) := by
  have hstop : ∀ c ∈ (m.after.dropWhile isSpace).head?, isSpace c = false := by
    intro c hc
    have hhead := List.head?_dropWhile_not isSpace m.after
    rw [hc] at hhead
    simpa using hhead
  have hgreedy := head?_ends_many_seq (List.takeWhile_append_dropWhile (p := isSpace)).symm
    (List.all_eq_true.mp List.all_takeWhile) hstop (capture_ne_nil _)
  cases hends : ((seq (group (many notNewline false)) (seq (many isSpace true) lineEnd)).ends
      (m.skip (m.after.takeWhile isSpace) (m.after.dropWhile isSpace))).head? with
  | none => exact absurd (List.head?_eq_none_iff.mp hends) (capture_ne_nil _)
  | some m' =>
    obtain ⟨captured, hgroup, hstrip⟩ := strip_capture (List.mem_of_head? hends)
    exact ⟨m', captured, hgreedy.trans hends, hgroup, hstrip⟩

theorem ne_of_mem_ends_boundary {r : Regex} {m m' : Cursor}
    (h : m' ∈ (seq (boundary isWord) r).ends m) :
    m.before.head?.any isWord ≠ m.after.head?.any isWord := by
  obtain ⟨m₁, h₁, -⟩ := mem_ends_seq.mp h
  exact (mem_ends_boundary.mp h₁).2

omit [UnicodeDb] in
theorem anchored_commandThen (r : Regex) : (commandThen r).Anchored := by
  intro m hne
  obtain ⟨m', hmem⟩ := List.exists_mem_of_ne_nil _ hne
  exact (mem_ends_commandThen.mp hmem).1

/-! ## The text of a command -/

/-- What the group of a match captured, stripped. -/
def captured (found : Cursor × Cursor) : List Char := stripChars (found.2.group.getD [])

/-- The text a command at the start of `s` comes with: the first one after it. -/
def commandText (s : List Char) : Option (List Char) :=
  (commandAt s).map fun (_, tail) => stripChars (firstLine (tail.dropWhile isSpace))

theorem commandAt_eq_none {s : List Char} :
    commandAt s = none ↔ ∀ gap tail, ¬ CommandAt s gap tail := by
  rw [Option.eq_none_iff_forall_ne_some, Prod.forall]
  exact forall₂_congr fun gap tail => not_congr commandAt_eq_some

/-- `_TRIGGER` at the start of a line. -/
theorem matchAt_trigger (before after : List Char) (hstart : AtLineStart before) :
    (triggerPattern.matchAt before after).map captured = commandText after := by
  rw [commandText]
  cases hcommand : commandAt after with
  | none =>
    -- no command, so the pattern has no match
    have hends : triggerPattern.ends { before, after } = [] := by
      refine List.eq_nil_iff_forall_not_mem.mpr fun m' hmem => ?_
      obtain ⟨-, gap, tail, h⟩ := commandAt_of_mem_ends (fun _ _ => ne_of_mem_ends_boundary) hmem
      exact commandAt_eq_none.mp hcommand gap tail h
    rw [matchAt_eq_none.mpr hends]
    rfl
  | some command =>
    rcases command with ⟨gap, tail⟩
    have h : CommandAt after gap tail := commandAt_eq_some.mp hcommand
    obtain ⟨m₁, hafter, ⟨c, before₁, hbefore, hc⟩, hends⟩ :=
      ends_commandThen (r := seq (boundary isWord) captureRest) (m := { before, after }) hstart h
    -- the word ends where the command does
    have hboundary : (boundary isWord).ends m₁ = [m₁] := by
      rw [ends_boundary hbefore hafter hc, h.boundary]
      rfl
    obtain ⟨m', text, hhead, hgroup, hstrip⟩ := head?_ends_captureRest m₁
    have hmatch : triggerPattern.matchAt before after = some ({ before, after }, m') := by
      rw [triggerPattern_eq, matchAt, hends, ends, hboundary, List.flatMap_singleton, hhead]
      rfl
    rw [hmatch, Option.map_some, Option.map_some, captured, hgroup, Option.getD_some, hstrip,
      hafter]

/-- A trigger with its text, if it has any. -/
def contextOf (text : List Char) : ParsedTrigger :=
  { extraContext := if text = [] then none else some (String.ofList text) }

omit [UnicodeDb] in
theorem contextOf_inj {x y : List Char} : contextOf x = contextOf y ↔ x = y := by
  refine ⟨fun h => ?_, congrArg contextOf⟩
  have hcontext := congrArg ParsedTrigger.extraContext h
  unfold contextOf at hcontext
  by_cases hx : x = [] <;> by_cases hy : y = []
  · rw [hx, hy]
  · rw [if_pos hx, if_neg hy] at hcontext
    cases hcontext
  · rw [if_neg hx, if_pos hy] at hcontext
    cases hcontext
  · rw [if_neg hx, if_neg hy] at hcontext
    exact String.ofList_injective (Option.some.inj hcontext)

/-- `parse_trigger` finds the first command, and takes the first text behind it. -/
theorem parseTrigger_eq (body : Option String) :
    parseTrigger body =
      ((lineStarts (body.getD "").toList).findSome? commandText).map contextOf := by
  cases body with
  | none => rfl
  | some body =>
    rw [parseTrigger, Option.getD_some]
    by_cases hempty : body = ""
    · rw [if_pos hempty, hempty]
      rfl
    · have hfirst : (triggerPattern.search body).map captured =
          (lineStarts body.toList).findSome? commandText := by
        have hplaces := places_anchored_start (anchored_commandThen _) matchAt_trigger body.toList
        have hheads := congrArg (fun l => (l.map Prod.snd).head?) hplaces
        rw [List.map_map, numbered_snd, List.head?_filterMap, List.head?_map] at hheads
        rw [search, searchFrom_eq_head?]
        exact hheads
      rw [if_neg hempty, ← hfirst]
      cases triggerPattern.search body with
      | none => rfl
      | some found =>
        rcases found with ⟨m, m'⟩
        simp [contextOf, captured, strip]

/-! ## Single lines -/

/-- A line reads the command a text starts with where the whole command is on it. -/
theorem commandAt_firstLine (s : List Char) : commandAt (firstLine s) =
    (commandAt s).bind fun (gap, tail) =>
      if '\n' ∈ gap then none else some (gap, firstLine tail) := by
  obtain ⟨rest, hs, hend⟩ := firstLine_append_rest s
  -- no letter of the two words is a line feed in either case
  have hletters : ∀ word : String, (word.toList.flatMap caseVariants).any (· = '\n') = false →
      ∀ w, AnyCase word w → '\n' ∉ w := by
    intro word hword w hw hmem
    have hne : ∀ c ∈ word.toList, ∀ c' ∈ caseVariants c, c' ≠ '\n' := fun c hc c' hc' =>
      of_decide_eq_false (forall_eq_false_of_any hword c' (List.mem_flatMap.mpr ⟨c, hc, hc'⟩))
    exact hw.forall hne '\n' hmem rfl
  -- a command of the line is one of the text with its gap on the line
  have hcommand : ∀ gap line, CommandAt (firstLine s) gap line ↔
      ∃ tail, CommandAt s gap tail ∧ '\n' ∉ gap ∧ firstLine tail = line := by
    intro gap line
    constructor
    · intro h
      obtain ⟨name, word, hline, hname, hword⟩ := h.text
      have hnewline := newline_not_mem_firstLine s
      rw [hline] at hnewline
      refine ⟨line ++ rest, ⟨⟨name, word, ?_, hname, hword⟩, h.gap_ne_nil, h.gap_space, ?_⟩, ?_, ?_⟩
      · rw [hs, hline]
        simp only [List.append_assoc]
      · cases line with
        | cons c line => exact h.boundary
        | nil =>
          cases rest with
          | nil => rfl
          | cons c rest =>
            rw [atLineEnd_cons.mp hend]
            exact isWord_newline
      · exact fun hmem => hnewline (by simp [hmem])
      · exact firstLine_append (fun hmem => hnewline (by simp [hmem])) hend
    · -- back: the line has all of the command
      rintro ⟨tail, h, hgap, rfl⟩
      obtain ⟨name, word, hafter, hname, hword⟩ := h.text
      obtain ⟨more, htail, hend'⟩ := firstLine_append_rest tail
      have hline : firstLine s = name ++ (gap ++ (word ++ firstLine tail)) := by
        have hsplit : s = name ++ (gap ++ (word ++ firstLine tail)) ++ more := by
          rw [hafter]
          conv_lhs => rw [htail]
          simp only [List.append_assoc]
        rw [hsplit]
        refine firstLine_append ?_ hend'
        simp only [List.mem_append, not_or]
        exact ⟨hletters "@vidi-pr" (by decide) name hname, hgap,
          hletters "review" (by decide) word hword, newline_not_mem_firstLine tail⟩
      refine ⟨⟨name, word, hline, hname, hword⟩, h.gap_ne_nil, h.gap_space, ?_⟩
      have hboundary := h.boundary
      rw [htail] at hboundary
      cases hfirst : firstLine tail with
      | nil => rfl
      | cons c line =>
        rw [hfirst] at hboundary
        exact hboundary
  refine Option.ext fun ⟨gap, line⟩ => ?_
  rw [commandAt_eq_some, hcommand, Option.bind_eq_some_iff]
  constructor
  · rintro ⟨tail, h, hgap, rfl⟩
    exact ⟨(gap, tail), commandAt_eq_some.mpr h, if_neg hgap⟩
  · rintro ⟨⟨gap', tail⟩, h, heq⟩
    dsimp only at heq
    by_cases hgap : '\n' ∈ gap'
    · rw [if_pos hgap] at heq
      cases heq
    · rw [if_neg hgap] at heq
      cases heq
      exact ⟨tail, commandAt_eq_some.mp h, hgap, rfl⟩

/-- The text of a command that has its line to itself. -/
def lineText (line : List Char) : Option (List Char) :=
  (commandAt line).map fun (_, tail) => stripChars tail

theorem lineText_firstLine (s : List Char) : lineText (firstLine s) =
    (commandAt s).bind fun (gap, tail) =>
      if '\n' ∈ gap then none else some (stripChars (firstLine tail)) := by
  rw [lineText, commandAt_firstLine]
  cases commandAt s with
  | none => rfl
  | some command =>
    rcases command with ⟨gap, tail⟩
    rw [Option.bind_some, Option.bind_some]
    dsimp only
    by_cases hgap : '\n' ∈ gap
    · rw [if_pos hgap, if_pos hgap]
      rfl
    · rw [if_neg hgap, if_neg hgap]
      rfl

/-- The grammar of single lines: the first line that is a command, with the rest of it. -/
def lineTrigger (body : String) : Option ParsedTrigger :=
  ((splitOn '\n' body.toList).findSome? lineText).map contextOf

/-- The first command of a text, which may go on over several lines. -/
def firstCommand (s : List Char) : Option (List Char × List Char) :=
  (lineStarts s).findSome? commandAt

/-- The first command, if there is one, is on one line, with its text on that line or nothing but
whitespace up to the end of the body; or else, by accident, the first line that is a command has
the text that follows the one spread over several. -/
def ReadsLines (s : List Char) : Prop :=
  ∀ gap tail, firstCommand s = some (gap, tail) →
    if '\n' ∈ gap then
      ∃ gap' rest, (splitOn '\n' s).findSome? commandAt = some (gap', rest) ∧
        stripChars (firstLine (tail.dropWhile isSpace)) = stripChars rest
    else (∃ c ∈ firstLine tail, isSpace c = false) ∨ ∀ c ∈ tail, isSpace c

omit [UnicodeDb] in
/-- The first text behind a command is that of its line where that line has one, or there is
none. -/
theorem strip_first_text {tail : List Char} :
    stripChars (firstLine (tail.dropWhile isSpace)) = stripChars (firstLine tail) ↔
      (∃ c ∈ firstLine tail, isSpace c = false) ∨ ∀ c ∈ tail, isSpace c := by
  obtain ⟨rest, htail, hend⟩ := firstLine_append_rest tail
  by_cases hblank : ∀ c ∈ firstLine tail, isSpace c
  · have hnone : ¬ ∃ c ∈ firstLine tail, isSpace c = false := by
      rintro ⟨c, hc, hfalse⟩
      rw [hblank c hc] at hfalse
      cases hfalse
    rw [stripChars_eq_nil.mpr hblank, or_iff_right hnone, stripChars_eq_nil]
    cases hdrop : tail.dropWhile isSpace with
    | nil => exact iff_of_true nofun (List.dropWhile_eq_nil_iff.mp hdrop)
    | cons c more =>
      -- the next text is on a later line
      have hc : isSpace c = false := by
        have hhead := List.head?_dropWhile_not isSpace tail
        rw [hdrop] at hhead
        simpa using hhead
      have hmem : c ∈ tail := by
        rw [← List.takeWhile_append_dropWhile (p := isSpace) (l := tail), hdrop]
        exact List.mem_append_right _ List.mem_cons_self
      have hfirst : c ∈ firstLine (c :: more) := by
        have hne : c ≠ '\n' := fun heq => by
          rw [heq] at hc
          exact absurd hc (by decide)
        have hkept : firstLine (c :: more) = c :: firstLine more :=
          List.takeWhile_cons_of_pos (decide_eq_true hne)
        rw [hkept]
        exact List.mem_cons_self
      refine iff_of_false (fun h => ?_) fun h => ?_
      · rw [h c hfirst] at hc
        cases hc
      · rw [h c hmem] at hc
        cases hc
  · obtain ⟨c, hc, hfalse⟩ := not_forall₂.mp hblank
    refine iff_of_true ?_ (Or.inl ⟨c, hc, Bool.eq_false_iff.mpr hfalse⟩)
    -- the whitespace in front ends before the line does
    have hdrop : tail.dropWhile isSpace = (firstLine tail).dropWhile isSpace ++ rest := by
      conv_lhs => rw [htail]
      rw [List.dropWhile_append, if_neg]
      intro hempty
      exact hfalse (List.dropWhile_eq_nil_iff.mp (List.isEmpty_iff.mp hempty) c hc)
    have hline : '\n' ∉ (firstLine tail).dropWhile isSpace :=
      fun hmem => newline_not_mem_firstLine tail (List.dropWhile_subset _ hmem)
    rw [hdrop, firstLine_append hline hend]
    conv_rhs => rw [← List.takeWhile_append_dropWhile (p := isSpace) (l := firstLine tail)]
    exact (stripChars_append (List.all_eq_true.mp List.all_takeWhile)).symm

/-- `parse_trigger` reads the lines of a body one by one, except where `\s` crosses a line feed:
between `@vidi-pr` and `review`, or between `review` and a text on a later line. `ReadsLines` is a
condition on the body alone, and the two agree exactly where it holds. -/
theorem trigger_grammar (body : Option String) :
    parseTrigger body = lineTrigger (body.getD "") ↔ ReadsLines (body.getD "").toList := by
  rw [parseTrigger_eq, lineTrigger]
  generalize (body.getD "").toList = s
  -- line by line, the first command whose gap is on its line
  have hlines : (splitOn '\n' s).findSome? lineText =
      (lineStarts s).findSome? fun start => (commandAt start).bind fun (gap, tail) =>
        if '\n' ∈ gap then none else some (stripChars (firstLine tail)) := by
    rw [splitOn_eq_map, List.findSome?_map]
    exact congrArg (List.findSome? · (lineStarts s)) (funext lineText_firstLine)
  -- over the whole text, the first command
  have htexts : (lineStarts s).findSome? commandText = (firstCommand s).map fun (_, tail) =>
      stripChars (firstLine (tail.dropWhile isSpace)) := by
    rw [firstCommand, List.map_findSome?]
    rfl
  rw [htexts]
  cases hfirst : firstCommand s with
  | none =>
    -- no command at all: both find nothing
    have hnone : (splitOn '\n' s).findSome? lineText = none := by
      rw [hlines, List.findSome?_eq_none_iff]
      intro start hmem
      rw [List.findSome?_eq_none_iff.mp hfirst start hmem, Option.bind_none]
    refine iff_of_true (by rw [hnone]; rfl) fun gap tail h => ?_
    rw [hfirst] at h
    cases h
  | some command =>
    rcases command with ⟨gap, tail⟩
    have hreads : ReadsLines s ↔ if '\n' ∈ gap then
        ∃ gap' rest, (splitOn '\n' s).findSome? commandAt = some (gap', rest) ∧
          stripChars (firstLine (tail.dropWhile isSpace)) = stripChars rest
        else (∃ c ∈ firstLine tail, isSpace c = false) ∨ ∀ c ∈ tail, isSpace c := by
      constructor
      · exact fun h => h gap tail hfirst
      · intro h gap' tail' hfirst'
        rw [hfirst] at hfirst'
        cases hfirst'
        exact h
    rw [hreads, Option.map_some, Option.map_some]
    by_cases hgap : '\n' ∈ gap
    · -- the gap crosses a line feed, so no line has this command
      rw [if_pos hgap]
      have hmap : (splitOn '\n' s).findSome? lineText =
          ((splitOn '\n' s).findSome? commandAt).map fun (_, rest) => stripChars rest := by
        rw [List.map_findSome?]
        rfl
      rw [hmap]
      cases (splitOn '\n' s).findSome? commandAt with
      | none => exact iff_of_false nofun fun ⟨_, _, h, _⟩ => by cases h
      | some onLine =>
        rcases onLine with ⟨gap', rest⟩
        rw [Option.map_some, Option.map_some, Option.some_inj, contextOf_inj]
        constructor
        · exact fun h => ⟨gap', rest, rfl, h⟩
        · rintro ⟨gap'', rest', heq, h⟩
          cases heq
          exact h
    · -- the command is on one line; then the text after it decides
      rw [if_neg hgap]
      obtain ⟨before, start, after, hsplit, hcommand, hbefore⟩ :=
        List.findSome?_eq_some_iff.mp hfirst
      have honLine : (splitOn '\n' s).findSome? lineText = some (stripChars (firstLine tail)) := by
        rw [hlines, List.findSome?_eq_some_iff]
        refine ⟨before, start, after, hsplit, ?_, fun line hmem => ?_⟩
        · rw [hcommand, Option.bind_some]
          exact if_neg hgap
        · rw [hbefore line hmem, Option.bind_none]
      rw [honLine, Option.map_some, Option.some_inj, contextOf_inj, strip_first_text]

end Commands

section Example

attribute [local instance] asciiDb

/-- Nothing follows the command on its line, and the text of the next one is taken. -/
theorem next_line_taken : parseTrigger (some "@vidi-pr review\nnext line") ≠
    lineTrigger "@vidi-pr review\nnext line" := by decide +kernel

example : parseTrigger (some "@vidi-pr\nreview") ≠ lineTrigger "@vidi-pr\nreview" := by
  decide +kernel

end Example

end VidiPr
