import Mathlib.Data.List.Forall2

/-!
# Backtracking regular expressions

The part of `re` the service uses: character classes and their repetitions, sequence,
alternation, one group, and the anchors of `re.MULTILINE`. A match is a walk of a cursor over the
text; `ends` lists where an expression may leave the cursor, in the order a backtracking matcher
tries them, so that the first is what `match` answers.
-/

namespace Text

/-- A place in a text: what is before it, last character first, and what is after it; with the
group, if it took part. -/
structure Cursor where
  before : List Char
  after : List Char
  group : Option (List Char) := none
deriving DecidableEq, Repr

namespace Cursor

def start (text : List Char) : Cursor := { before := [], after := text }

/-- One character on. -/
def advance (m : Cursor) (c : Char) (rest : List Char) : Cursor :=
  { m with before := c :: m.before, after := rest }

/-- The text between two places. -/
def upTo (m m' : Cursor) : List Char :=
  (m'.before.take (m'.before.length - m.before.length)).reverse

/-- The places reached over characters of a class, nearest first. -/
def walk (p : Char → Bool) (m : Cursor) : List Char → List Cursor
  | [] => [m]
  | c :: rest => if p c then m :: (m.advance c rest).walk p rest else [m]

end Cursor

inductive Regex where
  | chr (p : Char → Bool)
  /-- `p*`, or `p*?` -/
  | many (p : Char → Bool) (greedy : Bool)
  | seq (r s : Regex)
  | alt (r s : Regex)
  /-- `(r)` -/
  | group (r : Regex)
  /-- `^` and `$` of `re.MULTILINE` -/
  | lineStart
  | lineEnd
  /-- `\b` -/
  | boundary (isWord : Char → Bool)

namespace Regex

/-- Where a match that starts at a cursor may end, first choice first. -/
def ends : Regex → Cursor → List Cursor
  | chr p, m =>
    match m.after with
    | [] => []
    | c :: rest => if p c then [m.advance c rest] else []
  | many p greedy, m =>
    let places := m.walk p m.after
    if greedy then places.reverse else places
  | seq r s, m => (r.ends m).flatMap s.ends
  | alt r s, m => r.ends m ++ s.ends m
  | group r, m => (r.ends m).map fun m' => { m' with group := some (m.upTo m') }
  | lineStart, m => if m.before.head?.all (· = '\n') then [m] else []
  | lineEnd, m => if m.after.head?.all (· = '\n') then [m] else []
  | boundary isWord, m => if m.before.head?.any isWord = m.after.head?.any isWord then [] else [m]

/-- The first match at or after a place: where it starts and where it ends. -/
def searchFrom (r : Regex) (before : List Char) : List Char → Option (Cursor × Cursor)
  | [] =>
    let m : Cursor := { before, after := [] }
    (r.ends m).head?.map (m, ·)
  | c :: rest =>
    let m : Cursor := { before, after := c :: rest }
    match r.ends m with
    | m' :: _ => some (m, m')
    | [] => r.searchFrom (c :: before) rest

/-- `search` -/
def search (r : Regex) (text : String) : Option (Cursor × Cursor) := r.searchFrom [] text.toList

/-- Matches from a place on, none overlapping the one before; `fuel` bounds their number. -/
def findFrom (r : Regex) (fuel : Nat) (before after : List Char) : List (Cursor × Cursor) :=
  match fuel with
  | 0 => []
  | fuel + 1 =>
    match r.searchFrom before after with
    | none => []
    | some (m, m') =>
      (m, m') :: if m'.after.length < m.after.length then r.findFrom fuel m'.before m'.after
        else match m'.after with
          | [] => []
          | c :: rest => r.findFrom fuel (c :: m'.before) rest

/-- `finditer`: a text has at most one match at each of its places. -/
def findIter (r : Regex) (text : String) : List (Cursor × Cursor) :=
  r.findFrom (text.toList.length + 1) [] text.toList

/-! ## Derived forms -/

/-- `p+` -/
def some' (p : Char → Bool) : Regex := seq (chr p) (many p true)

/-- The expression that matches nothing but the empty text. -/
def empty : Regex := many (fun _ => false) true

/-- Literal characters. -/
def exactly (text : String) : Regex :=
  text.toList.foldr (fun c r => seq (chr fun c' => c' = c) r) empty

/-- The characters that match a letter under `re.IGNORECASE`. -/
def caseVariants (c : Char) : List Char :=
  if c = 'i' then ['i', 'I', '\u0130', '\u0131']
  else if c = 's' then ['s', 'S', '\u017f']
  else if c = 'k' then ['k', 'K', '\u212a']
  else [c, c.toUpper]

/-- Literal characters, followed by `r`; `same` says which characters stand for which. -/
def literal (same : Char → List Char) (text : String) (r : Regex) : Regex :=
  text.toList.foldr (fun c r => seq (chr fun c' => c' ∈ same c) r) r

/-- `.` -/
def notNewline (c : Char) : Bool := c ≠ '\n'

/-! ## What a match consumes -/

end Regex

namespace Cursor

/-- The place after the characters `w`, with `rest` ahead. -/
def skip (m : Cursor) (w rest : List Char) : Cursor :=
  { m with before := w.reverse ++ m.before, after := rest }

@[simp] theorem skip_before (m : Cursor) (w rest : List Char) :
    (m.skip w rest).before = w.reverse ++ m.before := rfl

@[simp] theorem skip_after (m : Cursor) (w rest : List Char) : (m.skip w rest).after = rest := rfl

@[simp] theorem skip_group (m : Cursor) (w rest : List Char) :
    (m.skip w rest).group = m.group := rfl

theorem skip_nil {m : Cursor} {rest : List Char} (h : m.after = rest) : m.skip [] rest = m := by
  rw [← h]
  rfl

theorem advance_eq_skip (m : Cursor) (c : Char) (rest : List Char) :
    m.advance c rest = m.skip [c] rest := rfl

theorem skip_skip (m : Cursor) (w w' rest rest' : List Char) :
    (m.skip w rest).skip w' rest' = m.skip (w ++ w') rest' := by
  simp only [skip, List.reverse_append, List.append_assoc]

/-- What lies between a place and one further on. -/
theorem upTo_of_before {m m' : Cursor} {w : List Char} (h : m'.before = w.reverse ++ m.before) :
    m.upTo m' = w := by
  have hlength : (w.reverse ++ m.before).length - m.before.length = w.reverse.length := by
    rw [List.length_append, Nat.add_sub_cancel]
  rw [upTo, h, hlength, List.take_left, List.reverse_reverse]

end Cursor

namespace Regex

variable {m m' : Cursor}

-- the equations of `ends`, ahead of the lemmas that all ask for them
attribute [local simp] ends in
theorem mem_ends_chr {p : Char → Bool} : m' ∈ (chr p).ends m ↔
    ∃ c rest, m.after = c :: rest ∧ p c ∧ m' = m.skip [c] rest := by
  rw [ends]
  cases hafter : m.after with
  | nil => exact iff_of_false List.not_mem_nil fun ⟨c, rest, h, _⟩ => by cases h
  | cons c rest =>
    dsimp only
    constructor
    · intro h
      split at h
      · rename_i hp
        exact ⟨c, rest, rfl, hp, List.mem_singleton.mp h⟩
      · cases h
    · rintro ⟨c', rest', heq, hp, rfl⟩
      cases heq
      rw [if_pos hp]
      exact List.mem_singleton.mpr rfl

/-- A repetition leaves the cursor after any number of characters of its class. -/
theorem mem_walk {p : Char → Bool} {after : List Char} (hafter : m.after = after) :
    m' ∈ m.walk p after ↔ ∃ w rest, after = w ++ rest ∧ (∀ c ∈ w, p c) ∧ m' = m.skip w rest := by
  induction after generalizing m with
  | nil =>
    rw [Cursor.walk, List.mem_singleton]
    constructor
    · rintro rfl
      exact ⟨[], [], rfl, nofun, (Cursor.skip_nil hafter).symm⟩
    · rintro ⟨w, rest, hw, -, rfl⟩
      obtain ⟨rfl, rfl⟩ := List.append_eq_nil_iff.mp hw.symm
      exact Cursor.skip_nil hafter
  | cons c after ih =>
    rw [Cursor.walk]
    -- one more character of the class, or the repetition stops here
    constructor
    · intro h
      split at h
      · rename_i hp
        rcases List.mem_cons.mp h with rfl | h
        · exact ⟨[], c :: after, rfl, nofun, (Cursor.skip_nil hafter).symm⟩
        · obtain ⟨w, rest, rfl, hw, rfl⟩ := (ih (m := m.advance c after) rfl).mp h
          refine ⟨c :: w, rest, rfl, ?_, Cursor.skip_skip m [c] w _ rest⟩
          exact List.forall_mem_cons.mpr ⟨hp, hw⟩
      · exact ⟨[], c :: after, rfl, nofun, (List.mem_singleton.mp h).trans
          (Cursor.skip_nil hafter).symm⟩
    · rintro ⟨w, rest, heq, hw, rfl⟩
      cases w with
      -- the repetition that stops at once
      | nil =>
        have hm : m.skip [] rest = m := Cursor.skip_nil (hafter.trans heq)
        rw [hm]
        split
        · exact List.mem_cons_self
        · exact List.mem_singleton.mpr rfl
      | cons c' w =>
        cases heq
        obtain ⟨hp, hw⟩ := List.forall_mem_cons.mp hw
        rw [if_pos hp]
        refine List.mem_cons_of_mem _ ((ih (m := m.advance c (w ++ rest)) rfl).mpr ?_)
        exact ⟨w, rest, rfl, hw, (Cursor.skip_skip m [c] w _ rest).symm⟩

theorem mem_ends_many {p : Char → Bool} {greedy : Bool} : m' ∈ (many p greedy).ends m ↔
    ∃ w rest, m.after = w ++ rest ∧ (∀ c ∈ w, p c) ∧ m' = m.skip w rest := by
  rw [← mem_walk rfl, ends]
  cases greedy with
  | true => exact List.mem_reverse
  | false => exact Iff.rfl

theorem mem_ends_seq {r s : Regex} : m' ∈ (seq r s).ends m ↔ ∃ m₁ ∈ r.ends m, m' ∈ s.ends m₁ :=
  List.mem_flatMap

theorem mem_ends_alt {r s : Regex} : m' ∈ (alt r s).ends m ↔ m' ∈ r.ends m ∨ m' ∈ s.ends m :=
  List.mem_append

theorem mem_ends_group {r : Regex} : m' ∈ (group r).ends m ↔
    ∃ m₁ ∈ r.ends m, m' = { m₁ with group := some (m.upTo m₁) } := by
  rw [ends, List.mem_map]
  exact exists_congr fun m₁ => and_congr_right fun _ => eq_comm

theorem mem_ends_lineStart : m' ∈ lineStart.ends m ↔
    m' = m ∧ m.before.head?.all (· = '\n') := by
  rw [ends]
  split
  · rename_i h
    exact List.mem_singleton.trans (and_iff_left h).symm
  · rename_i h
    exact iff_of_false List.not_mem_nil fun h' => h h'.2

theorem mem_ends_lineEnd : m' ∈ lineEnd.ends m ↔ m' = m ∧ m.after.head?.all (· = '\n') := by
  rw [ends]
  split
  · rename_i h
    exact List.mem_singleton.trans (and_iff_left h).symm
  · rename_i h
    exact iff_of_false List.not_mem_nil fun h' => h h'.2

theorem mem_ends_boundary {isWord : Char → Bool} : m' ∈ (boundary isWord).ends m ↔
    m' = m ∧ m.before.head?.any isWord ≠ m.after.head?.any isWord := by
  rw [ends]
  split
  · rename_i h
    exact iff_of_false List.not_mem_nil fun h' => h'.2 h
  · rename_i h
    exact List.mem_singleton.trans (and_iff_left h).symm

theorem mem_ends_some' {p : Char → Bool} : m' ∈ (some' p).ends m ↔
    ∃ w rest, m.after = w ++ rest ∧ w ≠ [] ∧ (∀ c ∈ w, p c) ∧ m' = m.skip w rest := by
  rw [some', mem_ends_seq]
  constructor
  · rintro ⟨m₁, h₁, h₂⟩
    obtain ⟨c, after, hafter, hp, rfl⟩ := mem_ends_chr.mp h₁
    obtain ⟨w, rest, hrest, hw, rfl⟩ := mem_ends_many.mp h₂
    rw [Cursor.skip_after] at hrest
    refine ⟨c :: w, rest, ?_, List.cons_ne_nil c w, ?_, Cursor.skip_skip m [c] w _ rest⟩
    · rw [hafter, hrest]
      rfl
    · exact List.forall_mem_cons.mpr ⟨hp, hw⟩
  · rintro ⟨w, rest, hafter, hne, hw, rfl⟩
    cases w with
    | nil => exact absurd rfl hne
    | cons c w =>
      obtain ⟨hp, hw⟩ := List.forall_mem_cons.mp hw
      refine ⟨m.skip [c] (w ++ rest), mem_ends_chr.mpr ⟨c, w ++ rest, hafter, hp, rfl⟩, ?_⟩
      exact mem_ends_many.mpr ⟨w, rest, rfl, hw, (Cursor.skip_skip m [c] w _ rest).symm⟩

/-- Literal characters, each with what may stand for it, and then `r`. -/
theorem mem_ends_literal {same : Char → List Char} {text : String} {r : Regex} :
    m' ∈ (literal same text r).ends m ↔ ∃ w rest, m.after = w ++ rest ∧
      List.Forall₂ (fun c c' => c' ∈ same c) text.toList w ∧ m' ∈ r.ends (m.skip w rest) := by
  unfold literal
  -- over the characters of the literal
  induction text.toList generalizing m with
  | nil =>
    rw [List.foldr_nil]
    constructor
    · intro h
      exact ⟨[], m.after, rfl, .nil, by rwa [Cursor.skip_nil rfl]⟩
    · rintro ⟨w, rest, hafter, hw, h⟩
      cases hw
      rwa [Cursor.skip_nil (show m.after = rest from hafter)] at h
  | cons c cs ih =>
    rw [List.foldr_cons, mem_ends_seq]
    constructor
    · rintro ⟨m₁, h₁, h₂⟩
      obtain ⟨c', after, hafter, hp, rfl⟩ := mem_ends_chr.mp h₁
      obtain ⟨w, rest, hrest, hw, h⟩ := ih.mp h₂
      rw [Cursor.skip_skip] at h
      rw [Cursor.skip_after] at hrest
      refine ⟨c' :: w, rest, ?_, .cons (of_decide_eq_true hp) hw, h⟩
      rw [hafter, hrest]
      rfl
    · rintro ⟨w, rest, hafter, hw, h⟩
      cases hw with
      | cons hc hw =>
        rename_i c' w
        refine ⟨m.skip [c'] (w ++ rest), ?_, ih.mpr ⟨w, rest, rfl, hw, ?_⟩⟩
        · exact mem_ends_chr.mpr ⟨c', w ++ rest, hafter, decide_eq_true hc, rfl⟩
        · rwa [Cursor.skip_skip]

theorem mem_ends_exactly {text : String} : m' ∈ (exactly text).ends m ↔
    ∃ rest, m.after = text.toList ++ rest ∧ m' = m.skip text.toList rest := by
  unfold exactly
  induction text.toList generalizing m with
  | nil =>
    rw [List.foldr_nil, empty, mem_ends_many]
    constructor
    · rintro ⟨w, rest, hafter, hw, rfl⟩
      cases w with
      | nil => exact ⟨rest, hafter, rfl⟩
      | cons c w => exact absurd (hw c List.mem_cons_self) Bool.false_ne_true
    · rintro ⟨rest, hafter, rfl⟩
      exact ⟨[], rest, hafter, nofun, rfl⟩
  | cons c cs ih =>
    rw [List.foldr_cons, mem_ends_seq]
    constructor
    · rintro ⟨m₁, h₁, h₂⟩
      obtain ⟨c', after, hafter, hp, rfl⟩ := mem_ends_chr.mp h₁
      obtain rfl : c' = c := of_decide_eq_true hp
      obtain ⟨rest, hrest, rfl⟩ := ih.mp h₂
      rw [Cursor.skip_after] at hrest
      refine ⟨rest, ?_, Cursor.skip_skip m [c'] cs _ rest⟩
      rw [hafter, hrest]
      rfl
    · rintro ⟨rest, hafter, rfl⟩
      refine ⟨m.skip [c] (cs ++ rest), mem_ends_chr.mpr ⟨c, _, hafter, decide_eq_true rfl, rfl⟩,
        ih.mpr ⟨rest, rfl, (Cursor.skip_skip m [c] cs _ rest).symm⟩⟩

/-- A match moves the cursor over some characters: what it took is gone from what is ahead, and
stands, reversed, before what was behind. The induction is on the pattern. -/
theorem moves_of_mem_ends {r : Regex} (h : m' ∈ r.ends m) :
    ∃ w, m.after = w ++ m'.after ∧ m'.before = w.reverse ++ m.before := by
  induction r generalizing m m' with
  | chr p =>
    obtain ⟨c, rest, hafter, -, rfl⟩ := mem_ends_chr.mp h
    exact ⟨[c], hafter, rfl⟩
  | many p greedy =>
    -- a repetition moves over what it took
    obtain ⟨w, rest, hafter, -, rfl⟩ := mem_ends_many.mp h
    exact ⟨w, hafter, rfl⟩
  | seq r s ihr ihs =>
    obtain ⟨m₁, h₁, h₂⟩ := mem_ends_seq.mp h
    obtain ⟨w, hafter, hbefore⟩ := ihr h₁
    obtain ⟨w', hafter', hbefore'⟩ := ihs h₂
    refine ⟨w ++ w', ?_, ?_⟩
    · rw [hafter, hafter', List.append_assoc]
    · rw [hbefore', hbefore, List.reverse_append, List.append_assoc]
  | alt r s ihr ihs =>
    rcases mem_ends_alt.mp h with h | h
    · exact ihr h
    · exact ihs h
  | group r ih =>
    obtain ⟨m₁, h₁, rfl⟩ := mem_ends_group.mp h
    exact (ih h₁ : ∃ w, m.after = w ++ m₁.after ∧ m₁.before = w.reverse ++ m.before)
  -- the assertions move nothing
  | lineStart =>
    obtain ⟨rfl, -⟩ := mem_ends_lineStart.mp h
    exact ⟨[], rfl, rfl⟩
  | lineEnd =>
    obtain ⟨rfl, -⟩ := mem_ends_lineEnd.mp h
    exact ⟨[], rfl, rfl⟩
  | boundary isWord =>
    obtain ⟨rfl, -⟩ := mem_ends_boundary.mp h
    exact ⟨[], rfl, rfl⟩

/-! ## Which match comes first -/

/-- A repetition that goes on as far as it can: before that it stops in front of a character of its
class. -/
theorem walk_eq {p : Char → Bool} {w rest : List Char} (hafter : m.after = w ++ rest)
    (hw : ∀ c ∈ w, p c) (hrest : ∀ c ∈ rest.head?, p c = false) :
    ∃ front, m.walk p (w ++ rest) = front ++ [m.skip w rest] ∧
      ∀ m₁ ∈ front, ∃ c after, m₁.after = c :: after ∧ p c := by
  induction w generalizing m with
  | nil =>
    refine ⟨[], ?_, nofun⟩
    rw [List.nil_append, List.nil_append, Cursor.skip_nil (show m.after = rest from hafter)]
    cases rest with
    | nil => rfl
    | cons c rest => rw [Cursor.walk, hrest c rfl, if_neg Bool.false_ne_true]
  | cons c w ih =>
    obtain ⟨hc, hw⟩ := List.forall_mem_cons.mp hw
    obtain ⟨front, hwalk, hfront⟩ := ih (m := m.advance c (w ++ rest)) rfl hw
    refine ⟨m :: front, ?_, List.forall_mem_cons.mpr ⟨⟨c, w ++ rest, hafter, hc⟩, hfront⟩⟩
    rw [List.cons_append, Cursor.walk, if_pos hc, hwalk, Cursor.advance_eq_skip, Cursor.skip_skip]
    rfl

/-- A greedy repetition: its longest place first, then places in front of characters of its
class. -/
theorem exists_ends_some' {p : Char → Bool} {w rest : List Char} (hafter : m.after = w ++ rest)
    (hne : w ≠ []) (hw : ∀ c ∈ w, p c) (hrest : ∀ c ∈ rest.head?, p c = false) :
    ∃ shorter, (some' p).ends m = m.skip w rest :: shorter ∧
      ∀ m₁ ∈ shorter, ∃ c after, m₁.after = c :: after ∧ p c := by
  cases w with
  | nil => exact absurd rfl hne
  | cons c w =>
    obtain ⟨hc, hw⟩ := List.forall_mem_cons.mp hw
    obtain ⟨front, hwalk, hfront⟩ := walk_eq (m := m.skip [c] (w ++ rest)) rfl hw hrest
    have hfirst : (chr p).ends m = [m.skip [c] (w ++ rest)] := by
      rw [ends, hafter]
      exact if_pos hc
    refine ⟨front.reverse, ?_, fun m₁ hmem => hfront m₁ (List.mem_reverse.mp hmem)⟩
    rw [some', ends, hfirst, List.flatMap_singleton, ends]
    show ((m.skip [c] (w ++ rest)).walk p (w ++ rest)).reverse = _
    rw [hwalk, Cursor.skip_skip, List.reverse_append]
    rfl

/-- Places from which nothing goes on add nothing. -/
theorem flatMap_ends_of_dead {s : Regex} {m : Cursor} {shorter : List Cursor}
    (hdead : ∀ m₁ ∈ shorter, s.ends m₁ = []) : (m :: shorter).flatMap s.ends = s.ends m := by
  rw [List.flatMap_cons, List.flatMap_eq_nil_iff.mpr hdead, List.append_nil]

/-- A greedy repetition before something that does not start with a character of its class. -/
theorem ends_some'_seq {p : Char → Bool} {s : Regex} {w rest : List Char}
    (hafter : m.after = w ++ rest) (hne : w ≠ []) (hw : ∀ c ∈ w, p c)
    (hrest : ∀ c ∈ rest.head?, p c = false)
    (hs : ∀ (m : Cursor) c after, m.after = c :: after → p c → s.ends m = []) :
    (seq (some' p) s).ends m = s.ends (m.skip w rest) := by
  obtain ⟨shorter, hends, hfront⟩ := exists_ends_some' hafter hne hw hrest
  rw [ends, hends]
  refine flatMap_ends_of_dead fun m₁ hmem => ?_
  obtain ⟨c, after, hc, hp⟩ := hfront m₁ hmem
  exact hs m₁ c after hc hp

/-- The same where the repetition is captured. -/
theorem ends_group_some'_seq {p : Char → Bool} {s : Regex} {w rest : List Char}
    (hafter : m.after = w ++ rest) (hne : w ≠ []) (hw : ∀ c ∈ w, p c)
    (hrest : ∀ c ∈ rest.head?, p c = false)
    (hs : ∀ (m : Cursor) c after, m.after = c :: after → p c → s.ends m = []) :
    (seq (group (some' p)) s).ends m = s.ends { m.skip w rest with group := some w } := by
  obtain ⟨shorter, hends, hfront⟩ := exists_ends_some' hafter hne hw hrest
  have hcaptured : m.upTo (m.skip w rest) = w := Cursor.upTo_of_before rfl
  rw [ends, ends, hends, List.map_cons, hcaptured]
  refine flatMap_ends_of_dead fun m₂ hmem => ?_
  obtain ⟨m₁, hm₁, rfl⟩ := List.mem_map.mp hmem
  obtain ⟨c, after, hc, hp⟩ := hfront m₁ hm₁
  exact hs _ c after hc hp

theorem ends_chr_seq {p : Char → Bool} {s : Regex} {c : Char} {rest : List Char}
    (hafter : m.after = c :: rest) (hc : p c) :
    (seq (chr p) s).ends m = s.ends (m.skip [c] rest) := by
  rw [ends, ends, hafter]
  dsimp only
  rw [if_pos hc, List.flatMap_singleton]
  rfl

theorem ends_chr_seq_of_not {p : Char → Bool} {s : Regex} {c : Char} {rest : List Char}
    (hafter : m.after = c :: rest) (hc : p c = false) : (seq (chr p) s).ends m = [] := by
  rw [ends, ends, hafter]
  dsimp only
  rw [hc, if_neg Bool.false_ne_true, List.flatMap_nil]

/-- Literal characters that are there, read exactly. -/
theorem ends_exactly_seq {text : String} {s : Regex} {rest : List Char}
    (hafter : m.after = text.toList ++ rest) :
    (seq (exactly text) s).ends m = s.ends (m.skip text.toList rest) := by
  have hends : (exactly text).ends m = [m.skip text.toList rest] := by
    unfold exactly
    generalize text.toList = letters at hafter
    induction letters generalizing m with
    | nil =>
      have hm : m.skip [] rest = m := Cursor.skip_nil hafter
      have hempty : m.walk (fun _ => false) m.after = [m] := by
        cases m.after <;> rfl
      rw [List.foldr_nil, empty, ends, hempty, hm]
      rfl
    | cons c letters ih =>
      rw [List.foldr_cons, ends_chr_seq hafter (decide_eq_true rfl), ih rfl, Cursor.skip_skip]
      rfl
  rw [ends, hends, List.flatMap_singleton]

/-- Literal characters that are not there. -/
theorem ends_exactly_seq_of_not {text : String} {s : Regex} (h : ¬ text.toList <+: m.after) :
    (seq (exactly text) s).ends m = [] := by
  refine List.eq_nil_iff_forall_not_mem.mpr fun m' hmem => h ?_
  obtain ⟨m₁, h₁, -⟩ := mem_ends_seq.mp hmem
  obtain ⟨rest, hafter, -⟩ := mem_ends_exactly.mp h₁
  exact ⟨rest, hafter.symm⟩

/-- A greedy repetition before something that can always go on. -/
theorem head?_ends_many_seq {p : Char → Bool} {s : Regex} {w rest : List Char}
    (hafter : m.after = w ++ rest) (hw : ∀ c ∈ w, p c) (hrest : ∀ c ∈ rest.head?, p c = false)
    (hs : s.ends (m.skip w rest) ≠ []) :
    ((seq (many p true) s).ends m).head? = (s.ends (m.skip w rest)).head? := by
  obtain ⟨front, hwalk, -⟩ := walk_eq hafter hw hrest
  rw [ends, ends, if_pos rfl, hafter, hwalk, List.reverse_append, List.flatMap_append,
    List.reverse_singleton, List.flatMap_singleton, List.head?_append_of_ne_nil _ hs]

theorem ends_literal {same : Char → List Char} {text : String} {r : Regex} {w rest : List Char}
    (hafter : m.after = w ++ rest)
    (hw : List.Forall₂ (fun c c' => c' ∈ same c) text.toList w) :
    (literal same text r).ends m = r.ends (m.skip w rest) := by
  unfold literal
  generalize text.toList = letters at hw
  induction hw generalizing m with
  | nil => rw [List.foldr_nil, Cursor.skip_nil (show m.after = rest from hafter)]
  | cons hc hw ih =>
    rename_i c c' cs w
    have hfirst : (chr fun d => d ∈ same c).ends m = [m.skip [c'] (w ++ rest)] := by
      rw [ends, hafter]
      exact if_pos (decide_eq_true hc)
    rw [List.foldr_cons, ends, hfirst, List.flatMap_singleton, ih rfl, Cursor.skip_skip]
    rfl

/-! ## Every place of a text -/

/-- The match that is preferred at a place, if there is one. -/
def matchAt (r : Regex) (before after : List Char) : Option (Cursor × Cursor) :=
  (r.ends { before, after }).head?.map ({ before, after }, ·)

/-- The places from one on where the expression matches, each with its match. -/
def places (r : Regex) (before : List Char) : List Char → List (Cursor × Cursor)
  | [] => (r.matchAt before []).toList
  | c :: rest => (r.matchAt before (c :: rest)).toList ++ r.places (c :: before) rest

variable {r : Regex}

theorem matchAt_eq_none {before after : List Char} :
    r.matchAt before after = none ↔ r.ends { before, after } = [] := by
  rw [matchAt, Option.map_eq_none_iff, List.head?_eq_none_iff]

/-- A match at a place starts there. -/
theorem of_matchAt {before after : List Char} {m m' : Cursor}
    (h : r.matchAt before after = some (m, m')) :
    m = { before, after } ∧ m' ∈ r.ends { before, after } := by
  obtain ⟨m₁, hhead, heq⟩ := Option.map_eq_some_iff.mp h
  cases heq
  exact ⟨rfl, List.mem_of_head? hhead⟩

/-- Places without a match add nothing. -/
theorem places_append {before w rest : List Char}
    (h : ∀ v u, w = v ++ u → u ≠ [] →
      r.ends { before := v.reverse ++ before, after := u ++ rest } = []) :
    r.places before (w ++ rest) = r.places (w.reverse ++ before) rest := by
  induction w generalizing before with
  | nil => rfl
  | cons c w ih =>
    have hhere : r.matchAt before (c :: (w ++ rest)) = none :=
      matchAt_eq_none.mpr (h [] (c :: w) rfl (List.cons_ne_nil c w))
    rw [List.cons_append, places, hhere, Option.toList_none, List.nil_append,
      ih fun v u hw hu => ?_, List.reverse_cons, List.append_assoc]
    · rfl
    · have hlater := h (c :: v) u (congrArg (c :: ·) hw) hu
      rwa [List.reverse_cons, List.append_assoc] at hlater

/-- A match, and no other up to a later place. -/
theorem places_append_of_match {before w rest : List Char} {p : Cursor × Cursor} (hw : w ≠ [])
    (hp : r.matchAt before (w ++ rest) = some p)
    (h : ∀ v u, w = v ++ u → v ≠ [] → u ≠ [] →
      r.ends { before := v.reverse ++ before, after := u ++ rest } = []) :
    r.places before (w ++ rest) = p :: r.places (w.reverse ++ before) rest := by
  cases w with
  | nil => exact absurd rfl hw
  | cons c w =>
    have hlater : r.places (c :: before) (w ++ rest) =
        r.places (w.reverse ++ (c :: before)) rest := by
      refine places_append fun v u hvu hu => ?_
      have hinside := h (c :: v) u (congrArg (c :: ·) hvu) (List.cons_ne_nil c v) hu
      rwa [List.reverse_cons, List.append_assoc] at hinside
    rw [List.cons_append] at hp ⊢
    rw [places, hp, hlater, List.reverse_cons, List.append_assoc]
    rfl

/-- The places of a text end with those of what is left of it. -/
theorem places_split (before w rest : List Char) :
    ∃ front, r.places before (w ++ rest) = front ++ r.places (w.reverse ++ before) rest := by
  induction w generalizing before with
  | nil => exact ⟨[], rfl⟩
  | cons c w ih =>
    obtain ⟨front, hfront⟩ := ih (c :: before)
    refine ⟨(r.matchAt before (c :: (w ++ rest))).toList ++ front, ?_⟩
    rw [List.cons_append, places, hfront, List.append_assoc, List.reverse_cons, List.append_assoc]
    rfl

theorem searchFrom_eq_head? (before after : List Char) :
    r.searchFrom before after = (r.places before after).head? := by
  induction after generalizing before with
  | nil =>
    rw [searchFrom, places, matchAt]
    cases (r.ends { before, after := [] }).head? <;> rfl
  | cons c rest ih =>
    rw [searchFrom, places, matchAt]
    cases hends : r.ends { before, after := c :: rest } with
    | nil => exact ih (c :: before)
    | cons m' more => rfl

/-- Where the first match is: a beginning of the text has none. -/
theorem of_searchFrom {before after : List Char} {m m' : Cursor}
    (h : r.searchFrom before after = some (m, m')) :
    ∃ w rest, after = w ++ rest ∧ m = { before := w.reverse ++ before, after := rest } ∧
      (r.ends m).head? = some m' ∧
      ∀ v u, w = v ++ u → u ≠ [] →
        r.ends { before := v.reverse ++ before, after := u ++ rest } = [] := by
  induction after generalizing before with
  -- at the end of the text
  | nil =>
    obtain ⟨m₁, hhead, heq⟩ := Option.map_eq_some_iff.mp h
    cases heq
    refine ⟨[], [], rfl, rfl, hhead, fun v u hw hu => ?_⟩
    exact absurd (List.append_eq_nil_iff.mp hw.symm).2 hu
  | cons c rest ih =>
    rw [searchFrom] at h
    cases hends : r.ends { before, after := c :: rest } with
    | nil =>
      -- no match here, so the first one is further on
      rw [hends] at h
      obtain ⟨w, rest', rfl, rfl, hhead, hnone⟩ := ih h
      refine ⟨c :: w, rest', rfl, ?_, hhead, fun v u hw hu => ?_⟩
      · rw [List.reverse_cons, List.append_assoc]
        rfl
      · cases v with
        | nil =>
          rw [List.nil_append] at hw
          rw [← hw]
          exact hends
        | cons c' v =>
          cases hw
          have hlater := hnone v u rfl hu
          rw [List.reverse_cons, List.append_assoc]
          exact hlater
    | cons m₁ more =>
      rw [hends] at h
      cases h
      -- the match is here, and nothing is before it
      refine ⟨[], c :: rest, rfl, rfl, ?_, fun v u hw hu => ?_⟩
      · rw [hends]
        rfl
      · exact absurd (List.append_eq_nil_iff.mp hw.symm).2 hu

/-- The first place with a match, after a beginning of the text without one. -/
theorem searchFrom_append {before w rest : List Char} {m' : Cursor}
    (hnone : ∀ v u, w = v ++ u → u ≠ [] →
      r.ends { before := v.reverse ++ before, after := u ++ rest } = [])
    (hhead : (r.ends { before := w.reverse ++ before, after := rest }).head? = some m') :
    r.searchFrom before (w ++ rest) =
      some ({ before := w.reverse ++ before, after := rest }, m') := by
  have hmatch : r.matchAt (w.reverse ++ before) rest =
      some ({ before := w.reverse ++ before, after := rest }, m') := by
    rw [matchAt, hhead]
    rfl
  rw [searchFrom_eq_head?, places_append hnone]
  cases rest with
  | nil =>
    rw [places, hmatch]
    rfl
  | cons c rest =>
    rw [places, hmatch]
    rfl

/-- A text without a place has no match. -/
theorem searchFrom_eq_none {before after : List Char}
    (hnone : ∀ v u, after = v ++ u → r.ends { before := v.reverse ++ before, after := u } = []) :
    r.searchFrom before after = none := by
  cases hsearch : r.searchFrom before after with
  | none => rfl
  | some found =>
    rcases found with ⟨m, m'⟩
    obtain ⟨v, u, hvu, rfl, hhead, -⟩ := of_searchFrom hsearch
    rw [hnone v u hvu] at hhead
    cases hhead

/-- Every match is longer than nothing, and no other starts within it. -/
def Apart (r : Regex) : Prop :=
  ∀ m m', m' ∈ r.ends m → m'.after.length < m.after.length ∧
    ∀ w rest, w ≠ [] → m.after = w ++ rest → m'.after.length < rest.length →
      r.ends { before := w.reverse ++ m.before, after := rest } = []

/-- Where matches are apart, `finditer` finds every place. -/
theorem findFrom_eq_places (hr : r.Apart) {fuel : Nat} {before after : List Char}
    (hfuel : after.length < fuel) : r.findFrom fuel before after = r.places before after := by
  induction fuel generalizing before after with
  | zero => exact absurd hfuel (Nat.not_lt_zero _)
  | succ fuel ih =>
    rw [findFrom]
    cases hsearch : r.searchFrom before after with
    | none =>
      rw [searchFrom_eq_head?, List.head?_eq_none_iff] at hsearch
      exact hsearch.symm
    | some found =>
      rcases found with ⟨m, m'⟩
      obtain ⟨w, rest, rfl, rfl, hhead, hnone⟩ := of_searchFrom hsearch
      have hmem := List.mem_of_head? hhead
      obtain ⟨hshorter, hapart⟩ := hr _ _ hmem
      obtain ⟨v, hafter, hbefore⟩ := moves_of_mem_ends hmem
      dsimp only at hafter hbefore hshorter hapart ⊢
      rw [if_pos hshorter, places_append hnone]
      have hnext : m'.after.length < fuel := by
        rw [List.length_append] at hfuel
        omega
      rw [ih hnext]
      cases v with
      | nil =>
        rw [hafter, List.nil_append] at hshorter
        exact absurd hshorter (Nat.lt_irrefl _)
      | cons c v =>
        -- the places inside the match have none
        rw [List.cons_append] at hafter
        subst hafter
        have hfirst : r.matchAt (w.reverse ++ before) (c :: (v ++ m'.after)) =
            some ({ before := w.reverse ++ before, after := c :: (v ++ m'.after) }, m') := by
          rw [matchAt, hhead]
          rfl
        rw [places, hfirst, places_append fun u u' hv hu' => ?_, hbefore, List.reverse_cons,
          List.append_assoc]
        · rfl
        · have hinside := hapart (c :: u) (u' ++ m'.after) (List.cons_ne_nil c u) ?_ ?_
          · rwa [List.reverse_cons, List.append_assoc] at hinside
          · rw [hv, List.cons_append, List.append_assoc]
          · have := List.length_pos_iff.mpr hu'
            rw [List.length_append]
            omega

theorem findIter_eq_places (hr : r.Apart) (text : String) :
    r.findIter text = r.places [] text.toList :=
  findFrom_eq_places hr (Nat.lt_succ_self _)

end Regex

end Text
