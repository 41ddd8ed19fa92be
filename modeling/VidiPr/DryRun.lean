import Mathlib.Data.Nat.Digits.Lemmas
import VidiPr.Errors
import VidiPr.Lib.Lines
import VidiPr.Lib.Unicode

/-!
# Pull request references

`parse_pr_url` of `dryrun.py`, with its two patterns, beside the grammar of the references it
reads. A pattern has its named groups where the source has them; as a cursor carries one group,
`named` captures the part that is asked for.

* **`parsePrUrl_of_reference`** — a URL or a short form is read for what it says.
* **`parsePrUrl_of_none`** — a text without a reference is refused.
-/

namespace VidiPr

open Text Regex

/-- The decimal digits of the Unicode database, which are the class `\d` and what `int` reads. -/
class DecimalDb where
  digit : Char → Option Nat
  digit_lt : ∀ {c d}, digit c = some d → d < 10
  /-- Of the ASCII characters, `0` to `9`. -/
  digit_ascii : ∀ c : Char, c.toNat < 128 →
    digit c = if c.isDigit then some (c.toNat - 48) else none

/-- A build that knows ASCII only. -/
@[reducible] def asciiDecimals : DecimalDb where
  digit c := if c.isDigit then some (c.toNat - 48) else none
  digit_lt := by
    intro c d h
    split at h
    · rename_i hc
      obtain ⟨-, hle⟩ := Char.isDigit_iff_toNat.mp hc
      have hnine : '9'.toNat = 57 := rfl
      cases h
      omega
    · cases h
  digit_ascii _ _ := rfl

/-! ## The patterns -/

/-- `[^/\s]` -/
def isSegmentChar (c : Char) : Bool := c ≠ '/' && !isSpace c

/-- `[^/#\s]` -/
def isShortRepoChar (c : Char) : Bool := isSegmentChar c && c ≠ '#'

inductive PrPart where
  | owner
  | repo
  | number
deriving DecidableEq, Repr

/-- `(?P<part>r)`, where `wanted` is read. -/
def named (wanted part : PrPart) (r : Regex) : Regex := if part = wanted then group r else r

section Patterns

variable [DecimalDb]

/-- `\d` -/
def isDecimal (c : Char) : Bool := (DecimalDb.digit c).isSome

/-- `_PR_URL_RE` -/
def prUrlRe (wanted : PrPart) : Regex :=
  seq (exactly "github.com") <| seq (chr fun c => c = '/' || c = ':') <|
    seq (named wanted .owner (some' isSegmentChar)) <| seq (chr fun c => c = '/') <|
    seq (named wanted .repo (some' isSegmentChar)) <| seq (exactly "/pull/") <|
    named wanted .number (some' isDecimal)

/-- `_PR_SHORT_RE` without its anchors. -/
def prShortRe (wanted : PrPart) : Regex :=
  seq (named wanted .owner (some' isSegmentChar)) <| seq (chr fun c => c = '/') <|
    seq (named wanted .repo (some' isShortRepoChar)) <| seq (chr fun c => c = '#') <|
    named wanted .number (some' isDecimal)

/-- `$` without `re.MULTILINE`: the end of the text, or a newline that ends it. -/
def atTextEnd (m : Cursor) : Bool := m.after = [] || m.after = ['\n']

/-- `_PR_URL_RE.search(text) or _PR_SHORT_RE.match(text)` -/
def prMatch (text : List Char) (wanted : PrPart) : Option Cursor :=
  (((prUrlRe wanted).searchFrom [] text).map (·.2)).or
    (((prShortRe wanted).ends (Cursor.start text)).find? atTextEnd)

/-- `int(digits)`, which refuses a text of more than 4300 digits. -/
def pyInt (digits : List Char) : Except PyError Nat :=
  if 4300 < digits.length then
    throw (.valueError ("Exceeds the limit (4300 digits) for integer string conversion: value has "
      ++ s!"{digits.length} digits; use sys.set_int_max_str_digits() to increase the limit"))
  else pure (digits.foldl (fun n c => 10 * n + (DecimalDb.digit c).getD 0) 0)

variable [UnicodeDb]

/-- The `DryRunError` of `parse_pr_url`. -/
def noReference (value : String) : PyError :=
  .other (s!"could not parse a PR reference from {Text.repr value}; expected a URL like "
    ++ "https://github.com/owner/repo/pull/123 or owner/repo#123")

def parsePrUrl (value : String) : Except PyError (String × Nat) :=
  let text := stripChars value.toList
  let part (wanted : PrPart) := (prMatch text wanted).bind (·.group)
  match part .owner, part .repo, part .number with
  | some owner, some repo, some digits => do
    let number ← pyInt digits
    return (String.ofList (owner ++ '/' :: repo), number)
  | _, _, _ => throw (noReference value)

end Patterns

/-! ## References -/

/-- A reference to a pull request: an owner and a repository without slashes or whitespace, and
the digits of a number. -/
structure PrReference [DecimalDb] where
  owner : List Char
  repo : List Char
  digits : List Char
  owner_ne_nil : owner ≠ []
  owner_segment : ∀ c ∈ owner, isSegmentChar c
  repo_ne_nil : repo ≠ []
  repo_segment : ∀ c ∈ repo, isSegmentChar c
  digits_ne_nil : digits ≠ []
  digits_decimal : ∀ c ∈ digits, isDecimal c

/-- A URL scheme: a letter, then letters, digits, `+`, `-` and `.`. -/
def IsScheme (scheme : List Char) : Prop :=
  (∃ c ∈ scheme.head?, c.isAlpha) ∧
    ∀ c ∈ scheme, c.isAlphanum ∨ c = '+' ∨ c = '-' ∨ c = '.'

/-- What may follow the number in a URL: nothing, or more of the path, a query or a fragment. -/
def IsUrlSuffix (suffix : List Char) : Prop :=
  ∀ c ∈ suffix.head?, c = '/' ∨ c = '?' ∨ c = '#'

namespace PrReference

variable [DecimalDb] (ref : PrReference)

/-- `owner/repo` -/
def name : String := String.ofList (ref.owner ++ '/' :: ref.repo)

/-- The number its digits write in base ten. -/
def number : Nat := Nat.ofDigits 10 (ref.digits.reverse.map fun c => (DecimalDb.digit c).getD 0)

/-- `owner/repo/pull/N` -/
def path : List Char := ref.owner ++ '/' :: (ref.repo ++ ("/pull/".toList ++ ref.digits))

/-- `owner/repo#N` -/
def short : List Char := ref.owner ++ '/' :: (ref.repo ++ '#' :: ref.digits)

/-- The text is a URL for the reference whose host is `github.com`, with `sep` behind the host. -/
def IsUrl (sep : Char) (text : List Char) : Prop :=
  ∃ scheme suffix, (scheme = [] ∨ ∃ s, IsScheme s ∧ scheme = s ++ "://".toList) ∧
    IsUrlSuffix suffix ∧ text = scheme ++ ("github.com".toList ++ sep :: (ref.path ++ suffix))

/-- Somewhere in the text stands `github.com`, a separator and the path. -/
def Within (text : List Char) : Prop :=
  ∃ before sep after, (sep = '/' ∨ sep = ':') ∧
    text = before ++ ("github.com".toList ++ sep :: (ref.path ++ after))

/-- The text is the short form, of a repository without `#`. -/
def IsShort (text : List Char) : Prop := text = ref.short ∧ '#' ∉ ref.repo

end PrReference

/-! ## What a pattern captures -/

section Matching

variable {wanted which : PrPart} {m m' : Cursor}

/-- The place behind a part of a reference. -/
def passed (wanted which : PrPart) (m : Cursor) (w rest : List Char) : Cursor :=
  if which = wanted then { m.skip w rest with group := some w } else m.skip w rest

@[simp] theorem passed_after (w rest : List Char) :
    (passed wanted which m w rest).after = rest := by
  unfold passed
  split <;> rfl

theorem ends_named_seq {p : Char → Bool} {s : Regex} {w rest : List Char}
    (hafter : m.after = w ++ rest) (hne : w ≠ []) (hw : ∀ c ∈ w, p c)
    (hrest : ∀ c ∈ rest.head?, p c = false)
    (hs : ∀ (m : Cursor) c after, m.after = c :: after → p c → s.ends m = []) :
    (seq (named wanted which (some' p)) s).ends m = s.ends (passed wanted which m w rest) := by
  unfold named passed
  split
  · exact ends_group_some'_seq hafter hne hw hrest hs
  · exact ends_some'_seq hafter hne hw hrest hs

theorem head?_ends_named {p : Char → Bool} {w rest : List Char} (hafter : m.after = w ++ rest)
    (hne : w ≠ []) (hw : ∀ c ∈ w, p c) (hrest : ∀ c ∈ rest.head?, p c = false) :
    ((named wanted which (some' p)).ends m).head? = some (passed wanted which m w rest) := by
  obtain ⟨shorter, hends, -⟩ := exists_ends_some' hafter hne hw hrest
  unfold named passed
  split
  · have hcaptured : m.upTo (m.skip w rest) = w := Cursor.upTo_of_before rfl
    rw [ends, hends, List.map_cons, hcaptured]
    rfl
  · rw [hends]
    rfl

/-- A capture leaves the cursor where the part does. -/
theorem exists_of_mem_named {p : Char → Bool} (h : m' ∈ (named wanted which (some' p)).ends m) :
    ∃ w, m.after = w ++ m'.after ∧ w ≠ [] ∧ ∀ c ∈ w, p c := by
  unfold named at h
  split at h
  · obtain ⟨m₁, h₁, rfl⟩ := mem_ends_group.mp h
    obtain ⟨w, rest, hafter, hne, hw, rfl⟩ := mem_ends_some'.mp h₁
    exact ⟨w, hafter, hne, hw⟩
  · obtain ⟨w, rest, hafter, hne, hw, rfl⟩ := mem_ends_some'.mp h
    exact ⟨w, hafter, hne, hw⟩

theorem not_isSegmentChar_slash : isSegmentChar '/' = false := by decide

theorem not_isShortRepoChar_hash : isShortRepoChar '#' = false := by decide

theorem ne_slash_of_segment {c : Char} (h : isSegmentChar c) : c ≠ '/' := by
  rintro rfl
  exact absurd h (by decide)

variable [DecimalDb]

theorem isDecimal_ascii {c : Char} (hc : c.toNat < 128) : isDecimal c = c.isDigit := by
  rw [isDecimal, DecimalDb.digit_ascii c hc]
  cases c.isDigit <;> rfl

theorem IsUrlSuffix.not_decimal {suffix : List Char} (h : IsUrlSuffix suffix) :
    ∀ c ∈ suffix.head?, isDecimal c = false := by
  intro c hc
  rcases h c hc with rfl | rfl | rfl
  · exact isDecimal_ascii (by decide)
  · exact isDecimal_ascii (by decide)
  · exact isDecimal_ascii (by decide)

namespace PrReference

variable (ref : PrReference)

/-- The part a group captures. -/
def part : PrPart → List Char
  | .owner => ref.owner
  | .repo => ref.repo
  | .number => ref.digits

/-- At the host of a URL, the pattern captures the parts of the reference. No part can be shorter:
what follows it, a slash or the end of the digits, is nothing the part before it could take. -/
theorem head?_ends_prUrlRe (wanted : PrPart) {sep : Char} {rest : List Char}
    (hsep : sep = '/' ∨ sep = ':')
    (hafter : m.after = "github.com".toList ++ sep :: (ref.path ++ rest))
    (hrest : ∀ c ∈ rest.head?, isDecimal c = false) :
    ∃ m', ((prUrlRe wanted).ends m).head? = some m' ∧ m'.group = some (ref.part wanted) := by
  have hpath : ref.path ++ rest =
      ref.owner ++ '/' :: (ref.repo ++ ("/pull/".toList ++ (ref.digits ++ rest))) := by
    simp only [path, List.append_assoc, List.cons_append]
  have hsepMatch : (decide (sep = '/') || decide (sep = ':')) = true := by
    rcases hsep with rfl | rfl <;> rfl
  rw [hpath] at hafter
  -- piece by piece: the host, the separator, owner, repository and number
  rw [prUrlRe, ends_exactly_seq hafter, ends_chr_seq rfl hsepMatch,
    ends_named_seq rfl ref.owner_ne_nil ref.owner_segment, ends_chr_seq (passed_after _ _),
    ends_named_seq rfl ref.repo_ne_nil ref.repo_segment, ends_exactly_seq (passed_after _ _),
    head?_ends_named rfl ref.digits_ne_nil ref.digits_decimal hrest]
  · refine ⟨_, rfl, ?_⟩
    cases wanted <;> rfl
  · -- a slash ends the owner, and the repository below
    rintro c hc
    cases hc
    exact not_isSegmentChar_slash
  · intro m c after hc hp
    refine ends_exactly_seq_of_not fun hprefix => ne_slash_of_segment hp ?_
    rw [hc] at hprefix
    exact (List.cons_prefix_cons.mp hprefix).1.symm
  · rfl
  · rintro c hc
    cases hc
    exact not_isSegmentChar_slash
  · intro m c after hc hp
    exact ends_chr_seq_of_not hc (decide_eq_false (ne_slash_of_segment hp))

/-- What the pattern for URLs matches holds a reference. -/
theorem exists_of_mem_prUrlRe (h : m' ∈ (prUrlRe wanted).ends m) :
    ∃ ref : PrReference, ∃ sep, (sep = '/' ∨ sep = ':') ∧
      m.after = "github.com".toList ++ sep :: (ref.path ++ m'.after) := by
  obtain ⟨m₁, h₁, h⟩ := mem_ends_seq.mp h
  obtain ⟨r₁, hhost, rfl⟩ := mem_ends_exactly.mp h₁
  obtain ⟨m₂, h₂, h⟩ := mem_ends_seq.mp h
  obtain ⟨sep, r₂, hr₁, hsep, rfl⟩ := mem_ends_chr.mp h₂
  obtain ⟨m₃, h₃, h⟩ := mem_ends_seq.mp h
  obtain ⟨owner, hr₂, howner, hownerChars⟩ := exists_of_mem_named h₃
  obtain ⟨m₄, h₄, h⟩ := mem_ends_seq.mp h
  obtain ⟨slash, r₄, hr₃, hslash, rfl⟩ := mem_ends_chr.mp h₄
  obtain rfl : slash = '/' := of_decide_eq_true hslash
  obtain ⟨m₅, h₅, h⟩ := mem_ends_seq.mp h
  obtain ⟨repo, hr₄, hrepo, hrepoChars⟩ := exists_of_mem_named h₅
  obtain ⟨m₆, h₆, h⟩ := mem_ends_seq.mp h
  obtain ⟨r₆, hr₅, rfl⟩ := mem_ends_exactly.mp h₆
  obtain ⟨digits, hr₆, hdigits, hdigitChars⟩ := exists_of_mem_named h
  refine ⟨⟨owner, repo, digits, howner, hownerChars, hrepo, hrepoChars, hdigits, hdigitChars⟩,
    sep, ?_, ?_⟩
  · simpa using hsep
  · simp only [Cursor.skip_after] at hr₁ hr₂ hr₄ hr₆
    rw [hhost, hr₁, hr₂, hr₃, hr₄, hr₅, hr₆]
    simp only [path, List.append_assoc, List.cons_append]

/-- No match starts before the host of a URL. The pattern begins with `github.com`, which may stand
in a scheme too, but there the `://` after it is more than the one separator before the path. -/
theorem ends_prUrlRe_eq_nil {scheme v u rest : List Char} (hscheme : IsScheme scheme)
    (h : scheme ++ "://".toList = v ++ u) (hu : u ≠ []) (hafter : m.after = u ++ rest) :
    (prUrlRe wanted).ends m = [] := by
  refine List.eq_nil_iff_forall_not_mem.mpr fun m' hmem => ?_
  obtain ⟨ref, sep, hsep, hm⟩ := exists_of_mem_prUrlRe hmem
  rw [hafter] at hm
  rcases List.append_eq_append_iff.mp h with ⟨w, -, hw⟩ | ⟨w, hw, rfl⟩
  · -- the match would start in `://`
    cases u with
    | nil => exact hu rfl
    | cons c u =>
      obtain ⟨rfl, -⟩ := List.cons_eq_cons.mp hm
      have hmem : 'g' ∈ "://".toList := by
        rw [hw]
        exact List.mem_append_right w List.mem_cons_self
      exact absurd hmem (by decide)
  · -- the match would start in the scheme, so the host is followed by `//`
    let isSep (c : Char) : Bool := c = '/' || c = ':'
    have hw : ∀ c ∈ w, isSep c = false := by
      intro c hc
      rcases hscheme.2 c (by rw [hw]; exact List.mem_append_right v hc) with hc | rfl | rfl | rfl
      · by_contra hne
        simp only [isSep, Bool.not_eq_false, Bool.or_eq_true, decide_eq_true_eq] at hne
        rcases hne with rfl | rfl <;> exact absurd hc (by decide)
      all_goals decide
    have hcut : w ++ ':' :: ('/' :: '/' :: rest) =
        "github.com".toList ++ sep :: (ref.path ++ m'.after) := by
      rw [← hm, List.append_assoc]
      rfl
    have hhost : ∀ c ∈ "github.com".toList, isSep c = false := forall_eq_false_of_any (by decide)
    have hsep' : isSep sep = true := by
      rcases hsep with rfl | rfl <;> rfl
    obtain ⟨-, -, hpath⟩ := append_cons_inj (p := isSep) hcut hw hhost rfl hsep'
    obtain ⟨c, owner, howner⟩ := List.exists_cons_of_ne_nil ref.owner_ne_nil
    have hc : isSegmentChar c := ref.owner_segment c (by rw [howner]; exact List.mem_cons_self)
    rw [path, howner] at hpath
    exact ne_slash_of_segment hc (List.cons_eq_cons.mp hpath).1.symm

/-- The pattern for URLs finds the reference of a URL. -/
theorem IsUrl.search (wanted : PrPart) {ref : PrReference} {sep : Char} {text : List Char}
    (hsep : sep = '/' ∨ sep = ':') (h : ref.IsUrl sep text) :
    ∃ m', ((prUrlRe wanted).searchFrom [] text).map (·.2) = some m' ∧
      m'.group = some (ref.part wanted) := by
  obtain ⟨scheme, suffix, hscheme, hsuffix, rfl⟩ := h
  obtain ⟨m', hhead, hgroup⟩ := ref.head?_ends_prUrlRe wanted
    (m := { before := scheme.reverse ++ [],
            after := "github.com".toList ++ sep :: (ref.path ++ suffix) }) hsep rfl
    hsuffix.not_decimal
  refine ⟨m', ?_, hgroup⟩
  rw [searchFrom_append (fun v u hvu hu => ?_) hhead]
  · rfl
  · rcases hscheme with rfl | ⟨s, hs, rfl⟩
    · exact absurd (List.append_eq_nil_iff.mp hvu.symm).2 hu
    · exact ends_prUrlRe_eq_nil hs hvu hu rfl

/-- A text without a reference behind the host has no match. -/
theorem search_eq_none {text : List Char} (h : ∀ ref : PrReference, ¬ ref.Within text) :
    (prUrlRe wanted).searchFrom [] text = none := by
  refine searchFrom_eq_none fun v u hvu => ?_
  refine List.eq_nil_iff_forall_not_mem.mpr fun m' hmem => ?_
  obtain ⟨ref, sep, hsep, hu⟩ := exists_of_mem_prUrlRe hmem
  have hu : u = "github.com".toList ++ sep :: (ref.path ++ m'.after) := hu
  exact h ref ⟨v, sep, m'.after, hsep, by rw [hvu, hu]⟩

/-! ### The short form -/

omit [DecimalDb] in
theorem count_slash_segment {w : List Char} (hw : ∀ c ∈ w, isSegmentChar c) : w.count '/' = 0 :=
  List.count_eq_zero.mpr fun h => ne_slash_of_segment (hw _ h) rfl

theorem count_slash_digits : ref.digits.count '/' = 0 := by
  refine List.count_eq_zero.mpr fun h => ?_
  have hslash : isDecimal '/' = false := isDecimal_ascii (by decide)
  exact absurd (ref.digits_decimal _ h) (ne_true_of_eq_false hslash)

theorem count_slash_short : ref.short.count '/' = 1 := by
  rw [short, List.count_append, count_slash_segment ref.owner_segment, List.count_cons,
    List.count_append, count_slash_segment ref.repo_segment, List.count_cons,
    count_slash_digits]
  rfl

theorem count_slash_path : ref.path.count '/' = 3 := by
  rw [path, List.count_append, count_slash_segment ref.owner_segment, List.count_cons,
    List.count_append, count_slash_segment ref.repo_segment, List.count_append,
    count_slash_digits]
  rfl

/-- A short form has too few slashes for the pattern for URLs. -/
theorem IsShort.not_within {ref ref' : PrReference} {text : List Char} (h : ref.IsShort text) :
    ¬ ref'.Within text := by
  rintro ⟨before, sep, after, -, htext⟩
  have hone : text.count '/' = 1 := by
    rw [h.1, count_slash_short]
  rw [htext] at hone
  simp only [List.count_append, List.count_cons, count_slash_path] at hone
  omega

theorem shortRepo_of_short (h : '#' ∉ ref.repo) : ∀ c ∈ ref.repo, isShortRepoChar c := by
  intro c hc
  have hne : c ≠ '#' := by
    rintro rfl
    exact h hc
  rw [isShortRepoChar, ref.repo_segment c hc, Bool.true_and]
  exact decide_eq_true hne

/-- The anchored pattern captures the parts of a short form. -/
theorem IsShort.find (wanted : PrPart) {ref : PrReference} {text : List Char}
    (h : ref.IsShort text) :
    ∃ m', ((prShortRe wanted).ends (Cursor.start text)).find? atTextEnd = some m' ∧
      m'.group = some (ref.part wanted) := by
  obtain ⟨rfl, hrepo⟩ := h
  have hhead : ∃ m', ((prShortRe wanted).ends (Cursor.start ref.short)).head? = some m' ∧
      m'.after = [] ∧ m'.group = some (ref.part wanted) := by
    have hdigits : ref.digits = ref.digits ++ [] := (List.append_nil _).symm
    -- piece by piece: owner, slash, repository, `#` and the number
    rw [prShortRe, ends_named_seq rfl ref.owner_ne_nil ref.owner_segment,
      ends_chr_seq (passed_after _ _) (decide_eq_true rfl),
      ends_named_seq rfl ref.repo_ne_nil (ref.shortRepo_of_short hrepo),
      ends_chr_seq (passed_after _ _) (decide_eq_true rfl),
      head?_ends_named hdigits ref.digits_ne_nil ref.digits_decimal (by simp)]
    · refine ⟨_, rfl, passed_after _ _, ?_⟩
      cases wanted <;> rfl
    · rintro c hc
      cases hc
      exact not_isShortRepoChar_hash
    · intro m c after hc hp
      refine ends_chr_seq_of_not hc (decide_eq_false ?_)
      rintro rfl
      exact absurd hp (ne_true_of_eq_false not_isShortRepoChar_hash)
    · rintro c hc
      cases hc
      exact not_isSegmentChar_slash
    · intro m c after hc hp
      exact ends_chr_seq_of_not hc (decide_eq_false (ne_slash_of_segment hp))
  obtain ⟨m', hm', hafter, hgroup⟩ := hhead
  refine ⟨m', ?_, hgroup⟩
  obtain ⟨others, hends⟩ := List.head?_eq_some_iff.mp hm'
  rw [hends, List.find?_cons_of_pos]
  rw [atTextEnd, hafter]
  rfl

/-- What the anchored pattern matches in a stripped text is a short form. -/
theorem exists_of_find {value : List Char}
    (h : ((prShortRe wanted).ends (Cursor.start (stripChars value))).find? atTextEnd = some m') :
    ∃ ref : PrReference, ref.IsShort (stripChars value) := by
  have hend := List.find?_some h
  obtain ⟨m₁, h₁, h⟩ := mem_ends_seq.mp (List.mem_of_find?_eq_some h)
  obtain ⟨owner, htext, howner, hownerChars⟩ := exists_of_mem_named h₁
  obtain ⟨m₂, h₂, h⟩ := mem_ends_seq.mp h
  obtain ⟨slash, r₂, hr₁, hslash, rfl⟩ := mem_ends_chr.mp h₂
  obtain rfl : slash = '/' := of_decide_eq_true hslash
  obtain ⟨m₃, h₃, h⟩ := mem_ends_seq.mp h
  obtain ⟨repo, hr₂, hrepo, hrepoChars⟩ := exists_of_mem_named h₃
  obtain ⟨m₄, h₄, h⟩ := mem_ends_seq.mp h
  obtain ⟨hash, r₄, hr₃, hhash, rfl⟩ := mem_ends_chr.mp h₄
  obtain rfl : hash = '#' := of_decide_eq_true hhash
  obtain ⟨digits, hr₄, hdigits, hdigitChars⟩ := exists_of_mem_named h
  simp only [Cursor.skip_after, Cursor.start] at htext hr₂ hr₄
  rw [hr₁, hr₂, hr₃, hr₄] at htext
  have hsegment : ∀ c ∈ repo, isSegmentChar c := fun c hc =>
    (Bool.and_eq_true_iff.mp (hrepoChars c hc)).1
  have hhash : '#' ∉ repo := fun hmem =>
    absurd (hrepoChars _ hmem) (ne_true_of_eq_false not_isShortRepoChar_hash)
  refine ⟨⟨owner, repo, digits, howner, hownerChars, hrepo, hsegment, hdigits, hdigitChars⟩, ?_,
    hhash⟩
  -- a stripped text does not end with a newline
  have hlast : m'.after = [] := by
    rcases Bool.or_eq_true_iff.mp hend with hnil | hnewline
    · exact of_decide_eq_true hnil
    · rw [of_decide_eq_true hnewline] at htext
      have hspace : isSpace '\n' = false := by
        refine getLast?_stripChars value '\n' ?_
        have hconcat : owner ++ '/' :: (repo ++ '#' :: (digits ++ ['\n'])) =
            (owner ++ '/' :: (repo ++ '#' :: digits)) ++ ['\n'] := by
          simp only [List.append_assoc, List.cons_append]
        rw [htext, hconcat, List.getLast?_concat]
        rfl
      exact absurd hspace (by decide)
  rw [htext, hlast, List.append_nil]
  rfl

end PrReference

end Matching

/-! ## Reading a reference -/

section Reading

variable [DecimalDb] [UnicodeDb] {value : String} (ref : PrReference)

omit [UnicodeDb] in
/-- `int` of the digits is the number they write. -/
theorem pyInt_digits : pyInt ref.digits =
    if 4300 < ref.digits.length then
      .error (.valueError ("Exceeds the limit (4300 digits) for integer string conversion: value has "
        ++ s!"{ref.digits.length} digits; use sys.set_int_max_str_digits() to increase the limit"))
    else .ok ref.number := by
  have hnumber (digits : List Char) :
      digits.foldl (fun n c => 10 * n + (DecimalDb.digit c).getD 0) 0 =
        Nat.ofDigits 10 (digits.reverse.map fun c => (DecimalDb.digit c).getD 0) := by
    induction digits using List.reverseRecOn with
    | nil => rfl
    | append_singleton digits c ih =>
      rw [List.foldl_append, List.foldl_cons, List.foldl_nil, ih, List.reverse_append,
        List.reverse_singleton, List.singleton_append, List.map_cons, Nat.ofDigits_cons,
        Nat.add_comm]
  rw [pyInt, hnumber]
  rfl

/-- Where the patterns capture the parts of a reference, it is read. -/
theorem parsePrUrl_of_captures
    (h : ∀ wanted, ∃ m', prMatch (stripChars value.toList) wanted = some m' ∧
      m'.group = some (ref.part wanted)) :
    parsePrUrl value = (pyInt ref.digits).map fun number => (ref.name, number) := by
  have hpart (wanted : PrPart) :
      (prMatch (stripChars value.toList) wanted).bind (·.group) = some (ref.part wanted) := by
    obtain ⟨m', hmatch, hgroup⟩ := h wanted
    rw [hmatch]
    exact hgroup
  rw [parsePrUrl]
  simp only [hpart]
  rfl

/-- A URL or a short form is read for what it says. -/
theorem parsePrUrl_of_reference
    (h : (∃ sep, (sep = '/' ∨ sep = ':') ∧ ref.IsUrl sep (stripChars value.toList)) ∨
      ref.IsShort (stripChars value.toList)) :
    parsePrUrl value = (pyInt ref.digits).map fun number => (ref.name, number) := by
  refine parsePrUrl_of_captures ref fun wanted => ?_
  rcases h with ⟨sep, hsep, hurl⟩ | hshort
  · obtain ⟨m', hsearch, hgroup⟩ := hurl.search wanted hsep
    refine ⟨m', ?_, hgroup⟩
    rw [prMatch, hsearch]
    rfl
  · obtain ⟨m', hfind, hgroup⟩ := hshort.find wanted
    refine ⟨m', ?_, hgroup⟩
    rw [prMatch, PrReference.search_eq_none fun ref' => hshort.not_within, hfind]
    rfl

/-- A text without a reference is refused. -/
theorem parsePrUrl_of_none
    (hurl : ∀ ref : PrReference, ¬ ref.Within (stripChars value.toList))
    (hshort : ∀ ref : PrReference, ¬ ref.IsShort (stripChars value.toList)) :
    parsePrUrl value = .error (noReference value) := by
  have hmatch (wanted : PrPart) : prMatch (stripChars value.toList) wanted = none := by
    rw [prMatch, PrReference.search_eq_none hurl]
    refine List.find?_eq_none.mpr fun m' hmem hend => ?_
    cases hfind : ((prShortRe wanted).ends (Cursor.start (stripChars value.toList))).find?
        atTextEnd with
    | none => exact List.find?_eq_none.mp hfind m' hmem hend
    | some m₁ =>
      obtain ⟨ref, href⟩ := PrReference.exists_of_find hfind
      exact hshort ref href
  rw [parsePrUrl]
  simp only [hmatch]
  rfl

/-- `parse_pr_url` reads every URL of `github.com` and every short form for what it says, up to the
digits `int` takes, and refuses a text without a reference. -/
theorem parse_pr_url_grammar (value : String) :
    (∀ ref : PrReference,
      ((∃ sep, (sep = '/' ∨ sep = ':') ∧ ref.IsUrl sep (stripChars value.toList)) ∨
        ref.IsShort (stripChars value.toList)) →
      (ref.digits.length ≤ 4300 → parsePrUrl value = .ok (ref.name, ref.number)) ∧
      (4300 < ref.digits.length → ∃ message, parsePrUrl value = .error (.valueError message))) ∧
    ((∀ ref : PrReference, ¬ ref.Within (stripChars value.toList)) →
      (∀ ref : PrReference, ¬ ref.IsShort (stripChars value.toList)) →
      parsePrUrl value = .error (noReference value)) := by
  refine ⟨fun ref href => ?_, parsePrUrl_of_none⟩
  rw [parsePrUrl_of_reference ref href, pyInt_digits]
  constructor
  · intro hlength
    rw [if_neg (Nat.not_lt.mpr hlength)]
    rfl
  · intro hlength
    rw [if_pos hlength]
    exact ⟨_, rfl⟩

end Reading

section Examples

attribute [local instance] asciiDb asciiDecimals

example : parsePrUrl "  https://github.com/o/r/pull/42#discussion  " = .ok ("o/r", 42) := by
  decide +kernel

/-- `o/r#1` -/
def firstPull : PrReference where
  owner := ['o']
  repo := ['r']
  digits := ['1']
  owner_ne_nil := by decide
  owner_segment := List.all_eq_true.mp rfl
  repo_ne_nil := by decide
  repo_segment := List.all_eq_true.mp rfl
  digits_ne_nil := by decide
  digits_decimal := List.all_eq_true.mp rfl

/-- A short form inside whitespace, and a text without a number. -/
theorem parse_pr_url_grammar_short :
    parsePrUrl " o/r#1" = .ok ("o/r", 1) ∧
      parsePrUrl "o/r" = .error (noReference "o/r") := by
  have hshort : firstPull.IsShort (stripChars " o/r#1".toList) := ⟨by decide, by decide⟩
  have hone : (stripChars "o/r".toList).count '/' = 1 := by decide
  refine ⟨((parse_pr_url_grammar " o/r#1").1 firstPull (.inr hshort)).1 (by decide),
    (parse_pr_url_grammar "o/r").2 ?_ ?_⟩
  · rintro ref ⟨before, sep, after, -, htext⟩
    rw [htext] at hone
    simp only [List.count_append, List.count_cons, PrReference.count_slash_path] at hone
    omega
  · rintro ref ⟨htext, -⟩
    have hhash : '#' ∉ stripChars "o/r".toList := by decide
    rw [htext] at hhash
    exact hhash (by simp [PrReference.short])

/-- A short form with too long a number. -/
theorem exists_too_long {n : Nat} (hn : 4300 < n) : ∃ value message,
    parsePrUrl value = .error (.valueError message) ∧
      ∃ ref : PrReference, stripChars value.toList = ref.short := by
  have hne : List.replicate n '1' ≠ [] := by
    intro h
    rw [List.replicate_eq_nil_iff] at h
    omega
  have hdecimal : ∀ c ∈ List.replicate n '1', isDecimal c := by
    intro c hc
    rw [List.eq_of_mem_replicate hc]
    decide
  -- a number of as many ones
  let ref : PrReference :=
    { firstPull with
      digits := List.replicate n '1', digits_ne_nil := hne, digits_decimal := hdecimal }
  have hstrip : stripChars (String.ofList ref.short).toList = ref.short := by
    rw [String.toList_ofList]
    refine stripChars_eq_self ?_ ?_
    · rintro c hc
      cases hc
      decide
    · intro c hc
      have hlast : c ∈ ref.digits.getLast? := by
        have hshort : ref.short = ['o', '/', 'r', '#'] ++ ref.digits := rfl
        rwa [hshort, List.getLast?_append_of_ne_nil _ hne] at hc
      rw [List.eq_of_mem_replicate (List.mem_of_getLast? hlast)]
      decide
  have hhash : '#' ∉ ref.repo := (by decide : '#' ∉ ['r'])
  -- it is read as a reference, and refused by `int()` for its length
  have hread : parsePrUrl (String.ofList ref.short) = _ :=
    parsePrUrl_of_reference ref (.inr ⟨hstrip, hhash⟩)
  have hlong : 4300 < ref.digits.length := by
    rwa [List.length_replicate]
  rw [pyInt_digits, if_pos hlong] at hread
  exact ⟨_, _, hread, ref, hstrip⟩

/-- The colon of an SSH remote is accepted behind the host; a `#` in the repository of a short form
is refused, and so is a number of more than 4300 digits. -/
theorem ssh_host_accepted_hash_refused :
    (parsePrUrl "github.com:o/r/pull/7" = .ok ("o/r", 7) ∧
      ∀ ref : PrReference, ¬ ref.IsUrl '/' (stripChars "github.com:o/r/pull/7".toList) ∧
        stripChars "github.com:o/r/pull/7".toList ≠ ref.short) ∧
    (parsePrUrl "o/r#x#1" = .error (noReference "o/r#x#1") ∧
      ∃ ref : PrReference, stripChars "o/r#x#1".toList = ref.short) ∧
    ∃ value message, parsePrUrl value = .error (.valueError message) ∧
      ∃ ref : PrReference, stripChars value.toList = ref.short := by
  refine ⟨⟨by decide +kernel, fun ref => ⟨?_, ?_⟩⟩, ⟨by decide +kernel, ?_⟩, ?_⟩
  · rintro ⟨scheme, suffix, hscheme, -, htext⟩
    rcases hscheme with rfl | ⟨s, -, rfl⟩
    · exact absurd (congrArg (·[10]?) htext) (by simp; decide)
    · -- a scheme brings two more slashes than there are
      have hcount := congrArg (List.count '/') htext
      have hthree : (stripChars "github.com:o/r/pull/7".toList).count '/' = 3 := by decide
      have htwo : "://".toList.count '/' = 2 := by decide
      simp only [List.count_append, List.count_cons, hthree, htwo, ref.count_slash_path] at hcount
      omega
  · -- a short form has a `#`
    intro htext
    have hhash : '#' ∉ stripChars "github.com:o/r/pull/7".toList := by decide
    rw [htext] at hhash
    exact hhash (by simp [PrReference.short])
  · -- the repository `r#x` is one GitHub could not have, but the grammar has it
    let ref : PrReference :=
      { firstPull with
        repo := ['r', '#', 'x'], repo_ne_nil := by decide, repo_segment := List.all_eq_true.mp rfl }
    exact ⟨ref, by decide⟩
  · exact exists_too_long (Nat.lt_succ_self 4300)

end Examples

end VidiPr
