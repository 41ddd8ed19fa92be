import VidiPr.Lib.Lines
import VidiPr.Lib.Substitution
import VidiPr.Prompts.Composer

/-!
# Rendering a template

`prompts/loader.py` on the text of a template: `_PLACEHOLDER.sub` finds every placeholder first and
then puts the values in, so that the text of a value is never read as one.

* **`renderTemplateText_eq`** — a text is rendered as its parts are.
* **`placeholder_mem_split`** — the parts name every placeholder of the text, at its place.
* **`single_pass_substitution`** — the two together, and what follows for the review prompt.
-/

namespace VidiPr

open Text Regex

section Loader

variable [UnicodeDb]

/-! ## The code -/

/-- `_PLACEHOLDER`: `\{\{(\w+)\}\}` -/
def placeholderPattern : Regex :=
  .seq (.chr (· = '{')) <| .seq (.chr (· = '{')) <| .seq (.group (.some' isWord)) <|
    .seq (.chr (· = '}')) (.chr (· = '}'))

/-- `_replace` -/
def replaceMatch (values : List (String × String)) (m : Cursor) : Except PyError String :=
  let name := String.ofList (m.group.getD [])
  match values.lookup name with
  | none => .error (.templateError ("unknown template variable: " ++ name))
  | some value => .ok value

/-- `render_template`, on the text of a template. -/
def renderTemplateText (template : String) (values : List (String × String)) :
    Except PyError String :=
  placeholderPattern.sub (replaceMatch values) template

/-! ## The parts of a text -/

/-- The parts of a text from the end of the last placeholder on. -/
def partsFrom (last : Cursor) : List (Cursor × Cursor) → Template
  | [] => [.text (String.ofList last.after)]
  | (m, m') :: rest =>
    .text (String.ofList (last.upTo m)) ::
      .placeholder (String.ofList (m'.group.getD [])) :: partsFrom m' rest

/-- The parts of a text. -/
def splitTemplate (text : String) : Template :=
  partsFrom (Cursor.start text.toList) (placeholderPattern.findIter text)

/-- A text is rendered as its parts are. -/
theorem renderTemplateText_eq (text : String) (values : List (String × String)) :
    renderTemplateText text values = renderTemplate values (splitTemplate text) := by
  unfold renderTemplateText sub splitTemplate
  generalize Cursor.start text.toList = last
  induction placeholderPattern.findIter text generalizing last with
  | nil => exact (congrArg Except.ok String.append_empty).symm
  | cons found rest ih =>
    rcases found with ⟨m, m'⟩
    rw [subFrom, partsFrom, renderTemplate, renderTemplate, ih]
    unfold replaceMatch
    dsimp only
    cases values.lookup (String.ofList (m'.group.getD [])) with
    | none => rfl
    | some value => cases renderTemplate values (partsFrom m' rest) <;> rfl

/-- The text of a placeholder. -/
def placeholderText (name : List Char) : List Char := ['{', '{'] ++ (name ++ ['}', '}'])

/-- The text of a part. -/
def TemplatePart.source : TemplatePart → List Char
  | .text s => s.toList
  | .placeholder name => placeholderText name.toList

/-- The text of a template. -/
def templateSource (template : Template) : List Char := template.flatMap TemplatePart.source

/-- What may stand in a placeholder. -/
def IsName (name : List Char) : Prop := name ≠ [] ∧ ∀ c ∈ name, isWord c

theorem mem_ends_placeholder {m m' : Cursor} : m' ∈ placeholderPattern.ends m ↔
    ∃ name rest, m.after = placeholderText name ++ rest ∧ IsName name ∧
      m' = { m.skip (placeholderText name) rest with group := some name } := by
  unfold placeholderPattern
  constructor
  · intro h
    obtain ⟨m₁, h₁, t₁⟩ := mem_ends_seq.mp h
    obtain ⟨c₁, after₁, hafter₁, hc₁, rfl⟩ := mem_ends_chr.mp h₁
    obtain ⟨m₂, h₂, t₂⟩ := mem_ends_seq.mp t₁
    obtain ⟨c₂, after₂, hafter₂, hc₂, rfl⟩ := mem_ends_chr.mp h₂
    obtain ⟨m₃, h₃, t₃⟩ := mem_ends_seq.mp t₂
    obtain ⟨m₃', h₃', rfl⟩ := mem_ends_group.mp h₃
    obtain ⟨name, after₃, hafter₃, hname, hword, rfl⟩ := mem_ends_some'.mp h₃'
    obtain ⟨m₄, h₄, t₄⟩ := mem_ends_seq.mp t₃
    obtain ⟨c₄, after₄, hafter₄, hc₄, rfl⟩ := mem_ends_chr.mp h₄
    obtain ⟨c₅, rest, hafter₅, hc₅, rfl⟩ := mem_ends_chr.mp t₄
    obtain rfl := of_decide_eq_true hc₁
    obtain rfl := of_decide_eq_true hc₂
    obtain rfl := of_decide_eq_true hc₄
    obtain rfl := of_decide_eq_true hc₅
    simp only [Cursor.skip_after] at hafter₂ hafter₃ hafter₄ hafter₅
    subst hafter₂ hafter₃ hafter₄ hafter₅
    refine ⟨name, rest, ?_, ⟨hname, hword⟩, ?_⟩
    · rw [hafter₁]
      simp [placeholderText]
    · simp [Cursor.skip, Cursor.upTo, placeholderText]
  · rintro ⟨name, rest, hafter, ⟨hname, hword⟩, rfl⟩
    refine mem_ends_seq.mpr ⟨_, mem_ends_chr.mpr ⟨'{', _, hafter, rfl, rfl⟩, ?_⟩
    refine mem_ends_seq.mpr ⟨_, mem_ends_chr.mpr ⟨'{', _, rfl, rfl, rfl⟩, ?_⟩
    refine mem_ends_seq.mpr ⟨_, mem_ends_group.mpr ⟨_, mem_ends_some'.mpr
      ⟨name, '}' :: '}' :: rest, by simp, hname, hword, rfl⟩, rfl⟩, ?_⟩
    refine mem_ends_seq.mpr ⟨_, mem_ends_chr.mpr ⟨'}', _, rfl, rfl, rfl⟩, ?_⟩
    refine mem_ends_chr.mpr ⟨'}', _, rfl, rfl, ?_⟩
    simp [Cursor.skip, Cursor.upTo, placeholderText]

theorem isWord_open : isWord '{' = false := by
  rw [isWord, UnicodeDb.isAlnum_ascii _ (by decide)]
  decide

theorem isWord_close : isWord '}' = false := by
  rw [isWord, UnicodeDb.isAlnum_ascii _ (by decide)]
  decide

theorem IsName.not_mem {name : List Char} (h : IsName name) : '{' ∉ name ∧ '}' ∉ name := by
  constructor <;> intro hmem
  · exact absurd (h.2 _ hmem) (by rw [isWord_open]; exact Bool.false_ne_true)
  · exact absurd (h.2 _ hmem) (by rw [isWord_close]; exact Bool.false_ne_true)

/-- A placeholder is read in one way. -/
theorem placeholderText_inj {name name' rest rest' : List Char} (hname : IsName name)
    (hname' : IsName name') (h : placeholderText name ++ rest = placeholderText name' ++ rest') :
    name = name' ∧ rest = rest' := by
  have hnames : name ++ ('}' :: '}' :: rest) = name' ++ ('}' :: '}' :: rest') := by
    simpa [placeholderText] using h
  have hprefix : ∀ {x y u v w : List Char}, '}' ∉ y → y = x ++ u → '}' :: v = u ++ '}' :: w →
      u = [] := by
    intro x y u v w hy heq hsplit
    cases u with
    | nil => rfl
    | cons c u =>
      cases hsplit
      exact absurd (heq ▸ List.mem_append_right x List.mem_cons_self) hy
  have hsame : name = name' := by
    rcases List.append_eq_append_iff.mp hnames with ⟨u, hu, hrest⟩ | ⟨u, hu, hrest⟩
    · rw [hu, hprefix hname'.not_mem.2 hu hrest, List.append_nil]
    · rw [hu, hprefix hname.not_mem.2 hu hrest, List.append_nil]
  subst hsame
  exact ⟨rfl, List.append_cancel_left h⟩

/-- Only an opening brace starts a placeholder. -/
theorem ends_placeholder_eq_nil {before after : List Char} (h : after.head? ≠ some '{') :
    placeholderPattern.ends { before, after } = [] := by
  refine List.eq_nil_iff_forall_not_mem.mpr fun m' hmem => ?_
  obtain ⟨name, rest, hafter, -, -⟩ := Iff.mp mem_ends_placeholder hmem
  dsimp only at hafter
  rw [hafter] at h
  exact h rfl

theorem ends_inside_placeholder {name w u rest before : List Char} (hname : IsName name)
    (hsplit : placeholderText name = w ++ u) (hw : w ≠ []) (hu : u ≠ []) :
    placeholderPattern.ends { before, after := u ++ rest } = [] := by
  refine List.eq_nil_iff_forall_not_mem.mpr fun m' hmem => ?_
  obtain ⟨name', rest', hafter, hname', -⟩ := Iff.mp mem_ends_placeholder hmem
  dsimp only at hafter
  cases w with
  | nil => exact hw rfl
  | cons c w =>
    obtain ⟨-, htail⟩ := List.cons_eq_cons.mp hsplit
    cases w with
    | nil =>
      -- a name would start with a brace
      rw [show u = '{' :: (name ++ ['}', '}']) from htail.symm] at hafter
      obtain ⟨-, hrest⟩ := List.cons_eq_cons.mp hafter
      cases hletters : name with
      | nil => exact hname.1 hletters
      | cons d name₁ =>
        rw [hletters] at hrest
        obtain ⟨rfl, -⟩ := List.cons_eq_cons.mp hrest
        refine hname.not_mem.1 ?_
        rw [hletters]
        exact List.mem_cons_self
    | cons c' w =>
      obtain ⟨-, htail⟩ := List.cons_eq_cons.mp htail
      cases u with
      | nil => exact hu rfl
      | cons d u =>
        obtain ⟨rfl, -⟩ := List.cons_eq_cons.mp hafter
        have hmem' : '{' ∈ name ++ ['}', '}'] := by
          rw [show name ++ ['}', '}'] = w ++ '{' :: u from htail]
          exact List.mem_append_right _ List.mem_cons_self
        rcases List.mem_append.mp hmem' with hmem' | hmem'
        · exact hname.not_mem.1 hmem'
        · exact absurd hmem' (by decide)

theorem placeholder_apart : placeholderPattern.Apart := by
  intro m m' h
  obtain ⟨name, tail, hafter, hname, rfl⟩ := Iff.mp mem_ends_placeholder h
  constructor
  · rw [hafter, List.length_append]
    simp [placeholderText]
  · intro w rest hw heq hlength
    rcases List.append_eq_append_iff.mp (hafter.symm.trans heq) with ⟨u, hu, hrest⟩ | ⟨u, hu, hrest⟩
    · rw [Cursor.skip_after, hrest, List.length_append] at hlength
      omega
    · rw [hrest]
      refine ends_inside_placeholder hname hu hw ?_
      rintro rfl
      rw [hrest] at hlength
      exact absurd hlength (Nat.lt_irrefl _)

/-- Where a placeholder stands, it is the match. -/
theorem matchAt_placeholder {before name rest : List Char} (hname : IsName name) :
    placeholderPattern.matchAt before (placeholderText name ++ rest) = some
      ({ before, after := placeholderText name ++ rest },
        { before := (placeholderText name).reverse ++ before
          after := rest
          group := some name }) := by
  have hsome : ∃ m', m' ∈ placeholderPattern.ends
      { before, after := placeholderText name ++ rest } :=
    ⟨_, Iff.mpr mem_ends_placeholder ⟨name, rest, rfl, hname, rfl⟩⟩
  obtain ⟨m', hmem⟩ := hsome
  cases hmatch : placeholderPattern.matchAt before (placeholderText name ++ rest) with
  | none => exact absurd hmem (by rw [matchAt_eq_none.mp hmatch]; exact List.not_mem_nil)
  | some p =>
    rcases p with ⟨m, m₁⟩
    obtain ⟨rfl, hends⟩ := of_matchAt hmatch
    obtain ⟨name', rest', hafter, hname', rfl⟩ := Iff.mp mem_ends_placeholder hends
    obtain ⟨rfl, rfl⟩ := placeholderText_inj hname hname' hafter
    rfl

/-! ## The parts cover the text -/

theorem mem_findIter_placeholder {text : String} {m m' : Cursor}
    (h : (m, m') ∈ placeholderPattern.findIter text) :
    ∃ name, m.after = placeholderText name ++ m'.after ∧ IsName name ∧ m'.group = some name := by
  rw [findIter_eq_places placeholder_apart] at h
  obtain ⟨w, rest, -, hmatch⟩ := mem_places h
  obtain ⟨rfl, hends⟩ := of_matchAt hmatch
  obtain ⟨name, tail, hafter, hname, rfl⟩ := Iff.mp mem_ends_placeholder hends
  exact ⟨name, hafter, hname, rfl⟩

omit [UnicodeDb] in
theorem source_partsFrom {last : Cursor} {found : List (Cursor × Cursor)}
    (h : Follows last found) (hfound : ∀ m m', (m, m') ∈ found →
      ∃ name, m.after = placeholderText name ++ m'.after ∧ m'.group = some name) :
    templateSource (partsFrom last found) = last.after := by
  induction h with
  | nil last => simp [partsFrom, templateSource, TemplatePart.source]
  | cons hgap hstart hmatch hend hrest ih =>
    rename_i last m m' gap matched rest
    obtain ⟨name, hafter, hgroup⟩ := hfound m m' List.mem_cons_self
    have hsource := ih fun m₁ m₁' hmem => hfound m₁ m₁' (List.mem_cons_of_mem _ hmem)
    rw [hgap, hafter, ← hsource, partsFrom, Cursor.upTo_of_before hstart, hgroup]
    simp [templateSource, TemplatePart.source]

/-- A text is the text of its parts. -/
theorem source_splitTemplate (text : String) :
    templateSource (splitTemplate text) = text.toList := by
  refine source_partsFrom (follows_findIter _ text) fun m m' hmem => ?_
  obtain ⟨name, hafter, -, hgroup⟩ := mem_findIter_placeholder hmem
  exact ⟨name, hafter, hgroup⟩

omit [UnicodeDb] in
/-- The parts of a match stand between those of the matches before and after it. -/
theorem partsFrom_append (last m m' : Cursor) (front back : List (Cursor × Cursor)) :
    ∃ pre, partsFrom last (front ++ (m, m') :: back) =
      pre ++ .placeholder (String.ofList (m'.group.getD [])) :: partsFrom m' back := by
  induction front generalizing last with
  | nil => exact ⟨[.text (String.ofList (last.upTo m))], rfl⟩
  | cons found front ih =>
    obtain ⟨pre, hpre⟩ := ih found.2
    rw [List.cons_append, partsFrom, hpre]
    exact ⟨_ :: _ :: pre, rfl⟩

/-- Each placeholder of a text is a part, with the parts of what is before and after it around
it. -/
theorem placeholder_mem_split {text : String} {before name after : List Char}
    (hname : IsName name) (h : text.toList = before ++ (placeholderText name ++ after)) :
    ∃ pre post, splitTemplate text = pre ++ .placeholder (String.ofList name) :: post ∧
      templateSource pre = before ∧ templateSource post = after := by
  obtain ⟨front, hfront⟩ :=
    places_split (r := placeholderPattern) [] before (placeholderText name ++ after)
  -- the first place after `before` is the placeholder
  have hfound : ∃ back, placeholderPattern.findIter text = front ++
      ({ before := before.reverse, after := placeholderText name ++ after },
        { before := (placeholderText name).reverse ++ before.reverse
          after
          group := some name }) :: back := by
    have hmatch : placeholderPattern.matchAt before.reverse (placeholderText name ++ after) = _ :=
      matchAt_placeholder hname
    rw [findIter_eq_places placeholder_apart, h, hfront, List.append_nil]
    exact ⟨_, congrArg (front ++ ·) (congrArg (Option.toList · ++ _) hmatch)⟩
  obtain ⟨back, hfound⟩ := hfound
  obtain ⟨pre, hpre⟩ := partsFrom_append (Cursor.start text.toList) _ _ front back
  have hsplit := congrArg (partsFrom (Cursor.start text.toList)) hfound
  rw [hpre] at hsplit
  have hpost : templateSource (partsFrom
      { before := (placeholderText name).reverse ++ before.reverse
        after
        group := some name } back) = after := by
    refine source_partsFrom ?_ fun m m' hmem => ?_
    · have hfollows := follows_findIter placeholderPattern text
      rw [hfound] at hfollows
      exact hfollows.tail
    · have hmem' : (m, m') ∈ placeholderPattern.findIter text := by
        rw [hfound]
        exact List.mem_append_right _ (List.mem_cons_of_mem _ hmem)
      obtain ⟨name', hafter', -, hgroup'⟩ := mem_findIter_placeholder hmem'
      exact ⟨name', hafter', hgroup'⟩
  refine ⟨pre, _, hsplit, ?_, hpost⟩
  have hsource := source_splitTemplate text
  rw [show splitTemplate text = _ from hsplit, h] at hsource
  simp only [templateSource, List.flatMap_append, List.flatMap_cons, TemplatePart.source,
    Option.getD_some, String.toList_ofList] at hsource hpost
  rw [hpost] at hsource
  exact List.append_cancel_right hsource

/-- And each part that is a placeholder is one of the text. -/
theorem of_placeholder_mem_split {text name : String}
    (h : .placeholder name ∈ splitTemplate text) : IsName name.toList ∧
      ∃ before after, text.toList = before ++ (placeholderText name.toList ++ after) := by
  obtain ⟨pre, post, hsplit⟩ := List.append_of_mem h
  have hsource := source_splitTemplate text
  rw [hsplit] at hsource
  simp only [templateSource, List.flatMap_append, List.flatMap_cons, TemplatePart.source]
    at hsource
  have hname : ∀ {last : Cursor} {found : List (Cursor × Cursor)},
      (∀ m m', (m, m') ∈ found → ∃ name, IsName name ∧ m'.group = some name) →
      .placeholder name ∈ partsFrom last found → IsName name.toList := by
    intro last found hfound hmem
    induction found generalizing last with
    | nil => simp [partsFrom] at hmem
    | cons found rest ih =>
      rcases found with ⟨m, m'⟩
      obtain ⟨name', hname', hgroup⟩ := hfound m m' List.mem_cons_self
      simp only [partsFrom, List.mem_cons, reduceCtorEq, false_or, TemplatePart.placeholder.injEq]
        at hmem
      rcases hmem with rfl | hmem
      · rwa [hgroup, Option.getD_some, String.toList_ofList]
      · exact ih (fun m₁ m₁' h₁ => hfound m₁ m₁' (List.mem_cons_of_mem _ h₁)) hmem
  refine ⟨hname (fun m m' hmem => ?_) h, _, _, hsource.symm⟩
  obtain ⟨name', -, hname', hgroup⟩ := mem_findIter_placeholder hmem
  exact ⟨name', hname', hgroup⟩

/-! ## Templates that are given by their parts -/

/-- The texts have no opening brace, and the names are names. -/
def Proper (template : Template) : Prop :=
  ∀ part ∈ template, match part with
    | .text s => '{' ∉ s.toList
    | .placeholder name => IsName name.toList

/-- The text of such a template is rendered as the template is, wherever it stands. -/
theorem render_partsFrom {template : Template} (h : Proper template)
    (values : List (String × String)) {last : Cursor} {pending : List Char}
    (hlast : last.after = pending ++ templateSource template) :
    renderTemplate values (partsFrom last (placeholderPattern.places
        (pending.reverse ++ last.before) (templateSource template))) =
      (renderTemplate values template).map (String.ofList pending ++ ·) := by
  induction template generalizing last pending with
  | nil =>
    have hnone : placeholderPattern.places (pending.reverse ++ last.before) [] = [] := by
      rw [places, matchAt_eq_none.mpr (ends_placeholder_eq_nil (by simp))]
      rfl
    rw [show templateSource [] = [] from rfl] at hlast ⊢
    rw [hnone, partsFrom, hlast, List.append_nil]
    rfl
  | cons part rest ih =>
    have hrest : Proper rest := fun part hmem => h part (List.mem_cons_of_mem _ hmem)
    have hpart := h part List.mem_cons_self
    cases part with
    | text s =>
      have hsource : templateSource (.text s :: rest) = s.toList ++ templateSource rest := rfl
      have hquiet : placeholderPattern.places (pending.reverse ++ last.before)
          (s.toList ++ templateSource rest) = placeholderPattern.places
            ((pending ++ s.toList).reverse ++ last.before) (templateSource rest) := by
        rw [places_append fun v u hs hu => ends_placeholder_eq_nil ?_, List.reverse_append,
          List.append_assoc]
        cases u with
        | nil => exact absurd rfl hu
        | cons c u =>
          intro hc
          obtain rfl : c = '{' := Option.some.inj hc
          refine hpart ?_
          rw [hs]
          exact List.mem_append_right _ List.mem_cons_self
      rw [hsource, hquiet, ih hrest (by rw [hlast, hsource, List.append_assoc])]
      cases hrendered : renderTemplate values rest with
      | error x => simp [renderTemplate, hrendered, Except.map]
      | ok rendered =>
        simp [renderTemplate, hrendered, Except.map, String.ofList_append, String.append_assoc]
    | placeholder name =>
      have hname : IsName name.toList := hpart
      have hsource : templateSource (.placeholder name :: rest) =
        placeholderText name.toList ++ templateSource rest := rfl
      have hmatch : placeholderPattern.matchAt (pending.reverse ++ last.before)
          (placeholderText name.toList ++ templateSource rest) = _ := matchAt_placeholder hname
      have hfound := places_append_of_match (by simp [placeholderText]) hmatch
        fun v u hsplit hv hu => ends_inside_placeholder hname hsplit hv hu
      have hupTo : last.upTo { before := pending.reverse ++ last.before
                               after := placeholderText name.toList ++ templateSource rest } =
          pending := Cursor.upTo_of_before rfl
      have hnext : ∀ m' : Cursor, m'.after = templateSource rest →
          renderTemplate values (partsFrom m' (placeholderPattern.places m'.before
            (templateSource rest))) = renderTemplate values rest := by
        intro m' hafter
        have hrendered := ih hrest (show m'.after = [] ++ templateSource rest from hafter)
        rw [List.reverse_nil, List.nil_append] at hrendered
        rw [hrendered]
        cases renderTemplate values rest with
        | error x => rfl
        | ok rendered => exact congrArg Except.ok String.empty_append
      rw [hsource, hfound, partsFrom, hupTo, renderTemplate, renderTemplate, renderTemplate,
        Option.getD_some, String.ofList_toList]
      cases values.lookup name with
      | none => rfl
      | some value =>
        dsimp only
        rw [hnext _ rfl]

theorem renderTemplateText_source {template : Template} (h : Proper template) {text : String}
    (htext : text.toList = templateSource template) (values : List (String × String)) :
    renderTemplateText text values = renderTemplate values template := by
  have hlast : (Cursor.start text.toList).after = [] ++ templateSource template := htext
  have hrendered := render_partsFrom h values hlast
  rw [List.reverse_nil, List.nil_append, ← htext] at hrendered
  rw [renderTemplateText_eq, splitTemplate, findIter_eq_places placeholder_apart]
  refine hrendered.trans ?_
  cases renderTemplate values template with
  | error x => rfl
  | ok rendered => exact congrArg Except.ok String.empty_append

/-! ## `review_user.md` -/

/-- The text of `review_user.md`. -/
def reviewUserText : String :=
  "\x7b\x7bpart_header\x7d\x7d\x7b\x7bproject_context_block\x7d\x7d\n\n"
    ++ "\x7b\x7blanguage_notes_block\x7d\x7d\n\n"
    ++ "Focus areas for this review: \x7b\x7bfocus\x7d\x7d.\n\n"
    ++ "\x7b\x7bpr_metadata\x7d\x7d\n\n"
    ++ "\x7b\x7bpr_conversation_block\x7d\x7d\n\n"
    ++ "\x7b\x7bextra_context_block\x7d\x7d\n\n"
    ++ "Changed files in this part:\n\n"
    ++ "\x7b\x7bfiles_summary\x7d\x7d\n\n"
    ++ "\x7b\x7bdiff\x7d\x7d\n"

/-- Letters, digits and underscores of ASCII make a name. -/
theorem isName_of_ascii {name : List Char} (hne : name ≠ [])
    (h : name.all fun c => c.toNat < 128 && (c.isAlphanum || c = '_')) : IsName name := by
  refine ⟨hne, fun c hc => ?_⟩
  have hletter := List.all_eq_true.mp h c hc
  rw [Bool.and_eq_true] at hletter
  rw [isWord, UnicodeDb.isAlnum_ascii c (of_decide_eq_true hletter.1)]
  exact hletter.2

theorem proper_reviewUser : Proper reviewUser := by
  intro part hmem
  simp only [reviewUser, List.mem_cons, List.not_mem_nil, or_false] at hmem
  rcases hmem with rfl | rfl | rfl | rfl | rfl | rfl | rfl | rfl | rfl | rfl | rfl | rfl | rfl |
    rfl | rfl | rfl | rfl
  all_goals
    first
    | exact isName_of_ascii (by decide) (by decide)
    | change ¬ '{' ∈ String.toList _
      decide

omit [UnicodeDb] in
theorem toList_reviewUserText : reviewUserText.toList = templateSource reviewUser := by
  unfold reviewUserText
  simp only [String.toList_append, templateSource, reviewUser, List.flatMap_cons, List.flatMap_nil,
    TemplatePart.source, placeholderText]
  -- the literals, as lists
  repeat rw [String.toList_ofList]
  decide +kernel

theorem renderTemplateText_reviewUser (values : List (String × String)) :
    renderTemplateText reviewUserText values = renderTemplate values reviewUser :=
  renderTemplateText_source proper_reviewUser toList_reviewUserText values

/-! ## Values verbatim -/

omit [UnicodeDb] in
theorem infix_intercalate {sep s : String} {l : List String} (h : s ∈ l) :
    s.toList <:+: (sep.intercalate l).toList := by
  obtain ⟨front, back, rfl⟩ := List.append_of_mem h
  have hback : ∃ tail, sep.intercalate (s :: back) = s ++ tail := by
    cases back with
    | nil => exact ⟨"", String.intercalate_singleton.trans String.append_empty.symm⟩
    | cons t back => exact ⟨sep ++ sep.intercalate (t :: back), by simp [String.append_assoc]⟩
  obtain ⟨tail, htail⟩ := hback
  cases front with
  | nil =>
    rw [List.nil_append, htail, String.toList_append]
    exact (List.prefix_append _ _).isInfix
  | cons t front =>
    rw [String.intercalate_append_of_ne_nil (List.cons_ne_nil t front) (List.cons_ne_nil s back),
      htail, String.toList_append, String.toList_append (t := tail), ← List.append_assoc]
    exact List.infix_append _ _ _

/-- What a value of the user message contains, the message contains. -/
theorem infix_renderUser [PromptFiles] {repoConfig : RepoConfig} {pr : PRInfo}
    {conversation : List ConversationComment} {chunk : Chunk} {extraContext : Option String}
    {userText value : String} {name : String} {s : List Char} (first second : Template)
    (htemplate : reviewUser = first ++ .placeholder name :: second)
    (hvalue : (userValues repoConfig pr conversation chunk extraContext).lookup name = some value)
    (h : renderUser repoConfig pr conversation chunk extraContext = .ok userText)
    (hs : s <:+: value.toList) : s <:+: userText.toList := by
  unfold renderUser at h
  rw [htemplate] at h
  obtain ⟨before, after, -, -, rfl⟩ := renderTemplate_placeholder first second hvalue h
  rw [String.toList_append, String.toList_append]
  exact hs.trans (List.infix_append _ _ _)

omit [UnicodeDb] in
theorem patch_infix_renderDiff {files : List ChangedFile} {file : ChangedFile} {patch : String}
    (hfile : file ∈ files) (hpatch : file.patch = some patch) :
    patch.toList <:+: (renderDiff files).toList := by
  refine infix_intercalate ?_
  have hline : patch ∈ diffLines file := by simp [diffLines, hpatch]
  exact List.mem_append_left _ (List.mem_append_right _ (List.mem_flatMap.mpr ⟨file, hfile, hline⟩))

omit [UnicodeDb] in
theorem body_infix_renderConversation {conversation : List ConversationComment}
    {comment : ConversationComment} (hcomment : comment ∈ conversation) :
    comment.body.toList <:+: (renderConversation conversation).toList := by
  refine infix_intercalate ?_
  have hline : comment.body ∈ conversationLines comment := by simp [conversationLines]
  exact List.mem_append_left _
    (List.mem_append_right _ (List.mem_flatMap.mpr ⟨comment, hcomment, hline⟩))

/-! ## One pass -/

/-- `parts` is a text, cut at each of its placeholders. -/
structure Segments (text : String) (parts : Template) : Prop where
  source : templateSource parts = text.toList
  named : ∀ name, .placeholder name ∈ parts → IsName name.toList
  complete : ∀ before name after, IsName name →
    text.toList = before ++ (placeholderText name ++ after) →
      ∃ pre post, parts = pre ++ .placeholder (String.ofList name) :: post ∧
        templateSource pre = before ∧ templateSource post = after

/-- What a part is rendered as. -/
def TemplatePart.fill (values : List (String × String)) : TemplatePart → String
  | .text s => s
  | .placeholder name => (values.lookup name).getD ""

omit [UnicodeDb] in
theorem renderTemplate_fill {values : List (String × String)} {template : Template} {s : String}
    (h : renderTemplate values template = .ok s) :
    s = String.join (template.map (TemplatePart.fill values)) := by
  induction template generalizing s with
  | nil => exact (Except.ok.inj h).symm
  | cons part rest ih =>
    obtain ⟨s₁, s₂, hpart, hrest, rfl⟩ := renderTemplate_append [part] rest h
    rw [List.map_cons, String.join_cons, ← ih hrest]
    congr 1
    cases part with
    | text text => exact ((Except.ok.inj hpart).symm).trans String.append_empty
    | placeholder name =>
      rw [renderTemplate] at hpart
      rw [TemplatePart.fill]
      split at hpart
      · cases hpart
      · rename_i value hvalue
        rw [hvalue]
        exact ((Except.ok.inj hpart).symm).trans String.append_empty

/-- A placeholder of the text has no value. -/
def Unbound (text : String) (values : List (String × String)) : Prop :=
  ∃ before name after, IsName name ∧ text.toList = before ++ (placeholderText name ++ after) ∧
    values.lookup (String.ofList name) = none

theorem exists_render_iff (text : String) (values : List (String × String)) :
    (∃ s, renderTemplateText text values = .ok s) ↔ ¬ Unbound text values := by
  rw [renderTemplateText_eq, exists_renderTemplate_iff]
  constructor
  · rintro h ⟨before, name, after, hname, htext, hnone⟩
    obtain ⟨pre, post, hsplit, -, -⟩ := placeholder_mem_split hname htext
    obtain ⟨value, hvalue⟩ := h (String.ofList name) (by
      rw [hsplit]
      exact List.mem_append_right _ List.mem_cons_self)
    rw [hnone] at hvalue
    cases hvalue
  · intro h name hmem
    obtain ⟨hname, before, after, htext⟩ := of_placeholder_mem_split hmem
    by_contra hnone
    refine h ⟨before, name.toList, after, hname, htext, ?_⟩
    rw [String.ofList_toList]
    exact Option.eq_none_iff_forall_ne_some.mpr fun value hvalue => hnone ⟨value, hvalue⟩

theorem single_pass_substitution [PromptFiles] :
    (∀ text values, ∃ parts, Segments text parts ∧
      ((∃ m, renderTemplateText text values = .error (.templateError m)) ↔ Unbound text values) ∧
      (¬ Unbound text values → renderTemplateText text values =
        .ok (String.join (parts.map (TemplatePart.fill values))))) ∧
    ∀ repoConfig pr conversation chunk extraContext, ∃ systemText userText,
      composeReviewPrompt repoConfig pr conversation chunk extraContext = .ok [
        { role := .system, content := systemText }, { role := .user, content := userText }] ∧
      renderTemplateText reviewUserText
        (userValues repoConfig pr conversation chunk extraContext) = .ok userText ∧
      (∀ file ∈ chunk.files, ∀ patch, file.patch = some patch →
        patch.toList <:+: userText.toList) ∧
      (repoConfig.review.includeConversation.getD true →
        ∀ comment ∈ conversation, comment.body.toList <:+: userText.toList) := by
  constructor
  · intro text values
    have hraises : (∃ m, renderTemplateText text values = .error (.templateError m)) ↔
        Unbound text values := by
      rw [← not_iff_not, ← exists_render_iff]
      constructor
      · intro hno
        cases hrendered : renderTemplateText text values with
        | ok s => exact ⟨s, rfl⟩
        | error x =>
          rw [renderTemplateText_eq] at hrendered
          obtain ⟨m, rfl⟩ := renderTemplate_error hrendered
          exact absurd ⟨m, (renderTemplateText_eq text values).trans hrendered⟩ hno
      · rintro ⟨s, hs⟩ ⟨m, hm⟩
        rw [hs] at hm
        cases hm
    refine ⟨splitTemplate text, ⟨source_splitTemplate text, ?_, ?_⟩, hraises, fun hbound => ?_⟩
    · exact fun name hmem => (of_placeholder_mem_split hmem).1
    · exact fun before name after hname htext => placeholder_mem_split hname htext
    · obtain ⟨s, hs⟩ := (exists_render_iff text values).mpr hbound
      rw [hs]
      rw [renderTemplateText_eq] at hs
      rw [renderTemplate_fill hs]
  · intro repoConfig pr conversation chunk extraContext
    obtain ⟨userText, huser⟩ := exists_renderUser repoConfig pr conversation chunk extraContext
    refine ⟨_, userText, composeReviewPrompt_eq huser, ?_, ?_, ?_⟩
    · rw [renderTemplateText_reviewUser]
      exact huser
    · intro file hfile patch hpatch
      exact infix_renderUser reviewUser.dropLast.dropLast [.text "\n"] rfl rfl huser
        (patch_infix_renderDiff hfile hpatch)
    · intro hincluded comment hcomment
      have hshown : (userValues repoConfig pr conversation chunk extraContext).lookup
          "pr_conversation_block" = some (renderConversation conversation) := by
        have hne : conversation.isEmpty = false := by
          cases conversation with
          | nil => cases hcomment
          | cons first rest => rfl
        have hblock : (userValues repoConfig pr conversation chunk extraContext).lookup
            "pr_conversation_block" = some
              (if repoConfig.review.includeConversation.getD true ∧ ¬ conversation.isEmpty then
                renderConversation conversation else "") := rfl
        rw [hblock, if_pos ⟨hincluded, by simp [hne]⟩]
      exact infix_renderUser (reviewUser.take 9) (reviewUser.drop 10) rfl hshown huser
        (body_infix_renderConversation hcomment)

end Loader

end VidiPr
