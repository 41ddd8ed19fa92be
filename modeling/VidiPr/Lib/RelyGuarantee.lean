import Mathlib.Logic.Relation
import VidiPr.Lib.Prog

/-!
# Rely-guarantee reasoning for effect programs

A program runs beside others that change the same state between any two of its requests. What
it may count on is a **setting**: the meaning of its requests, an invariant that every state
satisfies, a *rely* relation that bounds what the others do in one step, and a *guarantee* that
bounds what it does itself.

* **`wp`** — the weakest precondition of a program in a setting. It is closed under the steps
  of the others (`wp_env`) and under its own (`wp_step`), which is all a proof about a system of
  programs needs: its invariant is that every program still satisfies its `wp`.
* **`Setting.Stable`** — an assertion the others cannot falsify. The proof of a program is an
  outline of stable assertions, one before each request.
* **`Triple`** — `{A} p {B}`, with one rule for each way a program is built. The postcondition
  speaks of the outcome, value or exception, and is stable, so that the next program may start
  from it.
* **`Triple.of_calls`** — a program that only makes harmless requests keeps every stable
  assertion; no outline is needed.
* **`Safe`** — what the invariant of a system of programs says of each of them.
* **`Among`** — a run beside others, from which an outline can be read off (`Triple.of_among`).
* **`Setting.alone`** — a program beside which nothing else runs. There an outline can be read
  off the finished runs of a program (`Triple.of_ends`).
-/

namespace Effect

open Relation Prog

variable {E : Type} {R : E → Type} {ε σ α β : Type}

/-- What a program may assume of its environment and owes to it. -/
structure Setting (E : Type) (R : E → Type) (ε σ : Type) where
  /-- The meaning of one request of this program. -/
  sem : Sem E R ε σ
  /-- Holds of every state, between any two steps. -/
  inv : σ → Prop
  /-- Bounds one step of the others. -/
  rely : σ → σ → Prop
  /-- Bounds one step of this program. -/
  guar : σ → σ → Prop

namespace Setting

variable (S : Setting E R ε σ)

/-- Any number of steps of the others. -/
def Env : σ → σ → Prop :=
  ReflTransGen fun s s' => S.rely s s' ∧ S.inv s'

/-- The others cannot falsify `A`: it survives each of the steps that the setting allows them, in
states that meet the invariant. -/
def Stable (A : σ → Prop) : Prop :=
  ∀ s s', A s → S.inv s → S.rely s s' → S.inv s' → A s'

variable {S}

theorem Env.inv {s s' : σ} (h : S.Env s s') (hi : S.inv s) : S.inv s' := by
  cases h with
  | refl => exact hi
  | tail _ hstep => exact hstep.2

theorem Stable.env {A : σ → Prop} (hA : S.Stable A) {s s' : σ} (h : S.Env s s')
    (hs : A s) (hi : S.inv s) : A s' := by
  induction h with
  | refl => exact hs
  | tail hprev hstep ih => exact hA _ _ ih (Env.inv hprev hi) hstep.1 hstep.2

theorem Stable.and {A B : σ → Prop} (hA : S.Stable A) (hB : S.Stable B) :
    S.Stable fun s => A s ∧ B s :=
  fun s s' h hi hr hi' => ⟨hA s s' h.1 hi hr hi', hB s s' h.2 hi hr hi'⟩

theorem stable_const (P : Prop) : S.Stable fun _ => P :=
  fun _ _ h _ _ _ => h

end Setting

/-- The weakest precondition of a program: between any two of its requests the others may step,
and each of its own steps keeps the invariant and the guarantee. -/
def wp (S : Setting E R ε σ) : Prog E R ε α → (Except ε α → σ → Prop) → σ → Prop
  | .ret a, Q, s => ∀ s', S.Env s s' → S.inv s' → Q (.ok a) s'
  | .raise x, Q, s => ∀ s', S.Env s s' → S.inv s' → Q (.error x) s'
  | .call e k, Q, s => ∀ s₁, S.Env s s₁ → S.inv s₁ → ∀ r s₂, S.sem e s₁ r s₂ →
      S.inv s₂ ∧ S.guar s₁ s₂ ∧ wp S (k r) Q s₂

section Rules

variable {S : Setting E R ε σ}

/-- A step of the others keeps every weakest precondition. -/
theorem wp_env {p : Prog E R ε α} {Q : Except ε α → σ → Prop} {s s' : σ}
    (h : wp S p Q s) (hr : S.rely s s') (hi : S.inv s') : wp S p Q s' := by
  have hhead : ∀ {t}, S.Env s' t → S.Env s t := fun ht => ReflTransGen.head ⟨hr, hi⟩ ht
  cases p with
  | ret a => exact fun t ht => h t (hhead ht)
  | raise x => exact fun t ht => h t (hhead ht)
  | call e k => exact fun t ht => h t (hhead ht)

/-- A step of the program itself. -/
theorem wp_step {e : E} {k : Except ε (R e) → Prog E R ε α} {Q : Except ε α → σ → Prop}
    {s s' : σ} {r : Except ε (R e)} (h : wp S (.call e k) Q s) (hi : S.inv s)
    (hs : S.sem e s r s') : S.inv s' ∧ S.guar s s' ∧ wp S (k r) Q s' :=
  h s .refl hi r s' hs

theorem wp_ok {a : α} {Q : Except ε α → σ → Prop} {s : σ} (h : wp S (.ret a) Q s)
    (hi : S.inv s) : Q (.ok a) s :=
  h s .refl hi

theorem wp_error {x : ε} {Q : Except ε α → σ → Prop} {s : σ} (h : wp S (.raise x) Q s)
    (hi : S.inv s) : Q (.error x) s :=
  h s .refl hi

theorem wp_mono {p : Prog E R ε α} {Q Q' : Except ε α → σ → Prop} {s : σ}
    (h : wp S p Q s) (hQ : ∀ r s', S.inv s' → Q r s' → Q' r s') : wp S p Q' s := by
  induction p generalizing s with
  | ret a => exact fun t ht hi => hQ _ _ hi (h t ht hi)
  | raise x => exact fun t ht hi => hQ _ _ hi (h t ht hi)
  | call e k ih =>
    intro t ht hi r t' hstep
    obtain ⟨hi', hg, hk⟩ := h t ht hi r t' hstep
    exact ⟨hi', hg, ih r hk⟩

theorem wp_and {p : Prog E R ε α} {Q Q' : Except ε α → σ → Prop} {s : σ}
    (h : wp S p Q s) (h' : wp S p Q' s) : wp S p (fun r s' => Q r s' ∧ Q' r s') s := by
  induction p generalizing s with
  | ret a => exact fun t ht hi => ⟨h t ht hi, h' t ht hi⟩
  | raise x => exact fun t ht hi => ⟨h t ht hi, h' t ht hi⟩
  | call e k ih =>
    intro t ht hi r t' hstep
    obtain ⟨hi', hg, hk⟩ := h t ht hi r t' hstep
    exact ⟨hi', hg, ih r hk (h' t ht hi r t' hstep).2.2⟩

/-- The rule of sequencing, for both outcomes at once. -/
theorem wp_andThen {p : Prog E R ε α} {k : Except ε α → Prog E R ε β}
    {Q : Except ε β → σ → Prop} {s : σ} (hi : S.inv s)
    (h : wp S p (fun r s' => wp S (k r) Q s') s) : wp S (p.andThen k) Q s := by
  induction p generalizing s with
  | ret a => exact h s .refl hi
  | raise x => exact h s .refl hi
  | call e f ih =>
    intro t ht hti r t' hstep
    obtain ⟨hi', hg, hk⟩ := h t ht hti r t' hstep
    exact ⟨hi', hg, ih r hi' hk⟩

/-- A request is made under an assertion the others keep. -/
theorem wp_call {A : σ → Prop} (hA : S.Stable A) {e : E} {k : Except ε (R e) → Prog E R ε α}
    {Q : Except ε α → σ → Prop} {s : σ} (hi : S.inv s) (hs : A s)
    (h : ∀ s₁, S.inv s₁ → A s₁ → ∀ r s₂, S.sem e s₁ r s₂ →
      S.inv s₂ ∧ S.guar s₁ s₂ ∧ wp S (k r) Q s₂) : wp S (.call e k) Q s :=
  fun s₁ he hi₁ r s₂ hstep => h s₁ hi₁ (hA.env he hs hi) r s₂ hstep

end Rules

/-! ## Triples -/

/-- A postcondition that says which value leaves which state, and where an exception leaves it. -/
def Post (B : α → σ → Prop) (F : σ → Prop) : Except ε α → σ → Prop
  | .ok a, s => B a s
  | .error _, s => F s

theorem Setting.Stable.post {S : Setting E R ε σ} {B : α → σ → Prop} {F : σ → Prop}
    (hB : ∀ a, S.Stable (B a)) (hF : S.Stable F) (r : Except ε α) : S.Stable (Post B F r) := by
  cases r with
  | ok a => exact hB a
  | error x => exact hF

/-- From every state of `A` the program keeps its guarantee and ends under `B`, which the others
keep. -/
structure Triple (S : Setting E R ε σ) (A : σ → Prop) (p : Prog E R ε α)
    (B : Except ε α → σ → Prop) : Prop where
  stable : ∀ r, S.Stable (B r)
  sound : ∀ s, S.inv s → A s → wp S p B s

namespace Triple

variable {S : Setting E R ε σ} {A A' : σ → Prop}

theorem conseq {p : Prog E R ε α} {B B' : Except ε α → σ → Prop} (h : Triple S A p B)
    (hA : ∀ s, S.inv s → A' s → A s) (hB : ∀ r s, S.inv s → B r s → B' r s)
    (hB' : ∀ r, S.Stable (B' r)) : Triple S A' p B' :=
  ⟨hB', fun s hi hs => wp_mono (h.sound s hi (hA s hi hs)) hB⟩

/-- A program started under a stronger assertion. -/
theorem pre {p : Prog E R ε α} {B : Except ε α → σ → Prop} (h : Triple S A p B)
    (hA : ∀ s, S.inv s → A' s → A s) : Triple S A' p B :=
  ⟨h.stable, fun s hi hs => h.sound s hi (hA s hi hs)⟩

theorem ret {a : α} {B : Except ε α → σ → Prop} (hB : ∀ r, S.Stable (B r))
    (h : ∀ s, S.inv s → A s → B (.ok a) s) : Triple S A (.ret a) B :=
  ⟨hB, fun s hi hs _ he _ => (hB (.ok a)).env he (h s hi hs) hi⟩

theorem raise {x : ε} {B : Except ε α → σ → Prop} (hB : ∀ r, S.Stable (B r))
    (h : ∀ s, S.inv s → A s → B (.error x) s) : Triple S A (.raise x) B :=
  ⟨hB, fun s hi hs _ he _ => (hB (.error x)).env he (h s hi hs) hi⟩

theorem ofExcept {r : Except ε α} {B : Except ε α → σ → Prop} (hB : ∀ r, S.Stable (B r))
    (h : ∀ s, S.inv s → A s → B r s) : Triple S A (.ofExcept r) B := by
  cases r with
  | ok a => exact .ret hB h
  | error x => exact .raise hB h

/-- One request, from a stable assertion to a stable assertion for each answer. -/
theorem perform {e : E} {B : Except ε (R e) → σ → Prop} (hA : S.Stable A)
    (hB : ∀ r, S.Stable (B r))
    (h : ∀ s r s', S.inv s → A s → S.sem e s r s' → S.inv s' ∧ S.guar s s' ∧ B r s') :
    Triple S A (.perform e) B := by
  refine ⟨hB, fun s hi hs => wp_call hA hi hs fun s₁ hi₁ hs₁ r s₂ hsem => ?_⟩
  obtain ⟨hi₂, hg, hr⟩ := h s₁ r s₂ hi₁ hs₁ hsem
  exact ⟨hi₂, hg, (Triple.ofExcept hB fun _ _ hs => hs).sound s₂ hi₂ hr⟩

theorem andThen {p : Prog E R ε α} {k : Except ε α → Prog E R ε β}
    {B : Except ε α → σ → Prop} {C : Except ε β → σ → Prop} (h : Triple S A p B)
    (hC : ∀ r, S.Stable (C r)) (hk : ∀ r, Triple S (B r) (k r) C) : Triple S A (p.andThen k) C :=
  ⟨hC, fun s hi hs => wp_andThen hi
    (wp_mono (h.sound s hi hs) fun r s' hi' hr => (hk r).sound s' hi' hr)⟩

/-- Sequencing; an exception of the first program is the outcome. The second program may use
that the assertion it starts from is stable. -/
theorem bind {p : Prog E R ε α} {f : α → Prog E R ε β} {B : Except ε α → σ → Prop}
    {C : Except ε β → σ → Prop} (h : Triple S A p B) (hC : ∀ r, S.Stable (C r))
    (hx : ∀ x s, S.inv s → B (.error x) s → C (.error x) s)
    (hf : ∀ a, S.Stable (B (.ok a)) → Triple S (B (.ok a)) (f a) C) :
    Triple S A (p.bind f) C := by
  refine h.andThen hC fun r => ?_
  cases r with
  | ok a => exact hf a (h.stable _)
  | error x => exact .raise hC (hx x)

/-- Sequencing two programs that fail alike. -/
theorem seq {p : Prog E R ε α} {f : α → Prog E R ε β} {B : α → σ → Prop} {C : β → σ → Prop}
    {F : σ → Prop} (h : Triple S A p (Post B F)) (hC : ∀ b, S.Stable (C b))
    (hf : ∀ a, S.Stable (B a) → Triple S (B a) (f a) (Post C F)) :
    Triple S A (p.bind f) (Post C F) := by
  have hpost : ∀ r : Except ε β, S.Stable (Post C F r) := by
    intro r
    cases r with
    | ok b => exact hC b
    | error x => exact h.stable (.error x)
  exact h.bind hpost (fun _ _ _ hs => hs) hf

/-- `finally` with a routine that cannot fail. -/
theorem finally' {p : Prog E R ε α} {fin : Prog E R ε Unit} {B C : Except ε α → σ → Prop}
    (h : Triple S A p B) (hC : ∀ r, S.Stable (C r))
    (hfin : ∀ r, Triple S (B r) fin fun r' s => r' = .ok () ∧ C r s) :
    Triple S A (p.finally' fin) C := by
  refine h.andThen hC fun r => (hfin r).andThen hC fun r' => ?_
  cases r' with
  | ok u => exact .ofExcept hC fun s _ hs => hs.2
  | error x => exact .raise hC fun s _ hs => by cases hs.1

/-- What a precondition says about values, not about the state. -/
theorem of_pure {P : Prop} {p : Prog E R ε α} {B : Except ε α → σ → Prop}
    (hB : ∀ r, S.Stable (B r)) (h : P → Triple S A p B) : Triple S (fun s => P ∧ A s) p B :=
  ⟨hB, fun s hi hs => (h hs.1).sound s hi hs.2⟩

/-- A precondition that holds for some value. -/
theorem of_exists {ι : Type} {A : ι → σ → Prop} {p : Prog E R ε α} {B : Except ε α → σ → Prop}
    (hB : ∀ r, S.Stable (B r)) (h : ∀ i, Triple S (A i) p B) :
    Triple S (fun s => ∃ i, A i s) p B :=
  ⟨hB, fun s hi ⟨i, hs⟩ => (h i).sound s hi hs⟩

/-- Two outlines of one program hold together. -/
theorem and {p : Prog E R ε α} {B B' : Except ε α → σ → Prop} (h : Triple S A p B)
    (h' : Triple S A' p B') : Triple S (fun s => A s ∧ A' s) p fun r s => B r s ∧ B' r s :=
  ⟨fun r => (h.stable r).and (h'.stable r),
    fun s hi hs => wp_and (h.sound s hi hs.1) (h'.sound s hi hs.2)⟩

/-- A program whose requests all keep `A`, and which are answered within `ok`, ends under `A`
with an outcome those answers allow. -/
theorem of_calls {P : E → Prop} {ok : (e : E) → Except ε (R e) → Prop} {Y : Except ε α → Prop}
    (hA : S.Stable A)
    (hstep : ∀ e, P e → ∀ s r s', S.inv s → A s → S.sem e s r s' →
      S.inv s' ∧ S.guar s s' ∧ ok e r ∧ A s')
    {p : Prog E R ε α} (hp : p.Calls P) (hy : p.Yields ok Y) :
    Triple S A p fun r s => Y r ∧ A s := by
  have hB : ∀ r, S.Stable fun s => Y r ∧ A s := fun r => (Setting.stable_const (Y r)).and hA
  refine ⟨hB, ?_⟩
  induction p with
  | ret a => exact (Triple.ret hB fun s _ hs => ⟨hy, hs⟩).sound
  | raise x => exact (Triple.raise hB fun s _ hs => ⟨hy, hs⟩).sound
  | call e k ih =>
    intro s hi hs
    refine wp_call hA hi hs fun s₁ hi₁ hs₁ r s₂ hsem => ?_
    obtain ⟨hi₂, hg, hok, hs₂⟩ := hstep e hp.1 s₁ r s₂ hi₁ hs₁ hsem
    exact ⟨hi₂, hg, ih r (hp.2 r) (hy r hok) s₂ hi₂ hs₂⟩

end Triple

/-! ## A program among others

What a system of programs keeps of each of its members. -/

/-- The invariant holds, and the rest of the program is safe to run. -/
structure Safe (S : Setting E R ε σ) (p : Prog E R ε α) (B : Except ε α → σ → Prop) (s : σ) :
    Prop where
  inv : S.inv s
  rest : wp S p B s

namespace Safe

variable {S : Setting E R ε σ} {B : Except ε α → σ → Prop} {s s' : σ}

theorem of_triple {A : σ → Prop} {p : Prog E R ε α} (h : Triple S A p B) (hi : S.inv s)
    (hs : A s) : Safe S p B s :=
  ⟨hi, h.sound s hi hs⟩

theorem env {p : Prog E R ε α} (h : Safe S p B s) (hr : S.rely s s') (hi : S.inv s') :
    Safe S p B s' :=
  ⟨hi, wp_env h.rest hr hi⟩

/-- A step of the program itself. -/
theorem step {e : E} {k : Except ε (R e) → Prog E R ε α} {r : Except ε (R e)}
    (h : Safe S (.call e k) B s) (hs : S.sem e s r s') : S.guar s s' ∧ Safe S (k r) B s' := by
  obtain ⟨hi, hg, hk⟩ := wp_step h.rest h.inv hs
  exact ⟨hg, hi, hk⟩

/-- Any number of steps of the program itself. -/
theorem run {p q : Prog E R ε α} {tr : Trace E R ε} (h : Safe S p B s)
    (hrun : Run S.sem p s tr q s') : Safe S q B s' := by
  induction hrun with
  | refl => exact h
  | step hsem _ ih => exact ih (h.step hsem).2

/-- The outcome of a finished run. -/
theorem ends {p : Prog E R ε α} {tr : Trace E R ε} {r : Except ε α} (h : Safe S p B s)
    (hrun : Ends S.sem p s tr r s') : B r s' := by
  have hsafe := h.run hrun
  cases r with
  | ok a => exact wp_ok hsafe.rest hsafe.inv
  | error x => exact wp_error hsafe.rest hsafe.inv

theorem ok {a : α} (h : Safe S (.ret a) B s) : B (.ok a) s := wp_ok h.rest h.inv

theorem error {x : ε} (h : Safe S (.raise x) B s) : B (.error x) s := wp_error h.rest h.inv

end Safe

/-! ## Runs among the steps of others -/

/-- A run of a program beside others: between any two of its requests the state may move by
`env`. -/
inductive Among (sem : Sem E R ε σ) (env : σ → σ → Prop) :
    Prog E R ε α → σ → Trace E R ε → Prog E R ε α → σ → Prop where
  | refl (p : Prog E R ε α) (s : σ) : Among sem env p s [] p s
  | env {p q : Prog E R ε α} {s s' s'' : σ} {tr : Trace E R ε} (h : env s s')
      (hrun : Among sem env p s' tr q s'') : Among sem env p s tr q s''
  | step {e : E} {k : Except ε (R e) → Prog E R ε α} {s s' s'' : σ} {r : Except ε (R e)}
      {tr : Trace E R ε} {q : Prog E R ε α} (h : sem e s r s')
      (hrun : Among sem env (k r) s' tr q s'') : Among sem env (.call e k) s (⟨e, r⟩ :: tr) q s''

section Among

/-- More may happen between two requests. -/
theorem Among.mono {sem : Sem E R ε σ} {env env' : σ → σ → Prop}
    {p q : Prog E R ε α} {s s' : σ} {tr : Trace E R ε} (h : Among sem env p s tr q s')
    (henv : ∀ s s', env s s' → env' s s') : Among sem env' p s tr q s' := by
  induction h with
  | refl p s => exact .refl p s
  | env h _ ih => exact .env (henv _ _ h) ih
  | step h _ ih => exact .step h ih

variable {S : Setting E R ε σ} {s s' : σ}

theorem among_of_env {p q : Prog E R ε α} {tr : Trace E R ε} {s'' : σ} (h : S.Env s s')
    (hrun : Among S.sem S.rely p s' tr q s'') : Among S.sem S.rely p s tr q s'' := by
  induction h using ReflTransGen.head_induction_on with
  | refl => exact hrun
  | head hstep _ ih => exact .env hstep.1 ih

/-- A program whose requests keep the invariant and the guarantee, and whose finished runs beside
the others end under `B`. -/
theorem Triple.of_among {P : E → Prop} {A : σ → Prop} {p : Prog E R ε α}
    {B : Except ε α → σ → Prop} (hp : p.Calls P) (hB : ∀ r, S.Stable (B r))
    (hstep : ∀ e, P e → ∀ s r s', S.inv s → S.sem e s r s' → S.inv s' ∧ S.guar s s')
    (h : ∀ s tr r s', S.inv s → A s → Among S.sem S.rely p s tr (Prog.ofExcept r) s' → B r s') :
    Triple S A p B := by
  refine ⟨hB, fun s hi hs => ?_⟩
  replace h : ∀ tr r s', Among S.sem S.rely p s tr (Prog.ofExcept r) s' → B r s' :=
    fun tr r s' hrun => h s tr r s' hi hs hrun
  clear hs
  induction p generalizing s with
  | ret a => exact fun s' henv _ => h [] (.ok a) s' (among_of_env henv (.refl _ _))
  | raise x => exact fun s' henv _ => h [] (.error x) s' (among_of_env henv (.refl _ _))
  | call e k ih =>
    intro s₁ henv hi₁ r s₂ hsem
    obtain ⟨hi₂, hg⟩ := hstep e hp.1 s₁ r s₂ hi₁ hsem
    refine ⟨hi₂, hg, ih r (hp.2 r) s₂ hi₂ fun tr r' s' hrun => ?_⟩
    exact h _ r' s' (among_of_env henv (.step hsem hrun))

/-- What a program ends under in a setting, its runs beside others do. -/
theorem Safe.among {B : Except ε α → σ → Prop} {p q : Prog E R ε α} {tr : Trace E R ε}
    {env : σ → σ → Prop} (h : Safe S p B s) (hrun : Among S.sem env p s tr q s')
    (henv : ∀ s s', S.inv s → env s s' → S.rely s s' ∧ S.inv s') : Safe S q B s' := by
  induction hrun with
  | refl => exact h
  | env hstep _ ih =>
    obtain ⟨hrely, hinv⟩ := henv _ _ h.inv hstep
    exact ih (h.env hrely hinv)
  | step hsem _ ih => exact ih (h.step hsem).2

end Among

/-! ## A program alone -/

/-- Nobody else steps, and the program owes nothing but the invariant. -/
def Setting.alone (sem : Sem E R ε σ) (inv : σ → Prop) : Setting E R ε σ where
  sem := sem
  inv := inv
  rely _ _ := False
  guar _ _ := True

section Alone

variable {sem : Sem E R ε σ} {inv A : σ → Prop}

theorem stable_alone : (Setting.alone sem inv).Stable A :=
  fun _ _ _ _ hrely _ => hrely.elim

theorem env_alone {s s' : σ} (h : (Setting.alone sem inv).Env s s') : s' = s := by
  cases h with
  | refl => rfl
  | tail _ hstep => exact hstep.1.elim

/-- A program whose requests keep the invariant, and whose finished runs end under `B`. -/
theorem Triple.of_ends {P : E → Prop} {p : Prog E R ε α} {B : Except ε α → σ → Prop}
    (hp : p.Calls P) (hinv : ∀ e, P e → ∀ s r s', inv s → sem e s r s' → inv s')
    (h : ∀ s tr r s', inv s → A s → Ends sem p s tr r s' → inv s' → B r s') :
    Triple (Setting.alone sem inv) A p B := by
  refine ⟨fun _ => stable_alone, fun s hi hs => ?_⟩
  replace h : ∀ tr r s', Ends sem p s tr r s' → inv s' → B r s' :=
    fun tr r s' hrun hi' => h s tr r s' hi hs hrun hi'
  clear hs
  induction p generalizing s with
  | ret a =>
    intro s' henv hi'
    obtain rfl := env_alone henv
    exact h [] (.ok a) s' (.refl _ _) hi'
  | raise x =>
    intro s' henv hi'
    obtain rfl := env_alone henv
    exact h [] (.error x) s' (.refl _ _) hi'
  | call e k ih =>
    intro s₁ henv hi₁ r s₂ hsem
    obtain rfl := env_alone henv
    have hi₂ : inv s₂ := hinv e hp.1 s₁ r s₂ hi₁ hsem
    exact ⟨hi₂, trivial, ih r (hp.2 r) s₂ hi₂ fun tr r' s' hrun => h _ r' s' (.step hsem hrun)⟩

end Alone

end Effect
