import Mathlib.Data.List.Basic

/-!
# Effect programs

A program that talks to an environment is a tree: it returns a value, raises an exception, or
performs one request and continues with whatever the environment answers. An answer is either a
response of the request's own type or an exception, so every request is a point where the
program may be interrupted.

* **`Prog`** — the tree, with the one combinator everything else is built from: `andThen`
  resumes with the *outcome* of a program, value or exception, so `bind`, `tryCatch` and
  `finally'` are three of its instances.
* **`Prog.Calls`** — which requests a program can make, whatever it is answered.
* **`Prog.Yields`** — which outcomes it can end in, given which answers are possible.
* **`Run`** — the meaning over a state, given what one request does (`Sem`): a run with its
  trace, finished or cut short. `run_andThen` takes the run of a sequence apart, and
  `Prog.eval` computes the run whose answers are a function.
-/

namespace Effect

/-- A program over requests `E` with responses `R`, exceptions `ε` and result `α`. -/
inductive Prog (E : Type) (R : E → Type) (ε α : Type) : Type where
  | ret (a : α)
  | raise (x : ε)
  | call (e : E) (k : Except ε (R e) → Prog E R ε α)

namespace Prog

variable {E : Type} {R : E → Type} {ε α β γ : Type}

/-- Run `p`, then go on with its outcome. -/
def andThen : Prog E R ε α → (Except ε α → Prog E R ε β) → Prog E R ε β
  | ret a, k => k (.ok a)
  | raise x, k => k (.error x)
  | call e f, k => call e fun r => (f r).andThen k

/-- The final program of an outcome. -/
def ofExcept : Except ε α → Prog E R ε α
  | .ok a => ret a
  | .error x => raise x

/-- Sequencing: an exception skips the continuation. -/
def bind (p : Prog E R ε α) (f : α → Prog E R ε β) : Prog E R ε β :=
  p.andThen fun
    | .ok a => f a
    | .error x => raise x

/-- `try p except h`: a value skips the handler. -/
def tryCatch (p : Prog E R ε α) (h : ε → Prog E R ε α) : Prog E R ε α :=
  p.andThen fun
    | .ok a => ret a
    | .error x => h x

/-- `try p finally fin`: `fin` runs after either outcome, which is then resumed. -/
def finally' (p : Prog E R ε α) (fin : Prog E R ε Unit) : Prog E R ε α :=
  p.andThen fun r => fin.bind fun _ => ofExcept r

/-- One request, its exceptions raised. -/
def perform (e : E) : Prog E R ε (R e) :=
  call e ofExcept

instance : Monad (Prog E R ε) where
  pure := ret
  bind := bind

@[simp] theorem pure_eq (a : α) : (pure a : Prog E R ε α) = ret a := rfl

@[simp] theorem bind_eq (p : Prog E R ε α) (f : α → Prog E R ε β) : p >>= f = p.bind f := rfl

@[simp] theorem map_eq (p : Prog E R ε α) (f : α → β) : f <$> p = p.bind fun a => ret (f a) := rfl

@[simp] theorem ret_andThen (a : α) (k : Except ε α → Prog E R ε β) :
    (ret a : Prog E R ε α).andThen k = k (.ok a) := rfl

@[simp] theorem raise_andThen (x : ε) (k : Except ε α → Prog E R ε β) :
    (raise x : Prog E R ε α).andThen k = k (.error x) := rfl

@[simp] theorem call_andThen (e : E) (f : Except ε (R e) → Prog E R ε α)
    (k : Except ε α → Prog E R ε β) :
    (call e f).andThen k = call e fun r => (f r).andThen k := rfl

@[simp] theorem ret_bind (a : α) (f : α → Prog E R ε β) :
    (ret a : Prog E R ε α).bind f = f a := rfl

@[simp] theorem raise_bind (x : ε) (f : α → Prog E R ε β) :
    (raise x : Prog E R ε α).bind f = raise x := rfl

@[simp] theorem ofExcept_andThen (r : Except ε α) (k : Except ε α → Prog E R ε β) :
    (ofExcept r : Prog E R ε α).andThen k = k r := by
  cases r <;> rfl

@[simp] theorem perform_andThen (e : E) (k : Except ε (R e) → Prog E R ε β) :
    (perform e : Prog E R ε (R e)).andThen k = call e k := by
  simp only [perform, call_andThen, ofExcept_andThen]

/-- Resuming twice is resuming once with the composed continuation. -/
theorem andThen_assoc (p : Prog E R ε α) (k : Except ε α → Prog E R ε β)
    (l : Except ε β → Prog E R ε γ) :
    (p.andThen k).andThen l = p.andThen fun r => (k r).andThen l := by
  induction p with
  | ret a => rfl
  | raise x => rfl
  | call e f ih => simp only [call_andThen, ih]

theorem bind_assoc (p : Prog E R ε α) (f : α → Prog E R ε β) (g : β → Prog E R ε γ) :
    (p.bind f).bind g = p.bind fun a => (f a).bind g := by
  unfold bind
  rw [andThen_assoc]
  congr 1
  funext r
  cases r <;> rfl

theorem bind_ret (p : Prog E R ε α) : (p.bind fun a => ret a) = p := by
  induction p with
  | ret a => rfl
  | raise x => rfl
  | call e f ih => exact congrArg (call e) (funext ih)

/-- Returning a view of a value maps the outcome. -/
theorem bind_ret_eq (p : Prog E R ε α) (f : α → β) :
    (p.bind fun a => ret (f a)) = p.andThen fun r => ofExcept (r.map f) := by
  unfold bind
  congr 1
  funext r
  cases r <;> rfl

/-! ## What a program can ask and how it can end -/

/-- Every request `p` can make satisfies `P`, whatever the answers. -/
def Calls (P : E → Prop) : Prog E R ε α → Prop
  | ret _ => True
  | raise _ => True
  | call e k => P e ∧ ∀ r, (k r).Calls P

/-- Every outcome `p` can end in satisfies `Q`, as long as the answers it gets satisfy `ok`. -/
def Yields (ok : (e : E) → Except ε (R e) → Prop) (Q : Except ε α → Prop) : Prog E R ε α → Prop
  | ret a => Q (.ok a)
  | raise x => Q (.error x)
  | call e k => ∀ r, ok e r → (k r).Yields ok Q

@[simp] theorem calls_ret {P : E → Prop} (a : α) : (ret a : Prog E R ε α).Calls P := trivial

@[simp] theorem calls_raise {P : E → Prop} (x : ε) : (raise x : Prog E R ε α).Calls P := trivial

@[simp] theorem calls_ofExcept {P : E → Prop} (r : Except ε α) :
    (ofExcept r : Prog E R ε α).Calls P := by
  cases r <;> trivial

theorem Calls.andThen {P : E → Prop} {p : Prog E R ε α} {k : Except ε α → Prog E R ε β}
    (hp : p.Calls P) (hk : ∀ r, (k r).Calls P) : (p.andThen k).Calls P := by
  induction p with
  | ret a => exact hk _
  | raise x => exact hk _
  | call e f ih => exact ⟨hp.1, fun r => ih r (hp.2 r)⟩

theorem Calls.bind {P : E → Prop} {p : Prog E R ε α} {f : α → Prog E R ε β}
    (hp : p.Calls P) (hf : ∀ a, (f a).Calls P) : (p.bind f).Calls P := by
  refine hp.andThen fun r => ?_
  cases r with
  | ok a => exact hf a
  | error x => trivial

theorem Calls.tryCatch {P : E → Prop} {p : Prog E R ε α} {h : ε → Prog E R ε α}
    (hp : p.Calls P) (hh : ∀ x, (h x).Calls P) : (p.tryCatch h).Calls P := by
  refine hp.andThen fun r => ?_
  cases r with
  | ok a => trivial
  | error x => exact hh x

theorem calls_perform {P : E → Prop} {e : E} (h : P e) : (perform e : Prog E R ε (R e)).Calls P :=
  ⟨h, fun r => calls_ofExcept r⟩

theorem Calls.mono {P P' : E → Prop} (h : ∀ e, P e → P' e) {p : Prog E R ε α} (hp : p.Calls P) :
    p.Calls P' := by
  induction p with
  | ret a => trivial
  | raise x => trivial
  | call e f ih => exact ⟨h e hp.1, fun r => ih r (hp.2 r)⟩

variable {ok : (e : E) → Except ε (R e) → Prop}

theorem Yields.andThen {Q : Except ε β → Prop} {p : Prog E R ε α}
    {k : Except ε α → Prog E R ε β} (hp : p.Yields ok fun r => (k r).Yields ok Q) :
    (p.andThen k).Yields ok Q := by
  induction p with
  | ret a => exact hp
  | raise x => exact hp
  | call e f ih => exact fun r hr => ih r (hp r hr)

theorem Yields.mono {Q Q' : Except ε α → Prop} (h : ∀ r, Q r → Q' r) {p : Prog E R ε α}
    (hp : p.Yields ok Q) : p.Yields ok Q' := by
  induction p with
  | ret a => exact h _ hp
  | raise x => exact h _ hp
  | call e f ih => exact fun r hr => ih r (hp r hr)

theorem Yields.restrict {ok' : (e : E) → Except ε (R e) → Prop} (h : ∀ e r, ok' e r → ok e r)
    {Q : Except ε α → Prop} {p : Prog E R ε α} (hp : p.Yields ok Q) : p.Yields ok' Q := by
  induction p with
  | ret a => exact hp
  | raise x => exact hp
  | call e f ih => exact fun r hr => ih r (hp r (h e r hr))

theorem yields_true (p : Prog E R ε α) : p.Yields ok fun _ => True := by
  induction p with
  | ret a => trivial
  | raise x => trivial
  | call e f ih => exact fun r _ => ih r

/-- What the continuation of a sequence yields, the sequence does. -/
theorem Yields.after {Q : Except ε β → Prop} (p : Prog E R ε α) {k : Except ε α → Prog E R ε β}
    (hk : ∀ r, (k r).Yields ok Q) : (p.andThen k).Yields ok Q :=
  Yields.andThen ((yields_true p).mono fun r _ => hk r)

theorem yields_ofExcept {Q : Except ε α → Prop} {r : Except ε α} (h : Q r) :
    (ofExcept r : Prog E R ε α).Yields ok Q := by
  cases r <;> exact h

theorem yields_perform {e : E} {Q : Except ε (R e) → Prop} (h : ∀ r, ok e r → Q r) :
    (perform e : Prog E R ε (R e)).Yields ok Q :=
  fun r hr => yields_ofExcept (h r hr)

/-- An outcome reached by `bind` comes from the continuation, or is an exception of `p`. -/
theorem Yields.bind {P : α → Prop} {Q : Except ε β → Prop} {p : Prog E R ε α}
    {f : α → Prog E R ε β}
    (hp : p.Yields ok fun
      | .ok a => P a
      | .error x => Q (.error x))
    (hf : ∀ a, P a → (f a).Yields ok Q) : (p.bind f).Yields ok Q := by
  refine Yields.andThen (hp.mono fun r hr => ?_)
  cases r with
  | ok a => exact hf a hr
  | error x => exact hr

/-- An outcome of `tryCatch` is a value of `p`, or comes from the handler. -/
theorem Yields.tryCatch {P : ε → Prop} {Q : Except ε α → Prop} {p : Prog E R ε α}
    {h : ε → Prog E R ε α}
    (hp : p.Yields ok fun
      | .ok a => Q (.ok a)
      | .error x => P x)
    (hh : ∀ x, P x → (h x).Yields ok Q) : (p.tryCatch h).Yields ok Q := by
  refine Yields.andThen (hp.mono fun r hr => ?_)
  cases r with
  | ok a => exact hr
  | error x => exact hh x hr

/-! ## Runs -/

/-- What one request does to a state: which answers it may get, and the state after. -/
abbrev Sem (E : Type) (R : E → Type) (ε σ : Type) : Type :=
  (e : E) → σ → Except ε (R e) → σ → Prop

/-- The requests of a run with their answers, oldest first. -/
abbrev Trace (E : Type) (R : E → Type) (ε : Type) : Type := List (Σ e : E, Except ε (R e))

variable {σ : Type}

/-- A run: some of the program's requests are answered, one after the other. It is cut short
where the program that is left is not final. -/
inductive Run (sem : Sem E R ε σ) :
    Prog E R ε α → σ → Trace E R ε → Prog E R ε α → σ → Prop where
  | refl (p : Prog E R ε α) (s : σ) : Run sem p s [] p s
  | step {e : E} {k : Except ε (R e) → Prog E R ε α} {s s' s'' : σ} {r : Except ε (R e)}
      {tr : Trace E R ε} {q : Prog E R ε α} (h : sem e s r s') (hrun : Run sem (k r) s' tr q s'') :
      Run sem (.call e k) s (⟨e, r⟩ :: tr) q s''

/-- A run to the end, with the outcome `r`. -/
abbrev Ends (sem : Sem E R ε σ) (p : Prog E R ε α) (s : σ) (tr : Trace E R ε) (r : Except ε α)
    (s' : σ) : Prop :=
  Run sem p s tr (ofExcept r) s'

section Run

variable {sem : Sem E R ε σ} {s s' : σ} {tr : Trace E R ε}

/-- A final program makes no request. -/
theorem run_ofExcept {r : Except ε α} {q : Prog E R ε α} (h : Run sem (ofExcept r) s tr q s') :
    tr = [] ∧ q = ofExcept r ∧ s' = s := by
  cases r <;> cases h <;> exact ⟨rfl, rfl, rfl⟩

theorem ofExcept_inj {r r' : Except ε α} (h : (ofExcept r : Prog E R ε α) = ofExcept r') :
    r = r' := by
  cases r <;> cases r' <;> cases h <;> rfl

theorem run_ret {a : α} {q : Prog E R ε α} (h : Run sem (ret a) s tr q s') :
    tr = [] ∧ q = ret a ∧ s' = s :=
  run_ofExcept (show Run sem (ofExcept (.ok a)) s tr q s' from h)

theorem ends_ret {a : α} {r : Except ε α} (h : Ends sem (ret a) s tr r s') :
    tr = [] ∧ r = .ok a ∧ s' = s := by
  obtain ⟨htr, hr, hs⟩ := run_ret h
  exact ⟨htr, ofExcept_inj hr, hs⟩

theorem ends_raise {x : ε} {r : Except ε α} (h : Ends sem (raise x) s tr r s') :
    tr = [] ∧ r = .error x ∧ s' = s := by
  obtain ⟨htr, hr, hs⟩ := run_ofExcept (show Run sem (ofExcept (.error x)) s tr _ s' from h)
  exact ⟨htr, ofExcept_inj hr, hs⟩

/-- A finished run of a program that starts with a request. -/
theorem ends_call {e : E} {k : Except ε (R e) → Prog E R ε α} {r : Except ε α}
    (h : Ends sem (call e k) s tr r s') :
    ∃ r₁ tr' s₁, tr = ⟨e, r₁⟩ :: tr' ∧ sem e s r₁ s₁ ∧ Ends sem (k r₁) s₁ tr' r s' := by
  unfold Ends at h
  generalize hq : (ofExcept r : Prog E R ε α) = q at h
  cases h with
  | refl => cases r <;> cases hq
  | step hsem hrun =>
    subst hq
    exact ⟨_, _, _, rfl, hsem, hrun⟩

/-- A run of a sequence is a run of its first part, or a finished run of it and a run of the
rest. -/
theorem run_andThen {p : Prog E R ε α} {k : Except ε α → Prog E R ε β} {q : Prog E R ε β}
    (h : Run sem (p.andThen k) s tr q s') :
    (∃ p', Run sem p s tr p' s' ∧ q = p'.andThen k) ∨
    ∃ r tr₁ tr₂ s₁, tr = tr₁ ++ tr₂ ∧ Ends sem p s tr₁ r s₁ ∧ Run sem (k r) s₁ tr₂ q s' := by
  induction p generalizing s tr with
  | ret a => exact Or.inr ⟨.ok a, [], tr, s, rfl, .refl _ _, h⟩
  | raise x => exact Or.inr ⟨.error x, [], tr, s, rfl, .refl _ _, h⟩
  | call e f ih =>
    cases h with
    | refl => exact Or.inl ⟨.call e f, .refl _ _, rfl⟩
    | step hsem hrun =>
      rcases ih _ hrun with ⟨p', hp, rfl⟩ | ⟨r, tr₁, tr₂, s₁, rfl, hp, hk⟩
      · exact Or.inl ⟨p', .step hsem hp, rfl⟩
      · exact Or.inr ⟨r, _, tr₂, s₁, rfl, .step hsem hp, hk⟩

/-- A finished run of a sequence. -/
theorem ends_andThen {p : Prog E R ε α} {k : Except ε α → Prog E R ε β} {r : Except ε β}
    (h : Ends sem (p.andThen k) s tr r s') :
    ∃ r₁ tr₁ tr₂ s₁, tr = tr₁ ++ tr₂ ∧ Ends sem p s tr₁ r₁ s₁ ∧ Ends sem (k r₁) s₁ tr₂ r s' := by
  rcases run_andThen h with ⟨p', hp, hq⟩ | hends
  · -- what is left of the first part is final, so its run is finished
    cases p' with
    | ret a =>
      simp only [ret_andThen] at hq
      exact ⟨.ok a, tr, [], s', by simp, hp, hq ▸ .refl _ _⟩
    | raise x =>
      simp only [raise_andThen] at hq
      exact ⟨.error x, tr, [], s', by simp, hp, hq ▸ .refl _ _⟩
    | call e f => cases r <;> cases hq
  · exact hends

/-- A run of a program that was started with the trace of a finished run of its first part. -/
theorem run_replay {p : Prog E R ε α} {k : Except ε α → Prog E R ε β} {q : Prog E R ε β}
    {t t' : σ} {tr₁ tr₂ : Trace E R ε} {r : Except ε α}
    (h : Run sem (p.andThen k) s (tr₁ ++ tr₂) q s') (hp : Ends sem p t tr₁ r t') :
    ∃ s₁, Ends sem p s tr₁ r s₁ ∧ Run sem (k r) s₁ tr₂ q s' := by
  induction p generalizing s t tr₁ with
  | ret a =>
    obtain ⟨rfl, hr, _⟩ := run_ofExcept (show Run sem (ofExcept (.ok a)) t tr₁ _ t' from hp)
    cases ofExcept_inj hr
    exact ⟨s, .refl _ _, h⟩
  | raise x =>
    obtain ⟨rfl, hr, _⟩ := run_ofExcept (show Run sem (ofExcept (.error x)) t tr₁ _ t' from hp)
    cases ofExcept_inj hr
    exact ⟨s, .refl _ _, h⟩
  | call e f ih =>
    obtain ⟨r₁, tr', t₁, rfl, _, hrun⟩ := ends_call hp
    cases h with
    | step hsem' hrun' =>
      obtain ⟨s₁, hp', hk⟩ := ih _ hrun' hrun
      exact ⟨s₁, .step hsem' hp', hk⟩

theorem ends_bind {p : Prog E R ε α} {f : α → Prog E R ε β} {a : α} {s₁ : σ}
    {tr₁ tr₂ : Trace E R ε} {r : Except ε β} (hp : Ends sem p s tr₁ (.ok a) s₁)
    (hf : Ends sem (f a) s₁ tr₂ r s') : Ends sem (p.bind f) s (tr₁ ++ tr₂) r s' := by
  induction p generalizing s tr₁ with
  | ret b =>
    obtain ⟨rfl, hb, rfl⟩ := ends_ret hp
    cases hb
    exact hf
  | raise x => cases (ends_raise hp).2.1
  | call e k ih =>
    obtain ⟨r₁, tr', s₂, rfl, hsem, hrun⟩ := ends_call hp
    exact .step hsem (ih r₁ hrun)

/-- A finished run of `bind` that returns has two parts that do. -/
theorem ends_bind_ok {p : Prog E R ε α} {f : α → Prog E R ε β} {b : β}
    (h : Ends sem (p.bind f) s tr (.ok b) s') :
    ∃ a tr₁ tr₂ s₁, tr = tr₁ ++ tr₂ ∧ Ends sem p s tr₁ (.ok a) s₁ ∧
      Ends sem (f a) s₁ tr₂ (.ok b) s' := by
  obtain ⟨r, tr₁, tr₂, s₁, htr, hp, hf⟩ := ends_andThen h
  cases r with
  | ok a => exact ⟨a, tr₁, tr₂, s₁, htr, hp, hf⟩
  | error x => cases (ends_raise hf).2.1

/-- A finished run of `bind` that raises does so in its first part or in its second. -/
theorem ends_bind_error {p : Prog E R ε α} {f : α → Prog E R ε β} {x : ε}
    (h : Ends sem (p.bind f) s tr (.error x) s') :
    Ends sem p s tr (.error x) s' ∨
    ∃ a tr₁ tr₂ s₁, tr = tr₁ ++ tr₂ ∧ Ends sem p s tr₁ (.ok a) s₁ ∧
      Ends sem (f a) s₁ tr₂ (.error x) s' := by
  obtain ⟨r, tr₁, tr₂, s₁, rfl, hp, hf⟩ := ends_andThen h
  cases r with
  | ok a => exact Or.inr ⟨a, tr₁, tr₂, s₁, rfl, hp, hf⟩
  | error y =>
    obtain ⟨rfl, hr, rfl⟩ := ends_raise hf
    cases hr
    exact Or.inl (by rwa [List.append_nil])

theorem Run.snoc {p : Prog E R ε α} {e : E} {k : Except ε (R e) → Prog E R ε α}
    {r : Except ε (R e)} {s'' : σ} (h : Run sem p s tr (.call e k) s') (hsem : sem e s' r s'') :
    Run sem p s (tr ++ [⟨e, r⟩]) (k r) s'' := by
  generalize hq : (Prog.call e k) = q at h
  induction h with
  | refl =>
    subst hq
    exact .step hsem (.refl _ _)
  | step hfirst _ ih => exact .step hfirst (ih hsem hq)

/-- A run of `bind`: cut short in its first part, ended by an exception of it, or gone on to the
second. -/
theorem run_bind {p : Prog E R ε α} {f : α → Prog E R ε β} {q : Prog E R ε β}
    (h : Run sem (p.bind f) s tr q s') :
    (∃ p', Run sem p s tr p' s') ∨
    ∃ a tr₁ tr₂ s₁, tr = tr₁ ++ tr₂ ∧ Ends sem p s tr₁ (.ok a) s₁ ∧ Run sem (f a) s₁ tr₂ q s' := by
  rcases run_andThen h with ⟨p', hp, _⟩ | ⟨r, tr₁, tr₂, s₁, rfl, hp, hk⟩
  · exact Or.inl ⟨p', hp⟩
  · cases r with
    | ok a => exact Or.inr ⟨a, tr₁, tr₂, s₁, rfl, hp, hk⟩
    | error x =>
      obtain ⟨rfl, _, rfl⟩ := run_ofExcept (show Run sem (ofExcept (.error x)) s₁ tr₂ q s' from hk)
      exact Or.inl ⟨_, by rwa [List.append_nil]⟩

/-- A finished run of one request. -/
theorem ends_perform {e : E} {r : Except ε (R e)} (h : Ends sem (perform e) s tr r s') :
    tr = [⟨e, r⟩] ∧ sem e s r s' := by
  obtain ⟨r₁, tr', s₁, rfl, hsem, hrun⟩ := ends_call h
  obtain ⟨rfl, hr, rfl⟩ := run_ofExcept hrun
  cases ofExcept_inj hr
  exact ⟨rfl, hsem⟩

/-- A finished run of `tryCatch`: a value of the program, or a run of the handler. -/
theorem ends_tryCatch {p : Prog E R ε α} {h : ε → Prog E R ε α} {r : Except ε α}
    (hrun : Ends sem (p.tryCatch h) s tr r s') :
    (∃ a, r = .ok a ∧ Ends sem p s tr r s') ∨
    ∃ x tr₁ tr₂ s₁, tr = tr₁ ++ tr₂ ∧ Ends sem p s tr₁ (.error x) s₁ ∧
      Ends sem (h x) s₁ tr₂ r s' := by
  obtain ⟨r₁, tr₁, tr₂, s₁, rfl, hp, hk⟩ := ends_andThen hrun
  cases r₁ with
  | ok a =>
    obtain ⟨rfl, hr, rfl⟩ := run_ofExcept (show Run sem (ofExcept (.ok a)) s₁ tr₂ _ s' from hk)
    cases ofExcept_inj hr
    exact Or.inl ⟨a, rfl, by rwa [List.append_nil]⟩
  | error x => exact Or.inr ⟨x, tr₁, tr₂, s₁, rfl, hp, hk⟩

/-- What every request of a program keeps, a run keeps. -/
theorem Calls.keeps {P : E → Prop} {I : σ → Prop}
    (hstep : ∀ e, P e → ∀ s r s', I s → sem e s r s' → I s') {p q : Prog E R ε α}
    (hp : p.Calls P) (h : Run sem p s tr q s') (hs : I s) : I s' := by
  induction h with
  | refl => exact hs
  | step hsem _ ih => exact ih (hp.2 _) (hstep _ hp.1 _ _ _ hs hsem)

/-- Every request of a run satisfies what the program's requests satisfy, and so do those of the
program that is left. -/
theorem Calls.run {P : E → Prop} {p q : Prog E R ε α} (hp : p.Calls P)
    (h : Run sem p s tr q s') : (∀ c ∈ tr, P c.1) ∧ q.Calls P := by
  induction h with
  | refl => exact ⟨fun _ hc => absurd hc List.not_mem_nil, hp⟩
  | step _ _ ih =>
    obtain ⟨htr, hq⟩ := ih (hp.2 _)
    refine ⟨fun c hc => ?_, hq⟩
    rcases List.mem_cons.mp hc with rfl | hmem
    · exact hp.1
    · exact htr c hmem

/-- The outcome of a finished run is one the program yields. -/
theorem Yields.ends {Q : Except ε α → Prop} {p q : Prog E R ε α} (hp : p.Yields ok Q)
    (h : Run sem p s tr q s') (hok : ∀ e s r s', sem e s r s' → ok e r) : q.Yields ok Q := by
  induction h with
  | refl => exact hp
  | step hsem _ ih => exact ih (hp _ (hok _ _ _ _ hsem))

end Run

/-! ## Runs that can be computed -/

/-- The run of a program whose requests are answered by a function. -/
def eval (answer : (e : E) → σ → Except ε (R e) × σ) :
    Prog E R ε α → σ → Trace E R ε × Except ε α × σ
  | ret a, s => ([], .ok a, s)
  | raise x, s => ([], .error x, s)
  | call e k, s =>
    let (r, s') := answer e s
    let (tr, result) := (k r).eval answer s'
    (⟨e, r⟩ :: tr, result)

@[simp] theorem eval_ofExcept (answer : (e : E) → σ → Except ε (R e) × σ) (r : Except ε α)
    (s : σ) : (ofExcept r : Prog E R ε α).eval answer s = ([], r, s) := by
  cases r <;> rfl

theorem eval_perform (answer : (e : E) → σ → Except ε (R e) × σ) (e : E) (s : σ) :
    ((perform e : Prog E R ε (R e)).eval answer s).2 = answer e s :=
  congrArg Prod.snd (eval_ofExcept answer (answer e s).1 (answer e s).2)

/-- A sequence is computed part by part. -/
theorem eval_andThen (answer : (e : E) → σ → Except ε (R e) × σ) (p : Prog E R ε α)
    (k : Except ε α → Prog E R ε β) (s : σ) :
    ((p.andThen k).eval answer s).2 =
      ((k (p.eval answer s).2.1).eval answer (p.eval answer s).2.2).2 := by
  induction p generalizing s with
  | ret a => rfl
  | raise x => rfl
  | call e f ih => exact ih _ _

theorem eval_tryCatch (answer : (e : E) → σ → Except ε (R e) × σ) (p : Prog E R ε α)
    (h : ε → Prog E R ε α) (s : σ) :
    ((p.tryCatch h).eval answer s).2 =
      match (p.eval answer s).2 with
      | (.ok a, s') => (.ok a, s')
      | (.error x, s') => ((h x).eval answer s').2 := by
  unfold tryCatch
  rw [eval_andThen]
  rcases (p.eval answer s).2 with ⟨r, s'⟩
  cases r <;> rfl

theorem ends_eval {sem : Sem E R ε σ} {answer : (e : E) → σ → Except ε (R e) × σ}
    (h : ∀ e s, sem e s (answer e s).1 (answer e s).2) (p : Prog E R ε α) (s : σ) :
    Ends sem p s (p.eval answer s).1 (p.eval answer s).2.1 (p.eval answer s).2.2 := by
  induction p generalizing s with
  | ret a => exact .refl _ _
  | raise x => exact .refl _ _
  | call e k ih => exact .step (h e s) (ih _ _)

/-- Where a function gives the only answer, the computed run is the only one. -/
theorem eval_of_ends {sem : Sem E R ε σ} {answer : (e : E) → σ → Except ε (R e) × σ}
    (hsem : ∀ e s r s', sem e s r s' → answer e s = (r, s')) {p : Prog E R ε α} {s s' : σ}
    {tr : Trace E R ε} {r : Except ε α} (h : Ends sem p s tr r s') :
    p.eval answer s = (tr, r, s') := by
  induction p generalizing s tr with
  | ret a =>
    obtain ⟨rfl, rfl, rfl⟩ := ends_ret h
    rfl
  | raise x =>
    obtain ⟨rfl, rfl, rfl⟩ := ends_raise h
    rfl
  | call e k ih =>
    obtain ⟨r₁, tr', s₁, rfl, hanswer, hrest⟩ := ends_call h
    have hrun := ih r₁ hrest
    rw [← (Prod.mk.inj (hsem _ _ _ _ hanswer)).1, ← (Prod.mk.inj (hsem _ _ _ _ hanswer)).2]
      at hrun
    simp only [eval, hrun]
    rw [hsem _ _ _ _ hanswer]

end Prog

end Effect
