import VidiPr.Lib.Prog
import Mathlib.Algebra.Order.Monoid.Canonical.Defs
import Mathlib.Algebra.Order.Pi
import Mathlib.Algebra.BigOperators.Group.List.Basic

/-!
# Request budgets

What a program can spend on its requests, whatever it is answered, when every request has a price
in an ordered monoid, and what that says about the traces of its runs.

* **`Prog.Within price c`** — no path of the program spends more than `c`. Budgets add up along
  `andThen`, and so along `bind` and `tryCatch`.
* **`Within.run`** — a run spends what its trace shows, and what is left of the program has the
  rest.
* **`anyOf`** — the semantics without a state, in which an answer only has to satisfy a condition;
  every run is one of it (`Run.anyOf`), and every run of it can be finished (`Run.finish`).
-/

namespace Effect

namespace Prog

variable {E : Type} {R : E → Type} {ε α β σ : Type}

section Budget

variable {M : Type} [AddCommMonoid M] [PartialOrder M] [IsOrderedAddMonoid M]
  [CanonicallyOrderedAdd M] {price : E → M}

/-- No path of the program spends more than `c`. -/
def Within (price : E → M) : M → Prog E R ε α → Prop
  | _, ret _ => True
  | _, raise _ => True
  | c, call e k => ∃ d, price e + d ≤ c ∧ ∀ r, Within price d (k r)

variable {c d : M} {p : Prog E R ε α}

omit [CanonicallyOrderedAdd M] [IsOrderedAddMonoid M] in
theorem Within.mono (h : p.Within price c) (hle : c ≤ d) : p.Within price d := by
  cases p with
  | ret a => trivial
  | raise x => trivial
  | call e k =>
    obtain ⟨c', hc', hk⟩ := h
    exact ⟨c', hc'.trans hle, hk⟩

omit [CanonicallyOrderedAdd M] [IsOrderedAddMonoid M] in
/-- A program whose requests are free. -/
theorem Within.free (h : p.Calls fun e => price e = 0) : p.Within price c := by
  induction p generalizing c with
  | ret a => trivial
  | raise x => trivial
  | call e k ih =>
    refine ⟨c, ?_, fun r => ih r (h.2 r)⟩
    have hprice : price e = 0 := h.1
    rw [hprice, zero_add]

/-- Budgets of two programs in a row add up. -/
theorem Within.andThen {k : Except ε α → Prog E R ε β} (hp : p.Within price c)
    (hk : ∀ r, (k r).Within price d) : (p.andThen k).Within price (c + d) := by
  induction p generalizing c with
  | ret a => exact (hk _).mono le_add_self
  | raise x => exact (hk _).mono le_add_self
  | call e f ih =>
    obtain ⟨c', hc', hf⟩ := hp
    refine ⟨c' + d, ?_, fun r => ih r (hf r)⟩
    calc price e + (c' + d) = price e + c' + d := (add_assoc _ _ _).symm
      _ ≤ c + d := add_le_add_left hc' d

theorem Within.bind {f : α → Prog E R ε β} (hp : p.Within price c)
    (hf : ∀ a, (f a).Within price d) : (p.bind f).Within price (c + d) := by
  refine hp.andThen fun r => ?_
  cases r with
  | ok a => exact hf a
  | error x => trivial

theorem Within.tryCatch {h : ε → Prog E R ε α} (hp : p.Within price c)
    (hh : ∀ x, (h x).Within price d) : (p.tryCatch h).Within price (c + d) := by
  refine hp.andThen fun r => ?_
  cases r with
  | ok a => trivial
  | error x => exact hh x

omit [CanonicallyOrderedAdd M] [IsOrderedAddMonoid M] in
theorem within_ofExcept (r : Except ε α) : (ofExcept r : Prog E R ε α).Within price c := by
  cases r <;> trivial

omit [CanonicallyOrderedAdd M] [IsOrderedAddMonoid M] in
theorem within_perform (e : E) : (perform e : Prog E R ε (R e)).Within price (price e) :=
  ⟨0, (add_zero _).le, fun r => within_ofExcept r⟩

/-- A first part whose requests are free. -/
theorem Within.skip {f : α → Prog E R ε β} (hp : p.Calls fun e => price e = 0)
    (hf : ∀ a, (f a).Within price c) : (p.bind f).Within price c := by
  have hfree : p.Within price 0 := .free hp
  exact (hfree.bind hf).mono (zero_add c).le

/-- A second part that spends nothing. -/
theorem Within.then_free {f : α → Prog E R ε β} (hp : p.Within price c)
    (hf : ∀ a, (f a).Within price 0) : (p.bind f).Within price c :=
  (hp.bind hf).mono (add_zero c).le

theorem Within.handled_free {h : ε → Prog E R ε α} (hp : p.Within price c)
    (hh : ∀ x, (h x).Within price 0) : (p.tryCatch h).Within price c :=
  (hp.tryCatch hh).mono (add_zero c).le

/-- What the requests of a trace cost. -/
def spent (price : E → M) (tr : Trace E R ε) : M := (tr.map fun c => price c.1).sum

omit [PartialOrder M] [CanonicallyOrderedAdd M] [IsOrderedAddMonoid M] in
@[simp] theorem spent_nil : spent price ([] : Trace E R ε) = 0 := rfl

omit [PartialOrder M] [CanonicallyOrderedAdd M] [IsOrderedAddMonoid M] in
@[simp] theorem spent_cons (e : E) (r : Except ε (R e)) (tr : Trace E R ε) :
    spent price (⟨e, r⟩ :: tr) = price e + spent price tr := List.sum_cons

omit [PartialOrder M] [CanonicallyOrderedAdd M] [IsOrderedAddMonoid M] in
theorem spent_append (tr tr' : Trace E R ε) :
    spent price (tr ++ tr') = spent price tr + spent price tr' := by
  unfold spent
  rw [List.map_append, List.sum_append]

omit [CanonicallyOrderedAdd M] in
/-- A run spends what its trace shows. -/
theorem Within.run {sem : Sem E R ε σ} {q : Prog E R ε α} {s s' : σ} {tr : Trace E R ε}
    (hp : p.Within price c) (h : Run sem p s tr q s') :
    ∃ left, q.Within price left ∧ spent price tr + left ≤ c := by
  induction h generalizing c with
  | refl p s => exact ⟨c, hp, by rw [spent_nil, zero_add]⟩
  | @step e k s s' s'' r tr q _ _ ih =>
    obtain ⟨c', hc', hk⟩ := hp
    obtain ⟨left, hq, hle⟩ := ih (hk r)
    refine ⟨left, hq, ?_⟩
    calc spent price (⟨e, r⟩ :: tr) + left
        = price e + (spent price tr + left) := by rw [spent_cons, add_assoc]
      _ ≤ price e + c' := add_le_add_right hle _
      _ ≤ c := hc'

/-- No run goes over the budget, finished or cut short. -/
theorem Within.spent_le {sem : Sem E R ε σ} {q : Prog E R ε α} {s s' : σ} {tr : Trace E R ε}
    (hp : p.Within price c) (h : Run sem p s tr q s') : spent price tr ≤ c := by
  obtain ⟨left, _, hle⟩ := hp.run h
  exact le_self_add.trans hle

end Budget

/-! ## Other answers -/

/-- A request may get any answer that satisfies `ok`. -/
def anyOf (ok : (e : E) → Except ε (R e) → Prop) : Sem E R ε Unit := fun e _ r _ => ok e r

/-- Every request gets the answer that is laid down for it. -/
def scripted (answer : (e : E) → Except ε (R e)) (next : E → σ → σ) : Sem E R ε σ :=
  fun e s r s' => r = answer e ∧ s' = next e s

section Answers

variable {sem : Sem E R ε σ} {p q : Prog E R ε α} {s s' : σ} {tr : Trace E R ε}

theorem Run.imp {sem' : Sem E R ε σ} (h : Run sem p s tr q s')
    (himp : ∀ e s r s', sem e s r s' → sem' e s r s') : Run sem' p s tr q s' := by
  induction h with
  | refl p s => exact .refl p s
  | step hsem _ ih => exact .step (himp _ _ _ _ hsem) ih

/-- Every run is one whose answers satisfy what the answers of its semantics do. -/
theorem Run.anyOf {ok : (e : E) → Except ε (R e) → Prop} (h : Run sem p s tr q s')
    (hok : ∀ e s r s', sem e s r s' → ok e r) : Run (anyOf ok) p () tr q () := by
  induction h with
  | refl p s => exact .refl p ()
  | step hsem _ ih => exact .step (hok _ _ _ _ hsem) ih

theorem Run.trans {q' : Prog E R ε α} {s'' : σ} {tr' : Trace E R ε} (h : Run sem p s tr q s')
    (h' : Run sem q s' tr' q' s'') : Run sem p s (tr ++ tr') q' s'' := by
  induction h with
  | refl => exact h'
  | step hsem _ ih => exact .step hsem (ih h')

/-- What every answer satisfies, the answers of a run satisfy. -/
theorem Run.answered {P : (Σ e : E, Except ε (R e)) → Prop} (h : Run sem p s tr q s')
    (hP : ∀ e s r s', sem e s r s' → P ⟨e, r⟩) : ∀ c ∈ tr, P c := by
  induction h with
  | refl => exact fun c hc => absurd hc List.not_mem_nil
  | step hsem _ ih =>
    intro c hc
    rcases List.mem_cons.mp hc with rfl | hc
    · exact hP _ _ _ _ hsem
    · exact ih c hc

/-- A run that was cut short can be finished with answers that are laid down, if they are possible
ones. -/
theorem Run.finish (h : Run sem p s tr q s') (answer : (e : E) → Except ε (R e))
    (next : E → σ → σ) (hanswer : ∀ e s, sem e s (answer e) (next e s)) :
    ∃ rest r s'', Ends (scripted answer next) q s' rest r s'' ∧
      Ends sem q s' rest r s'' ∧ Ends sem p s (tr ++ rest) r s'' := by
  have hends := @ends_eval E R ε α σ (scripted answer next) (fun e s => (answer e, next e s))
    (fun _ _ => ⟨rfl, rfl⟩) q s'
  have hrest : Ends sem q s' _ _ _ :=
    Run.imp hends fun e s r s' ⟨hr, hs⟩ => by
      rw [hr, hs]
      exact hanswer e s
  exact ⟨_, _, _, hends, hrest, h.trans hrest⟩

end Answers

end Prog

end Effect
