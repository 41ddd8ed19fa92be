import VidiPr.Lib.Prog

/-!
# Exceptions in a trace

Which answers of a run were exceptions, and a way to pass one on untouched.

* **`lastRaise`** — the last request that was answered with an exception.
* **`Prog.Relays x`** — `p` raises `x` where a request is answered with it, at once, and nowhere
  else. It is kept by sequencing and by handlers that let `x` through, and it makes `x` visible in
  the trace exactly where it is the outcome (`Relays.ends`).
* **`Prog.Unhandled`** — `p` handles no exception at all, so a run has at most one, and ends in it.
-/

namespace Effect

namespace Prog

variable {E : Type} {R : E → Type} {ε α β σ : Type}

/-- The requests that were answered with an exception, in order. -/
def raises (tr : Trace E R ε) : List (E × ε) :=
  tr.filterMap fun
    | ⟨e, .error x⟩ => some (e, x)
    | ⟨_, .ok _⟩ => none

/-- The last of them. -/
def lastRaise (tr : Trace E R ε) : Option (E × ε) := (raises tr).getLast?

@[simp] theorem lastRaise_nil : lastRaise ([] : Trace E R ε) = none := rfl

@[simp] theorem raises_append (tr tr' : Trace E R ε) :
    raises (tr ++ tr') = raises tr ++ raises tr' := List.filterMap_append

theorem lastRaise_append (tr tr' : Trace E R ε) :
    lastRaise (tr ++ tr') = (lastRaise tr').or (lastRaise tr) := by
  rw [lastRaise, raises_append, List.getLast?_append]
  rfl

@[simp] theorem lastRaise_error (e : E) (x : ε) :
    lastRaise ([⟨e, .error x⟩] : Trace E R ε) = some (e, x) := rfl

@[simp] theorem lastRaise_ok (e : E) (v : R e) :
    lastRaise ([⟨e, .ok v⟩] : Trace E R ε) = none := rfl

/-- The last exception of a run came from a request of the run. -/
theorem mem_of_lastRaise {tr : Trace E R ε} {e : E} {x : ε} (h : lastRaise tr = some (e, x)) :
    ⟨e, .error x⟩ ∈ tr := by
  have hmem : (e, x) ∈ raises tr := List.mem_of_getLast? h
  obtain ⟨⟨e', r⟩, hc, hsome⟩ := List.mem_filterMap.mp hmem
  cases r with
  | ok v => cases hsome
  | error x' =>
    cases hsome
    exact hc

/-- Where a request is answered with `x` the program raises it, at once, and nowhere else. -/
def Relays (x : ε) : Prog E R ε α → Prop
  | ret _ => True
  | raise y => y ≠ x
  | call _ k => k (.error x) = raise x ∧ ∀ r, r ≠ .error x → (k r).Relays x

namespace Relays

variable {x : ε}

theorem ofExcept {r : Except ε α} (h : r ≠ .error x) :
    (Prog.ofExcept r : Prog E R ε α).Relays x := by
  cases r with
  | ok a => trivial
  | error y => exact fun heq => h (congrArg Except.error heq)

theorem perform (e : E) : (Prog.perform e : Prog E R ε (R e)).Relays x :=
  ⟨rfl, fun _ hr => .ofExcept hr⟩

theorem andThen {p : Prog E R ε α} {k : Except ε α → Prog E R ε β} (hp : p.Relays x)
    (hx : k (.error x) = raise x) (hk : ∀ r, r ≠ .error x → (k r).Relays x) :
    (p.andThen k).Relays x := by
  induction p with
  | ret a => exact hk _ nofun
  | raise y => exact hk _ fun heq => hp (Except.error.inj heq)
  | call e f ih =>
    have hnow : (f (.error x)).andThen k = raise x := by rw [hp.1, raise_andThen, hx]
    exact ⟨hnow, fun r hr => ih r (hp.2 r hr)⟩

theorem bind {p : Prog E R ε α} {f : α → Prog E R ε β} (hp : p.Relays x)
    (hf : ∀ a, (f a).Relays x) : (p.bind f).Relays x := by
  refine hp.andThen rfl fun r hr => ?_
  cases r with
  | ok a => exact hf a
  | error y => exact fun heq => hr (congrArg Except.error heq)

theorem tryCatch {p : Prog E R ε α} {h : ε → Prog E R ε α} (hp : p.Relays x)
    (hx : h x = raise x) (hh : ∀ y, y ≠ x → (h y).Relays x) : (p.tryCatch h).Relays x := by
  refine hp.andThen hx fun r hr => ?_
  cases r with
  | ok a => trivial
  | error y => exact hh y fun heq => hr (congrArg Except.error heq)

/-- `x` is the last exception of a finished run exactly where it is its outcome. Here the program
relays `x`: it ends with it as soon as a request raises it, and raises no other exception it has
caught. -/
theorem ends {sem : Sem E R ε σ} {p : Prog E R ε α} (hp : p.Relays x) {s s' : σ}
    {tr : Trace E R ε} {r : Except ε α} (h : Ends sem p s tr r s') :
    (∃ e, lastRaise tr = some (e, x)) ↔ r = .error x := by
  induction p generalizing s tr with
  | ret a =>
    obtain ⟨rfl, rfl, _⟩ := ends_ret h
    exact iff_of_false (fun ⟨e, he⟩ => by cases he) nofun
  | raise y =>
    obtain ⟨rfl, rfl, _⟩ := ends_raise h
    exact iff_of_false (fun ⟨e, he⟩ => by cases he) fun heq => hp (Except.error.inj heq)
  | call e k ih =>
    obtain ⟨r₁, tr', s₁, rfl, -, hrun⟩ := ends_call h
    have happ : lastRaise (⟨e, r₁⟩ :: tr') = (lastRaise tr').or (lastRaise [⟨e, r₁⟩]) :=
      lastRaise_append [⟨e, r₁⟩] tr'
    rw [happ]
    by_cases hr₁ : r₁ = .error x
    · -- the program is over
      subst hr₁
      rw [hp.1] at hrun
      obtain ⟨rfl, rfl, _⟩ := ends_raise hrun
      exact iff_of_true ⟨e, rfl⟩ rfl
    · rw [← ih r₁ (hp.2 r₁ hr₁) hrun]
      cases hlast : lastRaise tr' with
      -- a later request has raised something, which decides
      | some raised => exact Iff.rfl
      | none =>
        -- none has: the last exception would be the one of this request
        refine iff_of_false (fun ⟨e', he'⟩ => ?_) fun ⟨e', he'⟩ => by cases he'
        cases r₁ with
        | ok v => cases he'
        | error y =>
          cases he'
          exact hr₁ rfl

end Relays

/-- No exception a request is answered with is handled. -/
def Unhandled : Prog E R ε α → Prop
  | ret _ => True
  | raise _ => True
  | call _ k => (∀ x, k (.error x) = raise x) ∧ ∀ v, (k (.ok v)).Unhandled

namespace Unhandled

theorem ofExcept (r : Except ε α) : (Prog.ofExcept r : Prog E R ε α).Unhandled := by
  cases r <;> trivial

theorem perform (e : E) : (Prog.perform e : Prog E R ε (R e)).Unhandled :=
  ⟨fun _ => rfl, fun _ => trivial⟩

theorem bind {p : Prog E R ε α} {f : α → Prog E R ε β} (hp : p.Unhandled)
    (hf : ∀ a, (f a).Unhandled) : (p.bind f).Unhandled := by
  induction p with
  | ret a => exact hf a
  | raise x => trivial
  | call e k ih =>
    refine ⟨fun x => ?_, fun v => ih _ (hp.2 v)⟩
    show (k (.error x)).bind f = raise x
    rw [hp.1 x, raise_bind]

/-- An exception of a finished run is its outcome. -/
theorem ends {sem : Sem E R ε σ} {p : Prog E R ε α} (hp : p.Unhandled) {s s' : σ}
    {tr : Trace E R ε} {r : Except ε α} (h : Ends sem p s tr r s') :
    lastRaise tr = none ∨ ∃ e x, lastRaise tr = some (e, x) ∧ r = .error x := by
  induction p generalizing s tr with
  | ret a =>
    obtain ⟨rfl, _, _⟩ := ends_ret h
    exact Or.inl rfl
  | raise x =>
    obtain ⟨rfl, _, _⟩ := ends_raise h
    exact Or.inl rfl
  | call e k ih =>
    obtain ⟨r₁, tr', s₁, rfl, -, hrun⟩ := ends_call h
    have happ : lastRaise (⟨e, r₁⟩ :: tr') = (lastRaise tr').or (lastRaise [⟨e, r₁⟩]) :=
      lastRaise_append [⟨e, r₁⟩] tr'
    rw [happ]
    cases r₁ with
    | ok v =>
      rw [lastRaise_ok, Option.or_none]
      exact ih _ (hp.2 v) hrun
    | error x =>
      rw [hp.1 x] at hrun
      obtain ⟨rfl, rfl, _⟩ := ends_raise hrun
      exact Or.inr ⟨e, x, rfl, rfl⟩

end Unhandled

end Prog

end Effect
