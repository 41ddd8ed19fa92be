import Mathlib.Logic.Function.Basic
import VidiPr.Lib.Prog
import VidiPr.Lib.Schedule

/-!
# Pools of tasks

Any number of tasks over one shared state. The pool steps by one step of one task, so that every
interleaving is a run of it; tasks may be started at any time, and the state may move by itself.

* **`Crew`** — how tasks start and step; `Crew.programs` are effect programs that keep a record of
  their requests.
* **`Pool.ReachableIf`** — the pools that runs reach whose steps all meet a condition.
* **`Pool.ReachableIf.keeps`** — what every step keeps.
* **`Pool.reachable_of_execute`** — a pool of programs that a schedule reaches.
-/

namespace Effect

variable {τ ν σ : Type}

/-- The tasks of a pool: how one starts, how it steps, with what the step was, and how the shared
state moves by itself. -/
structure Crew (τ ν σ : Type) where
  starts : σ → τ → Prop
  step : Nat → τ → σ → ν → τ → σ → Prop
  drift : σ → σ → Prop

structure Pool (τ σ : Type) where
  state : σ
  tasks : Nat → Option τ

namespace Pool

/-- Nothing has been started: the shared state, and no task. -/
def idle (s : σ) : Pool τ σ := ⟨s, fun _ => none⟩

/-- The pool after a step of task `n`. -/
def put (pool : Pool τ σ) (n : Nat) (t : τ) (s : σ) : Pool τ σ :=
  ⟨s, Function.update pool.tasks n (some t)⟩

@[simp] theorem put_state (pool : Pool τ σ) (n : Nat) (t : τ) (s : σ) :
    (pool.put n t s).state = s := rfl

@[simp] theorem put_tasks_self (pool : Pool τ σ) (n : Nat) (t : τ) (s : σ) :
    (pool.put n t s).tasks n = some t := Function.update_self ..

theorem put_tasks_of_ne (pool : Pool τ σ) {m n : Nat} (h : m ≠ n) (t : τ) (s : σ) :
    (pool.put n t s).tasks m = pool.tasks m := Function.update_of_ne h ..

/-- A task of the pool after a step of `n` is that of `n` or an old one. -/
theorem put_cases {pool : Pool τ σ} {m n : Nat} {t u : τ} {s : σ}
    (h : (pool.put n t s).tasks m = some u) :
    (m = n ∧ u = t) ∨ (m ≠ n ∧ pool.tasks m = some u) := by
  by_cases hm : m = n
  · subst hm
    rw [put_tasks_self] at h
    exact Or.inl ⟨rfl, (Option.some.inj h).symm⟩
  · rw [put_tasks_of_ne pool hm] at h
    exact Or.inr ⟨hm, h⟩

/-- One step; the label says which task stepped, and how. -/
inductive Step (C : Crew τ ν σ) : Pool τ σ → Option (Nat × ν) → Pool τ σ → Prop where
  | drift {pool : Pool τ σ} {s : σ} (h : C.drift pool.state s) :
      Step C pool none { pool with state := s }
  | start {pool : Pool τ σ} {n : Nat} {t : τ} (hn : pool.tasks n = none)
      (ht : C.starts pool.state t) : Step C pool none (pool.put n t pool.state)
  | task {pool : Pool τ σ} {n : Nat} {t t' : τ} {ev : ν} {s : σ} (hn : pool.tasks n = some t)
      (hs : C.step n t pool.state ev t' s) : Step C pool (some (n, ev)) (pool.put n t' s)

/-- The pools reached from `init` by steps of tasks that all meet `P`, a condition on the pool
before the step and on what the step is. -/
inductive ReachableIf (C : Crew τ ν σ) (init : σ → Prop) (P : Pool τ σ → Nat → ν → Prop) :
    Pool τ σ → Prop where
  | init {s : σ} (h : init s) : ReachableIf C init P (idle s)
  | step {pool pool' : Pool τ σ} {label : Option (Nat × ν)} (h : ReachableIf C init P pool)
      (hs : Step C pool label pool') (hP : ∀ n ev, label = some (n, ev) → P pool n ev) :
      ReachableIf C init P pool'

/-- The pools that any run reaches. -/
abbrev Reachable (C : Crew τ ν σ) (init : σ → Prop) : Pool τ σ → Prop :=
  ReachableIf C init fun _ _ _ => True

variable {C : Crew τ ν σ} {init : σ → Prop} {P : Pool τ σ → Nat → ν → Prop}

/-- A run whose steps meet a condition meets every weaker one. -/
theorem ReachableIf.mono {Q : Pool τ σ → Nat → ν → Prop}
    (hPQ : ∀ pool n ev, P pool n ev → Q pool n ev)
    {pool : Pool τ σ} (h : ReachableIf C init P pool) : ReachableIf C init Q pool := by
  induction h with
  | init h => exact .init h
  | step _ hs hP ih => exact ih.step hs fun n ev hlabel => hPQ _ n ev (hP n ev hlabel)

/-- What holds at first and is kept by every step holds of every pool that is reached. -/
theorem ReachableIf.keeps {I : Pool τ σ → Prop} (hinit : ∀ s, init s → I (idle s))
    (hdrift : ∀ pool s, I pool → C.drift pool.state s → I { pool with state := s })
    (hstart : ∀ pool n t, I pool → pool.tasks n = none → C.starts pool.state t →
      I (pool.put n t pool.state))
    (htask : ∀ pool n t ev t' s, I pool → pool.tasks n = some t → C.step n t pool.state ev t' s →
      P pool n ev → I (pool.put n t' s))
    {pool : Pool τ σ} (h : ReachableIf C init P pool) : I pool := by
  induction h with
  | init h => exact hinit _ h
  | step _ hs hP ih =>
    cases hs with
    | drift h => exact hdrift _ _ ih h
    | start hn ht => exact hstart _ _ _ ih hn ht
    | task hn hs => exact htask _ _ _ _ _ _ ih hn hs (hP _ _ rfl)

end Pool

/-! ## Programs as tasks -/

variable {E : Type} {R : E → Type} {ε α ι : Type}

/-- A program in flight: what it was called with, its requests with their answers, oldest first,
and what is left of it. -/
structure Task (ι E : Type) (R : E → Type) (ε α : Type) where
  args : ι
  done : Prog.Trace E R ε
  rest : Prog E R ε α

/-- Calls of one program, each with arguments of its own. -/
def Crew.programs (prog : ι → Prog E R ε α) (sem : Nat → Prog.Sem E R ε σ) (drift : σ → σ → Prop) :
    Crew (Task ι E R ε α) (Σ e : E, Except ε (R e)) σ where
  starts _ t := t.done = [] ∧ t.rest = prog t.args
  step n t s ev t' s' := ∃ k, t.rest = .call ev.1 k ∧ sem n ev.1 s ev.2 s' ∧
    t' = { t with done := t.done ++ [ev], rest := k ev.2 }
  drift := drift

/-! ## Schedules of programs -/

namespace Pool

/-- What a schedule can ask for. -/
inductive Command (ι κ : Type) where
  /-- start a task -/
  | start (n : Nat) (args : ι)
  /-- task `n` makes its next request -/
  | ask (n : Nat)
  /-- the state moves -/
  | drift (move : κ)

variable {κ : Type}

/-- What a command does, where functions answer the requests and move the state. -/
def perform (prog : ι → Prog E R ε α) (answer : Nat → (e : E) → σ → Option (Except ε (R e) × σ))
    (move : κ → σ → σ) (pool : Pool (Task ι E R ε α) σ) :
    Command ι κ → Option (Option (Nat × Σ e : E, Except ε (R e)) × Pool (Task ι E R ε α) σ)
  | .start n args =>
    match pool.tasks n with
    | none => some (none, pool.put n ⟨args, [], prog args⟩ pool.state)
    | some _ => none
  | .ask n =>
    match pool.tasks n with
    | some ⟨args, done, .call e k⟩ =>
      match answer n e pool.state with
      | some (r, s) => some (some (n, ⟨e, r⟩), pool.put n ⟨args, done ++ [⟨e, r⟩], k r⟩ s)
      | none => none
    | _ => none
  | .drift m => some (none, { pool with state := move m pool.state })

variable {prog : ι → Prog E R ε α} {sem : Nat → Prog.Sem E R ε σ} {drift : σ → σ → Prop}
  {answer : Nat → (e : E) → σ → Option (Except ε (R e) × σ)} {move : κ → σ → σ} {init : σ → Prop}
  {P : Pool (Task ι E R ε α) σ → Nat → (Σ e : E, Except ε (R e)) → Prop}

theorem perform_sound (hanswer : ∀ n e s r s', answer n e s = some (r, s') → sem n e s r s')
    (hmove : ∀ m s, drift s (move m s)) {pool pool' : Pool (Task ι E R ε α) σ}
    {command : Command ι κ} {label : Option (Nat × Σ e : E, Except ε (R e))}
    (h : perform prog answer move pool command = some (label, pool')) :
    Step (.programs prog sem drift) pool label pool' := by
  cases command with
  -- a name that is in use cannot be given again
  | start n args =>
    rw [perform] at h
    split at h
    · rename_i hn
      cases h
      exact .start hn ⟨rfl, rfl⟩
    · cases h
  -- a task that waits for an answer, for which there is one
  | ask n =>
    rw [perform] at h
    split at h
    · rename_i args done e k hn
      split at h
      · rename_i r s hsome
        cases h
        exact .task hn ⟨k, rfl, hanswer _ _ _ _ _ hsome, rfl⟩
      · cases h
    · cases h
  | drift m =>
    cases h
    exact .drift (hmove m pool.state)

/-- Every task of the pool was started by one of the commands. -/
def StartedBy (commands : List (Command ι κ)) (pool : Pool (Task ι E R ε α) σ) : Prop :=
  ∀ n t, pool.tasks n = some t → ∃ args, .start n args ∈ commands

/-- Only `start` puts a task where there was none. -/
theorem StartedBy.perform {commands : List (Command ι κ)} {pool pool' : Pool (Task ι E R ε α) σ}
    {command : Command ι κ} {label : Option (Nat × Σ e : E, Except ε (R e))}
    (hpool : StartedBy commands pool) (hmem : command ∈ commands)
    (h : perform prog answer move pool command = some (label, pool')) :
    StartedBy commands pool' := by
  cases command with
  | start n args =>
    rw [Pool.perform] at h
    split at h
    · cases h
      intro m u hu
      rcases put_cases hu with ⟨rfl, -⟩ | ⟨-, hold⟩
      · exact ⟨args, hmem⟩
      · exact hpool m u hold
    · cases h
  | ask n =>
    rw [Pool.perform] at h
    split at h
    · rename_i args done e k hn
      split at h
      · cases h
        intro m u hu
        rcases put_cases hu with ⟨rfl, -⟩ | ⟨-, hold⟩
        -- the task that asked was there before
        · exact hpool m _ hn
        · exact hpool m u hold
      · cases h
    · cases h
  | drift m =>
    cases h
    exact hpool

/-- A schedule of allowed steps is a run. A test of what is allowed may look at the tasks one by
one, as they are those that the commands start. -/
theorem reachable_of_execute {commands : List (Command ι κ)}
    {allowed : Pool (Task ι E R ε α) σ → Option (Nat × Σ e : E, Except ε (R e)) → Bool}
    (hanswer : ∀ n e s r s', answer n e s = some (r, s') → sem n e s r s')
    (hmove : ∀ m s, drift s (move m s))
    (hallowed : ∀ pool n ev, StartedBy commands pool → allowed pool (some (n, ev)) = true →
      P pool n ev)
    {s : σ} (hinit : init s) {test : Pool (Task ι E R ε α) σ → Bool}
    (h : (Schedule.execute (perform prog answer move) allowed commands (idle s)).any test = true) :
    ∃ pool, ReachableIf (.programs prog sem drift) init P pool ∧ test pool = true := by
  have hidle : StartedBy commands (idle s : Pool (Task ι E R ε α) σ) := fun n t hn => by cases hn
  have hkeep : ∀ pool, ∀ command ∈ commands, ∀ label pool',
      ReachableIf (.programs prog sem drift) init P pool ∧ StartedBy commands pool →
      perform prog answer move pool command = some (label, pool') → allowed pool label = true →
      ReachableIf (.programs prog sem drift) init P pool' ∧ StartedBy commands pool' := by
    rintro pool command hmem label pool' ⟨hpool, hstarted⟩ hperform hok
    refine ⟨hpool.step (perform_sound hanswer hmove hperform) fun n ev hlabel => ?_,
      hstarted.perform hmem hperform⟩
    subst hlabel
    exact hallowed pool n ev hstarted hok
  obtain ⟨pool, ⟨hpool, -⟩, htest⟩ := Schedule.exists_of_execute hkeep ⟨.init hinit, hidle⟩ h
  exact ⟨pool, hpool, htest⟩

end Pool

end Effect
