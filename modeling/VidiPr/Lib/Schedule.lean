import Mathlib.Data.Option.Basic

/-!
# Schedules of a transition system

A system whose steps can be asked for by commands. A list of commands is a schedule; carrying it
out gives a state, if every command can be obeyed and every step is allowed.

* **`execute`** — carry out a schedule.
* **`execute_sound`** — what allowed steps keep, a schedule keeps.
* **`exists_of_execute`** — a schedule, with a test of the state it leads to.
-/

namespace Schedule

variable {σ ν κ : Type}

/-- Carry out a schedule whose every step is allowed. `perform` is what a command does, with what
the step was. -/
def execute (perform : σ → κ → Option (ν × σ)) (allowed : σ → ν → Bool) : List κ → σ → Option σ
  | [], s => some s
  | command :: rest, s =>
    match perform s command with
    | some (ev, s') => if allowed s ev then execute perform allowed rest s' else none
    | none => none

variable {perform : σ → κ → Option (ν × σ)} {allowed : σ → ν → Bool} {R : σ → Prop}

/-- Only the commands of the schedule have to keep `R`, so what is known of them may be used. -/
theorem execute_sound {commands : List κ}
    (hstep : ∀ s, ∀ command ∈ commands, ∀ ev s', R s → perform s command = some (ev, s') →
      allowed s ev = true → R s')
    {s s' : σ} (h : R s) (he : execute perform allowed commands s = some s') : R s' := by
  induction commands generalizing s with
  | nil =>
    obtain rfl := Option.some.inj he
    exact h
  | cons command rest ih =>
    simp only [execute] at he
    split at he
    · rename_i ev s₁ hperf
      split at he
      · rename_i hok
        exact ih (fun s other hmem => hstep s other (List.mem_cons_of_mem _ hmem))
          (hstep s command List.mem_cons_self ev s₁ h hperf hok) he
      · cases he
    · cases he

/-- A schedule, a test of the state it leads to, and what they show. -/
theorem exists_of_execute {commands : List κ}
    (hstep : ∀ s, ∀ command ∈ commands, ∀ ev s', R s → perform s command = some (ev, s') →
      allowed s ev = true → R s')
    {s : σ} (hs : R s) {test : σ → Bool}
    (h : (execute perform allowed commands s).any test = true) : ∃ s', R s' ∧ test s' = true := by
  cases he : execute perform allowed commands s with
  | none =>
    rw [he] at h
    cases h
  | some s' =>
    rw [he] at h
    exact ⟨s', execute_sound hstep hs he, h⟩

end Schedule
