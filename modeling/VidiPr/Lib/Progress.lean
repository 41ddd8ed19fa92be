import Mathlib.Data.Finset.Card
import Mathlib.Data.Nat.Find

/-!
# Progress that comes to an end

An infinite run whose states have a rank. A step goes down a relation on the ranks, or it leaves the
rank as it is; where the first rank is accessible, the steps that go down come to an end.

* **`exists_rest`** — from some point on, no step goes down.
* **`exists_done`** — if the run goes down again and again as long as it is not done, it gets done.
* **`exists_served`** — one of finitely many that wait is served in the end, if one of them is
  served again and again as long as it waits.
-/

namespace Effect

variable {S P : Type*} {down : P → P → Prop} {rank : S → P} {run : Nat → S}

/-- The steps that go down end, from any point on whose rank is accessible. Nothing bounds how long
the run stays at a rank, so the induction is on the rank and not on the steps that are left. -/
theorem exists_rest_from
    (hstep : ∀ i, rank (run (i + 1)) = rank (run i) ∨ down (rank (run (i + 1))) (rank (run i)))
    {p : P} (hacc : Acc down p) :
    ∀ i, rank (run i) = p →
      ∃ n, i ≤ n ∧ ∀ j, n ≤ j → ¬ down (rank (run (j + 1))) (rank (run j)) := by
  induction hacc with
  | intro p _ ih =>
    intro i hi
    by_cases hdown : ∃ d, down (rank (run (i + d + 1))) (rank (run (i + d)))
    · -- until the first step down the rank is `p`
      classical
      have hfirst := Nat.find_spec hdown
      have hbefore : ∀ d, d ≤ Nat.find hdown → rank (run (i + d)) = p := by
        intro d
        induction d with
        | zero => exact fun _ => hi
        | succ d ihd =>
          intro hd
          have hnot : ¬ down (rank (run (i + d + 1))) (rank (run (i + d))) :=
            Nat.find_min hdown (by omega)
          have hsame : rank (run (i + d + 1)) = rank (run (i + d)) :=
            (hstep (i + d)).resolve_right hnot
          rw [show i + (d + 1) = i + d + 1 from rfl, hsame]
          exact ihd (by omega)
      rw [hbefore _ (Nat.le_refl _)] at hfirst
      obtain ⟨n, hn, hrest⟩ := ih _ hfirst (i + Nat.find hdown + 1) rfl
      exact ⟨n, by omega, hrest⟩
    · refine ⟨i, Nat.le_refl i, fun j hj => ?_⟩
      obtain ⟨d, rfl⟩ := Nat.exists_eq_add_of_le hj
      exact fun h => hdown ⟨d, h⟩

/-- From some point on, no step goes down. -/
theorem exists_rest
    (hstep : ∀ i, rank (run (i + 1)) = rank (run i) ∨ down (rank (run (i + 1))) (rank (run i)))
    (hacc : Acc down (rank (run 0))) :
    ∃ n, ∀ j, n ≤ j → ¬ down (rank (run (j + 1))) (rank (run j)) := by
  obtain ⟨n, -, hrest⟩ := exists_rest_from hstep hacc 0 rfl
  exact ⟨n, hrest⟩

/-- A run that goes down again and again while it is not done gets done, and stays so. -/
theorem exists_done (rank : S → P) (done : P → Prop)
    (hstep : ∀ i, rank (run (i + 1)) = rank (run i) ∨ down (rank (run (i + 1))) (rank (run i)))
    (hacc : Acc down (rank (run 0)))
    (hfair : ∀ i, ¬ done (rank (run i)) →
      ∃ j, i ≤ j ∧ down (rank (run (j + 1))) (rank (run j))) :
    ∃ n, ∀ j, n ≤ j → done (rank (run j)) := by
  obtain ⟨n, hrest⟩ := exists_rest hstep hacc
  refine ⟨n, fun j hj => ?_⟩
  by_contra hnot
  obtain ⟨l, hl, hdown⟩ := hfair j hnot
  exact hrest l (by omega) hdown

/-! ## A queue -/

section Queue

variable {α : Type*} (waiting : Nat → α → Prop) {queue : Finset α}

/-- What waits has waited all the time. -/
theorem waiting_before (hback : ∀ a ∈ queue, ∀ i, waiting (i + 1) a → waiting i a) {a : α}
    (ha : a ∈ queue) {i j : Nat} (hij : i ≤ j) (h : waiting j a) : waiting i a := by
  obtain ⟨d, rfl⟩ := Nat.exists_eq_add_of_le hij
  clear hij
  induction d with
  | zero => exact h
  | succ d ih => exact ih (hback a ha (i + d) h)

/-- Of those that wait nobody comes back, and as long as `x` waits one of them is served: so `x` is,
when all the others have been. -/
theorem exists_served (hback : ∀ a ∈ queue, ∀ i, waiting (i + 1) a → waiting i a) {x : α}
    (hx : x ∈ queue)
    (hserve : ∀ i, waiting i x → ∃ j, i ≤ j ∧ ∃ a ∈ queue, waiting i a ∧ ¬ waiting j a) :
    ∃ n, ∀ j, n ≤ j → ¬ waiting j x := by
  classical
  -- by induction on how many of them are waiting
  have hcount : ∀ c i, (queue.filter fun a => waiting i a).card = c → ∃ n, ¬ waiting n x := by
    intro c
    induction c using Nat.strong_induction_on with
    | _ c ih =>
      intro i hi
      by_cases hwait : waiting i x
      · obtain ⟨j, hij, a, ha, hai, haj⟩ := hserve i hwait
        have hsub : queue.filter (fun a => waiting j a) ⊆ queue.filter fun a => waiting i a := by
          intro b hb
          obtain ⟨hmem, hbj⟩ := Finset.mem_filter.mp hb
          exact Finset.mem_filter.mpr ⟨hmem, waiting_before waiting hback hmem hij hbj⟩
        have hstrict : queue.filter (fun a => waiting j a) ⊂ queue.filter fun a => waiting i a :=
          (Finset.ssubset_iff_of_subset hsub).mpr ⟨a, Finset.mem_filter.mpr ⟨ha, hai⟩,
            fun hmem => haj (Finset.mem_filter.mp hmem).2⟩
        exact ih _ (hi ▸ Finset.card_lt_card hstrict) j rfl
      · exact ⟨i, hwait⟩
  obtain ⟨n, hn⟩ := hcount _ 0 rfl
  exact ⟨n, fun j hj hwait => hn (waiting_before waiting hback hx hj hwait)⟩

end Queue

end Effect
