import VidiPr.Service.Survival

/-!
# The worker on its own

The statements about what the loop comes to in the end speak of infinite runs in which its task is
scheduled again and again. Such runs exist: from every state in which no other task is in the middle
of a transaction the worker's task can go on alone, since nobody locks it out.

* **`Ready`** — nothing holds the loop up. Kept by every move of the worker's task (`Ready.turn`).
* **`alone`** — the run in which the worker's task alone goes on, and stands still once it has
  ended.
-/

namespace VidiPr

open Effect Prog Relational Text Service

namespace Service

section Alone

variable [UnicodeDb] {D : Deployment} (answers : Responder D.external)

/-- No task but the worker is in the middle of a transaction, after an undisturbed run. -/
structure Ready (s : Service D) : Prop where
  reach : ReachableIf Undisturbed s
  free : ∀ owner work, s.world.db.tx = some (owner, work) → owner = .worker

omit [UnicodeDb] in
/-- A statement of the worker that nobody locks out does not fail. -/
theorem respond_worker {w : World D.external}
    (hfree : ∀ owner work, w.db.tx = some (owner, work) → owner = .worker) (e : Req) :
    ∃ r w', respond answers .worker false w e = some (r, w') ∧
      ∀ q, e = .sql q → ∃ v, r = .ok v := by
  cases e with
  | ext e => exact ⟨_, _, rfl, fun q heq => by cases heq⟩
  | sql q =>
    have hrun : ∃ v db, w.db.run .worker q = some (.ok v, db) := by
      cases q with
      | query q => exact ⟨_, _, rfl⟩
      | commit => exact ⟨_, _, rfl⟩
      | rollback => exact ⟨_, _, rfl⟩
      | dml d =>
        -- a write waits for the transaction that is open, unless it is its own
        unfold Sqlite.run
        cases htx : w.db.tx with
        | none => exact ⟨_, _, rfl⟩
        | some open' =>
          obtain ⟨owner, work⟩ := open'
          dsimp only
          rw [if_pos (hfree owner work htx)]
          exact ⟨_, _, rfl⟩
    obtain ⟨v, db, hrun⟩ := hrun
    refine ⟨.ok v, { w with db }, ?_, fun _ _ => ⟨v, rfl⟩⟩
    simp only [respond, Bool.false_eq_true, if_false, hrun]
    rfl

omit [UnicodeDb] in
/-- What is answered does not disturb. -/
theorem undisturbed_worker {s : Service D} {e : Req} {r : Except PyError e.Resp}
    (hok : ∀ q, e = .sql q → ∃ v, r = .ok v) : Undisturbed s (.worker e r) := by
  unfold Undisturbed
  split
  · rename_i q x heq
    cases heq
    obtain ⟨v, hv⟩ := hok q rfl
    cases hv
  · rename_i heq
    cases heq
  · rename_i heq
    cases heq
  · trivial

omit [UnicodeDb] in
/-- The worker's own transaction is the only one. -/
theorem free_of_step {q q' : Sqlite} (h : ActorStep .worker q q')
    (hfree : ∀ owner work, q.tx = some (owner, work) → owner = .worker) :
    ∀ owner work, q'.tx = some (owner, work) → owner = .worker := by
  intro owner work htx
  cases h with
  | same => exact hfree owner work htx
  | write => cases htx; rfl
  | commit => cases htx
  | rollback => cases htx

/-- The loop can go on, undisturbed and without a stop that was not asked for before. -/
def GoesOn (s : Service D) : Prop :=
  ∃ ev s', workerTurn answers false s = some (ev, s') ∧ ev.IsWorker ∧ Undisturbed s ev ∧
    s'.stop = s.stop ∧ ∀ owner work, s'.world.db.tx = some (owner, work) → owner = .worker

/-- The loop is never stuck: what it asks for gets an answer, since no transaction but its own is
open, and a move without a request is always possible. -/
theorem Ready.goesOn {s : Service D} (h : Ready s) (hlive : s.worker.Live) : GoesOn answers s := by
  -- a move without a request
  have hcontrol : ∀ {phase log started}, workerTurn answers false s =
      some (.control, { s with worker := phase, log := log, started := started }) →
      GoesOn answers s :=
    fun hstep => ⟨.control, _, hstep, trivial, trivial, rfl, h.free⟩
  cases hphase : s.worker with
  | idle =>
    by_cases hgo : s.stop = true
    · exact hcontrol (by simp only [workerTurn, hphase]; exact if_pos hgo)
    · exact hcontrol (by simp only [workerTurn, hphase]; exact if_neg hgo)
  | waiting => exact hcontrol (by simp only [workerTurn, hphase]; rfl)
  | claiming p =>
    cases p with
    | ret result =>
      cases result <;> exact hcontrol (by simp only [workerTurn, hphase]; rfl)
    | raise x => exact hcontrol (by simp only [workerTurn, hphase]; rfl)
    | call e k =>
      obtain ⟨r, w', hresp, hok⟩ := respond_worker answers h.free e
      refine ⟨.worker e r, { s with
        world := w', worker := .claiming (k r), log := s.log.record e r }, ?_, trivial,
        undisturbed_worker hok, rfl, ?_⟩
      · simp only [workerTurn, hphase, hresp, Option.map_some]
      · exact free_of_step (actorStep_of_sem (respond_sound hresp)) h.free
  | processing job p =>
    cases p with
    | ret u => exact hcontrol (by simp only [workerTurn, hphase]; rfl)
    | raise x => exact hcontrol (by simp only [workerTurn, hphase]; rfl)
    | call e k =>
      obtain ⟨r, w', hresp, hok⟩ := respond_worker answers h.free e
      refine ⟨.worker e r, { s with
        world := w', worker := .processing job (k r), log := s.log.record e r }, ?_, trivial,
        undisturbed_worker hok, rfl, ?_⟩
      · simp only [workerTurn, hphase, hresp, Option.map_some]
      · exact free_of_step (actorStep_of_sem (respond_sound hresp)) h.free
  | _ =>
    rw [hphase] at hlive
    exact hlive.elim

/-- A loop that has ended does not move. -/
theorem workerTurn_ended {s : Service D} (h : ¬ s.worker.Live) :
    workerTurn answers false s = none := by
  cases hphase : s.worker <;> rw [hphase] at h <;>
    first
    | exact absurd trivial h
    | simp only [workerTurn, hphase]

/-- The run in which the worker's task alone goes on. -/
def alone (s : Service D) : Nat → Service D
  | 0 => s
  | i + 1 => ((workerTurn answers false (alone s i)).map (·.2)).getD (alone s i)

/-- Its events. When the task has ended, `stop()` is called again and again. -/
def aloneEvent (s : Service D) (i : Nat) : Event D :=
  ((workerTurn answers false (alone answers s i)).map (·.1)).getD .requestStop

variable {answers} {s : Service D}

/-- What a step of the run is, as long as the loop goes on. -/
structure AloneTurn (answers : Responder D.external) (s : Service D) (i : Nat) : Prop where
  step : Step (alone answers s i) (aloneEvent answers s i) (alone answers s (i + 1))
  worker : (aloneEvent answers s i).IsWorker
  quiet : Undisturbed (alone answers s i) (aloneEvent answers s i)
  stop : (alone answers s (i + 1)).stop = (alone answers s i).stop
  ready : Ready (alone answers s (i + 1))

theorem Ready.turn {i : Nat} (h : Ready (alone answers s i))
    (hlive : (alone answers s i).worker.Live) : AloneTurn answers s i := by
  obtain ⟨ev, s', hstep, hworker, hquiet, hstop, hfree⟩ := h.goesOn answers hlive
  have hev : aloneEvent answers s i = ev := by
    rw [aloneEvent, hstep]
    rfl
  have hnext : alone answers s (i + 1) = s' := by
    rw [alone, hstep]
    rfl
  have hs := workerTurn_sound hstep
  constructor
  · rw [hev, hnext]
    exact hs
  · rw [hev]
    exact hworker
  · rw [hev]
    exact hquiet
  · rw [hnext]
    exact hstop
  · rw [hnext]
    exact ⟨h.reach.step hs hquiet, hfree⟩

/-- Once the loop has ended the run stands still. -/
theorem alone_ended {i : Nat} (hended : ¬ (alone answers s i).worker.Live) :
    aloneEvent answers s i = .requestStop ∧ alone answers s (i + 1) = alone answers s i := by
  have hnone := workerTurn_ended answers hended
  exact ⟨by rw [aloneEvent, hnone]; rfl, by rw [alone, hnone]; rfl⟩

variable (answers) in
/-- The worker's task alone does not hold itself up. -/
theorem Ready.alone (h : Ready s) (i : Nat) :
    Ready (alone answers s i) ∧ (alone answers s i).stop = s.stop := by
  induction i with
  | zero => exact ⟨h, rfl⟩
  | succ i ih =>
    obtain ⟨hready, hstop⟩ := ih
    by_cases hlive : (Service.alone answers s i).worker.Live
    · have hturn := hready.turn hlive
      exact ⟨hturn.ready, hturn.stop.trans hstop⟩
    · rw [(alone_ended hlive).2]
      exact ⟨hready, hstop⟩

end Alone

end Service

end VidiPr
