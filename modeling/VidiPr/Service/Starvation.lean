import VidiPr.Lib.Progress
import VidiPr.Service.Alone
import VidiPr.Service.Archive

/-!
# No job starves

The worker takes one job at a time, the first of the queue. So a job is reached as long as the
worker is: of the jobs in the store one is taken with every claim, and those that are added later
come after it.

* **`Db.Waits`** — a job is pending. No job comes back to it (`waits_back`).
* **`FairRun.claim_serves`** — a claim made while a job waits takes a job that waits, and none that
  comes after it.
* **`no_job_starves`** — in every fair run a job is finished and unlocked in the end.
* **`fairRun_alone`** — the run of the worker's task alone is such a run, so there are fair runs.
-/

namespace VidiPr

open Effect Prog Relational Text Service

/-! ## Jobs that wait -/

/-- The job is in the queue: its row is there, and is pending. -/
def Db.Waits (db : Db) (id : Nat) : Prop := ∃ job ∈ db.jobs, job.id = id ∧ job.status = .pending

/-- No job comes back to the queue. -/
theorem waits_back {Picked : Nat → Prop} {db db' : Db} {id : Nat} (h : LifeStep Picked db db')
    (hold : ∃ job ∈ db.jobs, job.id = id) (hwait : db'.Waits id) : db.Waits id := by
  obtain ⟨job, hjob, hid⟩ := hold
  obtain ⟨row, hrow, hrowId, hst⟩ := hwait
  obtain ⟨job', hjob', hid', -, hcase⟩ := h.old job hjob
  have hsame : job' = row := Table.eq_of_key_eq hjob' hrow (by rw [hid', hid, hrowId])
  subst hsame
  rcases hcase with rfl | ⟨hnext, -⟩
  · exact ⟨job', hjob, hrowId, hst⟩
  · rw [hst] at hnext
    cases hs : job.status <;> simp [hs, JobStatus.Next] at hnext

/-- The jobs of a store. -/
def Db.jobIds (db : Db) : Finset Nat := (db.jobs.rows.map (·.id)).toFinset

theorem mem_jobIds {db : Db} {id : Nat} : id ∈ db.jobIds ↔ ∃ job ∈ db.jobs, job.id = id := by
  simp [Db.jobIds, Table.mem_def]

theorem Db.Keeps.mem_jobIds {db db' : Db} (h : db.Keeps db') {id : Nat} (hid : id ∈ db.jobIds) :
    id ∈ db'.jobIds := by
  obtain ⟨job, hjob, rfl⟩ := VidiPr.mem_jobIds.mp hid
  obtain ⟨job', hjob', hsame⟩ := h.jobs job hjob
  exact VidiPr.mem_jobIds.mpr ⟨job', hjob', hsame.id_eq⟩

theorem Job.Before.asymm {job other : Job} (h : job.Before other) : ¬ other.Before job := by
  unfold Job.Before at *
  omega

namespace Service

variable [UnicodeDb] {D : Deployment} {s s' : Service D} {ev : Event D}

/-- The loop calls `_claim_one` without a request. -/
theorem claim_event {p : Py (Option Job)} (hs : Step s ev s') (hidle : s.worker = .idle)
    (hclaim : s'.worker = .claiming p) : ev = .control := by
  cases hs with
  | claim => rfl
  | external | spawn | call | requestStop =>
    change s.worker = _ at hclaim
    rw [hidle] at hclaim
    cases hclaim
  | claimStep hphase =>
    rw [hidle] at hphase
    cases hphase
  | _ => cases hclaim

namespace FairRun

variable {run : Nat → Service D} {ev : Nat → Event D}

theorem later (hr : FairRun s run ev) (i d : Nat) : Later (run i) (run (i + d)) := by
  induction d with
  | zero => exact .refl
  | succ d ih => exact ih.tail ⟨_, hr.step (i + d)⟩

/-- Later stores of the run continue earlier ones: no job is lost, and those that are added come
behind. -/
theorem keeps (hr : FairRun s run ev) (h : ReachableIf Undisturbed s) {i j : Nat} (hij : i ≤ j) :
    (run i).world.db.committed.Keeps (run j).world.db.committed := by
  obtain ⟨d, rfl⟩ := Nat.exists_eq_add_of_le hij
  exact (keeps_later (openKeeps_reachable (hr.reachable h i)) (hr.later i d)).1

/-- The run, observed at each of its steps, so that the phases of the worker can be told by what it
has read. -/
theorem observed (hr : FairRun s run ev) (h : ReachableIf Undisturbed s) :
    ∃ seen : Nat → Seen, (∀ i, Observed (run i) (seen i)) ∧
      ∀ i, seen (i + 1) = observe (run i) (ev i) (seen i) := by
  obtain ⟨first, hfirst⟩ := observed_of_reachable h
  refine ⟨fun i => Nat.rec first (fun i seen => observe (run i) (ev i) seen) i, fun i => ?_,
    fun i => rfl⟩
  induction i with
  | zero =>
    rw [hr.start]
    exact hfirst
  | succ i ih => exact ih.step (hr.step i)

/-- A job that waits and was in the store before has waited all the time. -/
theorem waits_step (hr : FairRun s run ev) (h : ReachableIf Undisturbed s) {id i : Nat}
    (hid : id ∈ s.world.db.committed.jobIds) (hwait : (run (i + 1)).world.db.committed.Waits id) :
    (run i).world.db.committed.Waits id := by
  obtain ⟨seen, hobs⟩ := observed_of_reachable (hr.reachable h i)
  obtain ⟨F, hinv⟩ := life_observed hobs
  have hkeeps := hr.keeps h (Nat.zero_le i)
  rw [hr.start] at hkeeps
  exact waits_back (life_step hinv (hr.step i)).1 (mem_jobIds.mp (hkeeps.mem_jobIds hid)) hwait

/-- A call of `_claim_one` returns. The induction is on what is left of the coroutine. -/
theorem claiming_returns (hr : FairRun s run ev) (h : ReachableIf Undisturbed s)
    (hlive : s.worker.Live) (hstop : s.stop = false) (p : Py (Option Job)) (i : Nat)
    (hphase : (run i).worker = .claiming p) :
    ∃ j result, i ≤ j ∧ (run j).worker = .claiming (.ret result) ∧
      (run j).log.queued = (run i).log.queued := by
  induction p generalizing i with
  | ret result => exact ⟨i, result, Nat.le_refl i, hphase, rfl⟩
  | raise x =>
    obtain ⟨j, -, hloop, hturn⟩ := hr.next_turn h hlive hstop i
    unfold Turn at hturn
    rw [hloop.worker.trans hphase] at hturn
    obtain ⟨holding, hdead⟩ := hturn
    exact absurd hdead (not_dead (hr.reachable h (j + 1)) x holding)
  | call e k ih =>
    obtain ⟨j, hij, hloop, hturn⟩ := hr.next_turn h hlive hstop i
    unfold Turn at hturn
    rw [hloop.worker.trans hphase] at hturn
    obtain ⟨r, hnext, -, hqueued⟩ := hturn
    obtain ⟨l, result, hjl, hreturned, hsame⟩ := ih r (j + 1) hnext
    refine ⟨l, result, by omega, hreturned, ?_⟩
    rw [hsame, hqueued, hloop.queued]

omit [UnicodeDb] in
/-- What a claim has read of the queue, it has read since it began. -/
theorem read_since {seen : Nat → Seen}
    (hseen : ∀ i, seen (i + 1) = observe (run i) (ev i) (seen i)) {l : Nat} (hbegin : seen l = none)
    (d : Nat) {db : Db} {row : Option Job} (hread : seen (l + d) = some (db, row)) :
    ∃ q, l ≤ q ∧ q ≤ l + d ∧ db = (run q).world.db.committed := by
  induction d generalizing db row with
  | zero =>
    rw [Nat.add_zero, hbegin] at hread
    cases hread
  | succ d ih =>
    rw [show l + (d + 1) = l + d + 1 from rfl, hseen] at hread
    rcases observe_cases (run (l + d)) (ev (l + d)) (seen (l + d)) with heq | heq | ⟨row', heq⟩
    · obtain ⟨q, hlq, hqd, hdb⟩ := ih (heq ▸ hread)
      exact ⟨q, hlq, by omega, hdb⟩
    · rw [heq] at hread
      cases hread
    · rw [heq] at hread
      cases hread
      exact ⟨l + d, by omega, by omega, rfl⟩

/-- **A claim serves the queue.** As long as a job waits, a job of the first store is taken, where
those that have been added since come after it. -/
theorem claim_serves (hr : FairRun s run ev) (h : ReachableIf Undisturbed s)
    (hlive : s.worker.Live) (hstop : s.stop = false) {job : Job}
    (hjob : job ∈ s.world.db.committed.jobs)
    (hbehind : ∀ i, ∀ other ∈ (run i).world.db.committed.jobs,
      other.id ∉ s.world.db.committed.jobIds → job.Before other)
    (i : Nat) (hwait : (run i).world.db.committed.Waits job.id) :
    ∃ j, i ≤ j ∧ ∃ id ∈ s.world.db.committed.jobIds,
      (run i).world.db.committed.Waits id ∧ ¬ (run j).world.db.committed.Waits id := by
  have hid : job.id ∈ s.world.db.committed.jobIds := mem_jobIds.mpr ⟨job, hjob, rfl⟩
  -- the job itself may be taken on the way
  by_cases hlong : ∀ j, i ≤ j → (run j).world.db.committed.Waits job.id
  swap
  · obtain ⟨j, hij, hgone⟩ : ∃ j, i ≤ j ∧ ¬ (run j).world.db.committed.Waits job.id := by
      simpa only [not_forall, exists_prop] using hlong
    exact ⟨j, hij, job.id, hid, hwait, hgone⟩
  obtain ⟨seen, hobs, hseen⟩ := hr.observed h
  -- the next claim, from the top of the loop
  obtain ⟨t, hit, hidle⟩ := hr.idle_again h hlive hstop i
  obtain ⟨l, htl, hloop, hturn⟩ := hr.next_turn h hlive hstop t
  have hidle' : (run l).worker = .idle := hloop.worker.trans hidle
  unfold Turn at hturn
  rw [hidle'] at hturn
  rcases hturn with ⟨hset, -⟩ | ⟨-, hclaim, -, hqueued⟩
  · rw [(hr.live h hlive hstop l).2] at hset
    cases hset
  have hbegin : seen (l + 1) = none := by
    rw [hseen, claim_event (hr.step l) hidle' hclaim]
    rfl
  obtain ⟨m, result, hlm, hreturned, hsame⟩ :=
    hr.claiming_returns h hlive hstop _ (l + 1) hclaim
  have hw := (inv_undisturbed (hr.reachable h m)).worker
  rw [hreturned] at hw
  cases result with
  | none =>
    -- it found nothing, so there was nothing
    obtain ⟨-, -, hnothing⟩ := Safe.ok hw
    obtain ⟨row, hrow, -, hst⟩ := hlong l (by omega)
    rw [hsame, hqueued, pendingJobs_isEmpty.mpr ⟨row, hrow, hst⟩] at hnothing
    cases hnothing
  | some taken =>
    obtain ⟨-, -, hheld⟩ := Safe.ok hw
    obtain ⟨F, hinv⟩ := life_observed (hobs m)
    have hpicked : Picked (seen m) taken.id := by
      have hfoot := hinv.foot
      rw [hreturned] at hfoot
      rcases hfoot with ⟨-, ⟨k, heq, -⟩, -⟩ | ⟨hclaims, -⟩
      · cases heq
      · obtain ⟨picked, hfound, hpid⟩ := hclaims.yields taken rfl
        exact hpid ▸ hinv.picked hfound
    obtain ⟨db, first, hread, ⟨hfirst, hst, hleast⟩, hfid⟩ := hpicked
    obtain ⟨d, rfl⟩ := Nat.exists_eq_add_of_le hlm
    obtain ⟨q, hlq, hqm, rfl⟩ := read_since hseen hbegin d hread
    -- the job that waits is in the store the claim has read
    obtain ⟨row, hrow, hrowId, hrowSt⟩ := hlong q (by omega)
    have hkeeps := hr.keeps h (Nat.zero_le q)
    rw [hr.start] at hkeeps
    obtain ⟨row', hrow', horder⟩ := hkeeps.jobs job hjob
    have hrowEq : row' = row := Table.eq_of_key_eq hrow' hrow (by rw [horder.id_eq, hrowId])
    have hknown : taken.id ∈ s.world.db.committed.jobIds := by
      by_contra hnew
      have hafter : job.Before first := hbehind q first hfirst (hfid ▸ hnew)
      rcases hleast row hrow hrowSt with rfl | hbefore
      · exact hnew (by rw [← hfid, hrowId]; exact hid)
      · have horder' : first.Before job := (Job.SameOrder.before_iff (.refl first)
          (hrowEq ▸ horder)).mp hbefore
        exact hafter.asymm horder'
    refine ⟨l + 1 + d, by omega, taken.id, hknown, ?_, ?_⟩
    · exact waiting_before (fun i id => (run i).world.db.committed.Waits id)
        (fun a ha i => hr.waits_step h ha) hknown (by omega : i ≤ q) ⟨first, hfirst, hfid, hst⟩
    · rintro ⟨other, hother, hotherId, hotherSt⟩
      have hotherEq : other = taken := Table.eq_of_key_eq hother hheld.row hotherId
      rw [hotherEq, hheld.running] at hotherSt
      cases hotherSt

end FairRun

end Service

/-- **No job starves.** The run is fair and undisturbed: from `s` on the worker's task is scheduled
again and again, no statement of it fails, no process dies and nobody asks the loop to stop, and its
clock covers the cooldown it was started with. Then a job of the store is finished in the end, and
its pull request unlocked, unless jobs that are added later go before it in the queue. -/
theorem no_job_starves [UnicodeDb] {D : Deployment} {s : Service D} {run : Nat → Service D}
    {ev : Nat → Event D} (h : ReachableIf Undisturbed s) (hlive : s.worker.Live)
    (hstop : s.stop = false) (hr : FairRun s run ev) {job : Job}
    (hjob : job ∈ s.world.db.committed.jobs)
    (hbehind : ∀ i, ∀ other ∈ (run i).world.db.committed.jobs,
      other.id ∉ s.world.db.committed.jobIds → job.Before other) :
    ∃ n, ∀ i, n ≤ i → (∃ row ∈ (run i).world.db.committed.jobs,
        job.SameOrder row ∧ row.status.IsTerminal) ∧
      ∀ lock ∈ (run i).world.db.committed.prLocks, lock.jobId ≠ job.id := by
  have hid : job.id ∈ s.world.db.committed.jobIds := mem_jobIds.mpr ⟨job, hjob, rfl⟩
  obtain ⟨n, hserved⟩ := exists_served (fun i id => (run i).world.db.committed.Waits id)
    (fun id hid i => hr.waits_step h hid) hid (hr.claim_serves h hlive hstop hjob hbehind)
  -- when the loop is at its top again, the job is not running either
  obtain ⟨t, hnt, hidle⟩ := hr.idle_again h hlive hstop n
  have hkeeps := fun i => hr.start ▸ hr.keeps h (Nat.zero_le i)
  obtain ⟨row, hrow, horder⟩ := (hkeeps t).jobs job hjob
  have hfree : ¬ (run t).Holding := by
    unfold Service.Holding
    rw [hidle]
    exact id
  have hterm : row.status.IsTerminal := by
    by_contra hnt'
    rcases JobStatus.not_isTerminal_iff.mp hnt' with hwaits | hrunning
    · exact hserved t hnt ⟨row, hrow, horder.id_eq, hwaits⟩
    · obtain ⟨F, hsub, hrun⟩ := (inv_undisturbed (hr.reachable h t)).running hfree
      exact hsub row.id ((hrun row.id).mp ⟨row, hrow, rfl, hrunning⟩)
  obtain ⟨seen, hobs⟩ := observed_of_reachable (hr.reachable h t)
  refine ⟨t, fun i hti => ?_⟩
  obtain ⟨d, rfl⟩ := Nat.exists_eq_add_of_le hti
  have hstays := terminal_later hobs (hr.later t d) hrow hterm
  refine ⟨⟨row, hstays, horder, hterm⟩, fun lock hlock heq => ?_⟩
  obtain ⟨other, hother, hoid, -, host⟩ :=
    (inv_undisturbed (hr.reachable h (t + d))).locks.lock_job lock hlock
  have hsame : other = row := Table.eq_of_key_eq hother hstays (by rw [hoid, heq, horder.id_eq])
  exact host (hsame ▸ hterm)

/-! ## The worker on its own -/

namespace Service

section Alone

variable [UnicodeDb] {D : Deployment} {answers : Responder D.external} {s : Service D}

/-- Without a stop the loop is never left. -/
theorem Ready.alone_live (h : Ready s) (hlive : s.worker.Live) (hstop : s.stop = false) (i : Nat) :
    (Service.alone answers s i).worker.Live := by
  induction i with
  | zero => exact hlive
  | succ i ih =>
    obtain ⟨hready, hsame⟩ := h.alone answers i
    have hturn := hready.turn ih
    have hmoved := hturn.worker
    have hcrash : aloneEvent answers s i ≠ .crash := fun heq => by rw [heq] at hmoved; exact hmoved
    have hnoStop : aloneEvent answers s i ≠ .requestStop :=
      fun heq => by rw [heq] at hmoved; exact hmoved
    rcases (live_of_step hturn.step hcrash hnoStop ih (hsame.trans hstop)).2 with
      hlive' | ⟨x, holding, hdead⟩
    · exact hlive'
    · exact absurd hdead (not_dead hturn.ready.reach x holding)

/-- The run of the worker alone is fair. -/
theorem fairRun_alone (h : Ready s) (hlive : s.worker.Live) (hstop : s.stop = false) :
    FairRun s (alone answers s) (aloneEvent answers s) := by
  have hturn : ∀ i, AloneTurn answers s i :=
    fun i => (h.alone answers i).1.turn (h.alone_live hlive hstop i)
  constructor
  · rfl
  · exact fun i => (hturn i).step
  · exact fun i => (hturn i).quiet
  · intro i heq
    have hmoved := (hturn i).worker
    rw [heq] at hmoved
    exact hmoved
  · intro i heq
    have hmoved := (hturn i).worker
    rw [heq] at hmoved
    exact hmoved
  · exact fun i => ⟨i, Nat.le_refl i, (hturn i).worker⟩

/-- The worker adds no job to the store, so that only the tasks can make the queue longer. -/
theorem jobIds_of_worker {s' : Service D} {ev : Event D} (h : ReachableIf Undisturbed s)
    (hs : Step s ev s') (hworker : ev.IsWorker) (hlive : s.worker.Live) :
    ∀ id ∈ s'.world.db.committed.jobIds, id ∈ s.world.db.committed.jobIds := by
  intro id hid
  obtain ⟨row, hrow, rfl⟩ := mem_jobIds.mp hid
  obtain ⟨seen, hobs⟩ := observed_of_reachable h
  obtain ⟨F, hinv⟩ := life_observed hobs
  -- what is about one job adds no row
  have hold : ∀ {job : Job}, s.world.db.committed.Touches job s'.world.db.committed →
      row.id ∈ s.world.db.committed.jobIds := by
    intro job htouches
    obtain ⟨old, hold, hid, -⟩ := htouches.old row hrow
    exact mem_jobIds.mpr ⟨old, hold, hid⟩
  cases hs with
  | @claimStep e k r world hphase hsem =>
    have hwrote := (worker_wrote hinv (.claimStep hphase hsem)).1
    rw [hphase, Wrote] at hwrote
    cases hfound : seen.found with
    | some job => exact hold (hfound ▸ hwrote : s.world.db.committed.TouchesFound (some job) _)
    -- nothing was found yet, and nothing written
    | none =>
      rw [hfound] at hwrote
      exact mem_jobIds.mpr ⟨row, (show _ = s.world.db.committed from hwrote) ▸ hrow, rfl⟩
  | processStep hphase hsem =>
    have hwrote := (worker_wrote hinv (.processStep hphase hsem)).1
    rw [hphase] at hwrote
    exact hold hwrote
  | recoverStep hphase =>
    rw [hphase] at hlive
    exact hlive.elim
  | call => exact hworker.elim
  | crash => exact hworker.elim
  | _ => exact hid

theorem jobIds_alone (h : Ready s) (hlive : s.worker.Live) (hstop : s.stop = false) (i : Nat) :
    ∀ id ∈ (alone answers s i).world.db.committed.jobIds, id ∈ s.world.db.committed.jobIds := by
  induction i with
  | zero => exact fun id hid => hid
  | succ i ih =>
    have hready := (h.alone answers i).1
    have hturn := hready.turn (h.alone_live hlive hstop i)
    intro id hid
    exact ih id (jobIds_of_worker hready.reach hturn.step hturn.worker
      (h.alone_live hlive hstop i) id hid)

end Alone

end Service

section Example

attribute [local instance] asciiDb

/-- During an outage a job is enqueued, and the worker goes on: the job is finished in the end. -/
theorem no_job_starves_outage :
    ∃ s : Service (.serve outage enqueueWorkload exampleConfig nothingToReview),
      s.started = [] ∧ ∃ job ∈ s.world.db.committed.jobs, job.status = .pending ∧
        ∃ n, ∃ row ∈ (alone outageResponder s n).world.db.committed.jobs,
          job.SameOrder row ∧ row.status.IsTerminal := by
  obtain ⟨s, hs, htest⟩ := exists_of_schedule outageResponder undisturbed (P := Undisturbed)
    (fun _ _ => undisturbed_sound) (0 : Nat)
    ([.start, .spawn 1 exampleTrigger] ++ List.replicate 6 (.call 1 false))
    (fun (s : Service (.serve outage enqueueWorkload exampleConfig nothingToReview)) =>
      decide (s.started = [] ∧ s.worker.Live ∧ s.stop = false ∧ s.world.db.tx.isNone ∧
        ∃ job ∈ s.world.db.committed.jobs, job.status = .pending)) (by decide +kernel)
  obtain ⟨hstarted, hlive, hstop, htx, job, hjob, hst⟩ := of_decide_eq_true htest
  have hready : Ready s := ⟨hs, fun owner work hopen => by rw [hopen] at htx; cases htx⟩
  obtain ⟨n, hn⟩ := no_job_starves hs hlive hstop
    (fairRun_alone hready hlive hstop : FairRun s (alone outageResponder s) _)
    hjob fun i other hother hnew =>
      absurd (jobIds_alone hready hlive hstop i other.id (mem_jobIds.mpr ⟨other, hother, rfl⟩)) hnew
  obtain ⟨⟨row, hrow, horder, hterm⟩, -⟩ := hn n (Nat.le_refl n)
  exact ⟨s, hstarted, job, hjob, hst, n, row, hrow, horder, hterm⟩

end Example

end VidiPr
