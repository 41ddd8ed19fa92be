import VidiPr.Service.Footprint
import VidiPr.Service.Invariant
import VidiPr.Service.Schedule

/-!
# The life cycle of a job

A job goes from `PENDING` to `RUNNING` to a terminal status, is handed to the reviewer at most
once, and is claimed when it is the first of the pending jobs that `_claim_one` reads. It is so
in every run of every deployment: recovery may be run between any two processes, and a crash may
come between any two requests.

* **`Observed`** — a run together with what the `_claim_one` in progress has read of the queue, and
  the store at that moment.
* **`LifeStep`** — what one step does to the jobs.
* **`Footprint`**, **`Wrote`** — what the worker's routine can still write, what its transaction
  has written so far, and what a request of it writes.
* **`life_step`**, **`job_life_cycle`** — the step lemma and the result.
-/

namespace VidiPr

open Effect Prog Relational Text Service

/-! ## Rewriting rows -/

/-- Rows are rewritten, not added, and only the jobs of `P` are set to running. -/
def Db.Rewrites (P : Nat → Prop) (db db' : Db) : Prop :=
  ∀ row ∈ db'.jobs, ∃ old ∈ db.jobs, old.id = row.id ∧
    (old = row ∨ row.status ≠ .running ∨ P row.id)

theorem Db.Touches.rewrites {job : Job} {db db' : Db} (h : db.Touches job db') :
    db.Rewrites (· = job.id) db' := by
  intro row hrow
  obtain ⟨old, hold, hid, _⟩ := h.old row hrow
  by_cases heq : row.id = job.id
  · exact ⟨old, hold, hid, Or.inr (Or.inr heq)⟩
  · exact ⟨row, (h.jobs row heq).mp hrow, rfl, Or.inl rfl⟩

/-- Running jobs are ended, and no row is added. -/
def Db.Interrupts (db db' : Db) : Prop :=
  ∀ row ∈ db'.jobs, ∃ old ∈ db.jobs, old.id = row.id ∧ (old = row ∨ row.status ≠ .running)

theorem Db.Interrupts.rewrites {db db' : Db} (h : db.Interrupts db') :
    db.Rewrites (fun _ => False) db' := by
  intro row hrow
  obtain ⟨old, hold, hid, hcase⟩ := h row hrow
  exact ⟨old, hold, hid, hcase.imp_right Or.inl⟩

theorem Db.Interrupts.of_jobs {db db' : Db} (h : db'.jobs = db.jobs) : db.Interrupts db' := by
  intro row hrow
  rw [h] at hrow
  exact ⟨row, hrow, rfl, Or.inl rfl⟩

theorem Db.Interrupts.trans {db₁ db₂ db₃ : Db} (h : db₁.Interrupts db₂)
    (h' : db₂.Interrupts db₃) : db₁.Interrupts db₃ := by
  intro row hrow
  obtain ⟨mid, hmid, hid, hmidRow⟩ := h' row hrow
  obtain ⟨old, hold, hid', holdMid⟩ := h mid hmid
  refine ⟨old, hold, hid'.trans hid, ?_⟩
  rcases hmidRow with rfl | hrow
  · exact holdMid
  · exact Or.inr hrow

/-- The statements of `recover_on_startup`. -/
inductive Dml.Recovers : Dml → Prop where
  | fail (text : String) (updatedAt : Nat) : Recovers (.failRunningJobs text updatedAt)
  | unlock : Recovers .deleteTerminalLocks

theorem Dml.Recovers.interrupts {d : Dml} (h : d.Recovers) (db : Db) :
    db.Interrupts (d.apply db).2 := by
  cases h with
  | fail text updatedAt =>
    intro row hrow
    rcases mem_failRunningJobs.mp hrow with ⟨old, hold, _, rfl⟩ | ⟨hold, _⟩
    · exact ⟨old, hold, rfl, Or.inr (by simp [Job.interrupted])⟩
    · exact ⟨row, hold, rfl, Or.inl rfl⟩
  | unlock => exact .of_jobs rfl

theorem recoveryRoutine_writes : recoveryRoutine.Calls (Req.Writes Dml.Recovers) := by
  refine withSession_writes (Calls.bind ?_ fun _ => calls_perform trivial)
  refine (calls_perform trivial).bind fun now => ?_
  refine (calls_perform (show Req.Writes _ (.sql (.dml _)) from .fail _ now)).bind fun _ => ?_
  exact (calls_perform (show Req.Writes _ (.sql (.dml _)) from .unlock)).bind fun _ => trivial

/-! ## What `_claim_one` has read -/

/-- What the `_claim_one` in progress has read of the queue, and the store it read it from. -/
abbrev Seen : Type := Option (Db × Option Job)

/-- The job that was found, if one was. -/
def Seen.found (seen : Seen) : Option Job := seen.bind (·.2)

variable {D : Deployment}

/-- A step seen by an observer of the reads of the queue. -/
def observe (s : Service D) (ev : Event D) (seen : Seen) : Seen :=
  match ev with
  | .worker (.sql (.query .oldestPendingJob)) (.ok row) =>
    match s.worker with
    | .claiming _ => some (s.world.db.committed, row)
    | _ => seen
  -- a new routine begins, or none does
  | .control => none
  | _ => seen

/-- A run, with what its observer has seen: what the worker read from the queue last, and which job
it has found there. -/
inductive Observed [UnicodeDb] : Service D → Seen → Prop where
  | initial (ext : D.external.State) : Observed (Service.initial D ext) none
  | step {s s' : Service D} {ev : Event D} {seen : Seen} (h : Observed s seen)
      (hs : Step s ev s') : Observed s' (observe s ev seen)

/-- Every run can be observed: what the worker has read and found is determined by the steps, so it
can be kept beside them. -/
theorem observed_of_reachable [UnicodeDb] {P : Service D → Event D → Prop} {s : Service D}
    (h : ReachableIf P s) : ∃ seen, Observed s seen := by
  induction h with
  | initial ext => exact ⟨none, .initial ext⟩
  | step _ hs _ ih =>
    obtain ⟨seen, hobs⟩ := ih
    exact ⟨_, hobs.step hs⟩

/-- The read of the queue. -/
def Req.oldestPending : Req := .sql (.query .oldestPendingJob)

theorem observe_worker {s : Service D} {e : Req} {r : Except PyError e.Resp} {seen : Seen}
    (h : ∀ p, s.worker = .claiming p → e ≠ Req.oldestPending) :
    observe s (.worker e r) seen = seen := by
  unfold observe
  split
  · rename_i heq
    cases heq
    split
    · rename_i hphase
      exact absurd rfl (h _ hphase)
    · rfl
  · rename_i heq
    cases heq
  · rfl

/-- A query of a row by its id finds a row of that id. -/
def Req.Refreshes : (e : Req) → Except PyError e.Resp → Prop
  | .sql (.query (.job id)), r => ∀ row, r = .ok (some row) → row.id = id
  | _, _ => True

theorem refreshes_of_sem {X : External} {a : Actor} {e : Req} {w w' : World X}
    {r : Except PyError e.Resp} (h : sem X a e w r w') : e.Refreshes r := by
  unfold Req.Refreshes
  split
  · rename_i id r
    rintro row rfl
    rcases h.1 with ⟨hr, _⟩ | ⟨⟨_, hr⟩, _⟩
    · have hget : (w.db.view a).jobs.get? id = some row := (Except.ok.inj hr).symm
      exact (Table.get?_eq_some.mp hget).2
    · cases hr
  · trivial

/-- What is left of `_claim_one` once it has read the queue: it reads it no more, writes only about
the job it found, and returns no other. -/
structure Claims (found : Option Job) (p : Py (Option Job)) : Prop where
  reads : p.Calls (· ≠ Req.oldestPending)
  writes : p.Calls (Req.Writes fun d => ∃ job, found = some job ∧ d.For job)
  yields : p.Yields Req.Refreshes fun r =>
    ∀ job, r = .ok (some job) → ∃ picked, found = some picked ∧ picked.id = job.id

theorem Claims.step {found : Option Job} {e : Req} {k : Except PyError e.Resp → Py (Option Job)}
    {r : Except PyError e.Resp} (h : Claims found (.call e k)) (hr : e.Refreshes r) :
    Claims found (k r) :=
  ⟨h.reads.2 r, h.writes.2 r, h.yields r hr⟩

/-- A session that is closed without having read or written anything more. -/
theorem claims_close {found : Option Job} {p : Py (Option Job)} (h : Claims found p) :
    Claims found (Py.withSession p) := by
  refine ⟨?_, withSession_writes h.writes, Yields.andThen (h.yields.mono fun r hr => ?_)⟩
  · exact h.reads.andThen fun r => (calls_perform (by simp [Req.oldestPending])).bind fun _ =>
      calls_ofExcept r
  · refine Yields.bind (P := fun _ => True) (yields_perform fun r' _ => ?_) fun _ _ =>
      yields_ofExcept hr
    cases r' with
    | ok _ => trivial
    | error x =>
      intro row heq
      cases heq

theorem claimRest_claims (job : Job) : Claims (some job) (claimRest job) := by
  refine ⟨?_, (claimRest_writes job).mono fun e he => he.mono fun d hd => ⟨job, rfl, hd⟩, ?_⟩
  · -- the oldest pending row is not read a second time
    refine Calls.bind ((calls_perform (by simp [Req.oldestPending])).bind fun _ =>
      calls_perform (by simp [Req.oldestPending])) fun _ => ?_
    refine (calls_perform (by simp [Req.oldestPending])).bind fun _ => ?_
    refine (calls_perform (by simp [Req.oldestPending])).bind fun row => ?_
    cases row <;> trivial
  · -- the row that is returned is the one `session.refresh` finds
    have hskip : ∀ {α : Type} {p : Py α} {k : α → Py (Option Job)},
        (∀ a, (k a).Yields Req.Refreshes fun r =>
          ∀ row, r = .ok (some row) → ∃ picked, some job = some picked ∧ picked.id = row.id) →
        (p.bind k).Yields Req.Refreshes fun r =>
          ∀ row, r = .ok (some row) → ∃ picked, some job = some picked ∧ picked.id = row.id := by
      intro α p k hk
      refine Yields.bind (P := fun _ => True) (p.yields_true.mono fun r _ => ?_) fun a _ => hk a
      cases r with
      | ok a => trivial
      | error x =>
        intro row heq
        cases heq
    refine hskip fun _ => hskip fun _ => ?_
    refine Yields.bind (P := fun found => ∀ row, found = some row → row.id = job.id)
      (yields_perform fun r hr => ?_) fun found hfound => ?_
    · cases r with
      | ok found => exact fun row hrow => hr row (congrArg _ hrow)
      | error x =>
        intro row heq
        cases heq
    · -- no row is returned, or the refreshed one
      cases found with
      | none =>
        intro row heq
        cases heq
      | some refreshed =>
        rintro row heq
        cases heq
        exact ⟨job, rfl, (hfound _ rfl).symm⟩

/-- The job an answer of the queue query holds. -/
def answered : Except PyError (Option Job) → Option Job
  | .ok row => row
  | .error _ => none

theorem observe_oldest {s : Service D} {p : Py (Option Job)}
    {r : Except PyError Req.oldestPending.Resp} (h : s.worker = .claiming p) :
    (observe s (.worker Req.oldestPending r) none).found = answered r ∧
      ∀ db row, observe s (.worker Req.oldestPending r) none = some (db, row) →
        db = s.world.db.committed ∧ r = .ok row := by
  cases r with
  | error x => exact ⟨rfl, fun db row hseen => by cases hseen⟩
  | ok row =>
    simp only [observe, Req.oldestPending, h]
    refine ⟨rfl, fun db row' hseen => ?_⟩
    obtain ⟨rfl, rfl⟩ := Prod.mk.inj (Option.some.inj hseen)
    exact ⟨rfl, rfl⟩

/-- The read of the queue comes next, and then what `Claims` says. -/
def BeforeRead (p : Py (Option Job)) : Prop :=
  ∃ k : Except PyError (Option Job) → Py (Option Job),
    p = .call Req.oldestPending k ∧ ∀ r, Claims (answered r) (k r)

theorem claimOne_beforeRead : BeforeRead Worker.claimOne := by
  refine ⟨_, claimOne_eq, fun r => ?_⟩
  have hnone : ∀ {p : Py (Option Job)}, (∀ job, p ≠ .ret (some job)) →
      (∃ r, p = Prog.ofExcept r) → Claims none (Py.withSession p) := by
    rintro p hne ⟨r, rfl⟩
    refine claims_close ⟨calls_ofExcept r, calls_ofExcept r, yields_ofExcept fun job hr => ?_⟩
    exact absurd (congrArg Prog.ofExcept hr) (hne job)
  rcases r with x | found
  · exact hnone (fun job heq => by cases heq) ⟨.error x, rfl⟩
  · cases found with
    | none => exact hnone (fun job heq => by cases heq) ⟨.ok none, rfl⟩
    | some job => exact claims_close (claimRest_claims job)

/-! ## One step of the system -/

/-- What one step of the system does to the jobs: rows stay, each takes at most one step of its
life, a new one is pending, and one that is set to running was `Picked`. -/
structure LifeStep (Picked : Nat → Prop) (db db' : Db) : Prop where
  old : ∀ job ∈ db.jobs, ∃ job' ∈ db'.jobs, job'.id = job.id ∧ job'.key = job.key ∧
    (job' = job ∨ (job.status.Next job'.status ∧ (job'.status = .running → Picked job.id)))
  new : ∀ job' ∈ db'.jobs, job'.status = .pending ∨ ∃ job ∈ db.jobs, job.id = job'.id

theorem LifeStep.refl (Picked : Nat → Prop) (db : Db) : LifeStep Picked db db :=
  ⟨fun job hjob => ⟨job, hjob, rfl, rfl, Or.inl rfl⟩, fun job hjob => Or.inr ⟨job, hjob, rfl⟩⟩

theorem Db.Grows.life {Picked : Nat → Prop} {db db' : Db} (h : db.Grows db') :
    LifeStep Picked db db' := by
  refine ⟨fun job hjob => ⟨job, h.jobs job hjob, rfl, rfl, Or.inl rfl⟩, fun job' hjob' => ?_⟩
  rcases h.new job' hjob' with hold | hpending
  · exact Or.inr ⟨job', hold, rfl⟩
  · exact Or.inl hpending

/-- A step whose writes are known, and which only advances jobs. Of the jobs it may set to running,
the pending ones must have been picked. -/
theorem Db.Rewrites.life {P Picked : Nat → Prop} {db db' : Db} (h : db.Rewrites P db')
    (hadv : db.Advances db')
    (hpicked : ∀ job ∈ db.jobs, job.status = .pending → P job.id → Picked job.id) :
    LifeStep Picked db db' := by
  refine ⟨fun job hjob => ?_, fun job' hjob' => ?_⟩
  · obtain ⟨job', hjob', hid, hkey, hcase⟩ := hadv job hjob
    refine ⟨job', hjob', hid, hkey, hcase.imp_right fun hnext => ⟨hnext, fun hrun => ?_⟩⟩
    have hpending : job.status = .pending := by
      rw [hrun] at hnext
      cases hst : job.status <;> simp [hst, JobStatus.Next] at hnext ⊢
    obtain ⟨old, hold, holdId, hrow⟩ := h job' hjob'
    have hsame : old = job := Table.eq_of_key_eq hold hjob (holdId.trans hid)
    subst hsame
    rcases hrow with rfl | hnot | hP
    · rw [hrun] at hpending
      cases hpending
    · exact absurd hrun hnot
    · exact hpicked old hjob hpending (hid ▸ hP)
  · obtain ⟨old, hold, hid, _⟩ := h job' hjob'
    exact Or.inr ⟨old, hold, hid⟩

/-- The row of the job that is in progress. -/
theorem ProcessingOk.row {X : External} {F : Nat → Prop} {cooldownSeconds : Nat} {job : Job}
    {p : Py Unit} {world : World X} {log : WorkerLog}
    (h : ProcessingOk X F cooldownSeconds job p world log) :
    ∃ row ∈ world.db.committed.jobs, row.id = job.id ∧ row.key = job.key ∧
      row.status ≠ .pending := by
  obtain ⟨reviews, hsafe⟩ := h
  rcases Nat.eq_zero_or_pos log.commits with h0 | hpos
  · have hheld := (hsafe.inv.2.1 h0).1
    exact ⟨job, hheld.row, rfl, rfl, by simp [hheld.running]⟩
  · obtain ⟨result, hterm, hsettled⟩ := hsafe.inv.2.2 hpos
    obtain ⟨updatedAt, hrow⟩ := hsettled.row
    refine ⟨_, hrow, rfl, rfl, fun hpending => ?_⟩
    have hst : result.status = .pending := hpending
    rw [hst] at hterm
    simp at hterm

/-- A job that has begun and is running was running before. -/
theorem Db.Advances.running {db db' : Db} (h : db.Advances db') {id : Nat} (hb : db.Begun id)
    (hrun : db'.Running id) : db.Running id := by
  obtain ⟨job, hjob, hid, hst⟩ := hb
  obtain ⟨row, hrow, hrowId, hrowRun⟩ := hrun
  obtain ⟨job', hjob', hid', _, hcase⟩ := h job hjob
  have hsame : job' = row := Table.eq_of_key_eq hjob' hrow (by rw [hid', hid, hrowId])
  subst hsame
  rcases hcase with rfl | hnext
  · exact ⟨job', hjob, hid, hrowRun⟩
  · rw [hrowRun] at hnext
    cases hs : job.status <;> simp [hs, JobStatus.Next] at hnext hst

/-! ## The invariant -/

/-- The job was found by the `_claim_one` in progress, and was then the first of the queue. -/
def Picked (seen : Seen) (id : Nat) : Prop :=
  ∃ db job, seen = some (db, some job) ∧ db.FirstPending job ∧ job.id = id

/-- What is written about the job that was found, if one was. -/
def Db.TouchesFound (found : Option Job) (db db' : Db) : Prop :=
  match found with
  | some job => db.Touches job db'
  | none => db' = db

theorem Db.TouchesFound.refl (found : Option Job) (db : Db) : db.TouchesFound found db := by
  cases found with
  | none => rfl
  | some job => exact Db.Touches.refl job db

theorem Db.TouchesFound.trans {found : Option Job} {db₁ db₂ db₃ : Db}
    (h : db₁.TouchesFound found db₂) (h' : db₂.TouchesFound found db₃) :
    db₁.TouchesFound found db₃ := by
  cases found with
  | none => exact Eq.trans h' h
  | some job => exact Db.Touches.trans h h'

/-- What the routine of the worker can still write, and what its transaction has written. -/
def Footprint (seen : Seen) (phase : WorkerPhase) (s : Sqlite) : Prop :=
  match phase with
  | .recovering p => p.Calls (Req.Writes Dml.Recovers) ∧ TxKeeps Db.Interrupts .worker s
  | .claiming p => (seen = none ∧ BeforeRead p ∧ ¬ s.Owns .worker) ∨
      (Claims seen.found p ∧ TxKeeps (Db.TouchesFound seen.found) .worker s)
  | .processing job p => p.Calls (Req.Writes (Dml.For job)) ∧ TxKeeps (Db.Touches job) .worker s
  | _ => True

/-- What a request of the worker writes, by the phase it makes it in: a claim, the outcome of its
job, or a recovery. -/
def Wrote (seen : Seen) (phase : WorkerPhase) (db db' : Db) : Prop :=
  match phase with
  | .recovering _ => db.Interrupts db'
  | .claiming _ => db.TouchesFound seen.found db'
  | .processing job _ => db.Touches job db'
  | _ => True

/-- A step of a task leaves the worker's transaction alone. -/
theorem Footprint.env {seen : Seen} {phase : WorkerPhase} {n : Nat} {s s' : Sqlite}
    (h : Footprint seen phase s) (hstep : ActorStep (.call n) s s') : Footprint seen phase s' := by
  unfold Footprint at h ⊢
  split at h
  · exact h.imp_right fun htx => htx.env (by simp) hstep
  · refine h.imp (fun hstart => ?_) fun hrest => ?_
    · exact hstart.imp_right fun hstart =>
        hstart.imp_right fun hown => hstep.not_owns (by simp) hown
    · exact hrest.imp_right fun htx => htx.env (by simp) hstep
  · exact h.imp_right fun htx => htx.env (by simp) hstep
  · trivial

/-- What holds in every state of an observed run, beside the invariant of the service. -/
structure LifeInv (F : Nat → Prop) (s : Service D) (seen : Seen) : Prop where
  inv : Inv F s
  once : s.started.Nodup
  fresh : ∀ p, s.worker = .claiming p → ∀ id ∈ s.started, s.world.db.committed.Running id → F id
  read : ∀ db row, seen = some (db, row) → row = oldestJob db.pendingJobs
  known : ∀ job, seen.found = some job →
    ∃ row ∈ s.world.db.committed.jobs, row.id = job.id ∧ row.key = job.key
  foot : Footprint seen s.worker s.world.db

variable {F : Nat → Prop} {s : Service D} {seen : Seen}

/-- A found job was the first of the queue. -/
theorem LifeInv.picked (h : LifeInv F s seen) {job : Job} (hfound : seen.found = some job) :
    Picked seen job.id := by
  rcases seen with _ | ⟨db, row⟩
  · cases hfound
  · have hrow : row = some job := hfound
    subst hrow
    exact ⟨db, job, rfl, firstPending_of_oldestJob (h.read db _ rfl).symm, rfl⟩

theorem BeforeRead.step {e : Req} {k : Except PyError e.Resp → Py (Option Job)}
    {r : Except PyError e.Resp} {world : World D.external}
    (hphase : s.worker = .claiming (.call e k)) (h : BeforeRead (.call e k))
    (hown : ¬ s.world.db.Owns .worker) (hsem : sem D.external .worker e s.world r world) :
    world.db = s.world.db ∧ Claims (observe s (.worker e r) none).found (k r) ∧
      ∀ db row, observe s (.worker e r) none = some (db, row) → row = oldestJob db.pendingJobs := by
  obtain ⟨k', heq, hclaims⟩ := h
  cases heq
  obtain ⟨hfound, hread⟩ := observe_oldest (r := r) hphase
  rw [hfound]
  rcases hsem.1 with ⟨hr, hdb⟩ | ⟨⟨message, hr⟩, hdb⟩
  · refine ⟨hdb, hclaims r, fun db row hseen => ?_⟩
    obtain ⟨rfl, hrow⟩ := hread db row hseen
    rw [hr, Sqlite.view_of_not_owns hown] at hrow
    exact (Except.ok.inj hrow).symm
  · refine ⟨hdb, hclaims r, fun db row hseen => ?_⟩
    obtain ⟨_, hrow⟩ := hread db row hseen
    rw [hr] at hrow
    cases hrow

/-- What a request of the worker writes, and what the worker can do next. -/
theorem worker_wrote [UnicodeDb] {s' : Service D} {e : Req} {r : Except PyError e.Resp}
    (h : LifeInv F s seen) (hs : Step s (.worker e r) s') :
    Wrote seen s.worker s.world.db.committed s'.world.db.committed ∧
      (∀ db row, observe s (.worker e r) seen = some (db, row) →
        row = oldestJob db.pendingJobs) ∧
      Footprint (observe s (.worker e r) seen) s'.worker s'.world.db := by
  have hfoot := h.foot
  cases hs with
  -- recovery touches running jobs and stale locks
  | recoverStep hphase hsem =>
    rw [observe_worker fun p hclaiming => by rw [hphase] at hclaiming; cases hclaiming]
    rw [hphase] at hfoot ⊢
    obtain ⟨hcalls, htx⟩ := hfoot
    obtain ⟨hwrote, htx'⟩ := tx_step (R := Db.Interrupts) (fun _ => .of_jobs rfl)
      Db.Interrupts.trans (fun _ hd => hd.interrupts) hcalls.1 hsem htx
    exact ⟨hwrote, h.read, hcalls.2 r, htx'⟩
  | @claimStep _ k _ world hphase hsem =>
    rw [hphase] at hfoot
    -- `_claim_one` reads the oldest pending row, and from then on writes about that job
    rcases hfoot with ⟨rfl, hbefore, hown⟩ | ⟨hclaims, htx⟩
    · obtain ⟨hdb, hclaims, hread⟩ := hbefore.step hphase hown hsem
      rw [hphase]
      refine ⟨congrArg Sqlite.committed hdb, hread, Or.inr ⟨hclaims, ?_⟩⟩
      show TxKeeps _ _ world.db
      rw [hdb]
      exact txKeeps_of_not_owns hown
    · rw [observe_worker fun _ _ => hclaims.reads.1, hphase]
      obtain ⟨hwrote, htx'⟩ := tx_step (Db.TouchesFound.refl seen.found) Db.TouchesFound.trans
        (fun d ⟨job, hfound, hfor⟩ db => by rw [hfound]; exact hfor.touches db)
        hclaims.writes.1 hsem htx
      exact ⟨hwrote, h.read, Or.inr ⟨hclaims.step (refreshes_of_sem hsem), htx'⟩⟩
  -- `_process` writes about its job
  | processStep hphase hsem =>
    rw [observe_worker fun p hclaiming => by rw [hphase] at hclaiming; cases hclaiming]
    rw [hphase] at hfoot ⊢
    obtain ⟨hcalls, htx⟩ := hfoot
    obtain ⟨hwrote, htx'⟩ := tx_step (Db.Touches.refl _) Db.Touches.trans
      (fun _ hd => hd.touches) hcalls.1 hsem htx
    exact ⟨hwrote, h.read, hcalls.2 r, htx'⟩

/-- What a step does to the jobs, and what the worker can do next. -/
theorem life_foot [UnicodeDb] {s' : Service D} {ev : Event D} (h : LifeInv F s seen)
    (hs : Step s ev s') :
    LifeStep (Picked seen) s.world.db.committed s'.world.db.committed ∧
      (∀ db row, observe s ev seen = some (db, row) → row = oldestJob db.pendingJobs) ∧
      Footprint (observe s ev seen) s'.worker s'.world.db := by
  have hw := h.inv.worker
  have hnone : ∀ db row, (none : Seen) = some (db, row) → row = oldestJob db.pendingJobs :=
    fun db row heq => by cases heq
  cases hs with
  | external hmove => exact ⟨.refl _ _, h.read, h.foot⟩
  | spawn n task hn => exact ⟨.refl _ _, h.read, h.foot⟩
  | call hcall hsem =>
    obtain ⟨hgrows, _⟩ := (h.inv.calls _ _ hcall).step hsem
    exact ⟨hgrows.life, h.read, h.foot.env (actorStep_of_sem hsem)⟩
  | start hphase => exact ⟨.refl _ _, h.read, trivial⟩
  | recover hphase _ =>
    rw [hphase] at hw
    exact ⟨.refl _ _, hnone, recoveryRoutine_writes, txKeeps_of_not_owns hw.2⟩
  | recoverStep hphase hsem =>
    obtain ⟨hwrote, hnext⟩ := worker_wrote h (.recoverStep hphase hsem)
    rw [hphase] at hw hwrote
    obtain ⟨hadv, _⟩ := Safe.step hw (workerSem_of_sem hsem)
    exact ⟨hwrote.rewrites.life hadv fun _ _ _ hP => hP.elim, hnext⟩
  | recovered hphase => exact ⟨.refl _ _, hnone, trivial⟩
  | requestStop => exact ⟨.refl _ _, h.read, h.foot⟩
  | leave hphase _ => exact ⟨.refl _ _, hnone, trivial⟩
  | claim hphase _ =>
    rw [hphase] at hw
    exact ⟨.refl _ _, hnone, Or.inl ⟨rfl, claimOne_beforeRead, hw.2⟩⟩
  | claimStep hphase hsem =>
    obtain ⟨hwrote, hnext⟩ := worker_wrote h (.claimStep hphase hsem)
    rw [hphase] at hw hwrote
    obtain ⟨hadv, _⟩ := Safe.step hw (workerSem_of_sem hsem)
    refine ⟨?_, hnext⟩
    cases hfound : seen.found with
    | none =>
      rw [Wrote, hfound] at hwrote
      rw [show _ = s.world.db.committed from hwrote]
      exact .refl _ _
    | some job =>
      rw [Wrote, hfound] at hwrote
      exact (Db.Touches.rewrites hwrote).life hadv fun _ _ _ hid => hid ▸ h.picked hfound
  | claimedNone hphase => exact ⟨.refl _ _, hnone, trivial⟩
  | wake hphase => exact ⟨.refl _ _, hnone, trivial⟩
  | @claimedSome job hphase =>
    rw [hphase] at hw
    exact ⟨.refl _ _, hnone, process_writes D.config D.reviewer job, txKeeps_of_not_owns hw.ok.1⟩
  | claimRaised hphase => exact ⟨.refl _ _, hnone, trivial⟩
  | @processStep job e k r world hphase hsem =>
    obtain ⟨hwrote, hnext⟩ := worker_wrote h (.processStep hphase hsem)
    rw [hphase] at hw hwrote
    obtain ⟨reviews, hsafe⟩ := id hw
    obtain ⟨hadv, _⟩ := hsafe.step (workerSem_of_sem hsem)
    refine ⟨(Db.Touches.rewrites hwrote).life hadv fun row hrow hpending hid => ?_, hnext⟩
    -- the job in progress has begun, so it is not pending
    obtain ⟨old, hold, holdId, _, hst⟩ := hw.row
    have hsame : old = row := Table.eq_of_key_eq hold hrow (holdId.trans hid.symm)
    exact absurd (hsame ▸ hpending) hst
  | processed hphase => exact ⟨.refl _ _, hnone, trivial⟩
  | processRaised hphase => exact ⟨.refl _ _, hnone, trivial⟩
  | crash => exact ⟨.refl _ _, h.read, trivial⟩

/-- Only a job nobody was handed before can be handed to the reviewer. -/
theorem life_started [UnicodeDb] {s' : Service D} {ev : Event D} (h : LifeInv F s seen)
    (hs : Step s ev s') : s'.started.Nodup := by
  cases hs with
  | @claimedSome job hphase =>
    have hw := h.inv.worker
    rw [hphase] at hw
    obtain ⟨_, _, hheld⟩ := Safe.ok hw
    refine List.nodup_cons.mpr ⟨fun hmem => ?_, h.once⟩
    exact hheld.fresh (h.fresh _ hphase _ hmem ⟨job, hheld.row, rfl, hheld.running⟩)
  | _ => exact h.once

/-- While a job is claimed, the running jobs among those begun before are the abandoned ones. -/
theorem life_fresh [UnicodeDb] {s' : Service D} {ev : Event D} (h : LifeInv F s seen)
    (hs : Step s ev s') (p : Py (Option Job)) (hp : s'.worker = .claiming p) :
    ∀ id ∈ s'.started, s'.world.db.committed.Running id → F id := by
  have hw := h.inv.worker
  cases hs with
  | external hmove => exact h.fresh _ hp
  | spawn n task hn => exact h.fresh _ hp
  | requestStop => exact h.fresh _ hp
  | call hcall hsem =>
    obtain ⟨hgrows, _⟩ := (h.inv.calls _ _ hcall).step hsem
    exact fun id hid hrun => h.fresh _ hp id hid ((hgrows.running id).mp hrun)
  | claim hphase _ =>
    rw [hphase] at hw
    exact fun id _ hrun => (hw.1 id).mp hrun
  | claimStep hphase hsem =>
    rw [hphase] at hw
    obtain ⟨hadv, _⟩ := Safe.step hw (workerSem_of_sem hsem)
    exact fun id hid hrun => h.fresh _ hphase id hid (hadv.running (h.inv.begun id hid) hrun)
  | _ => cases hp

/-- What was seen before, nothing, or the store as it is. -/
theorem observe_cases (s : Service D) (ev : Event D) (seen : Seen) :
    observe s ev seen = seen ∨ observe s ev seen = none ∨
      ∃ row, observe s ev seen = some (s.world.db.committed, row) := by
  unfold observe
  split
  · rename_i row
    split
    · exact Or.inr (Or.inr ⟨row, rfl⟩)
    · exact Or.inl rfl
  · exact Or.inr (Or.inl rfl)
  · exact Or.inl rfl

/-- The job that was found stays in the store. -/
theorem life_known {Picked : Nat → Prop} {s' : Service D} {ev : Event D} (h : LifeInv F s seen)
    (hlife : LifeStep Picked s.world.db.committed s'.world.db.committed)
    (hread : ∀ db row, observe s ev seen = some (db, row) → row = oldestJob db.pendingJobs)
    (job : Job) (hfound : (observe s ev seen).found = some job) :
    ∃ row ∈ s'.world.db.committed.jobs, row.id = job.id ∧ row.key = job.key := by
  have hbefore : ∃ row ∈ s.world.db.committed.jobs, row.id = job.id ∧ row.key = job.key := by
    rcases observe_cases s ev seen with heq | heq | ⟨row, heq⟩
    · exact h.known job (heq ▸ hfound)
    · rw [heq] at hfound
      cases hfound
    · rw [heq] at hfound
      cases hfound
      exact ⟨job, (mem_pendingJobs.mp (mem_of_oldestJob (hread _ _ heq).symm)).1, rfl, rfl⟩
  obtain ⟨old, hold, hid, hkey⟩ := hbefore
  obtain ⟨row, hrow, hid', hkey', _⟩ := hlife.old old hold
  exact ⟨row, hrow, hid'.trans hid, hkey'.trans hkey⟩

/-- The step lemma: the store makes one of the moves of the life cycle, and what was observed of the
worker stays true of the phase that it is in. -/
theorem life_step [UnicodeDb] {s' : Service D} {ev : Event D} (h : LifeInv F s seen)
    (hs : Step s ev s') :
    LifeStep (Picked seen) s.world.db.committed s'.world.db.committed ∧
      ∃ F', LifeInv F' s' (observe s ev seen) := by
  obtain ⟨hlife, hread, hfoot⟩ := life_foot h hs
  obtain ⟨F', _, hF, hinv⟩ := inv_step h.inv hs
  refine ⟨hlife, F', hinv, life_started h hs, fun p hp => ?_, hread, life_known h hlife hread,
    hfoot⟩
  rcases hF with rfl | hdown
  · exact life_fresh h hs p hp
  · rw [hdown] at hp
    cases hp

/-- The run lemma: whatever a run has done, the invariant holds of it together with what was
observed of its worker. -/
theorem life_observed [UnicodeDb] (h : Observed s seen) : ∃ F, LifeInv F s seen := by
  induction h with
  | initial ext =>
    refine ⟨_, inv_initial ext, List.nodup_nil, ?_, ?_, ?_, trivial⟩
    all_goals
      intros
      contradiction
  | step _ hs ih =>
    obtain ⟨F, hinv⟩ := ih
    exact (life_step hinv hs).2

/-! ## The result -/

/-- A later state of the run, reached by any further steps. -/
def Later [UnicodeDb] : Service D → Service D → Prop :=
  Relation.ReflTransGen fun s s' => ∃ ev, Step s ev s'

theorem Observed.later [UnicodeDb] {s' : Service D} (h : Observed s seen) (hlater : Later s s') :
    ∃ seen', Observed s' seen' := by
  induction hlater with
  | refl => exact ⟨seen, h⟩
  | tail _ hstep ih =>
    obtain ⟨_, hs⟩ := hstep
    obtain ⟨_, hobs⟩ := ih
    exact ⟨_, hobs.step hs⟩

/-- A finished job is never modified again. -/
theorem terminal_later [UnicodeDb] {s' : Service D} (h : Observed s seen) (hlater : Later s s')
    {job : Job} (hjob : job ∈ s.world.db.committed.jobs) (hterm : job.status.IsTerminal) :
    job ∈ s'.world.db.committed.jobs := by
  induction hlater with
  | refl => exact hjob
  | tail hprev hstep ih =>
    obtain ⟨_, hs⟩ := hstep
    obtain ⟨_, hobs⟩ := h.later hprev
    obtain ⟨F, hinv⟩ := life_observed hobs
    obtain ⟨job', hjob', _, _, hcase⟩ := (life_step hinv hs).1.old job ih
    rcases hcase with rfl | ⟨hnext, _⟩
    · exact hjob'
    · rcases JobStatus.isTerminal_iff.mp hterm with hst | hst <;>
        simp [hst, JobStatus.Next] at hnext

/-- **The life cycle of a job.** In every state of every run, no job has been handed to the reviewer
twice; a job `_claim_one` returns was the first of the pending jobs at the moment the queue was
read; every step moves each job at most one status on, starts no job but the one that was read,
and adds pending jobs only; and a finished job stays as it is for good. -/
theorem job_life_cycle [UnicodeDb] (h : Observed s seen) :
    s.started.Nodup ∧
    (∀ job, s.worker = .claiming (.ret (some job)) → Picked seen job.id ∧
      job ∈ s.world.db.committed.jobs ∧ job.status = .running) ∧
    (∀ ev s', Step s ev s' →
      LifeStep (Picked seen) s.world.db.committed s'.world.db.committed) ∧
    ∀ s', Later s s' → ∀ job ∈ s.world.db.committed.jobs, job.status.IsTerminal →
      job ∈ s'.world.db.committed.jobs := by
  obtain ⟨F, hinv⟩ := life_observed h
  refine ⟨hinv.once, fun job hphase => ?_, fun ev s' hs => (life_step hinv hs).1,
    fun s' hlater job hjob hterm => terminal_later h hlater hjob hterm⟩
  have hw := hinv.inv.worker
  have hfoot := hinv.foot
  rw [hphase] at hw hfoot
  obtain ⟨_, _, hheld⟩ := Safe.ok hw
  rcases hfoot with ⟨_, ⟨k, heq, _⟩, _⟩ | ⟨hclaims, _⟩
  · cases heq
  · obtain ⟨picked, hfound, hid⟩ := hclaims.yields job rfl
    exact ⟨hid ▸ hinv.picked hfound, hheld.row, hheld.running⟩

/-! ## Two jobs in the queue -/

/-- The worker is about to process the job with this id. -/
def claimed {D : Deployment} (s : Service D) (id : Nat) : Bool :=
  match s.worker with
  | .claiming (.ret (some job)) => job.id = id
  | _ => false

theorem claimed_eq_true {D : Deployment} {s : Service D} {id : Nat} (h : claimed s id = true) :
    ∃ job, s.worker = .claiming (.ret (some job)) ∧ job.id = id := by
  unfold claimed at h
  split at h
  · rename_i job hphase
    exact ⟨job, hphase, by simpa using h⟩
  · cases h

section Example

attribute [local instance] asciiDb

/-- Two pull requests are enqueued, and the first one is claimed. -/
theorem job_life_cycle_first_come :
    ∃ (s : Service (.queue outage exampleConfig nothingToReview)) (seen : Seen),
      Observed s seen ∧ s.started.Nodup ∧ Picked seen 1 ∧
      ∃ job ∈ s.world.db.committed.jobs, job.id = 1 ∧ job.status = .running := by
  obtain ⟨s, hs, htest⟩ := exists_of_schedule outageResponder (fun _ _ => true)
    (P := fun _ _ => True) (fun _ _ _ => trivial) (0 : Nat)
    ([.spawn 1 exampleTrigger, .spawn 2 { exampleTrigger with prNumber := 8 }] ++
      List.replicate 7 (.call 1 false) ++ List.replicate 7 (.call 2 false) ++ [.start] ++
      List.replicate 7 (.worker false))
    (fun (s : Service (.queue outage exampleConfig nothingToReview)) => claimed s 1)
    (by decide +kernel)
  obtain ⟨seen, hobs⟩ := observed_of_reachable hs
  obtain ⟨job, hphase, hid⟩ := claimed_eq_true htest
  obtain ⟨honce, hclaimed, _⟩ := job_life_cycle hobs
  obtain ⟨hpicked, hrow, hrun⟩ := hclaimed job hphase
  exact ⟨s, seen, hobs, honce, hid ▸ hpicked, job, hrow, hid, hrun⟩

end Example

end VidiPr
