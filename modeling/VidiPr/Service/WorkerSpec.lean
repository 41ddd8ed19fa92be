import VidiPr.Service.System

/-!
# The worker, one turn at a time

What `_claim_one`, `_process` and `recover_on_startup` do to the store, each beside any number of
other tasks. `F` is the set of jobs that were already running before: nobody will finish them.

* **`claimOne_triple`** — an empty result leaves the queue alone, a job that is returned is held,
  and an exception comes from a statement that failed.
* **`process_triple`** — when `_process` returns, the outcome of the review is recorded, the job
  is finished and its lock is gone; an exception comes from a statement that failed, or from a
  cooldown that reaches back before the first date (`Broke`).
* **`recoveryRoutine_triple`** — no job is running afterwards.

The three settings differ in what the committed store looks like before and after the task's
first commit (`ClaimStore`, `ProcessStore`, `RecoverStore`), and that is also all that is known
of the store when the process dies.
-/

namespace VidiPr

open Effect Prog Relational

/-! ## The setting of the worker's task -/

section Setting

variable {X : External}

/-- The worker's requests, recorded in its log, so that an assertion can speak of what the task has
committed. -/
def workerSem (X : External) : Sem Req Req.Resp PyError (World X × WorkerLog) :=
  fun e c r c' => sem X .worker e c.1 r c'.1 ∧ c'.2 = c.2.record e r

theorem workerSem_of_sem {e : Req} {world world' : World X} {log : WorkerLog}
    {r : Except PyError e.Resp} (h : sem X .worker e world r world') :
    workerSem X e (world, log) r (world', log.record e r) :=
  ⟨h, rfl⟩

/-- The worker beside the other tasks. `store` relates the number of its commits to what is
committed; `moves` bounds what the others do to the outside. -/
def workerSetting (X : External) (moves : X.State → X.State → Prop) (store : Nat → Db → Prop) :
    Setting Req Req.Resp PyError (World X × WorkerLog) where
  sem := workerSem X
  inv c := LockInv c.1.db.committed ∧ store c.2.commits c.1.db.committed
  rely c c' := (∃ n, ActorStep (.call n) c.1.db c'.1.db) ∧
    c.1.db.committed.Grows c'.1.db.committed ∧ moves c.1.ext c'.1.ext ∧ c'.2 = c.2
  guar c c' := c.1.db.committed.Advances c'.1.db.committed

/-- An assertion about the store and the log. -/
def onStore (A : Sqlite → WorkerLog → Prop) (c : World X × WorkerLog) : Prop := A c.1.db c.2

/-- A statement of the worker has failed. -/
def Faulted (_ : Sqlite) (log : WorkerLog) : Prop := log.faulted = true

/-- The clock can show this time: some state of the outside answers so to `utcnow`. -/
def External.Shows (X : External) (now : Nat) : Prop := ∃ s s', X.answer .utcnow s (.ok now) s'

/-- Whatever time the clock shows, there is a date that is the cooldown earlier. -/
def External.Covers (X : External) (cooldownSeconds : Nat) : Prop :=
  ∀ now, X.Shows now → CooldownInRange now cooldownSeconds

/-- Of a cooldown of up to 1969 years the clock need not be known. -/
theorem External.covers_of_le {X : External} {cooldownSeconds : Nat}
    (h : cooldownSeconds ≤ firstDateSeconds) : X.Covers cooldownSeconds :=
  fun now _ => cooldownInRange_of_le h now

/-- The worker has no open transaction, so that others may write and a crash loses nothing of its
own. -/
def NoTx (s : Sqlite) (_ : WorkerLog) : Prop := ¬ s.Owns .worker

variable {moves : X.State → X.State → Prop} {store : Nat → Db → Prop}

theorem stable_log (A : WorkerLog → Prop) :
    (workerSetting X moves store).Stable (onStore fun _ log => A log) := by
  rintro c c' h _ ⟨_, _, _, hlog⟩ _
  unfold onStore
  rwa [hlog]

theorem stable_noTx : (workerSetting X moves store).Stable (onStore NoTx) := by
  rintro c c' h _ ⟨⟨n, hstep⟩, _⟩ _
  exact hstep.not_owns (by simp) h

/-- While the worker holds the write lock, nobody else changes the store at all. -/
theorem stable_tx {A : Sqlite → WorkerLog → Prop} (hA : ∀ s log, A s log → s.Owns .worker) :
    (workerSetting X moves store).Stable (onStore A) := by
  rintro c c' h _ ⟨⟨n, hstep⟩, _, _, hlog⟩ _
  have hsame : c'.1.db = c.1.db := hstep.frame (by simp) (hA _ _ h)
  unfold onStore
  rwa [hsame, hlog]

/-- What growing keeps, the others keep. -/
theorem stable_committed {A : Db → WorkerLog → Prop}
    (hA : ∀ db db' log, A db log → db.Grows db' → A db' log) :
    (workerSetting X moves store).Stable (onStore fun s log => A s.committed log) := by
  rintro c c' h _ ⟨_, hgrows, _, hlog⟩ _
  have := hA _ _ _ h hgrows
  unfold onStore
  rwa [hlog]

/-- Only a commit counts as one. -/
theorem record_commits {e : Req} {r : Except PyError e.Resp} {log : WorkerLog}
    (hne : e ≠ .sql .commit) : (log.record e r).commits = log.commits := by
  unfold WorkerLog.record
  split
  · exact absurd rfl hne
  · rfl
  · rfl

/-- A request that commits nothing keeps the invariant and the guarantee. -/
theorem worker_keeps {e : Req} {c c' : World X × WorkerLog} {r : Except PyError e.Resp}
    (h : (workerSetting X moves store).sem e c r c') (hne : e ≠ .sql .commit)
    (hi : (workerSetting X moves store).inv c) :
    (workerSetting X moves store).inv c' ∧ (workerSetting X moves store).guar c c' := by
  have hsame : c'.1.db.committed = c.1.db.committed := committed_of_sem h.1 hne
  have hcommits : c'.2.commits = c.2.commits := by rw [h.2, record_commits hne]
  simp only [workerSetting, hsame, hcommits]
  exact ⟨hi, .of_subset fun _ hjob => hjob⟩

/-! ## One rule for each kind of request -/

variable {A : Sqlite → WorkerLog → Prop}

/-- A program without statements keeps every stable assertion, and its outcome is one that
possible answers allow. -/
theorem worker_ext {α : Type} {Y : Except PyError α → Prop}
    (hA : (workerSetting X moves store).Stable (onStore A)) {p : Py α} (hp : p.Calls Req.IsExt)
    (hy : p.Yields Req.Possible Y) :
    Triple (workerSetting X moves store) (onStore A) p fun r c => Y r ∧ onStore A c := by
  refine Triple.of_calls hA ?_ hp hy
  intro e he c r c' hi hs hsem
  cases e with
  | sql q => exact absurd he id
  | ext e =>
    obtain ⟨hi', hg⟩ := worker_keeps hsem (by simp) hi
    refine ⟨hi', hg, possible_of_sem hsem.1, ?_⟩
    have hlog : c'.2 = c.2 := hsem.2
    unfold onStore
    rw [hsem.1.2, hlog]
    exact hs

/-- A reading of the clock, with the time it showed. -/
theorem worker_clock {F : Sqlite → WorkerLog → Prop}
    (hA : (workerSetting X moves store).Stable (onStore A))
    (hF : (workerSetting X moves store).Stable (onStore F)) :
    Triple (workerSetting X moves store) (onStore A) Py.utcnow
      (Post (fun now c => X.Shows now ∧ onStore A c) (onStore F)) := by
  refine .perform hA (Setting.Stable.post (fun now => (Setting.stable_const _).and hA) hF) ?_
  intro c r c' hi hs hsem
  obtain ⟨hi', hg⟩ := worker_keeps hsem (by simp) hi
  obtain ⟨now, rfl⟩ : ∃ now, r = .ok now := possible_of_sem hsem.1
  have hlog : c'.2 = c.2 := hsem.2
  refine ⟨hi', hg, ⟨_, _, hsem.1.1⟩, ?_⟩
  unfold onStore
  rw [hsem.1.2, hlog]
  exact hs

theorem worker_utcnow {F : Sqlite → WorkerLog → Prop}
    (hA : (workerSetting X moves store).Stable (onStore A))
    (hF : (workerSetting X moves store).Stable (onStore F)) :
    Triple (workerSetting X moves store) (onStore A) Py.utcnow
      (Post (fun _ => onStore A) (onStore F)) := by
  refine (worker_clock hA hF).conseq (fun _ _ h => h) ?_ fun r =>
    Setting.Stable.post (fun _ => hA) hF r
  rintro (x | now) c _ h
  · exact h
  · exact h.2

/-- A query reads the worker's view. -/
theorem worker_query {q : Query} {B : q.Resp → Sqlite → WorkerLog → Prop}
    (hA : (workerSetting X moves store).Stable (onStore A))
    (hB : ∀ v, (workerSetting X moves store).Stable (onStore (B v)))
    (h : ∀ s log, LockInv s.committed → store log.commits s.committed → A s log →
      B (q.eval (s.view .worker)) s log) :
    Triple (workerSetting X moves store) (onStore A) (Py.query q)
      (Post (fun v => onStore (B v)) (onStore Faulted)) := by
  refine .perform hA (fun r => Setting.Stable.post hB (stable_log _) r) ?_
  intro c r c' hi hs hsem
  obtain ⟨hi', hg⟩ := worker_keeps hsem (by simp) hi
  refine ⟨hi', hg, ?_⟩
  have hlog := hsem.2
  rcases hsem.1.1 with ⟨hr, hdb⟩ | ⟨⟨m, hr⟩, hdb⟩
  · subst hr
    change B _ c'.1.db c'.2
    rw [hlog, hdb]
    exact h _ _ hi.1 hi.2 hs
  · subst hr
    change c'.2.faulted = true
    rw [hlog]
    rfl

/-- A DML statement leaves the worker with the write lock. -/
theorem worker_execute {d : Dml} {B : d.Resp → Sqlite → WorkerLog → Prop}
    (hA : (workerSetting X moves store).Stable (onStore A))
    (hB : ∀ v s log, B v s log → s.Owns .worker)
    (h : ∀ s log row work, LockInv s.committed → store log.commits s.committed → A s log →
      d.apply (s.view .worker) = (row, work) →
      B row { s with tx := some (.worker, work) } log) :
    Triple (workerSetting X moves store) (onStore A) (Py.execute d)
      (Post (fun v => onStore (B v)) (onStore Faulted)) := by
  refine .perform hA (fun r => Setting.Stable.post (fun v => stable_tx (hB v)) (stable_log _) r) ?_
  intro c r c' hi hs hsem
  obtain ⟨hi', hg⟩ := worker_keeps hsem (by simp) hi
  refine ⟨hi', hg, ?_⟩
  have hlog := hsem.2
  rcases dml_cases hsem.1 with ⟨row, work, hr, happly, hdb⟩ | ⟨⟨m, hr⟩, hdb⟩
  · subst hr
    change B _ c'.1.db c'.2
    rw [hlog, hdb]
    exact h _ _ _ _ hi.1 hi.2 hs happly
  · subst hr
    change c'.2.faulted = true
    rw [hlog]
    rfl

/-- A commit of the worker's transaction: the copy must satisfy what the store must. -/
theorem worker_commit {B : Sqlite → WorkerLog → Prop} (hA : ∀ s log, A s log → s.Owns .worker)
    (hB : (workerSetting X moves store).Stable (onStore B))
    (h : ∀ s log work, LockInv s.committed → store log.commits s.committed → A s log →
      s.tx = some (.worker, work) →
      LockInv work ∧ store (log.commits + 1) work ∧ s.committed.Advances work ∧
        B { committed := work, tx := none, log := (.worker, s.committed) :: s.log }
          { log with commits := log.commits + 1 }) :
    Triple (workerSetting X moves store) (onStore A) Py.commit
      (Post (fun _ => onStore B) (onStore Faulted)) := by
  refine .perform (stable_tx hA) (fun r => Setting.Stable.post (fun _ => hB) (stable_log _) r) ?_
  intro c r c' hi hs hsem
  obtain ⟨work, htx⟩ := hA _ _ hs
  have hlog := hsem.2
  rcases hsem.1.1 with ⟨hr, hdb⟩ | ⟨⟨m, hr⟩, hdb⟩
  · -- the commit succeeds: the copy becomes the store
    subst hr
    have hlog' : c'.2 = { c.2 with commits := c.2.commits + 1 } := hlog
    rw [Sqlite.commit_of_tx htx] at hdb
    obtain ⟨hinv, hstore, hadv, hpost⟩ := h _ _ _ hi.1 hi.2 hs htx
    simp only [workerSetting, hdb, hlog']
    refine ⟨⟨hinv, hstore⟩, hadv, ?_⟩
    change B c'.1.db c'.2
    rw [hdb, hlog']
    exact hpost
  · -- it fails: the store is as it was, and the log says so
    subst hr
    have hlog' : c'.2 = { c.2 with faulted := true } := hlog
    simp only [workerSetting, hdb, hlog']
    refine ⟨hi, .of_subset fun _ hjob => hjob, ?_⟩
    change c'.2.faulted = true
    rw [hlog']

/-! ## Transactions of the worker -/

/-- What is known of the committed store and of the log while the worker reads. -/
def Reading (C : Db → WorkerLog → Prop) (s : Sqlite) (log : WorkerLog) : Prop :=
  NoTx s log ∧ C s.committed log

/-- The worker has an open transaction, whose copy is in relation `W` to what is committed. -/
def Writing (C : Db → WorkerLog → Prop) (W : Db → Db → Prop) (s : Sqlite) (log : WorkerLog) :
    Prop :=
  C s.committed log ∧ ∃ work, s.tx = some (.worker, work) ∧ W s.committed work

variable {C : Db → WorkerLog → Prop} {W W' : Db → Db → Prop}

theorem Writing.owns {s : Sqlite} {log : WorkerLog} (h : Writing C W s log) :
    s.Owns .worker := by
  obtain ⟨_, work, htx, _⟩ := h
  exact ⟨work, htx⟩

theorem stable_writing : (workerSetting X moves store).Stable (onStore (Writing C W)) :=
  stable_tx fun _ _ => Writing.owns

theorem stable_reading (hC : ∀ db db' log, C db log → db.Grows db' → C db' log) :
    (workerSetting X moves store).Stable (onStore (Reading C)) :=
  stable_noTx.and (stable_committed hC)

/-- What an exception that leaves a session says: a statement has failed, and the session was
closed. -/
def Failed (s : Sqlite) (log : WorkerLog) : Prop := NoTx s log ∧ Faulted s log

/-- A session of the worker: closing it drops what is not committed, and keeps what is known of an
exception. -/
theorem worker_close {α : Type} {p : Py α} {B : α → Db → WorkerLog → Prop} {E : WorkerLog → Prop}
    (h : Triple (workerSetting X moves store) (onStore A) p
      (Post (fun v => onStore fun s log => B v s.committed log) (onStore fun _ log => E log))) :
    Triple (workerSetting X moves store) (onStore A) (Py.withSession p)
      (Post (fun v => onStore (Reading (B v))) (onStore fun s log => NoTx s log ∧ E log)) := by
  have hend : ∀ r : Except PyError α, (workerSetting X moves store).Stable
      (Post (fun v => onStore (Reading (B v))) (onStore fun s log => NoTx s log ∧ E log) r) := by
    intro r
    cases r with
    | ok v => exact stable_noTx.and (h.stable (.ok v))
    | error x => exact stable_noTx.and (stable_log E)
  refine h.finally' hend fun r => .perform (h.stable r)
    (fun r' => (Setting.stable_const _).and (hend r)) ?_
  intro c r' c' hi hs hsem
  obtain ⟨hi', hg⟩ := worker_keeps hsem (by simp) hi
  obtain ⟨hr', hdb⟩ := hsem.1.1
  have hlog : c'.2 = c.2 := hsem.2.trans (by rw [hr']; rfl)
  -- after the rollback there is no transaction
  have hnoTx : NoTx c'.1.db c'.2 := by
    rw [NoTx, hdb]
    exact Sqlite.not_owns_rollback _ _
  refine ⟨hi', hg, hr', ?_⟩
  cases r with
  | ok v =>
    refine ⟨hnoTx, ?_⟩
    rw [hdb, hlog, Sqlite.rollback_committed]
    exact hs
  | error x =>
    refine ⟨hnoTx, ?_⟩
    rw [hlog]
    exact hs

/-- A session whose exceptions come from a statement. -/
theorem worker_session {α : Type} {p : Py α} {B : α → Db → WorkerLog → Prop}
    (h : Triple (workerSetting X moves store) (onStore A) p
      (Post (fun v => onStore fun s log => B v s.committed log) (onStore Faulted))) :
    Triple (workerSetting X moves store) (onStore A) (Py.withSession p)
      (Post (fun v => onStore (Reading (B v))) (onStore Failed)) :=
  worker_close (E := fun log => log.faulted = true) h

/-- The statement that opens a transaction. -/
theorem worker_write {d : Dml} (hC : ∀ db db' log, C db log → db.Grows db' → C db' log) :
    Triple (workerSetting X moves store) (onStore (Reading C)) (Py.execute d)
      (Post (fun row => onStore (Writing C fun db work => d.apply db = (row, work)))
        (onStore Faulted)) := by
  refine worker_execute (stable_reading hC) (fun _ _ _ => Writing.owns) ?_
  rintro s log row work _ _ ⟨hnoTx, hs⟩ happly
  rw [Sqlite.view_of_not_owns hnoTx] at happly
  exact ⟨hs, work, rfl, happly⟩

/-- A further statement of a transaction. -/
theorem worker_write_more {d : Dml} (h : ∀ db work₀ row work, W db work₀ →
      d.apply work₀ = (row, work) → W' db work) :
    Triple (workerSetting X moves store) (onStore (Writing C W)) (Py.execute d)
      (Post (fun _ => onStore (Writing C W')) (onStore Faulted)) := by
  refine worker_execute stable_writing (fun _ _ _ => Writing.owns) ?_
  rintro s log row work _ _ ⟨hs, work₀, htx, hW⟩ happly
  rw [Sqlite.view_of_tx htx] at happly
  exact ⟨hs, work, rfl, h _ _ _ _ hW happly⟩

/-- `update_job_status` as the first statement of a transaction. -/
theorem updateJobStatus_triple {id : Nat} {status : JobStatus} {detail : Option JobStatusDetail}
    {error : Option String} (hC : ∀ db db' log, C db log → db.Grows db' → C db' log) :
    Triple (workerSetting X moves store) (onStore (Reading C))
      (updateJobStatus id status detail error)
      (Post (fun _ => onStore (Writing C fun db work => ∃ updatedAt,
        work = ((Dml.updateJobStatus id status detail error updatedAt).apply db).2))
        (onStore Faulted)) := by
  refine (worker_utcnow (stable_reading hC) (stable_log _)).seq (fun _ => stable_writing)
    fun now _ => ?_
  refine (worker_write hC).conseq (fun _ _ h => h) ?_
    fun r => Setting.Stable.post (fun _ => stable_writing) (stable_log _) r
  rintro (x | row) c _ h
  · exact h
  · obtain ⟨hs, work, htx, happly⟩ := h
    exact ⟨hs, work, htx, now, (congrArg Prod.snd happly).symm⟩

end Setting

/-! ## Claiming -/

section Claim

variable {X : External} {moves : X.State → X.State → Prop} {F : Nat → Prop}

/-- While a job is claimed: the running jobs are those of `F`, and after the commit one more. -/
def ClaimStore (F : Nat → Prop) (commits : Nat) (db : Db) : Prop :=
  (commits = 0 → db.RunningIs F) ∧ (0 < commits → ∃ job, Held F job db)

/-- What is known of the store when `_claim_one` is called. -/
def Queued (db : Db) (log : WorkerLog) : Prop :=
  log.commits = 0 ∧ (log.queued = true → ∃ job ∈ db.jobs, job.status = .pending)

theorem Queued.grows (db db' : Db) (log : WorkerLog) (h : Queued db log) (hg : db.Grows db') :
    Queued db' log := by
  refine ⟨h.1, fun hq => ?_⟩
  obtain ⟨job, hjob, hst⟩ := h.2 hq
  exact ⟨job, hg.jobs job hjob, hst⟩

/-- What a result of `_claim_one` says. -/
def ClaimResult (F : Nat → Prop) : Option Job → Db → WorkerLog → Prop
  | none, _, log => log.commits = 0 ∧ log.queued = false
  | some job, db, log => 0 < log.commits ∧ Held F job db

theorem ClaimResult.grows {result : Option Job} {db db' : Db} {log : WorkerLog}
    (h : ClaimResult F result db log) (hg : db.Grows db') : ClaimResult F result db' log := by
  cases result with
  | none => exact h
  | some job => exact ⟨h.1, h.2.grows hg⟩

/-- `job` is pending, and nothing has been committed. -/
def Claimable (job : Job) (db : Db) (log : WorkerLog) : Prop :=
  log.commits = 0 ∧ job ∈ db.jobs ∧ job.status = .pending

theorem Claimable.grows (job : Job) (db db' : Db) (log : WorkerLog) (h : Claimable job db log)
    (hg : db.Grows db') : Claimable job db' log :=
  ⟨h.1, hg.jobs job h.2.1, h.2.2⟩

/-- What reading the queue says: a job that is pending, with nothing committed yet, or that the
queue was empty when `_claim_one` was called. -/
def Found : Option Job → Db → WorkerLog → Prop
  | none, _, log => log.commits = 0 ∧ log.queued = false
  | some job, db, log => Claimable job db log

theorem Found.grows (pending : Option Job) (db db' : Db) (log : WorkerLog)
    (h : Found pending db log) (hg : db.Grows db') : Found pending db' log := by
  cases pending with
  | none => exact h
  | some job => exact Claimable.grows job db db' log h hg

/-- The queue is read: what is found is a pending job, and nothing is found only if the queue was
empty from the start. -/
theorem oldestPendingJob_triple :
    Triple (workerSetting X moves (ClaimStore F)) (onStore (Reading Queued))
      (Py.query .oldestPendingJob)
      (Post (fun pending => onStore (Reading (Found pending))) (onStore Faulted)) := by
  refine worker_query (stable_reading Queued.grows)
    (fun pending => stable_reading (Found.grows pending)) ?_
  rintro s log _ _ ⟨hnoTx, hcommits, hqueued⟩
  rw [Sqlite.view_of_not_owns hnoTx]
  refine ⟨hnoTx, ?_⟩
  show Found (oldestJob s.committed.pendingJobs) _ _
  cases hold : oldestJob s.committed.pendingJobs with
  | none =>
    refine ⟨hcommits, ?_⟩
    have hnone : s.committed.pendingJobs = [] := oldestJob_eq_none.mp hold
    by_contra hne
    obtain ⟨job, hjob, hst⟩ := hqueued (by simpa using hne)
    have hmem : job ∈ s.committed.pendingJobs := mem_pendingJobs.mpr ⟨hjob, hst⟩
    rw [hnone] at hmem
    exact absurd hmem List.not_mem_nil
  | some job =>
    obtain ⟨hrow, hst⟩ := mem_pendingJobs.mp (mem_of_oldestJob hold)
    exact ⟨hcommits, hrow, hst⟩

/-- The claim is committed: the job is held. -/
theorem claimCommit_triple {job : Job} :
    Triple (workerSetting X moves (ClaimStore F))
      (onStore (Writing (Claimable job) fun db work => ∃ updatedAt,
        work = ((Dml.updateJobStatus job.id .running none none updatedAt).apply db).2))
      Py.commit
      (Post (fun _ => onStore (Reading fun db log => 0 < log.commits ∧
        ∃ row, row.id = job.id ∧ Held F row db)) (onStore Faulted)) := by
  refine worker_commit (fun _ _ => Writing.owns) (stable_reading ?_) ?_
  · exact fun db db' log h hg => ⟨h.1, h.2.imp fun row hrow => ⟨hrow.1, hrow.2.grows hg⟩⟩
  · rintro s log work hinv hstore ⟨⟨hcommits, hjob, hst⟩, work', htx', updatedAt, hwork'⟩ htx
    rw [htx'] at htx
    obtain rfl : work' = work := by simpa using htx
    have hheld := held_of_claim (hstore.1 hcommits) hjob hst none none updatedAt
    rw [← hwork'] at hheld
    refine ⟨?_, ⟨by simp, fun _ => ⟨_, hheld⟩⟩, ?_, by simp [NoTx, Sqlite.Owns], by simp,
      job.withStatus .running none none updatedAt, rfl, hheld⟩
    · rw [hwork']
      exact hinv.claim hjob hst none none updatedAt
    · refine advances_updateJobStatus hjob ?_ (congrArg Db.jobs hwork')
      rw [hst]
      rfl

/-- `session.refresh` finds the row that was just committed. -/
theorem refresh_triple {job : Job} :
    Triple (workerSetting X moves (ClaimStore F))
      (onStore (Reading fun db log => 0 < log.commits ∧ ∃ row, row.id = job.id ∧ Held F row db))
      (Py.query (.job job.id))
      (Post (fun row => onStore (Reading fun db log => 0 < log.commits ∧
        ∃ refreshed, row = some refreshed ∧ Held F refreshed db)) (onStore Faulted)) := by
  have hgrows : ∀ {P : Job → Prop} (db db' : Db) (log : WorkerLog),
      (0 < log.commits ∧ ∃ row, P row ∧ Held F row db) → db.Grows db' →
      0 < log.commits ∧ ∃ row, P row ∧ Held F row db' :=
    fun db db' log h hg => ⟨h.1, h.2.imp fun row hrow => ⟨hrow.1, hrow.2.grows hg⟩⟩
  refine worker_query (stable_reading hgrows) (fun v => stable_reading hgrows) ?_
  rintro s log _ _ ⟨hnoTx, hcommits, row, hid, hheld⟩
  rw [Sqlite.view_of_not_owns hnoTx]
  exact ⟨hnoTx, hcommits, row, Table.get?_eq_some.mpr ⟨hheld.row, hid⟩, hheld⟩

theorem claimOne_triple :
    Triple (workerSetting X moves (ClaimStore F)) (onStore (Reading Queued)) Worker.claimOne
      (Post (fun result => onStore (Reading (ClaimResult F result))) (onStore Failed)) := by
  have hend : ∀ result, (workerSetting X moves (ClaimStore F)).Stable
      (onStore fun s log => ClaimResult F result s.committed log) :=
    fun result => stable_committed fun _ _ _ h hg => h.grows hg
  refine worker_session (oldestPendingJob_triple.seq hend fun pending _ => ?_)
  cases pending with
  | none =>
    exact .ret (Setting.Stable.post hend (stable_log _)) fun c _ hs => hs.2
  | some job =>
    refine (updateJobStatus_triple (Claimable.grows job)).seq hend fun _ _ => ?_
    refine claimCommit_triple.seq hend fun _ _ => ?_
    refine refresh_triple.seq hend fun row _ => ?_
    cases row with
    | some refreshed =>
      refine .ret (Setting.Stable.post hend (stable_log _)) fun c _ hs => ?_
      obtain ⟨_, hcommits, row, hrow, hheld⟩ := hs
      exact ⟨hcommits, Option.some.inj hrow ▸ hheld⟩
    | none =>
      refine .raise (Setting.Stable.post hend (stable_log _)) fun c _ hs => ?_
      obtain ⟨_, _, row, hrow, _⟩ := hs
      cases hrow

end Claim

/-! ## Processing -/

section Process

variable {X : External} {moves : X.State → X.State → Prop} {F : Nat → Prop} {job : Job}
  {reviews : Table Nat ReviewPosted ReviewPosted.id} {result : ReviewResult}

/-- What is recorded for an outcome of the review. -/
def recorded : Except PyError ReviewResult → ReviewResult
  | .ok result => result
  | .error .timeoutError =>
    { status := .failed
      statusDetail := some .timeout
      error := some "job timed out"
      failureMessage := some "vidi-pr could not complete the review: job timed out" }
  | .error exc =>
    { status := .failed
      statusDetail := some .llmFailure
      error := some exc.str
      failureMessage := some ("vidi-pr could not complete the review: " ++ exc.str) }

/-- While a job is processed: held, and after the commit of its outcome settled. -/
def ProcessStore (F : Nat → Prop) (job : Job)
    (reviews : Table Nat ReviewPosted ReviewPosted.id) (commits : Nat) (db : Db) : Prop :=
  (commits = 0 → Held F job db ∧ db.reviewsPosted = reviews) ∧
  (0 < commits → ∃ result, result.status.IsTerminal ∧ Settled F job result reviews db)

/-- The outcome is committed: in the store the row, the review and the lock of the job are what its
result asks for. -/
def Done (F : Nat → Prop) (job : Job) (result : ReviewResult)
    (reviews : Table Nat ReviewPosted ReviewPosted.id) (db : Db) (log : WorkerLog) : Prop :=
  0 < log.commits ∧ Settled F job result reviews db

theorem Done.grows (db db' : Db) (log : WorkerLog) (h : Done F job result reviews db log)
    (hg : db.Grows db') : Done F job result reviews db' log :=
  ⟨h.1, h.2.grows hg⟩

/-- Some outcome is committed. -/
def Finished (F : Nat → Prop) (job : Job) (reviews : Table Nat ReviewPosted ReviewPosted.id)
    (db : Db) (log : WorkerLog) : Prop :=
  ∃ result, result.status.IsTerminal ∧ Done F job result reviews db log

theorem Finished.grows (db db' : Db) (log : WorkerLog) (h : Finished F job reviews db log)
    (hg : db.Grows db') : Finished F job reviews db' log := by
  obtain ⟨result, hst, hdone⟩ := h
  exact ⟨result, hst, hdone.grows _ _ _ hg⟩

/-- The copy of `_persist` once the job row, and the review row if there is one, are written. -/
def RowsWritten (job : Job) (result : ReviewResult) (db work : Db) : Prop :=
  (∃ updatedAt, work.jobs = ((Dml.updateJobStatus job.id result.status result.statusDetail
    result.error updatedAt).apply db).2.jobs) ∧
  work.prLocks = db.prLocks ∧ Recorded job result db.reviewsPosted work.reviewsPosted

/-- The copy of `_persist` once the lock is deleted too. -/
def OutcomeWritten (job : Job) (result : ReviewResult) (db work : Db) : Prop :=
  (∃ updatedAt, work.jobs = ((Dml.updateJobStatus job.id result.status result.statusDetail
    result.error updatedAt).apply db).2.jobs) ∧
  work.prLocks = ((Dml.deletePrLock job.repo job.prNumber).apply db).2.prLocks ∧
  Recorded job result db.reviewsPosted work.reviewsPosted

/-- Inserting the row of a posted review. -/
theorem recorded_insertReviewPosted {db work : Db} {posted row : ReviewPosted} {reviewId : Nat}
    (hid : result.reviewId = some reviewId) (hrepo : posted.repo = job.repo)
    (hnum : posted.prNumber = job.prNumber) (hsha : posted.headSha = job.headSha)
    (hreview : posted.reviewId = reviewId)
    (happly : (Dml.insertReviewPosted posted).apply db = (row, work)) :
    work.jobs = db.jobs ∧ work.prLocks = db.prLocks ∧
      Recorded job result db.reviewsPosted work.reviewsPosted := by
  have hwork : work = ((Dml.insertReviewPosted posted).apply db).2 :=
    (congrArg Prod.snd happly).symm
  subst hwork
  refine ⟨rfl, rfl, ?_⟩
  rw [Recorded, hid]
  refine ⟨{ posted with id := db.reviewsPosted.freshId }, ?_, ?_, hrepo, hnum, hsha, hreview⟩
  · intro hmem
    exact absurd (Table.lt_freshId hmem) (Nat.lt_irrefl _)
  · intro r
    show r ∈ (db.reviewsPosted.insertAuto (fun id => { posted with id }) fun _ => rfl).1 ↔ _
    exact Table.mem_insertAuto

/-- The row of the review, where there is one: inserted into the copy that has the new status
already, and not committed yet. -/
theorem recordReview_triple {store : Nat → Db → Prop} :
    Triple (workerSetting X moves store)
      (onStore (Writing (fun _ log => log.commits = 0) fun db work => ∃ updatedAt,
        work = ((Dml.updateJobStatus job.id result.status result.statusDetail result.error
          updatedAt).apply db).2))
      (Worker.recordReview job result)
      (Post (fun _ => onStore (Writing (fun _ log => log.commits = 0) (RowsWritten job result)))
        (onStore Faulted)) := by
  unfold Worker.recordReview
  cases hid : result.reviewId with
  -- no review, so the copy stays
  | none =>
    refine .ret (Setting.Stable.post (fun _ => stable_writing) (stable_log _)) ?_
    rintro c _ ⟨hlog, work, htx, updatedAt, rfl⟩
    refine ⟨hlog, _, htx, ⟨updatedAt, rfl⟩, rfl, ?_⟩
    rw [Recorded, hid]
    rfl
  -- one row more
  | some reviewId =>
    refine Triple.seq (B := fun _ => onStore (Writing (fun _ log => log.commits = 0)
      (RowsWritten job result))) ?_ (fun _ => stable_writing) fun _ _ =>
        .ret (Setting.Stable.post (fun _ => stable_writing) (stable_log _)) fun _ _ hs => hs
    refine (worker_utcnow stable_writing (stable_log _)).seq (fun _ => stable_writing)
      fun now _ => worker_write_more ?_
    rintro db work₀ row work ⟨updatedAt, hwork₀⟩ happly
    obtain ⟨hjobs, hlocks, hrec⟩ := recorded_insertReviewPosted hid rfl rfl rfl rfl happly
    rw [hwork₀] at hjobs hlocks hrec
    exact ⟨⟨updatedAt, hjobs⟩, hlocks, hrec⟩

/-- The commit of an outcome: locks and unfinished jobs still correspond, because the lock that
is deleted is the one of the job that is held. -/
theorem outcomeCommit_triple (hst : result.status.IsTerminal) :
    Triple (workerSetting X moves (ProcessStore F job reviews))
      (onStore (Writing (fun _ log => log.commits = 0) (OutcomeWritten job result))) Py.commit
      (Post (fun _ => onStore (Reading (Done F job result reviews))) (onStore Faulted)) := by
  refine worker_commit (fun _ _ => Writing.owns) (stable_reading Done.grows) ?_
  rintro s log work hinv hstore ⟨hcommits, work', htx', hout⟩ htx
  rw [htx'] at htx
  obtain rfl : work' = work := by simpa using htx
  obtain ⟨⟨updatedAt, hjobs⟩, hlocks, hrec⟩ := hout
  obtain ⟨hheld, hreviews⟩ := hstore.1 hcommits
  have hnt : ¬ job.status.IsTerminal := by simp [hheld.running]
  have hsettled : Settled F job result reviews work' := by
    rw [← hreviews]
    exact hheld.settle hst hjobs hrec
  refine ⟨hinv.finish hheld.row hnt hst hjobs hlocks, ⟨by simp, fun _ => ⟨result, hst, hsettled⟩⟩,
    advances_updateJobStatus hheld.row ?_ hjobs, by simp [NoTx, Sqlite.Owns], by simp, hsettled⟩
  rw [hheld.running]
  exact hst

/-- The transaction of `_persist`: the status, the review and the lock are written into one copy,
and are committed together or not at all. -/
theorem persistOutcome_triple (hst : result.status.IsTerminal) :
    Triple (workerSetting X moves (ProcessStore F job reviews))
      (onStore (Reading fun _ log => log.commits = 0)) (Worker.persistOutcome job result)
      (Post (fun _ => onStore (Reading (Done F job result reviews))) (onStore Failed)) := by
  have hend : ∀ _ : Unit, (workerSetting X moves (ProcessStore F job reviews)).Stable
      (onStore fun s log => Done F job result reviews s.committed log) :=
    fun _ => stable_committed Done.grows
  refine worker_session ?_
  refine (updateJobStatus_triple fun _ _ _ h _ => h).seq hend fun _ _ => ?_
  refine recordReview_triple.seq hend fun _ _ => ?_
  -- the lock, in the same copy
  have hrelease : Triple (workerSetting X moves (ProcessStore F job reviews))
      (onStore (Writing (fun _ log => log.commits = 0) (RowsWritten job result)))
      (releaseLock job.repo job.prNumber)
      (Post (fun _ => onStore (Writing (fun _ log => log.commits = 0)
        (OutcomeWritten job result))) (onStore Faulted)) := by
    refine worker_write_more ?_
    rintro db work₀ row work ⟨hjobs, hlocks, hrec⟩ happly
    have hwork : work = ((Dml.deletePrLock job.repo job.prNumber).apply work₀).2 :=
      (congrArg Prod.snd happly).symm
    subst hwork
    refine ⟨hjobs, ?_, hrec⟩
    simp only [Dml.apply, hlocks]
  refine hrelease.seq hend fun _ _ => ?_
  refine (outcomeCommit_triple hst).conseq (fun _ _ h => h) ?_
    (Setting.Stable.post hend (stable_log _))
  rintro (x | u) c _ h
  · exact h
  · exact h.2

/-- What an exception that leaves `_process` says: a statement failed, or the cooldown reaches
back before the first date from a time that the clock shows. -/
def Broke (X : External) (cooldownSeconds : Nat) (s : Sqlite) (log : WorkerLog) : Prop :=
  NoTx s log ∧ (log.faulted = true ∨ ¬ X.Covers cooldownSeconds)

theorem Failed.broke {cooldownSeconds : Nat} {s : Sqlite} {log : WorkerLog} (h : Failed s log) :
    Broke X cooldownSeconds s log :=
  ⟨h.1, Or.inl h.2⟩

theorem stable_broke {store : Nat → Db → Prop} (cooldownSeconds : Nat) :
    (workerSetting X moves store).Stable (onStore (Broke X cooldownSeconds)) :=
  stable_noTx.and (stable_log fun log => log.faulted = true ∨ ¬ X.Covers cooldownSeconds)

/-- An exception that comes from a statement is one of those that `_process` may end with. -/
theorem orUncovered {α : Type} {store : Nat → Db → Prop} {cooldownSeconds : Nat}
    {A : World X × WorkerLog → Prop} {p : Py α} {B : α → World X × WorkerLog → Prop}
    (h : Triple (workerSetting X moves store) A p (Post B (onStore Faulted))) :
    Triple (workerSetting X moves store) A p
      (Post B (onStore fun _ log => log.faulted = true ∨ ¬ X.Covers cooldownSeconds)) := by
  refine h.conseq (fun _ _ hs => hs) ?_ fun r =>
    Setting.Stable.post (fun v => h.stable (.ok v)) (stable_log _) r
  rintro (x | v) c _ hs
  · exact Or.inl hs
  · exact hs

/-- What leaves a session of the worker may leave `_process`. -/
theorem failedOrUncovered {α : Type} {store : Nat → Db → Prop} {cooldownSeconds : Nat}
    {A : World X × WorkerLog → Prop} {p : Py α} {B : α → World X × WorkerLog → Prop}
    (h : Triple (workerSetting X moves store) A p (Post B (onStore Failed))) :
    Triple (workerSetting X moves store) A p (Post B (onStore (Broke X cooldownSeconds))) := by
  refine h.conseq (fun _ _ hs => hs) ?_ fun r =>
    Setting.Stable.post (fun v => h.stable (.ok v)) (stable_broke _) r
  rintro (x | v) c _ hs
  · exact Failed.broke hs
  · exact hs

/-- The cooldown slot is another table: the outcome stays recorded. -/
theorem claimFailureSlot_triple {repo : String} {prNumber cooldownSeconds : Nat} :
    Triple (workerSetting X moves (ProcessStore F job reviews))
      (onStore (Reading (Done F job result reviews)))
      (Py.withSession (claimFailureSlot repo prNumber cooldownSeconds))
      (Post (fun _ => onStore (Reading (Done F job result reviews)))
        (onStore (Broke X cooldownSeconds))) := by
  have hdone : (workerSetting X moves (ProcessStore F job reviews)).Stable
      (onStore (Reading (Done F job result reviews))) := stable_reading Done.grows
  have hend : ∀ _ : Bool, (workerSetting X moves (ProcessStore F job reviews)).Stable
      (onStore fun s log => Done F job result reviews s.committed log) :=
    fun _ => stable_committed Done.grows
  refine worker_close ?_
  refine (worker_clock hdone (stable_log _)).seq hend fun now _ => ?_
  refine Triple.of_pure (Setting.Stable.post hend (stable_log _)) fun hshows => ?_
  split
  swap
  · -- the cutoff is no date: the clock does not cover the cooldown
    rename_i hrange
    exact .raise (Setting.Stable.post hend (stable_log _)) fun c _ _ =>
      Or.inr fun hcovers => hrange (hcovers now hshows)
  refine orUncovered ?_
  refine (worker_query (B := fun _ => Reading (Done F job result reviews)) hdone (fun _ => hdone)
    fun _ _ _ _ hs => hs).seq hend fun existing _ => ?_
  split
  · exact .ret (Setting.Stable.post hend (stable_log _)) fun c _ hs => hs.2
  · refine (worker_write Done.grows).seq hend fun _ _ => ?_
    refine Triple.seq (B := fun _ => onStore (Reading (Done F job result reviews))) ?_ hend
      fun _ _ => .ret (Setting.Stable.post hend (stable_log _)) fun c _ hs => hs.2
    refine worker_commit (fun _ _ => Writing.owns) hdone ?_
    rintro s log work hinv hstore ⟨⟨hcommits, hsettled⟩, work', htx', happly⟩ htx
    rw [htx'] at htx
    obtain rfl : work' = work := by simpa using htx
    -- jobs, locks and reviews are those of the committed store
    have hjobs : work'.jobs = s.committed.jobs := (congrArg (fun r => r.2.jobs) happly).symm
    have hlocks : work'.prLocks = s.committed.prLocks :=
      (congrArg (fun r => r.2.prLocks) happly).symm
    have hreviews : work'.reviewsPosted = s.committed.reviewsPosted :=
      (congrArg (fun r => r.2.reviewsPosted) happly).symm
    have hsettled' := hsettled.congr hjobs hreviews
    refine ⟨hinv.congr hjobs hlocks, ⟨by simp, fun _ => ?_⟩, .of_subset ?_,
      by simp [NoTx, Sqlite.Owns], by simp, hsettled'⟩
    · obtain ⟨settled, hst, hs⟩ := hstore.2 hcommits
      exact ⟨settled, hst, hs.congr hjobs hreviews⟩
    · rw [hjobs]
      exact fun _ hjob => hjob

/-- What is recorded ends the job. -/
theorem recorded_isTerminal {r : Except PyError ReviewResult}
    (hr : ∀ result, r = .ok result → result.status.IsTerminal) :
    (recorded r).status.IsTerminal := by
  rcases r with x | result
  · cases x <;> simp [recorded]
  · exact hr result rfl

/-- What `_process` gets from the review under `wait_for`. -/
theorem waitFor_yields {review : Py ReviewResult}
    (hfin : review.Yields (fun _ _ => True) fun r =>
      ∀ result, r = .ok result → result.status.IsTerminal) :
    (Py.waitFor review).Yields Req.Possible fun r =>
      r ≠ .error .cancelled ∧ ∀ result, r = .ok result → result.status.IsTerminal := by
  have hall : review.Yields Req.Possible fun r =>
      ∀ result, r = .ok result → result.status.IsTerminal :=
    hfin.restrict fun _ _ _ => trivial
  refine Prog.Yields.tryCatch (P := fun _ => True) (hall.mono ?_) ?_
  · rintro (x | result) hr
    · trivial
    · exact ⟨nofun, hr⟩
  · intro x _
    cases x <;> simp [Py.throw, Prog.Yields]

theorem waitFor_calls {α : Type} {body : Py α} (h : body.Calls Req.IsExt) :
    (Py.waitFor body).Calls Req.IsExt := by
  refine h.tryCatch fun x => ?_
  cases x <;> trivial

variable [Text.UnicodeDb] {config : OperatorConfig}

/-- The failure comment keeps what is recorded, and its own failure does not get out. -/
theorem maybePostFailureComment_triple {installationId : Nat} {repo : String} {prNumber : Nat}
    {message : String} {cooldownSeconds : Nat} :
    Triple (workerSetting X moves (ProcessStore F job reviews))
      (onStore (Reading (Done F job result reviews)))
      (maybePostFailureComment installationId repo prNumber message cooldownSeconds)
      (Post (fun _ => onStore (Reading (Done F job result reviews)))
        (onStore (Broke X cooldownSeconds))) := by
  have hdone : (workerSetting X moves (ProcessStore F job reviews)).Stable
      (onStore (Reading (Done F job result reviews))) := stable_reading Done.grows
  have hend : ∀ r : Except PyError Bool, (workerSetting X moves (ProcessStore F job reviews)).Stable
      (Post (fun _ => onStore (Reading (Done F job result reviews)))
        (onStore (Broke X cooldownSeconds)) r) :=
    Setting.Stable.post (fun _ => hdone) (stable_broke _)
  refine claimFailureSlot_triple.seq (fun _ => hdone) fun allowed _ => ?_
  cases allowed with
  -- the slot is taken already
  | false => exact .ret hend fun _ _ hs => hs
  -- the slot is ours: the comment is tried, and a failure of it is caught
  | true =>
    have hpost := worker_ext hdone
      ((GitHubClient.createComment_calls (O := fun _ => True) installationId
        fun _ _ => trivial).mono fun _ => Req.Asks.isExt)
      (GitHubClient.createComment_yields installationId repo prNumber message)
    refine hpost.andThen hend fun r => ?_
    rcases r with x | commentId
    · cases x with
      -- only a cancellation gets out, and there is none
      | cancelled => exact .raise hend fun _ _ hs => absurd rfl hs.1
      | _ => exact .ret hend fun _ _ hs => hs.2
    · exact .ret hend fun _ _ hs => hs.2

theorem persist_triple (hst : result.status.IsTerminal) :
    Triple (workerSetting X moves (ProcessStore F job reviews))
      (onStore (Reading fun _ log => log.commits = 0)) (Worker.persist config job result)
      (Post (fun _ => onStore (Reading (Done F job result reviews)))
        (onStore (Broke X config.pipeline.failureCommentCooldownSeconds))) := by
  have hdone : (workerSetting X moves (ProcessStore F job reviews)).Stable
      (onStore (Reading (Done F job result reviews))) := stable_reading Done.grows
  refine (failedOrUncovered (persistOutcome_triple hst)).seq (fun _ => hdone) fun _ _ => ?_
  split
  · refine maybePostFailureComment_triple.seq (fun _ => hdone) fun _ _ => ?_
    exact .ret (Setting.Stable.post (fun _ => hdone) (stable_broke _)) fun _ _ hs => hs
  · exact .ret (Setting.Stable.post (fun _ => hdone) (stable_broke _)) fun _ _ hs => hs

/-- `_finalize_failure` is `_persist` of a failed result. -/
theorem finalizeFailure_eq (detail : JobStatusDetail) (error failureMessage : String) :
    Worker.finalizeFailure config job detail error failureMessage =
      Worker.persist config job
        { status := .failed
          statusDetail := some detail
          error := some error
          failureMessage := some failureMessage } := by
  simp [Worker.finalizeFailure, Worker.persist, Worker.finalizeOutcome, Worker.persistOutcome,
    Worker.recordReview]

/-- Both ways to finish a job are `_persist` of what is recorded. -/
theorem settle_eq {r : Except PyError ReviewResult} (hr : r ≠ .error .cancelled) :
    Worker.settle config job r = Worker.persist config job (recorded r) := by
  rcases r with x | result
  · cases x with
    | cancelled => exact absurd rfl hr
    | _ => exact finalizeFailure_eq _ _ _
  · rfl

/-- One turn of the worker on a job it holds, whatever the review does. -/
theorem process_triple (reviewer : ReviewRoutine) :
    Triple (workerSetting X moves (ProcessStore F job reviews))
      (onStore (Reading fun _ log => log.commits = 0))
      (Worker.process config reviewer.run job)
      (Post (fun _ => onStore (Reading (Finished F job reviews)))
        (onStore (Broke X config.pipeline.failureCommentCooldownSeconds))) := by
  have hend : ∀ r : Except PyError Unit, (workerSetting X moves (ProcessStore F job reviews)).Stable
      (Post (fun _ => onStore (Reading (Finished F job reviews)))
        (onStore (Broke X config.pipeline.failureCommentCooldownSeconds)) r) :=
    Setting.Stable.post (fun _ => stable_reading Finished.grows) (stable_broke _)
  have hstart : (workerSetting X moves (ProcessStore F job reviews)).Stable
      (onStore (Reading fun _ log => log.commits = 0)) := stable_reading fun _ _ _ h _ => h
  have hreview := worker_ext hstart (waitFor_calls (reviewer.calls job))
    (waitFor_yields (reviewer.finished job))
  refine hreview.andThen hend fun r => Triple.of_pure hend fun hr => ?_
  rw [settle_eq hr.1]
  refine (persist_triple (recorded_isTerminal hr.2)).conseq (fun _ _ h => h) ?_ hend
  rintro (x | u) c _ h
  · exact h
  · exact ⟨h.1, recorded r, recorded_isTerminal hr.2, h.2⟩

end Process

/-! ## Recovery -/

section Recovery

variable {X : External} {moves : X.State → X.State → Prop} {F : Nat → Prop}

/-- While recovery runs: the running jobs are those of `F`, and after the commit there are
none. -/
def RecoverStore (F : Nat → Prop) (commits : Nat) (db : Db) : Prop :=
  (commits = 0 → db.RunningIs F) ∧ (0 < commits → db.RunningIs fun _ => False)

/-- The copy of recovery: failed jobs, and the locks of finished jobs deleted. -/
def RecoveryWritten (db work : Db) : Prop :=
  ∃ updatedAt, work = (Dml.deleteTerminalLocks.apply
    ((Dml.failRunningJobs interruptedErrorText updatedAt).apply db).2).2

/-- After recovery no job is running. -/
theorem runningIs_recovery {db work : Db} (h : RecoveryWritten db work) :
    work.RunningIs fun _ => False := by
  obtain ⟨updatedAt, rfl⟩ := h
  intro id
  refine ⟨?_, False.elim⟩
  rintro ⟨job, hjob, _, hrun⟩
  rcases mem_failRunningJobs.mp hjob with ⟨old, _, _, rfl⟩ | ⟨_, hne⟩
  · cases hrun
  · exact hne hrun

theorem recoveryRoutine_triple :
    Triple (workerSetting X moves (RecoverStore F))
      (onStore (Reading fun _ log => log.commits = 0)) Service.recoveryRoutine
      (Post (fun _ => onStore (Reading fun _ log => 0 < log.commits)) (onStore Failed)) := by
  have hend : ∀ _ : Unit, (workerSetting X moves (RecoverStore F)).Stable
      (onStore fun (_ : Sqlite) log => 0 < log.commits) := fun _ => stable_log _
  have hzero : ∀ (db db' : Db) (log : WorkerLog), log.commits = 0 → db.Grows db' →
      log.commits = 0 := fun _ _ _ h _ => h
  refine worker_session (B := fun _ _ log => 0 < log.commits) ?_
  -- both statements, in one copy
  have hrecover : Triple (workerSetting X moves (RecoverStore F))
      (onStore (Reading fun _ log => log.commits = 0)) recoverOnStartup
      (Post (fun _ => onStore (Writing (fun _ log => log.commits = 0) RecoveryWritten))
        (onStore Faulted)) := by
    refine (worker_utcnow (stable_reading hzero) (stable_log _)).seq (fun _ => stable_writing)
      fun now _ => ?_
    refine (worker_write hzero).seq (fun _ => stable_writing) fun recovered _ => ?_
    refine Triple.seq (B := fun _ => onStore (Writing (fun _ log => log.commits = 0)
      RecoveryWritten)) (worker_write_more ?_) (fun _ => stable_writing) fun _ _ =>
        .ret (Setting.Stable.post (fun _ => stable_writing) (stable_log _)) fun _ _ hs => hs
    rintro db work₀ row work happly₀ happly
    exact ⟨now, by rw [happly₀, happly]⟩
  refine hrecover.seq hend fun _ _ => ?_
  refine worker_commit (fun _ _ => Writing.owns) (hend ()) ?_
  -- what is committed has no running job, and no lock of a finished one
  rintro s log work hinv hstore ⟨hcommits, work', htx', hout⟩ htx
  rw [htx'] at htx
  obtain rfl : work' = work := by simpa using htx
  have hrunning := runningIs_recovery hout
  obtain ⟨updatedAt, rfl⟩ := hout
  exact ⟨hinv.recover rfl, ⟨by simp, fun _ => hrunning⟩, advances_recover, Nat.succ_pos _⟩

end Recovery

end VidiPr
