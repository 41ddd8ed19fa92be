import VidiPr.Service.LifeCycle

/-!
# Pull requests do not interfere

What is done on behalf of one pull request leaves the rows of every other one alone, whoever else
is running.

* **`Db.SameAt`**, **`Db.Frames`** — the rows of a pull request are the same; those of every other
  one are.
* **`Db.Touches.frames`** — where the job belongs to its pull request, the frame of its statements
  is that of the pull request. This is what needs the invariant: `update_job_status` goes by the
  job's id alone.
* **`CallsKeep`** — what a call of `try_enqueue_review` in flight can still write, and what its
  transaction has written.
* **`frames_step`** — every step keeps the rows of the pull requests it is not made for.
-/

namespace VidiPr

open Effect Prog Relational Text Service

/-! ## Frames -/

/-- The rows of `key` are the same. -/
structure Db.SameAt (key : PrKey) (db db' : Db) : Prop where
  jobs : ∀ job : Job, job.key = key → (job ∈ db'.jobs ↔ job ∈ db.jobs)
  locks : ∀ lock : PrLock, lock.key = key → (lock ∈ db'.prLocks ↔ lock ∈ db.prLocks)
  reviews : ∀ posted : ReviewPosted, posted.key = key →
    (posted ∈ db'.reviewsPosted ↔ posted ∈ db.reviewsPosted)
  cooldowns : ∀ cooldown : FailureCooldown, cooldown.key = key →
    (cooldown ∈ db'.failureCooldowns ↔ cooldown ∈ db.failureCooldowns)

/-- The rows of every pull request but `key` are the same. -/
def Db.Frames (key : PrKey) (db db' : Db) : Prop := ∀ other, other ≠ key → db.SameAt other db'

namespace Db.SameAt

variable {key : PrKey} {db₁ db₂ db₃ : Db}

theorem refl (key : PrKey) (db : Db) : db.SameAt key db :=
  ⟨fun _ _ => Iff.rfl, fun _ _ => Iff.rfl, fun _ _ => Iff.rfl, fun _ _ => Iff.rfl⟩

theorem symm (h : db₁.SameAt key db₂) : db₂.SameAt key db₁ :=
  ⟨fun job hk => (h.jobs job hk).symm, fun lock hk => (h.locks lock hk).symm,
    fun posted hk => (h.reviews posted hk).symm, fun cooldown hk => (h.cooldowns cooldown hk).symm⟩

theorem trans (h : db₁.SameAt key db₂) (h' : db₂.SameAt key db₃) : db₁.SameAt key db₃ :=
  ⟨fun job hk => (h'.jobs job hk).trans (h.jobs job hk),
    fun lock hk => (h'.locks lock hk).trans (h.locks lock hk),
    fun posted hk => (h'.reviews posted hk).trans (h.reviews posted hk),
    fun cooldown hk => (h'.cooldowns cooldown hk).trans (h.cooldowns cooldown hk)⟩

end Db.SameAt

theorem Db.Frames.refl (key : PrKey) (db : Db) : db.Frames key db := fun _ _ => .refl _ _

theorem Db.Frames.trans {key : PrKey} {db₁ db₂ db₃ : Db} (h : db₁.Frames key db₂)
    (h' : db₂.Frames key db₃) : db₁.Frames key db₃ :=
  fun other hne => (h other hne).trans (h' other hne)

/-- The statements about a job of the store only concern its pull request. -/
theorem Db.Touches.frames {job : Job} {db db' : Db} (h : db.Touches job db')
    (hrow : ∃ row ∈ db.jobs, row.id = job.id ∧ row.key = job.key) : db.Frames job.key db' := by
  obtain ⟨row, hrow, hid, hkey⟩ := hrow
  intro other hne
  refine ⟨fun r hr => ?_, fun lock hk => h.locks lock (hk ▸ hne),
    fun posted hk => h.reviews posted (hk ▸ hne),
    fun cooldown hk => h.cooldowns cooldown (hk ▸ hne)⟩
  by_cases heq : r.id = job.id
  · -- a row of this id belongs to the pull request of the job, before and after
    have hown : ∀ old ∈ db.jobs, old.id = job.id → old.key = job.key := by
      intro old hold holdId
      rw [Table.eq_of_key_eq hold hrow (holdId.trans hid.symm), hkey]
    constructor
    · intro hr'
      obtain ⟨old, hold, holdId, holdKey⟩ := h.old r hr'
      exact absurd (hr.symm.trans (holdKey.symm.trans (hown old hold (holdId.trans heq)))) hne
    · intro hr'
      exact absurd (hr.symm.trans (hown r hr' heq)) hne
  · exact h.jobs r heq

/-- What `try_enqueue_review` writes. -/
inductive Dml.Enqueues (args : EnqueueArgs) : Dml → Prop where
  | job (job : Job) (h : job.key = args.key) : Enqueues args (.insertJob job)
  | lock (lock : PrLock) (h : lock.key = args.key) : Enqueues args (.insertPrLock lock)

theorem Dml.Enqueues.frames {args : EnqueueArgs} {d : Dml} (h : d.Enqueues args) (db : Db) :
    db.Frames args.key (d.apply db).2 := by
  intro other hne
  cases h with
  | job job hkey =>
    refine ⟨fun row hrow => ?_, fun _ _ => Iff.rfl, fun _ _ => Iff.rfl, fun _ _ => Iff.rfl⟩
    show row ∈ (db.jobs.insertAuto (fun id => { job with id }) fun _ => rfl).1 ↔ _
    rw [Table.mem_insertAuto, or_iff_left]
    rintro rfl
    exact hne (hrow.symm.trans hkey)
  | lock lock hkey =>
    refine ⟨fun _ _ => Iff.rfl, fun row hrow => ?_, fun _ _ => Iff.rfl, fun _ _ => Iff.rfl⟩
    show row ∈ (db.prLocks.insertOrIgnore lock).1 ↔ _
    rcases db.prLocks.insertOrIgnore_cases lock with ⟨_, heq⟩ | ⟨_, t, heq, hmem⟩
    · rw [heq]
    · rw [heq, hmem row, or_iff_left]
      rintro rfl
      exact hne (hrow.symm.trans hkey)

theorem tryEnqueueReview_writes (args : EnqueueArgs) :
    (Py.withSession (tryEnqueueReview args)).Calls (Req.Writes (Dml.Enqueues args)) := by
  refine withSession_writes ((calls_perform trivial).bind fun existing => ?_)
  cases existing with
  | some lock => trivial
  | none =>
    refine Calls.bind ((calls_perform trivial).bind fun now =>
      calls_perform (show Req.Writes _ (.sql (.dml _)) from .job _ rfl)) fun job => ?_
    refine Calls.bind ((calls_perform trivial).bind fun now =>
      calls_perform (show Req.Writes _ (.sql (.dml _)) from .lock _ rfl)) fun acquired => ?_
    split
    · exact (calls_perform trivial).bind fun _ => trivial
    · exact (calls_perform trivial).bind fun _ => trivial

/-! ## The calls in flight -/

section Calls

variable {X : External} {config : OperatorConfig} {reviewer : ReviewRoutine}
  {s s' : Service (.queue X config reviewer)}

/-- What a call in flight can still write, and what its transaction has written. -/
def CallsKeep (s : Service (.queue X config reviewer)) : Prop :=
  ∀ n call, s.calls n = some call →
    call.prog.Calls (Req.Writes (Dml.Enqueues call.task)) ∧
      TxKeeps (Db.Frames (EnqueueArgs.key call.task)) (.call n) s.world.db

/-- Somebody else moves the store: what call `n` has left to do and its own copy stay as they
are. -/
theorem CallsKeep.env (h : CallsKeep s) {a : Actor} {db : Sqlite}
    (hstep : ActorStep a s.world.db db) {n : Nat} {call : Call enqueueWorkload}
    (hcall : s.calls n = some call) (hne : a ≠ .call n) :
    call.prog.Calls (Req.Writes (Dml.Enqueues call.task)) ∧
      TxKeeps (Db.Frames (EnqueueArgs.key call.task)) (.call n) db :=
  ⟨(h n call hcall).1, (h n call hcall).2.env hne hstep⟩

/-- A request of call `n`: where it commits, the rows of other pull requests are not changed, as its
copy had changed only those of its own. -/
theorem CallsKeep.wrote (h : CallsKeep s) {n : Nat} {task : EnqueueArgs} {since : Nat} {e : Req}
    {k : Except PyError e.Resp → Py (Option Job)} {r : Except PyError e.Resp} {world : World X}
    (hcall : s.calls n = some ⟨task, since, .call e k⟩)
    (hsem : sem X (.call n) e s.world r world) :
    s.world.db.committed.Frames task.key world.db.committed ∧
      (k r).Calls (Req.Writes (Dml.Enqueues task)) ∧
      TxKeeps (Db.Frames task.key) (.call n) world.db := by
  obtain ⟨hcalls, htx⟩ := h n _ hcall
  obtain ⟨hframes, htx'⟩ := tx_step (Db.Frames.refl _) Db.Frames.trans
    (fun _ hd => hd.frames) hcalls.1 hsem htx
  exact ⟨hframes, hcalls.2 r, htx'⟩

variable [UnicodeDb]

theorem callsKeep_step {F : Nat → Prop} {ev : Event (.queue X config reviewer)} (hinv : Inv F s)
    (h : CallsKeep s) (hs : Step s ev s') : CallsKeep s' := by
  cases hs with
  | external hmove => exact h
  -- a new task has no transaction yet
  | spawn n task hn =>
    intro m call hm
    by_cases heq : m = n
    · subst heq
      simp only [Function.update_self, Option.some.injEq] at hm
      subst hm
      exact ⟨tryEnqueueReview_writes task, txKeeps_of_not_owns (hinv.free m hn)⟩
    · simp only [Function.update_of_ne heq] at hm
      exact h m call hm
  -- the task itself, or another one that is not concerned
  | @call n task since e k r world hcall hsem =>
    intro m call hm
    by_cases heq : m = n
    · subst heq
      simp only [Function.update_self, Option.some.injEq] at hm
      subst hm
      exact (h.wrote hcall hsem).2
    · simp only [Function.update_of_ne heq] at hm
      exact h.env (actorStep_of_sem hsem) hm (by simpa using Ne.symm heq)
  | recoverStep _ hsem =>
    exact fun m call hm => h.env (actorStep_of_sem hsem) hm (by simp)
  | claimStep _ hsem =>
    exact fun m call hm => h.env (actorStep_of_sem hsem) hm (by simp)
  | processStep _ hsem =>
    exact fun m call hm => h.env (actorStep_of_sem hsem) hm (by simp)
  | crash => exact fun m call hm => by cases hm
  | _ => exact h

theorem callsKeep_reachable {P : Service (.queue X config reviewer) → Event _ → Prop}
    (h : ReachableIf P s) : CallsKeep s := by
  induction h with
  | initial ext => exact fun m call hm => by cases hm
  | step hprev hs _ ih =>
    obtain ⟨F, hinv⟩ := inv_reachable hprev
    exact callsKeep_step hinv ih hs

/-! ## Every step -/

/-- The step is made on behalf of `key`: a call of `try_enqueue_review` for it, `_process` of a job
of it, or `_claim_one` once it has found a job of it. Before that `_claim_one` writes nothing, on
behalf of anybody. -/
def OnBehalf (s : Service (.queue X config reviewer)) (seen : Seen) (key : PrKey) :
    Event (.queue X config reviewer) → Prop
  | .call n _ _ => ∃ call, s.calls n = some call ∧ key = EnqueueArgs.key call.task
  | .worker _ _ =>
    match s.worker with
    | .processing job _ => key = job.key
    | .claiming _ => ∀ job, seen.found = some job → key = job.key
    | _ => False
  | _ => False

theorem Observed.reachable {D : Deployment} {s : Service D} {seen : Seen} (h : Observed s seen) :
    Reachable s := by
  induction h with
  | initial ext => exact .initial ext
  | step _ hs ih => exact ih.step hs trivial

/-- A step made on behalf of one pull request leaves the rows of the others alone. -/
theorem frames_step {seen : Seen} {ev : Event (.queue X config reviewer)} (h : Observed s seen)
    (hs : Step s ev s') {key : PrKey} (hkey : OnBehalf s seen key ev) :
    s.world.db.committed.Frames key s'.world.db.committed := by
  obtain ⟨F, hlife⟩ := life_observed h
  cases ev with
  | call n e r =>
    obtain ⟨call, hcall, rfl⟩ := hkey
    cases hs with
    | call hcall' hsem =>
      rw [hcall] at hcall'
      cases hcall'
      exact ((callsKeep_reachable h.reachable).wrote hcall hsem).1
  | worker e r =>
    have hwrote := (worker_wrote hlife hs).1
    have hw := hlife.inv.worker
    simp only [OnBehalf] at hkey
    cases hphase : s.worker with
    | processing job p =>
      rw [hphase] at hwrote hw hkey
      obtain ⟨row, hrow, hid, hk, _⟩ := ProcessingOk.row hw
      exact hkey ▸ Db.Touches.frames hwrote ⟨row, hrow, hid, hk⟩
    | claiming p =>
      rw [hphase] at hwrote hkey
      cases hfound : seen.found with
      -- nothing was found, so nothing was written
      | none =>
        rw [Wrote, hfound] at hwrote
        rw [show _ = s.world.db.committed from hwrote]
        exact .refl _ _
      -- the found job is of that pull request
      | some job =>
        rw [Wrote, hfound] at hwrote
        exact hkey job hfound ▸ Db.Touches.frames hwrote (hlife.known job hfound)
    -- no other phase makes a request on anybody's behalf
    | _ =>
      rw [hphase] at hkey
      exact hkey.elim
  | _ => exact hkey.elim

end Calls

end VidiPr
