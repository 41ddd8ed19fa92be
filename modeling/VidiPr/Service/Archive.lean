import VidiPr.Service.Ledger

/-!
# What the store never loses

Jobs, posted reviews and deliveries are written and never deleted. Over every run, whichever tasks
run beside the worker and wherever the process dies, a later store is a continuation of an earlier
one: it has all its rows, a job is still the order it was, and what is new comes after what is old.

* **`Db.Keeps`** — the relation between two stores.
* **`Dml.keeps`** — every statement keeps it, and **`keeps_step`** every step of the service.
* **`store_append_only`** — so does every run.
-/

namespace VidiPr

open Effect Prog Relational Text Service

/-! ## Continuations of a store -/

/-- A later version of a row of `jobs`: only its outcome has changed. -/
def Job.SameOrder (job job' : Job) : Prop :=
  job' = { job with
    status := job'.status
    statusDetail := job'.statusDetail
    error := job'.error
    updatedAt := job'.updatedAt }

namespace Job.SameOrder

variable {job job' job'' : Job}

theorem refl (job : Job) : job.SameOrder job := rfl

theorem trans (h : job.SameOrder job') (h' : job'.SameOrder job'') : job.SameOrder job'' := by
  unfold SameOrder at h h' ⊢
  rw [h', h]

theorem id_eq (h : job.SameOrder job') : job'.id = job.id := by
  rw [h]

theorem createdAt_eq (h : job.SameOrder job') : job'.createdAt = job.createdAt := by
  rw [h]

/-- A job keeps its place in the queue. -/
theorem before_iff {other other' : Job} (h : job.SameOrder job') (hother : other.SameOrder other') :
    job'.Before other' ↔ job.Before other := by
  unfold Job.Before
  rw [h.id_eq, h.createdAt_eq, hother.id_eq, hother.createdAt_eq]

end Job.SameOrder

/-- A store that continues another. -/
structure Db.Keeps (db db' : Db) : Prop where
  jobs : ∀ job ∈ db.jobs, ∃ job' ∈ db'.jobs, job.SameOrder job'
  newJobs : ∀ job' ∈ db'.jobs, (∃ job ∈ db.jobs, job.SameOrder job') ∨
    ∀ job ∈ db.jobs, job.id < job'.id
  reviews : ∀ review ∈ db.reviewsPosted, review ∈ db'.reviewsPosted
  newReviews : ∀ review ∈ db'.reviewsPosted, review ∈ db.reviewsPosted ∨
    ∀ old ∈ db.reviewsPosted, old.id < review.id
  deliveries : ∀ delivery ∈ db.webhookDeliveries, delivery ∈ db'.webhookDeliveries
  cooldowns : ∀ cooldown ∈ db.failureCooldowns,
    ∃ cooldown' ∈ db'.failureCooldowns, cooldown'.key = cooldown.key

namespace Db.Keeps

variable {db db' db'' : Db}

theorem refl (db : Db) : db.Keeps db where
  jobs job hjob := ⟨job, hjob, .refl job⟩
  newJobs job hjob := Or.inl ⟨job, hjob, .refl job⟩
  reviews _ hreview := hreview
  newReviews _ hreview := Or.inl hreview
  deliveries _ hdelivery := hdelivery
  cooldowns cooldown hcooldown := ⟨cooldown, hcooldown, rfl⟩

theorem trans (h : db.Keeps db') (h' : db'.Keeps db'') : db.Keeps db'' where
  jobs job hjob := by
    obtain ⟨job', hjob', hsame⟩ := h.jobs job hjob
    obtain ⟨job'', hjob'', hsame'⟩ := h'.jobs job' hjob'
    exact ⟨job'', hjob'', hsame.trans hsame'⟩
  newJobs job'' hjob'' := by
    rcases h'.newJobs job'' hjob'' with ⟨job', hjob', hsame'⟩ | hafter
    · rcases h.newJobs job' hjob' with ⟨job, hjob, hsame⟩ | hafter
      · exact Or.inl ⟨job, hjob, hsame.trans hsame'⟩
      · exact Or.inr fun job hjob => hsame'.id_eq ▸ hafter job hjob
    · -- what comes after every row of the middle store comes after the rows it has kept
      refine Or.inr fun job hjob => ?_
      obtain ⟨job', hjob', hsame⟩ := h.jobs job hjob
      have hlt := hafter job' hjob'
      rwa [hsame.id_eq] at hlt
  reviews review hreview := h'.reviews review (h.reviews review hreview)
  newReviews review hreview := by
    rcases h'.newReviews review hreview with hold | hafter
    · exact h.newReviews review hold
    · exact Or.inr fun old hold => hafter old (h.reviews old hold)
  deliveries delivery hdelivery := h'.deliveries delivery (h.deliveries delivery hdelivery)
  cooldowns cooldown hcooldown := by
    obtain ⟨cooldown', hcooldown', hkey⟩ := h.cooldowns cooldown hcooldown
    obtain ⟨cooldown'', hcooldown'', hkey'⟩ := h'.cooldowns cooldown' hcooldown'
    exact ⟨cooldown'', hcooldown'', hkey'.trans hkey⟩

/-- An update of jobs that leaves their orders alone. -/
theorem of_jobs {p : Job → Bool} {f : Job → Job} (hf : ∀ job, (f job).id = job.id)
    (hsame : ∀ job : Job, job.SameOrder (f job)) :
    db.Keeps { db with jobs := db.jobs.updateWhere p f hf } where
  jobs job hjob := by
    show ∃ job' ∈ db.jobs.updateWhere p f hf, job.SameOrder job'
    by_cases hp : p job
    · exact ⟨f job, Table.mem_updateWhere.mpr (Or.inl ⟨job, hjob, hp, rfl⟩), hsame job⟩
    · exact ⟨job, Table.mem_updateWhere.mpr (Or.inr ⟨hjob, hp⟩), .refl job⟩
  newJobs job' hjob' := by
    change job' ∈ db.jobs.updateWhere p f hf at hjob'
    rcases Table.mem_updateWhere.mp hjob' with ⟨job, hjob, -, rfl⟩ | ⟨hjob, -⟩
    · exact Or.inl ⟨job, hjob, hsame job⟩
    · exact Or.inl ⟨job', hjob, .refl job'⟩
  reviews _ hreview := hreview
  newReviews _ hreview := Or.inl hreview
  deliveries _ hdelivery := hdelivery
  cooldowns cooldown hcooldown := ⟨cooldown, hcooldown, rfl⟩

theorem of_prLocks (prLocks : Table PrKey PrLock PrLock.key) : db.Keeps { db with prLocks } :=
  { refl db with }

end Db.Keeps

/-- Every statement keeps what there is. -/
theorem Dml.keeps (d : Dml) (db : Db) : db.Keeps (d.apply db).2 := by
  cases d with
  | insertJob job =>
    have hmem : ∀ row, row ∈ ((insertJob job).apply db).2.jobs ↔
        row ∈ db.jobs ∨ row = { job with id := db.jobs.freshId } := by
      intro row
      show row ∈ (db.jobs.insertAuto (fun id => { job with id }) fun _ => rfl).1 ↔ _
      rw [Table.mem_insertAuto]
    refine { Db.Keeps.refl db with jobs := fun old hold => ?_, newJobs := fun new hnew => ?_ }
    · exact ⟨old, (hmem old).mpr (Or.inl hold), .refl old⟩
    · rcases (hmem new).mp hnew with hold | rfl
      · exact Or.inl ⟨new, hold, .refl new⟩
      · exact Or.inr fun old hold => Table.lt_freshId hold
  | updateJobStatus id status statusDetail error updatedAt =>
    exact .of_jobs (fun job => job.withStatus_id status statusDetail error updatedAt) fun _ => rfl
  | failRunningJobs text updatedAt =>
    exact .of_jobs (Job.interrupted_id text updatedAt) fun _ => rfl
  | insertPrLock lock => exact .of_prLocks (db.prLocks.insertOrIgnore lock).1
  | deletePrLock repo prNumber | deleteTerminalLocks => exact .of_prLocks (db.prLocks.deleteWhere _)
  | insertDelivery delivery =>
    refine { Db.Keeps.refl db with deliveries := fun old hold => ?_ }
    show old ∈ (db.webhookDeliveries.insertOrIgnore delivery).1
    rcases db.webhookDeliveries.insertOrIgnore_cases delivery with ⟨-, heq⟩ | ⟨-, _, heq, hmem⟩
    · rw [heq]
      exact hold
    · rw [heq]
      exact (hmem old).mpr (Or.inl hold)
  | insertReviewPosted posted =>
    have hmem : ∀ row, row ∈ ((insertReviewPosted posted).apply db).2.reviewsPosted ↔
        row ∈ db.reviewsPosted ∨ row = { posted with id := db.reviewsPosted.freshId } := by
      intro row
      show row ∈ (db.reviewsPosted.insertAuto (fun id => { posted with id }) fun _ => rfl).1 ↔ _
      rw [Table.mem_insertAuto]
    refine { Db.Keeps.refl db with reviews := fun old hold => ?_, newReviews := fun new hnew => ?_ }
    · exact (hmem old).mpr (Or.inl hold)
    · rcases (hmem new).mp hnew with hold | rfl
      · exact Or.inl hold
      · exact Or.inr fun old hold => Table.lt_freshId hold
  | upsertFailureCooldown cooldown =>
    refine { Db.Keeps.refl db with cooldowns := fun old hold => ?_ }
    rcases db.failureCooldowns.upsert_cases cooldown (FailureCooldown.bump cooldown.lastPostedAt)
      (FailureCooldown.bump_key cooldown.lastPostedAt) with ⟨row, -, hkey, hmem⟩ | ⟨-, hmem⟩
    · by_cases hsame : old.key = cooldown.key
      · exact ⟨_, (hmem _).mpr (Or.inl rfl), (FailureCooldown.bump_key _ row).trans
          (hkey.trans hsame.symm)⟩
      · exact ⟨old, (hmem old).mpr (Or.inr ⟨hold, hsame⟩), rfl⟩
    · exact ⟨old, (hmem old).mpr (Or.inl hold), rfl⟩

/-! ## Runs -/

section Runs

variable [UnicodeDb] {D : Deployment} {s s' : Service D} {ev : Event D}

/-- What is written and not yet committed continues what is. -/
def OpenKeeps (s : Sqlite) : Prop := ∀ a, TxKeeps Db.Keeps a s

omit [UnicodeDb] in
theorem OpenKeeps.request {X : External} {a : Actor} {e : Req} {w w' : World X}
    {r : Except PyError e.Resp} (h : OpenKeeps w.db) (hsem : sem X a e w r w') :
    w.db.committed.Keeps w'.db.committed ∧ OpenKeeps w'.db := by
  have hwrites : e.Writes fun _ => True := by
    unfold Req.Writes
    split <;> trivial
  obtain ⟨hkeeps, htx⟩ := tx_step Db.Keeps.refl Db.Keeps.trans (fun d _ db => d.keeps db) hwrites
    hsem (h a)
  refine ⟨hkeeps, fun b => ?_⟩
  by_cases heq : a = b
  · exact heq ▸ htx
  · exact (h b).env heq (actorStep_of_sem hsem)

/-- The step lemma. Only a commit changes what is committed, and it puts a copy in its place that
continues it; a crash, a rollback and a failed statement leave it as it is. -/
theorem keeps_step (h : OpenKeeps s.world.db) (hs : Step s ev s') :
    s.world.db.committed.Keeps s'.world.db.committed ∧ OpenKeeps s'.world.db := by
  cases hs with
  | call _ hsem | recoverStep _ hsem | claimStep _ hsem | processStep _ hsem => exact h.request hsem
  | crash => exact ⟨.refl _, fun a work htx => by cases htx⟩
  | external | spawn | start | recover | recovered | requestStop | leave | claim | claimedNone
    | wake
  | claimedSome | claimRaised | processed | processRaised => exact ⟨.refl _, h⟩

theorem openKeeps_reachable {P : Service D → Event D → Prop} (h : ReachableIf P s) :
    OpenKeeps s.world.db := by
  induction h with
  | initial ext => exact fun a work htx => by cases htx
  | step _ hs _ ih => exact (keeps_step ih hs).2

/-- The run lemma, by induction on the steps of the continuation: `Keeps` is a preorder, and the
copies in the making continue what is committed after every step. -/
theorem keeps_later (h : OpenKeeps s.world.db) (hlater : Later s s') :
    s.world.db.committed.Keeps s'.world.db.committed ∧ OpenKeeps s'.world.db := by
  induction hlater with
  | refl => exact ⟨.refl _, h⟩
  | tail _ hstep ih =>
    obtain ⟨_, hs⟩ := hstep
    obtain ⟨hkeeps, hopen⟩ := ih
    obtain ⟨hnext, hopen'⟩ := keeps_step hopen hs
    exact ⟨hkeeps.trans hnext, hopen'⟩

end Runs

/-- **Nothing is lost.** However a run goes on, crashes and restarts included, every job of the
store stays what was ordered, in its place of the queue; every review and every delivery that was
recorded stays as it is; and rows that are added come after those that were there. -/
theorem store_append_only [UnicodeDb] {D : Deployment} {s s' : Service D} (h : Reachable s)
    (hlater : Later s s') : s.world.db.committed.Keeps s'.world.db.committed :=
  (keeps_later (openKeeps_reachable h) hlater).1

section Example

attribute [local instance] asciiDb

/-- A job is enqueued, then the process dies: the job is still there. -/
theorem store_append_only_crash :
    ∃ s s' : Service (.serve outage enqueueWorkload exampleConfig nothingToReview),
      Later s s' ∧ s.worker.Live ∧ ¬ s'.worker.Live ∧
      ∃ job ∈ s'.world.db.committed.jobs, job.id = 1 := by
  obtain ⟨s, hs, htest⟩ := exists_of_schedule outageResponder (fun _ _ => true)
    (P := fun _ _ => True) (fun _ _ _ => trivial) (0 : Nat)
    ([.start, .spawn 1 exampleTrigger] ++ List.replicate 6 (.call 1 false))
    (fun (s : Service (.serve outage enqueueWorkload exampleConfig nothingToReview)) =>
      decide (s.worker.Live ∧ ∃ job ∈ s.world.db.committed.jobs, job.id = 1)) (by decide +kernel)
  obtain ⟨hlive, job, hjob, hid⟩ := of_decide_eq_true htest
  have hcrash : Later s _ := .single ⟨_, .crash⟩
  obtain ⟨job', hjob', hsame⟩ := (store_append_only hs hcrash).jobs job hjob
  exact ⟨s, _, hcrash, hlive, id, job', hjob', hsame.id_eq.trans hid⟩

end Example

end VidiPr
