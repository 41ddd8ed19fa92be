import VidiPr.Pipeline.Cost
import VidiPr.Pipeline.Failures
import VidiPr.Service.Journal
import VidiPr.Service.WorkerSpec

/-!
# What a turn leaves

What one call of `_process` has done to the store, read off its journal, wherever it was cut short:
nothing, or the whole outcome of its review, and after that perhaps the slot of a failure comment.

* **`Enters`** — the statements of one outcome: the row of the job, the row of the posted review if
  there is one.
* **`kept_persistOutcome`** — the transaction of `_persist` keeps all of them or none.
* **`turn_outcome`** — what a turn has kept and created, and that a turn that has returned has kept
  an outcome.
* **`reviewsAccepted`** — the reviews GitHub accepted in a trace; those of a finished review are
  what it returns (`accepted_run`), and one that is cut short has one at most.
-/

namespace VidiPr

open Effect Prog Text

/-! ## Answers of the store -/

/-- What the store may answer: closing a session works, and an inserted review comes back with its
key. -/
def Req.Honest : (e : Req) → Except PyError e.Resp → Prop
  | .sql .rollback, r => r = .ok ()
  | .sql (.dml (.insertReviewPosted posted)), r =>
    r ≠ .error .cancelled ∧ ∀ row : ReviewPosted, r = .ok row → row = { posted with id := row.id }
  | e, r => e.Possible r

theorem honest_of_sem {X : External} {a : Actor} {e : Req} {w w' : World X}
    {r : Except PyError e.Resp} (h : sem X a e w r w') : e.Honest r := by
  have hpossible : e.Possible r := possible_of_sem h
  unfold Req.Honest
  split
  · exact h.1.1
  · refine ⟨hpossible, ?_⟩
    rintro row rfl
    rcases h.1 with ⟨_, hr, _⟩ | ⟨⟨message, hr⟩, _⟩
    · cases hr
      rfl
    · cases hr
  · exact hpossible

theorem Req.Honest.possible {e : Req} {r : Except PyError e.Resp} (h : e.Honest r) :
    e.Possible r := by
  unfold Req.Honest at h
  split at h
  · subst h
    exact nofun
  · exact h.1
  · exact h

variable {σ : Type} {sem : Sem Req Req.Resp PyError σ} {s s' : σ} {tr : ReqTrace} {job : Job}
  {result : ReviewResult} {j : Journal}

/-! ## Kept statements -/

/-- Without a commit nothing is kept. -/
theorem kept_of_not_committed (h : ¬ Committed tr) : (j.recordAll tr).kept = j.kept := by
  induction tr generalizing j with
  | nil => rfl
  | cons c tr ih =>
    obtain ⟨e, r⟩ := c
    rw [Journal.recordAll_cons, ih fun hc => h (List.mem_cons_of_mem _ hc)]
    unfold Journal.record
    split
    · rfl
    · exact absurd List.mem_cons_self h
    · rfl
    · rfl

/-- The statements of one outcome. -/
structure Enters (job : Job) (result : ReviewResult) (entries : List Entry) : Prop where
  outcome : outcomeOf job.id entries = some (result.status, result.statusDetail, result.error)
  reviews : (reviewsOf entries).map (·.reviewId) = result.reviewId.toList
  rows : ∀ row ∈ reviewsOf entries,
    row.repo = job.repo ∧ row.prNumber = job.prNumber ∧ row.headSha = job.headSha

/-- The slot of a failure comment, or nothing. -/
def SlotEntry (job : Job) (entries : List Entry) : Prop :=
  entries = [] ∨ ∃ now row, entries = [⟨.upsertFailureCooldown
    { repo := job.repo, prNumber := job.prNumber, lastPostedAt := now }, row⟩]

/-- The slot is in another table. -/
theorem Enters.append_slot {entries more : List Entry} (h : Enters job result entries)
    (hmore : SlotEntry job more) : Enters job result (entries ++ more) := by
  rcases hmore with rfl | ⟨now, row, rfl⟩
  · rwa [List.append_nil]
  · refine ⟨?_, ?_, ?_⟩
    · rw [outcomeOf_append, h.outcome]
      rfl
    · rw [reviewsOf_append]
      exact (congrArg _ (List.append_nil _)).trans h.reviews
    · rw [reviewsOf_append]
      intro row' hrow
      exact h.rows row' ((List.append_nil (reviewsOf entries)) ▸ hrow)

section Turn

variable (hsem : ∀ e s r s', sem e s r s' → e.Honest r)
include hsem

omit hsem in
/-- A finished `update_job_status` has one statement. -/
theorem updateJobStatus_entries {status : JobStatus} {detail : Option JobStatusDetail}
    {error : Option String}
    (h : Ends sem (updateJobStatus job.id status detail error) s tr (.ok ()) s') :
    ∃ now, j.recordAll tr = { j with
      pending := j.pending ++ [⟨.updateJobStatus job.id status detail error now, ()⟩] } := by
  obtain ⟨now, tr₁, tr₂, s₁, rfl, hclock, hwrite⟩ := ends_bind_ok h
  obtain ⟨rfl, _⟩ := ends_perform hclock
  obtain ⟨rfl, _⟩ := ends_perform hwrite
  exact ⟨_, rfl⟩

/-- A finished `record_review_posted` has one statement, answered with the row. -/
theorem recordReview_entries (h : Ends sem (Worker.recordReview job result) s tr (.ok ()) s') :
    ∃ entries, j.recordAll tr = { j with pending := j.pending ++ entries } ∧
      outcomeOf job.id entries = none ∧
      (reviewsOf entries).map (·.reviewId) = result.reviewId.toList ∧
      ∀ row ∈ reviewsOf entries,
        row.repo = job.repo ∧ row.prNumber = job.prNumber ∧ row.headSha = job.headSha := by
  unfold Worker.recordReview at h
  cases hid : result.reviewId with
  -- no review was created, so there is no row
  | none =>
    rw [hid] at h
    obtain ⟨rfl, _⟩ := ends_ret h
    exact ⟨[], by rw [List.append_nil]; rfl, rfl, rfl, fun row hrow => absurd hrow List.not_mem_nil⟩
  | some reviewId =>
    rw [hid] at h
    obtain ⟨row, tr₁, tr₂, s₁, rfl, hrecord, hret⟩ := ends_bind_ok h
    obtain ⟨rfl, _⟩ := ends_ret hret
    obtain ⟨now, tr₃, tr₄, s₂, rfl, hclock, hwrite⟩ := ends_bind_ok hrecord
    obtain ⟨rfl, _⟩ := ends_perform hclock
    obtain ⟨rfl, hinsert⟩ := ends_perform hwrite
    have hrow := (hsem _ _ _ _ hinsert).2 row rfl
    refine ⟨[⟨.insertReviewPosted _, row⟩], rfl, rfl, ?_, fun row' hmem => ?_⟩
    · show [row.reviewId] = [reviewId]
      rw [hrow]
    · obtain rfl : row' = row := List.mem_singleton.mp hmem
      rw [hrow]
      exact ⟨rfl, rfl, rfl⟩

/-- The statements of `_persist` before its commit. -/
theorem outcomeRows_entries (h : Ends sem (outcomeRows job result) s tr (.ok ()) s') :
    ∃ entries, j.recordAll tr = { j with pending := j.pending ++ entries } ∧
      Enters job result entries := by
  obtain ⟨_, tr₁, tr₂, s₁, rfl, hstatus, hrest⟩ := ends_bind_ok h
  obtain ⟨_, tr₃, tr₄, s₂, rfl, hrecord, hlock⟩ := ends_bind_ok hrest
  obtain ⟨now, hnow⟩ := updateJobStatus_entries (j := j) hstatus
  obtain ⟨entries, hentries, hnone, hreviews, hrows⟩ :=
    recordReview_entries (j := j.recordAll tr₁) hsem hrecord
  obtain ⟨rfl, _⟩ := ends_perform hlock
  have hfirst : reviewsOf [⟨.updateJobStatus job.id result.status result.statusDetail result.error
    now, ()⟩] = [] := rfl
  have hlast : reviewsOf [⟨.deletePrLock job.repo job.prNumber, ()⟩] = [] := rfl
  refine ⟨[⟨.updateJobStatus job.id result.status result.statusDetail result.error now, ()⟩] ++
    (entries ++ [⟨.deletePrLock job.repo job.prNumber, ()⟩]), ?_, ?_, ?_, ?_⟩
  · rw [Journal.recordAll_append, Journal.recordAll_append, hentries, hnow]
    show Journal.mk _ (_ ++ [_] ++ entries ++ [_]) = _
    simp only [List.append_assoc]
  · rw [outcomeOf_append, outcomeOf_append, hnone]
    simp [outcomeOf, Entry.outcome]
  · rw [reviewsOf_append, reviewsOf_append, hfirst, hlast, List.nil_append, List.append_nil,
      hreviews]
  · rw [reviewsOf_append, reviewsOf_append, hfirst, hlast, List.nil_append, List.append_nil]
    exact hrows

/-- The transaction of `_persist` keeps its statements if it returns, and nothing if it does not.
The session is closed either way, and closing it takes back what is not committed. -/
theorem kept_persistOutcome {r : Except PyError Unit}
    (h : Ends sem (Worker.persistOutcome job result) s tr r s') (hj : j.pending = []) :
    (j.recordAll tr).pending = [] ∧
    ((∃ x, r = .error x) ∧ (j.recordAll tr).kept = j.kept ∨
      r = .ok () ∧ ∃ entries, Enters job result entries ∧
        (j.recordAll tr).kept = j.kept ++ entries) := by
  rw [persistOutcome_eq] at h
  obtain ⟨r₁, tr₁, tr₂, s₁, rfl, hbody, hclose⟩ := ends_andThen h
  obtain ⟨r₂, tr₃, tr₄, s₂, rfl, hrollback, hend⟩ := ends_andThen hclose
  obtain ⟨rfl, hclosed⟩ := ends_perform hrollback
  obtain rfl : r₂ = .ok () := hsem _ _ _ _ hclosed
  obtain ⟨rfl, hr, _⟩ := run_ofExcept hend
  obtain rfl : r₁ = r := (ofExcept_inj hr).symm
  rw [List.append_nil, Journal.recordAll_append]
  refine ⟨rfl, ?_⟩
  show (∃ x, r₁ = .error x) ∧ (j.recordAll tr₁).kept = j.kept ∨ r₁ = .ok () ∧
    ∃ entries, Enters job result entries ∧ (j.recordAll tr₁).kept = j.kept ++ entries
  obtain ⟨r₃, tr₅, tr₆, s₃, rfl, hrows, hcommit⟩ := ends_andThen hbody
  -- the rows alone commit nothing
  have hnone : (j.recordAll tr₅).kept = j.kept :=
    kept_of_not_committed fun hcommit => (outcomeRows_calls.run hrows).1 _ hcommit
  cases r₃ with
  -- a row failed, and the session is closed on what it had written
  | error x =>
    obtain ⟨rfl, rfl, _⟩ := ends_raise hcommit
    refine Or.inl ⟨⟨x, rfl⟩, ?_⟩
    rw [List.append_nil]
    exact hnone
  | ok u =>
    obtain ⟨entries, hentries, henters⟩ := outcomeRows_entries (j := j) hsem hrows
    obtain ⟨rfl, _⟩ := ends_perform hcommit
    rw [Journal.recordAll_append, hentries, hj]
    cases r₁ with
    -- the commit failed
    | error x => exact Or.inl ⟨⟨x, rfl⟩, rfl⟩
    | ok u => exact Or.inr ⟨rfl, entries, henters, rfl⟩

/-- The requests of a call of `claim_failure_slot` that has taken the slot. -/
structure SlotClaim (sem : Sem Req Req.Resp PyError σ) (key : PrKey) (cooldownSeconds : Nat)
    (s : σ) (tr : ReqTrace) (s' : σ) (now : Nat) : Prop where
  asked : ∃ (existing : Option FailureCooldown) (s₁ s₂ s₃ s₄ : σ),
    (existing.any fun row => row.InForce now cooldownSeconds) = false ∧
    sem (.ext .utcnow) s (.ok now) s₁ ∧
    sem (.sql (.query (.failureCooldown key.1 key.2))) s₁ (.ok existing) s₂ ∧
    sem (.sql (.dml (.upsertFailureCooldown ⟨key.1, key.2, now⟩))) s₂ (.ok ()) s₃ ∧
    sem (.sql .commit) s₃ (.ok ()) s₄ ∧ sem (.sql .rollback) s₄ (.ok ()) s'
  kept : ∀ j : Journal, (j.recordAll tr).kept =
    j.kept ++ (j.pending ++ [⟨.upsertFailureCooldown ⟨key.1, key.2, now⟩, ()⟩])

/-- A finished call of `claim_failure_slot` in its session has taken the slot, or committed
nothing. -/
theorem claimSlot_ends {repo : String} {prNumber cooldownSeconds : Nat} {r : Except PyError Bool}
    (h : Ends sem (Py.withSession (claimFailureSlot repo prNumber cooldownSeconds)) s tr r s') :
    (r ≠ .ok true ∧ ¬ Committed tr) ∨
      (r = .ok true ∧ ∃ now, SlotClaim sem (repo, prNumber) cooldownSeconds s tr s' now) := by
  obtain ⟨r₁, tr₁, tr₂, s₁, rfl, hclaim, hclose⟩ := ends_andThen h
  obtain ⟨r₂, tr₃, tr₄, s₂, rfl, hrollback, hend⟩ := ends_andThen hclose
  obtain ⟨rfl, hclosed⟩ := ends_perform hrollback
  obtain rfl : r₂ = .ok () := hsem _ _ _ _ hclosed
  obtain ⟨rfl, hr, rfl⟩ := run_ofExcept hend
  obtain rfl : r₁ = r := (ofExcept_inj hr).symm
  obtain ⟨r₃, tr₅, tr₆, s₃, rfl, hclock, hread⟩ := ends_andThen hclaim
  obtain ⟨rfl, hnow⟩ := ends_perform hclock
  obtain ⟨now, rfl⟩ : ∃ now, r₃ = .ok now := hsem _ _ _ _ hnow
  dsimp only at hread
  split at hread
  swap
  · -- the cutoff is no date
    obtain ⟨rfl, rfl, _⟩ := ends_raise hread
    refine Or.inl ⟨nofun, ?_⟩
    simp only [Committed, List.append_nil, List.mem_append, List.mem_singleton]
    rintro (h | h) <;> cases h
  obtain ⟨r₄, tr₇, tr₈, s₄, rfl, hquery, hslot⟩ := ends_andThen hread
  obtain ⟨rfl, hexisting⟩ := ends_perform hquery
  cases r₄ with
  -- the record could not be read
  | error x =>
    obtain ⟨rfl, rfl, _⟩ := ends_raise hslot
    refine Or.inl ⟨nofun, ?_⟩
    simp only [Committed, List.append_nil, List.mem_append, List.mem_singleton]
    rintro ((h | h) | h) <;> cases h
  | ok existing =>
    dsimp only at hslot
    split at hslot
    · -- it is in force
      obtain ⟨rfl, rfl, _⟩ := ends_ret hslot
      refine Or.inl ⟨nofun, ?_⟩
      simp only [Committed, List.append_nil, List.mem_append, List.mem_singleton]
      rintro ((h | h) | h) <;> cases h
    · rename_i hfree
      obtain ⟨r₅, tr₉, tr₁₀, s₅, rfl, hwrite, hwritten⟩ := ends_andThen hslot
      obtain ⟨rfl, hupsert⟩ := ends_perform hwrite
      cases r₅ with
      -- the upsert failed
      | error x =>
        obtain ⟨rfl, rfl, _⟩ := ends_raise hwritten
        refine Or.inl ⟨nofun, ?_⟩
        simp only [Committed, List.append_nil, List.mem_append, List.mem_singleton]
        rintro ((h | h | h) | h) <;> cases h
      | ok row =>
        obtain ⟨r₆, tr₁₁, tr₁₂, s₆, rfl, hcommit, hret⟩ := ends_andThen hwritten
        obtain ⟨rfl, hcommitted⟩ := ends_perform hcommit
        cases r₆ with
        -- the commit failed
        | error x =>
          obtain ⟨rfl, rfl, _⟩ := ends_raise hret
          refine Or.inl ⟨nofun, ?_⟩
          simp only [Committed, List.append_nil, List.mem_append, List.mem_singleton]
          rintro ((h | h | h | h) | h) <;> cases h
        -- the slot is taken
        | ok u =>
          obtain ⟨rfl, rfl, rfl⟩ := ends_ret hret
          refine Or.inr ⟨rfl, now, ⟨existing, _, _, _, _, ?_, hnow, hexisting, hupsert, hcommitted,
            hclosed⟩, fun j => rfl⟩
          simpa using hfree

omit hsem in
/-- After its session the failure comment asks nothing of the database, and without the slot nothing
at all. -/
theorem maybePost_ends [UnicodeDb] {installationId prNumber cooldownSeconds : Nat}
    {repo message : String} {r : Except PyError Bool}
    (h : Ends sem (maybePostFailureComment installationId repo prNumber message cooldownSeconds)
      s tr
      r s') :
    ∃ r₁ tr₁ tr₂ s₁, tr = tr₁ ++ tr₂ ∧
      Ends sem (Py.withSession (claimFailureSlot repo prNumber cooldownSeconds)) s tr₁ r₁ s₁ ∧
      ∃ rest : Py Bool, rest.Calls (fun e => e.IsExt ∧ r₁ = .ok true) ∧
        Ends sem rest s₁ tr₂ r s' := by
  obtain ⟨r₁, tr₁, tr₂, s₁, rfl, hsession, hcomment⟩ := ends_andThen h
  refine ⟨r₁, tr₁, tr₂, s₁, rfl, hsession, _, ?_, hcomment⟩
  cases r₁ with
  | error x => trivial
  | ok allowed =>
    cases allowed with
    | false => trivial
    | true =>
      have hpost : (GitHubClient.createComment installationId repo prNumber message).Calls
          fun e => e.IsExt ∧ (Except.ok true : Except PyError Bool) = .ok true :=
        (GitHubClient.createComment_calls (O := fun _ => True) _ fun _ _ => trivial).mono
          fun _ he => ⟨he.isExt, rfl⟩
      refine hpost.andThen fun r => ?_
      rcases r with x | id
      · cases x <;> trivial
      · trivial

/-- The failure comment keeps the slot it claims, or nothing. -/
theorem kept_maybePost [UnicodeDb] {message : String} {cooldownSeconds : Nat}
    {r : Except PyError Bool}
    (h : Ends sem (maybePostFailureComment job.installationId job.repo job.prNumber message
      cooldownSeconds) s tr r s') (hj : j.pending = []) :
    ∃ entries, SlotEntry job entries ∧ (j.recordAll tr).kept = j.kept ++ entries := by
  obtain ⟨r₁, tr₁, tr₂, s₁, rfl, hsession, rest, hrest, hcomment⟩ := maybePost_ends h
  have hext := (hrest.run hcomment).1
  rw [Journal.recordAll_append, Journal.recordAll_isExt fun c hc => (hext c hc).1]
  rcases claimSlot_ends hsem hsession with ⟨_, hnone⟩ | ⟨_, now, htakes⟩
  · exact ⟨[], Or.inl rfl, by rw [kept_of_not_committed hnone, List.append_nil]⟩
  · refine ⟨[⟨.upsertFailureCooldown ⟨job.repo, job.prNumber, now⟩, ()⟩], Or.inr ⟨now, (), rfl⟩, ?_⟩
    rw [htakes.kept, hj, List.nil_append]

/-- What `_process` does with the outcome of the review: everything is kept, or nothing. -/
theorem kept_persist [UnicodeDb] {config : OperatorConfig} {r : Except PyError Unit}
    (h : Ends sem (Worker.persist config job result) s tr r s') (hj : j.pending = []) :
    ((∃ x, r = .error x) ∧ (j.recordAll tr).kept = j.kept) ∨
      ∃ entries, Enters job result entries ∧ (j.recordAll tr).kept = j.kept ++ entries := by
  obtain ⟨r₁, tr₁, tr₂, s₁, rfl, hpersist, hrest⟩ := ends_andThen h
  obtain ⟨hclosed, ⟨⟨x, rfl⟩, hkept⟩ | ⟨rfl, entries, henters, hkept⟩⟩ :=
    kept_persistOutcome hsem hpersist hj
  · -- the outcome was not stored, and nothing else is tried
    obtain ⟨rfl, rfl, _⟩ := ends_raise hrest
    rw [List.append_nil]
    exact Or.inl ⟨⟨x, rfl⟩, hkept⟩
  · right
    rw [Journal.recordAll_append]
    dsimp only at hrest
    split at hrest
    · obtain ⟨r₂, tr₃, tr₄, s₂, rfl, hpost, hend⟩ := ends_andThen hrest
      have hnil : tr₄ = [] := by
        cases r₂ with
        | error x => exact (ends_raise hend).1
        | ok b => exact (ends_ret hend).1
      -- a failure with a message may take the slot besides
      obtain ⟨more, hmore, hslot⟩ := kept_maybePost (j := j.recordAll tr₁) hsem hpost hclosed
      refine ⟨entries ++ more, henters.append_slot hmore, ?_⟩
      rw [hnil, List.append_nil, hslot, hkept, List.append_assoc]
    · obtain ⟨rfl, _⟩ := ends_ret hrest
      exact ⟨entries, henters, hkept⟩

end Turn

/-! ## Reviews on GitHub -/

/-- The id of the review a request has created. -/
def reviewAccepted : (Σ e : Req, Except PyError e.Resp) → Option Nat
  | ⟨.ext (.github _ (.pullsCreateReview ..)), .ok reviewId⟩ => some reviewId
  | _ => none

/-- The reviews that GitHub has accepted in a trace. -/
def reviewsAccepted (tr : ReqTrace) : List Nat := tr.filterMap reviewAccepted

@[simp] theorem reviewsAccepted_append (tr tr' : ReqTrace) :
    reviewsAccepted (tr ++ tr') = reviewsAccepted tr ++ reviewsAccepted tr' :=
  List.filterMap_append

theorem reviewsAccepted_eq_nil (h : ∀ c ∈ tr, ¬ Req.IsPost c.1) : reviewsAccepted tr = [] := by
  refine List.filterMap_eq_nil_iff.mpr fun c hc => ?_
  have hpost := h c hc
  unfold reviewAccepted
  split
  · exact absurd trivial hpost
  · rfl

/-- What the finished runs of `p` create is what they return. -/
def Creates (sem : Sem Req Req.Resp PyError σ) (p : Py Nat) : Prop :=
  ∀ ⦃s tr r s'⦄, Ends sem p s tr r s' → reviewsAccepted tr = r.toOption.toList

-- the resolution of a repository name is not looked into
attribute [local irreducible] GitHubClient.splitRepo

theorem creates_throw (x : PyError) : Creates sem (Py.throw x) := by
  intro s tr r s' h
  obtain ⟨rfl, rfl, _⟩ := ends_raise h
  rfl

/-- A first part that does not post. -/
theorem creates_bind {α : Type} {p : Py α} {f : α → Py Nat} (hp : p.Calls fun e => ¬ e.IsPost)
    (hf : ∀ a, Creates sem (f a)) : Creates sem (p.bind f) := by
  intro s tr r s' h
  obtain ⟨r₁, tr₁, tr₂, s₁, rfl, hrun, hrest⟩ := ends_andThen h
  rw [reviewsAccepted_append, reviewsAccepted_eq_nil (hp.run hrun).1, List.nil_append]
  cases r₁ with
  | ok a => exact hf a hrest
  | error x => exact creates_throw x hrest

/-- An attempt, and what is done when it fails. -/
theorem creates_tryCatch {p : Py Nat} {f : PyError → Py Nat} (hp : Creates sem p)
    (hf : ∀ x, Creates sem (f x)) : Creates sem (p.tryCatch f) := by
  intro s tr r s' h
  rcases ends_tryCatch h with ⟨v, _, hrun⟩ | ⟨x, tr₁, tr₂, s₁, rfl, hrun, hrest⟩
  · exact hp hrun
  · -- an attempt that failed has created nothing
    have hnone : reviewsAccepted tr₁ = [] := hp hrun
    rw [reviewsAccepted_append, hnone, List.nil_append]
    exact hf x hrest

theorem creates_callOnce (id : Nat) (owner name : String) (prNumber : Nat) (body : String) :
    Creates sem (GitHubClient.callOnce id (.pullsCreateReview owner name prNumber body)) := by
  refine creates_bind (calls_perform nofun) fun client => ?_
  intro s tr r s' h
  obtain ⟨rfl, _⟩ := ends_perform h
  cases r <;> rfl

theorem creates_createReview [UnicodeDb] (id : Nat) (repo : String) (prNumber : Nat)
    (body : String) : Creates sem (GitHubClient.createReview id repo prNumber body) := by
  have honce : ∀ owner name, Creates sem
      (GitHubClient.callOnce id (.pullsCreateReview owner name prNumber body)) :=
    fun owner name => creates_callOnce id owner name prNumber body
  refine creates_bind (calls_ofExcept _) fun names => creates_tryCatch (honce _ _) fun x => ?_
  cases x with
  | requestFailed exc =>
    dsimp only
    split
    · refine creates_bind (calls_perform nofun) fun _ => creates_tryCatch (honce _ _) fun y => ?_
      cases y with
      | requestFailed second =>
        dsimp only
        split <;> exact creates_throw _
      | _ => exact creates_throw _
    · exact creates_throw _
  | _ => exact creates_throw _

theorem creates_postWithRetry [UnicodeDb] (body : String) :
    Creates sem (Reviewer.postWithRetry job body) := by
  have hcreate : Creates sem
      (GitHubClient.createReview job.installationId job.repo job.prNumber body) :=
    creates_createReview job.installationId job.repo job.prNumber body
  have hattempts : ∀ retries, Creates sem (Reviewer.postAttempts job body retries) := by
    intro retries
    induction retries with
    | zero => exact hcreate
    | succ retries ih =>
      refine creates_tryCatch hcreate fun x => ?_
      split
      · exact creates_bind (calls_perform nofun) fun _ => ih
      · exact creates_throw _
  exact hattempts 2

/-! ## The outcome of a review -/

/-- A review was posted. -/
def JobOutcome.Reviewed (outcome : JobOutcome) : Prop :=
  outcome.1 = .done ∧ (outcome.2.1 = none ∨ outcome.2.1 = some .parseFailed)

instance (outcome : JobOutcome) : Decidable outcome.Reviewed :=
  inferInstanceAs (Decidable (_ ∧ _))

def ReviewResult.outcome (result : ReviewResult) : JobOutcome :=
  (result.status, result.statusDetail, result.error)

/-- The id of a posted review goes with the status that says so. -/
def Consistent (result : ReviewResult) : Prop :=
  result.reviewId.isSome ↔ result.outcome.Reviewed

theorem recorded_error (x : PyError) : (recorded (.error x)).reviewId = none := by
  cases x <;> rfl

theorem consistent_recorded {r : Except PyError ReviewResult}
    (h : ∀ result, r = .ok result → Consistent result) : Consistent (recorded r) := by
  rcases r with x | result
  · cases x <;> exact iff_of_false nofun fun h => by cases h.1
  · exact h result rfl

section Review

variable [UnicodeDb] [ConfigLibrary] [PromptFiles] (reviewer : Reviewer) (job : Job)

/-- What `prepare` ends in: a result without a review, or a review to post. -/
def Renders : Except PyError RenderedReview → Prop
  | .ok (.early result) => result.reviewId = none ∧ ¬ result.outcome.Reviewed
  | .ok (.ready prepared) =>
    prepared.statusDetail = none ∨ prepared.statusDetail = some .parseFailed
  | .error _ => True

theorem prepare_renders (skipDraftCheck : Bool) :
    (Reviewer.prepare reviewer job skipDraftCheck).Yields (fun _ _ => True) Renders := by
  have hearly : ∀ started detail, ¬ JobOutcome.Reviewed (.done, some detail, none) →
      (Reviewer.endEarly started detail).Yields (fun _ _ => True) Renders := by
    refine fun started detail hdetail => Yields.after _ fun now => ?_
    cases now with
    | ok now => exact ⟨rfl, hdetail⟩
    | error x => trivial
  rw [Reviewer.prepare_eq]
  refine Yields.after _ fun gathered => ?_
  cases gathered with
  | error x => trivial
  | ok gathered =>
    cases gathered with
    -- an early end creates no review
    | draft started => exact hearly _ _ (by decide)
    | content started repoConfig content =>
      show (Reviewer.reviewContent reviewer job started repoConfig content).Yields _ Renders
      unfold Reviewer.reviewContent
      dsimp only
      split
      · exact hearly _ _ (by decide)
      split
      · exact hearly _ _ (by decide)
      refine Yields.after _ fun r => ?_
      cases r with
      | ok answer =>
        refine Yields.after _ fun now => ?_
        cases now with
        | error x => trivial
        | ok now =>
          -- only a review whose reply did not parse has a detail
          show (if answer.2.review.parseFailed then some JobStatusDetail.parseFailed else none) =
            none ∨
            (if answer.2.review.parseFailed then some JobStatusDetail.parseFailed else none) =
              some .parseFailed
          split
          · exact Or.inr rfl
          · exact Or.inl rfl
      | error x =>
        dsimp only
        split
        · rw [bind_eq, Reviewer.failureFrom, bind_eq, Prog.bind_assoc]
          refine Yields.after _ fun now => ?_
          cases now with
          | ok now => exact ⟨rfl, fun h => by cases h.1⟩
          | error x => trivial
        · trivial

theorem run_consistent : (Reviewer.run reviewer job).Yields (fun _ _ => True) fun r =>
    ∀ result, r = .ok result → Consistent result := by
  rw [Reviewer.run_eq]
  refine Yields.andThen ((prepare_renders reviewer job false).mono fun r hr => ?_)
  cases r with
  | error x =>
    intro result heq
    cases heq
  | ok rendered =>
    cases rendered with
    -- an early result has no review, and is not counted as one
    | early result =>
      intro result' heq
      rw [← Except.ok.inj heq]
      exact iff_of_false (by rw [hr.1]; exact nofun) hr.2
    -- of the three ends of the post, the first has created a review
    | ready prepared =>
      refine Yields.after _ fun r => ?_
      unfold Reviewer.conclude
      repeat' split
      all_goals
        intro result heq
        cases heq
      · exact iff_of_true rfl ⟨rfl, hr⟩
      · exact iff_of_false nofun (by rintro ⟨-, h | h⟩ <;> cases h)
      · exact iff_of_false nofun fun h => by cases h.1

/-- Nothing is posted before the body is there: all that `prepare` does is read, ask the model and
take the time. -/
theorem prepare_calls (skipDraftCheck : Bool) :
    (Reviewer.prepare reviewer job skipDraftCheck).Calls fun e => ¬ e.IsPost := by
  have hread : ∀ e : Req, e.Reads → ¬ e.IsPost := fun e he => (not_chat_of_reads he).2
  have hclock : ∀ {α : Type} {f : Nat → Py α}, (∀ now, (f now).Calls fun e => ¬ e.IsPost) →
      (Py.perfCounter.bind f).Calls fun e => ¬ e.IsPost :=
    fun hf => Calls.bind (calls_perform nofun) hf
  have hearly : ∀ started detail,
      (Reviewer.endEarly started detail).Calls fun e => ¬ e.IsPost :=
    fun started detail => hclock fun now => trivial
  rw [Reviewer.prepare_eq]
  refine ((Reviewer.gather_calls reviewer job skipDraftCheck).mono hread).bind fun gathered => ?_
  cases gathered with
  | draft started => exact hearly _ _
  | content started repoConfig content =>
    show (Reviewer.reviewContent reviewer job started repoConfig content).Calls _
    unfold Reviewer.reviewContent
    dsimp only
    split
    · exact hearly _ _
    split
    · exact hearly _ _
    have hmodel := (Reviewer.askModel_calls reviewer job content repoConfig
      (packChunks {
        maxFiles := reviewer.pipeline.maxFiles
        maxChunks := reviewer.pipeline.maxChunks
        maxChunkChars := reviewer.pipeline.maxChunkChars }
        (Reviewer.filterFiles content.files repoConfig)).chunks).mono
      fun e he hpost => he.not_github (Req.IsPost.isGithub hpost)
    refine hmodel.andThen fun r => ?_
    cases r with
    | ok answer => exact hclock fun now => trivial
    | error x =>
      dsimp only
      split
      · have hfailure : (Reviewer.failureFrom x started .llmFailure).Calls fun e => ¬ e.IsPost :=
          hclock fun now => trivial
        exact hfailure.bind fun result => trivial
      · trivial

/-- The reviews a finished review has created are the one it returns, if it returns one. -/
theorem accepted_run {r : Except PyError ReviewResult}
    (h : Ends sem (Py.waitFor (Reviewer.run reviewer job)) s tr r s') :
    reviewsAccepted tr = (recorded r).reviewId.toList := by
  have hrun : ∀ {tr r s'}, Ends sem (Reviewer.run reviewer job) s tr r s' →
      reviewsAccepted tr = (recorded r).reviewId.toList := by
    intro tr r s' hends
    rw [Reviewer.run_eq] at hends
    obtain ⟨r₁, tr₁, tr₂, s₁, rfl, hprepare, hpost⟩ := ends_andThen hends
    rw [reviewsAccepted_append,
      reviewsAccepted_eq_nil ((prepare_calls reviewer job false).run hprepare).1, List.nil_append]
    have hrendered := (prepare_renders reviewer job false).ends hprepare fun _ _ _ _ _ => trivial
    cases r₁ with
    | error x =>
      obtain ⟨rfl, rfl, _⟩ := ends_raise hpost
      rw [recorded_error]
      rfl
    | ok rendered =>
      cases rendered with
      -- nothing was posted
      | early result =>
        obtain ⟨rfl, rfl, _⟩ := ends_ret hpost
        have hnone : result.reviewId = none := hrendered.1
        exact (congrArg Option.toList hnone).symm
      -- the post has created one review or none
      | ready prepared =>
        obtain ⟨r₂, tr₃, tr₄, s₂, rfl, hattempts, hconclude⟩ := ends_andThen hpost
        have hcreated := creates_postWithRetry prepared.body hattempts
        unfold Reviewer.conclude at hconclude
        rw [reviewsAccepted_append, hcreated]
        repeat' split at hconclude
        · obtain ⟨rfl, rfl, _⟩ := ends_ret hconclude
          rfl
        · obtain ⟨rfl, rfl, _⟩ := ends_ret hconclude
          rfl
        · obtain ⟨rfl, rfl, _⟩ := ends_ret hconclude
          rfl
        · obtain ⟨rfl, rfl, _⟩ := ends_raise hconclude
          rw [recorded_error]
          rfl
  rcases ends_tryCatch h with ⟨result, rfl, hends⟩ | ⟨x, tr₁, tr₂, s₁, rfl, hends, hrest⟩
  · exact hrun hends
  · -- the review was cut off or raised: then it has created none
    have hnone := hrun hends
    rw [recorded_error] at hnone
    have hraise : ∃ y, r = .error y ∧ tr₂ = [] := by
      cases x <;> exact ⟨_, (ends_raise hrest).2.1, (ends_raise hrest).1⟩
    obtain ⟨y, rfl, rfl⟩ := hraise
    rw [List.append_nil, hnone, recorded_error]

/-! ## A turn, wherever it is cut short -/

/-- An honest answer that grants nothing. -/
def refuse : (e : Req) → Except PyError e.Resp
  | .sql .rollback => .ok ()
  | .ext .utcnow => .ok (0 : Nat)
  | .ext .perfCounter => .ok (0 : Nat)
  | .ext (.mem op) => .ok (op.exec {}).1
  | _ => .error (.other "refused")

omit [UnicodeDb] [ConfigLibrary] [PromptFiles] in
theorem refuse_honest (e : Req) : e.Honest (refuse e) := by
  cases e with
  | sql q =>
    cases q with
    | rollback => rfl
    | dml d =>
      cases d with
      -- nothing is answered with a row
      | insertReviewPosted posted =>
        refine ⟨fun h => ?_, fun row hrow => ?_⟩
        · cases h
        · cases hrow
      | _ =>
        intro h
        cases h
    | _ =>
      intro h
      cases h
  | ext e =>
    cases e with
    -- whatever is asked of GitHub is refused
    | github client op => cases op <;> first | trivial | exact nofun
    | mem op => exact ⟨_, rfl⟩
    | utcnow => exact ⟨_, rfl⟩
    | perfCounter => exact ⟨_, rfl⟩
    | chat => trivial
    | sleep => trivial

omit [UnicodeDb] [ConfigLibrary] [PromptFiles] in
/-- Refusals keep nothing and create nothing. -/
theorem refused {j : Journal} (h : ∀ c ∈ tr, c.2 = refuse c.1) :
    (j.recordAll tr).kept = j.kept ∧ reviewsAccepted tr = [] := by
  induction tr generalizing j with
  | nil => exact ⟨rfl, rfl⟩
  | cons c tr ih =>
    obtain ⟨e, r⟩ := c
    obtain rfl : r = refuse e := h ⟨e, r⟩ List.mem_cons_self
    obtain ⟨hkept, hnone⟩ := ih (j := j.record e (refuse e)) fun c hc =>
      h c (List.mem_cons_of_mem _ hc)
    have hrecord : (j.record e (refuse e)).kept = j.kept := by
      rcases e with q | e
      · cases q <;> rfl
      · rfl
    have hcreate : reviewAccepted ⟨e, refuse e⟩ = none := by
      rcases e with q | e
      · rfl
      · rcases e with ⟨client, op⟩ | _ | _ | _ | _ | _
        · cases op <;> rfl
        all_goals rfl
    refine ⟨hkept.trans hrecord, ?_⟩
    rw [reviewsAccepted, List.filterMap_cons_none hcreate]
    exact hnone

/-- **What a turn leaves.** However a turn on a job is answered and wherever it is cut short, there
is one result of the review such that GitHub has created the review it names and no other, the
store has kept its whole outcome or nothing, and a turn that has returned has kept it. A turn that
has created a review asks for no failure comment. -/
theorem turn_outcome {config : OperatorConfig} {p : Py Unit}
    (hsem : ∀ e s r s', sem e s r s' → e.Honest r)
    (h : Run sem (Worker.process config (Reviewer.run reviewer) job) s tr p s') :
    ∃ result, result.status.IsTerminal ∧ Consistent result ∧
      reviewsAccepted tr = result.reviewId.toList ∧
      ((journal tr).kept = [] ∧ p ≠ .ret () ∨ Enters job result (journal tr).kept) ∧
      (reviewsAccepted tr ≠ [] → spent Req.price tr .comment = 0) := by
  obtain ⟨rest, r, _, hscript, hleft, hends⟩ :=
    (h.anyOf hsem).finish refuse (fun _ _ => ()) fun e _ => refuse_honest e
  have hrest : ∀ c ∈ rest, c.2 = refuse c.1 := hscript.answered fun _ _ _ _ hanswer => hanswer.1
  have hkept : (journal (tr ++ rest)).kept = (journal tr).kept := by
    rw [journal, Journal.recordAll_append, (refused hrest).1]
    rfl
  have haccepted : reviewsAccepted (tr ++ rest) = reviewsAccepted tr := by
    rw [reviewsAccepted_append, (refused (j := {}) hrest).2, List.append_nil]
  have hcomments : spent Req.price tr .comment ≤ spent Req.price (tr ++ rest) .comment := by
    rw [spent_append]
    exact Nat.le_add_right _ _
  rw [← hkept, ← haccepted]
  clear hkept haccepted
  obtain ⟨r₁, tr₁, tr₂, _, heq, hreview, hsettle⟩ := ends_andThen hends
  rw [heq] at hcomments ⊢
  have hcalls := waitFor_calls (Reviewer.run_calls reviewer job)
  have hr₁ : r₁ ≠ .error .cancelled ∧ ∀ result, r₁ = .ok result → result.status.IsTerminal := by
    have hyields := (waitFor_yields (Reviewer.run_finished reviewer job)).ends hreview
      fun e _ r _ hr => Req.Honest.possible hr
    cases r₁ <;> exact hyields
  have hnot : r₁ ≠ .error .cancelled := hr₁.1
  have hterm : (recorded r₁).status.IsTerminal := recorded_isTerminal hr₁.2
  have hext : ∀ c ∈ tr₁, Req.IsExt c.1 := (hcalls.run hreview).1
  have hjournal : journal (tr₁ ++ tr₂) = journal tr₂ := by
    rw [journal, Journal.recordAll_append, Journal.recordAll_isExt hext]
    rfl
  rw [settle_eq hnot] at hsettle
  -- the store is asked for nothing before the outcome, and GitHub for no review after it
  have hwithin := (Worker.persist_within config job (recorded r₁)).spent_le hsettle
  have hlater : reviewsAccepted tr₂ = [] := by
    have hnone : spent Req.price tr₂ .review = 0 := Nat.le_zero.mp ((hwithin .review).trans
      (by by_cases hst : (recorded r₁).status = .failed <;> simp [hst]))
    exact reviewsAccepted_eq_nil fun c hc hpost => kind_ne_of_spent hnone c hc hpost.kind
  have hconsistent : Consistent (recorded r₁) := by
    refine consistent_recorded fun result hresult => ?_
    rw [hresult] at hreview
    obtain ⟨_, _, hrun⟩ | ⟨x, _, _, _, _, _, hraise⟩ := ends_tryCatch hreview
    · exact (run_consistent reviewer job).ends hrun (fun _ _ _ _ _ => trivial) result rfl
    · exact absurd hraise (by cases x <;> exact fun h => by cases (ends_raise h).2.1)
  have hresult : reviewsAccepted (tr₁ ++ tr₂) = (recorded r₁).reviewId.toList := by
    rw [reviewsAccepted_append, accepted_run reviewer job hreview, hlater, List.append_nil]
  refine ⟨recorded r₁, hterm, hconsistent, hresult, ?_, ?_⟩
  · rw [hjournal]
    rcases kept_persist (j := {}) (fun _ _ _ _ hr => hr) hsettle rfl with
      ⟨⟨x, rfl⟩, hkept⟩ | ⟨entries, henters, hkept⟩
    · refine Or.inl ⟨hkept, ?_⟩
      rintro rfl
      cases (ends_ret hleft).2.1
    · refine Or.inr ?_
      show Enters job (recorded r₁) (({} : Journal).recordAll tr₂).kept
      rw [hkept]
      exact henters
  · intro hposted
    -- a review that was created is recorded as done, and only a failure is commented on
    have hdone : (recorded r₁).status = .done := by
      refine (hconsistent.mp ?_).1
      rw [hresult] at hposted
      cases hid : (recorded r₁).reviewId with
      | none => exact absurd (by rw [hid]; rfl) hposted
      | some reviewId => rfl
    rw [hdone] at hwithin
    have hreviewing := (waitFor_within (Reviewer.run_within reviewer job)).spent_le hreview .comment
    have hpersisting := hwithin .comment
    rw [spent_append] at hcomments
    simp [times_apply] at hreviewing hpersisting hcomments
    omega

end Review

end VidiPr
