import VidiPr.Service.Dispatch
import VidiPr.Service.Notifications
import VidiPr.Service.ReceiverSchedule
import VidiPr.Service.WebhookSpec

/-!
# Where the reviews come from

The service that `_serve` builds: requests to `/webhook` beside the worker, on one store.

* **`Deployment.vidiPr`** — the deployment, so that what holds of every deployment holds of it.
* **`WebhookRequest.Asks`** — the review an authentic request asks for: an opened pull request that
  is not a draft, or a comment that triggers. Whether its sender may is decided on the config that
  is loaded for it, which `comment_trigger_authorised` is about.
* **`review_provenance`** — over whole runs every job was asked for so, and every row of
  `reviews_posted` is one of such a job.
* **`failure_comments_apart`** — the requests take no slot of a failure comment, so that what holds
  of the worker's slots holds of the whole service.
-/

namespace VidiPr

open Effect Prog Relational Text Service

/-! ## The service -/

section Build

variable [UnicodeDb] [ConfigLibrary] [WebhookLibrary]

/-- The requests to `/webhook`, each with the whole route as its program, as the tasks the service
runs beside its worker. -/
def webhookWorkload (secret : String) (handler : OrchestrationHandler) : Workload where
  Task := WebhookRequest
  Result _ := Nat
  prog request := Webhook.webhook secret handler.eventHandler request
  Promise n _ _ _ := Idle (.call n)
  keeps X n since request := by
    -- nothing is asked of the ids that are there already
    refine (webhook_triple (K := queueContract) (P := True)
      (fun args => queueContract_enqueued args)
      (fun id _ => queueContract_recorded id) fun _ _ _ _ _ _ _ => trivial).conseq
      (fun _ _ hs => ⟨hs.1, fun _ _ _ => trivial⟩) (fun _ _ _ hs => hs.1) fun _ => stable_idle

/-- The handler `_serve` builds. -/
def OrchestrationHandler.ofConfig (config : OperatorConfig) : OrchestrationHandler where
  defaults := config.defaults

/-- The reviewer `_serve` builds. -/
def Reviewer.ofConfig (config : OperatorConfig) : Reviewer where
  defaults := config.defaults
  pipeline := config.pipeline
  llm := config.llm
  botLogin := defaultBotLogin

variable [PromptFiles]

/-- `_serve` -/
def Deployment.vidiPr (X : External) (config : OperatorConfig) : Deployment :=
  .serve X (webhookWorkload config.webhookSecret (.ofConfig config)) config
    (Reviewer.routine (.ofConfig config))

end Build

/-! ## What a request asks for -/

section Asks

variable [UnicodeDb] [WebhookLibrary]

/-- The reviews a request asks for. -/
inductive WebhookRequest.Asks (secret : String) (handler : OrchestrationHandler)
    (request : WebhookRequest) : EnqueueArgs → Prop where
  /-- a pull request was opened, or became ready -/
  | auto {event : PullRequestEvent} {id : Nat}
      (hauthentic : request.Authentic secret) (htype : request.eventType = some "pull_request")
      (hevent : WebhookLibrary.parsePullRequest request.body = .ok event)
      (haction : event.action.any (· ∈ OrchestrationHandler.autoTriggerActions))
      (hdraft : event.draft = false) (hinstallation : event.installation = some id) :
      request.Asks secret handler {
        installationId := id
        repo := event.repo
        prNumber := event.prNumber
        headSha := event.headSha
        triggerKind := .auto }
  /-- somebody other than the service itself has asked in a comment; `pr` is what `get_pr` was
  answered with -/
  | comment {event : IssueCommentEvent} {id : Nat} {parsed : ParsedTrigger} {pr : PRInfo}
      (hauthentic : request.Authentic secret)
      (htype : request.eventType = some "issue_comment")
      (hevent : WebhookLibrary.parseIssueComment request.body = .ok event)
      (haction : event.action = some "created") (hpull : event.isPullRequest = true)
      (hsender : event.senderLogin ≠ handler.botLogin)
      (htrigger : parseTrigger event.commentBody = some parsed)
      (hinstallation : event.installation = some id) :
      request.Asks secret handler (OrchestrationHandler.commentArgs event id parsed pr)

end Asks

/-! ## Who adds jobs -/

/-- The review a job was enqueued for. -/
def Job.args (job : Job) : EnqueueArgs where
  installationId := job.installationId
  repo := job.repo
  prNumber := job.prNumber
  headSha := job.headSha
  triggerKind := job.triggerKind
  extraContext := job.extraContext

/-- A statement that adds no job but for a review of `A`. -/
def Dml.Adds (A : EnqueueArgs → Prop) : Dml → Prop
  | .insertJob job => A job.args
  | _ => True

/-- Every job was there, for the same review, or is for one of `A`. -/
def Db.Adds (A : EnqueueArgs → Prop) (db db' : Db) : Prop :=
  ∀ row ∈ db'.jobs, (∃ old ∈ db.jobs, old.id = row.id ∧ old.args = row.args) ∨ A row.args

theorem adds_of_jobs {A : EnqueueArgs → Prop} {db db' : Db} (h : db'.jobs = db.jobs) :
    db.Adds A db' := by
  intro row hrow
  rw [h] at hrow
  exact Or.inl ⟨row, hrow, rfl, rfl⟩

theorem adds_kept (A : EnqueueArgs → Prop) : Kept (Dml.Adds A) (Db.Adds A) where
  refl db := adds_of_jobs rfl
  -- a row that was there in between was there before, or was added
  trans h h' row hrow := by
    rcases h' row hrow with ⟨mid, hmid, hid, hargs⟩ | hA
    · rcases h mid hmid with ⟨old, hold, hid', hargs'⟩ | hA
      · exact Or.inl ⟨old, hold, hid'.trans hid, hargs'.trans hargs⟩
      · exact Or.inr (hargs ▸ hA)
    · exact Or.inr hA
  apply d h db := by
    cases d with
    | insertJob job =>
      intro row hrow
      change row ∈ (db.jobs.insertAuto (fun id => { job with id }) fun _ => rfl).1 at hrow
      rcases Table.mem_insertAuto.mp hrow with hold | rfl
      · exact Or.inl ⟨row, hold, rfl, rfl⟩
      · exact Or.inr h
    -- a status changes nothing of what the job was asked for with
    | updateJobStatus id status detail error updatedAt =>
      intro row hrow
      rcases mem_updateJobStatus.mp hrow with ⟨old, hold, _, rfl⟩ | ⟨hold, _⟩
      · exact Or.inl ⟨old, hold, rfl, rfl⟩
      · exact Or.inl ⟨row, hold, rfl, rfl⟩
    | failRunningJobs text updatedAt =>
      intro row hrow
      rcases mem_failRunningJobs.mp hrow with ⟨old, hold, _, rfl⟩ | ⟨hold, _⟩
      · exact Or.inl ⟨old, hold, rfl, rfl⟩
      · exact Or.inl ⟨row, hold, rfl, rfl⟩
    | _ => exact adds_of_jobs rfl

/-- A statement that adds no job, though it may change the row of one. -/
abbrev Dml.AddsNone : Dml → Prop := Dml.Adds fun _ => False

theorem Dml.For.addsNone {job : Job} {d : Dml} (h : d.For job) : d.AddsNone := by
  cases h <;> trivial

/-- A statement of an intake of the reviews `A`. -/
def Dml.Intake (A : EnqueueArgs → Prop) : Dml → Prop
  | .insertJob job => A job.args
  | .insertPrLock _ | .insertDelivery _ => True
  | _ => False

theorem Dml.Intake.adds {A : EnqueueArgs → Prop} {d : Dml} (h : d.Intake A) : d.Adds A := by
  cases d with
  | insertJob job => exact h
  | _ => trivial

theorem Dml.Intake.sparesPosts {A : EnqueueArgs → Prop} {d : Dml} (h : d.Intake A) :
    d.SparesPosts := by
  cases d with
  | insertReviewPosted posted | upsertFailureCooldown cooldown => exact h.elim
  | _ => trivial

theorem claimOne_addsNone : Worker.claimOne.Calls (Req.Writes Dml.AddsNone) := by
  refine withSession_writes ((calls_perform trivial).bind fun pending => ?_)
  cases pending with
  | none => trivial
  | some job => exact (claimRest_writes job).mono fun e he => he.mono fun d hd => hd.addsNone

theorem recoveryRoutine_addsNone : recoveryRoutine.Calls (Req.Writes Dml.AddsNone) :=
  recoveryRoutine_writes.mono fun e he => he.mono fun d hd => by cases hd <;> trivial

/-- What a program asks for after a check. -/
theorem calls_after_check {α β : Type} {P : Req → Prop} {r : Except PyError α} {f : α → Py β}
    (hf : ∀ a, r = .ok a → (f a).Calls P) : ((Py.ofExcept r).bind f).Calls P := by
  cases r with
  | ok a => exact hf a rfl
  | error x => trivial

section Handlers

variable [UnicodeDb] {A : EnqueueArgs → Prop}

omit [UnicodeDb] in
/-- `try_enqueue_review` adds the job for its arguments. -/
theorem enqueue_intake {args : EnqueueArgs} (hA : A args) :
    (Py.withSession (tryEnqueueReview args)).Calls (Req.Writes (Dml.Intake A)) := by
  refine withSession_writes ((calls_perform trivial).bind fun existing => ?_)
  cases existing with
  | some lock => trivial
  | none =>
    refine Calls.bind ((calls_perform trivial).bind fun now => ?_) fun job => ?_
    · exact calls_perform hA
    refine Calls.bind ((calls_perform trivial).bind fun now => calls_perform trivial)
      fun acquired => ?_
    split
    · exact (calls_perform trivial).bind fun _ => trivial
    · exact (calls_perform trivial).bind fun _ => trivial

omit [UnicodeDb] in
/-- An opened pull request that is no draft adds a job for its head. -/
theorem onPullRequest_intake {event : PullRequestEvent}
    (hA : event.action.any (· ∈ OrchestrationHandler.autoTriggerActions) → event.draft = false →
      ∀ id, event.installation = some id → A {
        installationId := id
        repo := event.repo
        prNumber := event.prNumber
        headSha := event.headSha
        triggerKind := .auto }) :
    (OrchestrationHandler.onPullRequest event).Calls (Req.Writes (Dml.Intake A)) := by
  unfold OrchestrationHandler.onPullRequest
  split
  · trivial
  rename_i haction
  split
  · trivial
  rename_i hdraft
  refine calls_after_check fun id hid => ?_
  have hargs := hA (not_not.mp haction) (Bool.eq_false_iff.mpr hdraft) id
    (installation_of_id (congrArg Prog.ofExcept hid.symm))
  exact Calls.bind (enqueue_intake hargs) fun _ => trivial

variable [ConfigLibrary]

/-- A comment adds a job only if it triggers, and only for the head that is read then. -/
theorem onIssueComment_intake {handler : OrchestrationHandler} {event : IssueCommentEvent}
    (hA : event.action = some "created" → event.isPullRequest = true →
      event.senderLogin ≠ handler.botLogin →
      ∀ parsed, parseTrigger event.commentBody = some parsed →
      ∀ id, event.installation = some id → ∀ pr : PRInfo,
      A (OrchestrationHandler.commentArgs event id parsed pr)) :
    (handler.onIssueComment event).Calls (Req.Writes (Dml.Intake A)) := by
  have hread : ∀ {α : Type} {p : Py α}, p.Calls Req.IsExt → p.Calls (Req.Writes (Dml.Intake A)) :=
    fun hp => hp.mono fun e he => he.writes
  unfold OrchestrationHandler.onIssueComment
  split
  · trivial
  rename_i haction
  split
  · trivial
  rename_i hpull
  split
  · trivial
  rename_i hsender
  split
  · trivial
  rename_i parsed htrigger
  refine calls_after_check fun id hid => ?_
  refine Calls.bind (hread (getPr_isExt ..)) fun pr => ?_
  -- the loader reads from GitHub
  unfold RepoConfigLoader.new
  simp only [bind_eq, pure_eq, bind_assoc, ret_bind]
  refine Calls.bind (hread (calls_perform trivial)) fun cache => ?_
  have hload : ∀ loader : RepoConfigLoader, loader.fetcher = GitHubClient.forInstallation id →
      (loader.load event.repo pr.baseRef event.defaultBranch).Calls Req.IsExt :=
    fun loader hloader => load_isExt hloader ..
  refine Calls.bind (hread (hload _ rfl)) fun repoConfig => ?_
  unfold OrchestrationHandler.actOnComment
  split
  · trivial
  split
  · exact hread (react_isExt ..)
  refine Calls.bind (hread (react_isExt ..)) fun _ => ?_
  have hargs := hA (not_not.mp haction) (not_not.mp hpull) hsender parsed htrigger id
    (installation_of_id (congrArg Prog.ofExcept hid.symm)) pr
  exact Calls.bind (enqueue_intake hargs) fun _ => trivial

variable [WebhookLibrary] {secret : String} {handler : OrchestrationHandler}
  {request : WebhookRequest}

omit [UnicodeDb] [ConfigLibrary] in
/-- The event of a request is the one its type names. -/
theorem event_cases {eventType : String} {body : List UInt8} {event : WebhookEvent}
    (h : Webhook.event eventType body = .ok event) :
    (∃ e, eventType = "pull_request" ∧ WebhookLibrary.parsePullRequest body = .ok e ∧
      event = .pullRequest e) ∨
    (∃ e, eventType = "issue_comment" ∧ WebhookLibrary.parseIssueComment body = .ok e ∧
      event = .issueComment e) ∨ event = .other := by
  unfold Webhook.event Webhook.parse at h
  -- the types are looked at in the order of the source
  by_cases hpull : eventType = "pull_request"
  · rw [if_pos hpull] at h
    cases hparse : WebhookLibrary.parsePullRequest body with
    | error x =>
      rw [hparse] at h
      cases h
    | ok e =>
      rw [hparse] at h
      exact Or.inl ⟨e, hpull, rfl, (Except.ok.inj h).symm⟩
  rw [if_neg hpull] at h
  by_cases hcomment : eventType = "issue_comment"
  · rw [if_pos hcomment] at h
    cases hparse : WebhookLibrary.parseIssueComment body with
    | error x =>
      rw [hparse] at h
      cases h
    | ok e =>
      rw [hparse] at h
      exact Or.inr (Or.inl ⟨e, hcomment, rfl, (Except.ok.inj h).symm⟩)
  rw [if_neg hcomment] at h
  cases hparse : WebhookLibrary.parseOther eventType body with
  | error x =>
    rw [hparse] at h
    cases h
  | ok e =>
    rw [hparse] at h
    exact Or.inr (Or.inr (Except.ok.inj h).symm)

/-- A request adds the job it asks for, and no other. It goes down the route as the source does: the
size, the headers, the signature, the delivery, the type, and then the handler's gates. -/
theorem webhook_intake : (Webhook.webhook secret handler.eventHandler request).Calls
    (Req.Writes (Dml.Intake (request.Asks secret handler))) := by
  rw [Webhook.webhook_eq]
  split
  · trivial
  -- from here on in a session
  rename_i hsize
  refine Calls.andThen ?_ fun r => calls_ofExcept _
  refine withSession_writes ?_
  unfold Webhook.processWebhook
  split
  · trivial
  · trivial
  · trivial
  rename_i signature eventType deliveryId hsignature htype hdelivery
  split
  · trivial
  -- the signature was verified
  rename_i hverify
  have hauthentic : request.Authentic secret :=
    ⟨signature, eventType, deliveryId, hsignature, htype, hdelivery, not_not.mp hverify⟩
  refine Calls.bind ((calls_perform trivial).bind fun now => calls_perform trivial) fun isNew => ?_
  refine (calls_perform trivial).bind fun _ => ?_
  split
  · trivial
  refine calls_after_check fun event hevent => Calls.bind ?_ fun _ => trivial
  -- the handler that is called, by the type of the event
  rcases event_cases hevent with ⟨e, rfl, hparse, rfl⟩ | ⟨e, rfl, hparse, rfl⟩ | rfl
  · exact onPullRequest_intake fun haction hdraft id hid =>
      .auto hauthentic htype hparse haction hdraft hid
  · exact onIssueComment_intake fun haction hpull hsender parsed htrigger id hid pr =>
      .comment hauthentic htype hparse haction hpull hsender htrigger hid
  · trivial

end Handlers

/-! ## The jobs of a run -/

/-- A step that starts a task only if it is one of `Q`. -/
def Service.Event.StartsOnly {D : Deployment} (Q : D.workload.Task → Prop) : Event D → Prop
  | .spawn _ task => Q task
  | _ => True

/-- The reviews a task may add jobs for are those of `A`. -/
def Workload.Adds (W : Workload) (A : W.Task → EnqueueArgs → Prop) : Prop :=
  ∀ task, (W.prog task).Calls (Req.Writes (Dml.Adds (A task)))

/-- What is left of the worker's routine adds no job. -/
def AddsNonePhase (phase : WorkerPhase) (s : Sqlite) : Prop :=
  match phase with
  | .claiming p => Minds Dml.AddsNone (Db.Adds fun _ => False) .worker p s
  | .recovering p => Minds Dml.AddsNone (Db.Adds fun _ => False) .worker p s
  | .processing _ p => Minds Dml.AddsNone (Db.Adds fun _ => False) .worker p s
  | _ => True

section Run

variable [UnicodeDb] {D : Deployment} {A : D.workload.Task → EnqueueArgs → Prop}
  {Q : D.workload.Task → Prop} {s s' : Service D}

/-- Every job is one that a task which was started may add. -/
structure Founded (A : D.workload.Task → EnqueueArgs → Prop) (Q : D.workload.Task → Prop)
    (s : Service D) : Prop where
  tasks : ∀ n call, s.calls n = some call → Q call.task
  calls : CallsMind (fun task => Dml.Adds (A task)) (fun task => Db.Adds (A task)) s
  worker : AddsNonePhase s.worker s.world.db
  jobs : ∀ row ∈ s.world.db.committed.jobs, ∃ task, Q task ∧ A task row.args

omit [UnicodeDb] in
/-- The jobs of a store that adds those of `B` only. -/
theorem founded_jobs {B : EnqueueArgs → Prop} {db db' : Db} (h : db.Adds B db')
    (hold : ∀ row ∈ db.jobs, ∃ task, Q task ∧ A task row.args)
    (hB : ∀ args, B args → ∃ task, Q task ∧ A task args) :
    ∀ row ∈ db'.jobs, ∃ task, Q task ∧ A task row.args := by
  intro row hrow
  rcases h row hrow with ⟨old, hmem, -, hargs⟩ | hnew
  · rw [← hargs]
    exact hold old hmem
  · exact hB _ hnew

omit [UnicodeDb] in
/-- The worker's routine goes on, or ends, without a job more. -/
theorem Founded.routine (h : Founded A Q s) {t : Service D} {α : Type} {e : Req}
    {k : Except PyError e.Resp → Py α} {r : Except PyError e.Resp} {world : World D.external}
    (hcalls : CallsMind (fun task => Dml.Adds (A task)) (fun task => Db.Adds (A task)) t)
    (hminds : Minds Dml.AddsNone (Db.Adds fun _ => False) .worker (.call e k) s.world.db)
    (hsem : sem D.external .worker e s.world r world) (hworld : t.world = world)
    (htasks : t.calls = s.calls)
    (hphase : Minds Dml.AddsNone (Db.Adds fun _ => False) .worker (k r) world.db →
      AddsNonePhase t.worker t.world.db) : Founded A Q t := by
  obtain ⟨hadds, hminds'⟩ := hminds.step (adds_kept _) hsem
  refine ⟨htasks ▸ h.tasks, hcalls, hphase hminds', ?_⟩
  rw [hworld]
  exact founded_jobs hadds h.jobs fun args hnone => hnone.elim

/-- The step lemma: every job in the store was asked for by a request. A task is the only one that
adds jobs; the worker changes the rows it finds. -/
theorem founded_step {ev : Event D} {F : Nat → Prop} (hD : D.workload.Adds A) (h : Founded A Q s)
    (hinv : Inv F s) (hs : Step s ev s') (hQ : ev.StartsOnly Q) : Founded A Q s' := by
  have hcalls := callsMind_step hD (fun task => adds_kept (A task)) h.calls hinv hs
  have hw := hinv.worker
  have hworker := h.worker
  cases hs with
  | external | requestStop => exact ⟨h.tasks, hcalls, h.worker, h.jobs⟩
  | start | recovered | leave | claimedNone | wake | claimRaised | processed | processRaised =>
    exact ⟨h.tasks, hcalls, trivial, h.jobs⟩
  | crash => exact ⟨fun n call hn => (by cases hn), hcalls, trivial, h.jobs⟩
  -- a task that starts is one of the allowed
  | spawn n task hn =>
    refine ⟨fun m call hm => ?_, hcalls, h.worker, h.jobs⟩
    change Function.update s.calls n _ m = some call at hm
    by_cases heq : m = n
    · subst heq
      rw [Function.update_self] at hm
      cases hm
      exact hQ
    · rw [Function.update_of_ne heq] at hm
      exact h.tasks m call hm
  | @call n task since e k r world hcall hsem =>
    refine ⟨fun m call hm => ?_, hcalls, ?_, ?_⟩
    · change Function.update s.calls n _ m = some call at hm
      by_cases heq : m = n
      · subst heq
        rw [Function.update_self] at hm
        cases hm
        exact h.tasks m ⟨task, since, .call e k⟩ hcall
      · rw [Function.update_of_ne heq] at hm
        exact h.tasks m call hm
    · -- the worker's own transaction is not affected
      have hstep := actorStep_of_sem hsem
      show AddsNonePhase s.worker world.db
      unfold AddsNonePhase at hworker ⊢
      split at hworker
      · exact hworker.env (b := .call n) (by simp) hstep
      · exact hworker.env (b := .call n) (by simp) hstep
      · exact hworker.env (b := .call n) (by simp) hstep
      · trivial
    · -- what the task commits, it asks for
      exact founded_jobs ((h.calls n _ hcall).step (adds_kept _) hsem).1 h.jobs
        fun args hadds => ⟨task, h.tasks n _ hcall, hadds⟩
  -- none of the worker's routines adds a job
  | recover hphase may =>
    rw [hphase] at hw
    exact ⟨h.tasks, hcalls, Minds.of_not_owns recoveryRoutine_addsNone hw.2, h.jobs⟩
  | claim hphase hstop =>
    rw [hphase] at hw
    exact ⟨h.tasks, hcalls, Minds.of_not_owns claimOne_addsNone hw.2, h.jobs⟩
  | @claimedSome job hphase =>
    rw [hphase] at hw
    have hwrites := (process_writes D.config D.reviewer job).mono
      fun e he => he.mono fun d hd => hd.addsNone
    exact ⟨h.tasks, hcalls, Minds.of_not_owns hwrites hw.ok.1, h.jobs⟩
  | recoverStep hphase hsem | claimStep hphase hsem | processStep hphase hsem =>
    rw [hphase] at hworker
    exact h.routine hcalls hworker hsem rfl rfl id

/-- The run lemma: in a run that starts only the tasks allowed by `Q`, every job of the store was
asked for by one of these. -/
theorem founded_of_reachable (hD : D.workload.Adds A)
    (h : ReachableIf (fun _ ev => ev.StartsOnly Q) s) : Founded A Q s := by
  induction h with
  | initial ext =>
    refine ⟨fun n call hn => ?_, fun n call hn => ?_, trivial, fun row hrow => ?_⟩
    · cases hn
    · cases hn
    · exact absurd hrow (Table.not_mem_empty row)
  | step h hs hQ ih =>
    obtain ⟨turns, hturns⟩ := history_of_reachable h
    obtain ⟨seen, F, -, hlife⟩ := hturns.life
    exact founded_step hD ih hlife.inv hs hQ

end Run

section Result

section Workload

variable [UnicodeDb] [ConfigLibrary] [WebhookLibrary] {secret : String}
  {handler : OrchestrationHandler}

theorem webhookWorkload_adds : (webhookWorkload secret handler).Adds
    fun request : WebhookRequest => request.Asks secret handler :=
  fun _ => webhook_intake.mono fun _ he => he.mono fun _ hd => hd.adds

theorem webhookWorkload_sparesPosts : (webhookWorkload secret handler).SparesPosts :=
  fun _ => webhook_intake.mono fun _ he => he.mono fun _ hd => hd.sparesPosts

end Workload

variable [UnicodeDb] [ConfigLibrary] [WebhookLibrary] [PromptFiles] {X : External}
  {config : OperatorConfig} {Q : WebhookRequest → Prop}

/-- **Where the reviews come from.** In every state of every run of the service, crashes and
restarts included: every job was asked for by an authentic request that has come in, and every row
of `reviews_posted` is one of such a job, at its head. -/
theorem review_provenance {s : Service (.vidiPr X config)}
    (h : ReachableIf (fun _ ev => ev.StartsOnly Q) s) :
    (∀ job ∈ s.world.db.committed.jobs, ∃ request, Q request ∧
      request.Asks config.webhookSecret (.ofConfig config) job.args) ∧
    ∀ row ∈ s.world.db.committed.reviewsPosted, ∃ job ∈ s.world.db.committed.jobs,
      job.key = row.key ∧ job.headSha = row.headSha ∧ job.outcome.Reviewed := by
  have hfounded := founded_of_reachable (A := fun request : WebhookRequest =>
    request.Asks config.webhookSecret (.ofConfig config)) 
    webhookWorkload_adds h
  refine ⟨hfounded.jobs, fun row hrow => ?_⟩
  obtain ⟨turns, hturns⟩ := history_of_reachable h
  obtain ⟨id, turn, hturn, hmem⟩ := ((booked_history hturns).rows row).mp hrow
  obtain ⟨-, p, hruns⟩ := (turns_history hturns).runs id turn hturn
  obtain ⟨job, hjob, hjobRow⟩ := (settles_history (fun may => may) hturns).row id turn hturn
  cases hruns.stands hjobRow with
  | reviewed posted hreviewed hrows _ hkey hhead =>
    rw [hrows] at hmem
    obtain rfl : row = posted := List.mem_singleton.mp hmem
    exact ⟨job, hjob, hkey.symm, hhead.symm, hreviewed⟩
  | running _ hrows | ended _ _ hrows =>
    rw [hrows] at hmem
    cases hmem

/-- Failure comments of the whole service: its other tasks are the webhook requests, which take no
slot. So over every run, crashes and restarts included, the slots that were taken for a pull request
are a cooldown apart, and no turn asks for a comment without one. -/
theorem failure_comments_apart {s : Service (.vidiPr X config)} {turns : Turns}
    (h : History s turns) :
    (∀ key, (slotsTaken key turns s.started).Pairwise fun later earlier =>
      earlier + cooldownWindow config.pipeline.failureCommentCooldownSeconds ≤ later) ∧
    ∀ id turn, turns id = some turn → 0 < spent Req.price turn.trace .comment →
      ∃ now, turn.slots turn.job.key = [now] := by
  have hnoticed := noticed_history webhookWorkload_sparesPosts h
  exact ⟨fun key => (hnoticed.settled key).apart, hnoticed.commented⟩

end Result

section Example

/-- githubkit on an empty payload, signed with `secret`: that of a pull request opens number 7. -/
@[reducible] def openedWebhooks : WebhookLibrary := { exampleWebhooks with
  parsePullRequest _ := .ok {
    action := some "opened"
    draft := false
    prNumber := 7
    headSha := "abc"
    repo := "o/r"
    installation := some 1 } }

attribute [local instance] asciiDb exampleLibrary emptyPrompts openedWebhooks

/-- The service, on a day on which everything works. -/
abbrev healthyVidiPr : Deployment := .vidiPr healthy exampleConfig

/-- Whether it is the request that opens the pull request. -/
def isOpened (request : WebhookRequest) : Bool := request = exampleDelivery "pull_request"

theorem eq_of_isOpened {request : WebhookRequest} (h : isOpened request = true) :
    request = exampleDelivery "pull_request" := of_decide_eq_true h

/-- A run in which the request that opens the pull request is the only one. -/
theorem exists_opened :
    ∃ s : Service healthyVidiPr,
      ReachableIf (fun _ ev => ev.StartsOnly (· = exampleDelivery "pull_request")) s ∧
      ∃ row ∈ s.world.db.committed.reviewsPosted, row.key = ("o/r", 7) ∧ row.headSha = "abc" := by
  obtain ⟨s, hs, htest⟩ := exists_of_schedule healthyResponder
    (fun _ ev => match ev with
      | .spawn _ request => isOpened request
      | _ => true)
    (P := fun _ ev => ev.StartsOnly (· = exampleDelivery "pull_request"))
    (fun _ ev h => by
      cases ev with
      | spawn n request => exact eq_of_isOpened h
      | _ => trivial) (({} : Memory), (0 : Nat))
    ([.start, .spawn 1 (exampleDelivery "pull_request")] ++ List.replicate 11 (.call 1 false) ++
      List.replicate 37 (.worker false))
    (fun (s : Service healthyVidiPr) => decide
      (∃ row ∈ s.world.db.committed.reviewsPosted, row.key = ("o/r", 7) ∧ row.headSha = "abc"))
    (by decide +kernel)
  exact ⟨s, hs, of_decide_eq_true htest⟩

/-- That review was asked for by that request. -/
theorem review_provenance_opened :
    ∃ (s : Service healthyVidiPr) (job : Job), job ∈ s.world.db.committed.jobs ∧
      job.key = ("o/r", 7) ∧ job.outcome.Reviewed ∧
      (exampleDelivery "pull_request").Asks "secret" (.ofConfig exampleConfig) job.args := by
  obtain ⟨s, hs, row, hrow, hkey, hhead⟩ := exists_opened
  obtain ⟨hjobs, hposted⟩ := review_provenance hs
  obtain ⟨job, hjob, hjobKey, -, hreviewed⟩ := hposted row hrow
  obtain ⟨request, rfl, hasks⟩ := hjobs job hjob
  exact ⟨s, job, hjob, hjobKey.trans hkey, hreviewed, hasks⟩

end Example

end VidiPr
