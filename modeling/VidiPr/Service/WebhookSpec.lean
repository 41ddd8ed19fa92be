import VidiPr.Orchestration.CommentTrigger
import VidiPr.Transport.Webhook

/-!
# The webhook beside other tasks

A webhook task commits at most twice: the row of its delivery, and a review. Its outline is
proved for every contract that permits these two changes, with a proposition `P` that must hold
where the row of the delivery was there before the task came.
-/

namespace VidiPr

open Effect Prog Text Relational

/-- The row of a delivery is there. -/
def Db.HasDelivery (db : Db) (deliveryId : String) : Prop :=
  ∃ delivery ∈ db.webhookDeliveries, delivery.deliveryId = deliveryId

/-- The delivery table has the row of `deliveryId`, and nothing else has changed. -/
structure DeliveryRecorded (deliveryId : String) (db db' : Db) : Prop where
  jobs : db'.jobs = db.jobs
  locks : db'.prLocks = db.prLocks
  reviews : db'.reviewsPosted = db.reviewsPosted
  recorded : db'.HasDelivery deliveryId
  others : ∀ other, other ≠ deliveryId → (db'.HasDelivery other ↔ db.HasDelivery other)

theorem deliveryRecorded_of_insert {delivery : WebhookDelivery} {db db' : Db} {written : Bool}
    (h : (Dml.insertDelivery delivery).apply db = (written, db')) :
    DeliveryRecorded delivery.deliveryId db db' ∧
      (written = false ↔ db.HasDelivery delivery.deliveryId) := by
  have htable : db'.webhookDeliveries = (db.webhookDeliveries.insertOrIgnore delivery).1 :=
    congrArg (fun r => r.2.webhookDeliveries) h.symm
  have hwritten : (db.webhookDeliveries.insertOrIgnore delivery).2 = written := congrArg Prod.fst h
  have hjobs : db'.jobs = db.jobs := congrArg (fun r => r.2.jobs) h.symm
  have hlocks : db'.prLocks = db.prLocks := congrArg (fun r => r.2.prLocks) h.symm
  have hreviews : db'.reviewsPosted = db.reviewsPosted :=
    congrArg (fun r => r.2.reviewsPosted) h.symm
  rcases db.webhookDeliveries.insertOrIgnore_cases delivery with
    ⟨hheld, heq⟩ | ⟨hnew, t, heq, hmem⟩
  · -- the row was there: nothing changes
    rw [heq] at htable hwritten
    have hsame : ∀ other, db'.HasDelivery other ↔ db.HasDelivery other := by
      intro other
      rw [Db.HasDelivery, Db.HasDelivery, htable]
    exact ⟨⟨hjobs, hlocks, hreviews, (hsame _).mpr hheld, fun other _ => hsame other⟩,
      fun _ => hheld, fun _ => hwritten.symm⟩
  · -- it was not: one row more
    rw [heq] at htable hwritten
    refine ⟨⟨hjobs, hlocks, hreviews, ⟨delivery, ?_, rfl⟩, fun other hne => ?_⟩, ?_⟩
    · rw [htable]
      exact (hmem delivery).mpr (Or.inr rfl)
    · simp only [Db.HasDelivery, htable, hmem]
      constructor
      · rintro ⟨row, hrow | rfl, hid⟩
        · exact ⟨row, hrow, hid⟩
        · exact absurd hid.symm hne
      · rintro ⟨row, hrow, hid⟩
        exact ⟨row, Or.inl hrow, hid⟩
    · rw [← hwritten]
      simpa [Db.HasDelivery] using hnew

/-- Locks and jobs are not touched. -/
theorem queueContract_recorded (deliveryId : String) :
    queueContract.Allows (DeliveryRecorded deliveryId) := by
  intro db db' hinv h
  refine ⟨LockInv.congr hinv h.jobs h.locks, ?_, ?_, ?_, h.reviews⟩
  · intro job hjob
    rwa [h.jobs]
  · intro job hjob
    rw [h.jobs] at hjob
    exact Or.inl hjob
  · intro lock hlock
    rwa [h.locks]

section Triples

variable {X : External} {K : StoreContract} {n : Nat}

/-- A task without a transaction is fresh, counted from now. -/
theorem fresh_of_idle {s : Sqlite} (h : Idle (.call n) s) : ∃ since, Fresh n since s :=
  ⟨s.log.length, h, Nat.le_refl _, by simp [Sqlite.committersSince]⟩

/-- A call of `try_enqueue_review` between other things. -/
theorem enqueue_idle {args : EnqueueArgs} (hK : K.Allows (Enqueued args)) :
    Triple (callSetting X n K) (onDb (Idle (.call n))) (Py.withSession (tryEnqueueReview args))
      fun _ => onDb (Idle (.call n)) := by
  have hidle : ∀ r : Except PyError (Option Job), (callSetting X n K).Stable
      (onDb (Idle (.call n))) := fun _ => stable_idle
  refine Triple.pre (A := fun w => ∃ since, onDb (Fresh n since) w) ?_ fun w _ hw =>
    fresh_of_idle hw
  refine .of_exists hidle fun since => ?_
  exact (enqueue_triple hK).conseq (fun _ _ h => h) (fun _ _ _ h => h.1) hidle

theorem new_yields (fetcher : RepoConfigFetcher) (defaults : DefaultsConfig) :
    (RepoConfigLoader.new fetcher defaults).Yields (fun _ _ => True) fun r =>
      ∀ loader, r = .ok loader → loader.fetcher = fetcher := by
  intro r _
  cases r with
  | error x => exact nofun
  | ok cache =>
    intro loader heq
    cases heq
    rfl

theorem onPullRequest_triple (hK : ∀ args, K.Allows (Enqueued args)) (event : PullRequestEvent) :
    Triple (callSetting X n K) (onDb (Idle (.call n))) (OrchestrationHandler.onPullRequest event)
      fun _ => onDb (Idle (.call n)) := by
  have hidle : ∀ r : Except PyError Unit, (callSetting X n K).Stable
      (onDb (Idle (.call n))) := fun _ => stable_idle
  unfold OrchestrationHandler.onPullRequest
  split
  · exact .ret hidle fun _ _ h => h
  split
  · exact .ret hidle fun _ _ h => h
  refine (call_ext stable_idle (Prog.calls_ofExcept _)).bind hidle (fun _ _ _ h => h) fun id _ => ?_
  exact (enqueue_idle (hK _)).bind hidle (fun _ _ _ h => h) fun _ _ => .ret hidle fun _ _ h => h

variable {P : Prop} {deliveryId : String}

/-- If the row of the delivery is there, `P` holds. -/
def KnownIf (P : Prop) (deliveryId : String) (s : Sqlite) : Prop :=
  s.committed.HasDelivery deliveryId → P

/-- The commits of others keep `KnownIf`. -/
def StoreContract.Keeps (K : StoreContract) (P : Prop) (deliveryId : String) : Prop :=
  ∀ db db', K.rely db db' → (db.HasDelivery deliveryId → P) → db'.HasDelivery deliveryId → P

theorem stable_knownIf (hP : K.Keeps P deliveryId) :
    (callSetting X n K).Stable (onDb fun s => Idle (.call n) s ∧ KnownIf P deliveryId s) := by
  rintro w w' ⟨hidle, hknown⟩ hi ⟨hactor, hrely⟩ hi'
  exact ⟨stable_idle w w' hidle hi ⟨hactor, hrely⟩ hi', hP _ _ hrely hknown⟩

/-- The row of the delivery, and whether it is new. -/
def DeliveryWritten (deliveryId : String) (isNew : Bool) (db db' : Db) : Prop :=
  DeliveryRecorded deliveryId db db' ∧ (isNew = false ↔ db.HasDelivery deliveryId)

/-- The row is written, or it was there and `P` holds. -/
theorem recordDelivery_triple (hP : K.Keeps P deliveryId) :
    Triple (callSetting X n K) (onDb fun s => Idle (.call n) s ∧ KnownIf P deliveryId s)
      (recordDelivery deliveryId) fun r w => ∀ isNew, r = .ok isNew →
        Pending n (DeliveryWritten deliveryId isNew) w.db ∧ (isNew = false → P) := by
  have hpost : ∀ r : Except PyError Bool, (callSetting X n K).Stable fun w => ∀ isNew,
      r = .ok isNew → Pending n (DeliveryWritten deliveryId isNew) w.db ∧ (isNew = false → P) :=
    fun r w w' h hi hr hi' isNew heq =>
      ⟨stable_pending w w' (h isNew heq).1 hi hr hi', (h isNew heq).2⟩
  refine (call_ext (stable_knownIf hP) utcnow_calls).bind hpost (by simp) fun now hA => ?_
  refine .perform hA hpost ?_
  rintro w r w' hi ⟨hidle, hknown⟩ hsem
  obtain ⟨hi', hg⟩ := call_keeps hsem (by simp) hi
  refine ⟨hi', hg, fun isNew heq => ?_⟩
  rcases dml_cases hsem with ⟨row, work, hr, hins, hdb⟩ | ⟨⟨m, hr⟩, _⟩
  · rw [heq] at hr
    cases hr
    rw [Sqlite.view_of_not_owns hidle] at hins
    have hwritten := deliveryRecorded_of_insert hins
    rw [hdb]
    exact ⟨⟨work, rfl, hwritten⟩, fun hfalse => hknown (hwritten.2.mp hfalse)⟩
  · rw [heq] at hr
    cases hr

section Receive

variable {secret : String} {request : WebhookRequest} {Q : Sqlite → Prop}

/-- What the commit of a new delivery of `request` establishes. -/
def Establishes (n : Nat) (request : WebhookRequest) (Q : Sqlite → Prop) : Prop :=
  ∀ deliveryId, request.deliveryId = some deliveryId → ∀ (s : Sqlite) (work : Db),
    DeliveryWritten deliveryId true s.committed work →
    Q { committed := work, tx := none, log := (.call n, s.committed) :: s.log }

/-- Up to the call of the handler: a delivery is dropped only where `P` holds, and the row of one
that is to be dispatched has been committed. -/
def Received (n : Nat) (P : Prop) (Q : Sqlite → Prop) (r : Except PyError (Option WebhookEvent))
    (s : Sqlite) : Prop :=
  ∀ event, r = .ok event →
    Idle (.call n) s ∧ (event = none → P) ∧ (event.isSome → Q s)

theorem stable_received (hQ : (callSetting X n K).Stable (onDb Q))
    (r : Except PyError (Option WebhookEvent)) :
    (callSetting X n K).Stable (onDb (Received n P Q r)) := by
  intro w w' h hi hrely hi' event heq
  obtain ⟨hidle, hnone, hsome⟩ := h event heq
  exact ⟨stable_idle w w' hidle hi hrely hi', hnone, fun hev => hQ w w' (hsome hev) hi hrely hi'⟩

variable [WebhookLibrary]

theorem acceptDelivery_triple (hRecord : K.Allows (DeliveryRecorded deliveryId))
    (hP : K.Keeps P deliveryId) (hQ : (callSetting X n K).Stable (onDb Q))
    (hest : Establishes n request Q) (hid : request.deliveryId = some deliveryId)
    (eventType : String) :
    Triple (callSetting X n K) (onDb fun s => Idle (.call n) s ∧ KnownIf P deliveryId s)
      (Webhook.acceptDelivery request eventType deliveryId) fun r => onDb (Received n P Q r) := by
  have hpost := fun r => stable_received (X := X) (K := K) (n := n) (P := P) hQ r
  have hx : ∀ {x : PyError} {s : Sqlite}, Received n P Q (.error x) s := fun _ h => by cases h
  refine (recordDelivery_triple hP).bind hpost (fun _ _ _ _ => hx) fun isNew hA => ?_
  -- whether the row was there is settled before the commit
  refine Triple.pre (A := fun w => (isNew = false → P) ∧
    onDb (Pending n (DeliveryWritten deliveryId isNew)) w) (.of_pure hpost fun hnew => ?_)
    fun w _ hw => ⟨(hw isNew rfl).2, (hw isNew rfl).1⟩
  have hallows : K.Allows (DeliveryWritten deliveryId isNew) :=
    fun db db' hinv h => hRecord db db' hinv h.1
  refine (commit_establishes (Q := fun s => isNew = true → Q s) hallows (stable_if hQ) ?_).bind
    hpost (fun _ _ _ _ => hx) fun _ _ => ?_
  · intro s work h htrue
    rw [htrue] at h
    exact hest deliveryId hid s work h
  cases isNew with
  | false =>
    refine .ret hpost fun w _ hw event heq => ?_
    cases heq
    exact ⟨(hw rfl).1, fun _ => hnew rfl, nofun⟩
  | true =>
    have hA' : ∀ _ : Except PyError Unit, (callSetting X n K).Stable fun w : World X =>
        Idle (.call n) w.db ∧ Q w.db := fun _ => stable_idle.and hQ
    refine Triple.pre (A := onDb fun s => Idle (.call n) s ∧ Q s) ?_
      fun w _ hw => ⟨(hw rfl).1, (hw rfl).2 rfl⟩
    refine (call_ext (hA' (.ok ())) (Prog.calls_ofExcept _)).bind hpost (fun _ _ _ _ => hx)
      fun event _ => ?_
    refine .ret hpost fun w _ hw event' heq => ?_
    cases heq
    exact ⟨hw.1, nofun, fun _ => hw.2⟩

theorem receive_triple
    (hRecord : ∀ id, request.deliveryId = some id → K.Allows (DeliveryRecorded id))
    (hP : ∀ id, request.deliveryId = some id → K.Keeps P id)
    (hQ : (callSetting X n K).Stable (onDb Q)) (hest : Establishes n request Q) :
    Triple (callSetting X n K)
      (onDb fun s => Idle (.call n) s ∧ ∀ id, request.deliveryId = some id → KnownIf P id s)
      (Webhook.receive secret request) fun r => onDb (Received n P Q r) := by
  have hpost := fun r => stable_received (X := X) (K := K) (n := n) (P := P) hQ r
  have hthrow : ∀ {A : World X → Prop} (x : PyError),
      Triple (callSetting X n K) A (Py.throw x) fun r => onDb (Received n P Q r) :=
    fun x => .raise hpost fun _ _ _ _ h => by cases h
  unfold Webhook.receive
  split
  · exact hthrow _
  · exact hthrow _
  · exact hthrow _
  · rename_i signature eventType id _ _ hid
    split
    · exact hthrow _
    · exact (acceptDelivery_triple (hRecord id hid) (hP id hid) hQ hest hid eventType).pre
        fun _ _ hs => ⟨hs.1, hs.2 id hid⟩

end Receive

section Handlers

variable [UnicodeDb] [ConfigLibrary]

theorem onIssueComment_triple (hK : ∀ args, K.Allows (Enqueued args))
    (handler : OrchestrationHandler) (event : IssueCommentEvent) :
    Triple (callSetting X n K) (onDb (Idle (.call n))) (handler.onIssueComment event)
      fun _ => onDb (Idle (.call n)) := by
  have hidle : ∀ r : Except PyError Unit, (callSetting X n K).Stable
      (onDb (Idle (.call n))) := fun _ => stable_idle
  have hreturn : Triple (callSetting X n K) (onDb (Idle (.call n))) (.ret ())
      fun _ => onDb (Idle (.call n)) := .ret hidle fun _ _ h => h
  unfold OrchestrationHandler.onIssueComment
  split
  · exact hreturn
  split
  · exact hreturn
  split
  · exact hreturn
  split
  · exact hreturn
  refine (call_ext stable_idle (Prog.calls_ofExcept _)).bind hidle (fun _ _ _ h => h) fun id _ => ?_
  refine (call_ext stable_idle (getPr_isExt ..)).bind hidle (fun _ _ _ h => h) fun pr _ => ?_
  -- the loader reads from GitHub, so its load does not use the database
  refine (call_ext_yields stable_idle (new_isExt ..) (new_yields _ _)).bind hidle
    (fun _ _ _ h => h.2)
    fun loader _ => ?_
  refine .of_pure hidle fun hloader => ?_
  refine (call_ext stable_idle (load_isExt (hloader loader rfl) ..)).bind hidle
    (fun _ _ _ h => h) fun repoConfig _ => ?_
  unfold OrchestrationHandler.actOnComment
  split
  · exact hreturn
  split
  · exact call_ext stable_idle (react_isExt ..)
  refine (call_ext stable_idle (react_isExt ..)).bind hidle (fun _ _ _ h => h) fun _ _ => ?_
  exact (enqueue_idle (hK _)).bind hidle (fun _ _ _ h => h) fun _ _ => hreturn

theorem dispatch_triple (hK : ∀ args, K.Allows (Enqueued args)) (handler : OrchestrationHandler)
    (event : WebhookEvent) :
    Triple (callSetting X n K) (onDb (Idle (.call n)))
      (Webhook.dispatch handler.eventHandler event) fun _ => onDb (Idle (.call n)) := by
  cases event with
  | pullRequest event => exact onPullRequest_triple hK event
  | issueComment event => exact onIssueComment_triple hK handler event
  | other => exact .ret (fun _ => stable_idle) fun _ _ h => h

variable [WebhookLibrary] {secret : String} {handler : OrchestrationHandler}
  {request : WebhookRequest}

/-- What `process_webhook` owes to its caller. -/
theorem processWebhook_triple (hEnqueue : ∀ args, K.Allows (Enqueued args))
    (hRecord : ∀ id, request.deliveryId = some id → K.Allows (DeliveryRecorded id))
    (hP : ∀ id, request.deliveryId = some id → K.Keeps P id) :
    Triple (callSetting X n K)
      (onDb fun s => Idle (.call n) s ∧ ∀ id, request.deliveryId = some id → KnownIf P id s)
      (Webhook.processWebhook secret handler.eventHandler request)
      fun r _ => r = .ok false → P := by
  have hpost : ∀ r : Except PyError Bool, (callSetting X n K).Stable fun _ => r = .ok false → P :=
    fun r => Setting.stable_const _
  rw [Webhook.processWebhook_eq]
  refine (receive_triple (Q := fun _ => True) hRecord hP (Setting.stable_const _)
    fun _ _ _ _ _ => trivial).bind hpost (by simp) fun event _ => ?_
  cases event with
  | none => exact .ret hpost fun _ _ hw _ => (hw none rfl).2.1 rfl
  | some event =>
    refine Triple.bind (B := fun _ => onDb (Idle (.call n))) ?_ hpost (by simp) fun _ _ =>
      .ret hpost (by simp)
    exact (dispatch_triple hEnqueue handler event).pre fun w _ hw => (hw _ rfl).1

/-- The endpoint answers 202 only where `P` holds, and leaves no transaction. -/
theorem webhook_triple (hEnqueue : ∀ args, K.Allows (Enqueued args))
    (hRecord : ∀ id, request.deliveryId = some id → K.Allows (DeliveryRecorded id))
    (hP : ∀ id, request.deliveryId = some id → K.Keeps P id) :
    Triple (callSetting X n K)
      (onDb fun s => Idle (.call n) s ∧ ∀ id, request.deliveryId = some id → KnownIf P id s)
      (Webhook.webhook secret handler.eventHandler request)
      fun r => onDb fun s => Idle (.call n) s ∧ (r = .ok 202 → P) := by
  have hpost : ∀ r : Except PyError Nat, (callSetting X n K).Stable
      (onDb fun s => Idle (.call n) s ∧ (r = .ok 202 → P)) :=
    fun r => stable_idle.and (Setting.stable_const _)
  have hsession : ∀ r : Except PyError Bool, (callSetting X n K).Stable
      (onDb fun s => Idle (.call n) s ∧ (r = .ok false → P)) :=
    fun r => stable_idle.and (Setting.stable_const _)
  rw [Webhook.webhook_eq]
  split
  · rename_i status hstatus
    refine .ret hpost fun _ _ hs => ⟨hs.1, fun h202 => ?_⟩
    exact absurd (Except.ok.inj h202) (Webhook.refusal_ne hstatus)
  -- the session is closed before the answer is made
  have hclosed : Triple (callSetting X n K)
      (onDb fun s => Idle (.call n) s ∧ ∀ id, request.deliveryId = some id → KnownIf P id s)
      (Py.withSession (Webhook.processWebhook secret handler.eventHandler request))
      fun r => onDb fun s => Idle (.call n) s ∧ (r = .ok false → P) := by
    refine (processWebhook_triple hEnqueue hRecord hP).finally' hsession fun r => ?_
    exact (rollback_triple (A := fun _ => r = .ok false → P) (Setting.stable_const _)
      fun _ h => h).conseq (fun _ _ h => h) (fun _ _ _ h => h)
      fun r' => (Setting.stable_const _).and (hsession r)
  refine hclosed.andThen hpost fun r => ?_
  exact .ofExcept hpost fun _ _ hs => ⟨hs.1, fun h202 => hs.2 (Webhook.answer_eq_202 h202)⟩

end Handlers

end Triples

end VidiPr
