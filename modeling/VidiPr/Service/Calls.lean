import VidiPr.Orchestration.Locks
import VidiPr.Service.Semantics
import VidiPr.Storage.LockInvariant

/-!
# Tasks beside the worker

What a task other than the worker owes to the store is a contract (`StoreContract`): what it may
assume of every committed store, and what its own commits may do. `tryEnqueueReview` is verified
for every contract that allows it to add a job with its lock, one triple for each of its
statements, with any number of other tasks, the worker and recovery stepping in between. The
contract of the service is `queueContract`.
-/

namespace VidiPr

open Effect Prog

namespace Sqlite

/-- The committed contents since the history had length `since`, newest first. -/
def statesSince (s : Sqlite) (since : Nat) : List Db :=
  s.committed :: (s.log.take (s.log.length - since)).map (·.2)

/-- Who committed since the history had length `since`. -/
def committersSince (s : Sqlite) (since : Nat) : List Actor :=
  (s.log.take (s.log.length - since)).map (·.1)

end Sqlite

/-- What one step of an actor does to the two windows on the history: what was committed since a
point in time stays, and what is new was committed by the actor. -/
theorem ActorStep.window {a : Actor} {s s' : Sqlite} (h : ActorStep a s s') {since : Nat}
    (hsince : since ≤ s.log.length) :
    since ≤ s'.log.length ∧ (∀ db ∈ s.statesSince since, db ∈ s'.statesSince since) ∧
      ∀ b ∈ s'.committersSince since, b = a ∨ b ∈ s.committersSince since := by
  rcases h.log with ⟨hlog, hcommitted⟩ | hlog
  · -- nothing was committed
    refine ⟨by rw [hlog]; exact hsince, ?_, ?_⟩
    · intro db hdb
      simpa only [Sqlite.statesSince, hlog, hcommitted] using hdb
    · intro b hb
      right
      simpa only [Sqlite.committersSince, hlog] using hb
  · -- one more commit, at the front of the log
    have hlen : s'.log.length - since = (s.log.length - since) + 1 := by
      rw [hlog, List.length_cons]
      omega
    refine ⟨by rw [hlog, List.length_cons]; omega, ?_, ?_⟩
    · intro db hdb
      have hwindow : (s'.log.take (s'.log.length - since)).map (·.2) = s.statesSince since := by
        rw [hlen, hlog, List.take_succ_cons, List.map_cons]
        rfl
      rw [Sqlite.statesSince, hwindow]
      exact List.mem_cons_of_mem _ hdb
    · intro b hb
      rw [Sqlite.committersSince, hlen, hlog, List.take_succ_cons, List.map_cons,
        List.mem_cons] at hb
      exact hb

/-! ## The setting of a task -/

/-- What a task may assume of a committed store, what a commit of it may do, and what it may
assume of the commits of others. -/
structure StoreContract where
  inv : Db → Prop
  guar : Db → Db → Prop
  refl : ∀ db, guar db db
  rely : Db → Db → Prop := fun _ _ => True

/-- A change the contract permits. -/
def StoreContract.Allows (K : StoreContract) (change : Db → Db → Prop) : Prop :=
  ∀ db db', K.inv db → change db db' → K.inv db' ∧ K.guar db db'

/-- The contract of the service: locks and unfinished jobs correspond, and tasks beside the worker
only add pending jobs and locks. -/
def queueContract : StoreContract where
  inv := LockInv
  guar := Db.Grows
  refl := Db.Grows.refl

theorem queueContract_enqueued (args : EnqueueArgs) : queueContract.Allows (Enqueued args) :=
  fun _ _ hinv h => ⟨h.lockInv hinv, h.grows⟩

section Setting

variable {X : External} {K : StoreContract}

/-- Task `n` beside any other actors. -/
def callSetting (X : External) (n : Nat) (K : StoreContract) :
    Setting Req Req.Resp PyError (World X) where
  sem := sem X (.call n)
  inv w := K.inv w.db.committed
  rely w w' := (∃ a, a ≠ .call n ∧ ActorStep a w.db w'.db) ∧
    K.rely w.db.committed w'.db.committed
  guar w w' := K.guar w.db.committed w'.db.committed

/-- An assertion about the store. -/
def onDb (A : Sqlite → Prop) (w : World X) : Prop := A w.db

/-- Actor `a` has no open transaction. -/
def Idle (a : Actor) (s : Sqlite) : Prop := ¬ s.Owns a

/-- Task `n` has committed nothing since the history had length `since`. -/
def Quiet (n since : Nat) (s : Sqlite) : Prop :=
  since ≤ s.log.length ∧ .call n ∉ s.committersSince since

/-- Since then the lock of `key` was held in some committed state. -/
def SeenLocked (K : StoreContract) (since : Nat) (key : PrKey) (s : Sqlite) : Prop :=
  ∃ db ∈ s.statesSince since, K.inv db ∧ ∃ lock ∈ db.prLocks, lock.key = key

variable {n since : Nat} {key : PrKey}

theorem stable_idle : (callSetting X n K).Stable (onDb (Idle (.call n))) := by
  rintro w w' h _ ⟨⟨a, hne, hstep⟩, _⟩ _
  exact hstep.not_owns hne h

theorem stable_quiet : (callSetting X n K).Stable (onDb (Quiet n since)) := by
  rintro w w' ⟨hlen, hquiet⟩ _ ⟨⟨a, hne, hstep⟩, _⟩ _
  obtain ⟨hlen', _, hcommitters⟩ := hstep.window hlen
  refine ⟨hlen', fun hmem => ?_⟩
  rcases hcommitters _ hmem with heq | hold
  · exact hne heq.symm
  · exact hquiet hold

theorem stable_seenLocked :
    (callSetting X n K).Stable (onDb fun s => Quiet n since s ∧ SeenLocked K since key s) := by
  rintro w w' ⟨hquiet, db, hdb, hlocked⟩ hi ⟨⟨a, hne, hstep⟩, hrely⟩ hi'
  refine ⟨stable_quiet w w' hquiet hi ⟨⟨a, hne, hstep⟩, hrely⟩ hi', db, ?_, hlocked⟩
  exact (hstep.window hquiet.1).2.1 db hdb

/-- While task `n` holds the write lock, nobody else changes the store at all. -/
theorem stable_of_owns {A : Sqlite → Prop} (hA : ∀ s, A s → s.Owns (.call n)) :
    (callSetting X n K).Stable (onDb A) := by
  rintro w w' h _ ⟨⟨a, hne, hstep⟩, _⟩ _
  have hsame : w'.db = w.db := hstep.frame hne (hA _ h)
  unfold onDb
  rwa [hsame]

theorem stable_if {P : Prop} {A : World X → Prop} (hA : (callSetting X n K).Stable A) :
    (callSetting X n K).Stable fun w => P → A w :=
  fun w w' h hi hr hi' hP => hA w w' (h hP) hi hr hi'

/-- Only a commit changes what is committed. -/
theorem committed_of_sem {a : Actor} {e : Req} {w w' : World X} {r : Except PyError e.Resp}
    (h : sem X a e w r w') (hne : e ≠ .sql .commit) : w'.db.committed = w.db.committed := by
  cases e with
  | ext e => rw [h.2]
  | sql q =>
    cases q with
    | query q => rcases h.1 with ⟨_, hs⟩ | ⟨_, hs⟩ <;> rw [hs]
    | dml d => rcases h.1 with ⟨_, _, hs⟩ | ⟨_, hs⟩ <;> rw [hs]
    | commit => exact absurd rfl hne
    | rollback =>
      obtain ⟨⟨_, hs⟩, _⟩ := h
      rw [hs, Sqlite.rollback_committed]

/-- A request that commits nothing keeps the invariant and the guarantee. -/
theorem call_keeps {e : Req} {w w' : World X} {r : Except PyError e.Resp}
    (h : (callSetting X n K).sem e w r w') (hne : e ≠ .sql .commit)
    (hi : (callSetting X n K).inv w) :
    (callSetting X n K).inv w' ∧ (callSetting X n K).guar w w' := by
  have hsame : w'.db.committed = w.db.committed := committed_of_sem h hne
  simp only [callSetting, hsame]
  exact ⟨hi, K.refl _⟩

/-- A program that never uses the database keeps every stable assertion about the store, and ends
as its answers make it. -/
theorem call_ext_yields {α : Type} {A : Sqlite → Prop} {Y : Except PyError α → Prop}
    (hA : (callSetting X n K).Stable (onDb A)) {p : Py α} (hp : p.Calls Req.IsExt)
    (hy : p.Yields (fun _ _ => True) Y) :
    Triple (callSetting X n K) (onDb A) p fun r w => Y r ∧ onDb A w := by
  refine Triple.of_calls hA ?_ hp hy
  intro e he w r w' hi hs hsem
  cases e with
  | sql q => exact absurd he id
  | ext e =>
    obtain ⟨hi', hg⟩ := call_keeps hsem (by simp) hi
    refine ⟨hi', hg, trivial, ?_⟩
    unfold onDb
    rw [hsem.2]
    exact hs

theorem call_ext {α : Type} {A : Sqlite → Prop} (hA : (callSetting X n K).Stable (onDb A))
    {p : Py α} (hp : p.Calls Req.IsExt) :
    Triple (callSetting X n K) (onDb A) p fun _ => onDb A :=
  (call_ext_yields hA hp p.yields_true).conseq (fun _ _ h => h) (fun _ _ _ h => h.2) fun _ => hA

theorem utcnow_calls : Py.utcnow.Calls Req.IsExt := calls_perform trivial

/-- A DML statement of a task that is refused, or leaves the task with the write lock. -/
theorem dml_cases {a : Actor} {d : Dml} {w w' : World X} {r : Except PyError d.Resp}
    (h : sem X a (.sql (.dml d)) w r w') :
    (∃ row work, r = .ok row ∧ d.apply (w.db.view a) = (row, work) ∧
      w'.db = { w.db with tx := some (a, work) }) ∨
    ((∃ m, r = .error (.other m)) ∧ w'.db = w.db) := by
  rcases h.1 with ⟨_, hr, hdb⟩ | hfault
  · exact Or.inl ⟨_, _, hr, rfl, hdb⟩
  · exact Or.inr hfault

/-- The task has an open transaction whose copy is a change of the committed store. -/
def Pending (n : Nat) (change : Db → Db → Prop) (s : Sqlite) : Prop :=
  ∃ work, s.tx = some (.call n, work) ∧ change s.committed work

theorem stable_pending {change : Db → Db → Prop} :
    (callSetting X n K).Stable (onDb (Pending n change)) :=
  stable_of_owns fun _ ⟨work, htx, _⟩ => ⟨work, htx⟩

/-- The commit of a change the contract allows, with what it establishes. -/
theorem commit_establishes {change : Db → Db → Prop} {Q : Sqlite → Prop} (hK : K.Allows change)
    (hQ : (callSetting X n K).Stable (onDb Q))
    (hcommit : ∀ (s : Sqlite) (work : Db), change s.committed work →
      Q { committed := work, tx := none, log := (.call n, s.committed) :: s.log }) :
    Triple (callSetting X n K) (onDb (Pending n change)) Py.commit fun r w =>
      r = .ok () → Idle (.call n) w.db ∧ Q w.db := by
  refine .perform stable_pending (fun _ => stable_if (stable_idle.and hQ)) ?_
  rintro w r w' hi ⟨work, htx, hchange⟩ hsem
  obtain ⟨hinv, hguar⟩ := hK _ _ hi hchange
  rcases hsem.1 with ⟨_, hdb⟩ | ⟨⟨_, hr⟩, hdb⟩
  · rw [Sqlite.commit_of_tx htx] at hdb
    simp only [callSetting, hdb]
    exact ⟨hinv, hguar, fun _ => ⟨by simp [Idle, Sqlite.Owns], hcommit _ _ hchange⟩⟩
  · simp only [callSetting, hdb]
    refine ⟨hi, K.refl _, fun hok => ?_⟩
    rw [hr] at hok
    cases hok

/-- The commit of a change the contract allows. -/
theorem commit_triple {change : Db → Db → Prop} (hK : K.Allows change) :
    Triple (callSetting X n K) (onDb (Pending n change)) Py.commit fun r w =>
      r = .ok () → Idle (.call n) w.db :=
  (commit_establishes (Q := fun _ => True) hK (Setting.stable_const _) fun _ _ _ => trivial).conseq
    (fun _ _ h => h) (fun _ _ _ h hr => (h hr).1) fun _ => stable_if stable_idle

/-- A rollback leaves the task without a transaction and the history as it was. -/
theorem rollback_triple {A : Sqlite → Prop} (hA : (callSetting X n K).Stable (onDb A))
    (hroll : ∀ s, A s → A (s.rollback (.call n))) :
    Triple (callSetting X n K) (onDb A) Py.rollback fun r w =>
      r = .ok () ∧ Idle (.call n) w.db ∧ A w.db := by
  refine .perform hA (fun r => (Setting.stable_const _).and (stable_idle.and hA)) ?_
  intro w r w' hi hs hsem
  obtain ⟨hi', hg⟩ := call_keeps hsem (by simp) hi
  obtain ⟨⟨hr, hdb⟩, _⟩ := hsem
  refine ⟨hi', hg, hr, ?_, ?_⟩
  · rw [Idle, hdb]
    exact Sqlite.not_owns_rollback _ _
  · rw [hdb]
    exact hroll _ hs

end Setting

/-! ## `try_enqueue_review` -/

section Enqueue

variable {X : External} {K : StoreContract} {n since : Nat} {args : EnqueueArgs}

/-- Nothing has been written yet. -/
def Fresh (n since : Nat) (s : Sqlite) : Prop := Idle (.call n) s ∧ Quiet n since s

/-- The call was refused: it has committed nothing and met another lock. -/
def Refused (K : StoreContract) (n since : Nat) (key : PrKey) (s : Sqlite) : Prop :=
  Quiet n since s ∧ SeenLocked K since key s

/-- The job row is written, not committed. -/
def Inserted (n since : Nat) (args : EnqueueArgs) (row : Job) (s : Sqlite) : Prop :=
  Quiet n since s ∧ Pending n (fun db work => ∃ job, JobFor args job ∧
    (Dml.insertJob job).apply db = (row, work)) s

/-- What a call of `try_enqueue_review` leaves. -/
def EnqueuePost (K : StoreContract) (n since : Nat) (args : EnqueueArgs)
    (r : Except PyError (Option Job)) (s : Sqlite) : Prop :=
  Idle (.call n) s ∧ (r = .ok none → Refused K n since args.key s)

theorem stable_fresh : (callSetting X n K).Stable (onDb (Fresh n since)) :=
  stable_idle.and stable_quiet

theorem stable_refused {key : PrKey} :
    (callSetting X n K).Stable (onDb (Refused K n since key)) :=
  stable_seenLocked

theorem stable_inserted {row : Job} :
    (callSetting X n K).Stable (onDb (Inserted n since args row)) :=
  stable_quiet.and stable_pending

/-- A task that reads while it has no transaction reads what is committed. -/
theorem fetchLock_triple {repo : String} {prNumber : Nat} :
    Triple (callSetting X n K) (onDb (Fresh n since)) (fetchLock repo prNumber) fun r w =>
      Fresh n since w.db ∧
        ((∃ lock, r = .ok (some lock)) → Refused K n since (repo, prNumber) w.db) := by
  refine .perform stable_fresh (fun r => stable_fresh.and (stable_if stable_refused)) ?_
  intro w r w' hi hs hsem
  obtain ⟨hi', hg⟩ := call_keeps hsem (by simp) hi
  refine ⟨hi', hg, ?_⟩
  rcases hsem.1 with ⟨hr, hdb⟩ | ⟨⟨m, hr⟩, hdb⟩
  · rw [hdb]
    refine ⟨hs, ?_⟩
    rintro ⟨lock, hlock⟩
    have hget : w.db.committed.prLocks.get? (repo, prNumber) = some lock := by
      rw [hr, Sqlite.view_of_not_owns hs.1] at hlock
      exact Except.ok.inj hlock
    obtain ⟨hmem, hkey⟩ := Relational.Table.get?_eq_some.mp hget
    exact ⟨hs.2, w.db.committed, List.mem_cons_self, hi, lock, hmem, hkey⟩
  · rw [hdb]
    refine ⟨hs, ?_⟩
    rintro ⟨lock, hlock⟩
    rw [hr] at hlock
    cases hlock

theorem insertJob_triple :
    Triple (callSetting X n K) (onDb (Fresh n since))
      (insertJob .review args.installationId args.repo args.prNumber args.headSha
        args.triggerKind args.extraContext)
      fun r w => ∀ row, r = .ok row → Inserted n since args row w.db := by
  have hpost : ∀ r : Except PyError Job, (callSetting X n K).Stable fun w =>
      ∀ row, r = .ok row → Inserted n since args row w.db :=
    fun r w w' h hi hr hi' row hrow => stable_inserted w w' (h row hrow) hi hr hi'
  refine (call_ext stable_fresh utcnow_calls).bind hpost (by simp) fun now hA => ?_
  refine .perform hA hpost ?_
  intro w r w' hi hs hsem
  obtain ⟨hi', hg⟩ := call_keeps hsem (by simp) hi
  refine ⟨hi', hg, fun row hrow => ?_⟩
  rcases dml_cases hsem with ⟨row', work, hr, hins, hdb⟩ | ⟨⟨m, hr⟩, _⟩
  · rw [hrow] at hr
    cases hr
    rw [Sqlite.view_of_not_owns hs.1] at hins
    rw [hdb]
    exact ⟨hs.2, work, rfl, _, ⟨rfl, rfl, rfl, rfl, rfl, rfl, rfl⟩, hins⟩
  · rw [hrow] at hr
    cases hr

theorem acquireLock_triple {row : Job} :
    Triple (callSetting X n K) (onDb (Inserted n since args row))
      (acquireLock args.repo args.prNumber row.id) fun r w =>
        (r = .ok true → Pending n (Enqueued args) w.db) ∧
        (r = .ok false → Refused K n since args.key w.db) := by
  have hpost : ∀ r : Except PyError Bool, (callSetting X n K).Stable fun w =>
      (r = .ok true → Pending n (Enqueued args) w.db) ∧
      (r = .ok false → Refused K n since args.key w.db) :=
    fun r => (stable_if stable_pending).and (stable_if stable_refused)
  -- the time first
  refine (call_ext stable_inserted utcnow_calls).bind hpost (by simp) fun now hA => ?_
  refine .perform hA hpost ?_
  intro w r w' hi hs hsem
  obtain ⟨hi', hg⟩ := call_keeps hsem (by simp) hi
  refine ⟨hi', hg, ?_⟩
  obtain ⟨hquiet, work, htx, job, hjob, hins⟩ := hs
  rcases dml_cases hsem with ⟨written, work', hr, hlock, hdb⟩ | ⟨⟨m, hr⟩, _⟩
  · -- the insert was answered: with one row, or with none as the lock was there
    rw [Sqlite.view_of_tx htx] at hlock
    rw [hr, hdb]
    constructor
    · intro htrue
      cases htrue
      exact ⟨work', rfl, enqueued_of_inserts hjob hins hlock⟩
    · intro hfalse
      cases hfalse
      obtain ⟨lock, hmem, hkey⟩ := locked_of_refused hins hlock
      exact ⟨hquiet, w.db.committed, List.mem_cons_self, hi, lock, hmem, hkey⟩
  · -- the insert failed, and `acquire_lock` raises
    rw [hr]
    simp

theorem refused_rollback {key : PrKey} {s : Sqlite} (h : Refused K n since key s) (a : Actor) :
    Refused K n since key (s.rollback a) := by
  simpa only [Refused, Quiet, SeenLocked, Sqlite.statesSince, Sqlite.committersSince,
    Sqlite.rollback_log, Sqlite.rollback_committed] using h

/-- The body of `try_enqueue_review`: it returns `None` only after it met another lock. -/
theorem tryEnqueueReview_triple (hK : K.Allows (Enqueued args)) :
    Triple (callSetting X n K) (onDb (Fresh n since)) (tryEnqueueReview args) fun r w =>
      r = .ok none → Refused K n since args.key w.db := by
  have hpost : ∀ r : Except PyError (Option Job), (callSetting X n K).Stable fun w =>
      r = .ok none → Refused K n since args.key w.db := fun r => stable_if stable_refused
  refine fetchLock_triple.bind hpost (by simp) fun existing _ => ?_
  cases existing with
  | some lock => exact .ret hpost fun w _ hs _ => hs.2 ⟨lock, rfl⟩
  | none =>
    refine (insertJob_triple.pre fun w _ hs => hs.1).bind hpost (by simp) fun row _ => ?_
    refine (acquireLock_triple.pre fun w _ hs => hs row rfl).bind hpost (by simp)
      fun acquired _ => ?_
    cases acquired with
    | true =>
      refine ((commit_triple hK).pre fun w _ hs => hs.1 rfl).bind hpost (by simp) fun _ _ => ?_
      exact .ret hpost (by simp)
    | false =>
      refine ((rollback_triple stable_refused fun s h => refused_rollback h _).pre
        fun w _ hs => hs.2 rfl).bind hpost (by simp) fun _ _ => ?_
      exact .ret hpost fun w _ hs _ => hs.2.2

/-- A call of `try_enqueue_review` in a session of its own. -/
theorem enqueue_triple (hK : K.Allows (Enqueued args)) :
    Triple (callSetting X n K) (onDb (Fresh n since)) (Py.withSession (tryEnqueueReview args))
      fun r => onDb (EnqueuePost K n since args r) := by
  have hpost : ∀ r : Except PyError (Option Job), (callSetting X n K).Stable
      (onDb (EnqueuePost K n since args r)) := fun r => stable_idle.and (stable_if stable_refused)
  refine (tryEnqueueReview_triple hK).finally' hpost fun r => ?_
  refine (rollback_triple (A := fun s => r = .ok none → Refused K n since args.key s)
    (stable_if stable_refused) fun s h hr => refused_rollback (h hr) _).conseq
    (fun _ _ h => h) (fun _ w _ h => h) fun r' => (Setting.stable_const _).and (hpost r)

end Enqueue

end VidiPr
