import VidiPr.Service.Provenance

/-!
# The receiver inside the service

`Receiver` looks at the attempts to handle a delivery phase by phase, beside a worker of which it
only knows that it records no delivery. `Deployment.vidiPr` runs the whole route as one task of the
service, beside the worker itself. The second is an instance of the first.

* **`Mirrors`** — a receiver in the same world as the service, with an attempt for every request in
  progress. Requests may be numbered anew after a crash and attempts never are, so the attempts have
  names of their own; the histories of the two stores differ in these names only.
* **`mirrors_step`** — every step of the service is a few steps of the receiver.
* **`receiver_of_reachable`** — every state of the service is one of the receiver, so that what
  holds of the receiver holds of the service (`unauthentic_asks_nothing`).
-/

namespace VidiPr

open Effect Prog Text Service
open Webhook (Phase)

/-! ## Names of actors -/

/-- The actors of the service under the names they have in the receiver. -/
def rename (name : Nat → Nat) : Actor → Actor
  | .worker => .worker
  | .call n => .call (name n)

/-- The same store, with its open transaction under another name. -/
structure Alike (name : Nat → Nat) (s t : Sqlite) : Prop where
  committed : t.committed = s.committed
  tx : t.tx = s.tx.map fun open' => (rename name open'.1, open'.2)

section Rename

variable {name : Nat → Nat} {a : Actor} {s s' t : Sqlite}

/-- The name of `a` is not that of another actor with an open transaction. -/
def NamedApart (name : Nat → Nat) (a : Actor) (s : Sqlite) : Prop :=
  ∀ owner work, s.tx = some (owner, work) → rename name owner = rename name a → owner = a

theorem Alike.view (h : Alike name s t) (hname : NamedApart name a s) :
    t.view (rename name a) = s.view a := by
  unfold Sqlite.view
  rw [h.tx, h.committed]
  cases htx : s.tx with
  | none => rfl
  | some open' =>
    obtain ⟨owner, work⟩ := open'
    simp only [Option.map_some]
    by_cases heq : owner = a
    · rw [if_pos (congrArg (rename name) heq), if_pos heq]
    · rw [if_neg fun hsame => heq (hname owner work htx hsame), if_neg heq]

theorem Alike.commit (h : Alike name s t) (hname : NamedApart name a s) :
    Alike name (s.commit a) (t.commit (rename name a)) := by
  unfold Sqlite.commit
  rw [h.tx]
  cases htx : s.tx with
  | none => exact h
  | some open' =>
    obtain ⟨owner, work⟩ := open'
    simp only [Option.map_some]
    by_cases heq : owner = a
    · rw [if_pos (congrArg (rename name) heq), if_pos heq]
      exact ⟨rfl, rfl⟩
    · rw [if_neg fun hsame => heq (hname owner work htx hsame), if_neg heq]
      exact h

theorem Alike.rollback (h : Alike name s t) (hname : NamedApart name a s) :
    Alike name (s.rollback a) (t.rollback (rename name a)) := by
  unfold Sqlite.rollback
  rw [h.tx]
  cases htx : s.tx with
  | none => exact h
  | some open' =>
    obtain ⟨owner, work⟩ := open'
    simp only [Option.map_some]
    by_cases heq : owner = a
    · rw [if_pos (congrArg (rename name) heq), if_pos heq]
      exact ⟨h.committed, rfl⟩
    · rw [if_neg fun hsame => heq (hname owner work htx hsame), if_neg heq]
      exact h

/-- A statement has the same answer under the other name. -/
theorem Alike.statement (h : Alike name s t) (hname : NamedApart name a s) {q : Sql}
    {r : Except PyError q.Resp} (hsem : sqlSem a q s r s') :
    ∃ t', sqlSem (rename name a) q t r t' ∧ Alike name s' t' := by
  cases q with
  -- reading: both see the same
  | query q =>
    rcases hsem with ⟨hr, rfl⟩ | ⟨hfault, rfl⟩
    · exact ⟨t, Or.inl ⟨by rw [h.view hname]; exact hr, rfl⟩, h⟩
    · exact ⟨t, Or.inr ⟨hfault, rfl⟩, h⟩
  | dml d =>
    rcases hsem with ⟨hfree, hr, rfl⟩ | ⟨hfault, rfl⟩
    · refine ⟨{ t with tx := some (rename name a, (d.apply (s.view a)).2) }, Or.inl ⟨?_, ?_, ?_⟩,
        h.committed, rfl⟩
      · -- the lock is free for `a` under either name
        intro owner work htx
        rw [h.tx] at htx
        obtain ⟨⟨owner', work'⟩, hopen, heq⟩ := Option.map_eq_some_iff.mp htx
        obtain ⟨rfl, -⟩ := Prod.mk.inj heq
        rw [hfree owner' work' hopen]
      · rw [h.view hname]
        exact hr
      · rw [h.view hname]
    · exact ⟨t, Or.inr ⟨hfault, rfl⟩, h⟩
  -- a commit or a rollback ends the transaction under both names
  | commit =>
    rcases hsem with ⟨hr, rfl⟩ | ⟨hfault, rfl⟩
    · exact ⟨_, Or.inl ⟨hr, rfl⟩, h.commit hname⟩
    · exact ⟨t, Or.inr ⟨hfault, rfl⟩, h⟩
  | rollback =>
    obtain ⟨hr, rfl⟩ := hsem
    exact ⟨_, ⟨hr, rfl⟩, h.rollback hname⟩

/-- And so has every request: what it is answered under one name it may be answered under the other,
and the stores stay alike. -/
theorem Alike.request {X : External} {w w' v : World X} (h : Alike name w.db v.db)
    (hext : v.ext = w.ext) (hname : NamedApart name a w.db) {e : Req} {r : Except PyError e.Resp}
    (hsem : sem X a e w r w') :
    ∃ v', sem X (rename name a) e v r v' ∧ Alike name w'.db v'.db ∧ v'.ext = w'.ext := by
  cases e with
  | ext e =>
    obtain ⟨hanswer, hdb⟩ := hsem
    exact ⟨{ v with ext := w'.ext }, ⟨hext ▸ hanswer, rfl⟩, hdb ▸ h, rfl⟩
  | sql q =>
    obtain ⟨hsql, hsame⟩ := hsem
    obtain ⟨t', hsql', halike⟩ := h.statement hname hsql
    exact ⟨{ v with db := t' }, ⟨hsql', rfl⟩, halike, hext.trans hsame.symm⟩

end Rename

/-! ## The phases of a request -/

section Phases

variable [UnicodeDb] [ConfigLibrary] [WebhookLibrary] {X : External} {secret : String}
  {handler : OrchestrationHandler} {t : Receiver X} {n : Nat} {request : WebhookRequest}

/-- The receiver goes on to `t'` by moves of attempt `n` that ask for nothing; then the attempt is
in `phase`. -/
structure Receiver.Settles (secret : String) (handler : OrchestrationHandler) (t : Receiver X)
    (n : Nat) (request : WebhookRequest) (phase : Phase) (t' : Receiver X) : Prop where
  reach : Receiver.Reachable secret handler t → Receiver.Reachable secret handler t'
  world : t'.world = t.world
  next : t'.next = t.next
  attempts : t'.attempts = Function.update t.attempts n (some ⟨request, phase⟩)

theorem Receiver.Settles.move {ev : Receiver.Event} {phase phase' : Phase} {t₁ t' : Receiver X}
    (hs : Receiver.Step secret handler t ev t₁) (hworld : t₁.world = t.world)
    (hnext : t₁.next = t.next)
    (hattempts : t₁.attempts = Function.update t.attempts n (some ⟨request, phase⟩))
    (h : Receiver.Settles secret handler t₁ n request phase' t') :
    Receiver.Settles secret handler t n request phase' t' where
  reach hreach := h.reach (hreach.step hs trivial)
  world := h.world.trans hworld
  next := h.next.trans hnext
  attempts := by
    rw [h.attempts, hattempts, Function.update_idem]

omit [UnicodeDb] [ConfigLibrary] [WebhookLibrary] in
/-- Once it is answered, nothing is left to ask for. -/
theorem rest_answered_ne {handler : EventHandler} {r : Except PyError Nat} {e : Req}
    {k : Except PyError e.Resp → Py Nat} : (Phase.answered r).rest handler ≠ .call e k := by
  intro h
  cases r <;> cases h

/-- The attempt comes to a phase that asks for `e`, and goes on with `k`. -/
def Receiver.ComesTo (secret : String) (handler : OrchestrationHandler) (t : Receiver X) (n : Nat)
    (request : WebhookRequest) (e : Req) (k : Except PyError e.Resp → Py Nat) : Prop :=
  ∃ phase t' next, Receiver.Settles secret handler t n request phase t' ∧ phase.Asks e next ∧
    ∀ r, k r = (next r).rest handler.eventHandler

variable {e : Req} {k : Except PyError e.Resp → Py Nat}

theorem Receiver.ComesTo.move {ev : Receiver.Event} {phase : Phase} {t₁ : Receiver X}
    (hs : Receiver.Step secret handler t ev t₁) (hworld : t₁.world = t.world)
    (hnext : t₁.next = t.next)
    (hattempts : t₁.attempts = Function.update t.attempts n (some ⟨request, phase⟩))
    (h : Receiver.ComesTo secret handler t₁ n request e k) :
    Receiver.ComesTo secret handler t n request e k := by
  obtain ⟨phase', t', next, hsettles, hasks, hk⟩ := h
  exact ⟨phase', t', next, .move hs hworld hnext hattempts hsettles, hasks, hk⟩

/-- A phase that asks for something asks for what the route asks for. -/
theorem comesTo_of_asks {phase : Phase} {e' : Req} {next : Except PyError e'.Resp → Phase}
    (hn : t.attempts n = some ⟨request, phase⟩) (hasks : phase.Asks e' next)
    (h : phase.rest handler.eventHandler = .call e k) :
    Receiver.ComesTo secret handler t n request e k := by
  rw [hasks.rest] at h
  cases h
  refine ⟨phase, t, next, ⟨id, rfl, rfl, ?_⟩, hasks, fun _ => rfl⟩
  rw [← hn, Function.update_eq_self]

/-- A session that is about to be closed asks for the rollback. -/
theorem comesTo_closing {r : Except PyError Bool}
    (hn : t.attempts n = some ⟨request, .closing r Py.rollback⟩)
    (h : (Phase.closing r Py.rollback).rest handler.eventHandler = .call e k) :
    Receiver.ComesTo secret handler t n request e k :=
  comesTo_of_asks hn (.closing _ _) h

theorem comesTo_handling {p : Py Unit} (hn : t.attempts n = some ⟨request, .handling p⟩)
    (h : (Phase.handling p).rest handler.eventHandler = .call e k) :
    Receiver.ComesTo secret handler t n request e k := by
  cases p with
  | call e' k' => exact comesTo_of_asks hn (.handling k') h
  | ret u =>
    rw [Phase.rest_complete] at h
    exact .move (.complete hn) rfl rfl rfl (comesTo_closing (Receiver.goTo_self t n _ _) h)
  | raise x => exact .move (.fail hn) rfl rfl rfl (comesTo_closing (Receiver.goTo_self t n _ _) h)

/-- What is left of the route asks for `e`. Then the attempt comes to a phase that asks for it, and
asks for nothing before. There are three moves at most: the handler is called, it returns, and the
session is about to be closed. -/
theorem comesTo_of_rest {phase : Phase} (hn : t.attempts n = some ⟨request, phase⟩)
    (h : phase.rest handler.eventHandler = .call e k) :
    Receiver.ComesTo secret handler t n request e k := by
  cases phase with
  | receiving p =>
    cases p with
    | call e' k' => exact comesTo_of_asks hn (.receiving k') h
    | ret found =>
      cases found with
      -- known: the session is closed, and a 202 given
      | none =>
        rw [Phase.rest_duplicate] at h
        exact .move (.duplicate hn) rfl rfl rfl (comesTo_closing (Receiver.goTo_self t n _ _) h)
      -- new: the handler is called, and may be over at once
      | some event =>
        rw [Phase.rest_dispatch] at h
        exact .move (.dispatch hn) rfl rfl rfl (comesTo_handling (Receiver.goTo_self t n _ _) h)
    -- refused
    | raise x =>
      exact .move (.refuse hn) rfl rfl rfl (comesTo_closing (Receiver.goTo_self t n _ _) h)
  | handling p => exact comesTo_handling hn h
  | closing r p =>
    cases p with
    | call e' k' => exact comesTo_of_asks hn (.closing r k') h
    -- closed: what is left is the answer
    | ret u =>
      rw [Phase.rest_closed] at h
      exact absurd h rest_answered_ne
    | raise x =>
      change (Phase.answered (Webhook.answer (.error x))).rest handler.eventHandler = _ at h
      exact absurd h rest_answered_ne
  | answered r => exact absurd h rest_answered_ne

end Phases

/-! ## The simulation -/

/-- What is left of the worker's routine records no delivery. There is no recovery in the
service. -/
def WorkerPhase.SparesDeliveries : WorkerPhase → Prop
  | .recovering _ => False
  | .claiming p => p.Calls Req.SparesDeliveries
  | .processing _ p => p.Calls Req.SparesDeliveries
  | _ => True

section Simulation

variable [UnicodeDb] [ConfigLibrary] [WebhookLibrary] [PromptFiles] {X : External}
  {config : OperatorConfig} {s s' : Service (.vidiPr X config)} {t : Receiver X}
  {name : Nat → Nat}

/-- The receiver `t` is in the world of the service `s`. Every request in progress is an attempt
under its name, and what is left of the task is what is left of the attempt. -/
structure Mirrors (name : Nat → Nat) (s : Service (.vidiPr X config)) (t : Receiver X) : Prop where
  store : Alike name s.world.db t.world.db
  ext : t.world.ext = s.world.ext
  /-- an open transaction is of a task in progress -/
  owner : ∀ n work, s.world.db.tx = some (.call n, work) → s.calls n ≠ none
  distinct : ∀ n m, s.calls n ≠ none → s.calls m ≠ none → name n = name m → n = m
  used : ∀ n, s.calls n ≠ none → name n < t.next
  calls : ∀ n call, s.calls n = some call → ∃ phase, t.attempts (name n) = some ⟨call.task, phase⟩ ∧
    call.prog = phase.rest (OrchestrationHandler.ofConfig config).eventHandler
  worker : s.worker.SparesDeliveries

/-- The receiver can go on from `t` so that it mirrors `s`. -/
def Reflected (t : Receiver X) (s : Service (.vidiPr X config)) : Prop :=
  ∃ name t', (Receiver.Reachable config.webhookSecret (.ofConfig config) t →
    Receiver.Reachable config.webhookSecret (.ofConfig config) t') ∧ Mirrors name s t'

theorem Mirrors.apart (h : Mirrors name s t) {a : Actor}
    (ha : ∀ n, a = .call n → s.calls n ≠ none) :
    NamedApart name a s.world.db := by
  intro owner work htx heq
  cases owner with
  | worker =>
    cases a with
    | worker => rfl
    | call n => cases heq
  | call m =>
    cases a with
    | worker => cases heq
    | call n => rw [h.distinct m n (h.owner m work htx) (ha n rfl) (Actor.call.inj heq)]

/-- The worker moves, and asks for nothing. -/
theorem Mirrors.control (h : Mirrors name s t) (hworld : s'.world = s.world)
    (hcalls : s'.calls = s.calls) (hworker : s'.worker.SparesDeliveries) : Mirrors name s' t where
  store := by rw [hworld]; exact h.store
  ext := by rw [hworld]; exact h.ext
  owner := by rw [hworld, hcalls]; exact h.owner
  distinct := by rw [hcalls]; exact h.distinct
  used := by rw [hcalls]; exact h.used
  calls := by rw [hcalls]; exact h.calls
  worker := hworker

omit [UnicodeDb] [ConfigLibrary] [WebhookLibrary] [PromptFiles] in
/-- An open transaction that was there before, or is the actor's own. -/
theorem tx_of_step {a : Actor} {db db' : Sqlite} (h : ActorStep a db db') {owner : Actor}
    {work : Db}
    (htx : db'.tx = some (owner, work)) : owner = a ∨ ∃ work', db.tx = some (owner, work') := by
  cases h with
  | same => exact Or.inr ⟨work, htx⟩
  | write => cases htx; exact Or.inl rfl
  | commit => cases htx
  | rollback => cases htx

/-- The worker makes a request: the receiver lets its own worker make it, since the request records
no delivery. -/
theorem Mirrors.request (h : Mirrors name s t) {e : Req} {r : Except PyError e.Resp}
    {world : World X} (he : e.SparesDeliveries) (hsem : sem X .worker e s.world r world)
    (hworld : s'.world = world) (hcalls : s'.calls = s.calls)
    (hworker : s'.worker.SparesDeliveries) :
    Reflected t s' := by
  obtain ⟨v, hsem', halike, hext⟩ := h.store.request h.ext (h.apart fun n heq => by cases heq) hsem
  refine ⟨name, { t with world := v }, fun hreach => hreach.step (.worker he hsem') trivial, ?_⟩
  subst hworld
  refine ⟨halike, hext, fun n work htx => ?_, ?_, ?_, ?_, hworker⟩
  · rw [hcalls]
    rcases tx_of_step (actorStep_of_sem hsem) htx with hself | ⟨work', hbefore⟩
    · cases hself
    · exact h.owner n work' hbefore
  · rw [hcalls]
    exact h.distinct
  · rw [hcalls]
    exact h.used
  · rw [hcalls]
    exact h.calls

/-- A request comes in: the receiver takes it under the next of its numbers, and its attempt begins
as the route does. -/
theorem Mirrors.arrive (h : Mirrors name s t) {n since : Nat} (request : WebhookRequest)
    (hfree : s.calls n = none) :
    Mirrors (Function.update name n t.next)
      { s with
        calls := Function.update s.calls n
          (some ⟨request, since, (Deployment.vidiPr X config).workload.prog request⟩) }
      { t.goTo t.next request (Phase.start config.webhookSecret request) with
        next := t.next + 1 } := by
  -- a call that was in progress keeps its name, which is a smaller one
  have hold : ∀ m, m ≠ n → Function.update s.calls n
      (some ⟨request, since, (Deployment.vidiPr X config).workload.prog request⟩) m ≠ none →
      s.calls m ≠ none ∧ Function.update name n t.next m = name m := by
    intro m hne hm
    rw [Function.update_of_ne hne] at hm
    exact ⟨hm, Function.update_of_ne hne _ _⟩
  refine ⟨⟨h.store.committed, ?_⟩, h.ext, fun m work htx => ?_, fun m m' hm hm' heq => ?_,
    fun m hm => ?_, fun m call' hm => ?_, h.worker⟩
  · -- nor is the open transaction the new task's
    refine h.store.tx.trans (Option.map_congr fun open' hopen => ?_)
    obtain ⟨owner, work⟩ := open'
    cases owner with
    | worker => rfl
    | call m =>
      have hne : m ≠ n := fun heq => h.owner m work hopen (heq ▸ hfree)
      simp only [rename, Function.update_of_ne hne]
  · have hne : m ≠ n := fun heq => h.owner m work htx (heq ▸ hfree)
    show Function.update s.calls n _ m ≠ none
    rw [Function.update_of_ne hne]
    exact h.owner m work htx
  · by_cases hmn : m = n <;> by_cases hmn' : m' = n
    · rw [hmn, hmn']
    · obtain ⟨hcall', hname'⟩ := hold m' hmn' hm'
      rw [hmn, Function.update_self, hname'] at heq
      exact absurd (h.used m' hcall') (heq ▸ Nat.lt_irrefl _)
    · obtain ⟨hcall, hname⟩ := hold m hmn hm
      rw [hmn', Function.update_self, hname] at heq
      exact absurd (h.used m hcall) (heq ▸ Nat.lt_irrefl _)
    · obtain ⟨hcall, hname⟩ := hold m hmn hm
      obtain ⟨hcall', hname'⟩ := hold m' hmn' hm'
      exact h.distinct m m' hcall hcall' (by rw [← hname, ← hname', heq])
  · by_cases hmn : m = n
    · rw [hmn, Function.update_self]
      exact Nat.lt_succ_self _
    · obtain ⟨hcall, hname⟩ := hold m hmn hm
      rw [hname]
      exact Nat.lt_succ_of_lt (h.used m hcall)
  · by_cases hmn : m = n
    · subst hmn
      change Function.update s.calls m _ m = _ at hm
      rw [Function.update_self] at hm
      cases hm
      rw [Function.update_self]
      refine ⟨_, t.goTo_self t.next request _, ?_⟩
      exact (Phase.rest_start ..).symm
    · have hm' : s.calls m = some call' := by
        rw [← hm]
        exact (Function.update_of_ne hmn _ _).symm
      obtain ⟨phase, hattempt, hrest⟩ := h.calls m call' hm'
      rw [Function.update_of_ne hmn]
      have hne : name m ≠ t.next := Nat.ne_of_lt (h.used m (by simp [hm']))
      exact ⟨phase, (t.goTo_other hne _ _).trans hattempt, hrest⟩

/-- A request in progress makes one of its own. Its attempt settles first. -/
theorem Mirrors.called (h : Mirrors name s t) {n since : Nat} {request : WebhookRequest} {e : Req}
    {k : Except PyError e.Resp → Py Nat} {r : Except PyError e.Resp} {world : World X}
    (hcall : s.calls n = some ⟨request, since, .call e k⟩)
    (hsem : sem X (.call n) e s.world r world) :
    Reflected t { s with
      world
      calls := Function.update s.calls n (some ⟨request, since, k r⟩) } := by
  have hlive : s.calls n ≠ none := by simp [hcall]
  obtain ⟨phase, hattempt, hrest⟩ := h.calls n _ hcall
  have hcomes : Receiver.ComesTo config.webhookSecret (.ofConfig config) t (name n) request e k :=
    comesTo_of_rest hattempt hrest.symm
  obtain ⟨phase', t₁, next, hsettles, hasks, hk⟩ := hcomes
  have hattempt' : t₁.attempts (name n) = some ⟨request, phase'⟩ := by
    rw [hsettles.attempts, Function.update_self]
  obtain ⟨v, hsem', halike, hext⟩ := h.store.request h.ext
    (h.apart fun m heq => Actor.call.inj heq ▸ hlive) hsem
  rw [← hsettles.world] at hsem'
  -- no call comes or goes
  have hcalls : ∀ m, Function.update s.calls n (some ⟨request, since, k r⟩) m ≠ none ↔
      s.calls m ≠ none := by
    intro m
    by_cases hmn : m = n
    · rw [hmn, Function.update_self]
      exact iff_of_true (Option.some_ne_none _) hlive
    · rw [Function.update_of_ne hmn]
  refine ⟨name, { t₁.goTo (name n) request (next r) with world := v },
    fun hreach => (hsettles.reach hreach).step (.call hattempt' hasks hsem') trivial,
    halike, hext, fun m work htx => (hcalls m).mpr ?_,
    fun m m' hm hm' => h.distinct m m' ((hcalls m).mp hm) ((hcalls m').mp hm'),
    fun m hm => hsettles.next ▸ h.used m ((hcalls m).mp hm), fun m call hm => ?_, h.worker⟩
  · rcases tx_of_step (actorStep_of_sem hsem) htx with hself | ⟨work', hbefore⟩
    · exact Actor.call.inj hself ▸ hlive
    · exact h.owner m work' hbefore
  · by_cases hmn : m = n
    · subst hmn
      change Function.update s.calls m _ m = _ at hm
      rw [Function.update_self] at hm
      cases hm
      exact ⟨next r, t₁.goTo_self (name m) request _, hk r⟩
    · change Function.update s.calls n _ m = _ at hm
      rw [Function.update_of_ne hmn] at hm
      obtain ⟨phase'', hold, hrest'⟩ := h.calls m call hm
      have hne : name m ≠ name n := fun heq => hmn (h.distinct m n (by simp [hm]) hlive heq)
      refine ⟨phase'', (t₁.goTo_other hne _ _).trans ?_, hrest'⟩
      rw [hsettles.attempts, Function.update_of_ne hne]
      exact hold

/-- The process dies, and both start anew on what is committed. -/
theorem Mirrors.crashed (h : Mirrors name s t) : Reflected t { s with
    world := { s.world with db := s.world.db.crash }
    worker := .down
    calls := fun _ => none } :=
  ⟨name, _, fun hreach => hreach.step .crash trivial, ⟨h.store.committed, rfl⟩, h.ext,
    fun _ _ htx => (by cases htx), fun _ _ hn => absurd rfl hn, fun _ hn => absurd rfl hn,
    fun _ _ hn => (by cases hn), trivial⟩

/-- What asks for nothing is no step of the receiver. -/
theorem Mirrors.still (h : Mirrors name s t) (hworld : s'.world = s.world)
    (hcalls : s'.calls = s.calls) (hworker : s'.worker.SparesDeliveries) : Reflected t s' :=
  ⟨name, t, id, h.control hworld hcalls hworker⟩

/-- The step lemma: every step of the service is one that the receiver can follow. -/
theorem mirrors_step {ev : Event (.vidiPr X config)} (h : Mirrors name s t) (hs : Step s ev s') :
    Reflected t s' := by
  have hworker := h.worker
  cases hs with
  | @external ext hmove =>
    have hmove' : X.move t.world.ext ext := h.ext ▸ hmove
    exact ⟨name, { t with world := { t.world with ext } },
      fun hreach => hreach.step (.external hmove') trivial,
      h.store, rfl, h.owner, h.distinct, h.used,
      h.calls, h.worker⟩
  | spawn n request hfree =>
    exact ⟨_, _, fun hreach => hreach.step (.arrive request) trivial, h.arrive request hfree⟩
  | call hcall hsem => exact h.called hcall hsem
  | crash => exact h.crashed
  | recover _ may => exact may.elim
  | recoverStep hphase | recovered hphase =>
    -- there is no recovery in this service
    rw [hphase] at hworker
    exact hworker.elim
  | claimStep hphase hsem =>
    rw [hphase] at hworker
    exact h.request hworker.1 hsem rfl rfl (hworker.2 _)
  | processStep hphase hsem =>
    rw [hphase] at hworker
    exact h.request hworker.1 hsem rfl rfl (hworker.2 _)
  | claim => exact h.still rfl rfl claimOne_spares
  | claimedSome => exact h.still rfl rfl (process_spares ..)
  | requestStop => exact h.still rfl rfl hworker
  | _ => exact h.still rfl rfl trivial

/-- **The receiver is in the service.** In every state of every run of the service, crashes and
restarts included, there is a run of the receiver that has come to the same store and the same
outside, and to what is left of every request in progress. -/
theorem receiver_of_reachable (h : Service.Reachable s) :
    ∃ name t, Receiver.Reachable config.webhookSecret (.ofConfig config) t ∧ Mirrors name s t := by
  induction h with
  | initial ext =>
    refine ⟨id, Receiver.initial ext, .initial ext, ⟨rfl, rfl⟩, rfl, fun n work htx => ?_,
      fun n m hn => absurd rfl hn, fun n hn => absurd rfl hn, fun n call hn => ?_, trivial⟩
    · cases htx
    · cases hn
  | step _ hs _ ih =>
    obtain ⟨name, t, hreach, hmirrors⟩ := ih
    obtain ⟨name', t', hgo, hmirrors'⟩ := mirrors_step hmirrors hs
    exact ⟨name', t', hgo hreach, hmirrors'⟩

/-- A request that is not authentic asks the service for nothing but the end of its session: this is
so of every attempt of the receiver, and therefore of every task of the service. -/
theorem unauthentic_asks_nothing (h : Service.Reachable s) {n : Nat}
    {call : Call (Deployment.vidiPr X config).workload} (hn : s.calls n = some call)
    (hauth : ¬ WebhookRequest.Authentic config.webhookSecret call.task) :
    call.prog.Calls fun e => e = .sql .rollback := by
  obtain ⟨name, t, hreach, hmirrors⟩ := receiver_of_reachable h
  obtain ⟨phase, hattempt, hrest⟩ := hmirrors.calls n call hn
  obtain ⟨hharmless, -⟩ :=
    ((dispatchInv_reachable hreach).authentic _ _ hattempt).resolve_left hauth
  have hclose : ∀ (r : Except PyError Bool) (p : Py Unit), p.Calls (fun e => e = .sql .rollback) →
      (Phase.close r p).Calls fun e => e = .sql .rollback :=
    fun r p hp => (hp.bind fun _ => calls_ofExcept r).andThen fun r' => calls_ofExcept _
  rw [hrest]
  cases phase with
  | receiving p =>
    obtain ⟨x, rfl⟩ := hharmless
    exact hclose (.error x) Py.rollback (calls_perform rfl)
  | handling p => exact hharmless.elim
  | closing r p => exact hclose r p hharmless
  | answered r => exact calls_ofExcept r

end Simulation

end VidiPr
