import VidiPr.Transport.RemoteOperations

/-!
# Expired credentials and typed errors

Two laws of the eight operations, for every sequence of answers, every use of the process memory
by other tasks, and every memory a process can have come to.

* **`credentials_uniform`** — a 401 replaces the client of the installation and the call is made
  once more, and nothing else is retried, exactly where the 401 does not come to a paginated
  read: `paginate` has no retry.
* **`errors_typed`** — what escapes is a `GitHubError` and a failure that may pass is a
  `GitHubTransientError`, exactly where the call that decides is answered with an error status, or
  with a body that can be read: only `RequestFailed` is mapped, so a connection failure, a body that
  is not the object it should be and a file that cannot be decoded all escape as they are.
-/

namespace VidiPr

open Effect Prog Text

/-! ## Clients are numbered -/

namespace Memory

/-- Every cached client has been given a number. -/
def Numbered (m : Memory) : Prop := ∀ id c, m.client id = some c → c < m.clients

theorem lookup_filter (keep : Nat → Bool) (id : Nat) (installations : List (Nat × Nat)) :
    (installations.filter fun p => keep p.1).lookup id =
      if keep id then installations.lookup id else none := by
  induction installations with
  | nil => simp
  | cons p rest ih =>
    rcases p with ⟨other, c⟩
    by_cases hid : id = other
    · subst hid
      cases hkeep : keep id with
      | true => simp [hkeep]
      | false => simpa [List.filter_cons, hkeep] using ih
    · have hne : (id == other) = false := beq_eq_false_iff_ne.mpr hid
      cases hkeep : keep other with
      | true => simpa [List.filter_cons, List.lookup_cons, hkeep, hne] using ih
      | false => simpa [List.filter_cons, List.lookup_cons, hkeep, hne] using ih

theorem client_drop (m : Memory) (id other : Nat) :
    (MemOp.exec (.dropCached id) m).2.client other =
      if other = id then none else m.client other := by
  refine (lookup_filter (fun key => key ≠ id) other m.installations).trans ?_
  by_cases h : other = id
  · simp [h]
  · simp [h, client]

theorem client_gh (m : Memory) (id : Nat) :
    (MemOp.exec (.installationClient id) m).2.client id =
      some (MemOp.exec (.installationClient id) m).1 := by
  simp only [MemOp.exec, client]
  cases h : m.installations.lookup id with
  | some c => exact h
  | none => exact List.lookup_cons_self

theorem client_gh_of_ne (m : Memory) {id other : Nat} (h : other ≠ id) :
    (MemOp.exec (.installationClient id) m).2.client other = m.client other := by
  simp only [MemOp.exec, client]
  cases m.installations.lookup id with
  | some c => rfl
  | none =>
    have hne : (other == id) = false := beq_eq_false_iff_ne.mpr h
    simp only [List.lookup_cons, hne]

/-- A new client gets the next number. -/
theorem gh_of_none {m : Memory} {id : Nat} (h : m.client id = none) :
    (MemOp.exec (.installationClient id) m).1 = m.clients := by
  unfold client at h
  simp only [MemOp.exec, h]
  rfl

theorem clients_le_exec (op : MemOp) (m : Memory) : m.clients ≤ (op.exec m).2.clients := by
  cases op with
  | installationClient id =>
    simp only [MemOp.exec]
    split
    · exact le_refl _
    · exact Nat.le_succ _
  | _ => exact le_refl _

theorem Numbered.exec {m : Memory} (h : m.Numbered) (op : MemOp) : (op.exec m).2.Numbered := by
  intro other c hc
  cases op with
  | installationClient id =>
    by_cases hid : other = id
    · subst hid
      cases hclient : m.client other with
      | some c' =>
        have hsame : (MemOp.exec (.installationClient other) m).2 = m := by
          unfold client at hclient
          simp only [MemOp.exec, hclient]
        rw [hsame] at hc ⊢
        exact h other c hc
      | none =>
        -- the number handed out is the one the counter moves past
        have hnew := gh_of_none hclient
        rw [client_gh] at hc
        have hclients : (MemOp.exec (.installationClient other) m).2.clients = m.clients + 1 := by
          unfold client at hclient
          simp only [MemOp.exec, hclient]
        rw [← Option.some.inj hc, hclients]
        exact Nat.lt_succ_of_le (le_of_eq hnew)
    · rw [client_gh_of_ne m hid] at hc
      exact lt_of_lt_of_le (h other c hc) (clients_le_exec _ m)
  | dropCached id =>
    rw [client_drop] at hc
    split at hc
    · cases hc
    · exact h other c hc
  | _ => exact h other c hc

theorem Numbered.after {m : Memory} (h : m.Numbered) (ops : List MemOp) :
    (m.after ops).Numbered := by
  induction ops generalizing m with
  | nil => exact h
  | cons op rest ih => exact ih (h.exec op)

theorem clients_le_after (m : Memory) (ops : List MemOp) : m.clients ≤ (m.after ops).clients := by
  induction ops generalizing m with
  | nil => exact le_refl _
  | cons op rest ih => exact le_trans (clients_le_exec op m) (ih _)

theorem numbered_start (past : List MemOp) : (Memory.after {} past).Numbered :=
  Numbered.after (fun _ _ hc => by cases hc) past

end Memory

namespace GitHubClient

/-! ## What an operation does -/

/-- The first call of an operation. -/
def firstExchange (script : Script) (id : Nat) (op : GhOp) (memory : Memory) : Exchange :=
  let (client, sent) := (MemOp.installationClient id).exec memory
  { client, op, served := script.served 0 op, sent, answered := sent.after (script.meanwhile 0) }

/-- The second call: the first was answered with `first.answered` in memory. -/
def secondExchange (script : Script) (id : Nat) (op : GhOp) (memory : Memory) : Exchange :=
  let dropped := ((MemOp.dropCached id).exec (firstExchange script id op memory).answered).2
  let (client, sent) := (MemOp.installationClient id).exec dropped
  { client, op, served := script.served 1 op, sent, answered := sent.after (script.meanwhile 1) }

namespace RemoteOperation

variable (o : RemoteOperation) (script : Script) (id : Nat) (memory : Memory)

/-- The request is made a second time. -/
def Retries (names : String × String) : Prop :=
  ¬ o.Paginated ∧ unauthorized (script.served 0 (o.call names)).answer = true

instance (names : String × String) : Decidable (o.Retries script names) := by
  unfold Retries
  infer_instance

theorem eval_request (names : String × String) :
    ((o.request id names).eval script.answer { memory, exchanges := [] }).2 =
      if o.Retries script names then
        (mapped (fun second => .gitHubAuthError (message second))
          (script.served 1 (o.call names)).answer,
          Wire.again script id (o.call names) { memory, exchanges := [] })
      else
        (mapped mapError (script.served 0 (o.call names)).answer,
          Wire.call script id (o.call names) { memory, exchanges := [] }) := by
  by_cases hpaginated : o.Paginated
  · have hno : ¬ o.Retries script names := fun h => h.1 hpaginated
    rw [if_neg hno, request, if_pos hpaginated]
    exact eval_paginate _ _ _ _
  · rw [request, if_neg hpaginated]
    refine (eval_withAuthRetry _ _ _ _).trans ?_
    by_cases hun : unauthorized (script.served 0 (o.call names)).answer = true
    · have hyes : o.Retries script names := ⟨hpaginated, hun⟩
      rw [if_pos hyes]
      exact if_pos hun
    · have hno : ¬ o.Retries script names := fun h => hun h.2
      rw [if_neg hno]
      exact if_neg hun

variable [UnicodeDb]

/-- What an operation on a well-formed repository does: one call, and a second one where the first
is answered 401 and the operation is one that tries again. What is left is to decode the answer. -/
theorem execute_eq {names : String × String} (hrepo : splitRepo o.repo = .ok names) :
    ∃ finish, o.Finishes names finish ∧
      o.execute script id memory =
        if o.Retries script names then {
          exchanges := [firstExchange script id (o.call names) memory,
            secondExchange script id (o.call names) memory]
          outcome := finish (mapped (fun second => .gitHubAuthError (message second))
            (script.served 1 (o.call names)).answer) }
        else {
          exchanges := [firstExchange script id (o.call names) memory]
          outcome := finish (mapped mapError (script.served 0 (o.call names)).answer) } := by
  obtain ⟨finish, hfinish, hrun⟩ := run_shape id o
  refine ⟨finish names, hfinish names, ?_⟩
  -- the operation is its request, and then its decoder
  have heval : ((o.run id).eval script.answer { memory, exchanges := [] }).2 =
      ((fun r => finish names r.1) (((o.request id names).eval script.answer
        { memory, exchanges := [] }).2), ((o.request id names).eval script.answer
        { memory, exchanges := [] }).2.2) := by
    rw [hrun, hrepo]
    refine (eval_andThen _ (o.request id names) _ _).trans ?_
    rw [eval_ofExcept]
  show (⟨((o.run id).eval script.answer { memory, exchanges := [] }).2.2.exchanges,
    ((o.run id).eval script.answer { memory, exchanges := [] }).2.1⟩ : Execution o.Resp) = _
  rw [heval, eval_request]
  split
  · rfl
  · rfl

/-- On any other repository it calls nobody. -/
theorem execute_of_error {x : PyError} (hrepo : splitRepo o.repo = .error x) :
    o.execute script id memory = { exchanges := [], outcome := .error x } := by
  obtain ⟨finish, hfinish, hrun⟩ := run_shape id o
  unfold execute
  rw [hrun, hrepo]
  rfl

end RemoteOperation

/-! ## Expired credentials -/

def Exchange.unauthorized (e : Exchange) : Bool := GitHubClient.unauthorized e.served.answer

/-- `second` is made on a fresh client of the installation, in place of the one that `first` was
made on or that other tasks have put there since; every other installation keeps its own. -/
structure Replaced (id : Nat) (first second : Exchange) : Prop where
  used : first.sent.client id = some first.client
  cached : second.sent.client id = some second.client
  fresh : second.client ≠ first.client ∧ ∀ other, first.answered.client other ≠ some second.client
  others : ∀ other, other ≠ id → second.sent.client other = first.answered.client other

/-- A 401 drops the client of the installation and the call is made once more; a second 401
surfaces as `GitHubAuthError`; nothing else is retried. -/
structure CredentialPolicy {α : Type} (id : Nat) (e : Execution α) : Prop where
  retried : ∀ first rest, e.exchanges = first :: rest → first.unauthorized = true →
    ∃ second, rest = [second] ∧ second.op = first.op ∧ Replaced id first second
  surfaces : ∀ first second rest, e.exchanges = first :: second :: rest →
    second.unauthorized = true → ∃ m, e.outcome = .error (.gitHubAuthError m)
  once : ∀ first rest, e.exchanges = first :: rest → first.unauthorized = false → rest = []

theorem replaced {memory : Memory} (hmemory : memory.Numbered) (script : Script) (id : Nat)
    (op : GhOp) :
    Replaced id (firstExchange script id op memory) (secondExchange script id op memory) := by
  have hsent := (hmemory.exec (.installationClient id))
  have hused : (firstExchange script id op memory).sent.client id =
      some (firstExchange script id op memory).client := Memory.client_gh memory id
  have hanswered : (firstExchange script id op memory).answered.Numbered := hsent.after _
  -- dropping leaves no client of this installation, so the next one is new
  have hnone := (Memory.client_drop (firstExchange script id op memory).answered id id).trans
    (if_pos rfl)
  have hnew : (secondExchange script id op memory).client =
      (firstExchange script id op memory).answered.clients := Memory.gh_of_none hnone
  refine ⟨hused, Memory.client_gh _ id, ⟨?_, fun other hother => ?_⟩, fun other hother => ?_⟩
  · have hlt := hsent id _ hused
    have hle := Memory.clients_le_after (firstExchange script id op memory).sent
      (script.meanwhile 0)
    rw [hnew]
    exact (lt_of_lt_of_le hlt hle).ne'
  · rw [hnew] at hother
    exact lt_irrefl _ (hanswered other _ hother)
  · refine (Memory.client_gh_of_ne _ hother).trans ?_
    exact (Memory.client_drop _ id other).trans (if_neg hother)

section Policy

variable {α : Type} {id : Nat} {e : Execution α} {first second : Exchange}

theorem credentialPolicy_of_nil (h : e.exchanges = []) : CredentialPolicy id e where
  retried first rest hcons := by
    rw [h] at hcons
    cases hcons
  surfaces first second rest hcons := by
    rw [h] at hcons
    cases hcons
  once first rest hcons := by
    rw [h] at hcons
    cases hcons

/-- An operation that makes one call keeps the policy where that call gets no 401. -/
theorem credentialPolicy_of_one (h : e.exchanges = [first]) :
    CredentialPolicy id e ↔ first.unauthorized = false := by
  constructor
  · intro hpolicy
    cases hun : first.unauthorized with
    | false => rfl
    | true =>
      obtain ⟨second, hrest, -⟩ := hpolicy.retried first [] h hun
      cases hrest
  · intro hun
    refine ⟨fun first' rest hcons hun' => ?_, fun first' second' rest hcons => ?_,
      fun first' rest hcons _ => ?_⟩
    · rw [h] at hcons
      obtain ⟨rfl, rfl⟩ := List.cons.inj hcons
      rw [hun] at hun'
      cases hun'
    · rw [h] at hcons
      cases (List.cons.inj hcons).2
    · rw [h] at hcons
      exact (List.cons.inj hcons).2.symm

theorem credentialPolicy_of_two (h : e.exchanges = [first, second])
    (hun : first.unauthorized = true) (hop : second.op = first.op)
    (hreplaced : Replaced id first second)
    (hauth : second.unauthorized = true → ∃ m, e.outcome = .error (.gitHubAuthError m)) :
    CredentialPolicy id e where
  retried first' rest hcons _ := by
    rw [h] at hcons
    obtain ⟨rfl, rfl⟩ := List.cons.inj hcons
    exact ⟨second, rfl, hop, hreplaced⟩
  surfaces first' second' rest hcons hun' := by
    rw [h] at hcons
    obtain ⟨rfl, hrest⟩ := List.cons.inj hcons
    obtain ⟨rfl, -⟩ := List.cons.inj hrest
    exact hauth hun'
  once first' rest hcons hun' := by
    rw [h] at hcons
    obtain ⟨rfl, rfl⟩ := List.cons.inj hcons
    rw [hun] at hun'
    cases hun'

theorem mapped_of_unauthorized (f : RequestFailed → PyError) {r : Except PyError α}
    (h : unauthorized r = true) : ∃ exc, mapped f r = .error (f exc) := by
  cases r with
  | ok v => cases h
  | error x =>
    cases x with
    | requestFailed exc =>
      have hstatus : exc.statusCode = 401 := of_decide_eq_true h
      exact ⟨exc, by simp only [mapped, hstatus, if_true]⟩
    | _ => cases h

end Policy

theorem credentials_uniform [UnicodeDb] (o : RemoteOperation) (script : Script) (id : Nat)
    (past : List MemOp) :
    CredentialPolicy id (o.execute script id (Memory.after {} past)) ↔
      ∀ names, splitRepo o.repo = .ok names → o.Paginated →
        unauthorized (script.served 0 (o.call names)).answer = false := by
  cases hrepo : splitRepo o.repo with
  -- no owner and name, so no call
  | error x =>
    rw [o.execute_of_error script id _ hrepo]
    exact iff_of_true (credentialPolicy_of_nil rfl) fun names h => by cases h
  | ok names =>
    obtain ⟨finish, hfinish, hexec⟩ := o.execute_eq script id (Memory.after {} past) hrepo
    rw [hexec]
    by_cases hretries : o.Retries script names
    · -- a 401, and a second call with a new client
      rw [if_pos hretries]
      refine iff_of_true ?_ fun _ _ hpaginated => absurd hpaginated hretries.1
      refine credentialPolicy_of_two rfl hretries.2 rfl
        (replaced (Memory.numbered_start past) script id (o.call names)) fun hun => ?_
      obtain ⟨exc, hmapped⟩ := mapped_of_unauthorized
        (fun second => .gitHubAuthError (message second)) hun
      refine ⟨message exc, (congrArg finish hmapped).trans ?_⟩
      exact hfinish.raises _ fun m => PyError.noConfusion
    · -- one call: it must not be a 401, which only a paginated read leaves at that
      rw [if_neg hretries]
      refine (credentialPolicy_of_one rfl).trans ?_
      show unauthorized (script.served 0 (o.call names)).answer = false ↔ _
      constructor
      · intro hun names' hnames _
        rwa [← Except.ok.inj hnames]
      · intro h
        cases hun : unauthorized (script.served 0 (o.call names)).answer with
        | false => rfl
        | true =>
          have hpaginated : o.Paginated := by
            by_contra hpaginated
            exact hretries ⟨hpaginated, hun⟩
          rw [h names rfl hpaginated] at hun
          cases hun

section Expired

attribute [local instance] asciiDb

/-- The second page of the changed files is answered 401. -/
def expiring : Script where
  served _
    | .pullsListFiles .. => {
      arrived := [[{
        filename := "lock.py"
        status := "modified"
        additions := 1
        deletions := 0
        patch := none }]]
      failure := some (.requestFailed { statusCode := 401, text := "Bad credentials" }) }
    | op => .ofAnswer op (.error (.requestError "All connection attempts failed"))
  meanwhile _ := []

/-- A paginated read: one call, a 401, and neither a retry nor a `GitHubAuthError`. -/
theorem paginated_read_not_retried :
    ((RemoteOperation.getPrFiles "o/r" 7).execute expiring 5 {}).exchanges.map
        (·.unauthorized) = [true] ∧
      ((RemoteOperation.getPrFiles "o/r" 7).execute expiring 5 {}).outcome =
        .error (.gitHubPermanentError "401: Bad credentials") ∧
      ¬ CredentialPolicy 5 ((RemoteOperation.getPrFiles "o/r" 7).execute expiring 5 {}) := by
  have hcalls : ((RemoteOperation.getPrFiles "o/r" 7).execute expiring 5 {}).exchanges.map
      (·.unauthorized) = [true] := by decide +kernel
  refine ⟨hcalls, rfl, fun h => ?_⟩
  obtain ⟨first, rest, hcons, hun, hrest⟩ := List.map_eq_cons_iff.mp hcalls
  obtain ⟨second, hsecond, -⟩ := h.retried first rest hcons hun
  rw [hsecond] at hrest
  cases hrest

end Expired

/-! ## Typed errors -/

/-- A failure that may pass: no connection, a timeout, a 5xx or a rate limit. githubkit reads a rate
limit off a 403 or a 429, so a 401 is none, whatever it is flagged with. -/
def Passing : PyError → Prop
  | .requestFailed exc =>
    (exc.rateLimitExceeded = true ∧ exc.statusCode ≠ 401) ∨
      (500 ≤ exc.statusCode ∧ exc.statusCode < 600)
  | .requestError _ => True
  | _ => False

/-- What escapes is a `GitHubError`, and a `GitHubTransientError` where a call ended in a failure
that may pass. -/
structure TypedErrors {α : Type} (e : Execution α) : Prop where
  typed : ∀ x, e.outcome = .error x → x.isGitHubError = true
  transient : ∀ c ∈ e.exchanges, ∀ x, c.served.answer = .error x → Passing x →
    ∃ m, e.outcome = .error (.gitHubTransientError m)

/-- The answer an operation ends on: the second one after a 401 that is retried. -/
def RemoteOperation.deciding (o : RemoteOperation) (script : Script) (names : String × String) :
    Except PyError (o.call names).Resp :=
  if o.Retries script names then (script.served 1 (o.call names)).answer
  else (script.served 0 (o.call names)).answer

/-- An end of a call that the client has a type for: a `RequestFailed`, which it maps, an exception
of its own, or a value that can be decoded. A connection failure or a timeout (`RequestError`) is
none, nor is what `parsed_data` raises on a body that is not the object it should be (pydantic's
`ValidationError`): nothing catches either of them. -/
def RemoteOperation.Handles (o : RemoteOperation) (names : String × String)
    (r : Except PyError (o.call names).Resp) : Prop :=
  (∀ x, r = .error x → (∃ exc, x = .requestFailed exc) ∨ x.isGitHubError = true) ∧
    ∀ v, r = .ok v → o.Decodable names v

theorem mapError_isGitHubError (exc : RequestFailed) : (mapError exc).isGitHubError = true := by
  unfold mapError
  split_ifs <;> rfl

theorem mapError_of_passing {exc : RequestFailed} (h : Passing (.requestFailed exc)) :
    ∃ m, mapError exc = .gitHubTransientError m := by
  unfold mapError
  by_cases hrate : exc.rateLimitExceeded = true
  · exact ⟨_, if_pos hrate⟩
  · have hserver := h.resolve_left fun hlimit => hrate hlimit.1
    have hne : exc.statusCode ≠ 404 := by omega
    exact ⟨_, by rw [if_neg hrate, if_neg hne, if_pos hserver]⟩

section Finish

variable {o : RemoteOperation} {names : String × String}
  {finish : Except PyError (o.call names).Resp → Except PyError o.Resp}

/-- An exception of the client's own stays one. -/
theorem RemoteOperation.Finishes.typed (h : o.Finishes names finish) {x y : PyError}
    (hx : x.isGitHubError = true) (hy : finish (.error x) = .error y) :
    y.isGitHubError = true := by
  by_cases hnotFound : ∃ m, x = .gitHubNotFound m
  · obtain ⟨m, rfl⟩ := hnotFound
    rcases h.notFound m with heq | ⟨v, heq⟩
    · rw [heq] at hy
      rw [← Except.error.inj hy]
      rfl
    · rw [heq] at hy
      cases hy
  · rw [h.raises x fun m heq => hnotFound ⟨m, heq⟩] at hy
    rw [← Except.error.inj hy]
    exact hx

/-- A failure that may pass is no 401. -/
theorem not_unauthorized_of_passing {exc : RequestFailed} (h : Passing (.requestFailed exc)) :
    exc.statusCode ≠ 401 := by
  rcases h with ⟨-, hstatus⟩ | hserver
  · exact hstatus
  · omega

/-- How an operation ends on the answer `d`, when only `d` can be a failure that may pass. An answer
that is a value is decoded, an error status is mapped, and any other exception gets out as it is. -/
theorem typedErrors_iff (hfinish : o.Finishes names finish) {f : RequestFailed → PyError}
    (hf : ∀ exc, (f exc).isGitHubError = true) {d : Except PyError (o.call names).Resp}
    {exchanges : List Exchange}
    (honly : ∀ c ∈ exchanges, ∀ x, c.served.answer = .error x → Passing x → d = .error x) :
    TypedErrors ({ exchanges, outcome := finish (mapped f d) } : Execution o.Resp) ↔
      o.Handles names d := by
  cases d with
  | ok v =>
    -- a value is no failure
    have hquiet : ∀ c ∈ exchanges, ∀ x, c.served.answer = .error x → Passing x →
        ∃ m, finish (.ok v) = .error (.gitHubTransientError m) := by
      intro c hc x hx hpass
      cases honly c hc x hx hpass
    by_cases hdec : o.Decodable names v
    · refine iff_of_true ⟨fun x hx => ?_, hquiet⟩ ⟨nofun, fun v' hv' => ?_⟩
      · rcases hfinish.decodes v hdec with ⟨a, ha⟩ | ⟨m, hm⟩
        · cases ha.symm.trans hx
        · cases hm.symm.trans hx
          rfl
      · rwa [← Except.ok.inj hv']
    · -- a value the decoder fails on, outside of any handler
      refine iff_of_false (fun h => ?_) fun h => hdec (h.2 v rfl)
      obtain ⟨m, hm⟩ := hfinish.undecodable v hdec
      cases h.typed _ hm
  | error x =>
    by_cases hfailed : ∃ exc, x = .requestFailed exc
    · -- an error status is mapped
      obtain ⟨exc, rfl⟩ := hfailed
      refine iff_of_true ⟨fun y hy => ?_, fun c hc y hy hpass => ?_⟩
        ⟨fun y hy => Or.inl ⟨exc, (Except.error.inj hy).symm⟩, nofun⟩
      · refine hfinish.typed ?_ hy
        split
        · exact hf exc
        · exact mapError_isGitHubError exc
      · cases honly c hc y hy hpass
        obtain ⟨m, hm⟩ := mapError_of_passing hpass
        refine ⟨m, ?_⟩
        show finish (.error (if exc.statusCode = 401 then f exc else mapError exc)) = _
        rw [if_neg (not_unauthorized_of_passing hpass), hm]
        exact hfinish.raises _ fun m' => PyError.noConfusion
    have hmapped : mapped f (.error x) = (.error x : Except PyError (o.call names).Resp) := by
      cases x with
      | requestFailed exc => exact absurd ⟨exc, rfl⟩ hfailed
      | _ => rfl
    rw [hmapped]
    by_cases hown : x.isGitHubError = true
    · -- an exception of the client's own is none that may pass
      refine iff_of_true ⟨fun y hy => hfinish.typed hown hy, fun c hc y hy hpass => ?_⟩
        ⟨fun y hy => Or.inr (Except.error.inj hy ▸ hown), nofun⟩
      cases honly c hc y hy hpass
      cases x with
      | requestFailed exc => exact absurd ⟨exc, rfl⟩ hfailed
      | requestError m => cases hown
      | _ => exact hpass.elim
    · -- nothing catches the others
      refine iff_of_false (fun h => hown ?_) fun h => (h.1 x rfl).elim hfailed hown
      refine h.typed x (hfinish.raises x fun m heq => hown ?_)
      rw [heq]
      rfl

end Finish

/-- **Typed errors.** For every script of answers, and every memory a process can have come to: what
escapes an operation on a well-formed repository is a `GitHubError`, transient where a call failed
for a reason that may pass, if and only if the call it ends on ended in something the client has a
type for. -/
theorem errors_typed [UnicodeDb] (o : RemoteOperation) (script : Script) (id : Nat)
    (past : List MemOp) {names : String × String} (hrepo : splitRepo o.repo = .ok names) :
    TypedErrors (o.execute script id (Memory.after {} past)) ↔
      o.Handles names (o.deciding script names) := by
  obtain ⟨finish, hfinish, hexec⟩ := o.execute_eq script id (Memory.after {} past) hrepo
  rw [hexec]
  by_cases hretries : o.Retries script names
  · rw [RemoteOperation.deciding, if_pos hretries, if_pos hretries]
    refine typedErrors_iff hfinish (fun _ => rfl) fun c hc x hx hpass => ?_
    rcases List.mem_cons.mp hc with rfl | hc
    · -- the first answer was a 401
      have hun := hretries.2
      have hfirst : (script.served 0 (o.call names)).answer = .error x := hx
      rw [hfirst] at hun
      cases x with
      | requestFailed exc =>
        exact absurd (of_decide_eq_true hun) (not_unauthorized_of_passing hpass)
      | _ => cases hun
    · rw [List.mem_singleton.mp hc] at hx
      exact hx
  · rw [RemoteOperation.deciding, if_neg hretries, if_neg hretries]
    refine typedErrors_iff hfinish mapError_isGitHubError fun c hc x hx _ => ?_
    rw [List.mem_singleton.mp hc] at hx
    exact hx

section Unreachable

attribute [local instance] asciiDb

/-- Nobody can be reached. -/
def unreachable : Script where
  served _ op := .ofAnswer op (.error (.requestError "All connection attempts failed"))
  meanwhile _ := []

/-- GitHub is out of order. -/
def unavailable : Script where
  served _ op := .ofAnswer op (.error (.requestFailed { statusCode := 503, text := "down" }))
  meanwhile _ := []

theorem errors_typed_unavailable :
    TypedErrors ((RemoteOperation.createReview "o/r" 7 "LGTM").execute unavailable 5 {}) := by
  have hrepo : splitRepo "o/r" = .ok ("o", "r") := by rfl
  refine (errors_typed (.createReview "o/r" 7 "LGTM") unavailable 5 [] hrepo).mpr
    ⟨fun x hx => Or.inl ?_, fun _ _ => trivial⟩
  have hanswer : RemoteOperation.deciding (.createReview "o/r" 7 "LGTM") unavailable ("o", "r") =
      .error (.requestFailed { statusCode := 503, text := "down" }) :=
    Served.answer_ofAnswer (.pullsCreateReview "o" "r" 7 "LGTM") _
  exact ⟨_, Except.error.inj (hx.symm.trans hanswer)⟩

/-- A connection failure escapes as it is. -/
theorem connection_failure_escapes :
    ((RemoteOperation.createReview "o/r" 7 "LGTM").execute unreachable 5 {}).outcome =
        .error (.requestError "All connection attempts failed") ∧
      ¬ TypedErrors ((RemoteOperation.createReview "o/r" 7 "LGTM").execute unreachable 5 {}) := by
  refine ⟨rfl, fun h => ?_⟩
  cases h.typed (.requestError "All connection attempts failed") rfl

/-- A pull request is answered with a body that is none. -/
def malformed : Script where
  served _ op := .ofAnswer op (.error (.other "8 validation errors for PullRequest"))
  meanwhile _ := []

/-- Nor is an exception of `parsed_data` caught. -/
example : ¬ TypedErrors ((RemoteOperation.getPr "o/r" 7).execute malformed 5 {}) := by
  intro h
  cases h.typed (.other "8 validation errors for PullRequest") rfl

end Unreachable

end GitHubClient

end VidiPr
