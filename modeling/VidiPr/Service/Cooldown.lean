import VidiPr.Lib.Pool
import VidiPr.Service.Responder
import VidiPr.Storage.Operations

/-!
# The failure cooldown

Calls of `claim_failure_slot` from `storage/failures.py`, any number of them side by side, each in
a session of its own. The check of a call reads the record before its upsert writes it, and nothing
keeps the record between the two: another call of the pull request may commit there.

* **`ClaimPoint`** — where a call may be, and what it knows there.
* **`ClaimInv`** — the record is the last claim, and the claims are apart.
* **`claims_apart`** — as long as no call commits while another one of its pull request is between
  its check and its upsert (`NoneDeciding`). Calls that do not overlap are never there
  (`reachable_of_alone`).
-/

namespace VidiPr

open Effect Relational

/-! ## Calls -/

/-- A clock that never goes back, and nothing else. -/
def wallClock : External where
  State := Nat
  answer
    | .utcnow, now, r, now' => r = .ok now ∧ now' = now
    | _, _, _, _ => False
  move now now' := now ≤ now'
  possible := by
    intro e s r s' h
    cases e with
    | utcnow => exact ⟨_, h.1⟩
    | _ => exact h.elim

/-- A call in a session of its own. -/
def claimSlot (cooldownSeconds : Nat) (key : PrKey) : Py Bool :=
  Py.withSession (claimFailureSlot key.1 key.2 cooldownSeconds)

/-- A call of a pull request in flight. -/
abbrev ClaimTask : Type := Task PrKey Req Req.Resp PyError Bool

/-- Calls with the same cooldown. Only the clock moves by itself. -/
def claimCrew (cooldownSeconds : Nat) :
    Crew ClaimTask (Σ e : Req, Except PyError e.Resp) (World wallClock) :=
  .programs (claimSlot cooldownSeconds) (fun n => sem wallClock (.call n)) fun w w' =>
    w'.db = w.db ∧ wallClock.move w.ext w'.ext

/-- The cooldown, in microseconds. -/
def cooldownWindow (cooldownSeconds : Nat) : Nat := cooldownSeconds * microsecondsPerSecond

/-- The record of a pull request. -/
def Db.cooldown (db : Db) (key : PrKey) : Option FailureCooldown := db.failureCooldowns.get? key

namespace ClaimTask

/-- The call read `now` from the clock. -/
def Reads (t : ClaimTask) (now : Nat) : Prop := ⟨.ext .utcnow, .ok now⟩ ∈ t.done

/-- The call committed its upsert. -/
def Took (t : ClaimTask) : Prop := ⟨.sql .commit, .ok ()⟩ ∈ t.done

/-- The call read a record that is in force for it. -/
def Refused (cooldownSeconds : Nat) (t : ClaimTask) : Prop :=
  ∃ now row, t.Reads now ∧ row.InForce now cooldownSeconds ∧
    ⟨.sql (.query (.failureCooldown t.args.1 t.args.2)), .ok (some row)⟩ ∈ t.done

end ClaimTask

/-! ## What is left of a call -/

section Rest

variable (cooldownSeconds : Nat) (key : PrKey)

/-- Closing the session, with the outcome of its body. -/
def closing (r : Except PyError Bool) : Py Bool := Py.rollback.bind fun _ => .ofExcept r

/-- About to commit. -/
def claimWritten : Py Bool :=
  .call (.sql .commit) fun
    | .ok _ => closing (.ok true)
    | .error x => closing (.error x)

/-- About to write. -/
def claimFree (now : Nat) : Py Bool :=
  .call (.sql (.dml (.upsertFailureCooldown ⟨key.1, key.2, now⟩))) fun
    | .ok _ => claimWritten
    | .error x => closing (.error x)

/-- About to read. -/
def claimDated (now : Nat) : Py Bool :=
  .call (.sql (.query (.failureCooldown key.1 key.2))) fun
    | .ok existing =>
      if existing.any fun row => row.InForce now cooldownSeconds then closing (.ok false)
      else claimFree key now
    | .error x => closing (.error x)

/-- With the time at hand: the cutoff may be no date. -/
def claimTimed (now : Nat) : Py Bool :=
  if CooldownInRange now cooldownSeconds then claimDated cooldownSeconds key now
  else closing (.error dateOutOfRange)

theorem claimSlot_eq : claimSlot cooldownSeconds key = .call (.ext .utcnow) fun
    | .ok now => claimTimed cooldownSeconds key now
    | .error x => closing (.error x) := by
  have hfree : ∀ now, (do
      Py.execute (.upsertFailureCooldown ⟨key.1, key.2, now⟩)
      Py.commit
      return true : Py Bool).finally' Py.rollback = claimFree key now := by
    intro now
    refine congrArg (Prog.call _) (funext fun r => ?_)
    cases r with
    | error x => rfl
    | ok u =>
      refine congrArg (Prog.call _) (funext fun r => ?_)
      cases r <;> rfl
  have htimed : ∀ now : Nat, (if CooldownInRange now cooldownSeconds then do
      let existing ← Py.query (.failureCooldown key.1 key.2)
      if existing.any fun row => row.InForce now cooldownSeconds then return false
      else do
        Py.execute (.upsertFailureCooldown ⟨key.1, key.2, now⟩)
        Py.commit
        return true
    else Py.throw dateOutOfRange : Py Bool).finally' Py.rollback =
      claimTimed cooldownSeconds key now := by
    intro now
    unfold claimTimed
    split
    · refine congrArg (Prog.call _) (funext fun r => ?_)
      cases r with
      | error x => rfl
      | ok existing =>
        dsimp only
        rw [← hfree now]
        show Prog.finally' (if _ then _ else _) _ = _
        split <;> rfl
    -- the cutoff is no date: the body raises, and the session is closed
    · rfl
  refine congrArg (Prog.call _) (funext fun r => ?_)
  cases r with
  | error x => rfl
  | ok now => exact htimed now

end Rest

/-- The call is between its `SELECT`, which found the slot free, and its upsert. -/
def ClaimTask.Deciding (t : ClaimTask) : Prop := ∃ now, t.rest = claimFree t.args now

/-- The call has not begun, or it has returned or raised. -/
def ClaimTask.Outside (cooldownSeconds : Nat) (t : ClaimTask) : Prop :=
  t.rest = claimSlot cooldownSeconds t.args ∨ ∃ r, t.rest = .ofExcept r

theorem ClaimTask.Outside.not_deciding {cooldownSeconds : Nat} {t : ClaimTask}
    (h : t.Outside cooldownSeconds) : ¬ t.Deciding := by
  rintro ⟨now, hfree⟩
  rcases h with hstart | ⟨r, hend⟩
  · rw [claimSlot_eq, hfree] at hstart
    cases hstart
  · rw [hfree] at hend
    cases r <;> cases hend

/-! ## Where a call may be -/

section Points

variable {cooldownSeconds n : Nat} {key : PrKey} {db db' : Sqlite}

/-- What a call has done when it ends with `r`. -/
def Verdict (cooldownSeconds : Nat) (t : ClaimTask) : Except PyError Bool → Prop
  | .ok true => t.Took
  | .ok false => t.Refused cooldownSeconds
  | .error _ => True

theorem Verdict.append {t t' : ClaimTask} {r : Except PyError Bool}
    {ev : Σ e : Req, Except PyError e.Resp} (h : Verdict cooldownSeconds t r)
    (hargs : t'.args = t.args) (hdone : t'.done = t.done ++ [ev]) :
    Verdict cooldownSeconds t' r := by
  have hmem : ∀ ev' ∈ t.done, ev' ∈ t'.done := fun ev' hmem => hdone ▸ List.mem_append_left _ hmem
  rcases r with x | (_ | _)
  · trivial
  · obtain ⟨now, row, hreads, hforce, hquery⟩ := h
    exact ⟨now, row, hmem _ hreads, hforce, hargs ▸ hmem _ hquery⟩
  · exact hmem _ h

/-- Where call `n` is, by what it has done, and what it knows of the store there. -/
inductive ClaimPoint (cooldownSeconds n : Nat) (key : PrKey) (db : Sqlite) : ClaimTask → Prop where
  | start (hown : ¬ db.Owns (.call n)) :
      ClaimPoint cooldownSeconds n key db ⟨key, [], claimSlot cooldownSeconds key⟩
  | dated (now : Nat) (hown : ¬ db.Owns (.call n)) :
      ClaimPoint cooldownSeconds n key db
        ⟨key, [⟨.ext .utcnow, .ok now⟩], claimDated cooldownSeconds key now⟩
  /-- it has found the slot free, and the slot still is -/
  | free (now : Nat) (existing : Option FailureCooldown) (hown : ¬ db.Owns (.call n))
      (hfree : ∀ row, db.committed.cooldown key = some row → ¬ row.InForce now cooldownSeconds) :
      ClaimPoint cooldownSeconds n key db
        ⟨key, [⟨.ext .utcnow, .ok now⟩,
          ⟨.sql (.query (.failureCooldown key.1 key.2)), .ok existing⟩], claimFree key now⟩
  /-- it holds the write lock: nobody else changes the store before it is closed -/
  | written (now : Nat) (existing : Option FailureCooldown) (work : Db)
      (htx : db.tx = some (.call n, work))
      (hwork : ∀ key', work.cooldown key' =
        if key' = key then some ⟨key.1, key.2, now⟩ else db.committed.cooldown key')
      (hfree : ∀ row, db.committed.cooldown key = some row → ¬ row.InForce now cooldownSeconds) :
      ClaimPoint cooldownSeconds n key db
        ⟨key, [⟨.ext .utcnow, .ok now⟩,
          ⟨.sql (.query (.failureCooldown key.1 key.2)), .ok existing⟩,
          ⟨.sql (.dml (.upsertFailureCooldown ⟨key.1, key.2, now⟩)), .ok ()⟩], claimWritten⟩
  | closing {done : Prog.Trace Req Req.Resp PyError} (r : Except PyError Bool)
      (hverdict : Verdict cooldownSeconds ⟨key, done, closing r⟩ r) :
      ClaimPoint cooldownSeconds n key db ⟨key, done, closing r⟩
  | ended {done : Prog.Trace Req Req.Resp PyError} (r : Except PyError Bool)
      (hverdict : Verdict cooldownSeconds ⟨key, done, .ofExcept r⟩ r) :
      ClaimPoint cooldownSeconds n key db ⟨key, done, .ofExcept r⟩

/-- Another actor's step moves no call, as long as the record stays as it is for a call that is
about to overwrite it. -/
theorem ClaimPoint.frame {t : ClaimTask} {a : Actor} (h : ClaimPoint cooldownSeconds n key db t)
    (hstep : ActorStep a db db') (hne : a ≠ .call n)
    (hkeep : t.Deciding → db'.committed.cooldown t.args = db.committed.cooldown t.args) :
    ClaimPoint cooldownSeconds n key db' t := by
  cases h with
  | start hown => exact .start (hstep.not_owns hne hown)
  | dated now hown => exact .dated now (hstep.not_owns hne hown)
  | free now existing hown hfree =>
    refine .free now existing (hstep.not_owns hne hown) fun row hrow => hfree row ?_
    exact (hkeep ⟨now, rfl⟩).symm.trans hrow
  | written now existing work htx hwork hfree =>
    rw [hstep.frame hne ⟨work, htx⟩]
    exact .written now existing work htx hwork hfree
  | closing r hverdict => exact .closing r hverdict
  | ended r hverdict => exact .ended r hverdict

/-- What a call that returned has done. -/
theorem ClaimPoint.verdict {t : ClaimTask} {outcome : Bool}
    (h : ClaimPoint cooldownSeconds n key db t) (hrest : t.rest = .ret outcome) :
    Verdict cooldownSeconds t (.ok outcome) := by
  cases h with
  | start hown =>
    rw [claimSlot_eq] at hrest
    cases hrest
  | ended r hverdict =>
    cases r with
    | error x => cases hrest
    | ok outcome' =>
      cases hrest
      exact hverdict
  | _ => cases hrest

end Points

/-! ## What a step does -/

/-- A call commits only while no other call of its pull request is between its `SELECT` and its
upsert. -/
def NoneDeciding (pool : Pool ClaimTask (World wallClock)) (n : Nat)
    (ev : Σ e : Req, Except PyError e.Resp) : Prop :=
  ev = ⟨.sql .commit, .ok ()⟩ → ∀ t m u, pool.tasks n = some t → m ≠ n →
    pool.tasks m = some u → u.args = t.args → ¬ u.Deciding

/-- While a call makes a request, the others of its pull request have not begun, or have ended. -/
def Alone (cooldownSeconds : Nat) (pool : Pool ClaimTask (World wallClock)) (n : Nat)
    (_ : Σ e : Req, Except PyError e.Resp) : Prop :=
  ∀ t m u, pool.tasks n = some t → m ≠ n → pool.tasks m = some u → u.args = t.args →
    u.Outside cooldownSeconds

theorem Alone.noneDeciding {cooldownSeconds : Nat} {pool : Pool ClaimTask (World wallClock)}
    {n : Nat} {ev : Σ e : Req, Except PyError e.Resp} (h : Alone cooldownSeconds pool n ev) :
    NoneDeciding pool n ev :=
  fun _ t m u hn hne hm hargs => (h t m u hn hne hm hargs).not_deciding

theorem cooldown_upsert (db : Db) (row : FailureCooldown) (key : PrKey) :
    ((Dml.upsertFailureCooldown row).apply db).2.cooldown key =
      if key = row.key then some row else db.cooldown key := by
  have hmem := db.failureCooldowns.upsert_cases row (FailureCooldown.bump row.lastPostedAt)
    (FailureCooldown.bump_key row.lastPostedAt)
  by_cases hkey : key = row.key
  · rw [if_pos hkey]
    refine Table.get?_eq_some.mpr ⟨?_, hkey.symm⟩
    rcases hmem with ⟨old, hold, hsame, hmem⟩ | ⟨-, hmem⟩
    · refine (hmem row).mpr (Or.inl ?_)
      -- the row that was there is changed to the new one
      obtain ⟨hrepo, hnumber⟩ := Prod.mk.inj hsame
      rw [FailureCooldown.bump]
      cases row
      cases old
      simp_all
    · exact (hmem row).mpr (Or.inr rfl)
  · rw [if_neg hkey]
    refine Option.ext fun other => ?_
    refine Table.get?_eq_some.trans (Iff.trans ?_ Table.get?_eq_some.symm)
    refine and_congr_left fun hother => ?_
    exact Table.mem_upsert_of_ne fun h => hkey (hother.symm.trans h)

/-- What a step of a call is, for the calls of the pool. -/
inductive ClaimStep (cooldownSeconds : Nat) (db db' : Sqlite) (t t' : ClaimTask) : Prop where
  /-- it reads the clock -/
  | dated (now : Nat) (hdone : t.done = []) (hdone' : t'.done = [⟨.ext .utcnow, .ok now⟩])
      (hdb : db'.committed = db.committed)
  /-- it reads the record -/
  | looked (now : Nat) (existing : Option FailureCooldown)
      (hdone : t.done = [⟨.ext .utcnow, .ok now⟩])
      (hdone' : t'.done = [⟨.ext .utcnow, .ok now⟩,
        ⟨.sql (.query (.failureCooldown t.args.1 t.args.2)), .ok existing⟩])
      (hread : db.committed.cooldown t.args = existing) (hdb : db'.committed = db.committed)
  /-- it takes the slot -/
  | took (now : Nat) (existing : Option FailureCooldown)
      (hdone' : t'.done = [⟨.ext .utcnow, .ok now⟩,
        ⟨.sql (.query (.failureCooldown t.args.1 t.args.2)), .ok existing⟩,
        ⟨.sql (.dml (.upsertFailureCooldown ⟨t.args.1, t.args.2, now⟩)), .ok ()⟩,
        ⟨.sql .commit, .ok ()⟩])
      (hdone : t'.done = t.done ++ [⟨.sql .commit, .ok ()⟩])
      (hfree : ∀ row, db.committed.cooldown t.args = some row → ¬ row.InForce now cooldownSeconds)
      (hwritten : ∀ key, db'.committed.cooldown key =
        if key = t.args then some ⟨t.args.1, t.args.2, now⟩ else db.committed.cooldown key)
  /-- nothing another call can see -/
  | quiet (hdb : db'.committed = db.committed) (htook : t'.Took ↔ t.Took)
      (hreads : ∀ now, t'.Reads now ↔ t.Reads now)
      (hrefused : t'.Refused cooldownSeconds ↔ t.Refused cooldownSeconds)

section Steps

variable {cooldownSeconds n : Nat} {key : PrKey} {w w' : World wallClock} {t t' : ClaimTask}
  {ev : Σ e : Req, Except PyError e.Resp}

/-- An event that says nothing about the slot. -/
theorem ClaimStep.of_append {db db' : Sqlite} (hdb : db'.committed = db.committed)
    (hargs : t'.args = t.args) (hdone : t'.done = t.done ++ [ev])
    (hclock : ∀ now, ev ≠ ⟨.ext .utcnow, .ok now⟩) (hcommit : ev ≠ ⟨.sql .commit, .ok ()⟩)
    (hquery : ∀ row,
      ev ≠ ⟨.sql (.query (.failureCooldown t.args.1 t.args.2)), .ok (some row)⟩) :
    ClaimStep cooldownSeconds db db' t t' := by
  have hmem : ∀ ev', ev ≠ ev' → (ev' ∈ t'.done ↔ ev' ∈ t.done) := by
    intro ev' hne
    rw [hdone, List.mem_append, List.mem_singleton, or_iff_left (Ne.symm hne)]
  refine .quiet hdb (hmem _ hcommit) (fun now => hmem _ (hclock now)) ?_
  unfold ClaimTask.Refused
  rw [hargs]
  refine exists₂_congr fun now row => and_congr (hmem _ (hclock now)) (and_congr_right fun _ => ?_)
  exact hmem _ (hquery row)

/-- One step of a call, from any point it may be at: asking for the time, reading the record,
writing it, committing, and closing the session. At each point what it holds is what it has read
itself. -/
theorem ClaimPoint.step (h : ClaimPoint cooldownSeconds n key w.db t)
    (hstep : (claimCrew cooldownSeconds).step n t w ev t' w') :
    ClaimPoint cooldownSeconds n key w'.db t' ∧ ClaimStep cooldownSeconds w.db w'.db t t' := by
  obtain ⟨k, hrest, hsem, rfl⟩ := hstep
  rcases ev with ⟨e, r⟩
  cases h with
  -- the time
  | start hown =>
    rw [claimSlot_eq] at hrest
    cases hrest
    obtain ⟨⟨rfl, -⟩, hdb⟩ := hsem
    dsimp only
    rw [hdb]
    refine ⟨?_, .dated _ rfl rfl rfl⟩
    unfold claimTimed
    split
    · exact .dated _ hown
    · exact .closing _ trivial
  -- the record, which decides
  | dated now hown =>
    cases hrest
    obtain ⟨⟨rfl, hdb⟩ | ⟨⟨message, rfl⟩, hdb⟩, -⟩ := hsem
    · rw [hdb, Sqlite.view_of_not_owns hown]
      dsimp only
      refine ⟨?_, .looked now _ rfl rfl rfl rfl⟩
      split
      · rename_i hforce
        obtain ⟨row, hrow, hforce⟩ := (Option.any_eq_true _ _).mp hforce
        refine .closing _ ⟨now, row, List.mem_cons_self, of_decide_eq_true hforce, ?_⟩
        exact List.mem_cons_of_mem _ (List.mem_singleton.mpr (by rw [← hrow]; rfl))
      · rename_i hout
        refine .free now _ hown fun row hrow hforce => hout ?_
        exact (Option.any_eq_true _ _).mpr ⟨row, hrow, decide_eq_true hforce⟩
    · rw [hdb]
      exact ⟨.closing _ trivial, .of_append rfl rfl rfl nofun nofun nofun⟩
  -- the upsert
  | free now existing hown hfree =>
    cases hrest
    obtain ⟨⟨-, rfl, hdb⟩ | ⟨⟨message, rfl⟩, hdb⟩, -⟩ := hsem
    · rw [hdb, Sqlite.view_of_not_owns hown]
      exact ⟨.written now existing _ rfl (cooldown_upsert _ _) hfree,
        .of_append rfl rfl rfl nofun nofun nofun⟩
    · rw [hdb]
      exact ⟨.closing _ trivial, .of_append rfl rfl rfl nofun nofun nofun⟩
  -- the commit, by which the slot is taken
  | written now existing work htx hwork hfree =>
    cases hrest
    obtain ⟨⟨rfl, hdb⟩ | ⟨⟨message, rfl⟩, hdb⟩, -⟩ := hsem
    · rw [hdb, Sqlite.commit_of_tx htx]
      refine ⟨.closing _ ?_, .took now existing rfl rfl hfree hwork⟩
      exact List.mem_append_right _ List.mem_cons_self
    · rw [hdb]
      exact ⟨.closing _ trivial, .of_append rfl rfl rfl nofun nofun nofun⟩
  -- the end of the session
  | closing outcome hverdict =>
    cases hrest
    obtain ⟨⟨rfl, hdb⟩, -⟩ := hsem
    rw [hdb]
    exact ⟨.ended outcome (hverdict.append rfl rfl),
      .of_append (Sqlite.rollback_committed ..) rfl rfl nofun nofun nofun⟩
  | ended outcome hverdict => cases outcome <;> cases hrest

end Steps

/-! ## Runs -/

/-- A pool of calls with one cooldown. -/
abbrev ClaimPool : Type := Pool ClaimTask (World wallClock)

/-- Call `n` took the slot of `key`, having read `now` from the clock. -/
def Takes (pool : ClaimPool) (n : Nat) (key : PrKey) (now : Nat) : Prop :=
  ∃ t, pool.tasks n = some t ∧ t.args = key ∧ t.Took ∧ t.Reads now

/-- Two times at least a cooldown apart. -/
def Apart (cooldownSeconds a b : Nat) : Prop :=
  a + cooldownWindow cooldownSeconds ≤ b ∨ b + cooldownWindow cooldownSeconds ≤ a

instance (cooldownSeconds a b : Nat) : Decidable (Apart cooldownSeconds a b) :=
  inferInstanceAs (Decidable (_ ∨ _))

/-- The record of each pull request is the last claim of its slot. -/
structure ClaimInv (cooldownSeconds : Nat) (pool : ClaimPool) : Prop where
  points : ∀ n t, pool.tasks n = some t → ClaimPoint cooldownSeconds n t.args pool.state.db t
  /-- the write lock belongs to a call -/
  owner : ∀ n, pool.state.db.Owns (.call n) → (pool.tasks n).isSome
  clock : ∀ n t a b, pool.tasks n = some t → t.Reads a → t.Reads b → a = b
  recorded : ∀ key row, pool.state.db.committed.cooldown key = some row →
    ∃ n, Takes pool n key row.lastPostedAt
  latest : ∀ n key now, Takes pool n key now →
    ∃ row, pool.state.db.committed.cooldown key = some row ∧ now ≤ row.lastPostedAt
  apart : ∀ m n key a b, m ≠ n → Takes pool m key a → Takes pool n key b →
    Apart cooldownSeconds a b
  /-- who is refused was preceded by one who took the slot -/
  refused : ∀ n t now, pool.tasks n = some t → t.Refused cooldownSeconds → t.Reads now →
    ∃ m a, m ≠ n ∧ Takes pool m t.args a ∧ now < a + cooldownWindow cooldownSeconds

section Runs

variable {cooldownSeconds : Nat} {pool pool' : ClaimPool}

/-- Nobody took a slot, and no record was written. -/
theorem ClaimInv.of_same (h : ClaimInv cooldownSeconds pool)
    (hdb : pool'.state.db.committed = pool.state.db.committed)
    (htakes : ∀ n key now, Takes pool' n key now ↔ Takes pool n key now)
    (hpoints : ∀ n t, pool'.tasks n = some t →
      ClaimPoint cooldownSeconds n t.args pool'.state.db t)
    (howner : ∀ n, pool'.state.db.Owns (.call n) → (pool'.tasks n).isSome)
    (hclock : ∀ n t a b, pool'.tasks n = some t → t.Reads a → t.Reads b → a = b)
    (hrefused : ∀ n t now, pool'.tasks n = some t → t.Refused cooldownSeconds → t.Reads now →
      ∃ m a, m ≠ n ∧ Takes pool m t.args a ∧ now < a + cooldownWindow cooldownSeconds) :
    ClaimInv cooldownSeconds pool' where
  points := hpoints
  owner := howner
  clock := hclock
  recorded key row hrow := by
    rw [hdb] at hrow
    obtain ⟨n, hn⟩ := h.recorded key row hrow
    exact ⟨n, (htakes ..).mpr hn⟩
  latest n key now hn := by
    rw [hdb]
    exact h.latest n key now ((htakes ..).mp hn)
  apart m n key a b hne hm hn := h.apart m n key a b hne ((htakes ..).mp hm) ((htakes ..).mp hn)
  refused n t now ht hrefused' hreads := by
    obtain ⟨m, a, hne, hm, hlt⟩ := hrefused n t now ht hrefused' hreads
    exact ⟨m, a, hne, (htakes ..).mpr hm, hlt⟩

variable {n : Nat} {t t' : ClaimTask} {w' : World wallClock}

/-- Who took a slot after a step of call `n`. -/
theorem takes_put {m : Nat} {key : PrKey} {now : Nat} : Takes (pool.put n t' w') m key now ↔
      (m = n ∧ t'.args = key ∧ t'.Took ∧ t'.Reads now) ∨ (m ≠ n ∧ Takes pool m key now) := by
  constructor
  · rintro ⟨u, hu, hkey, htook, hreads⟩
    rcases Pool.put_cases hu with ⟨rfl, rfl⟩ | ⟨hne, hold⟩
    · exact Or.inl ⟨rfl, hkey, htook, hreads⟩
    · exact Or.inr ⟨hne, u, hold, hkey, htook, hreads⟩
  · rintro (⟨rfl, hkey, htook, hreads⟩ | ⟨hne, u, hu, hrest⟩)
    · exact ⟨t', Pool.put_tasks_self .., hkey, htook, hreads⟩
    · exact ⟨u, by rw [Pool.put_tasks_of_ne pool hne, hu], hrest⟩

/-- A step that leaves open what it left open before. -/
theorem takes_put_same (hn : pool.tasks n = some t) (hargs : t'.args = t.args)
    (htook : t'.Took ↔ t.Took) (hreads : t.Took → ∀ now, t'.Reads now ↔ t.Reads now) (m : Nat)
    (key : PrKey) (now : Nat) : Takes (pool.put n t' w') m key now ↔ Takes pool m key now := by
  rw [takes_put]
  by_cases hm : m = n
  · subst hm
    rw [or_iff_left fun h => h.1 rfl, and_iff_right rfl, hargs, htook]
    constructor
    · rintro ⟨hkey, ht, hnow⟩
      exact ⟨t, hn, hkey, ht, (hreads ht now).mp hnow⟩
    · rintro ⟨u, hu, hkey, ht, hnow⟩
      obtain rfl := Option.some.inj (hn.symm.trans hu)
      exact ⟨hkey, ht, (hreads ht now).mpr hnow⟩
  · rw [or_iff_right fun h => hm h.1, and_iff_right hm]

/-- The clock of a call is read once. -/
theorem ClaimTask.reads_cons {now a : Nat} {rest : Prog.Trace Req Req.Resp PyError}
    (hdone : t.done = ⟨.ext .utcnow, .ok now⟩ :: rest)
    (hrest : ∀ ev ∈ rest, ∀ a, ev ≠ ⟨.ext .utcnow, .ok a⟩) (h : t.Reads a) : a = now := by
  unfold ClaimTask.Reads at h
  rw [hdone] at h
  rcases List.mem_cons.mp h with h | h
  · cases h
    rfl
  · exact absurd rfl (hrest _ h a)

/-- One step of call `n`. A statement that is not the commit of a claim changes no record; the
commit of one is at least a cooldown after the record that its SELECT found, as nobody has claimed
the slot in between. -/
theorem ClaimInv.task {ev : Σ e : Req, Except PyError e.Resp} (h : ClaimInv cooldownSeconds pool)
    (hn : pool.tasks n = some t)
    (hstep : (claimCrew cooldownSeconds).step n t pool.state ev t' w')
    (hdecide : NoneDeciding pool n ev) :
    ClaimInv cooldownSeconds (pool.put n t' w') := by
  obtain ⟨hpoint, hkind⟩ := (h.points n t hn).step hstep
  obtain ⟨k, -, hsem, ht'⟩ := hstep
  have hargs : t'.args = t.args := by rw [ht']
  -- a call that is about to write finds the record as it has read it: only a commit of its own
  -- pull request could have changed it
  have hkeep : ∀ m u, m ≠ n → pool.tasks m = some u → u.Deciding →
      w'.db.committed.cooldown u.args = pool.state.db.committed.cooldown u.args := by
    intro m u hne hm hdeciding
    cases hkind with
    | took now existing hdone' hdone _ hwritten =>
      rw [hwritten]
      refine if_neg fun heq => ?_
      have hev : ev = ⟨.sql .commit, .ok ()⟩ := by
        rw [ht'] at hdone
        exact List.singleton_injective (List.append_cancel_left hdone)
      exact hdecide hev t m u hn hne hm heq hdeciding
    | dated now hdone hdone' hdb => rw [hdb]
    | looked now existing hdone hdone' hread hdb => rw [hdb]
    | quiet hdb htook hreads hrefused => rw [hdb]
  have hpoints : ∀ m u, (pool.put n t' w').tasks m = some u →
      ClaimPoint cooldownSeconds m u.args w'.db u := by
    intro m u hu
    rcases Pool.put_cases hu with ⟨rfl, rfl⟩ | ⟨hne, hold⟩
    · rw [hargs]
      exact hpoint
    · refine (h.points m u hold).frame (actorStep_of_sem hsem) (fun heq => hne ?_)
        (hkeep m u hne hold)
      cases heq
      rfl
  have howner : ∀ m, w'.db.Owns (.call m) → ((pool.put n t' w').tasks m).isSome := by
    intro m hown
    by_cases hm : m = n
    · rw [hm, Pool.put_tasks_self]
      rfl
    · rw [Pool.put_tasks_of_ne pool hm]
      refine h.owner m (by_contra fun hnone => ?_)
      refine (actorStep_of_sem hsem).not_owns (fun heq => hm ?_) hnone hown
      cases heq
      rfl
  -- the clock of the others was read before
  have hclock : (∀ a b, t'.Reads a → t'.Reads b → a = b) → ∀ m u a b,
      (pool.put n t' w').tasks m = some u → u.Reads a → u.Reads b → a = b := by
    intro hself m u a b hu
    rcases Pool.put_cases hu with ⟨rfl, rfl⟩ | ⟨-, hold⟩
    · exact hself a b
    · exact h.clock m u a b hold
  have hrefused : (∀ now, t'.Refused cooldownSeconds → t'.Reads now → ∃ m a, m ≠ n ∧
      Takes pool m t'.args a ∧ now < a + cooldownWindow cooldownSeconds) → ∀ m u now,
      (pool.put n t' w').tasks m = some u → u.Refused cooldownSeconds → u.Reads now →
      ∃ m' a, m' ≠ m ∧ Takes pool m' u.args a ∧ now < a + cooldownWindow cooldownSeconds := by
    intro hself m u now hu
    rcases Pool.put_cases hu with ⟨rfl, rfl⟩ | ⟨-, hold⟩
    · exact hself now
    · exact h.refused m u now hold
  cases hkind with
  | dated now hdone hdone' hdb =>
    have hnone : ¬ t.Took := by
      unfold ClaimTask.Took
      rw [hdone]
      exact List.not_mem_nil
    have hnone' : ¬ t'.Took := by
      unfold ClaimTask.Took
      rw [hdone', List.mem_singleton]
      exact fun heq => by cases congrArg Sigma.fst heq
    have hnow : ∀ a, t'.Reads a → a = now :=
      fun a => ClaimTask.reads_cons hdone' fun _ hmem => absurd hmem List.not_mem_nil
    refine h.of_same hdb (takes_put_same hn hargs (iff_of_false hnone' hnone)
      fun htook => absurd htook hnone) hpoints howner (hclock fun a b ha hb => ?_) (hrefused ?_)
    · rw [hnow a ha, hnow b hb]
    · rintro now' ⟨a, row, -, -, hquery⟩
      rw [hdone', List.mem_singleton] at hquery
      cases congrArg Sigma.fst hquery
  | looked now existing hdone hdone' hread hdb =>
    have hnone : ¬ t.Took := by
      unfold ClaimTask.Took
      rw [hdone, List.mem_singleton]
      exact fun heq => by cases congrArg Sigma.fst heq
    have hnone' : ¬ t'.Took := by
      unfold ClaimTask.Took
      rw [hdone', List.mem_cons, List.mem_singleton]
      rintro (heq | heq) <;> cases congrArg Sigma.fst heq
    have hnow : ∀ a, t'.Reads a → a = now := by
      refine fun a => ClaimTask.reads_cons hdone' fun ev' hmem b heq => ?_
      rw [List.mem_singleton.mp hmem] at heq
      cases congrArg Sigma.fst heq
    refine h.of_same hdb (takes_put_same hn hargs (iff_of_false hnone' hnone)
      fun htook => absurd htook hnone) hpoints howner (hclock fun a b ha hb => ?_) (hrefused ?_)
    · rw [hnow a ha, hnow b hb]
    · rintro now' ⟨a, row, ha, hforce, hquery⟩ hnow'
      rw [hargs, hdone'] at hquery
      obtain rfl : existing = some row := by
        rcases List.mem_cons.mp hquery with hquery | hquery
        · cases congrArg Sigma.fst hquery
        · cases List.mem_singleton.mp hquery
          rfl
      obtain ⟨m, hm⟩ := h.recorded t.args row hread
      refine ⟨m, row.lastPostedAt, ?_, hargs ▸ hm, ?_⟩
      · rintro rfl
        obtain ⟨u, hu, -, htook, -⟩ := hm
        obtain rfl := Option.some.inj (hn.symm.trans hu)
        exact hnone htook
      · rw [hnow now' hnow', ← hnow a ha]
        exact hforce
  | took now existing hdone' hdone hfree hwritten =>
    have hdone₀ := List.append_cancel_right (hdone.symm.trans hdone' : t.done ++ _ = [_, _, _] ++ _)
    have hnone : ¬ t.Took := by
      unfold ClaimTask.Took
      rw [hdone₀]
      simp only [List.mem_cons, List.not_mem_nil, or_false]
      rintro (heq | heq | heq) <;> cases congrArg Sigma.fst heq
    have htook : t'.Took := by
      unfold ClaimTask.Took
      rw [hdone]
      exact List.mem_append_right _ List.mem_cons_self
    have hreads : ∀ a, t'.Reads a ↔ t.Reads a := by
      intro a
      unfold ClaimTask.Reads
      rw [hdone, List.mem_append, List.mem_singleton]
      exact or_iff_left fun heq => by cases congrArg Sigma.fst heq
    have hself : t'.Reads now := by
      unfold ClaimTask.Reads
      rw [hdone']
      exact List.mem_cons_self
    have hnow : ∀ a, t'.Reads a → a = now :=
      fun a ha => h.clock n t a now hn ((hreads a).mp ha) ((hreads now).mp hself)
    have hne : ∀ {m key a}, Takes pool m key a → m ≠ n := by
      rintro m key a ⟨u, hu, -, hu', -⟩ rfl
      obtain rfl := Option.some.inj (hn.symm.trans hu)
      exact hnone hu'
    have hkeep : ∀ {m key a}, Takes pool m key a → Takes (pool.put n t' w') m key a :=
      fun hm => takes_put.mpr (Or.inr ⟨hne hm, hm⟩)
    -- the slots taken before are out of the cooldown
    have hold : ∀ {m a}, Takes pool m t.args a → a + cooldownWindow cooldownSeconds ≤ now := by
      intro m a hm
      obtain ⟨row, hrow, hle⟩ := h.latest m t.args a hm
      have hout := hfree row hrow
      unfold FailureCooldown.InForce at hout
      unfold cooldownWindow
      omega
    refine ⟨hpoints, howner, hclock fun a b ha hb => ?_, ?_, ?_, ?_, ?_⟩
    · rw [hnow a ha, hnow b hb]
    · intro key row hrow
      rw [Pool.put_state, hwritten] at hrow
      split at hrow
      · rename_i hkey
        cases hrow
        exact ⟨n, takes_put.mpr (Or.inl ⟨rfl, hargs.trans hkey.symm, htook, hself⟩)⟩
      · obtain ⟨m, hm⟩ := h.recorded key row hrow
        exact ⟨m, hkeep hm⟩
    · intro m key a hm
      rw [Pool.put_state, hwritten]
      rcases takes_put.mp hm with ⟨-, hkey, -, ha⟩ | ⟨-, hm⟩
      · rw [if_pos (hkey.symm.trans hargs)]
        exact ⟨_, rfl, (hnow a ha).le⟩
      · split
        · rename_i hkey
          exact ⟨_, rfl, le_trans (Nat.le_add_right _ _) (hold (hkey ▸ hm))⟩
        · exact h.latest m key a hm
    · intro m m' key a b hmm' hm hm'
      rcases takes_put.mp hm with ⟨hmn, hkey, -, ha⟩ | ⟨-, hold₁⟩
      · rcases takes_put.mp hm' with ⟨hmn', -⟩ | ⟨-, hold₂⟩
        · exact absurd (hmn.trans hmn'.symm) hmm'
        · rw [hnow a ha]
          exact Or.inr (hold (hargs ▸ hkey ▸ hold₂))
      · rcases takes_put.mp hm' with ⟨-, hkey, -, hb⟩ | ⟨-, hold₂⟩
        · rw [hnow b hb]
          exact Or.inl (hold (hargs ▸ hkey ▸ hold₁))
        · exact h.apart m m' key a b hmm' hold₁ hold₂
    · intro m u now' hu hforce hnow'
      obtain ⟨m', a, hmm', hm', hlt⟩ : ∃ m' a, m' ≠ m ∧ Takes pool m' u.args a ∧
          now' < a + cooldownWindow cooldownSeconds := by
        refine hrefused (fun now' hself' hnow' => ?_) m u now' hu hforce hnow'
        obtain ⟨b, row, hb, hin, hquery⟩ := hself'
        rw [hdone, hargs] at hquery
        rw [hargs]
        refine h.refused n t now' hn ⟨b, row, (hreads b).mp hb, hin, ?_⟩ ((hreads now').mp hnow')
        rcases List.mem_append.mp hquery with hquery | hquery
        · exact hquery
        · cases congrArg Sigma.fst (List.mem_singleton.mp hquery)
      exact ⟨m', a, hmm', hkeep hm', hlt⟩
  | quiet hdb htook hreads hrefusedIff =>
    refine h.of_same hdb (takes_put_same hn hargs htook fun _ => hreads) hpoints
      howner (hclock fun a b ha hb => ?_) (hrefused fun now hself hnow => ?_)
    · exact h.clock n t a b hn ((hreads a).mp ha) ((hreads b).mp hb)
    · rw [hargs]
      exact h.refused n t now hn (hrefusedIff.mp hself) ((hreads now).mp hnow)

end Runs

section Runs

variable {cooldownSeconds : Nat} {pool : ClaimPool}

/-- No call has been made, and no record is there. -/
def Unclaimed (w : World wallClock) : Prop :=
  (∀ key, w.db.committed.cooldown key = none) ∧ w.db.tx = none

/-- A run of calls that do not overlap is a run in which no call commits while another one of its
pull request is about to write: the others have not begun, or are over. -/
theorem reachable_of_alone (h : Pool.ReachableIf (claimCrew cooldownSeconds) Unclaimed
    (Alone cooldownSeconds) pool) :
    Pool.ReachableIf (claimCrew cooldownSeconds) Unclaimed NoneDeciding pool :=
  h.mono fun _ _ _ halone => halone.noneDeciding

/-- The invariant of any number of interleaved calls. A call takes the slot only where the record
was out of force when it read it; that it still is when it writes is the condition on the run. -/
theorem claimInv_of_reachable
    (h : Pool.ReachableIf (claimCrew cooldownSeconds) Unclaimed NoneDeciding pool) :
    ClaimInv cooldownSeconds pool := by
  refine h.keeps (fun w hw => ?_) (fun pool w hinv hdrift => ?_) (fun pool n t hinv hn hstart => ?_)
    fun pool n t ev t' w' hinv hn hstep hnone => hinv.task hn hstep hnone
  · -- at the start nobody has taken a slot
    have htakes : ∀ n key now, ¬ Takes (Pool.idle w) n key now := by
      rintro n key now ⟨t, ht, -⟩
      cases ht
    exact {
      points := nofun
      owner := fun n ⟨work, htx⟩ => by cases hw.2.symm.trans htx
      clock := nofun
      recorded := fun key row hrow => by cases (hw.1 key).symm.trans hrow
      latest := fun n key now hn => absurd hn (htakes n key now)
      apart := fun m n key a b _ hm => absurd hm (htakes m key a)
      refused := nofun }
  · -- the clock moves on
    refine hinv.of_same (congrArg Sqlite.committed hdrift.1) (fun _ _ _ => Iff.rfl)
      (fun n t ht => ?_) (fun n hown => ?_) hinv.clock hinv.refused
    · have hpoint := hinv.points n t ht
      rwa [← hdrift.1] at hpoint
    · rw [hdrift.1] at hown
      exact hinv.owner n hown
  · -- a call starts, and has done nothing yet
    obtain ⟨hdone, hrest⟩ := hstart
    have hnothing : ∀ ev, ev ∉ t.done := fun ev => by
      rw [hdone]
      exact List.not_mem_nil
    have htakes : ∀ m key now,
        Takes (pool.put n t pool.state) m key now ↔ Takes pool m key now := by
      intro m key now
      rw [takes_put]
      constructor
      · rintro (⟨-, -, htook, -⟩ | ⟨-, hm⟩)
        · exact absurd htook (hnothing _)
        · exact hm
      · rintro ⟨u, hu, hrest⟩
        refine Or.inr ⟨?_, u, hu, hrest⟩
        rintro rfl
        cases hn.symm.trans hu
    refine hinv.of_same rfl htakes (fun m u hu => ?_) (fun m hown => ?_)
      (fun m u a b hu => ?_) fun m u now hu => ?_
    · rcases Pool.put_cases hu with ⟨rfl, rfl⟩ | ⟨-, hold⟩
      · have hown : ¬ pool.state.db.Owns (.call m) := fun hown => by
          have := hinv.owner m hown
          rw [hn] at this
          cases this
        have hpoint : ClaimPoint cooldownSeconds m u.args pool.state.db
            ⟨u.args, [], claimSlot cooldownSeconds u.args⟩ := .start hown
        rcases u with ⟨key, done, rest⟩
        obtain rfl : done = [] := hdone
        obtain rfl : rest = claimSlot cooldownSeconds key := hrest
        exact hpoint
      · exact hinv.points m u hold
    · by_cases hm : m = n
      · rw [hm, Pool.put_tasks_self]
        rfl
      · rw [Pool.put_tasks_of_ne pool hm]
        exact hinv.owner m hown
    · rcases Pool.put_cases hu with ⟨rfl, rfl⟩ | ⟨-, hold⟩
      · exact fun ha => absurd ha (hnothing _)
      · exact hinv.clock m u a b hold
    · rcases Pool.put_cases hu with ⟨rfl, rfl⟩ | ⟨-, hold⟩
      · exact fun _ hnow => absurd hnow (hnothing _)
      · exact hinv.refused m u now hold

/-- Two calls of a pull request that return `True` read the clock a cooldown apart, and one that
returns `False`, or is about to, was preceded by one that took the slot less than that before. -/
theorem claims_apart
    (h : Pool.ReachableIf (claimCrew cooldownSeconds) Unclaimed NoneDeciding pool) :
    (∀ m n tm tn a b, m ≠ n → pool.tasks m = some tm → pool.tasks n = some tn → tm.args = tn.args →
      tm.rest = .ret true → tn.rest = .ret true → tm.Reads a → tn.Reads b →
      Apart cooldownSeconds a b) ∧
    ∀ n t now, pool.tasks n = some t → t.rest = .ret false ∨ t.Refused cooldownSeconds →
      t.Reads now → ∃ m tm a, m ≠ n ∧ pool.tasks m = some tm ∧ tm.args = t.args ∧ tm.Took ∧
        tm.Reads a ∧ now < a + cooldownWindow cooldownSeconds := by
  have hinv := claimInv_of_reachable h
  refine ⟨fun m n tm tn a b hne hm hn hargs htrue htrue' ha hb => ?_,
    fun n t now hn hfalse hnow => ?_⟩
  · exact hinv.apart m n tn.args a b hne ⟨tm, hm, hargs, (hinv.points m tm hm).verdict htrue, ha⟩
      ⟨tn, hn, rfl, (hinv.points n tn hn).verdict htrue', hb⟩
  · have hrefused : t.Refused cooldownSeconds :=
      hfalse.elim (hinv.points n t hn).verdict id
    obtain ⟨m, a, hne, ⟨tm, htm, hargs, htook, ha⟩, hlt⟩ := hinv.refused n t now hn hrefused hnow
    exact ⟨m, tm, a, hne, htm, hargs, htook, ha, hlt⟩

end Runs

/-! ## Two schedules -/

section Schedules

/-- The clock and the store, when no statement fails. -/
def claimAnswer (n : Nat) : (e : Req) → World wallClock →
    Option (Except PyError e.Resp × World wallClock)
  | .sql q, w => (w.db.run (.call n) q).map fun (r, db) => (r, { w with db })
  | .ext .utcnow, w => some (.ok w.ext, w)
  | .ext _, _ => none

theorem claimAnswer_sound (n : Nat) (e : Req) (w : World wallClock) (r : Except PyError e.Resp)
    (w' : World wallClock) (h : claimAnswer n e w = some (r, w')) :
    sem wallClock (.call n) e w r w' := by
  cases e with
  | sql q =>
    obtain ⟨⟨r', db⟩, hrun, heq⟩ := Option.map_eq_some_iff.mp h
    cases heq
    exact ⟨Sqlite.run_sound hrun, rfl⟩
  | ext e =>
    cases e with
    | utcnow =>
      cases h
      exact ⟨⟨rfl, rfl⟩, rfl⟩
    | _ => cases h

/-- Time passes. -/
def passes (micros : Nat) (w : World wallClock) : World wallClock :=
  { w with ext := Nat.add w.ext micros }

/-- The clock a call has read. -/
def ClaimTask.clock (t : ClaimTask) : Option Nat :=
  match t.done with
  | ⟨.ext .utcnow, .ok now⟩ :: _ => some now
  | _ => none

theorem ClaimTask.reads_clock {t : ClaimTask} {now : Nat} (h : t.clock = some now) :
    t.Reads now := by
  unfold ClaimTask.clock at h
  split at h
  · rename_i now' rest hdone
    cases h
    unfold ClaimTask.Reads
    rw [hdone]
    exact List.mem_cons_self
  · cases h

/-- What a call has returned. -/
def ClaimTask.returned (t : ClaimTask) : Option Bool :=
  match t.rest with
  | .ret outcome => some outcome
  | _ => none

theorem ClaimTask.rest_of_returned {t : ClaimTask} {outcome : Bool}
    (h : t.returned = some outcome) : t.rest = .ret outcome := by
  unfold ClaimTask.returned at h
  split at h
  · rename_i outcome' hrest
    cases h
    exact hrest
  · cases h

/-- Call `n` of a pull request read `now` and returned `outcome`. -/
def Returned (n : Nat) (key : PrKey) (now : Nat) (outcome : Bool) (pool : ClaimPool) : Bool :=
  (pool.tasks n).any fun t => t.args = key ∧ t.clock = some now ∧ t.returned = some outcome

theorem of_returned {n : Nat} {key : PrKey} {now : Nat} {outcome : Bool} {pool : ClaimPool}
    (h : Returned n key now outcome pool = true) :
    ∃ t, pool.tasks n = some t ∧ t.args = key ∧ t.Reads now ∧ t.rest = .ret outcome := by
  obtain ⟨t, ht, hall⟩ := (Option.any_eq_true _ _).mp h
  obtain ⟨hargs, hclock, hreturned⟩ := of_decide_eq_true hall
  exact ⟨t, ht, hargs, t.reads_clock hclock, t.rest_of_returned hreturned⟩

/-- The store before the first call. -/
def noClaims : World wallClock := { db := { committed := Db.empty }, ext := (0 : Nat) }

theorem unclaimed_noClaims : Unclaimed noClaims := ⟨fun _ => rfl, rfl⟩

/-- The next request of a call is its upsert. -/
def ClaimTask.writesNext (t : ClaimTask) : Bool :=
  match t.rest with
  | .call (.sql (.dml (.upsertFailureCooldown _))) _ => true
  | _ => false

theorem ClaimTask.Deciding.writesNext {t : ClaimTask} (h : t.Deciding) : t.writesNext = true := by
  obtain ⟨now, hrest⟩ := h
  unfold ClaimTask.writesNext
  rw [hrest]
  rfl

/-- Of the first `count` calls none but `n` is about to write, if this step is a commit. -/
def noneWriting (count : Nat) (pool : ClaimPool) :
    Option (Nat × Σ e : Req, Except PyError e.Resp) → Bool
  | some (n, ⟨.sql .commit, _⟩) =>
    (List.range count).all fun m => m = n ∨ !(pool.tasks m).any ClaimTask.writesNext
  | _ => true

/-- A schedule of calls is a run. -/
theorem claims_of_execute (cooldownSeconds : Nat)
    {P : ClaimPool → Nat → (Σ e : Req, Except PyError e.Resp) → Prop}
    (allowed : ClaimPool → Option (Nat × Σ e : Req, Except PyError e.Resp) → Bool)
    (commands : List (Pool.Command PrKey Nat))
    (hallowed : ∀ pool n ev, Pool.StartedBy commands pool → allowed pool (some (n, ev)) = true →
      P pool n ev)
    (test : ClaimPool → Bool)
    (h : (Schedule.execute (Pool.perform (claimSlot cooldownSeconds) claimAnswer passes) allowed
      commands (Pool.idle noClaims)).any test = true) :
    ∃ pool, Pool.ReachableIf (claimCrew cooldownSeconds) Unclaimed P pool ∧ test pool = true := by
  have hmove : ∀ micros w,
      (passes micros w).db = w.db ∧ wallClock.move w.ext (passes micros w).ext :=
    fun micros w => ⟨rfl, Nat.le_add_right w.ext micros⟩
  exact Pool.reachable_of_execute claimAnswer_sound hmove hallowed unclaimed_noClaims h

/-- Two calls read the record before either writes it. -/
def overlapping : List (Pool.Command PrKey Nat) :=
  [.start 0 ("o/r", 7), .start 1 ("o/r", 7), .ask 0, .ask 1, .ask 0, .ask 1,
   .ask 0, .ask 0, .ask 0, .ask 1, .ask 1, .ask 1]

/-- Both may post a failure comment. -/
theorem slot_taken_twice : ∃ pool, Pool.Reachable (claimCrew 3600) Unclaimed pool ∧
    ∃ m n tm tn a b, m ≠ n ∧ pool.tasks m = some tm ∧ pool.tasks n = some tn ∧ tm.args = tn.args ∧
      tm.rest = .ret true ∧ tn.rest = .ret true ∧ tm.Reads a ∧ tn.Reads b ∧ ¬ Apart 3600 a b := by
  obtain ⟨pool, hpool, htest⟩ := claims_of_execute 3600 (fun _ _ => true) overlapping
    (fun _ _ _ _ _ => trivial)
    (fun pool => Returned 0 ("o/r", 7) 0 true pool && Returned 1 ("o/r", 7) 0 true pool)
    (by decide +kernel)
  obtain ⟨h₀, h₁⟩ := Bool.and_eq_true_iff.mp htest
  obtain ⟨t₀, ht₀, hargs₀, hreads₀, hrest₀⟩ := of_returned h₀
  obtain ⟨t₁, ht₁, hargs₁, hreads₁, hrest₁⟩ := of_returned h₁
  exact ⟨pool, hpool, 0, 1, t₀, t₁, 0, 0, by decide, ht₀, ht₁, hargs₀.trans hargs₁.symm, hrest₀,
    hrest₁, hreads₀, hreads₁, by decide⟩

/-- One call after the other: the second one within the cooldown of the first, the third at its
end. -/
def oneByOne : List (Pool.Command PrKey Nat) :=
  [.start 0 ("o/r", 7), .ask 0, .ask 0, .ask 0, .ask 0, .ask 0,
   .drift 100, .start 1 ("o/r", 7), .ask 1, .ask 1, .ask 1,
   .drift 3599999900, .start 2 ("o/r", 7), .ask 2, .ask 2, .ask 2, .ask 2, .ask 2]

theorem noneDeciding_oneByOne (pool : ClaimPool) (n : Nat)
    (ev : Σ e : Req, Except PyError e.Resp) (hstarted : Pool.StartedBy oneByOne pool)
    (h : noneWriting 3 pool (some (n, ev)) = true) : NoneDeciding pool n ev := by
  rintro rfl t m u hn hne hm hargs hdeciding
  have hlt : m < 3 := by
    obtain ⟨key, hmem⟩ := hstarted m u hm
    simp only [oneByOne, List.mem_cons, List.not_mem_nil, Pool.Command.start.injEq, reduceCtorEq,
      or_false, false_or] at hmem
    omega
  have hquiet := List.all_eq_true.mp h m (List.mem_range.mpr hlt)
  simp [hm, hdeciding.writesNext, hne] at hquiet

theorem claims_apart_oneByOne : Apart 3600 0 3600000000 ∧
    ∃ (pool : ClaimPool) (m : Nat) (tm : ClaimTask) (a : Nat), m ≠ 1 ∧ pool.tasks m = some tm ∧
      tm.args = ("o/r", 7) ∧ tm.Took ∧ tm.Reads a ∧ 100 < a + cooldownWindow 3600 := by
  obtain ⟨pool, hpool, htest⟩ := claims_of_execute 3600 (noneWriting 3) oneByOne
    noneDeciding_oneByOne (fun pool => Returned 0 ("o/r", 7) 0 true pool &&
      (Returned 1 ("o/r", 7) 100 false pool && Returned 2 ("o/r", 7) 3600000000 true pool))
    (by decide +kernel)
  obtain ⟨h₀, hrest⟩ := Bool.and_eq_true_iff.mp htest
  obtain ⟨h₁, h₂⟩ := Bool.and_eq_true_iff.mp hrest
  obtain ⟨t₀, ht₀, hargs₀, hreads₀, hrest₀⟩ := of_returned h₀
  obtain ⟨t₁, ht₁, hargs₁, hreads₁, hrest₁⟩ := of_returned h₁
  obtain ⟨t₂, ht₂, hargs₂, hreads₂, hrest₂⟩ := of_returned h₂
  refine ⟨(claims_apart hpool).1 0 2 t₀ t₂ 0 3600000000 (by decide) ht₀ ht₂
    (hargs₀.trans hargs₂.symm) hrest₀ hrest₂ hreads₀ hreads₂, ?_⟩
  obtain ⟨m, tm, a, hne, htm, hargs, htook, ha, hlt⟩ :=
    (claims_apart hpool).2 1 t₁ 100 ht₁ (Or.inl hrest₁) hreads₁
  exact ⟨pool, m, tm, a, hne, htm, hargs.trans hargs₁, htook, ha, hlt⟩

end Schedules

end VidiPr
