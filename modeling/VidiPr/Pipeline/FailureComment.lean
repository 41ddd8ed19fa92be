import VidiPr.Pipeline.Worker
import VidiPr.Service.Cooldown
import VidiPr.Transport.Traces

/-!
# Failure comments

Calls of `maybe_post_failure_comment` from `pipeline/failure.py`, one after the other, with any
answers of GitHub. A call takes the slot before it posts, and what becomes of the post changes
nothing about the slot.

* **`ends_claimSlot`** — what a finished claim has read and written.
* **`suppressed_iff_taken`** — a call is suppressed by an earlier call that took the slot, posted or
  not.
-/

namespace VidiPr

open Effect Prog Relational Text

-- the resolution of a repository name is not looked into
attribute [local irreducible] GitHubClient.splitRepo

/-! ## One claim -/

/-- The trace starts with a reading of the clock. -/
def ReadsAt (now : Nat) (tr : ReqTrace) : Prop := ∃ rest, tr = ⟨.ext .utcnow, .ok now⟩ :: rest

/-- A transaction was committed. -/
def isCommit : (Σ e : Req, Except PyError e.Resp) → Bool
  | ⟨.sql .commit, .ok _⟩ => true
  | _ => false

/-- What a claim did: `db` is the store it found, `db'` the one it left. -/
inductive SlotOutcome (cooldownSeconds : Nat) (key : PrKey) (db db' : Db) (tr : ReqTrace) :
    Except PyError Bool → Prop where
  | refused (now : Nat) (row : FailureCooldown) (hnow : ReadsAt now tr)
      (hrow : db.cooldown key = some row) (hforce : row.InForce now cooldownSeconds)
      (hdb : db' = db) (hcommit : tr.any isCommit = false) :
      SlotOutcome cooldownSeconds key db db' tr (.ok false)
  | took (now : Nat) (hnow : ReadsAt now tr)
      (hfree : ∀ row, db.cooldown key = some row → ¬ row.InForce now cooldownSeconds)
      (hdb : ∀ key', db'.cooldown key' =
        if key' = key then some ⟨key.1, key.2, now⟩ else db.cooldown key')
      (hcommit : tr.any isCommit = true) :
      SlotOutcome cooldownSeconds key db db' tr (.ok true)
  | failed (now : Nat) (x : PyError) (hnow : ReadsAt now tr) (hdb : db' = db)
      (hcommit : tr.any isCommit = false) : SlotOutcome cooldownSeconds key db db' tr (.error x)

section Claim

variable {X : External} {a : Actor} {w w' : World X} {tr : ReqTrace}
  {r : Except PyError Bool} {cooldownSeconds : Nat} {key : PrKey}

/-- Closing the session drops what is not committed. -/
theorem ends_closing {outcome : Except PyError Bool}
    (h : Ends (sem X a) (closing outcome) w tr r w') :
    tr = [⟨.sql .rollback, .ok ()⟩] ∧ r = outcome ∧ ¬ w'.db.Owns a ∧
      w'.db.committed = w.db.committed := by
  obtain ⟨r₁, tr', w₁, rfl, ⟨⟨rfl, hdb⟩, -⟩, hrest⟩ := ends_call h
  obtain ⟨rfl, hr, rfl⟩ := run_ofExcept (show Run (sem X a) (ofExcept outcome)
    w₁ tr' _ w' from hrest)
  rw [hdb]
  exact ⟨rfl, ofExcept_inj hr, Sqlite.not_owns_rollback _ _, Sqlite.rollback_committed _ _⟩

/-- What one call of `claim_failure_slot` in its session can do: the cutoff is no date, the record
is still in force, the slot is taken, or a statement fails. Only the third writes. -/
theorem ends_claimSlot (hown : ¬ w.db.Owns a)
    (h : Ends (sem X a) (claimSlot cooldownSeconds key) w tr r w') :
    ¬ w'.db.Owns a ∧
      SlotOutcome cooldownSeconds key w.db.committed w'.db.committed tr r := by
  rw [claimSlot_eq] at h
  obtain ⟨r₁, tr₁, w₁, rfl, ⟨hclock, hdb₁⟩, h₁⟩ := ends_call h
  obtain ⟨now, rfl⟩ : ∃ now : Nat, r₁ = .ok now := X.possible hclock
  have hnow : ∀ rest, ReadsAt now (⟨.ext .utcnow, .ok now⟩ :: rest) := fun rest => ⟨rest, rfl⟩
  have hown₁ : ¬ w₁.db.Owns a := by rwa [hdb₁]
  dsimp only at h₁
  unfold claimTimed at h₁
  by_cases hrange : CooldownInRange now cooldownSeconds
  swap
  · -- the cutoff is no date: nothing is read or written
    rw [if_neg hrange] at h₁
    obtain ⟨rfl, rfl, hfree, hdb⟩ := ends_closing h₁
    rw [hdb, hdb₁]
    exact ⟨hfree, .failed now _ (hnow _) rfl rfl⟩
  rw [if_pos hrange] at h₁
  obtain ⟨r₂, tr₂, w₂, rfl, ⟨⟨rfl, hdb₂⟩ | ⟨⟨message, rfl⟩, hdb₂⟩, -⟩, h₂⟩ := ends_call h₁
  · -- the record has been read
    rw [Sqlite.view_of_not_owns hown₁, hdb₁] at h₂
    have hread : ∀ row : FailureCooldown, row.InForce now cooldownSeconds →
        w.db.committed.cooldown key = some row → (w.db.committed.cooldown key).any
          fun row => row.InForce now cooldownSeconds := by
      intro row hin hrow
      rw [hrow, Option.any_some]
      exact decide_eq_true hin
    dsimp only at h₂
    split at h₂
    · -- it is in force: the call gives way
      rename_i hforce
      obtain ⟨row, hrow, hin⟩ : ∃ row, w.db.committed.cooldown key = some row ∧
          decide (row.InForce now cooldownSeconds) = true := (Option.any_eq_true _ _).mp hforce
      obtain ⟨rfl, rfl, hfree, hdb⟩ := ends_closing h₂
      rw [hdb, hdb₂, hdb₁]
      exact ⟨hfree, .refused now row (hnow _) hrow (of_decide_eq_true hin) rfl rfl⟩
    · -- it is not, so the slot is written
      rename_i hout
      obtain ⟨r₃, tr₃, w₃, rfl, ⟨⟨-, rfl, hdb₃⟩ | ⟨⟨message, rfl⟩, hdb₃⟩, -⟩, h₃⟩ := ends_call h₂
      · rw [hdb₂, Sqlite.view_of_not_owns hown₁, hdb₁] at hdb₃
        obtain ⟨r₄, tr₄, w₄, rfl, ⟨⟨rfl, hdb₄⟩ | ⟨⟨message, rfl⟩, hdb₄⟩, -⟩, h₄⟩ := ends_call h₃
        · -- and committed
          obtain ⟨rfl, rfl, hfree, hdb⟩ := ends_closing h₄
          rw [hdb, hdb₄, Sqlite.commit_of_tx (by rw [hdb₃])]
          refine ⟨hfree, .took now (hnow _) (fun row hrow hin => hout (hread row hin hrow)) ?_ rfl⟩
          exact cooldown_upsert _ _
        · -- the commit fails, and the session takes the write back
          obtain ⟨rfl, rfl, hfree, hdb⟩ := ends_closing h₄
          rw [hdb, hdb₄, hdb₃]
          exact ⟨hfree, .failed now _ (hnow _) rfl rfl⟩
      · -- the upsert fails
        obtain ⟨rfl, rfl, hfree, hdb⟩ := ends_closing h₃
        rw [hdb, hdb₃, hdb₂, hdb₁]
        exact ⟨hfree, .failed now _ (hnow _) rfl rfl⟩
  · -- the record could not be read
    obtain ⟨rfl, rfl, hfree, hdb⟩ := ends_closing h₂
    rw [hdb, hdb₂, hdb₁]
    exact ⟨hfree, .failed now _ (hnow _) rfl rfl⟩

end Claim

/-! ## One call -/

/-- The clock never goes back; GitHub may answer anything. -/
def posting : External where
  State := Nat
  answer
    | .utcnow, now, r, now' => r = .ok now ∧ now ≤ now'
    | e, now, r, now' => e.Possible r ∧ now ≤ now'
  move now now' := now ≤ now'
  possible := by
    intro e s r s' h
    cases e with
    | utcnow => exact ⟨_, h.1⟩
    | _ => exact h.1

/-- A comment was created. -/
def isComment : (Σ e : Req, Except PyError e.Resp) → Bool
  | ⟨.ext (.github _ (.issuesCreateComment ..)), .ok _⟩ => true
  | _ => false

/-- A finished call: of which pull request, with which cooldown, what it did and how it ended. -/
structure PostCall where
  key : PrKey
  cooldownSeconds : Nat
  trace : ReqTrace
  outcome : Except PyError Bool

namespace PostCall

/-- The call took the slot: whoever comes next finds its time in the record. -/
def Took (call : PostCall) : Prop := call.trace.any isCommit

/-- A comment was created. -/
def Commented (call : PostCall) : Prop := call.trace.any isComment

/-- The call answered `False` for the cooldown. -/
def Suppressed (call : PostCall) : Prop := call.outcome = .ok false ∧ ¬ call.Took

instance (call : PostCall) : Decidable call.Took := inferInstanceAs (Decidable (_ = true))

instance (call : PostCall) : Decidable call.Commented := inferInstanceAs (Decidable (_ = true))

end PostCall

/-- Calls one after the other, the last one first, with pauses between them. -/
inductive PostHistory [UnicodeDb] : List PostCall → World posting → Prop where
  | start {w : World posting} (hnone : ∀ key, w.db.committed.cooldown key = none)
      (hown : ¬ w.db.Owns .worker) : PostHistory [] w
  | pause {calls : List PostCall} {w : World posting} (now : posting.State)
      (h : PostHistory calls w) (hmove : posting.move w.ext now) :
      PostHistory calls { w with ext := now }
  | call {calls : List PostCall} {w w' : World posting} {tr : ReqTrace} {r : Except PyError Bool}
      (installationId : Nat) (repo : String) (prNumber : Nat) (message : String)
      (cooldownSeconds : Nat) (h : PostHistory calls w)
      (hends : Ends (sem posting .worker)
        (maybePostFailureComment installationId repo prNumber message cooldownSeconds) w tr r w') :
      PostHistory (⟨(repo, prNumber), cooldownSeconds, tr, r⟩ :: calls) w'

section Post

variable [UnicodeDb] {w w' : World posting} {tr : ReqTrace} {r : Except PyError Bool}
  {installationId : Nat} {repo : String} {prNumber : Nat} {message : String}
  {cooldownSeconds : Nat}

omit [UnicodeDb] in
/-- No request takes the clock back. -/
theorem posting_le {a : Actor} {e : Req} {r : Except PyError e.Resp}
    (h : sem posting a e w r w') : posting.move w.ext w'.ext := by
  cases e with
  | sql q => exact Nat.le_of_eq h.2.symm
  | ext e => cases e <;> exact h.1.2

omit [UnicodeDb] in
theorem clock_le {α : Type} {a : Actor} {p q : Py α}
    (h : Run (sem posting a) p w tr q w') : posting.move w.ext w'.ext := by
  induction h with
  | refl => exact Nat.le_refl _
  | step hsem _ ih =>
    refine Nat.le_trans (posting_le hsem) ih

omit [UnicodeDb] in
/-- The first reading of the clock is the time a call starts. -/
theorem readsAt_start {now : Nat}
    (h : Ends (sem posting .worker) (claimSlot cooldownSeconds (repo, prNumber)) w tr r w')
    (hnow : ReadsAt now tr) : now = w.ext := by
  rw [claimSlot_eq] at h
  obtain ⟨r₁, tr₁, w₁, rfl, ⟨⟨rfl, -⟩, -⟩, -⟩ := ends_call h
  obtain ⟨rest, hrest⟩ := hnow
  cases hrest
  rfl

/-- What a call did: `db` is the store it found at `now`, `db'` the one it left. -/
inductive PostOutcome (now : Nat) (db db' : Db) (call : PostCall) : Prop where
  | suppressed (row : FailureCooldown) (hrow : db.cooldown call.key = some row)
      (hforce : row.InForce now call.cooldownSeconds) (hdb : db' = db)
      (hnow : ReadsAt now call.trace) (hcall : call.Suppressed)
  | took (hfree : ∀ row, db.cooldown call.key = some row → ¬ row.InForce now call.cooldownSeconds)
      (hdb : ∀ key, db'.cooldown key =
        if key = call.key then some ⟨call.key.1, call.key.2, now⟩ else db.cooldown key)
      (hnow : ReadsAt now call.trace) (htook : call.Took)
  | raised (x : PyError) (hdb : db' = db) (hnow : ReadsAt now call.trace)
      (hcall : call.outcome = .error x) (htook : ¬ call.Took)

theorem ends_maybePostFailureComment (hown : ¬ w.db.Owns .worker)
    (h : Ends (sem posting .worker)
      (maybePostFailureComment installationId repo prNumber message cooldownSeconds) w tr r w') :
    ¬ w'.db.Owns .worker ∧ PostOutcome w.ext w.db.committed w'.db.committed
      ⟨(repo, prNumber), cooldownSeconds, tr, r⟩ := by
  obtain ⟨r₁, tr₁, tr₂, w₁, rfl, hclaim, hpost⟩ := ends_andThen h
  have hclaim' : Ends (sem posting .worker) (claimSlot cooldownSeconds (repo, prNumber))
      w tr₁ r₁ w₁ :=
    hclaim
  obtain ⟨hfree, hslot⟩ := ends_claimSlot hown hclaim'
  cases hslot with
  | refused now row hnow hrow hforce hdb hcommit =>
    obtain rfl := readsAt_start hclaim' hnow
    obtain ⟨rfl, rfl, rfl⟩ := ends_ret hpost
    rw [List.append_nil]
    exact ⟨hfree, .suppressed row hrow hforce hdb hnow ⟨rfl, Bool.eq_false_iff.mp hcommit⟩⟩
  | took now hnow hout hdb hcommit =>
    obtain rfl := readsAt_start hclaim' hnow
    have hdb₂ : w'.db = w₁.db := by
      -- the comment is created outside the database, whatever comes of it
      refine db_of_isExt ?_ hpost
      refine Prog.Calls.andThen ((GitHubClient.createComment_calls (O := fun _ => True)
        installationId fun _ _ => trivial).mono fun e he => he.isExt) fun r => ?_
      split <;> trivial
    rw [hdb₂]
    obtain ⟨rest, hrest⟩ := hnow
    refine ⟨hfree, .took hout hdb ⟨rest ++ tr₂, congrArg (· ++ tr₂) hrest⟩ ?_⟩
    show (tr₁ ++ tr₂).any isCommit = true
    rw [List.any_append, hcommit, Bool.true_or]
  | failed now x hnow hdb hcommit =>
    obtain rfl := readsAt_start hclaim' hnow
    obtain ⟨rfl, rfl, rfl⟩ := ends_raise hpost
    rw [List.append_nil]
    exact ⟨hfree, .raised x hdb hnow rfl (Bool.eq_false_iff.mp hcommit)⟩

/-! ## Histories -/

omit [UnicodeDb] in
/-- A call of `key` took the slot, having started at `now`. -/
def TookAt (calls : List PostCall) (key : PrKey) (now : Nat) : Prop :=
  ∃ call ∈ calls, call.key = key ∧ call.Took ∧ ReadsAt now call.trace

/-- The record of a pull request is the last time its slot was taken. -/
structure PostInv (calls : List PostCall) (w : World posting) : Prop where
  own : ¬ w.db.Owns .worker
  recorded : ∀ key row, w.db.committed.cooldown key = some row →
    TookAt calls key row.lastPostedAt
  latest : ∀ key now, TookAt calls key now →
    ∃ row, w.db.committed.cooldown key = some row ∧ now ≤ row.lastPostedAt
  clock : ∀ key row, w.db.committed.cooldown key = some row →
    posting.move row.lastPostedAt w.ext

omit [UnicodeDb] in
theorem tookAt_cons {call : PostCall} {calls : List PostCall} {key : PrKey} {now : Nat} :
    TookAt (call :: calls) key now ↔
      (call.key = key ∧ call.Took ∧ ReadsAt now call.trace) ∨ TookAt calls key now := by
  constructor
  · rintro ⟨call', hmem, h⟩
    rcases List.mem_cons.mp hmem with rfl | hmem
    · exact Or.inl h
    · exact Or.inr ⟨call', hmem, h⟩
  · rintro (h | ⟨call', hmem, h⟩)
    · exact ⟨call, List.mem_cons_self, h⟩
    · exact ⟨call', List.mem_cons_of_mem call hmem, h⟩

omit [UnicodeDb] in
theorem ReadsAt.unique {a b : Nat} (ha : ReadsAt a tr) (hb : ReadsAt b tr) : a = b := by
  obtain ⟨rest, rfl⟩ := ha
  obtain ⟨rest', heq⟩ := hb
  cases heq
  rfl

omit [UnicodeDb] in
/-- One more call, of either outcome. -/
theorem PostInv.call {calls : List PostCall} {call : PostCall} (h : PostInv calls w)
    (hown : ¬ w'.db.Owns .worker) (hclock : posting.move w.ext w'.ext)
    (hcall : PostOutcome w.ext w.db.committed w'.db.committed call) :
    PostInv (call :: calls) w' := by
  -- a call that has not taken the slot changes neither the store nor the history
  have hsame : w'.db.committed = w.db.committed → ¬ call.Took → PostInv (call :: calls) w' := by
    intro hdb htook
    have htaken : ∀ key now, TookAt (call :: calls) key now ↔ TookAt calls key now :=
      fun key now => tookAt_cons.trans (or_iff_right fun h => htook h.2.1)
    refine ⟨hown, fun key row hrow => ?_, fun key now hnow => ?_, fun key row hrow => ?_⟩
    · rw [hdb] at hrow
      exact (htaken ..).mpr (h.recorded key row hrow)
    · rw [hdb]
      exact h.latest key now ((htaken ..).mp hnow)
    · rw [hdb] at hrow
      exact Nat.le_trans (h.clock key row hrow) hclock
  cases hcall with
  | suppressed row hrow hforce hdb hnow hcall => exact hsame hdb hcall.2
  | raised x hdb hnow hcall htook => exact hsame hdb htook
  -- the record of the key is now the call's own, and the latest
  | took hfree hdb hnow htook =>
    refine ⟨hown, fun key row hrow => ?_, fun key a ha => ?_, fun key row hrow => ?_⟩
    · rw [hdb] at hrow
      split at hrow
      · rename_i hkey
        cases hrow
        exact tookAt_cons.mpr (Or.inl ⟨hkey.symm, htook, hnow⟩)
      · exact tookAt_cons.mpr (Or.inr (h.recorded key row hrow))
    · rw [hdb]
      rcases tookAt_cons.mp ha with ⟨hkey, -, ha⟩ | hold
      · rw [if_pos hkey.symm]
        exact ⟨_, rfl, Nat.le_of_eq (ha.unique hnow)⟩
      · obtain ⟨row, hrow, hle⟩ := h.latest key a hold
        split
        · exact ⟨_, rfl, Nat.le_trans hle (h.clock key row hrow)⟩
        · exact ⟨row, hrow, hle⟩
    · rw [hdb] at hrow
      split at hrow
      · cases hrow
        exact hclock
      · exact Nat.le_trans (h.clock key row hrow) hclock

theorem PostHistory.inv {calls : List PostCall} (h : PostHistory calls w) : PostInv calls w := by
  induction h with
  | start hnone hown =>
    refine ⟨hown, fun key row hrow => ?_, fun key now => ?_, fun key row hrow => ?_⟩
    · cases (hnone key).symm.trans hrow
    · rintro ⟨call, hmem, -⟩
      cases hmem
    · cases (hnone key).symm.trans hrow
  | pause now _ hmove ih =>
    exact ⟨ih.own, ih.recorded, ih.latest,
      fun key row hrow => Nat.le_trans (ih.clock key row hrow) hmove⟩
  | call installationId repo prNumber message cooldownSeconds _ hends ih =>
    obtain ⟨hown, hcall⟩ := ends_maybePostFailureComment ih.own hends
    exact ih.call hown (clock_le hends) hcall

/-- A call that returns is suppressed where an earlier call took the slot within the cooldown,
whatever became of its comment; taking the slot writes the record, and nothing else does. -/
theorem suppressed_iff_taken {calls : List PostCall} (h : PostHistory calls w)
    (hends : Ends (sem posting .worker)
      (maybePostFailureComment installationId repo prNumber message cooldownSeconds) w tr r w') :
    let call : PostCall := ⟨(repo, prNumber), cooldownSeconds, tr, r⟩
    ∃ now, ReadsAt now tr ∧
      ((∃ posted, r = .ok posted) → (call.Suppressed ↔
        ∃ a, TookAt calls (repo, prNumber) a ∧ now < a + cooldownWindow cooldownSeconds)) ∧
      (call.Took → ∀ key, w'.db.committed.cooldown key =
        if key = (repo, prNumber) then some ⟨repo, prNumber, now⟩
        else w.db.committed.cooldown key) ∧
      (¬ call.Took → w'.db.committed = w.db.committed) := by
  intro call
  obtain ⟨-, hcall⟩ := ends_maybePostFailureComment h.inv.own hends
  -- a record in force is that of a call within the cooldown
  have hrecord : ∀ now : Nat, (∃ row, w.db.committed.cooldown (repo, prNumber) = some row ∧
      row.InForce now cooldownSeconds) ↔
        ∃ a, TookAt calls (repo, prNumber) a ∧ now < a + cooldownWindow cooldownSeconds := by
    intro now
    constructor
    · rintro ⟨row, hrow, hforce⟩
      exact ⟨_, h.inv.recorded _ row hrow, hforce⟩
    · rintro ⟨a, ha, hlt⟩
      obtain ⟨row, hrow, hle⟩ := h.inv.latest _ a ha
      exact ⟨row, hrow, Nat.lt_of_lt_of_le hlt (Nat.add_le_add_right hle _)⟩
  cases hcall with
  | suppressed row hrow hforce hdb hnow hcall =>
    exact ⟨w.ext, hnow, fun _ => iff_of_true hcall ((hrecord _).mp ⟨row, hrow, hforce⟩),
      fun htook => absurd htook hcall.2, fun _ => hdb⟩
  -- it took the slot, so no earlier call was within the cooldown
  | took hfree hdb hnow htook =>
    refine ⟨w.ext, hnow, fun _ => iff_of_false (fun hcall => hcall.2 htook) fun hexists => ?_,
      fun _ => hdb, fun hnone => absurd htook hnone⟩
    obtain ⟨row, hrow, hforce⟩ := (hrecord _).mpr hexists
    exact hfree row hrow hforce
  -- it did not return
  | raised x hdb hnow hcall htook =>
    refine ⟨w.ext, hnow, ?_, fun h => absurd h htook, fun _ => hdb⟩
    rintro ⟨posted, hok⟩
    cases hok.symm.trans hcall

end Post

/-! ## GitHub is down -/

section Outage

attribute [local instance] asciiDb
attribute [local semireducible] GitHubClient.splitRepo

/-- Time goes on, and no request to GitHub gets through. -/
def unreachable : Responder posting where
  answer := outageAnswer
  sound e now := by
    have hpossible := outageAnswer_possible e now
    cases e with
    | utcnow => exact ⟨rfl, Nat.le_succ now⟩
    | mem op => cases op <;> exact ⟨hpossible, Nat.le_refl now⟩
    | github client op => exact ⟨hpossible, Nat.le_refl now⟩
    | chat messages temperature maxTokens => exact ⟨hpossible, Nat.le_refl now⟩
    | perfCounter => exact ⟨hpossible, Nat.le_succ now⟩
    | sleep => exact ⟨hpossible, Nat.le_succ now⟩

/-- The store before the first call. -/
def beforePosts : World posting := { db := { committed := Db.empty }, ext := (0 : Nat) }

/-- A call during the outage. -/
def postAlone (w : World posting) : ReqTrace × Except PyError Bool × World posting :=
  runAlone unreachable .worker (maybePostFailureComment 1 "o/r" 7 "it failed" 3600) w

def postCall (w : World posting) : PostCall :=
  ⟨("o/r", 7), 3600, (postAlone w).1, (postAlone w).2.1⟩

theorem ends_postAlone (w : World posting) : Ends (sem posting .worker)
    (maybePostFailureComment 1 "o/r" 7 "it failed" 3600) w (postAlone w).1 (postAlone w).2.1
      (postAlone w).2.2 :=
  ends_runAlone rfl

theorem postHistory_alone {calls : List PostCall} {w : World posting} (h : PostHistory calls w) :
    PostHistory (postCall w :: calls) (postAlone w).2.2 :=
  .call 1 "o/r" 7 "it failed" 3600 h (ends_postAlone w)

/-- The first comment does not get through, the second one is suppressed all the same: nothing was
posted, and the record of the first attempt is there. -/
theorem suppressed_without_post : ∃ (first second : PostCall) (w₀ w₁ w₂ : World posting),
    PostHistory [] w₀ ∧ PostHistory [first] w₁ ∧ PostHistory [second, first] w₂ ∧
      first.key = second.key ∧ first.outcome = .ok false ∧ ¬ first.Commented ∧
      second.Suppressed ∧
      w₁.db.committed.cooldown first.key ≠ w₀.db.committed.cooldown first.key := by
  have hstart : PostHistory [] beforePosts := .start (fun _ => rfl) fun ⟨_, htx⟩ => by cases htx
  have hfirst := postHistory_alone hstart
  have hsecond := postHistory_alone hfirst
  refine ⟨_, _, _, _, _, hstart, hfirst, hsecond, rfl, rfl, by decide +kernel,
    ⟨rfl, by decide +kernel⟩, by decide +kernel⟩

/-- The second call of the outage. -/
theorem suppressed_iff_taken_outage : ∃ now, ReadsAt now (postAlone (postAlone beforePosts).2.2).1 ∧
    ((postCall (postAlone beforePosts).2.2).Suppressed ↔
      ∃ a, TookAt [postCall beforePosts] ("o/r", 7) a ∧ now < a + cooldownWindow 3600) := by
  have hstart : PostHistory [] beforePosts := .start (fun _ => rfl) fun ⟨_, htx⟩ => by cases htx
  obtain ⟨now, hnow, hiff, -, -⟩ :=
    suppressed_iff_taken (postHistory_alone hstart) (ends_postAlone (postAlone beforePosts).2.2)
  exact ⟨now, hnow, hiff ⟨false, rfl⟩⟩

end Outage

end VidiPr
