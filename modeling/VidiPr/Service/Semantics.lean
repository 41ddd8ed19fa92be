import VidiPr.Lib.RelyGuarantee
import VidiPr.Requests

/-!
# What a request does

The meaning of one request of one actor on the state the actors share: the database, and
whatever lies outside the process.

SQLite serialises writers. The first DML of a session opens its write transaction, which works
on a private copy of the tables and locks out every other writer until it commits or rolls back;
readers without a transaction see what was committed last. A statement or a commit may fail with
an ordinary exception, which changes nothing; closing a session cannot fail. A process that dies
leaves no transaction behind.

The outside is a parameter: any state, any relation that answers requests with possible answers, and
any moves of its own. What is proved for every `External` is proved for every behaviour of GitHub,
of the model and of the clocks.
-/

namespace VidiPr

open Effect Prog

/-- Who runs a statement: the worker task, or one of the other tasks of the process. -/
inductive Actor where
  | worker
  | call (n : Nat)
deriving DecidableEq

/-! ## The database engine -/

/-- The store, with the open write transaction if there is one. `log` is a history the code never
reads: who committed, newest first, and the contents the commit replaced. -/
structure Sqlite where
  committed : Db
  tx : Option (Actor × Db) := none
  log : List (Actor × Db) := []

namespace Sqlite

/-- `a` holds the write lock: the open transaction is one of its sessions. There is at most one such
actor at any time. -/
def Owns (s : Sqlite) (a : Actor) : Prop := ∃ work, s.tx = some (a, work)

/-- What a session of `a` reads: its own uncommitted copy, or what is committed. -/
def view (s : Sqlite) (a : Actor) : Db :=
  match s.tx with
  | some (owner, work) => if owner = a then work else s.committed
  | none => s.committed

/-- A commit of `a`; without an open transaction of `a` it does nothing. -/
def commit (s : Sqlite) (a : Actor) : Sqlite :=
  match s.tx with
  | some (owner, work) =>
    if owner = a then { committed := work, tx := none, log := (a, s.committed) :: s.log } else s
  | none => s

/-- A rollback of `a`, which is also what closing its session does: an open transaction of `a` is
forgotten, and that of anybody else goes on. -/
def rollback (s : Sqlite) (a : Actor) : Sqlite :=
  match s.tx with
  | some (owner, _) => if owner = a then { s with tx := none } else s
  | none => s

/-- The process dies: what is not committed is lost. -/
def crash (s : Sqlite) : Sqlite := { s with tx := none }

end Sqlite

/-- A statement failed and changed nothing. Which message it fails with is left open, and so is
whether there was a reason. -/
def SqlFault {α : Type} (s : Sqlite) (r : Except PyError α) (s' : Sqlite) : Prop :=
  (∃ message, r = .error (.other message)) ∧ s' = s

/-- What one statement of actor `a` does. A query and a commit may fail at any time; a DML statement
fails for sure while somebody else holds the write lock; a rollback cannot fail. -/
def sqlSem (a : Actor) : (q : Sql) → Sqlite → Except PyError q.Resp → Sqlite → Prop
  | .query q, s, r, s' => (r = .ok (q.eval (s.view a)) ∧ s' = s) ∨ SqlFault s r s'
  | .dml d, s, r, s' =>
    ((∀ owner work, s.tx = some (owner, work) → owner = a) ∧
      r = .ok (d.apply (s.view a)).1 ∧ s' = { s with tx := some (a, (d.apply (s.view a)).2) }) ∨
    SqlFault s r s'
  | .commit, s, r, s' => (r = .ok () ∧ s' = s.commit a) ∨ SqlFault s r s'
  | .rollback, s, r, s' => r = .ok () ∧ s' = s.rollback a

/-! ## The world -/

/-- Everything outside the database: its states, how it answers a request, how it moves. -/
structure External where
  State : Type
  answer : (e : ExtReq) → State → Except PyError e.Resp → State → Prop
  move : State → State → Prop
  possible : ∀ {e s r s'}, answer e s r s' → e.Possible r

structure World (X : External) where
  db : Sqlite
  ext : X.State

variable {X : External}

/-- What one request of actor `a` does: a statement leaves the outside as it is, and whatever else
is asked leaves the database as it is. -/
def sem (X : External) (a : Actor) : Sem Req Req.Resp PyError (World X)
  | .sql q, w, r, w' => sqlSem a q w.db r w'.db ∧ w'.ext = w.ext
  | .ext e, w, r, w' => X.answer e w.ext r w'.ext ∧ w'.db = w.db

theorem possible_of_sqlSem {a : Actor} {q : Sql} {s s' : Sqlite} {r : Except PyError q.Resp}
    (h : sqlSem a q s r s') : r ≠ .error .cancelled := by
  rintro rfl
  cases q with
  | query q => rcases h with ⟨hr, _⟩ | ⟨⟨m, hr⟩, _⟩ <;> cases hr
  | dml d => rcases h with ⟨_, hr, _⟩ | ⟨⟨m, hr⟩, _⟩ <;> cases hr
  | commit => rcases h with ⟨hr, _⟩ | ⟨⟨m, hr⟩, _⟩ <;> cases hr
  | rollback => cases h.1

/-- Every answer of an actor's request is possible. -/
theorem possible_of_sem {a : Actor} {e : Req} {w w' : World X} {r : Except PyError e.Resp}
    (h : sem X a e w r w') : e.Possible r := by
  cases e with
  | ext e => exact X.possible h.1
  | sql q => exact possible_of_sqlSem h.1

/-! ## Everything an actor can do to the database

One lemma for all requests: an actor leaves the store alone, writes to its own transaction,
commits it or rolls it back. -/

/-- One step of `a` on the store. -/
inductive ActorStep (a : Actor) (s : Sqlite) : Sqlite → Prop where
  | same : ActorStep a s s
  | write (work : Db) (free : ∀ owner w, s.tx = some (owner, w) → owner = a) :
      ActorStep a s { s with tx := some (a, work) }
  | commit (work : Db) (own : s.tx = some (a, work)) :
      ActorStep a s { committed := work, tx := none, log := (a, s.committed) :: s.log }
  | rollback (work : Db) (own : s.tx = some (a, work)) : ActorStep a s { s with tx := none }

namespace Sqlite

theorem view_of_not_owns {s : Sqlite} {a : Actor} (h : ¬ s.Owns a) : s.view a = s.committed := by
  unfold view
  split
  · rename_i owner work htx
    split
    · rename_i heq
      exact absurd ⟨work, heq ▸ htx⟩ h
    · rfl
  · rfl

@[simp] theorem view_of_tx {s : Sqlite} {a : Actor} {work : Db} (h : s.tx = some (a, work)) :
    s.view a = work := by
  simp [view, h]

theorem commit_of_tx {s : Sqlite} {a : Actor} {work : Db} (h : s.tx = some (a, work)) :
    s.commit a = { committed := work, tx := none, log := (a, s.committed) :: s.log } := by
  simp [commit, h]

theorem commit_of_not_owns {s : Sqlite} {a : Actor} (h : ¬ s.Owns a) : s.commit a = s := by
  unfold commit
  split
  · rename_i owner work htx
    rw [if_neg]
    intro heq
    exact h ⟨work, heq ▸ htx⟩
  · rfl

theorem rollback_cases (s : Sqlite) (a : Actor) :
    (∃ work, s.tx = some (a, work) ∧ s.rollback a = { s with tx := none }) ∨
    (¬ s.Owns a ∧ s.rollback a = s) := by
  unfold rollback Owns
  split
  · rename_i owner work htx
    split
    · rename_i heq
      exact Or.inl ⟨work, heq ▸ htx, rfl⟩
    · rename_i hne
      refine Or.inr ⟨?_, rfl⟩
      rintro ⟨work', htx'⟩
      rw [htx] at htx'
      cases htx'
      exact hne rfl
  · rename_i htx
    exact Or.inr ⟨by simp [htx], rfl⟩

theorem not_owns_rollback (s : Sqlite) (a : Actor) : ¬ (s.rollback a).Owns a := by
  rcases s.rollback_cases a with ⟨work, _, heq⟩ | ⟨h, heq⟩
  · rw [heq]
    simp [Owns]
  · rwa [heq]

@[simp] theorem rollback_committed (s : Sqlite) (a : Actor) :
    (s.rollback a).committed = s.committed := by
  rcases s.rollback_cases a with ⟨_, _, heq⟩ | ⟨_, heq⟩ <;> rw [heq]

@[simp] theorem rollback_log (s : Sqlite) (a : Actor) : (s.rollback a).log = s.log := by
  rcases s.rollback_cases a with ⟨_, _, heq⟩ | ⟨_, heq⟩ <;> rw [heq]

end Sqlite

theorem actorStep_rollback (s : Sqlite) (a : Actor) : ActorStep a s (s.rollback a) := by
  rcases s.rollback_cases a with ⟨work, htx, heq⟩ | ⟨_, heq⟩
  · rw [heq]
    exact .rollback work htx
  · rw [heq]
    exact .same

/-- Every statement is one step of its actor. -/
theorem actorStep_of_sqlSem {a : Actor} {q : Sql} {s s' : Sqlite} {r : Except PyError q.Resp}
    (h : sqlSem a q s r s') : ActorStep a s s' := by
  cases q with
  | query q =>
    rcases h with ⟨_, rfl⟩ | ⟨_, rfl⟩ <;> exact .same
  | dml d =>
    rcases h with ⟨free, _, rfl⟩ | ⟨_, rfl⟩
    · exact .write _ free
    · exact .same
  | commit =>
    rcases h with ⟨_, rfl⟩ | ⟨_, rfl⟩
    · by_cases hown : s.Owns a
      · obtain ⟨work, htx⟩ := hown
        rw [Sqlite.commit_of_tx htx]
        exact .commit work htx
      · rw [Sqlite.commit_of_not_owns hown]
        exact .same
    · exact .same
  | rollback =>
    obtain ⟨_, rfl⟩ := h
    exact actorStep_rollback s a

theorem actorStep_of_sem {a : Actor} {e : Req} {w w' : World X} {r : Except PyError e.Resp}
    (h : sem X a e w r w') : ActorStep a w.db w'.db := by
  cases e with
  | sql q => exact actorStep_of_sqlSem h.1
  | ext e =>
    rw [h.2]
    exact .same

/-- A transaction is untouched by the steps of others. -/
theorem ActorStep.frame {a b : Actor} {s s' : Sqlite} (h : ActorStep b s s') (hne : b ≠ a)
    (hown : s.Owns a) : s' = s := by
  obtain ⟨work, htx⟩ := hown
  cases h with
  | same => rfl
  | write _ free => exact absurd (free a work htx) hne.symm
  | commit _ own =>
    rw [htx] at own
    cases own
    exact absurd rfl hne
  | rollback _ own =>
    rw [htx] at own
    cases own
    exact absurd rfl hne

/-- The write lock of `a` is taken by `a` only. -/
theorem ActorStep.not_owns {a b : Actor} {s s' : Sqlite} (h : ActorStep b s s') (hne : b ≠ a)
    (hown : ¬ s.Owns a) : ¬ s'.Owns a := by
  cases h with
  | same => exact hown
  | write work _ =>
    rintro ⟨work', htx⟩
    cases htx
    exact hne rfl
  | commit work _ => simp [Sqlite.Owns]
  | rollback work _ => simp [Sqlite.Owns]

/-- The history only grows, by commits of the actor. -/
theorem ActorStep.log {a : Actor} {s s' : Sqlite} (h : ActorStep a s s') :
    (s'.log = s.log ∧ s'.committed = s.committed) ∨
    s'.log = (a, s.committed) :: s.log := by
  cases h with
  | same => exact Or.inl ⟨rfl, rfl⟩
  | write _ _ => exact Or.inl ⟨rfl, rfl⟩
  | commit _ _ => exact Or.inr rfl
  | rollback _ _ => exact Or.inl ⟨rfl, rfl⟩

/-- A run without database requests leaves the store as it is. -/
theorem db_of_isExt {α : Type} {a : Actor} {p q : Py α} {w w' : World X}
    {tr : Trace Req Req.Resp PyError} (hp : p.Calls Req.IsExt) (h : Run (sem X a) p w tr q w') :
    w'.db = w.db := by
  refine hp.keeps (I := fun w' => w'.db = w.db) ?_ h rfl
  intro e he s r s' hs hsem
  cases e with
  | sql q => exact he.elim
  | ext e => exact hsem.2.trans hs

end VidiPr
