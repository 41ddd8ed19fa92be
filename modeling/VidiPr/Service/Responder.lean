import VidiPr.Config.Cache
import VidiPr.Service.Semantics

/-!
# Computable surroundings

A `Responder` picks one answer for each request to the outside; statements then answer as they
do when they do not fail, or fail where they are told to. Two outsides are given: one where
nobody can be reached, and one where everything works.
-/

namespace VidiPr

open Effect Prog

/-- One answer of the outside for each request. -/
structure Responder (X : External) where
  answer : (e : ExtReq) → X.State → Except PyError e.Resp × X.State
  sound : ∀ e s, X.answer e s (answer e s).1 (answer e s).2

/-- An outside that answers by a function and never moves on its own. -/
def External.ofFunction (State : Type)
    (answer : (e : ExtReq) → State → Except PyError e.Resp × State)
    (possible : ∀ (e : ExtReq) s, e.Possible (answer e s).1) : External where
  State := State
  answer e s r s' := answer e s = (r, s')
  move _ _ := False
  possible {e s r s'} h := by
    have := possible e s
    rwa [h] at this

def Responder.ofFunction {State : Type}
    {answer : (e : ExtReq) → State → Except PyError e.Resp × State}
    {possible : ∀ (e : ExtReq) s, e.Possible (answer e s).1} :
    Responder (External.ofFunction State answer possible) where
  answer := answer
  sound _ _ := rfl

/-- The answers of an outage: GitHub and the model cannot be reached. The state is the clock. -/
def outageAnswer : (e : ExtReq) → Nat → Except PyError e.Resp × Nat
  | .github _ _, now => (.error (.requestError "All connection attempts failed"), now)
  | .chat .., now => (.error (.llmTransientError "All connection attempts failed"), now)
  | .mem (.installationClient _), now => (.ok (0 : Nat), now)
  | .mem (.dropCached _), now => (.ok (), now)
  | .mem .newLoader, now => (.ok (0 : Nat), now)
  | .mem (.cacheGet _ _), now => (.ok none, now)
  | .mem (.cachePut ..), now => (.ok (), now)
  | .mem (.cacheTouch ..), now => (.ok (), now)
  | .utcnow, now => (.ok now, now + 1)
  | .perfCounter, now => (.ok now, now + 1)
  | .sleep, now => (.ok (), now + 1)

theorem outageAnswer_possible (e : ExtReq) (now : Nat) : e.Possible (outageAnswer e now).1 := by
  cases e with
  | github client op => cases op <;> first | trivial | exact nofun
  | chat => trivial
  | mem op => cases op <;> exact ⟨_, rfl⟩
  | utcnow => exact ⟨_, rfl⟩
  | perfCounter => exact ⟨_, rfl⟩
  | sleep => trivial

/-- The outside during an outage. -/
def outage : External := External.ofFunction Nat outageAnswer outageAnswer_possible

def outageResponder : Responder outage := Responder.ofFunction

/-- The error of a statement that fails. -/
def databaseLocked : PyError := .other "(sqlite3.OperationalError) database is locked"

/-- What a statement of `a` does when it does not fail; `none` while another actor writes. -/
def Sqlite.run (s : Sqlite) (a : Actor) : (q : Sql) → Option (Except PyError q.Resp × Sqlite)
  | .query q => some (.ok (q.eval (s.view a)), s)
  | .dml d =>
    match s.tx with
    | some (owner, _) =>
      if owner = a then
        some (.ok (d.apply (s.view a)).1, { s with tx := some (a, (d.apply (s.view a)).2) })
      else none
    | none => some (.ok (d.apply (s.view a)).1, { s with tx := some (a, (d.apply (s.view a)).2) })
  | .commit => some (.ok (), s.commit a)
  | .rollback => some (.ok (), s.rollback a)

/-- What a statement of `a` does when it fails; closing a session cannot fail. -/
def Sqlite.fail (s : Sqlite) : (q : Sql) → Option (Except PyError q.Resp × Sqlite)
  | .rollback => none
  | _ => some (.error databaseLocked, s)

theorem Sqlite.run_sound {s s' : Sqlite} {a : Actor} {q : Sql} {r : Except PyError q.Resp}
    (h : s.run a q = some (r, s')) : sqlSem a q s r s' := by
  cases q with
  | query q =>
    obtain ⟨rfl, rfl⟩ := Prod.mk.inj (Option.some.inj h)
    exact Or.inl ⟨rfl, rfl⟩
  | dml d =>
    simp only [Sqlite.run] at h
    split at h
    · -- a transaction is open: it must be the actor's own
      rename_i owner work htx
      split at h
      · rename_i heq
        obtain ⟨rfl, rfl⟩ := Prod.mk.inj (Option.some.inj h)
        refine Or.inl ⟨fun owner' work' htx' => ?_, rfl, rfl⟩
        rw [htx] at htx'
        cases htx'
        exact heq
      · cases h
    · -- none is, and one is begun
      rename_i htx
      obtain ⟨rfl, rfl⟩ := Prod.mk.inj (Option.some.inj h)
      refine Or.inl ⟨fun owner' work' htx' => ?_, rfl, rfl⟩
      rw [htx] at htx'
      cases htx'
  | commit =>
    obtain ⟨rfl, rfl⟩ := Prod.mk.inj (Option.some.inj h)
    exact Or.inl ⟨rfl, rfl⟩
  | rollback =>
    obtain ⟨rfl, rfl⟩ := Prod.mk.inj (Option.some.inj h)
    exact ⟨rfl, rfl⟩

theorem Sqlite.fail_sound {s s' : Sqlite} {a : Actor} {q : Sql} {r : Except PyError q.Resp}
    (h : s.fail q = some (r, s')) : sqlSem a q s r s' := by
  cases q with
  | rollback => cases h
  | _ =>
    obtain ⟨rfl, rfl⟩ := Prod.mk.inj (Option.some.inj h)
    exact Or.inr ⟨⟨_, rfl⟩, rfl⟩

section Respond

variable {X : External} (answers : Responder X)

/-- One request of `a`; a statement may be made to fail. -/
def respond (a : Actor) (fault : Bool) (w : World X) :
    (e : Req) → Option (Except PyError e.Resp × World X)
  | .ext e => some ((answers.answer e w.ext).1, { w with ext := (answers.answer e w.ext).2 })
  | .sql q =>
    match if fault then w.db.fail q else w.db.run a q with
    | some (r, db) => some (r, { w with db })
    | none => none

theorem respond_sound {answers : Responder X} {a : Actor} {fault : Bool} {w w' : World X}
    {e : Req} {r : Except PyError e.Resp} (h : respond answers a fault w e = some (r, w')) :
    sem X a e w r w' := by
  cases e with
  | ext e =>
    obtain ⟨rfl, rfl⟩ := Prod.mk.inj (Option.some.inj h)
    exact ⟨answers.sound e w.ext, rfl⟩
  | sql q =>
    simp only [respond] at h
    split at h
    · rename_i r' db hrun
      obtain ⟨rfl, rfl⟩ := Prod.mk.inj (Option.some.inj h)
      refine ⟨?_, rfl⟩
      split at hrun
      · exact Sqlite.fail_sound hrun
      · exact Sqlite.run_sound hrun
    · cases h

/-- One request of `a`, whose statement fails only while another actor writes. -/
def respondNow (a : Actor) (w : World X) (e : Req) : Except PyError e.Resp × World X :=
  (respond answers a false w e).getD (.error databaseLocked, w)

theorem respondNow_sound {answers : Responder X} {a : Actor} (e : Req) (w : World X) :
    sem X a e w (respondNow answers a w e).1 (respondNow answers a w e).2 := by
  cases h : respond answers a false w e with
  | some result =>
    have hnow : respondNow answers a w e = result := by simp [respondNow, h]
    rw [hnow]
    exact respond_sound h
  | none =>
    have hnow : respondNow answers a w e = (.error databaseLocked, w) := by
      simp [respondNow, h]
    rw [hnow]
    cases e with
    | ext e => cases h
    | sql q =>
      cases q with
      | dml d => exact ⟨Or.inr ⟨⟨_, rfl⟩, rfl⟩, rfl⟩
      | query q => cases h
      | commit => cases h
      | rollback => cases h

/-- A program run by itself, as actor `a`. -/
def runAlone {α : Type} (a : Actor) (p : Py α) (w : World X) :
    Trace Req Req.Resp PyError × Except PyError α × World X :=
  p.eval (fun e w => respondNow answers a w e) w

variable {answers} in
/-- A program run by itself has a run. -/
theorem ends_runAlone {α : Type} {a : Actor} {p : Py α} {w : World X} {r : Except PyError α}
    (h : (runAlone answers a p w).2.1 = r) :
    Ends (sem X a) p w (runAlone answers a p w).1 r (runAlone answers a p w).2.2 := by
  rw [← h]
  exact ends_eval (fun e w => respondNow_sound e w) p w

end Respond

/-! ## A day on which everything works

One pull request `7` of every repository, by `ada` against `main`, and no per-repository config. -/

def healthyAnswer : (e : ExtReq) → Memory × Nat → Except PyError e.Resp × (Memory × Nat)
  | .github _ (.pullsGet ..), s =>
    (.ok ({
      number := 7
      title := "Fix the lock"
      body := none
      headSha := "abc"
      baseRef := "main"
      userLogin := some "ada"
      draft := some false } : PullData), s)
  | .github _ (.pullsListFiles ..), s =>
    (.ok [({
      filename := "lock.py"
      status := "modified"
      additions := 1
      deletions := 0
      patch := some "+locked = True" } : FileData)], s)
  | .github _ (.issuesListComments ..), s => (.ok ([] : List CommentData), s)
  | .github _ (.reposGet ..), s =>
    (.ok ({ fullName := "o/r", defaultBranch := "main", isPrivate := false } : RepoData), s)
  | .github _ (.pullsCreateReview ..), s => (.ok (100 : Nat), s)
  | .github _ (.issuesCreateComment ..), s => (.ok (200 : Nat), s)
  | .github _ (.reactionsCreateForIssueComment ..), s => (.ok (), s)
  | .github _ (.reposGetContent ..), s =>
    (.error (.requestFailed { statusCode := 404, text := "Not Found" }), s)
  | .chat .., s =>
    (.ok ({
      content := "## Summary\nOne lock.\n"
      model := "m"
      usage := {}
      reasoningContent := ""
      finishReason := some "stop" } : ChatResponse), s)
  | .mem op, (m, now) => (.ok (op.exec m).1, ((op.exec m).2, now))
  | .utcnow, (m, now) => (.ok now, (m, now + 1))
  | .perfCounter, (m, now) => (.ok now, (m, now + 1))
  | .sleep, (m, now) => (.ok (), (m, now + 1))

theorem healthyAnswer_possible (e : ExtReq) (s : Memory × Nat) :
    e.Possible (healthyAnswer e s).1 := by
  cases e with
  | github client op => cases op <;> first | trivial | exact nofun
  | chat => trivial
  | mem op => exact ⟨_, rfl⟩
  | utcnow => exact ⟨_, rfl⟩
  | perfCounter => exact ⟨_, rfl⟩
  | sleep => trivial

def healthy : External := External.ofFunction (Memory × Nat) healthyAnswer healthyAnswer_possible

def healthyResponder : Responder healthy := Responder.ofFunction

end VidiPr
