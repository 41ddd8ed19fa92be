import VidiPr.Service.Footprint
import VidiPr.Transport.Traces

/-!
# The journal of an actor

What the statements of an actor have done to the store, read off their answers: the statements of
its committed transactions and those of the transaction it has open.

* **`Journal.record`** — the journal after a request; `journal` is that of a trace.
* **`Replays`** — the statements, executed in order with these answers, lead from one store to
  another.
* **`Journal.Of.step`** — an actor's private copy is the committed store with its open statements
  replayed, and what a request of the actor commits is what it adds to the journal.
* **`reviews_of_replays`**, **`outcome_of_replays`** — what a replay does to a table.
-/

namespace VidiPr

open Effect Prog Relational

/-- A DML statement that was executed, with its answer. -/
abbrev Entry : Type := Σ d : Dml, d.Resp

/-- The statements of an actor's committed transactions, and those of the open one. -/
structure Journal where
  kept : List Entry := []
  pending : List Entry := []

/-- The journal after a request. -/
def Journal.record (j : Journal) : (e : Req) → Except PyError e.Resp → Journal
  | .sql (.dml d), .ok row => { j with pending := j.pending ++ [⟨d, row⟩] }
  | .sql .commit, .ok _ => { kept := j.kept ++ j.pending }
  | .sql .rollback, .ok _ => { kept := j.kept }
  | _, _ => j

/-- The journal with the requests of a trace. -/
def Journal.recordAll (j : Journal) (tr : ReqTrace) : Journal :=
  tr.foldl (fun j c => j.record c.1 c.2) j

/-- The journal of a trace. -/
def journal (tr : ReqTrace) : Journal := ({} : Journal).recordAll tr

namespace Journal

variable {j : Journal}

@[simp] theorem recordAll_nil : j.recordAll [] = j := rfl

@[simp] theorem recordAll_cons (e : Req) (r : Except PyError e.Resp) (tr : ReqTrace) :
    j.recordAll (⟨e, r⟩ :: tr) = (j.record e r).recordAll tr := rfl

theorem recordAll_append (tr tr' : ReqTrace) :
    j.recordAll (tr ++ tr') = (j.recordAll tr).recordAll tr' := List.foldl_append

theorem recordAll_snoc (tr : ReqTrace) (e : Req) (r : Except PyError e.Resp) :
    j.recordAll (tr ++ [⟨e, r⟩]) = (j.recordAll tr).record e r := recordAll_append _ _

/-- A request outside the database is not in the journal. -/
theorem record_isExt {e : Req} {r : Except PyError e.Resp} (h : e.IsExt) : j.record e r = j := by
  cases e with
  | sql q => exact h.elim
  | ext e => rfl

theorem recordAll_isExt {tr : ReqTrace} (h : ∀ c ∈ tr, Req.IsExt c.1) : j.recordAll tr = j := by
  induction tr with
  | nil => rfl
  | cons c tr ih =>
    obtain ⟨e, r⟩ := c
    rw [recordAll_cons, record_isExt (h _ List.mem_cons_self)]
    exact ih fun c hc => h c (List.mem_cons_of_mem _ hc)

/-- The statements of a journal are those of its trace. -/
theorem recordAll_entries {O : Dml → Prop} {tr : ReqTrace} (htr : ∀ c ∈ tr, Req.Writes O c.1)
    (hj : ∀ c ∈ j.kept ++ j.pending, O c.1) :
    ∀ c ∈ (j.recordAll tr).kept ++ (j.recordAll tr).pending, O c.1 := by
  induction tr generalizing j with
  | nil => exact hj
  | cons c tr ih =>
    obtain ⟨e, r⟩ := c
    refine ih (fun c hc => htr c (List.mem_cons_of_mem _ hc)) fun c hc => ?_
    have hwrites : Req.Writes O e := htr ⟨e, r⟩ List.mem_cons_self
    change c ∈ (j.record e r).kept ++ (j.record e r).pending at hc
    unfold record at hc
    split at hc
    · rw [← List.append_assoc, List.mem_append, List.mem_singleton] at hc
      rcases hc with hc | rfl
      · exact hj c hc
      · exact hwrites
    · exact hj c (by simpa using hc)
    · exact hj c (List.mem_append_left _ (by simpa using hc))
    · exact hj c hc

end Journal

theorem journal_snoc (tr : ReqTrace) (e : Req) (r : Except PyError e.Resp) :
    journal (tr ++ [⟨e, r⟩]) = (journal tr).record e r := Journal.recordAll_snoc tr e r

/-! ## Replaying -/

/-- The statements, executed in order with these answers, lead from `db` to `db'`. -/
inductive Replays (db : Db) : List Entry → Db → Prop where
  | nil : Replays db [] db
  | snoc {entries : List Entry} {mid db' : Db} {d : Dml} {row : d.Resp}
      (h : Replays db entries mid) (happly : d.apply mid = (row, db')) :
      Replays db (entries ++ [⟨d, row⟩]) db'

/-- The private copy of `a`, if it has one, is the committed store with its open statements
replayed. -/
structure Journal.Of (a : Actor) (j : Journal) (s : Sqlite) : Prop where
  copy : ∀ work, s.tx = some (a, work) → Replays s.committed j.pending work
  closed : ¬ s.Owns a → j.pending = []

namespace Journal

variable {X : External} {a b : Actor} {j : Journal} {s s' : Sqlite}

theorem of_not_owns {kept : List Entry} (h : ¬ s.Owns a) : Of a { kept } s :=
  ⟨fun work htx => absurd ⟨work, htx⟩ h, fun _ => rfl⟩

/-- Everybody else leaves a transaction alone. -/
theorem Of.env (h : j.Of a s) (hne : b ≠ a) (hstep : ActorStep b s s') : j.Of a s' := by
  by_cases hown : s.Owns a
  · rw [hstep.frame hne hown]
    exact h
  · have hfree := hstep.not_owns hne hown
    exact ⟨fun work htx => absurd ⟨work, htx⟩ hfree, fun _ => h.closed hown⟩

/-- What an actor's view is made of. -/
theorem Of.view (h : j.Of a s) : Replays s.committed j.pending (s.view a) := by
  by_cases hown : s.Owns a
  · obtain ⟨work, htx⟩ := hown
    rw [Sqlite.view_of_tx htx]
    exact h.copy work htx
  · rw [Sqlite.view_of_not_owns hown, h.closed hown]
    exact .nil

/-- A request of an actor commits what it adds to the journal: what it had pending, at a commit, and
nothing at any other request. The store changes as the committed statements say. -/
theorem Of.step {e : Req} {w w' : World X} {r : Except PyError e.Resp} (h : j.Of a w.db)
    (hsem : sem X a e w r w') :
    (j.record e r).Of a w'.db ∧ ∃ entries, (j.record e r).kept = j.kept ++ entries ∧
      (entries = [] ∨ entries = j.pending ∧ (j.record e r).pending = []) ∧
      Replays w.db.committed entries w'.db.committed := by
  have hsame : w'.db = w.db → j.record e r = j →
      (j.record e r).Of a w'.db ∧ ∃ entries, (j.record e r).kept = j.kept ++ entries ∧
        (entries = [] ∨ entries = j.pending ∧ (j.record e r).pending = []) ∧
        Replays w.db.committed entries w'.db.committed := by
    intro hdb hj
    rw [hdb, hj]
    exact ⟨h, [], (List.append_nil _).symm, Or.inl rfl, .nil⟩
  cases e with
  | ext e => exact hsame hsem.2 rfl
  | sql q =>
    cases q with
    -- reading is not in the journal
    | query q =>
      rcases hsem.1 with ⟨rfl, hdb⟩ | ⟨⟨message, rfl⟩, hdb⟩
      · exact hsame hdb rfl
      · exact hsame hdb rfl
    | dml d =>
      rcases hsem.1 with ⟨_, rfl, hdb⟩ | ⟨⟨message, rfl⟩, hdb⟩
      · -- the statement works on what the actor sees
        rw [hdb]
        refine ⟨⟨fun work htx => ?_, fun hfree => ?_⟩, [], (List.append_nil _).symm, Or.inl rfl,
          .nil⟩
        · cases htx
          exact h.view.snoc rfl
        · exact absurd ⟨_, rfl⟩ hfree
      · exact hsame hdb rfl
    | commit =>
      rcases hsem.1 with ⟨rfl, hdb⟩ | ⟨⟨message, rfl⟩, hdb⟩
      · by_cases hown : w.db.Owns a
        · -- what was pending is committed
          obtain ⟨work, htx⟩ := hown
          rw [Sqlite.commit_of_tx htx] at hdb
          rw [hdb]
          refine ⟨of_not_owns (by simp [Sqlite.Owns]), j.pending, rfl, Or.inr ⟨rfl, rfl⟩, ?_⟩
          exact h.copy work htx
        · -- there was nothing to commit
          rw [Sqlite.commit_of_not_owns hown] at hdb
          rw [hdb]
          refine ⟨of_not_owns hown, j.pending, rfl, Or.inr ⟨rfl, rfl⟩, ?_⟩
          rw [h.closed hown]
          exact .nil
      · exact hsame hdb rfl
    -- what was pending is dropped
    | rollback =>
      obtain ⟨rfl, hdb⟩ := hsem.1
      rw [hdb, Sqlite.rollback_committed]
      exact ⟨of_not_owns (Sqlite.not_owns_rollback _ _), [], (List.append_nil _).symm, Or.inl rfl,
        .nil⟩

end Journal

/-! ## What a replay does to the tables -/

variable {db db' : Db} {entries : List Entry}

/-- A relation between stores that every statement keeps, a replay keeps. -/
theorem Replays.keeps {R : Db → Db → Prop} {O : Dml → Prop} (h : Replays db entries db')
    (hrefl : ∀ db, R db db) (htrans : ∀ {db₁ db₂ db₃}, R db₁ db₂ → R db₂ db₃ → R db₁ db₃)
    (hO : ∀ d, O d → ∀ db, R db (d.apply db).2) (hentries : ∀ c ∈ entries, O c.1) : R db db' := by
  induction h with
  | nil => exact hrefl db
  | @snoc entries mid db' d row _ happly ih =>
    have hlast : R mid (d.apply mid).2 := hO d (hentries ⟨d, row⟩ (by simp)) mid
    rw [happly] at hlast
    exact htrans (ih fun c hc => hentries c (List.mem_append_left _ hc)) hlast

/-- The row a statement adds to `reviews_posted`. -/
def Entry.review : Entry → Option ReviewPosted
  | ⟨.insertReviewPosted _, row⟩ => some row
  | _ => none

/-- The rows that entries add to `reviews_posted`. -/
def reviewsOf (entries : List Entry) : List ReviewPosted := entries.filterMap Entry.review

@[simp] theorem reviewsOf_append (entries entries' : List Entry) :
    reviewsOf (entries ++ entries') = reviewsOf entries ++ reviewsOf entries' :=
  List.filterMap_append

/-- Every statement adds to `reviews_posted` what its entry says, under a new key. -/
theorem apply_reviews {d : Dml} {row : d.Resp} (h : d.apply db = (row, db')) :
    (∀ review, review ∈ db'.reviewsPosted ↔
      review ∈ db.reviewsPosted ∨ review ∈ reviewsOf [⟨d, row⟩]) ∧
    ∀ review ∈ reviewsOf [⟨d, row⟩], ∀ old ∈ db.reviewsPosted, old.id < review.id := by
  cases d with
  | insertReviewPosted posted =>
    obtain ⟨hrow, rfl⟩ := Prod.mk.inj h
    have hone : reviewsOf [⟨.insertReviewPosted posted, row⟩] =
        [{ posted with id := db.reviewsPosted.freshId }] := by
      rw [← hrow]
      rfl
    rw [hone]
    refine ⟨fun review => ?_, fun review hreview old hold => ?_⟩
    · show review ∈ (db.reviewsPosted.insertAuto (fun id => { posted with id }) fun _ => rfl).1 ↔ _
      rw [Table.mem_insertAuto, List.mem_singleton]
    · rw [List.mem_singleton.mp hreview]
      exact Table.lt_freshId hold
  | _ =>
    obtain ⟨_, rfl⟩ := Prod.mk.inj h
    exact ⟨fun review => (or_iff_left List.not_mem_nil).symm,
      fun review hreview => absurd hreview List.not_mem_nil⟩

/-- A replay adds the rows of its entries, under new keys. -/
theorem reviews_of_replays (h : Replays db entries db') :
    (∀ review, review ∈ db'.reviewsPosted ↔
      review ∈ db.reviewsPosted ∨ review ∈ reviewsOf entries) ∧
    ∀ review ∈ reviewsOf entries, review ∉ db.reviewsPosted := by
  induction h with
  | nil =>
    exact ⟨fun review => (or_iff_left List.not_mem_nil).symm,
      fun review hreview => absurd hreview List.not_mem_nil⟩
  | @snoc entries mid db' d row _ happly ih =>
    obtain ⟨hmem, hnew⟩ := apply_reviews happly
    refine ⟨fun review => ?_, fun review hreview hold => ?_⟩
    · rw [hmem, ih.1, reviewsOf_append, List.mem_append, or_assoc]
    · rw [reviewsOf_append, List.mem_append] at hreview
      rcases hreview with hreview | hreview
      · exact ih.2 review hreview hold
      · exact Nat.lt_irrefl _ (hnew review hreview review ((ih.1 review).mpr (Or.inl hold)))

/-- What `update_job_status` writes beside the time. -/
abbrev JobOutcome : Type := JobStatus × Option JobStatusDetail × Option String

def Job.outcome (job : Job) : JobOutcome := (job.status, job.statusDetail, job.error)

/-- What a statement writes about the job `id`. -/
def Entry.outcome (id : Nat) : Entry → Option JobOutcome
  | ⟨.updateJobStatus id' status detail error _, _⟩ =>
    if id' = id then some (status, detail, error) else none
  | _ => none

/-- What entries write last about the job `id`. -/
def outcomeOf (id : Nat) (entries : List Entry) : Option JobOutcome :=
  (entries.filterMap (Entry.outcome id)).getLast?

theorem outcomeOf_append (id : Nat) (entries entries' : List Entry) :
    outcomeOf id (entries ++ entries') = (outcomeOf id entries').or (outcomeOf id entries) := by
  unfold outcomeOf
  rw [List.filterMap_append, List.getLast?_append]

/-- The statements about a job leave in its row what they write last. -/
theorem outcome_of_replays {job : Job} (h : Replays db entries db')
    (hentries : ∀ c ∈ entries, Dml.For job c.1) {row : Job} (hrow : row ∈ db.jobs)
    (hid : row.id = job.id) :
    ∃ row' ∈ db'.jobs, row'.id = job.id ∧ row'.key = row.key ∧ row'.headSha = row.headSha ∧
      row'.outcome = (outcomeOf job.id entries).getD row.outcome := by
  induction h with
  -- nothing was written about the job yet
  | nil => exact ⟨row, hrow, hid, rfl, rfl, rfl⟩
  | @snoc entries mid db' d answer _ happly ih =>
    obtain ⟨row', hrow', hid', hkey, hhead, houtcome⟩ := ih fun c hc =>
      hentries c (List.mem_append_left _ hc)
    have hfor : Dml.For job d := hentries ⟨d, answer⟩ (by simp)
    rw [outcomeOf_append]
    cases hfor with
    -- the status is the outcome
    | status status detail error updatedAt =>
      obtain ⟨_, rfl⟩ := Prod.mk.inj happly
      refine ⟨row'.withStatus status detail error updatedAt,
        mem_updateJobStatus.mpr (Or.inl ⟨row', hrow', hid', rfl⟩), hid', hkey, hhead, ?_⟩
      have hlast : outcomeOf job.id
          [⟨.updateJobStatus job.id status detail error updatedAt, answer⟩]
          = some (status, detail, error) := by
        simp [outcomeOf, Entry.outcome]
      rw [hlast]
      rfl
    -- the other statements leave the row of the job alone
    | unlock =>
      obtain ⟨_, rfl⟩ := Prod.mk.inj happly
      exact ⟨row', hrow', hid', hkey, hhead, houtcome⟩
    | posted posted _ _ =>
      obtain ⟨_, rfl⟩ := Prod.mk.inj happly
      exact ⟨row', hrow', hid', hkey, hhead, houtcome⟩
    | cooldown now =>
      obtain ⟨_, rfl⟩ := Prod.mk.inj happly
      exact ⟨row', hrow', hid', hkey, hhead, houtcome⟩

end VidiPr
