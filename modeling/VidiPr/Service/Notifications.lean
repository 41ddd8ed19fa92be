import VidiPr.Service.Cooldown
import VidiPr.Service.Ledger

/-!
# Failure comments over whole runs

Two calls of `claim_failure_slot` that overlap may both take the slot. In the service nobody but the
worker calls it, so the slots of a pull request are taken one after the other, in the turns of one
worker and of those that came after it.

* **`SlotView`**, **`slotSem`** — the row of one pull request in `failure_cooldowns`, as the worker
  reads and leaves it; every run of the worker is one of `slotSem` (`slotSem_of_sem`).
* **`turn_slot`** — a turn takes one slot at most, out of the cooldown of the one before, and asks
  for no comment without it.
* **`notifications_apart`** — over whole runs, crashes and restarts included, the slots of a pull
  request are a cooldown apart.
-/

namespace VidiPr

open Effect Prog Relational Text Service

/-! ## The row of one pull request -/

/-- The row of a pull request in `failure_cooldowns`, as it is committed and as the worker sees
it. -/
structure SlotView where
  committed : Option FailureCooldown
  seen : Option FailureCooldown

namespace SlotView

variable (key : PrKey)

def of (s : Sqlite) : SlotView := ⟨s.committed.cooldown key, (s.view .worker).cooldown key⟩

/-- What an answered request leaves. -/
def next (v : SlotView) : (e : Req) → Except PyError e.Resp → SlotView
  | .sql (.dml (.upsertFailureCooldown row)), .ok _ =>
    if key = row.key then { v with seen := some row } else v
  | .sql .commit, .ok _ => { committed := v.seen, seen := v.seen }
  | .sql .rollback, .ok _ => { committed := v.committed, seen := v.committed }
  | _, _ => v

/-- A query for the row is answered with the one the worker sees. -/
def Answers (v : SlotView) : (e : Req) → Except PyError e.Resp → Prop
  | .sql (.query (.failureCooldown repo prNumber)), r =>
    (repo, prNumber) = key → ∀ row, r = .ok row → row = v.seen
  | _, _ => True

end SlotView

/-- The requests of the worker, as far as they are about the row of `key`. -/
def slotSem (key : PrKey) : Sem Req Req.Resp PyError SlotView := fun e v r v' =>
  e.Honest r ∧ v.Answers key e r ∧ v' = v.next key e r

variable {key : PrKey}

/-- Every request of the worker is one: the record of a pull request, seen apart from the rest of
the store, changes with the requests as the record in the store does. -/
theorem slotSem_of_sem {X : External} {e : Req} {w w' : World X} {r : Except PyError e.Resp}
    (h : sem X .worker e w r w') : slotSem key e (.of key w.db) r (.of key w'.db) := by
  refine ⟨honest_of_sem h, ?_⟩
  cases e with
  -- the outside has no record
  | ext e =>
    rw [h.2]
    exact ⟨trivial, rfl⟩
  | sql q =>
    cases q with
    | query q =>
      rcases h.1 with ⟨rfl, hdb⟩ | ⟨⟨message, rfl⟩, hdb⟩
      · rw [hdb]
        refine ⟨?_, rfl⟩
        cases q with
        | failureCooldown repo prNumber =>
          rintro rfl row hrow
          exact (Except.ok.inj hrow).symm
        | _ => trivial
      · rw [hdb]
        refine ⟨?_, rfl⟩
        cases q with
        | failureCooldown repo prNumber =>
          intro _ row hrow
          cases hrow
        | _ => trivial
    | dml d =>
      refine ⟨trivial, ?_⟩
      rcases h.1 with ⟨_, rfl, hdb⟩ | ⟨⟨message, rfl⟩, hdb⟩
      · have hview : w'.db.view .worker = (d.apply (w.db.view .worker)).2 := by
          rw [hdb]
          exact Sqlite.view_of_tx rfl
        have hcommitted : w'.db.committed = w.db.committed := by rw [hdb]
        unfold SlotView.of
        rw [hview, hcommitted]
        cases d with
        | upsertFailureCooldown row =>
          rw [cooldown_upsert]
          by_cases hkey : key = row.key <;> simp [SlotView.next, hkey]
        | _ => rfl
      · rw [hdb]
        cases d <;> rfl
    | commit =>
      refine ⟨trivial, ?_⟩
      rcases h.1 with ⟨rfl, hdb⟩ | ⟨⟨message, rfl⟩, hdb⟩
      · by_cases hown : w.db.Owns .worker
        · obtain ⟨work, htx⟩ := hown
          rw [hdb, Sqlite.commit_of_tx htx]
          show (⟨work.cooldown key, work.cooldown key⟩ : SlotView) =
            ⟨(w.db.view .worker).cooldown key, (w.db.view .worker).cooldown key⟩
          rw [Sqlite.view_of_tx htx]
        · rw [hdb, Sqlite.commit_of_not_owns hown, SlotView.of, Sqlite.view_of_not_owns hown]
          rfl
      · rw [hdb]
        rfl
    | rollback =>
      refine ⟨trivial, ?_⟩
      obtain ⟨rfl, hdb⟩ := h.1
      have hfree : ¬ (w.db.rollback .worker).Owns .worker := Sqlite.not_owns_rollback _ _
      rw [hdb, SlotView.of, Sqlite.view_of_not_owns hfree, Sqlite.rollback_committed]
      rfl

/-- Somebody else, who leaves the table alone, leaves the row alone. -/
theorem SlotView.env {a : Actor} {s s' : Sqlite} (hne : a ≠ .worker) (hstep : ActorStep a s s')
    (hsame : s.committed.SamePosts s'.committed) : SlotView.of key s' = .of key s := by
  by_cases hown : s.Owns .worker
  · rw [hstep.frame hne hown]
  · have hcooldown : s'.committed.cooldown key = s.committed.cooldown key :=
      congrArg (·.get? key) hsame.cooldowns
    rw [SlotView.of, SlotView.of, Sqlite.view_of_not_owns hown,
      Sqlite.view_of_not_owns (hstep.not_owns hne hown), hcooldown]

/-- Without a transaction of its own the worker sees what is committed. -/
theorem SlotView.of_not_owns {s : Sqlite} (h : ¬ s.Owns .worker) :
    (SlotView.of key s).seen = (SlotView.of key s).committed := by
  rw [SlotView.of, Sqlite.view_of_not_owns h]

/-! ## The slot of a turn -/

/-- The slot an entry takes. -/
def Entry.slot (key : PrKey) : Entry → Option Nat
  | ⟨.upsertFailureCooldown row, _⟩ => if row.key = key then some row.lastPostedAt else none
  | _ => none

/-- The times at which entries take the slot of `key`. -/
def slotsOf (key : PrKey) (entries : List Entry) : List Nat := entries.filterMap (Entry.slot key)

theorem slotsOf_append (entries entries' : List Entry) :
    slotsOf key (entries ++ entries') = slotsOf key entries ++ slotsOf key entries' :=
  List.filterMap_append

theorem slotsOf_upsert (now : Nat) :
    slotsOf key [⟨.upsertFailureCooldown ⟨key.1, key.2, now⟩, ()⟩] = [now] := by
  simp [slotsOf, Entry.slot, FailureCooldown.key]

/-- A statement that leaves the row of `key` alone. -/
def Dml.SparesSlot (key : PrKey) : Dml → Prop
  | .upsertFailureCooldown row => row.key ≠ key
  | _ => True

theorem slotsOf_eq_nil {entries : List Entry} (h : ∀ c ∈ entries, Dml.SparesSlot key c.1) :
    slotsOf key entries = [] := by
  refine List.filterMap_eq_nil_iff.mpr fun c hc => ?_
  obtain ⟨d, row⟩ := c
  have hspares : d.SparesSlot key := h _ hc
  cases d with
  | upsertFailureCooldown row => exact if_neg hspares
  | _ => rfl

theorem Dml.For.sparesSlot {job : Job} {d : Dml} (h : d.For job) (hkey : job.key ≠ key) :
    d.SparesSlot key := by
  cases h with
  | cooldown now => exact hkey
  | _ => trivial

/-- A routine that leaves the row alone leaves the view as it is, and takes no slot. -/
theorem spared_run {α : Type} {p q : Py α} {v v' : SlotView} {tr : ReqTrace}
    (hp : p.Calls (Req.Writes (Dml.SparesSlot key))) (h : Run (slotSem key) p v tr q v')
    (hv : v.seen = v.committed) :
    v' = v ∧ slotsOf key (journal tr).kept = [] := by
  constructor
  · refine hp.keeps (I := fun v' => v' = v) (fun e he u r u' hu hsem => ?_) h rfl
    subst hu
    rw [hsem.2.2]
    obtain ⟨committed, seen⟩ := u
    obtain rfl : seen = committed := hv
    rcases e with q | e
    · cases q with
      | dml d =>
        cases d with
        | upsertFailureCooldown row =>
          have hne : key ≠ row.key := Ne.symm he
          cases r with
          | ok u => exact if_neg hne
          | error x => rfl
        | _ => rfl
      | _ => cases r <;> rfl
    · rfl
  · have hall := Journal.recordAll_entries (j := {}) (hp.run h).1
      fun c hc => absurd hc List.not_mem_nil
    exact slotsOf_eq_nil fun c hc => hall c (List.mem_append_left _ hc)

/-- The outcome of a review is in other tables. -/
theorem persistOutcome_sparesSlot (job : Job) (result : ReviewResult) :
    (Worker.persistOutcome job result).Calls (Req.Writes (Dml.SparesSlot key)) := by
  have hrecord : (Worker.recordReview job result).Calls (Req.Writes (Dml.SparesSlot key)) := by
    unfold Worker.recordReview
    split
    · refine Calls.bind ((calls_perform trivial).bind fun now => ?_) fun _ => trivial
      exact calls_perform trivial
    · trivial
  refine withSession_writes ((updateJobStatus_writes fun now => trivial).bind fun _ => ?_)
  refine hrecord.bind fun _ => ?_
  exact (show (releaseLock job.repo job.prNumber).Calls _ from calls_perform trivial).bind fun _ =>
    calls_perform trivial

/-- What has happened to the slot of `key`: nothing, and no comment was asked for, or it was taken
out of the cooldown of the row before. -/
inductive SlotTaken (key : PrKey) (cooldownSeconds : Nat) (v v' : SlotView) (tr : ReqTrace)
    (slots : List Nat) : Prop where
  | untouched (hslots : slots = []) (hsame : v'.committed = v.committed)
      (hcomment : spent Req.price tr .comment = 0)
  | taken (now : Nat) (hslots : slots = [now]) (hrow : v'.committed = some ⟨key.1, key.2, now⟩)
      (hapart : ∀ row, v.committed = some row →
        row.lastPostedAt + cooldownWindow cooldownSeconds ≤ now)

section Turn

variable {job : Job} {result : ReviewResult} {v v' : SlotView} {tr : ReqTrace}

theorem slotSem_honest : ∀ e u r u', slotSem key e u r u' → e.Honest r := fun _ _ _ _ h => h.1

/-- Without a commit the row stays. -/
theorem committed_of_run {α : Type} {p q : Py α} (h : Run (slotSem key) p v tr q v')
    (hnone : ¬ Committed tr) : v'.committed = v.committed := by
  induction h with
  | refl => rfl
  | @step e k u u' u'' r tr q hsem _ ih =>
    rw [ih fun hc => hnone (List.mem_cons_of_mem _ hc), hsem.2.2]
    unfold SlotView.next
    split
    · split <;> rfl
    · exact absurd List.mem_cons_self hnone
    · rfl
    · rfl

/-- A call of `claim_failure_slot` that has taken the slot. -/
theorem SlotClaim.view {cooldownSeconds now : Nat}
    (h : SlotClaim (slotSem key) key cooldownSeconds v tr v' now) (hv : v.seen = v.committed) :
    v'.committed = some ⟨key.1, key.2, now⟩ ∧ ∀ row, v.committed = some row →
      row.lastPostedAt + cooldownWindow cooldownSeconds ≤ now := by
  obtain ⟨existing, v₁, v₂, v₃, v₄, hfree, ⟨-, -, hv₁⟩, ⟨-, hquery, -⟩, ⟨-, -, hv₃⟩, ⟨-, -, hv₄⟩,
    ⟨-, -, hv'⟩⟩ := h.asked
  refine ⟨?_, fun row hrow => ?_⟩
  · calc v'.committed = v₄.committed := by rw [hv']; rfl
      _ = v₃.seen := by rw [hv₄]; rfl
      _ = some ⟨key.1, key.2, now⟩ := by rw [hv₃]; exact congrArg SlotView.seen (if_pos rfl)
  · have hexisting : existing = some row := calc
      existing = v₁.seen := hquery rfl existing rfl
      _ = v.seen := congrArg SlotView.seen hv₁
      _ = some row := hv.trans hrow
    rw [hexisting, Option.any_some, decide_eq_false_iff_not] at hfree
    unfold FailureCooldown.InForce at hfree
    unfold cooldownWindow
    omega

variable [UnicodeDb]

/-- What `_process` does with the outcome of the review. -/
theorem persist_slot {config : OperatorConfig} {r : Except PyError Unit}
    (h : Ends (slotSem job.key) (Worker.persist config job result) v tr r v')
    (hv : v.seen = v.committed) :
    SlotTaken job.key config.pipeline.failureCommentCooldownSeconds v v' tr
      (slotsOf job.key (journal tr).kept) := by
  obtain ⟨r₁, tr₁, tr₂, v₁, rfl, hpersist, hrest⟩ := ends_andThen h
  obtain ⟨rfl, hnone⟩ := spared_run (persistOutcome_sparesSlot job result) hpersist hv
  have hclosed := (kept_persistOutcome (j := {}) slotSem_honest hpersist rfl).1
  have hquiet : spent Req.price tr₁ .comment = 0 :=
    Nat.le_zero.mp ((Worker.persistOutcome_within job result).spent_le hpersist .comment)
  have hstay : tr₂ = [] → v' = v₁ → SlotTaken job.key
      config.pipeline.failureCommentCooldownSeconds v₁ v' (tr₁ ++ tr₂)
      (slotsOf job.key (journal (tr₁ ++ tr₂)).kept) := by
    rintro rfl rfl
    rw [List.append_nil]
    exact .untouched hnone rfl hquiet
  cases r₁ with
  | error x =>
    obtain ⟨htr, -, hv'⟩ := ends_raise hrest
    exact hstay htr hv'
  | ok u =>
    dsimp only at hrest
    split at hrest
    · obtain ⟨r₂, tr₃, tr₄, v₂, rfl, hpost, hend⟩ := ends_andThen hrest
      have hlast : tr₄ = [] ∧ v' = v₂ := by
        cases r₂ with
        | error x => exact ⟨(ends_raise hend).1, (ends_raise hend).2.2⟩
        | ok b => exact ⟨(ends_ret hend).1, (ends_ret hend).2.2⟩
      obtain ⟨rfl, rfl⟩ := hlast
      obtain ⟨r₃, tr₅, tr₆, v₃, rfl, hsession, rest, hcalls, hcomment⟩ := maybePost_ends hpost
      rw [List.append_nil]
      have hext := (hcalls.run hcomment).1
      have hspared : v'.committed = v₃.committed :=
        committed_of_run hcomment fun hc => (hext _ hc).1
      have hkept : (journal (tr₁ ++ (tr₅ ++ tr₆))).kept = ((journal tr₁).recordAll tr₅).kept := by
        rw [journal, Journal.recordAll_append, Journal.recordAll_append,
          Journal.recordAll_isExt fun c hc => (hext c hc).1]
        rfl
      rw [hkept]
      rcases claimSlot_ends slotSem_honest hsession with ⟨hnot, hcommit⟩ | ⟨-, now, htakes⟩
      · have hnil : tr₆ = [] := List.eq_nil_iff_forall_not_mem.mpr fun c hc => hnot (hext c hc).2
        have hsilent : spent Req.price tr₅ .comment = 0 := Nat.le_zero.mp
          ((withSession_within (claimFailureSlot_within ..)).spent_le hsession .comment)
        refine .untouched ?_ (hspared.trans (committed_of_run hsession hcommit)) ?_
        · rw [kept_of_not_committed hcommit]
          exact hnone
        · rw [hnil, List.append_nil, spent_append, Pi.add_apply, hquiet, hsilent]
      · obtain ⟨hrow, hapart⟩ := htakes.view hv
        refine .taken now ?_ (hspared.trans hrow) hapart
        have hpending : (journal tr₁).pending = [] := hclosed
        rw [htakes.kept, hpending, List.nil_append, slotsOf_append, hnone, List.nil_append]
        exact slotsOf_upsert now
    · obtain ⟨htr, -, hv'⟩ := ends_ret hrest
      exact hstay htr hv'

variable [ConfigLibrary] [PromptFiles] {reviewer : Reviewer} {config : OperatorConfig} {p : Py Unit}

/-- A turn on another pull request takes no slot of this one, and leaves its row as it is. -/
theorem turn_elsewhere (hkey : job.key ≠ key)
    (h : Run (slotSem key) (Worker.process config (Reviewer.run reviewer) job) v tr p v')
    (hv : v.seen = v.committed) : v' = v ∧ slotsOf key (journal tr).kept = [] := by
  have hwrites := process_writes config (Reviewer.routine reviewer) job
  exact spared_run (hwrites.mono fun e he => he.mono fun d hd => hd.sparesSlot hkey) h hv

/-- **The slot of a turn**, wherever it is cut short: it takes one at most, and asks for no comment
without it. -/
theorem turn_slot
    (h : Run (slotSem job.key) (Worker.process config (Reviewer.run reviewer) job) v tr p v')
    (hv : v.seen = v.committed) :
    SlotTaken job.key config.pipeline.failureCommentCooldownSeconds v v' tr
      (slotsOf job.key (journal tr).kept) := by
  -- the rest of the turn, all of whose requests are refused
  have hrefuse : ∀ (e : Req) (u : SlotView), u.Answers job.key e (refuse e) := by
    intro e u
    unfold SlotView.Answers
    split
    · intro _ row hrow
      cases hrow
    · trivial
  obtain ⟨rest, r, v'', hscript, hleft, hends⟩ :=
    h.finish refuse (fun e u => u.next job.key e (refuse e))
      fun e u => ⟨refuse_honest e, hrefuse e u, rfl⟩
  have hrest : ∀ c ∈ rest, c.2 = refuse c.1 := hscript.answered fun _ _ _ _ hanswer => hanswer.1
  have hcommit : ¬ Committed rest := by
    intro hmem
    cases hrest _ hmem
  have hkept : (journal (tr ++ rest)).kept = (journal tr).kept := by
    rw [journal, Journal.recordAll_append, (refused hrest).1]
    rfl
  have hcommitted : v''.committed = v'.committed := committed_of_run hleft hcommit
  suffices hall : SlotTaken job.key config.pipeline.failureCommentCooldownSeconds v v'' (tr ++ rest)
      (slotsOf job.key (journal (tr ++ rest)).kept) by
    rw [hkept] at hall
    cases hall with
    | untouched hslots hsame hcomment =>
      rw [spent_append, Pi.add_apply] at hcomment
      exact .untouched hslots (hcommitted.symm.trans hsame) (by omega)
    | taken now hslots hrow hapart => exact .taken now hslots (hcommitted.symm.trans hrow) hapart
  obtain ⟨r₁, tr₁, tr₂, v₁, heq, hreview, hsettle⟩ := ends_andThen hends
  rw [heq]
  have hext := waitFor_calls (Reviewer.run_calls reviewer job)
  obtain ⟨rfl, -⟩ := spared_run (hext.mono fun e he => he.writes) hreview hv
  have hyields := (waitFor_yields (Reviewer.run_finished reviewer job)).ends hreview
    fun e _ r _ hr => Req.Honest.possible hr.1
  have hnot : r₁ ≠ .error .cancelled := by
    cases r₁ <;> exact hyields.1
  have hjournal : journal (tr₁ ++ tr₂) = journal tr₂ := by
    rw [journal, Journal.recordAll_append, Journal.recordAll_isExt (hext.run hreview).1]
    rfl
  rw [settle_eq hnot] at hsettle
  have hquiet := (waitFor_within (Reviewer.run_within reviewer job)).spent_le hreview .comment
  rw [hjournal]
  cases persist_slot hsettle hv with
  | untouched hslots hsame hcomment =>
    refine .untouched hslots hsame ?_
    simp [times_apply] at hquiet
    rw [spent_append, Pi.add_apply, hquiet, hcomment]
  | taken now hslots hrow hapart => exact .taken now hslots hrow hapart

end Turn

/-! ## The slots of a run -/

/-- The slots a turn has taken for a pull request: the times it wrote into `failure_cooldowns` and
committed. -/
def Turn.slots (key : PrKey) (turn : Turn) : List Nat := slotsOf key (journal turn.trace).kept

/-- The slots the turns of these jobs have taken. -/
def slotsTaken (key : PrKey) (turns : Turns) (ids : List Nat) : List Nat :=
  ids.flatMap fun id => ((turns id).map (Turn.slots key)).getD []

theorem slotsTaken_update {turns : Turns} {id : Nat} {turn : Option Turn} {ids : List Nat}
    (h : id ∉ ids) :
    slotsTaken key (Function.update turns id turn) ids = slotsTaken key turns ids := by
  refine List.flatMap_congr fun other hother => ?_
  rw [Function.update_of_ne]
  rintro rfl
  exact h hother

theorem slotsTaken_cons {turns : Turns} {id : Nat} {turn : Turn} {ids : List Nat}
    (hturn : turns id = some turn) :
    slotsTaken key turns (id :: ids) = turn.slots key ++ slotsTaken key turns ids := by
  rw [slotsTaken, List.flatMap_cons, hturn]
  rfl

/-- Slots, newest first, that are a cooldown apart, and the row of the newest. -/
structure Slotted (cooldownSeconds : Nat) (slots : List Nat) (row : Option FailureCooldown) :
    Prop where
  row : row.map (·.lastPostedAt) = slots.head?
  apart : slots.Pairwise fun later earlier => earlier + cooldownWindow cooldownSeconds ≤ later

/-- One more turn: where the turns before it have left their slots a cooldown apart, the new slot,
if it took one, is a cooldown after the last of them. -/
theorem Slotted.turn {cooldownSeconds : Nat} {slots new : List Nat} {v v' : SlotView}
    {tr : ReqTrace} (h : Slotted cooldownSeconds slots v.committed)
    (hslot : SlotTaken key cooldownSeconds v v' tr new) :
    Slotted cooldownSeconds (new ++ slots) v'.committed := by
  cases hslot with
  | untouched hslots hsame hcomment =>
    rw [hslots, hsame]
    exact h
  | taken now hslots hrow hapart =>
    rw [hslots, hrow]
    refine ⟨rfl, List.pairwise_cons.mpr ⟨fun earlier hearlier => ?_, h.apart⟩⟩
    -- the newest of the old ones is that of the row, and the others come before it
    have hhead := h.row
    have hpairs := h.apart
    cases slots with
    | nil => exact absurd hearlier List.not_mem_nil
    | cons newest older =>
      obtain ⟨row, hrow, hlast⟩ := Option.map_eq_some_iff.mp hhead
      have hout := hapart row hrow
      rcases List.mem_cons.mp hearlier with rfl | holder
      · omega
      · have hbefore := (List.pairwise_cons.mp hpairs).1 earlier holder
        omega

/-- The tasks that post nothing: no statement of theirs is about `reviews_posted` or
`failure_cooldowns`. -/
def Workload.SparesPosts (W : Workload) : Prop :=
  ∀ task, (W.prog task).Calls (Req.Writes Dml.SparesPosts)

/-- No task in flight posts anything: each has only statements left that spare the two tables. -/
abbrev CallsSpare {D : Deployment} (s : Service D) : Prop :=
  CallsMind (fun _ => Dml.SparesPosts) (fun _ => Db.SamePosts) s

section Service

variable [UnicodeDb] [ConfigLibrary] [PromptFiles] {X : External} {W : Workload}
  {config : OperatorConfig} {reviewer : Reviewer}
  {s s' : Service (.serve X W config (Reviewer.routine reviewer))} {turns : Turns}

/-- The slots of every pull request are a cooldown apart, no turn has asked for a comment without a
slot, and the one in progress began out of the cooldown of the slots before it. -/
structure Noticed (s : Service (.serve X W config (Reviewer.routine reviewer))) (turns : Turns) :
    Prop where
  calls : CallsSpare s
  settled : ∀ key, Slotted config.pipeline.failureCommentCooldownSeconds
    (slotsTaken key turns s.started) (s.world.db.committed.cooldown key)
  commented : ∀ id turn, turns id = some turn → 0 < spent Req.price turn.trace .comment →
    ∃ now, turn.slots turn.job.key = [now]
  current : ∀ job p turn, s.worker = .processing job p → turns job.id = some turn →
    ∃ before, s.started = job.id :: before ∧ ∀ key, ∃ v : SlotView, v.seen = v.committed ∧
      Slotted config.pipeline.failureCommentCooldownSeconds (slotsTaken key turns before)
        v.committed ∧
      Run (slotSem key) (Worker.process config (Reviewer.run reviewer) job) v turn.trace p
        (.of key s.world.db)

namespace Noticed

/-- The table stays, and the worker is in no turn. -/
theorem move (h : Noticed s turns) {t : Service (.serve X W config (Reviewer.routine reviewer))}
    (hcalls : CallsSpare t) (hstarted : t.started = s.started)
    (hsame : s.world.db.committed.SamePosts t.world.db.committed)
    (hphase : ∀ job p, t.worker ≠ .processing job p) : Noticed t turns := by
  refine ⟨hcalls, fun key => ?_, h.commented, fun job p _ hp => absurd hp (hphase job p)⟩
  rw [hstarted, Db.cooldown, hsame.cooldowns]
  exact h.settled key

theorem env (h : Noticed s turns) {t : Service (.serve X W config (Reviewer.routine reviewer))}
    {n : Nat} (hcalls : CallsSpare t) (hstarted : t.started = s.started)
    (hphase : t.worker = s.worker) (hstep : ActorStep (.call n) s.world.db t.world.db)
    (hsame : s.world.db.committed.SamePosts t.world.db.committed) : Noticed t turns := by
  refine ⟨hcalls, fun key => ?_, h.commented, fun job p turn hp hturn => ?_⟩
  · rw [hstarted, Db.cooldown, hsame.cooldowns]
    exact h.settled key
  · obtain ⟨before, hbefore, hrun⟩ := h.current job p turn (hphase ▸ hp) hturn
    refine ⟨before, hstarted.trans hbefore, fun key => ?_⟩
    rw [SlotView.env (a := .call n) (by simp) hstep hsame]
    exact hrun key

/-- A turn begins: it has taken no slot yet, and the slots of the turns before it are settled. -/
theorem begin (h : Noticed s turns) {t : Service (.serve X W config (Reviewer.routine reviewer))}
    {job : Job} (hcalls : CallsSpare t) (hstarted : t.started = job.id :: s.started)
    (hworld : t.world = s.world) (hfresh : job.id ∉ s.started)
    (hphase : t.worker = .processing job (Worker.process config (Reviewer.run reviewer) job))
    (hfree : ¬ s.world.db.Owns .worker) :
    Noticed t (Function.update turns job.id (some ⟨job, []⟩)) := by
  -- the turns before are as they were
  have hbefore : ∀ key, slotsTaken key (Function.update turns job.id (some ⟨job, []⟩)) s.started =
      slotsTaken key turns s.started := fun key => slotsTaken_update hfresh
  refine ⟨hcalls, fun key => ?_, fun id turn hturn hcomment => ?_, fun job' p turn hp hturn => ?_⟩
  · rw [hstarted, slotsTaken_cons (Function.update_self ..), hbefore, hworld]
    exact h.settled key
  · -- the new turn has posted nothing
    by_cases hid : id = job.id
    · subst hid
      rw [Function.update_self] at hturn
      cases hturn
      exact absurd hcomment (Nat.lt_irrefl 0)
    · rw [Function.update_of_ne hid] at hturn
      exact h.commented id turn hturn hcomment
  · rw [hphase] at hp
    cases hp
    rw [Function.update_self] at hturn
    cases hturn
    refine ⟨s.started, hstarted, fun key =>
      ⟨.of key s.world.db, SlotView.of_not_owns hfree, ?_, ?_⟩⟩
    · rw [hbefore]
      exact h.settled key
    · rw [hworld]
      exact .refl _ _

/-- The turn in progress makes a request. -/
theorem request (h : Noticed s turns) {t : Service (.serve X W config (Reviewer.routine reviewer))}
    {turn : Turn} {e : Req} {k : Except PyError e.Resp → Py Unit} {r : Except PyError e.Resp}
    {world : World X} (hcalls : CallsSpare t) (hstarted : t.started = s.started)
    (honce : s.started.Nodup) (hphase : s.worker = .processing turn.job (.call e k))
    (hturn : turns turn.job.id = some turn) (hsem : sem X .worker e s.world r world)
    (hworld : t.world = world) (hnext : t.worker = .processing turn.job (k r)) :
    Noticed t (Function.update turns turn.job.id (some (turn.add e r))) := by
  obtain ⟨before, hbefore, hruns⟩ := h.current _ _ turn hphase hturn
  have hfresh : turn.job.id ∉ before := (List.nodup_cons.mp (hbefore ▸ honce)).1
  -- the turn with one request more, seen by each pull request
  have hadded : ∀ key, ∃ v : SlotView, v.seen = v.committed ∧
      Slotted config.pipeline.failureCommentCooldownSeconds
        (slotsTaken key (Function.update turns turn.job.id (some (turn.add e r))) before)
        v.committed ∧
      Run (slotSem key) (Worker.process config (Reviewer.run reviewer) turn.job) v
        (turn.add e r).trace (k r) (.of key t.world.db) := by
    intro key
    obtain ⟨v, hv, hslotted, hrun⟩ := hruns key
    refine ⟨v, hv, ?_, ?_⟩
    · rw [slotsTaken_update hfresh]
      exact hslotted
    · rw [hworld]
      exact hrun.snoc (slotSem_of_sem hsem)
  refine ⟨hcalls, fun key => ?_, fun id turn' hturn' hcomment => ?_,
    fun job' p turn' hp hturn' => ?_⟩
  · -- what the turn leaves of its own slot, and of the others
    rw [hstarted, hbefore, slotsTaken_cons (Function.update_self ..)]
    obtain ⟨v, hv, hslotted, hrun⟩ := hadded key
    by_cases hkey : turn.job.key = key
    · subst hkey
      exact hslotted.turn (turn_slot hrun hv)
    · obtain ⟨hsame, hnone⟩ := turn_elsewhere hkey hrun hv
      rw [show (turn.add e r).slots key = [] from hnone, List.nil_append]
      have hcommitted : t.world.db.committed.cooldown key = v.committed :=
        congrArg SlotView.committed hsame
      rw [hcommitted]
      exact hslotted
  · -- whoever posts has taken the slot
    by_cases hid : id = turn.job.id
    · subst hid
      rw [Function.update_self] at hturn'
      cases hturn'
      obtain ⟨v, hv, -, hrun⟩ := hadded turn.job.key
      cases turn_slot hrun hv with
      | untouched _ _ hquiet =>
        have hnone : spent Req.price (turn.add e r).trace .comment = 0 := hquiet
        omega
      | taken now hslots => exact ⟨now, hslots⟩
    · rw [Function.update_of_ne hid] at hturn'
      exact h.commented id turn' hturn' hcomment
  · rw [hnext] at hp
    cases hp
    rw [Function.update_self] at hturn'
    cases hturn'
    exact ⟨before, hstarted.trans hbefore, hadded⟩

end Noticed

/-- The step lemma. Only the worker's turn touches the cooldowns, under the assumption on the other
tasks; a turn that begins has taken no slot, and each of its requests is that of a run of `_process`
on its own. -/
theorem noticed_step {ev : Event (.serve X W config (Reviewer.routine reviewer))}
    (hW : W.SparesPosts) (h : Noticed s turns) (hhist : History s turns) (hs : Step s ev s') :
    Noticed s' (note s ev turns) := by
  obtain ⟨seen, F, -, hlife⟩ := hhist.life
  have hcalls : CallsSpare s' := callsMind_step (O := fun _ => Dml.SparesPosts) hW
    (fun _ => samePosts_kept) h.calls hlife.inv hs
  have hspares := (booked_history hhist).spares
  have hw := hlife.inv.worker
  cases hs with
  | external | spawn | requestStop => exact ⟨hcalls, h.settled, h.commented, h.current⟩
  -- a task leaves the records alone
  | call hcall hsem =>
    have hsame := ((h.calls _ _ hcall).step samePosts_kept hsem).1
    exact h.env hcalls rfl rfl (actorStep_of_sem hsem) hsame
  | start | crash => exact h.move hcalls rfl ⟨rfl, rfl⟩ fun job p hp => by cases hp
  | recover hphase may => exact may.elim
  -- so do recovery and `_claim_one`
  | recoverStep hphase hsem =>
    rw [note_worker fun job p hp => by rw [hphase] at hp; cases hp]
    rw [hphase] at hspares
    exact h.move hcalls rfl (Minds.step hspares samePosts_kept hsem).1 fun job p hp => by cases hp
  | claimStep hphase hsem =>
    rw [note_worker fun job p hp => by rw [hphase] at hp; cases hp]
    rw [hphase] at hspares
    exact h.move hcalls rfl (Minds.step hspares samePosts_kept hsem).1 fun job p hp => by cases hp
  -- a turn begins, of a job that was never started
  | @claimedSome job hphase =>
    rw [note_claimed hphase]
    rw [hphase] at hw
    have hnodup := life_started hlife (.claimedSome hphase)
    exact h.begin hcalls rfl rfl (List.nodup_cons.mp hnodup).1 rfl hw.ok.1
  | processStep hphase hsem =>
    rw [note_processing hphase]
    obtain ⟨turn, hturn, rfl, _⟩ := (turns_history hhist).current _ _ hphase
    rw [hturn]
    exact h.request hcalls rfl hlife.once hphase hturn hsem rfl rfl
  | recovered hphase | leave hphase | claim hphase | claimedNone hphase | wake hphase
  | claimRaised hphase | processed hphase | processRaised hphase =>
    rw [note_control fun job hp => by rw [hphase] at hp; cases hp]
    exact h.move hcalls rfl ⟨rfl, rfl⟩ fun job p hp => by cases hp

/-- The run lemma: over a whole run the slots of a pull request, turn by turn, are the claims its
row has seen. -/
theorem noticed_history (hW : W.SparesPosts) (h : History s turns) : Noticed s turns := by
  induction h with
  | initial ext =>
    refine ⟨fun n call hn => ?_, fun key => ⟨rfl, .nil⟩, fun id turn hturn => ?_,
      fun job p turn hp => ?_⟩
    · cases hn
    · cases hturn
    · cases hp
  | step h hs ih => exact noticed_step hW ih h hs

/-- **Failure comments over whole runs.** If no other task posts, then in every run, crashes and
restarts included, the slots that were ever taken for a pull request are a cooldown apart, the
store has the time of the newest, and no turn asks for a failure comment without a slot it has taken
for it. -/
theorem notifications_apart (hW : W.SparesPosts) (h : History s turns) :
    (∀ key, (slotsTaken key turns s.started).Pairwise fun later earlier =>
      earlier + cooldownWindow config.pipeline.failureCommentCooldownSeconds ≤ later) ∧
    (∀ key, (s.world.db.committed.cooldown key).map (·.lastPostedAt) =
      (slotsTaken key turns s.started).head?) ∧
    ∀ id turn, turns id = some turn → 0 < spent Req.price turn.trace .comment →
      ∃ now, turn.slots turn.job.key = [now] := by
  have hnoticed := noticed_history hW h
  exact ⟨fun key => (hnoticed.settled key).apart, fun key => (hnoticed.settled key).row,
    hnoticed.commented⟩

end Service

section Example

attribute [local instance] asciiDb exampleLibrary emptyPrompts

/-- The service on a day on which GitHub cannot be reached. -/
abbrev unreachableService : Deployment :=
  .serve outage enqueueWorkload exampleConfig (Reviewer.routine exampleReviewer)

theorem enqueueWorkload_sparesPosts : enqueueWorkload.SparesPosts := by
  intro args
  refine withSession_writes ((calls_perform trivial).bind fun existing => ?_)
  cases existing with
  | some lock => trivial
  | none =>
    refine Calls.bind ((calls_perform trivial).bind fun now => calls_perform trivial) fun job => ?_
    refine Calls.bind ((calls_perform trivial).bind fun now => calls_perform trivial)
      fun acquired => ?_
    split
    · exact (calls_perform trivial).bind fun _ => trivial
    · exact (calls_perform trivial).bind fun _ => trivial

/-- A run in which one job fails, and is commented on in vain. -/
theorem exists_failed :
    ∃ s : Service unreachableService, Reachable s ∧ s.started = [1] ∧
      ∃ row ∈ s.world.db.committed.failureCooldowns, row.repo = "o/r" ∧ row.prNumber = 7 := by
  obtain ⟨s, hs, htest⟩ := exists_of_schedule outageResponder (fun _ _ => true)
    (fun _ _ _ => trivial) (0 : Nat)
    ([.start, .spawn 1 exampleTrigger] ++ List.replicate 7 (.call 1 false) ++
      List.replicate 30 (.worker false))
    (fun (s : Service unreachableService) => decide (s.started = [1] ∧
      ∃ row ∈ s.world.db.committed.failureCooldowns, row.repo = "o/r" ∧ row.prNumber = 7))
    (by decide +kernel)
  exact ⟨s, hs, of_decide_eq_true htest⟩

/-- The slot of that job. -/
theorem notifications_apart_failed :
    ∃ (s : Service unreachableService) (turns : Turns) (now : Nat), History s turns ∧
      (slotsTaken ("o/r", 7) turns s.started).head? = some now ∧
      (slotsTaken ("o/r", 7) turns s.started).Pairwise fun later earlier =>
        earlier + cooldownWindow 3600 ≤ later := by
  obtain ⟨s, hs, -, row, hrow, hrepo, hnumber⟩ := exists_failed
  obtain ⟨turns, hturns⟩ := history_of_reachable hs
  obtain ⟨hapart, hnewest, -⟩ := notifications_apart enqueueWorkload_sparesPosts hturns
  have hget : s.world.db.committed.cooldown ("o/r", 7) = some row :=
    Table.get?_eq_some.mpr ⟨hrow, Prod.ext hrepo hnumber⟩
  refine ⟨s, turns, row.lastPostedAt, hturns, ?_, hapart _⟩
  rw [← hnewest, hget]
  rfl

end Example

end VidiPr
