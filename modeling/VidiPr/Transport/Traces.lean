import VidiPr.Transport.GitHubClient

/-!
# What a run did to GitHub

The githubkit calls of a trace, and the answers they got. A call that is answered without an
exception has been accepted; the client repeats a refused call once where the refusal is a 401,
and is done with the first that is accepted.
-/

namespace VidiPr

open Effect Prog

/-- The requests of a run of the service with their answers. -/
abbrev ReqTrace : Type := Trace Req Req.Resp PyError

/-- The githubkit calls of a trace. -/
def asked (tr : ReqTrace) : List GhOp :=
  tr.filterMap fun
    | ⟨.ext (.github _ op), _⟩ => some op
    | _ => none

/-- The answer of a request, if it is to `op` and no exception. -/
def acceptedBy (op : GhOp) : (Σ e : Req, Except PyError e.Resp) → List op.Resp
  | ⟨.ext (.github _ op'), .ok v⟩ => if h : op' = op then [h ▸ v] else []
  | _ => []

/-- The answers to the calls of `op` in a trace, exceptions left out. -/
def accepted (op : GhOp) (tr : ReqTrace) : List op.Resp := tr.flatMap (acceptedBy op)

@[simp] theorem accepted_append (op : GhOp) (tr tr' : ReqTrace) :
    accepted op (tr ++ tr') = accepted op tr ++ accepted op tr' := List.flatMap_append

@[simp] theorem accepted_nil (op : GhOp) : accepted op [] = [] := rfl

/-- Nothing is accepted that was not asked for. -/
theorem accepted_eq_nil {op : GhOp} {tr : ReqTrace} (h : op ∉ asked tr) : accepted op tr = [] := by
  refine List.flatMap_eq_nil_iff.mpr fun c hc => ?_
  obtain ⟨e, r⟩ := c
  unfold acceptedBy
  split
  · rename_i client op' v heq
    refine dif_neg fun hop => h (List.mem_filterMap.mpr ⟨_, hc, ?_⟩)
    simp [heq, hop]
  · rfl

/-- A request whose githubkit call, if it is one, satisfies `O`. -/
def Req.AsksOnly (O : GhOp → Prop) : Req → Prop
  | .ext (.github _ op) => O op
  | _ => True

theorem Req.Asks.only {O : GhOp → Prop} {e : Req} (h : e.Asks O) : e.AsksOnly O := by
  unfold Req.Asks at h
  split at h
  · exact h
  · trivial
  · trivial
  · exact h.elim

@[simp] theorem asked_append (tr tr' : ReqTrace) : asked (tr ++ tr') = asked tr ++ asked tr' :=
  List.filterMap_append

/-- A reaction to a comment. -/
def GhOp.IsReaction : GhOp → Prop
  | .reactionsCreateForIssueComment .. => True
  | _ => False

variable {σ : Type} {sem : Sem Req Req.Resp PyError σ} {s s' : σ} {tr : ReqTrace}

/-- A run asks for what its program asks for. -/
theorem asked_of_calls {α : Type} {O : GhOp → Prop} {p q : Py α} (hp : p.Calls (Req.AsksOnly O))
    (h : Run sem p s tr q s') : ∀ op ∈ asked tr, O op := by
  intro op hop
  obtain ⟨⟨e, r⟩, hc, hsome⟩ := List.mem_filterMap.mp hop
  have hasks : Req.AsksOnly O e := (hp.run h).1 _ hc
  split at hsome
  · rename_i client op' r' heq
    cases heq
    cases hsome
    exact hasks
  · cases hsome

/-- What the finished runs of `p` accept for `op` is what they return. -/
def Returns (sem : Sem Req Req.Resp PyError σ) (op : GhOp) (p : Py op.Resp) : Prop :=
  ∀ ⦃s tr r s'⦄, Ends sem p s tr r s' → accepted op tr = r.toOption.toList

theorem returns_throw {op : GhOp} (x : PyError) : Returns sem op (Py.throw x) := by
  intro s tr r s' h
  obtain ⟨rfl, hr, _⟩ := run_ofExcept (show Run sem (ofExcept (.error x)) s tr _ s' from h)
  cases ofExcept_inj hr
  rfl

/-- A first part that asks for something else. -/
theorem returns_bind {α : Type} {op : GhOp} {p : Py α} {f : α → Py op.Resp}
    (hp : p.Calls fun e => ∀ r, acceptedBy op ⟨e, r⟩ = []) (hf : ∀ a, Returns sem op (f a)) :
    Returns sem op (p.bind f) := by
  intro s tr r s' h
  obtain ⟨r₁, tr₁, tr₂, s₁, rfl, hrun, hrest⟩ := ends_andThen h
  have hnone : accepted op tr₁ = [] :=
    List.flatMap_eq_nil_iff.mpr fun c hc => (hp.run hrun).1 c hc c.2
  rw [accepted_append, hnone, List.nil_append]
  cases r₁ with
  | ok a => exact hf a hrest
  | error x => exact returns_throw x hrest

namespace GitHubClient

/-- What one attempt accepts is what it returns. -/
theorem returns_callOnce (id : Nat) (op : GhOp) : Returns sem op (callOnce id op) := by
  refine returns_bind (Prog.calls_perform fun _ => rfl) fun client => ?_
  intro s tr r s' h
  obtain ⟨rfl, _⟩ := ends_perform h
  cases r with
  | ok v =>
    simp [accepted, acceptedBy]
    rfl
  | error x =>
    simp [accepted, acceptedBy]
    rfl

theorem returns_catching {op : GhOp} {body : Py op.Resp} {unauthorized : RequestFailed → Py op.Resp}
    (hbody : Returns sem op body) (hun : ∀ exc, Returns sem op (unauthorized exc)) :
    Returns sem op (catching body unauthorized) := by
  intro s tr r s' h
  rcases ends_tryCatch h with ⟨v, _, hrun⟩ | ⟨x, tr₁, tr₂, s₁, rfl, hrun, hrest⟩
  · exact hbody hrun
  · -- the attempt that raised accepted nothing
    have hnone : accepted op tr₁ = [] := hbody hrun
    rw [accepted_append, hnone, List.nil_append]
    cases x with
    | requestFailed exc =>
      dsimp only at hrest
      split at hrest
      · exact hun exc hrest
      · exact returns_throw _ hrest
    | _ => exact returns_throw _ hrest

/-- What an operation accepts is what it returns. -/
theorem returns_withAuthRetry (id : Nat) (op : GhOp) : Returns sem op (withAuthRetry id op) := by
  refine returns_catching (returns_callOnce id op) fun _ => ?_
  refine returns_bind (Prog.calls_perform fun _ => rfl) fun _ => ?_
  exact returns_catching (returns_callOnce id op) fun second => returns_throw _

end GitHubClient

end VidiPr
