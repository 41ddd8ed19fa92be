import VidiPr.Config.Cache
import VidiPr.Lib.RelyGuarantee

/-!
# Which branch a config comes from

The trust rule in its own terms: a branch is a set of files, and the config of a pull request is
a function of the files of two branches (`trustedConfig`). The loader computes this function,
whatever its cache has been through: what it keeps about a branch that does not change agrees
with the branch.

* **`cachedFetch_triple`** — a cached fetch answers what the branch holds.
* **`load_triple`** — `load` computes `trustedConfig`.
* **`untrusted_branch_noninterference`** — the default branch alone decides the config of a pull
  request whose base branch it does not list, and the base branch alone that of one it does.
-/

namespace VidiPr

open Effect RepoConfigLoader

/-! ## The trust rule -/

/-- The files of a branch, by their paths. -/
abbrev Branch : Type := String → FileState

section TrustRule

variable [ConfigLibrary]

namespace Branch

/-- The config a branch holds, if it holds one. -/
def config (branch : Branch) : Except PyError (Option RepoConfig) := do
  match ← (branch configPath).text with
  | none => return none
  | some text => return some (← parse text)

theorem config_error {branch : Branch} {x : PyError} (h : (branch configPath).text = .error x) :
    branch.config = .error x := by
  simp only [config, h, bind, Except.bind]

theorem config_none {branch : Branch} (h : (branch configPath).text = .ok none) :
    branch.config = .ok none := by
  simp only [config, h, bind, Except.bind, pure, Except.pure]

theorem config_some {branch : Branch} {text : String}
    (h : (branch configPath).text = .ok (some text)) :
    branch.config = (parse text).map some := by
  simp only [config, h, bind, Except.bind]
  cases parse text <;> rfl

/-- A config with its context file, read from the branch. -/
def inlined (branch : Branch) (config : RepoConfig) : Except PyError RepoConfig :=
  match config.review.projectContextFile with
  | none => return config
  | some path => do
    match ← (branch path.value).text with
    | none => return config
    | some content => return withContext config content

/-- The branch holds a config, and it lists `baseRef`. -/
def Lists (branch : Branch) (baseRef : String) : Prop :=
  ∃ config, branch.config = .ok (some config) ∧ baseRef ∈ config.trustedBaseBranches

end Branch

/-- The config of a pull request against `baseRef`, from the files of each branch. -/
def trustedConfig (defaults : DefaultsConfig) (contents : String → Branch)
    (baseRef defaultBranch : String) : Except PyError RepoConfig := do
  match ← (contents defaultBranch).config with
  | none => return absentConfig defaults
  | some config =>
    if baseRef ≠ defaultBranch ∧ baseRef ∈ config.trustedBaseBranches then
      match ← (contents baseRef).config with
      | none => (contents defaultBranch).inlined config
      | some baseRefConfig => (contents baseRef).inlined baseRefConfig
    else (contents defaultBranch).inlined config

/-- A base branch that is not listed does not matter. -/
theorem trustedConfig_of_not_lists {defaults : DefaultsConfig}
    {contents contents' : String → Branch}
    {baseRef defaultBranch : String} (hagree : contents defaultBranch = contents' defaultBranch)
    (hlists : ¬ (contents defaultBranch).Lists baseRef) :
    trustedConfig defaults contents baseRef defaultBranch =
      trustedConfig defaults contents' baseRef defaultBranch := by
  unfold trustedConfig
  rw [← hagree]
  cases hconfig : (contents defaultBranch).config with
  | error exc => rfl
  | ok config =>
    cases config with
    | none => rfl
    | some config =>
      have hnot : ¬ (baseRef ≠ defaultBranch ∧ baseRef ∈ config.trustedBaseBranches) :=
        fun h => hlists ⟨config, hconfig, h.2⟩
      simp only [bind, Except.bind, if_neg hnot]

/-- A listed base branch that has a config file decides alone. -/
theorem trustedConfig_of_lists {defaults : DefaultsConfig} {contents : String → Branch}
    {baseRef defaultBranch text : String} {etag : Option String}
    (hlists : (contents defaultBranch).Lists baseRef)
    (hfile : contents baseRef configPath = .found text etag) :
    trustedConfig defaults contents baseRef defaultBranch =
      (parse text).bind (contents baseRef).inlined := by
  obtain ⟨config, hconfig, hmem⟩ := hlists
  have hbase : (contents baseRef).config = (parse text).map some :=
    Branch.config_some (by rw [hfile]; rfl)
  unfold trustedConfig
  rw [hconfig]
  by_cases heq : baseRef = defaultBranch
  · -- the base branch is the default branch itself
    subst heq
    rw [hbase] at hconfig
    cases htext : parse text with
    | error exc =>
      rw [htext] at hconfig
      cases hconfig
    | ok parsed =>
      rw [htext] at hconfig
      cases hconfig
      simp [bind, Except.bind]
  · rw [hbase]
    simp only [bind, Except.bind, if_pos (And.intro heq hmem)]
    cases parse text <;> rfl

end TrustRule

/-! ## What a loader may rely on -/

/-- Fetches of `ref` find the files of `branch`. Nothing is said of other branches: they may
change at any time. -/
def Host.Serves (W : Host) (fetcher : RepoConfigFetcher) (repo ref : String) (branch : Branch) :
    Prop :=
  ∀ path etag s tr r s', Prog.Ends W.sem (fetcher.fetchText repo ref path etag) s tr r s' →
    (branch path).Answers etag r

/-- What a cache entry says agrees with every branch that is served. -/
def Host.Faithful (W : Host) (loader : RepoConfigLoader) (repo ref path : String)
    (entry : CacheEntry) : Prop :=
  ∀ branch, W.Serves loader.fetcher repo ref branch → (branch path).Held entry

/-- The invariant of the cache of a loader: an entry agrees with the file, on every branch that is
served under its ref. -/
def Host.CacheInv (W : Host) (loader : RepoConfigLoader) (s : W.State) : Prop :=
  ∀ repo ref path branch, W.Serves loader.fetcher repo ref branch →
    (W.memory s).Agrees loader.cache (repo, ref, path) (branch path)

variable {W : Host} {loader : RepoConfigLoader} {s s' : W.State}

/-- Requests that spare the caches keep the invariant. -/
theorem Host.CacheInv.spared {e : Req} {r : Except PyError e.Resp} (h : W.CacheInv loader s)
    (he : e.SparesCaches) (hsem : W.sem e s r s') : W.CacheInv loader s' := by
  intro repo ref path branch hserves
  by_cases hmem : ∃ op, e = .ext (.mem op)
  · obtain ⟨op, rfl⟩ := hmem
    rw [(W.mem hsem).2]
    exact (h repo ref path branch hserves).exec he
  · rw [W.frame (fun op heq => hmem ⟨op, heq⟩) hsem]
    exact h repo ref path branch hserves

/-- A loader with its cache to itself. -/
def loaderSetting (W : Host) (loader : RepoConfigLoader) :
    Setting Req Req.Resp PyError W.State :=
  Setting.alone W.sem (W.CacheInv loader)

/-- `True`, as an assertion. -/
def anywhere {σ : Type} (_ : σ) : Prop := True

section Triples

variable {repo ref path : String}

theorem now_triple :
    Triple (loaderSetting W loader) anywhere Py.utcnow fun r _ => ∃ now, r = .ok now :=
  .perform stable_alone (fun _ => stable_alone) fun _ _ _ hi _ hsem =>
    ⟨hi.spared (e := .ext .utcnow) trivial hsem, trivial, W.possible hsem⟩

theorem cacheGet_triple :
    Triple (loaderSetting W loader) anywhere (Py.mem (.cacheGet loader.cache (repo, ref, path)))
      fun r _ => ∃ found, r = .ok found ∧
        ∀ entryRef entry, found = some (entryRef, entry) →
          W.Faithful loader repo ref path entry := by
  refine .perform stable_alone (fun _ => stable_alone) fun s r s' hi _ hsem => ?_
  have hi' : W.CacheInv loader s' :=
    hi.spared (e := .ext (.mem (.cacheGet loader.cache (repo, ref, path)))) trivial hsem
  refine ⟨hi', trivial, _, (W.mem hsem).1, ?_⟩
  intro entryRef entry hfound branch hserves
  exact (hi repo ref path branch hserves).get hfound

theorem cachePut_triple {entry : CacheEntry} (hentry : W.Faithful loader repo ref path entry) :
    Triple (loaderSetting W loader) anywhere
      (Py.mem (.cachePut loader.cache (repo, ref, path) entry)) fun r _ => r = .ok () := by
  refine .perform stable_alone (fun _ => stable_alone) fun s r s' hi _ hsem => ?_
  obtain ⟨hr, hmemory⟩ := W.mem hsem
  refine ⟨fun repo' ref' path' branch hserves => ?_, trivial, hr⟩
  rw [hmemory]
  refine (hi repo' ref' path' branch hserves).put fun _ hkey => ?_
  cases hkey
  exact hentry branch hserves

theorem cacheTouch_triple {entryRef fetchedAt : Nat} :
    Triple (loaderSetting W loader) anywhere (Py.mem (.cacheTouch entryRef fetchedAt))
      fun r _ => r = .ok () := by
  refine .perform stable_alone (fun _ => stable_alone) fun s r s' hi _ hsem => ?_
  obtain ⟨hr, hmemory⟩ := W.mem hsem
  refine ⟨fun repo' ref' path' branch hserves => ?_, trivial, hr⟩
  rw [hmemory]
  exact (hi repo' ref' path' branch hserves).touch entryRef fetchedAt

/-- A fetch finds the file of the branch. -/
theorem fetchText_triple {etag : Option String} :
    Triple (loaderSetting W loader) anywhere (loader.fetcher.fetchText repo ref path etag)
      fun r _ => ∀ branch, W.Serves loader.fetcher repo ref branch →
        (branch path).Answers etag r :=
  .of_ends (loader.fetcher.spares repo ref path etag)
    (fun _ he _ _ _ hi hsem => hi.spared he hsem)
    fun s tr r s' _ _ hends _ _ hserves => hserves path etag s tr r s' hends

/-- A new result is stored as what the file is. -/
theorem store_triple {now : Nat} {result : FetchResult} {etag : Option String}
    (hmodified : result.status ≠ .notModified ∨ etag = none)
    (hresult : ∀ branch, W.Serves loader.fetcher repo ref branch →
      (branch path).Answers etag (.ok result)) :
    Triple (loaderSetting W loader) anywhere
      (cachedFetch.store loader (repo, ref, path) now result) fun r _ =>
        ∀ branch, W.Serves loader.fetcher repo ref branch → r = (branch path).text := by
  have hheld : W.Faithful loader repo ref path
      { etag := result.etag, content := result.content, fetchedAt := now } := by
    intro branch hserves
    have hanswer := hresult branch hserves
    refine hanswer.held ?_ now
    rcases hmodified with hstatus | rfl
    · exact hstatus
    · exact hanswer.modified
  unfold cachedFetch.store
  split
  · rename_i hstatus
    -- the entry written here is the one of the result
    have hnone : W.Faithful loader repo ref path
        { etag := none, content := none, fetchedAt := now } := by
      intro branch hserves
      have hheld' := hheld branch hserves
      rwa [(hresult branch hserves).notFound hstatus] at hheld'
    exact (cachePut_triple hnone).bind (fun _ => stable_alone) (by simp) fun _ _ =>
      .ret (fun _ => stable_alone) fun _ _ _ branch hserves => (hnone branch hserves).text.symm
  · exact (cachePut_triple hheld).bind (fun _ => stable_alone) (by simp) fun _ _ =>
      .ret (fun _ => stable_alone) fun _ _ _ branch hserves => (hheld branch hserves).text.symm

/-- A cached fetch answers what the branch holds, from the cache or not. -/
theorem cachedFetch_triple :
    Triple (loaderSetting W loader) anywhere (loader.cachedFetch repo ref path) fun r _ =>
      ∀ branch, W.Serves loader.fetcher repo ref branch → r = (branch path).text := by
  have hstable : ∀ r : Except PyError (Option String), (loaderSetting W loader).Stable fun _ =>
      ∀ branch, W.Serves loader.fetcher repo ref branch → r = (branch path).text :=
    fun _ => stable_alone
  have hfails : ∀ (etag : Option String) (x : PyError) (s : W.State),
      (loaderSetting W loader).inv s →
      (∀ branch, W.Serves loader.fetcher repo ref branch →
        (branch path).Answers etag (.error x)) →
      ∀ branch, W.Serves loader.fetcher repo ref branch → .error x = (branch path).text :=
    fun _ _ _ _ hanswer branch hserves => (hanswer branch hserves).error.symm
  refine now_triple.bind hstable (by simp) fun now _ => ?_
  refine (cacheGet_triple.pre fun _ _ _ => trivial).bind hstable (by simp) fun found _ => ?_
  refine Triple.pre (A := fun s => (∀ entryRef entry, found = some (entryRef, entry) →
    W.Faithful loader repo ref path entry) ∧ anywhere s) (.of_pure hstable ?_) ?_
  · intro hfaithful
    cases found with
    | none =>
      -- nothing is cached
      refine fetchText_triple.bind hstable (hfails none) fun result _ => ?_
      refine Triple.pre (A := fun s => _ ∧ anywhere s) (.of_pure hstable ?_)
        fun _ _ hresult => ⟨hresult, trivial⟩
      exact fun hresult => store_triple (Or.inr rfl) hresult
    | some found =>
      obtain ⟨entryRef, entry⟩ := found
      have hcontent : ∀ branch, W.Serves loader.fetcher repo ref branch →
          .ok entry.content = (branch path).text :=
        fun branch hserves => (hfaithful entryRef entry rfl branch hserves).text.symm
      dsimp only
      split
      · -- the entry is fresh
        exact .ret hstable fun _ _ _ => hcontent
      · refine fetchText_triple.bind hstable (hfails entry.etag) fun result _ => ?_
        refine Triple.pre (A := fun s => _ ∧ anywhere s) (.of_pure hstable ?_)
          fun _ _ hresult => ⟨hresult, trivial⟩
        intro hresult
        split
        · -- the entry was revalidated
          exact cacheTouch_triple.bind hstable (by simp) fun _ _ =>
            .ret hstable fun _ _ _ => hcontent
        · rename_i hstatus
          exact store_triple (Or.inl hstatus) hresult
  · rintro s _ ⟨found', hr, hfaithful⟩
    cases hr
    exact ⟨hfaithful, trivial⟩

/-- The context file is read from the branch it is asked from: `_resolve_project_context` passes on
the ref it is given. The fetcher is called without an etag here, so a 304 cannot come back. -/
theorem resolveProjectContext_triple {config : RepoConfig} :
    Triple (loaderSetting W loader) anywhere (loader.resolveProjectContext repo ref config)
      fun r _ => ∀ branch, W.Serves loader.fetcher repo ref branch →
        r = branch.inlined config := by
  have hstable : ∀ r : Except PyError RepoConfig, (loaderSetting W loader).Stable fun _ =>
      ∀ branch, W.Serves loader.fetcher repo ref branch → r = branch.inlined config :=
    fun _ => stable_alone
  unfold resolveProjectContext
  cases hpath : config.review.projectContextFile with
  -- no context file is configured, and the config stays as it is
  | none =>
    refine .ret hstable fun _ _ _ branch _ => ?_
    simp [Branch.inlined, hpath, pure, Except.pure]
  | some path =>
    refine fetchText_triple.bind hstable ?_ fun result _ => ?_
    · intro x s _ hanswer branch hserves
      simp only [Branch.inlined, hpath, (hanswer branch hserves).error, bind, Except.bind]
    · refine Triple.pre (A := fun s => _ ∧ anywhere s) (.of_pure hstable ?_)
        fun _ _ hresult => ⟨hresult, trivial⟩
      intro hresult
      have htext : ∀ branch, W.Serves loader.fetcher repo ref branch →
          result.status ≠ .notModified ∧ (branch path.value).text = .ok result.content := by
        intro branch hserves
        have hanswer := hresult branch hserves
        exact ⟨hanswer.modified, (hanswer.held hanswer.modified 0).text⟩
      split
      · -- a missing file, which leaves the config without a context
        rename_i hstatus
        refine .ret hstable fun _ _ _ branch hserves => ?_
        obtain ⟨hmodified, hcontent⟩ := htext branch hserves
        have hnone : result.content = none := by
          rw [(hresult branch hserves).notFound (hstatus.resolve_right hmodified)]
          rfl
        simp [Branch.inlined, hpath, hcontent, hnone, bind, Except.bind, pure, Except.pure]
      · split
        · -- a file without a text
          rename_i hnone
          refine .ret hstable fun _ _ _ branch hserves => ?_
          simp [Branch.inlined, hpath, (htext branch hserves).2, hnone, bind, Except.bind, pure,
            Except.pure]
        · rename_i content hsome
          refine .ret hstable fun _ _ _ branch hserves => ?_
          simp [Branch.inlined, hpath, (htext branch hserves).2, hsome, bind, Except.bind, pure,
            Except.pure]

variable [ConfigLibrary] {baseRef defaultBranch : String}

/-- The contents a load reads: those of the default branch, and of the base branch where the
default branch lists it. -/
structure Host.Reads (W : Host) (loader : RepoConfigLoader) (repo baseRef defaultBranch : String)
    (contents : String → Branch) : Prop where
  main : W.Serves loader.fetcher repo defaultBranch (contents defaultBranch)
  base : (contents defaultBranch).Lists baseRef →
    W.Serves loader.fetcher repo baseRef (contents baseRef)

/-- `load` computes the config the trust rule gives. -/
theorem load_triple :
    Triple (loaderSetting W loader) anywhere (loader.load repo baseRef defaultBranch) fun r _ =>
      ∀ contents, W.Reads loader repo baseRef defaultBranch contents →
        r = trustedConfig loader.defaults contents baseRef defaultBranch := by
  have hstable : ∀ r : Except PyError RepoConfig, (loaderSetting W loader).Stable fun _ =>
      ∀ contents, W.Reads loader repo baseRef defaultBranch contents →
        r = trustedConfig loader.defaults contents baseRef defaultBranch :=
    fun _ => stable_alone
  -- the context file of a config of the default branch
  have hmain : ∀ config : RepoConfig,
      (∀ contents, W.Reads loader repo baseRef defaultBranch contents →
        trustedConfig loader.defaults contents baseRef defaultBranch =
          (contents defaultBranch).inlined config) →
      Triple (loaderSetting W loader) anywhere
        (loader.resolveProjectContext repo defaultBranch config) fun r _ =>
          ∀ contents, W.Reads loader repo baseRef defaultBranch contents →
            r = trustedConfig loader.defaults contents baseRef defaultBranch := by
    intro config hconfig
    refine resolveProjectContext_triple.conseq (fun _ _ h => h) ?_ hstable
    intro r _ _ hr contents hreads
    rw [hconfig contents hreads]
    exact hr _ hreads.main
  refine cachedFetch_triple.bind hstable ?_ fun defaultBranchText _ => ?_
  · intro x s _ hx contents hreads
    have hconfig := Branch.config_error (hx _ hreads.main).symm
    simp only [trustedConfig, hconfig, bind, Except.bind]
  refine Triple.pre (A := fun s => _ ∧ anywhere s) (.of_pure hstable ?_)
    fun _ _ htext => ⟨htext, trivial⟩
  intro htext
  cases defaultBranchText with
  | none =>
    refine .ret hstable fun _ _ _ contents hreads => ?_
    have hconfig := Branch.config_none (htext _ hreads.main).symm
    simp only [trustedConfig, hconfig, bind, Except.bind, pure, Except.pure]
  | some text =>
    have hconfig : ∀ contents, W.Reads loader repo baseRef defaultBranch contents →
        (contents defaultBranch).config = (parse text).map some :=
      fun contents hreads => Branch.config_some (htext _ hreads.main).symm
    dsimp only
    cases hparse : parse text with
    | error x =>
      refine .raise hstable fun _ _ _ contents hreads => ?_
      simp only [trustedConfig, hconfig contents hreads, hparse, Except.map, bind, Except.bind]
    | ok config =>
      have hresult : ∀ contents, W.Reads loader repo baseRef defaultBranch contents →
          (contents defaultBranch).config = .ok (some config) := by
        intro contents hreads
        rw [hconfig contents hreads, hparse]
        rfl
      show Triple _ _ (if _ then _ else _) _
      split
      · rename_i hlisted
        have hbase : ∀ contents, W.Reads loader repo baseRef defaultBranch contents →
            W.Serves loader.fetcher repo baseRef (contents baseRef) :=
          fun contents hreads => hreads.base ⟨config, hresult contents hreads, hlisted.2⟩
        refine cachedFetch_triple.bind hstable ?_ fun baseRefText _ => ?_
        · intro x s _ hx contents hreads
          have hbaseConfig := Branch.config_error (hx _ (hbase contents hreads)).symm
          simp only [trustedConfig, hresult contents hreads, if_pos hlisted, hbaseConfig, bind,
            Except.bind]
        refine Triple.pre (A := fun s => _ ∧ anywhere s) (.of_pure hstable ?_)
          fun _ _ htext => ⟨htext, trivial⟩
        intro hbaseText
        cases baseRefText with
        | none =>
          -- the base branch has no config
          refine hmain config fun contents hreads => ?_
          have hbaseConfig := Branch.config_none (hbaseText _ (hbase contents hreads)).symm
          simp only [trustedConfig, hresult contents hreads, if_pos hlisted, hbaseConfig, bind,
            Except.bind]
        | some baseText =>
          have hbaseConfig : ∀ contents, W.Reads loader repo baseRef defaultBranch contents →
              (contents baseRef).config = (parse baseText).map some :=
            fun contents hreads =>
              Branch.config_some (hbaseText _ (hbase contents hreads)).symm
          dsimp only
          cases hparseBase : parse baseText with
          | error x =>
            refine .raise hstable fun _ _ _ contents hreads => ?_
            simp only [trustedConfig, hresult contents hreads, if_pos hlisted,
              hbaseConfig contents hreads, hparseBase, Except.map, bind, Except.bind]
          | ok baseRefConfig =>
            refine resolveProjectContext_triple.conseq (fun _ _ h => h) ?_ hstable
            intro r _ _ hr contents hreads
            rw [hr _ (hbase contents hreads)]
            simp only [trustedConfig, hresult contents hreads, if_pos hlisted,
              hbaseConfig contents hreads, hparseBase, Except.map, bind, Except.bind]
      · rename_i hlisted
        refine hmain config fun contents hreads => ?_
        simp only [trustedConfig, hresult contents hreads, if_neg hlisted, bind, Except.bind]

end Triples

/-! ## Loads of a loader with a past -/

section Loads

variable [ConfigLibrary]

/-- Where the surroundings may be after any earlier loads on the loader, finished or cut short,
and anything that spares its cache. -/
inductive Host.History (W : Host) (loader : RepoConfigLoader) : W.State → Prop where
  | fresh {s : W.State} (h : ∀ key, (W.memory s).lookup loader.cache key = none) :
      W.History loader s
  | load {s s' : W.State} {tr : Prog.Trace Req Req.Resp PyError} {q : Py RepoConfig}
      (repo baseRef defaultBranch : String) (h : W.History loader s)
      (hrun : Prog.Run W.sem (loader.load repo baseRef defaultBranch) s tr q s') :
      W.History loader s'
  | other {s s' : W.State} {e : Req} {r : Except PyError e.Resp} (h : W.History loader s)
      (he : e.SparesCaches) (hsem : W.sem e s r s') : W.History loader s'

/-- No past breaks the cache: after any earlier loads, finished or cut short, each entry still
agrees with the branch that is served under its ref. -/
theorem Host.History.cacheInv {s : W.State} (h : W.History loader s) : W.CacheInv loader s := by
  induction h with
  | fresh h => exact fun repo ref path branch _ => Memory.agrees_of_none (h _)
  | load repo baseRef defaultBranch _ hrun ih =>
    exact ((Safe.of_triple load_triple ih trivial).run hrun).inv
  | other _ he hsem ih => exact ih.spared he hsem

/-- A load with some past has the outcome `r`. -/
def Host.Loads (W : Host) (loader : RepoConfigLoader) (repo baseRef defaultBranch : String)
    (r : Except PyError RepoConfig) : Prop :=
  ∃ s tr s', W.History loader s ∧
    Prog.Ends W.sem (loader.load repo baseRef defaultBranch) s tr r s'

/-- The outcome of a load is a function of the contents it reads. -/
theorem Host.Loads.eq {W : Host} {loader : RepoConfigLoader} {repo baseRef defaultBranch : String}
    {r : Except PyError RepoConfig} (h : W.Loads loader repo baseRef defaultBranch r)
    {contents : String → Branch} (hreads : W.Reads loader repo baseRef defaultBranch contents) :
    r = trustedConfig loader.defaults contents baseRef defaultBranch := by
  obtain ⟨s, tr, s', hpast, hends⟩ := h
  have hsafe : Safe (loaderSetting W loader) (loader.load repo baseRef defaultBranch)
      (fun r _ => ∀ contents, W.Reads loader repo baseRef defaultBranch contents →
        r = trustedConfig loader.defaults contents baseRef defaultBranch) s :=
    Safe.of_triple load_triple hpast.cacheInv trivial
  exact hsafe.ends hends contents hreads

end Loads

/-! ## A repository with three branches -/

section Example

attribute [local instance] exampleLibrary

/-- The default branch trusts `release`. -/
def exampleMain : Branch
  | ".github/vidi-pr.yml" => .found "trusted_base_branches: [release]" (some "m1")
  | _ => .notFound

/-- The config of `release` has a context file. -/
def exampleRelease : Branch
  | ".github/vidi-pr.yml" => .found "review:\n  project_context_file: NOTES.md\n" none
  | "NOTES.md" => .found "frozen" none
  | _ => .notFound

/-- `dev` holds what its author put there. -/
def exampleContents (dev : FileState) : String → Branch
  | "main" => exampleMain
  | "release" => exampleRelease
  | "dev" => fun _ => dev
  | _ => fun _ => .notFound

def exampleLoader (dev : FileState) : RepoConfigLoader where
  fetcher := branchFetcher (exampleContents dev)
  defaults := {}
  cache := 0

/-- What is left of an earlier load that took `dev` for the default branch. -/
def examplePast (dev : FileState) : Memory :=
  (((exampleLoader dev).load "o/r" "main" "dev").eval stillAnswer { caches := [[]] }).2.2

/-- A load after that one. -/
def exampleLoad (dev : FileState) (baseRef : String) :=
  ((exampleLoader dev).load "o/r" baseRef "main").eval stillAnswer (examplePast dev)

theorem exampleLoad_loads (dev : FileState) (baseRef : String) :
    stillHost.Loads (exampleLoader dev) "o/r" baseRef "main" (exampleLoad dev baseRef).2.1 := by
  refine ⟨examplePast dev, _, _, ?_, Prog.ends_eval (fun _ _ => rfl) _ _⟩
  exact .load "o/r" "main" "dev" (.fresh fun key => rfl) (Prog.ends_eval (fun _ _ => rfl) _ _)

/-- A fetcher over the contents serves every branch. -/
theorem serves_branchFetcher (contents : String → Branch) (repo ref : String) :
    stillHost.Serves (branchFetcher contents) repo ref (contents ref) := by
  intro path etag s tr r s' hends
  obtain ⟨_, hr, _⟩ := Prog.run_ofExcept hends
  rw [Prog.ofExcept_inj hr]
  exact (contents ref path).answers_fetch etag

theorem exampleContents_main (dev : FileState) :
    (exampleContents dev "main").config = .ok (some { trustedBaseBranches := ["release"] }) := by
  rfl

end Example

end VidiPr
