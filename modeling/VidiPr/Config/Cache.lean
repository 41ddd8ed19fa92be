import VidiPr.Config.Repo

/-!
# The dictionaries of the process

What the accesses to the process's own memory do (`MemOp.exec`), and the surroundings in which
coroutines of one process run: any answers of the rest of the world, over this memory.
-/

namespace VidiPr

open Effect Prog

/-- The caches of the loaders, whose values are references to entries, and the dictionary of
installation clients. A new object gets the next number. -/
structure Memory where
  entries : List CacheEntry := []
  caches : List (List (CacheKey × Nat)) := []
  installations : List (Nat × Nat) := []
  clients : Nat := 0

namespace Memory

/-- The reference a loader's cache holds under a key. -/
def lookup (m : Memory) (loader : Nat) (key : CacheKey) : Option Nat :=
  (m.caches[loader]?.getD []).lookup key

/-- `_cache.get(key)` -/
def cacheGet (m : Memory) (loader : Nat) (key : CacheKey) : Option (Nat × CacheEntry) := do
  let entryRef ← m.lookup loader key
  let entry ← m.entries[entryRef]?
  return (entryRef, entry)

/-- `_cache[key] = entry` -/
def cachePut (m : Memory) (loader : Nat) (key : CacheKey) (entry : CacheEntry) : Memory :=
  { m with
    entries := m.entries ++ [entry]
    caches := m.caches.modify loader fun cache => (key, m.entries.length) :: cache }

/-- `entry.fetched_at = fetched_at` -/
def cacheTouch (m : Memory) (entryRef fetchedAt : Nat) : Memory :=
  { m with entries := m.entries.modify entryRef fun entry => { entry with fetchedAt } }

end Memory

def MemOp.exec : (op : MemOp) → Memory → op.Resp × Memory
  | .installationClient id, m =>
    match m.installations.lookup id with
    | some client => (client, m)
    | none =>
      (m.clients, { m with
        installations := (id, m.clients) :: m.installations
        clients := m.clients + 1 })
  | .dropCached id, m =>
    ((), { m with installations := m.installations.filter fun installation => installation.1 ≠ id })
  | .newLoader, m => (m.caches.length, { m with caches := m.caches ++ [[]] })
  | .cacheGet loader key, m => (m.cacheGet loader key, m)
  | .cachePut loader key entry, m => ((), m.cachePut loader key entry)
  | .cacheTouch entryRef fetchedAt, m => ((), m.cacheTouch entryRef fetchedAt)

/-- The surroundings of the coroutines of one process: any state, any answers that are possible,
and the memory of the process, which only its own accesses change. -/
structure Host where
  State : Type
  sem : Sem Req Req.Resp PyError State
  memory : State → Memory
  mem : ∀ {op s r s'}, sem (.ext (.mem op)) s r s' →
    r = .ok (op.exec (memory s)).1 ∧ memory s' = (op.exec (memory s)).2
  frame : ∀ {e s r s'}, (∀ op, e ≠ .ext (.mem op)) → sem e s r s' → memory s' = memory s
  possible : ∀ {e s r s'}, sem e s r s' → e.Possible r

/-! ## What a cache says about a file -/

/-- A file of a branch, as a fetch finds it. -/
inductive FileState where
  | found (content : String) (etag : Option String)
  | notFound
  | fails (exc : PyError)
deriving DecidableEq

namespace FileState

/-- What a fetch of the file may answer to the etag it is sent: `NOT_MODIFIED` says that this is
the etag of the file. -/
def Answers (file : FileState) (etag : Option String) (r : Except PyError FetchResult) : Prop :=
  match file with
  | found content current =>
    r = .ok (.ofFound content current) ∨
      (etag = current ∧ current.isSome ∧ r = .ok .ofNotModified)
  | notFound => r = .ok .ofNotFound
  | fails exc => r = .error exc

/-- The text of the file, `none` where there is no such file. -/
def text : FileState → Except PyError (Option String)
  | found content _ => .ok (some content)
  | notFound => .ok none
  | fails exc => .error exc

/-- A cache entry that agrees with the file. -/
def Held : FileState → CacheEntry → Prop
  | found content etag, entry => entry.content = some content ∧ entry.etag = etag
  | notFound, entry => entry.content = none ∧ entry.etag = none
  | fails _, _ => False

theorem Held.text {file : FileState} {entry : CacheEntry} (h : file.Held entry) :
    file.text = .ok entry.content := by
  cases file with
  | found content etag => rw [h.1]; rfl
  | notFound => rw [h.1]; rfl
  | fails exc => exact h.elim

/-- Touching an entry does not change what it says. -/
theorem Held.touch {file : FileState} {entry : CacheEntry} (h : file.Held entry)
    (fetchedAt : Nat) : file.Held { entry with fetchedAt } := by
  cases file with
  | found content etag => exact h
  | notFound => exact h
  | fails exc => exact h

variable {file : FileState} {etag : Option String}

/-- An exception of a fetch is what the file is. -/
theorem Answers.error {exc : PyError} (h : file.Answers etag (.error exc)) :
    file.text = .error exc := by
  cases file with
  | found content current => rcases h with h | ⟨_, _, h⟩ <;> cases h
  | notFound => cases h
  | fails exc' =>
    cases h
    rfl

/-- A fetch that was sent no etag does not answer `NOT_MODIFIED`. -/
theorem Answers.modified {result : FetchResult} (h : file.Answers none (.ok result)) :
    result.status ≠ .notModified := by
  cases file with
  | found content current =>
    rcases h with h | ⟨hetag, hsome, _⟩
    · cases h
      exact nofun
    · rw [← hetag] at hsome
      cases hsome
  | notFound =>
    cases h
    exact nofun
  | fails exc => cases h

/-- A result that is not `NOT_MODIFIED` says what the file is. -/
theorem Answers.held {result : FetchResult} (h : file.Answers etag (.ok result))
    (hmodified : result.status ≠ .notModified) (fetchedAt : Nat) :
    file.Held { etag := result.etag, content := result.content, fetchedAt } := by
  cases file with
  | found content current =>
    rcases h with h | ⟨_, _, h⟩
    · cases h
      exact ⟨rfl, rfl⟩
    · cases h
      exact absurd rfl hmodified
  | notFound =>
    cases h
    exact ⟨rfl, rfl⟩
  | fails exc => cases h

theorem Answers.notFound {result : FetchResult} (h : file.Answers etag (.ok result))
    (hstatus : result.status = .notFound) : result = .ofNotFound := by
  cases file with
  | found content current => rcases h with h | ⟨_, _, h⟩ <;> cases h <;> cases hstatus
  | notFound => exact Except.ok.inj h
  | fails exc => cases h

/-- The answer of a fetch that revalidates where it can. -/
def fetch (file : FileState) (etag : Option String) : Except PyError FetchResult :=
  match file with
  | found content current =>
    if etag = current ∧ current.isSome then .ok .ofNotModified
    else .ok (.ofFound content current)
  | notFound => .ok .ofNotFound
  | fails exc => .error exc

theorem answers_fetch (file : FileState) (etag : Option String) :
    file.Answers etag (file.fetch etag) := by
  cases file with
  | found content current =>
    by_cases h : etag = current ∧ current.isSome
    · right
      exact ⟨h.1, h.2, if_pos h⟩
    · left
      exact if_neg h
  | notFound => rfl
  | fails exc => rfl

end FileState

namespace Memory

/-- What the cache holds under `key`, if anything, agrees with the file. -/
def Agrees (m : Memory) (loader : Nat) (key : CacheKey) (file : FileState) : Prop :=
  ∀ entryRef, m.lookup loader key = some entryRef →
    ∃ entry, m.entries[entryRef]? = some entry ∧ file.Held entry

variable {m : Memory} {loader : Nat} {key : CacheKey} {file : FileState}

theorem cacheGet_eq_some {entryRef : Nat} {entry : CacheEntry}
    (h : m.cacheGet loader key = some (entryRef, entry)) :
    m.lookup loader key = some entryRef ∧ m.entries[entryRef]? = some entry := by
  simp only [cacheGet, Option.pure_def, Option.bind_eq_bind, Option.bind_eq_some_iff,
    Option.some.injEq, Prod.mk.injEq] at h
  obtain ⟨ref, hlookup, e, he, rfl, rfl⟩ := h
  exact ⟨hlookup, he⟩

theorem Agrees.get {entryRef : Nat} {entry : CacheEntry} (h : m.Agrees loader key file)
    (hget : m.cacheGet loader key = some (entryRef, entry)) : file.Held entry := by
  obtain ⟨hlookup, hentry⟩ := cacheGet_eq_some hget
  obtain ⟨entry', hentry', hheld⟩ := h entryRef hlookup
  obtain rfl : entry' = entry := Option.some.inj (hentry'.symm.trans hentry)
  exact hheld

theorem agrees_of_none (h : m.lookup loader key = none) : m.Agrees loader key file := by
  intro entryRef href
  rw [h] at href
  cases href

theorem Agrees.touch (h : m.Agrees loader key file) (entryRef fetchedAt : Nat) :
    (m.cacheTouch entryRef fetchedAt).Agrees loader key file := by
  intro ref href
  obtain ⟨entry, hentry, hheld⟩ := h ref href
  by_cases heq : entryRef = ref
  · refine ⟨{ entry with fetchedAt }, ?_, hheld.touch fetchedAt⟩
    simp [cacheTouch, heq, hentry]
  · refine ⟨entry, ?_, hheld⟩
    simp [cacheTouch, heq, hentry]

/-- A reference that a cache holds after an entry was stored in it. -/
theorem lookup_cachePut {m : Memory} {loader entryRef : Nat} {key key' : CacheKey}
    {entry : CacheEntry} (h : (m.cachePut loader key entry).lookup loader key' = some entryRef) :
    (key' = key ∧ entryRef = m.entries.length) ∨
      (key' ≠ key ∧ m.lookup loader key' = some entryRef) := by
  cases hcache : m.caches[loader]? with
  | none => simp [lookup, cachePut, hcache] at h
  | some cache =>
    by_cases hkey : key' = key
    · subst hkey
      have href : m.entries.length = entryRef := by simpa [lookup, cachePut, hcache] using h
      exact Or.inl ⟨rfl, href.symm⟩
    · have hne : (key' == key) = false := beq_eq_false_iff_ne.mpr hkey
      have href : cache.lookup key' = some entryRef := by
        simpa [lookup, cachePut, hcache, List.lookup_cons, hne] using h
      exact Or.inr ⟨hkey, by simpa [lookup, hcache] using href⟩

/-- An entry stored under another key, or in another cache, changes nothing here; under this key
it has to agree. -/
theorem Agrees.put (h : m.Agrees loader key file) {loader' : Nat} {key' : CacheKey}
    {entry : CacheEntry} (hentry : loader' = loader → key' = key → file.Held entry) :
    (m.cachePut loader' key' entry).Agrees loader key file := by
  -- an entry that was there before is still under its reference
  have hold : ∀ ref, m.lookup loader key = some ref →
      ∃ e, (m.entries ++ [entry])[ref]? = some e ∧ file.Held e := by
    intro ref href
    obtain ⟨e, he, hheld⟩ := h ref href
    have hlt : ref < m.entries.length := (List.getElem?_eq_some_iff.mp he).1
    exact ⟨e, by rw [List.getElem?_append_left hlt, he], hheld⟩
  intro ref href
  by_cases hloader : loader' = loader
  · subst hloader
    rcases lookup_cachePut href with ⟨rfl, rfl⟩ | ⟨_, hlookup⟩
    · exact ⟨entry, by simp [cachePut], hentry rfl rfl⟩
    · exact hold ref hlookup
  · have hsame : (m.cachePut loader' key' entry).lookup loader key = m.lookup loader key := by
      simp [lookup, cachePut, hloader]
    exact hold ref (hsame ▸ href)

/-- Accesses that are not to entries change no entry and no reference. -/
theorem exec_spares {op : MemOp} (hop : Req.SparesCaches (.ext (.mem op))) (m : Memory) :
    (op.exec m).2.entries = m.entries ∧
      ∀ loader key, (op.exec m).2.lookup loader key = m.lookup loader key := by
  cases op with
  | installationClient id =>
    simp only [MemOp.exec]
    split <;> exact ⟨rfl, fun _ _ => rfl⟩
  | dropCached id => exact ⟨rfl, fun _ _ => rfl⟩
  | cacheGet loader' key' => exact ⟨rfl, fun _ _ => rfl⟩
  | cachePut loader' key' entry => exact hop.elim
  | cacheTouch entryRef fetchedAt => exact hop.elim
  | newLoader =>
    refine ⟨rfl, fun loader key => ?_⟩
    -- the new cache is empty
    simp only [MemOp.exec, lookup, List.getElem?_append]
    by_cases hlt : loader < m.caches.length
    · rw [if_pos hlt]
    · have hnone : m.caches[loader]? = none := List.getElem?_eq_none (Nat.not_lt.mp hlt)
      rw [if_neg hlt, hnone]
      cases loader - m.caches.length <;> rfl

/-- Accesses that are not to entries leave what a cache says alone. -/
theorem Agrees.exec (h : m.Agrees loader key file) {op : MemOp}
    (hop : Req.SparesCaches (.ext (.mem op))) : (op.exec m).2.Agrees loader key file := by
  obtain ⟨hentries, hlookup⟩ := exec_spares hop m
  intro ref href
  rw [hlookup] at href
  rw [hentries]
  exact h ref href

end Memory

/-! ## Surroundings that can be run -/

/-- A clock that stands still, and no answer from anybody else. -/
def stillAnswer : (e : Req) → Memory → Except PyError e.Resp × Memory
  | .ext (.mem op), m => (.ok (op.exec m).1, (op.exec m).2)
  | .ext .utcnow, m => (.ok (0 : Nat), m)
  | .ext .perfCounter, m => (.ok (0 : Nat), m)
  | .ext (.github ..), m => (.error (.other "unreachable"), m)
  | .ext (.chat ..), m => (.error (.other "unreachable"), m)
  | .ext .sleep, m => (.ok (), m)
  | .sql _, m => (.error (.other "unreachable"), m)

def stillHost : Host where
  State := Memory
  sem e s r s' := stillAnswer e s = (r, s')
  memory := id
  mem h := by
    cases h
    exact ⟨rfl, rfl⟩
  frame := by
    intro e s r s' he h
    unfold stillAnswer at h
    split at h
    · exact absurd rfl (he _)
    all_goals exact (Prod.mk.inj h).2.symm
  possible := by
    intro e s r s' h
    cases e with
    | sql q =>
      cases h
      exact nofun
    | ext e =>
      cases e with
      | github client op =>
        cases h
        cases op <;> first | trivial | exact nofun
      | chat messages temperature maxTokens => trivial
      | sleep => trivial
      | mem op =>
        cases h
        exact ⟨_, rfl⟩
      | utcnow =>
        cases h
        exact ⟨_, rfl⟩
      | perfCounter =>
        cases h
        exact ⟨_, rfl⟩

/-- A fetcher that reads the contents of a repository. -/
def branchFetcher (contents : String → String → FileState) : RepoConfigFetcher where
  fetchText _ ref path etag := Prog.ofExcept ((contents ref path).fetch etag)
  spares _ _ _ _ := Prog.calls_ofExcept _

end VidiPr
