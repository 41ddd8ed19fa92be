import VidiPr.Config.Cache
import VidiPr.Lib.Pool
import VidiPr.Lib.RelyGuarantee
import VidiPr.Transport.GitHubClient

/-!
# How stale a cached config can be

Loads of one `RepoConfigLoader`, any number of them side by side, while the files on the server
change. The site keeps every instant it went through, so that a value can be dated.

* **`Truthful`** — what the loader relies on: a fetch reports what the file was at an instant of
  the fetch.
* **`Site.CacheInv`** — every entry was the file at an instant not before its timestamp. Two
  fetches of one key may finish out of order; the entry of the slower one is dated by its own start.
* **`cachedFetch_fresh`** — a cached fetch beside others returns what the file was at an instant
  less than `CACHE_TTL` before the call.
* **`cache_staleness_bounded`** — so does every cached fetch of every load.
-/

namespace VidiPr

open Effect Prog RepoConfigLoader

/-! ## The server and its past -/

structure ServedFile where
  content : String
  etag : Option String

/-- The files on the server, by repository, ref and path. -/
abbrev Files : Type := CacheKey → Option ServedFile

/-- The files at one time. -/
abbrev Instant : Type := Nat × Files

/-- The process's memory, the clock, and the server with the instants it went through. -/
structure Site where
  memory : Memory
  clock : Nat
  files : Files
  earlier : List Instant

/-- Every instant so far. -/
def Site.past (s : Site) : List Instant := (s.clock, s.files) :: s.earlier

/-- An etag identifies the content of its file: the same etag was never given out for another
content. -/
def Identifies (past : List Instant) : Prop :=
  ∀ i ∈ past, ∀ j ∈ past, ∀ key f g, i.2 key = some f → j.2 key = some g → f.etag.isSome →
    f.etag = g.etag → f.content = g.content

/-- Time passes, and any files change: the clock does not go back, and the files as they were stay
among the instants of the past. No etag comes to stand for two contents. -/
def Site.Drift (s s' : Site) : Prop :=
  s'.memory = s.memory ∧ s.clock ≤ s'.clock ∧ s'.earlier = s.past ∧ Identifies s'.past

/-- What requests do. Those that are neither to the clock nor to the memory are answered by
`serve`. -/
def siteSem (serve : (e : Req) → Site → Except PyError e.Resp → Prop) :
    Sem Req Req.Resp PyError Site
  | .ext (.mem op), s, r, s' =>
    r = .ok (op.exec s.memory).1 ∧ s' = { s with memory := (op.exec s.memory).2 }
  | .ext .utcnow, s, r, s' => r = .ok s.clock ∧ s' = s
  | e, s, r, s' => serve e s r ∧ s' = s

variable {serve : (e : Req) → Site → Except PyError e.Resp → Prop}

/-- Requests change the memory alone: time passes and the files of the host change only by moves of
the world. -/
theorem siteSem_frame {e : Req} {s s' : Site} {r : Except PyError e.Resp}
    (h : siteSem serve e s r s') :
    s'.clock = s.clock ∧ s'.past = s.past ∧
      (s'.memory = s.memory ∨
        ∃ op, e = .ext (.mem op) ∧ s'.memory = (op.exec s.memory).2) := by
  unfold siteSem at h
  split at h
  · obtain ⟨_, rfl⟩ := h
    exact ⟨rfl, rfl, Or.inr ⟨_, rfl, rfl⟩⟩
  · obtain ⟨_, rfl⟩ := h
    exact ⟨rfl, rfl, Or.inl rfl⟩
  · obtain ⟨_, rfl⟩ := h
    exact ⟨rfl, rfl, Or.inl rfl⟩

/-! ## What a fetch reports -/

/-- `FOUND` with the content and the etag of the file, `NOT_MODIFIED` only if the etag that was
sent is that of the file, `NOT_FOUND` only if there is no file. -/
def Reports (file : Option ServedFile) (sent : Option String) (result : FetchResult) : Prop :=
  match result.status with
  | .found => ∃ f, file = some f ∧ result = .ofFound f.content f.etag
  | .notModified => sent.isSome ∧ ∃ f, file = some f ∧ f.etag = sent
  | .notFound => file = none

/-- What may happen to the site between two requests of a fetch. -/
def Site.Passes (s s' : Site) : Prop := s.clock ≤ s'.clock ∧ ∀ i ∈ s.past, i ∈ s'.past

/-- A fetch that returns reports what the file was at an instant of the fetch. -/
def Truthful (serve : (e : Req) → Site → Except PyError e.Resp → Prop)
    (fetcher : RepoConfigFetcher) : Prop :=
  ∀ repo ref path sent s tr result s',
    Among (siteSem serve) Site.Passes (fetcher.fetchText repo ref path sent) s tr
      (.ret result) s' →
    ∃ i ∈ s'.past, s.clock ≤ i.1 ∧ Reports (i.2 (repo, ref, path)) sent result

/-! ## What a cache entry says -/

/-- What a fetch says of a file: its content and its etag, both `None` where there is none. -/
structure Holds (file : Option ServedFile) (entry : CacheEntry) : Prop where
  content : entry.content = file.map (·.content)
  etag : entry.etag = file.bind (·.etag)

/-- The entry was the file at an instant not before its timestamp. -/
def Dated (past : List Instant) (key : CacheKey) (entry : CacheEntry) : Prop :=
  ∃ i ∈ past, entry.fetchedAt ≤ i.1 ∧ Holds (i.2 key) entry

/-- `value` was the content of the file at an instant less than `CACHE_TTL` before `since`. -/
def FreshValue (past : List Instant) (key : CacheKey) (since : Nat) (value : Option String) :
    Prop :=
  ∃ i ∈ past, since < i.1 + cacheTtl ∧ (i.2 key).map (·.content) = value

/-- An entry may be touched, but it goes on saying the same. -/
def SameText (entry entry' : CacheEntry) : Prop :=
  entry'.content = entry.content ∧ entry'.etag = entry.etag

theorem Holds.same {file : Option ServedFile} {entry entry' : CacheEntry} (h : Holds file entry)
    (hsame : SameText entry entry') : Holds file entry' :=
  ⟨hsame.1.trans h.content, hsame.2.trans h.etag⟩

/-- The entry a result other than `NOT_MODIFIED` is stored as. -/
def stored (fetchedAt : Nat) (result : FetchResult) : CacheEntry :=
  if result.status = .notFound then { etag := none, content := none, fetchedAt }
  else { etag := result.etag, content := result.content, fetchedAt }

theorem stored_fetchedAt (fetchedAt : Nat) (result : FetchResult) :
    (stored fetchedAt result).fetchedAt = fetchedAt := by
  unfold stored
  split <;> rfl

theorem Reports.holds {file : Option ServedFile} {sent : Option String} {result : FetchResult}
    (h : Reports file sent result) (hstatus : result.status ≠ .notModified) (fetchedAt : Nat) :
    Holds file (stored fetchedAt result) := by
  unfold Reports at h
  split at h
  · rename_i hfound
    obtain ⟨f, rfl, rfl⟩ := h
    exact ⟨rfl, rfl⟩
  · rename_i hmodified
    exact absurd hmodified hstatus
  · rename_i hnotFound
    subst h
    rw [stored, if_pos hnotFound]
    exact ⟨rfl, rfl⟩

theorem Reports.ne_notModified {file : Option ServedFile} {result : FetchResult}
    (h : Reports file none result) : result.status ≠ .notModified := by
  intro hstatus
  simp only [Reports, hstatus] at h
  cases h.1

/-- An entry that was revalidated is what the file is: its etag identifies the content. -/
theorem Reports.revalidates {past : List Instant} {i j : Instant} {key : CacheKey}
    {entry : CacheEntry} {result : FetchResult} (hid : Identifies past) (hi : i ∈ past)
    (hj : j ∈ past) (hentry : Holds (i.2 key) entry) (h : Reports (j.2 key) entry.etag result)
    (hstatus : result.status = .notModified) : Holds (j.2 key) entry := by
  simp only [Reports, hstatus] at h
  obtain ⟨hsome, g, hg, hetag⟩ := h
  obtain ⟨hcontent, hetag'⟩ := hentry
  cases hf : i.2 key with
  | none =>
    rw [hetag', hf] at hsome
    cases hsome
  | some f =>
    rw [hf] at hcontent hetag'
    have hsame : f.etag = g.etag := hetag'.symm.trans hetag.symm
    have hfg : f.content = g.content := by
      rw [hetag'] at hsome
      exact hid i hi j hj key f g hf hg hsome hsame
    rw [hg]
    exact ⟨hcontent.trans (congrArg some hfg), hetag.symm⟩

/-! ## The invariant of the cache -/

/-- Every entry a cache refers to is dated, and none is referred to from two keys. -/
structure Site.CacheInv (loader : Nat) (s : Site) : Prop where
  identifies : Identifies s.past
  dated : ∀ key entryRef, s.memory.lookup loader key = some entryRef →
    ∃ entry, s.memory.entries[entryRef]? = some entry ∧ Dated s.past key entry
  owned : ∀ key key' entryRef, s.memory.lookup loader key = some entryRef →
    s.memory.lookup loader key' = some entryRef → key' = key

/-- What a load may count on while others run. -/
structure Site.Later (loader : Nat) (s s' : Site) : Prop where
  passes : s.Passes s'
  /-- no entry goes, and none says anything else -/
  entries : ∀ (entryRef : Nat) entry, s.memory.entries[entryRef]? = some entry →
    ∃ entry', s'.memory.entries[entryRef]? = some entry' ∧ SameText entry entry'
  /-- no key comes to an old entry -/
  lookups : ∀ key entryRef, entryRef < s.memory.entries.length →
    s'.memory.lookup loader key = some entryRef → s.memory.lookup loader key = some entryRef

namespace Site

variable {loader : Nat} {s s' : Site}

theorem Passes.refl (s : Site) : s.Passes s := ⟨Nat.le_refl _, fun _ hi => hi⟩

theorem later_of_entries (hpasses : s.Passes s') (hentries : s'.memory.entries = s.memory.entries)
    (hlookup : ∀ key, s'.memory.lookup loader key = s.memory.lookup loader key) :
    Later loader s s' where
  passes := hpasses
  entries _ entry h := ⟨entry, hentries ▸ h, rfl, rfl⟩
  lookups key _ _ h := hlookup key ▸ h

/-- The cache stays as it is while time passes. -/
theorem CacheInv.of_entries (h : CacheInv loader s) (hid : Identifies s'.past)
    (hpast : ∀ i ∈ s.past, i ∈ s'.past) (hentries : s'.memory.entries = s.memory.entries)
    (hlookup : ∀ key, s'.memory.lookup loader key = s.memory.lookup loader key) :
    CacheInv loader s' where
  identifies := hid
  dated key entryRef href := by
    rw [hlookup] at href
    obtain ⟨entry, hentry, i, hi, hdate, hholds⟩ := h.dated key entryRef href
    exact ⟨entry, hentries ▸ hentry, i, hpast i hi, hdate, hholds⟩
  owned key key' entryRef href href' := by
    rw [hlookup] at href href'
    exact h.owned key key' entryRef href href'

theorem CacheInv.drift (h : CacheInv loader s) (hdrift : s.Drift s') :
    CacheInv loader s' ∧ Later loader s s' := by
  obtain ⟨hmemory, hclock, hearlier, hid⟩ := hdrift
  have hpast : ∀ i ∈ s.past, i ∈ s'.past := by
    intro i hi
    rw [past, hearlier]
    exact List.mem_cons_of_mem _ hi
  have hentries : s'.memory.entries = s.memory.entries := by rw [hmemory]
  have hlookup : ∀ key, s'.memory.lookup loader key = s.memory.lookup loader key := by
    intro key
    rw [hmemory]
  exact ⟨h.of_entries hid hpast hentries hlookup, later_of_entries ⟨hclock, hpast⟩ hentries hlookup⟩

/-- Requests that spare the caches keep the invariant. -/
theorem CacheInv.spared {e : Req} {r : Except PyError e.Resp} (h : CacheInv loader s)
    (he : e.SparesCaches) (hsem : siteSem serve e s r s') :
    CacheInv loader s' ∧ Later loader s s' := by
  obtain ⟨hclock, hpast, hmemory⟩ := siteSem_frame hsem
  have hsame : s'.memory.entries = s.memory.entries ∧
      ∀ key, s'.memory.lookup loader key = s.memory.lookup loader key := by
    rcases hmemory with hmemory | ⟨op, rfl, hmemory⟩
    · rw [hmemory]
      exact ⟨rfl, fun _ => rfl⟩
    · obtain ⟨hentries, hlookup⟩ := Memory.exec_spares he s.memory
      rw [hmemory]
      exact ⟨hentries, hlookup loader⟩
  have hpasses : s.Passes s' := ⟨hclock.ge, fun i hi => hpast ▸ hi⟩
  exact ⟨h.of_entries (hpast ▸ h.identifies) hpasses.2 hsame.1 hsame.2,
    later_of_entries hpasses hsame.1 hsame.2⟩

theorem CacheInv.lt_length (h : CacheInv loader s) {key : CacheKey} {entryRef : Nat}
    (href : s.memory.lookup loader key = some entryRef) : entryRef < s.memory.entries.length := by
  obtain ⟨entry, hentry, _⟩ := h.dated key entryRef href
  exact (List.getElem?_eq_some_iff.mp hentry).1

/-- A dated entry is stored, under a reference of its own. `_cached_fetch` writes under a key and
never writes into an entry, so whoever still holds the entry that stood there before keeps what it
read. -/
theorem CacheInv.put (h : CacheInv loader s) {key : CacheKey} {entry : CacheEntry}
    (hdated : Dated s.past key entry) :
    CacheInv loader { s with memory := s.memory.cachePut loader key entry } ∧
      Later loader s { s with memory := s.memory.cachePut loader key entry } := by
  -- the list of entries only grows, so a reference from before still finds its entry
  have hold : ∀ {entryRef : Nat} {e : CacheEntry}, s.memory.entries[entryRef]? = some e →
      (s.memory.entries ++ [entry])[entryRef]? = some e := by
    intro entryRef e he
    rw [List.getElem?_append_left (List.getElem?_eq_some_iff.mp he).1, he]
  refine ⟨⟨h.identifies, ?_, ?_⟩, ⟨Passes.refl _, ?_, ?_⟩⟩
  · -- the key that was written, and any other
    intro key' entryRef href
    rcases Memory.lookup_cachePut href with ⟨rfl, rfl⟩ | ⟨_, hlookup⟩
    · exact ⟨entry, by simp [Memory.cachePut], hdated⟩
    · obtain ⟨e, he, hdate⟩ := h.dated key' entryRef hlookup
      exact ⟨e, hold he, hdate⟩
  · -- the new reference is past the end of the list, so no other key has it
    intro key₁ key₂ entryRef href₁ href₂
    rcases Memory.lookup_cachePut href₁ with ⟨rfl, rfl⟩ | ⟨_, hlookup₁⟩
    · rcases Memory.lookup_cachePut href₂ with ⟨rfl, _⟩ | ⟨_, hlookup₂⟩
      · rfl
      · exact absurd (h.lt_length hlookup₂) (Nat.lt_irrefl _)
    · rcases Memory.lookup_cachePut href₂ with ⟨rfl, rfl⟩ | ⟨_, hlookup₂⟩
      · exact absurd (h.lt_length hlookup₁) (Nat.lt_irrefl _)
      · exact h.owned key₁ key₂ entryRef hlookup₁ hlookup₂
  · intro entryRef e he
    exact ⟨e, hold he, rfl, rfl⟩
  · -- a key whose entry was there before the write keeps it
    intro key' entryRef hlt href
    rcases Memory.lookup_cachePut href with ⟨_, rfl⟩ | ⟨_, hlookup⟩
    · exact absurd hlt (Nat.lt_irrefl _)
    · exact hlookup

/-- An entry is touched that is dated with its new timestamp. -/
theorem CacheInv.touch (h : CacheInv loader s) {entryRef fetchedAt : Nat}
    (hdated : ∀ key entry, s.memory.lookup loader key = some entryRef →
      s.memory.entries[entryRef]? = some entry → Dated s.past key { entry with fetchedAt }) :
    CacheInv loader { s with memory := s.memory.cacheTouch entryRef fetchedAt } ∧
      Later loader s { s with memory := s.memory.cacheTouch entryRef fetchedAt } := by
  refine ⟨⟨h.identifies, ?_, h.owned⟩, ⟨Passes.refl _, ?_, fun _ _ _ href => href⟩⟩
  · intro key ref href
    obtain ⟨entry, hentry, hdate⟩ := h.dated key ref href
    by_cases heq : entryRef = ref
    · subst heq
      exact ⟨{ entry with fetchedAt }, by simp [Memory.cacheTouch, hentry],
        hdated key entry href hentry⟩
    · exact ⟨entry, by simp [Memory.cacheTouch, heq, hentry], hdate⟩
  · intro ref entry hentry
    by_cases heq : entryRef = ref
    · exact ⟨{ entry with fetchedAt }, by simp [Memory.cacheTouch, heq, hentry], rfl, rfl⟩
    · exact ⟨entry, by simp [Memory.cacheTouch, heq, hentry], rfl, rfl⟩

end Site

theorem store_eq (loader : RepoConfigLoader) (key : CacheKey) (now : Nat) (result : FetchResult) :
    cachedFetch.store loader key now result =
      (Py.mem (.cachePut loader.cache key (stored now result))).bind fun _ =>
        .ret (stored now result).content := by
  unfold cachedFetch.store
  split
  · rename_i hstatus
    have hentry : stored now result = { etag := none, content := none, fetchedAt := now } :=
      if_pos hstatus
    rw [hentry]
    rfl
  · rename_i hstatus
    have hentry : stored now result =
        { etag := result.etag, content := result.content, fetchedAt := now } := if_neg hstatus
    rw [hentry]
    rfl

/-! ## A cached fetch beside other loads -/

/-- Loads that share a loader, with the site around them. -/
def loadSetting (serve : (e : Req) → Site → Except PyError e.Resp → Prop) (loader : Nat) :
    Setting Req Req.Resp PyError Site where
  sem := siteSem serve
  inv := Site.CacheInv loader
  rely := Site.Later loader
  guar := Site.Later loader

/-- What a load knows of the entry it read under `key`. -/
structure Knows (loader : Nat) (key : CacheKey) (entryRef : Nat) (entry : CacheEntry)
    (s : Site) : Prop where
  present : ∃ entry', s.memory.entries[entryRef]? = some entry' ∧ SameText entry entry'
  owned : ∀ key', s.memory.lookup loader key' = some entryRef → key' = key
  dated : Dated s.past key entry

/-- A report of the file at an instant not before `now`. -/
def ReportedSince (key : CacheKey) (now : Nat) (sent : Option String) (result : FetchResult)
    (s : Site) : Prop :=
  ∃ i ∈ s.past, now ≤ i.1 ∧ Reports (i.2 key) sent result

section Stable

variable {loader : Nat} {key : CacheKey} {now since : Nat}

theorem stable_since : (loadSetting serve loader).Stable fun s => now ≤ s.clock :=
  fun _ _ h _ hrely _ => h.trans hrely.passes.1

theorem stable_knows {entryRef : Nat} {entry : CacheEntry} :
    (loadSetting serve loader).Stable (Knows loader key entryRef entry) := by
  intro s s' h _ hrely _
  obtain ⟨⟨entry₁, hentry₁, hsame₁⟩, howned, i, hi, hdate, hholds⟩ := h
  obtain ⟨entry₂, hentry₂, hsame₂⟩ := hrely.entries entryRef entry₁ hentry₁
  have hlt : entryRef < s.memory.entries.length := (List.getElem?_eq_some_iff.mp hentry₁).1
  exact ⟨⟨entry₂, hentry₂, hsame₂.1.trans hsame₁.1, hsame₂.2.trans hsame₁.2⟩,
    fun key' href => howned key' (hrely.lookups key' entryRef hlt href),
    i, hrely.passes.2 i hi, hdate, hholds⟩

theorem stable_reported {sent : Option String} {result : FetchResult} :
    (loadSetting serve loader).Stable (ReportedSince key now sent result) := by
  rintro s s' ⟨i, hi, hdate, hreports⟩ _ hrely _
  exact ⟨i, hrely.passes.2 i hi, hdate, hreports⟩

theorem stable_freshValue {value : Option String} :
    (loadSetting serve loader).Stable fun s => FreshValue s.past key since value := by
  rintro s s' ⟨i, hi, hdate, hvalue⟩ _ hrely _
  exact ⟨i, hrely.passes.2 i hi, hdate, hvalue⟩

end Stable

/-- A dated entry that says what an entry of the past was is a value of the past. -/
theorem FreshValue.of_holds {past : List Instant} {i : Instant} {key : CacheKey}
    {entry : CacheEntry} {since : Nat} (hi : i ∈ past) (hdate : since < i.1 + cacheTtl)
    (hholds : Holds (i.2 key) entry) : FreshValue past key since entry.content :=
  ⟨i, hi, hdate, hholds.content.symm⟩

theorem lt_add_cacheTtl {since now time : Nat} (h : since ≤ now) (h' : now ≤ time) :
    since < time + cacheTtl := by
  have : 0 < cacheTtl := by decide
  omega

section Triples

variable {loader : Nat} {key : CacheKey} {now since : Nat}

theorem stable_post {α : Type} {B : α → Site → Prop}
    (hB : ∀ a, (loadSetting serve loader).Stable (B a)) (r : Except PyError α) :
    (loadSetting serve loader).Stable (Post B (fun _ => True) r) :=
  Setting.Stable.post hB (Setting.stable_const True) r

theorem now_dated :
    Triple (loadSetting serve loader) (fun s => since ≤ s.clock) Py.utcnow
      (Post (fun now s => since ≤ now ∧ now ≤ s.clock) fun _ => True) := by
  refine .perform stable_since
    (stable_post fun _ => (Setting.stable_const _).and stable_since) fun s r s' hi hs hsem => ?_
  have hspares : Req.SparesCaches (.ext .utcnow) := trivial
  have hreq : siteSem serve (.ext .utcnow) s r s' := hsem
  obtain ⟨hi', hlater⟩ := Site.CacheInv.spared hi hspares hreq
  obtain ⟨rfl, rfl⟩ := hsem
  exact ⟨hi', hlater, hs, Nat.le_refl _⟩

theorem cacheGet_knows :
    Triple (loadSetting serve loader) (fun s => now ≤ s.clock)
      (Py.mem (.cacheGet loader key))
      (Post (fun found s => now ≤ s.clock ∧ ∀ entryRef entry, found = some (entryRef, entry) →
        Knows loader key entryRef entry s) fun _ => True) := by
  refine .perform stable_since (stable_post fun found => stable_since.and ?_)
    fun s r s' hi hs hsem => ?_
  · exact fun s s' h hi hrely hi' entryRef entry hfound =>
      stable_knows s s' (h entryRef entry hfound) hi hrely hi'
  have hspares : Req.SparesCaches (.ext (.mem (.cacheGet loader key))) := trivial
  have hreq : siteSem serve (.ext (.mem (.cacheGet loader key))) s r s' := hsem
  obtain ⟨hi', hlater⟩ := Site.CacheInv.spared hi hspares hreq
  obtain ⟨rfl, rfl⟩ := hsem
  refine ⟨hi', hlater, hs, fun entryRef entry hfound => ?_⟩
  have hget : s.memory.cacheGet loader key = some (entryRef, entry) := hfound
  obtain ⟨hlookup, hentry⟩ := Memory.cacheGet_eq_some hget
  obtain ⟨entry', hentry', hdated⟩ := hi.dated key entryRef hlookup
  obtain rfl : entry' = entry := Option.some.inj (hentry'.symm.trans hentry)
  exact ⟨⟨entry', hentry, rfl, rfl⟩, fun key' href => hi.owned key key' entryRef hlookup href,
    hdated⟩

variable {fetcher : RepoConfigFetcher} {repo ref path : String} {sent : Option String}

/-- A fetch reports the file at an instant not before its start, and changes nothing the loads
know. -/
theorem fetchText_reports (htruthful : Truthful serve fetcher) {K : Site → Prop}
    (hK : (loadSetting serve loader).Stable K) :
    Triple (loadSetting serve loader) (fun s => now ≤ s.clock ∧ K s)
      (fetcher.fetchText repo ref path sent)
      (Post (fun result s => ReportedSince (repo, ref, path) now sent result s ∧ K s)
        fun _ => True) := by
  -- what the fetcher reports, and apart from it what its callers rely on
  have hreport : Triple (loadSetting serve loader) (fun s => now ≤ s.clock)
      (fetcher.fetchText repo ref path sent)
      (Post (ReportedSince (repo, ref, path) now sent) fun _ => True) := by
    refine .of_among (fetcher.spares repo ref path sent) (stable_post fun _ => stable_reported)
      (fun e he s r s' hi hsem => hi.spared he hsem) fun s tr r s' _ hs hrun => ?_
    cases r with
    | error x => trivial
    | ok result =>
      have hrun' := hrun.mono fun _ _ (hlater : Site.Later loader _ _) => hlater.passes
      obtain ⟨i, hi, hdate, hreports⟩ := htruthful repo ref path sent s tr result s' hrun'
      exact ⟨i, hi, Nat.le_trans hs hdate, hreports⟩
  have hkept : Triple (loadSetting serve loader) K (fetcher.fetchText repo ref path sent)
      fun _ s => True ∧ K s := by
    have hyields : (fetcher.fetchText repo ref path sent).Yields (fun _ _ => True)
        fun _ => True := yields_true _
    refine .of_calls hK (fun e he s r s' hi hs hsem => ?_) (fetcher.spares repo ref path sent)
      hyields
    obtain ⟨hi', hlater⟩ := hi.spared he hsem
    exact ⟨hi', hlater, trivial, hK s s' hs hi hlater hi'⟩
  refine (hreport.and hkept).conseq (fun _ _ h => h) (fun r s _ h => ?_)
    (stable_post fun _ => stable_reported.and hK)
  cases r with
  | error x => trivial
  | ok result => exact ⟨h.1, h.2.2⟩

/-- A report other than `NOT_MODIFIED` is stored and returned. -/
theorem store_fresh {loader : RepoConfigLoader} {result : FetchResult}
    (hstatus : result.status ≠ .notModified) (hsince : since ≤ now) :
    Triple (loadSetting serve loader.cache) (ReportedSince key now sent result)
      (cachedFetch.store loader key now result)
      (Post (fun value s => FreshValue s.past key since value) fun _ => True) := by
  rw [store_eq]
  refine Triple.seq (B := fun _ s => FreshValue s.past key since (stored now result).content)
    (.perform stable_reported (stable_post fun _ => stable_freshValue) ?_)
      (fun _ => stable_freshValue)
    fun _ _ => .ret (stable_post fun _ => stable_freshValue)
      fun s _ (h : FreshValue s.past key since _) => h
  rintro s r s' hi ⟨i, hi', hdate, hreports⟩ ⟨rfl, rfl⟩
  have hholds : Holds (i.2 key) (stored now result) := hreports.holds hstatus now
  have hfetched : (stored now result).fetchedAt ≤ i.1 := (stored_fetchedAt now result).symm ▸ hdate
  obtain ⟨hinv, hlater⟩ := Site.CacheInv.put hi ⟨i, hi', hfetched, hholds⟩
  exact ⟨hinv, hlater, .of_holds hi' (lt_add_cacheTtl hsince hdate) hholds⟩

/-- An entry that was revalidated is touched, and its content returned. -/
theorem touch_fresh {entryRef : Nat} {entry : CacheEntry} {result : FetchResult}
    (hstatus : result.status = .notModified) (hsince : since ≤ now) :
    Triple (loadSetting serve loader)
      (fun s => ReportedSince key now entry.etag result s ∧ Knows loader key entryRef entry s)
      (Py.mem (.cacheTouch entryRef now))
      (Post (fun _ s => FreshValue s.past key since entry.content) fun _ => True) := by
  refine .perform (stable_reported.and stable_knows) (stable_post fun _ => stable_freshValue) ?_
  rintro s r s' hi ⟨⟨i, hmem, hdate, hreports⟩, hknows⟩ ⟨rfl, rfl⟩
  obtain ⟨⟨entry', hentry', hsame⟩, howned, j, hj, _, hholds⟩ := hknows
  -- the file of the report is the one the entry was read from, by its etag
  have hnow : Holds (i.2 key) entry :=
    hreports.revalidates hi.identifies hj hmem hholds hstatus
  have hdated : ∀ key' e, s.memory.lookup loader key' = some entryRef →
      s.memory.entries[entryRef]? = some e → Dated s.past key' { e with fetchedAt := now } := by
    intro key' e href he
    rw [howned key' href, ← Option.some.inj (hentry'.symm.trans he)]
    exact ⟨i, hmem, hdate, hnow.same hsame⟩
  obtain ⟨hinv, hlater⟩ := Site.CacheInv.touch hi hdated
  exact ⟨hinv, hlater, .of_holds hmem (lt_add_cacheTtl hsince hdate) hnow⟩

/-- A cached fetch beside other loads returns what the file was at an instant less than
`CACHE_TTL` before the call. -/
theorem cachedFetch_fresh {loader : RepoConfigLoader} (htruthful : Truthful serve loader.fetcher) :
    Triple (loadSetting serve loader.cache) (fun s => since ≤ s.clock)
      (loader.cachedFetch repo ref path)
      (Post (fun value s => FreshValue s.past (repo, ref, path) since value) fun _ => True) := by
  have hstable : ∀ r, (loadSetting serve loader.cache).Stable
      (Post (fun value s => FreshValue s.past (repo, ref, path) since value) (fun _ => True) r) :=
    stable_post fun _ => stable_freshValue
  refine now_dated.seq (fun _ => stable_freshValue) fun now _ => .of_pure hstable fun hsince => ?_
  refine cacheGet_knows.seq (fun _ => stable_freshValue) fun found _ => ?_
  cases found with
  | none =>
    -- nothing is cached
    refine Triple.seq ((fetchText_reports htruthful (Setting.stable_const True)).pre
      fun s _ h => ⟨h.1, trivial⟩) (fun _ => stable_freshValue) fun result _ => ?_
    refine (Triple.of_pure hstable fun hstatus => store_fresh hstatus hsince).pre
      fun s _ h => ⟨?_, h.1⟩
    obtain ⟨i, _, _, hreports⟩ := h.1
    exact hreports.ne_notModified
  | some found =>
    obtain ⟨entryRef, entry⟩ := found
    dsimp only
    split
    · rename_i hfresh
      -- the entry is served outright
      refine .ret hstable fun s _ h => ?_
      obtain ⟨i, hi, hdate, hholds⟩ := (h.2 entryRef entry rfl).dated
      exact .of_holds hi (by omega) hholds
    · refine Triple.seq ((fetchText_reports htruthful stable_knows).pre
        fun s _ h => ⟨h.1, h.2 entryRef entry rfl⟩) (fun _ => stable_freshValue) fun result _ => ?_
      split
      · rename_i hstatus
        exact (touch_fresh hstatus hsince).seq (fun _ => stable_freshValue) fun _ _ =>
          .ret hstable fun s _ (h : FreshValue s.past (repo, ref, path) since entry.content) => h
      · rename_i hstatus
        exact (store_fresh hstatus hsince).pre fun s _ h => h.1

end Triples

/-! ## A cached fetch that raises -/

/-- Any answers, but those of the memory are no exceptions. -/
def memSem : Sem Req Req.Resp PyError Unit :=
  fun e _ r _ => ∀ op, e = .ext (.mem op) → ∃ v, r = .ok v

theorem memSem_of_siteSem {e : Req} {s s' : Site} {r : Except PyError e.Resp}
    (h : siteSem serve e s r s') : memSem e () r () := by
  rintro op rfl
  exact ⟨_, h.1⟩

/-- The request changes nothing in the cache of the loader. -/
def LeavesCache (loader : Nat) (e : Req) : Prop :=
  ∀ op, e = .ext (.mem op) → ∀ m : Memory, (op.exec m).2.entries = m.entries ∧
    ∀ key, (op.exec m).2.lookup loader key = m.lookup loader key

theorem Req.SparesCaches.leavesCache {e : Req} (h : e.SparesCaches) (loader : Nat) :
    LeavesCache loader e := by
  rintro op rfl m
  obtain ⟨hentries, hlookup⟩ := Memory.exec_spares h m
  exact ⟨hentries, hlookup loader⟩

/-- Writing to the cache is the last thing a fetch does, and cannot fail. -/
theorem write_returns {op : MemOp} {done : Trace Req Req.Resp PyError} {x : PyError}
    {value : Option String} :
    ¬ Ends memSem ((Py.mem op).bind fun _ => (.ret value : Py (Option String))) () done
      (.error x) () := by
  intro h
  rcases ends_bind_error h with h | ⟨_, _, _, _, _, _, h⟩
  · obtain ⟨v, hv⟩ := (ends_perform h).2 op rfl
    cases hv
  · cases (ends_ret h).2.1

/-- A fetch that raises has written nothing: `cache_put` is the last thing `_cached_fetch` does, and
it does not raise. So what is left of the fetch can be read off its trace without the cache. -/
theorem cachedFetch_raises {loader : RepoConfigLoader} {repo ref path : String}
    {done : Trace Req Req.Resp PyError} {x : PyError}
    (h : Ends memSem (loader.cachedFetch repo ref path) () done (.error x) ()) :
    ∀ ev ∈ done, ev.1.SparesCaches := by
  have hone : ∀ {e : Req} {tr : Trace Req Req.Resp PyError} {r : Except PyError e.Resp}
      {u u' : Unit},
      e.SparesCaches → Ends memSem (.perform e : Py e.Resp) u tr r u' →
      ∀ ev ∈ tr, ev.1.SparesCaches :=
    fun he hrun => ((Prog.calls_perform he).run hrun).1
  have htext : ∀ {etag : Option String} {tr : Trace Req Req.Resp PyError}
      {r : Except PyError FetchResult} {u u' : Unit},
      Ends memSem (loader.fetcher.fetchText repo ref path etag) u tr r u' →
      ∀ ev ∈ tr, ev.1.SparesCaches :=
    fun hrun => ((loader.fetcher.spares repo ref path _).run hrun).1
  rcases ends_bind_error h with h₁ | ⟨now, tr₁, tr₂, _, rfl, h₁, h₂⟩
  · exact hone (e := .ext .utcnow) trivial h₁
  refine List.forall_mem_append.mpr ⟨hone (e := .ext .utcnow) trivial h₁, ?_⟩
  rcases ends_bind_error h₂ with h₃ | ⟨found, tr₃, tr₄, _, rfl, h₃, h₄⟩
  · exact hone (e := .ext (.mem (.cacheGet _ _))) trivial h₃
  refine List.forall_mem_append.mpr ⟨hone (e := .ext (.mem (.cacheGet _ _))) trivial h₃, ?_⟩
  -- without an entry the text is fetched, with one only when it is past its ttl
  rcases found with _ | ⟨entryRef, entry⟩
  · rcases ends_bind_error h₄ with h₅ | ⟨result, tr₅, tr₆, _, rfl, h₅, h₆⟩
    · exact htext h₅
    · rw [store_eq] at h₆
      exact absurd h₆ write_returns
  · dsimp only at h₄
    -- a fresh entry is returned as it is
    split at h₄
    · cases (ends_ret h₄).2.1
    rcases ends_bind_error h₄ with h₅ | ⟨result, tr₅, tr₆, _, rfl, h₅, h₆⟩
    · exact htext h₅
    · -- past it the answer renews the entry (304), or replaces it
      split at h₆
      · exact absurd h₆ write_returns
      · rw [store_eq] at h₆
        exact absurd h₆ write_returns

/-! ## Loads side by side -/

section Loads

variable [ConfigLibrary]

/-- The arguments of `load`. -/
structure LoadArgs where
  repo : String
  baseRef : String
  defaultBranch : String

/-- A call of `load` in flight: inside one of its fetches, or behind the last of them. -/
inductive LoadTask where
  /-- In a `_cached_fetch` of `ref` that was called at `since`, with its requests so far;
  `config` is the config of the default branch, once that is known. -/
  | fetching (args : LoadArgs) (config : Option RepoConfig) (ref : String) (since : Nat)
      (done : Trace Req Req.Resp PyError) (rest : Py (Option String))
  /-- Past the last of them. -/
  | finishing (args : LoadArgs) (rest : Py RepoConfig)

namespace LoadTask

variable (loader : RepoConfigLoader)

/-- What `load` does with the text of the base branch. -/
def baseFetched (args : LoadArgs) (config : RepoConfig) : Option String → Py RepoConfig
  | none => loader.resolveProjectContext args.repo args.defaultBranch config
  | some text => do
    let baseRefConfig ← Py.ofExcept (parse text)
    loader.resolveProjectContext args.repo args.baseRef baseRefConfig

/-- What `load` does with the text of the default branch. -/
def defaultFetched (args : LoadArgs) : Option String → Py RepoConfig
  | none => .ret (absentConfig loader.defaults)
  | some text => do
    let config ← Py.ofExcept (parse text)
    if args.baseRef ≠ args.defaultBranch ∧ args.baseRef ∈ config.trustedBaseBranches then do
      let baseRefText ← loader.cachedFetch args.repo args.baseRef configPath
      baseFetched loader args config baseRefText
    else loader.resolveProjectContext args.repo args.defaultBranch config

/-- What is left of the call. -/
def program : LoadTask → Py RepoConfig
  | fetching args none _ _ _ rest => rest.bind (defaultFetched loader args)
  | fetching args (some config) _ _ _ rest => rest.bind (baseFetched loader args config)
  | finishing _ rest => rest

/-- A call of `_cached_fetch` at `now`. -/
def fetch (args : LoadArgs) (config : Option RepoConfig) (ref : String) (now : Nat) : LoadTask :=
  fetching args config ref now [] (loader.cachedFetch args.repo ref configPath)

/-- A call of `load` at `now`. -/
def load (args : LoadArgs) (now : Nat) : LoadTask := fetch loader args none args.defaultBranch now

/-- How the call goes on after a `_cached_fetch`, at `now`. -/
def resume (args : LoadArgs) (now : Nat) :
    Option RepoConfig → Except PyError (Option String) → LoadTask
  | _, .error exc => finishing args (.raise exc)
  -- back from the fetch of the base branch
  | some config, .ok text => finishing args (baseFetched loader args config text)
  -- back from that of the default branch, which may list the base branch
  | none, .ok none => finishing args (defaultFetched loader args none)
  | none, .ok (some text) =>
    match parse text with
    | .error exc => finishing args (.raise exc)
    | .ok config =>
      if args.baseRef ≠ args.defaultBranch ∧ args.baseRef ∈ config.trustedBaseBranches then
        fetch loader args (some config) args.baseRef now
      else finishing args (loader.resolveProjectContext args.repo args.defaultBranch config)

/-- A step of the call: a request, or the return of a `_cached_fetch`. -/
inductive Step (serve : (e : Req) → Site → Except PyError e.Resp → Prop) :
    LoadTask → Site → Option (Σ e : Req, Except PyError e.Resp) → LoadTask → Site → Prop where
  | ask {args : LoadArgs} {config : Option RepoConfig} {ref : String} {since : Nat}
      {done : Trace Req Req.Resp PyError} {e : Req}
      {k : Except PyError e.Resp → Py (Option String)} {r : Except PyError e.Resp} {s s' : Site}
      (h : siteSem serve e s r s') :
      Step serve (fetching args config ref since done (.call e k)) s (some ⟨e, r⟩)
        (fetching args config ref since (done ++ [⟨e, r⟩]) (k r)) s'
  | returned {args : LoadArgs} {config : Option RepoConfig} {ref : String} {since : Nat}
      {done : Trace Req Req.Resp PyError} {r : Except PyError (Option String)} {s : Site} :
      Step serve (fetching args config ref since done (.ofExcept r)) s none
        (resume loader args s.clock config r) s
  | finish {args : LoadArgs} {e : Req} {k : Except PyError e.Resp → Py RepoConfig}
      {r : Except PyError e.Resp} {s s' : Site} (h : siteSem serve e s r s') :
      Step serve (finishing args (.call e k)) s (some ⟨e, r⟩) (finishing args (k r)) s'

variable {loader} {args : LoadArgs} {now : Nat}

/-- A call starts as `load`: what a task that was just opened has left to do is all of it. -/
theorem program_load :
    (load loader args now).program loader =
      loader.load args.repo args.baseRef args.defaultBranch := by
  refine congrArg (Prog.bind _) (funext fun text => ?_)
  cases text <;> rfl

theorem program_resume {config : Option RepoConfig} {ref : String} {since : Nat}
    {done : Trace Req Req.Resp PyError} (r : Except PyError (Option String)) :
    (resume loader args now config r).program loader =
      (fetching args config ref since done (.ofExcept r)).program loader := by
  cases config with
  -- the second fetch was that of the base branch, and it decides alone
  | some config => cases r <;> rfl
  | none =>
    rcases r with exc | (_ | text)
    · rfl
    · rfl
    · -- the first fetch found a file: it may list the base branch, which is then fetched
      show (resume loader args now none (.ok (some text))).program loader =
        (Py.ofExcept (parse text)).bind fun config =>
          if args.baseRef ≠ args.defaultBranch ∧ args.baseRef ∈ config.trustedBaseBranches then
            (loader.cachedFetch args.repo args.baseRef configPath).bind
              (baseFetched loader args config)
          else loader.resolveProjectContext args.repo args.defaultBranch config
      cases hparse : parse text with
      | error exc =>
        simp only [resume, hparse]
        rfl
      | ok config =>
        simp only [resume, hparse]
        show LoadTask.program loader (if _ then _ else _) = if _ then _ else _
        split <;> rfl

/-- The steps of the task are those of the call. -/
theorem Step.program {t t' : LoadTask} {s s' : Site}
    {ev : Option (Σ e : Req, Except PyError e.Resp)} (h : Step loader serve t s ev t' s') :
    match ev with
    | some ⟨e, r⟩ =>
      siteSem serve e s r s' ∧ ∃ k, t.program loader = .call e k ∧ t'.program loader = k r
    | none => s' = s ∧ t'.program loader = t.program loader := by
  cases h with
  | @ask args config ref since done e k r s s' hsem =>
    cases config with
    | none => exact ⟨hsem, _, rfl, rfl⟩
    | some config => exact ⟨hsem, _, rfl, rfl⟩
  | returned => exact ⟨rfl, program_resume _⟩
  | finish hsem => exact ⟨hsem, _, rfl, rfl⟩

end LoadTask

variable (loader : RepoConfigLoader)

/-- Loads of one loader, any number of them, while the site moves. -/
def loadCrew (serve : (e : Req) → Site → Except PyError e.Resp → Prop) :
    Crew LoadTask (Option (Σ e : Req, Except PyError e.Resp)) Site where
  starts s t := ∃ args, t = LoadTask.load loader args s.clock
  step _ := LoadTask.Step loader serve
  drift := Site.Drift

/-- The loader is new. -/
structure Opens (s : Site) : Prop where
  empty : ∀ key, s.memory.lookup loader.cache key = none
  identifies : Identifies s.past

/-- What holds of a call at every point of it. -/
def LoadTask.Sound (serve : (e : Req) → Site → Except PyError e.Resp → Prop) (s : Site) :
    LoadTask → Prop
  | .fetching args _ ref since done rest =>
    Safe (loadSetting serve loader.cache) rest
        (Post (fun value s => FreshValue s.past (args.repo, ref, configPath) since value)
          fun _ => True) s ∧
      Run memSem (loader.cachedFetch args.repo ref configPath) () done rest ()
  | .finishing _ rest => rest.Calls Req.SparesCaches

variable {loader}

omit [ConfigLibrary] in
/-- Reading a context file spares the caches. -/
theorem resolveProjectContext_spares (repo ref : String) (config : RepoConfig) :
    (loader.resolveProjectContext repo ref config).Calls Req.SparesCaches := by
  unfold resolveProjectContext
  split
  · trivial
  · rename_i path _
    refine (loader.fetcher.spares repo ref path.value none).bind fun result => ?_
    split
    · trivial
    · split <;> trivial

namespace LoadTask.Sound

variable {s s' : Site} {args : LoadArgs} {config : Option RepoConfig}

omit [ConfigLibrary] in
/-- A step of the site or of another call. -/
theorem env {t : LoadTask} (h : t.Sound loader serve s) (hlater : Site.Later loader.cache s s')
    (hinv : Site.CacheInv loader.cache s') : t.Sound loader serve s' := by
  cases t with
  | fetching args config ref since done rest => exact ⟨h.1.env hlater hinv, h.2⟩
  | finishing args rest => exact h

omit [ConfigLibrary] in
theorem fetch (htruthful : Truthful serve loader.fetcher)
    (hinv : Site.CacheInv loader.cache s) (ref : String) :
    (LoadTask.fetch loader args config ref s.clock).Sound loader serve s :=
  ⟨.of_triple (cachedFetch_fresh htruthful) hinv (Nat.le_refl _), .refl _ _⟩

theorem resume (htruthful : Truthful serve loader.fetcher)
    (hinv : Site.CacheInv loader.cache s) (r : Except PyError (Option String)) :
    (LoadTask.resume loader args s.clock config r).Sound loader serve s := by
  have hcontext : ∀ ref config,
      (loader.resolveProjectContext args.repo ref config).Calls Req.SparesCaches :=
    resolveProjectContext_spares args.repo
  rcases r with exc | text
  · cases config <;> trivial
  · cases config with
    | some config =>
      cases text with
      | none => exact hcontext _ _
      | some text => exact (Prog.calls_ofExcept _).bind fun baseConfig => hcontext _ _
    | none =>
      cases text with
      | none => trivial
      | some text =>
        cases hparse : parse text with
        | error exc =>
          simp only [LoadTask.resume, hparse]
          trivial
        | ok config =>
          simp only [LoadTask.resume, hparse]
          split
          · exact fetch htruthful hinv args.baseRef
          · exact hcontext _ _

/-- A step of the call itself. -/
theorem step (htruthful : Truthful serve loader.fetcher) {t t' : LoadTask}
    {ev : Option (Σ e : Req, Except PyError e.Resp)} (h : t.Sound loader serve s)
    (hinv : Site.CacheInv loader.cache s) (hstep : LoadTask.Step loader serve t s ev t' s') :
    Site.CacheInv loader.cache s' ∧ Site.Later loader.cache s s' ∧ t'.Sound loader serve s' := by
  cases hstep with
  | ask hsem =>
    obtain ⟨hlater, hsafe⟩ := h.1.step hsem
    exact ⟨hsafe.inv, hlater, hsafe, h.2.snoc (memSem_of_siteSem hsem)⟩
  | returned =>
    exact ⟨hinv, Site.later_of_entries (Site.Passes.refl _) rfl fun _ => rfl,
      resume htruthful hinv _⟩
  | finish hsem =>
    obtain ⟨hinv', hlater⟩ := hinv.spared h.1 hsem
    exact ⟨hinv', hlater, h.2 _⟩

end LoadTask.Sound

/-- What every run keeps: the invariant of the cache, and what holds of every call. -/
def LoadPool (loader : RepoConfigLoader) (serve : (e : Req) → Site → Except PyError e.Resp → Prop)
    (pool : Pool LoadTask Site) : Prop :=
  Site.CacheInv loader.cache pool.state ∧
    ∀ n t, pool.tasks n = some t → t.Sound loader serve pool.state

omit [ConfigLibrary] in
theorem Opens.cacheInv {s : Site} (h : Opens loader s) : Site.CacheInv loader.cache s where
  identifies := h.identifies
  dated key entryRef href := by
    rw [h.empty key] at href
    cases href
  owned key key' entryRef href := by
    rw [h.empty key] at href
    cases href

theorem loadPool_of_reachable (htruthful : Truthful serve loader.fetcher)
    {pool : Pool LoadTask Site} (h : Pool.Reachable (loadCrew loader serve) (Opens loader) pool) :
    LoadPool loader serve pool := by
  refine h.keeps (fun s hs => ⟨hs.cacheInv, fun n t hn => by cases hn⟩) ?_ ?_ ?_
  · intro pool s hpool hdrift
    obtain ⟨hinv, hlater⟩ := hpool.1.drift hdrift
    exact ⟨hinv, fun n t hn => (hpool.2 n t hn).env hlater hinv⟩
  · rintro pool n _ hpool _ ⟨args, rfl⟩
    refine ⟨hpool.1, fun m u hm => ?_⟩
    rcases Pool.put_cases hm with ⟨_, rfl⟩ | ⟨_, hm⟩
    · exact LoadTask.Sound.fetch htruthful hpool.1 _
    · exact hpool.2 m u hm
  · intro pool n t ev t' s hpool hn hstep _
    obtain ⟨hinv, hlater, hsound⟩ := (hpool.2 n t hn).step htruthful hpool.1 hstep
    refine ⟨hinv, fun m u hm => ?_⟩
    rcases Pool.put_cases hm with ⟨_, rfl⟩ | ⟨_, hm⟩
    · exact hsound
    · exact (hpool.2 m u hm).env hlater hinv

/-- However loads of one loader interleave with each other and with changes of the files, a value
that `_cached_fetch` returns was the content of the file, or its absence, at an instant less than
`CACHE_TTL` before the call; and a `_cached_fetch` that raises has left the cache as it was. -/
theorem cache_staleness_bounded (htruthful : Truthful serve loader.fetcher)
    {pool : Pool LoadTask Site} (h : Pool.Reachable (loadCrew loader serve) (Opens loader) pool)
    {n since : Nat} {args : LoadArgs} {config : Option RepoConfig} {ref : String}
    {done : Trace Req Req.Resp PyError} {rest : Py (Option String)}
    (hn : pool.tasks n = some (.fetching args config ref since done rest)) :
    (∀ value, rest = .ret value →
      ∃ i ∈ pool.state.past, since < i.1 + cacheTtl ∧
        (i.2 (args.repo, ref, configPath)).map (·.content) = value) ∧
    (∀ exc, rest = .raise exc → ∀ ev ∈ done, LeavesCache loader.cache ev.1) := by
  obtain ⟨hsafe, hrun⟩ := (loadPool_of_reachable htruthful h).2 n _ hn
  constructor
  · rintro value rfl
    exact hsafe.ok
  · rintro exc rfl ev hev
    exact (cachedFetch_raises (x := exc) hrun ev hev).leavesCache loader.cache

end Loads

/-! ## The GitHub client as a fetcher -/

section GitHub

variable [Text.UnicodeDb]

/-- What GitHub's contents endpoint answers: a body is that of the current file, and a 404 means
that there is none. -/
def HonestContents (serve : (e : Req) → Site → Except PyError e.Resp → Prop) : Prop :=
  ∀ client owner name repo path ref sent s r, GitHubClient.splitRepo repo = .ok (owner, name) →
    serve (.ext (.github client (.reposGetContent owner name path ref sent))) s r →
    match r with
    | .ok response => ∀ result, GitHubClient.decodeContent repo ref path response = .ok result →
        Reports (s.files (repo, ref, path)) sent result
    | .error (.requestFailed exc) => exc.statusCode = 404 → s.files (repo, ref, path) = none
    | .error (.gitHubNotFound _) => False
    | .error _ => True

/-- A fetch, with the site around it. -/
def fetchSetting (serve : (e : Req) → Site → Except PyError e.Resp → Prop) :
    Setting Req Req.Resp PyError Site where
  sem := siteSem serve
  inv _ := True
  rely := Site.Passes
  guar _ _ := True

/-- What the outcome of the request says, at an instant not before `now`. -/
def Answered (repo ref path : String) (now : Nat) (sent : Option String) :
    Except PyError ContentData → Site → Prop
  | .ok response, s => ∀ result, GitHubClient.decodeContent repo ref path response = .ok result →
      ReportedSince (repo, ref, path) now sent result s
  | .error (.requestFailed exc), s => exc.statusCode = 404 →
      ReportedSince (repo, ref, path) now sent .ofNotFound s
  | .error (.gitHubNotFound _), s => ReportedSince (repo, ref, path) now sent .ofNotFound s
  | .error _, _ => True

variable {repo ref path : String} {now : Nat} {sent : Option String}

omit [Text.UnicodeDb] in
theorem stable_clock : (fetchSetting serve).Stable fun s => now ≤ s.clock :=
  fun _ _ h _ hrely _ => h.trans hrely.1

omit [Text.UnicodeDb] in
theorem stable_reportedSince {key : CacheKey} {result : FetchResult} :
    (fetchSetting serve).Stable (ReportedSince key now sent result) := by
  rintro s s' ⟨i, hi, hdate, hreports⟩ _ hrely _
  exact ⟨i, hrely.2 i hi, hdate, hreports⟩

theorem stable_answered (r : Except PyError ContentData) :
    (fetchSetting serve).Stable (Answered repo ref path now sent r) := by
  intro s s' h hi hrely hi'
  unfold Answered at h ⊢
  split
  · exact fun result hdecode => stable_reportedSince s s' (h result hdecode) hi hrely hi'
  · exact fun hstatus => stable_reportedSince s s' (h hstatus) hi hrely hi'
  · exact stable_reportedSince s s' h hi hrely hi'
  · trivial

theorem callOnce_answered (hhonest : HonestContents serve) (installationId : Nat)
    {owner name : String} (hrepo : GitHubClient.splitRepo repo = .ok (owner, name)) :
    Triple (fetchSetting serve) (fun s => now ≤ s.clock)
      (GitHubClient.callOnce installationId (.reposGetContent owner name path ref sent))
      fun r s => now ≤ s.clock ∧ Answered repo ref path now sent r s := by
  have hstable : ∀ r, (fetchSetting serve).Stable fun s =>
      now ≤ s.clock ∧ Answered repo ref path now sent r s :=
    fun r => stable_clock.and (stable_answered r)
  refine Triple.bind (B := fun r s => (∀ x, r ≠ .error x) ∧ now ≤ s.clock)
    (.perform stable_clock (fun r => (Setting.stable_const _).and stable_clock) ?_) hstable
    (fun x _ _ h => absurd rfl (h.1 x)) fun client _ => .perform
      ((Setting.stable_const _).and stable_clock) hstable ?_
  · -- the installation client comes from memory
    rintro s r s' _ hs ⟨rfl, rfl⟩
    exact ⟨trivial, trivial, nofun, hs⟩
  · -- the answer is that of this instant, which is among those that were
    rintro s r s' _ ⟨_, hs⟩ ⟨hserve, rfl⟩
    have hnow : (s'.clock, s'.files) ∈ s'.past := List.mem_cons_self
    have hanswer := hhonest client owner name repo path ref sent s' r hrepo hserve
    refine ⟨trivial, trivial, hs, ?_⟩
    unfold Answered
    split
    · exact fun result hdecode => ⟨_, hnow, hs, hanswer result hdecode⟩
    · exact fun hstatus => ⟨_, hnow, hs, hanswer hstatus⟩
    · exact hanswer.elim
    · trivial

/-- Mapping an error keeps what it says. -/
theorem Answered.mapError {exc : RequestFailed} {s : Site}
    (h : Answered repo ref path now sent (.error (.requestFailed exc)) s) :
    Answered repo ref path now sent (.error (GitHubClient.mapError exc)) s := by
  unfold GitHubClient.mapError
  split
  · trivial
  · split
    · rename_i hstatus
      exact h hstatus
    · split <;> trivial

theorem catching_answered {body : Py ContentData} {unauthorized : RequestFailed → Py ContentData}
    (hbody : Triple (fetchSetting serve) (fun s => now ≤ s.clock) body
      fun r s => now ≤ s.clock ∧ Answered repo ref path now sent r s)
    (hun : ∀ exc, Triple (fetchSetting serve) (fun s => now ≤ s.clock) (unauthorized exc)
      (Answered repo ref path now sent)) :
    Triple (fetchSetting serve) (fun s => now ≤ s.clock) (GitHubClient.catching body unauthorized)
      (Answered repo ref path now sent) := by
  refine hbody.andThen stable_answered fun r => ?_
  cases r with
  | ok response => exact .ret stable_answered fun _ _ h => h.2
  | error x =>
    cases x with
    | requestFailed exc =>
      dsimp only
      split
      · exact (hun exc).pre fun _ _ h => h.1
      · exact .raise stable_answered fun _ _ h => h.2.mapError
    | _ => exact .raise stable_answered fun _ _ h => h.2

theorem withAuthRetry_answered (hhonest : HonestContents serve) (installationId : Nat)
    {owner name : String} (hrepo : GitHubClient.splitRepo repo = .ok (owner, name)) :
    Triple (fetchSetting serve) (fun s => now ≤ s.clock)
      (GitHubClient.withAuthRetry installationId (.reposGetContent owner name path ref sent))
      (Answered repo ref path now sent) := by
  have honce : Triple (fetchSetting serve) (fun s => now ≤ s.clock)
      (GitHubClient.callOnce installationId (.reposGetContent owner name path ref sent))
      fun r s => now ≤ s.clock ∧ Answered repo ref path now sent r s :=
    callOnce_answered hhonest installationId hrepo
  have hsecond : Triple (fetchSetting serve) (fun s => now ≤ s.clock)
      (GitHubClient.catching
        (GitHubClient.callOnce installationId (.reposGetContent owner name path ref sent))
        fun second => Py.throw (.gitHubAuthError (GitHubClient.message second)))
      (Answered repo ref path now sent) := by
    refine catching_answered honce fun second => .raise stable_answered fun _ _ _ => ?_
    trivial
  refine catching_answered honce fun _ => ?_
  refine Triple.bind (B := fun r s => (∀ x, r ≠ .error x) ∧ now ≤ s.clock)
    (.perform stable_clock (fun r => (Setting.stable_const _).and stable_clock) ?_)
    stable_answered (fun x _ _ h => absurd rfl (h.1 x)) fun _ _ => hsecond.pre fun _ _ h => h.2
  rintro s r s' _ hs ⟨rfl, rfl⟩
  exact ⟨trivial, trivial, nofun, hs⟩

/-- The client's own fetcher reports what the files are, if GitHub does. -/
theorem forInstallation_truthful (hhonest : HonestContents serve) (installationId : Nat) :
    Truthful serve (GitHubClient.forInstallation installationId) := by
  intro repo ref path sent s tr result s' hrun
  have htriple : Triple (fetchSetting serve) (fun t => s.clock ≤ t.clock)
      (GitHubClient.fetchText installationId repo ref path sent)
      (Post (ReportedSince (repo, ref, path) s.clock sent) fun _ => True) := by
    have hstable : ∀ r, (fetchSetting serve).Stable
        (Post (ReportedSince (repo, ref, path) s.clock sent) (fun _ => True) r) :=
      Setting.Stable.post (fun _ => stable_reportedSince) (Setting.stable_const True)
    unfold GitHubClient.fetchText
    cases hrepo : GitHubClient.splitRepo repo with
    | error x => exact .raise hstable fun _ _ _ => trivial
    -- the repository has an owner and a name, so GitHub is asked
    | ok names =>
      obtain ⟨owner, name⟩ := names
      refine (withAuthRetry_answered hhonest installationId hrepo).andThen hstable fun r => ?_
      cases r with
      | ok response =>
        refine .ofExcept hstable fun t _ h => ?_
        cases hdecode : GitHubClient.decodeContent repo ref path response with
        | ok result => exact h result hdecode
        | error x => trivial
      | error x =>
        cases x with
        -- a 404 is the answer that there is no file
        | gitHubNotFound message => exact .ret hstable fun _ _ h => h
        | _ => exact .raise hstable fun _ _ _ => trivial
  have hsafe := Safe.of_triple htriple trivial (Nat.le_refl s.clock)
  exact (hsafe.among hrun fun _ _ _ henv => ⟨henv, trivial⟩).ok

end GitHub

/-! ## A value that is out of date -/

section Example

attribute [local instance] Text.asciiDb exampleLibrary

/-- GitHub, answering contents requests alone, and honestly. -/
def contentsServer : (e : Req) → Site → Except PyError e.Resp → Prop
  | .ext (.github _ (.reposGetContent owner name path ref sent)), s, r =>
    ∀ repo, GitHubClient.splitRepo repo = .ok (owner, name) →
      match r with
      | .ok response => ∀ result, GitHubClient.decodeContent repo ref path response = .ok result →
          Reports (s.files (repo, ref, path)) sent result
      | .error (.requestFailed exc) => exc.statusCode = 404 → s.files (repo, ref, path) = none
      | .error (.gitHubNotFound _) => False
      | .error _ => True
  | _, _, _ => False

theorem honest_contentsServer : HonestContents contentsServer :=
  fun _ _ _ repo _ _ _ _ _ hrepo hserve => hserve repo hrepo

def contentsLoader : RepoConfigLoader where
  fetcher := GitHubClient.forInstallation 1
  defaults := {}
  cache := 0

/-- Every file is empty, with one etag. -/
def emptyFiles : Files := fun _ => some ⟨"", some "v1"⟩

def exampleSite : Site where
  memory := { caches := [[]] }
  clock := 0
  files := emptyFiles
  earlier := []

/-- A minute later every file is gone. -/
def laterSite (s : Site) : Site where
  memory := s.memory
  clock := 60000000
  files := fun _ => none
  earlier := s.past

def exampleArgs : LoadArgs := ⟨"o/r", "main", "main"⟩

/-- A request of a cached fetch. -/
theorem reachable_asks {loader : RepoConfigLoader} {pool : Pool LoadTask Site}
    (h : Pool.Reachable (loadCrew loader serve) (Opens loader) pool) {n since : Nat}
    {args : LoadArgs} {config : Option RepoConfig} {ref : String}
    {done : Trace Req Req.Resp PyError} {e : Req} {k : Except PyError e.Resp → Py (Option String)}
    {r : Except PyError e.Resp} {s : Site}
    (hn : pool.tasks n = some (.fetching args config ref since done (.call e k)))
    (hsem : siteSem serve e pool.state r s) :
    Pool.Reachable (loadCrew loader serve) (Opens loader)
      (pool.put n (.fetching args config ref since (done ++ [⟨e, r⟩]) (k r)) s) :=
  h.step (.task hn (.ask hsem)) fun _ _ _ => trivial

/-- Files that are empty wherever there are any have nothing to confuse. -/
theorem identifies_empty {past : List Instant}
    (h : ∀ i ∈ past, ∀ key f, i.2 key = some f → f.content = "") : Identifies past :=
  fun i hi j hj key f g hf hg _ _ => (h i hi key f hf).trans (h j hj key g hg).symm

theorem empty_emptyFiles (key : CacheKey) {f : ServedFile} (h : emptyFiles key = some f) :
    f.content = "" :=
  Option.some.inj h ▸ rfl

/-- The first load fetches the file, which is deleted then; a minute later a second load still gets
the content. -/
theorem cache_staleness_bounded_deleted :
    ∃ pool done,
      Pool.Reachable (loadCrew contentsLoader contentsServer) (Opens contentsLoader) pool ∧
      pool.tasks 1 = some (.fetching exampleArgs none "main" 60000000 done (.ret (some ""))) ∧
      pool.state.files = (fun _ => none) ∧
      ∃ i ∈ pool.state.past, 60000000 < i.1 + cacheTtl ∧
        (i.2 ("o/r", "main", configPath)).map (·.content) = some "" := by
  have hfirst : Identifies exampleSite.past := by
    refine identifies_empty fun i hi key f hf => ?_
    obtain rfl := List.mem_singleton.mp hi
    exact empty_emptyFiles key hf
  have h₀ : Pool.Reachable (loadCrew contentsLoader contentsServer) (Opens contentsLoader)
      (Pool.idle exampleSite) := .init ⟨fun _ => rfl, hfirst⟩
  -- the first load: no entry, so the file is fetched and cached
  have h₁ := h₀.step (.start (n := 0) rfl ⟨exampleArgs, rfl⟩) fun _ _ _ => trivial
  have h₂ := reachable_asks h₁ (n := 0) rfl (e := .ext .utcnow) (r := .ok (0 : Nat)) ⟨rfl, rfl⟩
  have h₃ := reachable_asks h₂ (n := 0) rfl
    (e := .ext (.mem (.cacheGet 0 ("o/r", "main", configPath)))) ⟨rfl, rfl⟩
  have h₄ := reachable_asks h₃ (n := 0) rfl (e := .ext (.mem (.installationClient 1))) ⟨rfl, rfl⟩
  have hfound : contentsServer (.ext (.github 0 (.reposGetContent "o" "r" configPath "main" none)))
      { exampleSite with memory := (MemOp.exec (.installationClient 1) exampleSite.memory).2 }
      (.ok (⟨200, some "v1", .file "base64" ""⟩ : ContentData)) := by
    rintro repo _ result hdecode
    cases hdecode
    exact ⟨⟨"", some "v1"⟩, rfl, rfl⟩
  have h₅ := reachable_asks h₄ (n := 0) rfl
    (e := .ext (.github 0 (.reposGetContent "o" "r" configPath "main" none))) ⟨hfound, rfl⟩
  have h₆ := reachable_asks h₅ (n := 0) rfl
    (e := .ext (.mem (.cachePut 0 ("o/r", "main", configPath) ⟨some "v1", some "", 0⟩))) ⟨rfl, rfl⟩
  -- the file is deleted, and the clock moves on by a minute
  have hlater : ∀ memory, Identifies (laterSite { exampleSite with memory }).past := by
    refine fun memory => identifies_empty fun i hi key f hf => ?_
    rcases List.mem_cons.mp hi with rfl | hi
    · cases hf
    · obtain rfl := List.mem_singleton.mp hi
      exact empty_emptyFiles key hf
  have h₇ := h₆.step (.drift (s := laterSite _) ⟨rfl, Nat.zero_le _, rfl, hlater _⟩)
    fun _ _ _ => trivial
  -- the second load finds the entry
  have h₈ := h₇.step (.start (n := 1) rfl ⟨exampleArgs, rfl⟩) fun _ _ _ => trivial
  have h₉ := reachable_asks h₈ (n := 1) rfl (e := .ext .utcnow) (r := .ok (60000000 : Nat))
    ⟨rfl, rfl⟩
  have h₁₀ := reachable_asks h₉ (n := 1) rfl
    (e := .ext (.mem (.cacheGet 0 ("o/r", "main", configPath)))) ⟨rfl, rfl⟩
  have htruthful : Truthful contentsServer contentsLoader.fetcher :=
    forInstallation_truthful honest_contentsServer 1
  exact ⟨_, _, h₁₀, rfl, rfl, (cache_staleness_bounded htruthful h₁₀ (n := 1) rfl).1 _ rfl⟩

end Example

end VidiPr
