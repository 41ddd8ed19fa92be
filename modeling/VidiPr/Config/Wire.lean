import VidiPr.Config.Trust
import VidiPr.Lib.Base64Encode
import VidiPr.Transport.GitHubClient

/-!
# The config, from GitHub's answers on

A loader reads the files of a branch through `fetch_text`, which decodes what the contents endpoint
answers. The text of a file comes in base64, in lines of any length, and as UTF-8.

* **`FileState.OnWire`** — what the endpoint may answer about a file.
* **`serves_forInstallation`** — `fetch_text` makes the file of it: what the loader relies on.
* **`config_over_wire`** — so a load yields the config that the trust rule gives for the files.
-/

namespace VidiPr

open Effect Prog Text GitHubClient

/-! ## The answers of the endpoint -/

namespace FileState

/-- What the contents endpoint may answer about a file to the etag it is sent. -/
inductive OnWire : FileState → Option String → Except PyError ContentData → Prop where
  /-- the file, in lines of base64 -/
  | found {text content : String} {etag sent : Option String} {status : Nat}
    (hstatus : status ≠ 304)
      (hlines : Base64Lines content (utf8 text)) :
      (found text etag).OnWire sent (.ok ⟨status, etag, .file "base64" content⟩)
  /-- the etag is the one of the file -/
  | unchanged {text : String} {etag tag : Option String} {body : ContentBody}
    (hetag : etag.isSome) :
      (found text etag).OnWire etag (.ok ⟨304, tag, body⟩)
  | absent {exc : RequestFailed} {sent : Option String} (hstatus : exc.statusCode = 404)
      (hlimit : exc.rateLimitExceeded = false) : notFound.OnWire sent (.error (.requestFailed exc))
  /-- any other failure but that of the credentials -/
  | fails {exc : RequestFailed} {sent : Option String} (hauth : exc.statusCode ≠ 401)
      (hother : exc.statusCode ≠ 404 ∨ exc.rateLimitExceeded = true) :
      (fails (mapError exc)).OnWire sent (.error (.requestFailed exc))

variable {file : FileState} {sent : Option String} {r : Except PyError ContentData}

/-- A failure of the endpoint is never one of the credentials. -/
theorem OnWire.error {x : PyError} (h : file.OnWire sent (.error x)) :
    ∃ exc, x = .requestFailed exc ∧ exc.statusCode ≠ 401 := by
  cases h with
  | absent hstatus => exact ⟨_, rfl, by omega⟩
  | fails hauth => exact ⟨_, rfl, hauth⟩

/-- An answer is decoded as the file. -/
theorem OnWire.decoded {response : ContentData} (h : file.OnWire sent (.ok response))
    [UnicodeDb] (repo ref path : String) :
    file.Answers sent (decodeContent repo ref path response) := by
  cases h with
  | @found text content etag _ status hstatus hlines =>
    have hbytes : b64decode content = .ok (utf8 text) := b64decode_encode hlines
    have htext : decodeUtf8 (utf8 text) = .ok text := decodeUtf8_eq_ok.mpr rfl
    refine Or.inl ?_
    unfold decodeContent
    simp only [if_neg hstatus, ne_eq, not_true_eq_false, if_false, hbytes, htext]
  | unchanged hetag => exact Or.inr ⟨rfl, hetag, rfl⟩

/-- A failure is mapped to what the file is. -/
theorem OnWire.mapped {exc : RequestFailed} (h : file.OnWire sent (.error (.requestFailed exc))) :
    (file = .notFound ∧ ∃ message, mapError exc = .gitHubNotFound message) ∨
    (file = .fails (mapError exc) ∧ ∀ message, mapError exc ≠ .gitHubNotFound message) := by
  cases h with
  | absent hstatus hlimit =>
    refine Or.inl ⟨rfl, message exc, ?_⟩
    unfold mapError
    rw [hlimit, if_neg Bool.false_ne_true, if_pos hstatus]
  | fails hauth hother =>
    refine Or.inr ⟨rfl, fun text => ?_⟩
    unfold mapError
    split_ifs with hlimit hstatus
    · exact nofun
    · rcases hother with hne | htrue
      · exact absurd hstatus hne
      · exact absurd htrue hlimit
    · exact nofun
    · exact nofun

end FileState

/-! ## What the loader gets -/

section Serves

variable [UnicodeDb] {W : Host} {owner name ref : String} {branch : Branch}

/-- The contents endpoint answers about the files of a branch as they are. -/
def Host.Hosts (W : Host) (owner name ref : String) (branch : Branch) : Prop :=
  ∀ client path etag s r s',
    W.sem (.ext (.github client (.reposGetContent owner name path ref etag))) s r s' →
      (branch path).OnWire etag r

/-- The answers of the surroundings. -/
def Host.Gives (W : Host) (e : Req) (r : Except PyError e.Resp) : Prop := ∃ s s', W.sem e s r s'

omit [UnicodeDb] in
/-- One call of the endpoint: the client that is used makes no difference, and what comes back is
the file of the branch as the wire shows it. -/
theorem callOnce_onWire (h : W.Hosts owner name ref branch) (id : Nat) (path : String)
    (etag : Option String) :
    (callOnce id (.reposGetContent owner name path ref etag)).Yields W.Gives
      fun r => (branch path).OnWire etag r := by
  refine Yields.bind (P := fun _ => True) (yields_perform ?_)
    fun client _ => yields_perform fun r ⟨s, s', hsem⟩ => h client path etag s r s' hsem
  rintro r ⟨s, s', hsem⟩
  rw [(W.mem hsem).1]
  trivial

/-- `fetch_text` answers as the file is: the retry, the decoding and the mapping of the 404 undo
what the wire does to it. -/
theorem fetchText_answers (h : W.Hosts owner name ref branch) {repo : String}
    (hrepo : splitRepo repo = .ok (owner, name)) (id : Nat) (path : String)
    (etag : Option String) :
    (fetchText id repo ref path etag).Yields W.Gives fun r => (branch path).Answers etag r := by
  have hsplit : (Py.ofExcept (splitRepo repo)).Yields W.Gives fun r => r = .ok (owner, name) :=
    yields_ofExcept hrepo
  refine Yields.bind (P := fun names => names = (owner, name)) (hsplit.mono ?_) ?_
  · rintro r rfl
    rfl
  rintro names rfl
  refine Yields.andThen (Yields.andThen ((callOnce_onWire h id path etag).mono fun r hr => ?_))
  cases r with
  | ok response => exact yields_ofExcept (hr.decoded repo ref path)
  | error x =>
    -- it is no 401, so it is mapped at once
    obtain ⟨exc, rfl, hauth⟩ := hr.error
    dsimp only
    rw [if_neg hauth]
    rcases hr.mapped with ⟨hfile, message, hmap⟩ | ⟨hfile, hmap⟩
    · rw [hmap, hfile]
      exact rfl
    · rw [hfile]
      show Prog.Yields _ _ _
      cases hexc : mapError exc with
      | gitHubNotFound message => exact absurd hexc (hmap message)
      | _ => exact rfl

/-- The loader's fetcher serves what the endpoint hosts. -/
theorem serves_forInstallation (h : W.Hosts owner name ref branch) {repo : String}
    (hrepo : splitRepo repo = .ok (owner, name)) (id : Nat) :
    W.Serves (forInstallation id) repo ref branch := by
  intro path etag s tr r s' hends
  have hyields := (fetchText_answers h hrepo id path etag).ends hends
    fun e s r s' hsem => ⟨s, s', hsem⟩
  cases r <;> exact hyields

variable [ConfigLibrary]

/-- **The config, from GitHub's answers on.** As long as the contents endpoint answers about the
default branch, and about the base branch where the default branch lists it, as their files are, a
load has the outcome the trust rule gives for these files: whatever was loaded before, however the
texts are broken into lines, and whichever etags were sent. -/
theorem config_over_wire {loader : RepoConfigLoader} {id : Nat}
    {repo baseRef defaultBranch : String}
    {contents : String → Branch} {r : Except PyError RepoConfig}
    (hrepo : splitRepo repo = .ok (owner, name)) (hfetcher : loader.fetcher = forInstallation id)
    (hmain : W.Hosts owner name defaultBranch (contents defaultBranch))
    (hbase : (contents defaultBranch).Lists baseRef →
      W.Hosts owner name baseRef (contents baseRef))
    (h : W.Loads loader repo baseRef defaultBranch r) :
    r = trustedConfig loader.defaults contents baseRef defaultBranch := by
  refine h.eq ⟨?_, fun hlists => ?_⟩
  · rw [hfetcher]
    exact serves_forInstallation hmain hrepo id
  · rw [hfetcher]
    exact serves_forInstallation (hbase hlists) hrepo id

end Serves

/-! ## A host of two branches -/

section Example

attribute [local instance] asciiDb exampleLibrary

/-- The answer about a file that does not fail. -/
def FileState.reply (file : FileState) (sent : Option String) : Except PyError ContentData :=
  match file with
  | found text etag =>
    if sent = etag ∧ etag.isSome then .ok ⟨304, none, .noContent⟩
    else .ok ⟨200, etag, .file "base64" (String.ofList (base64Encode (utf8 text)))⟩
  | notFound => .error (.requestFailed { statusCode := 404, text := "Not Found" })
  | fails _ => .error (.requestFailed { statusCode := 500, text := "" })

/-- The default branch has files, the others have none. -/
def onlyMain (main : Branch) (ref : String) : Branch :=
  if ref = "main" then main else fun _ => .notFound

def wireAnswer (main : Branch) : (e : Req) → Memory → Except PyError e.Resp × Memory
  | .ext (.github _ (.reposGetContent _ _ path ref sent)), m =>
    ((onlyMain main ref path).reply sent, m)
  | e, m => stillAnswer e m

/-- Any other request is answered as before. -/
theorem wireAnswer_eq {main : Branch} {e : Req} (m : Memory)
    (h : ∀ client owner name path ref sent,
      e ≠ .ext (.github client (.reposGetContent owner name path ref sent))) :
    wireAnswer main e m = stillAnswer e m := by
  unfold wireAnswer
  split
  · exact absurd rfl (h _ _ _ _ _ _)
  · rfl

def wireHost (main : Branch) : Host where
  State := Memory
  sem e s r s' := wireAnswer main e s = (r, s')
  memory := id
  mem h := stillHost.mem h
  frame := by
    intro e s r s' he h
    by_cases hcontent : ∃ client owner name path ref sent,
        e = .ext (.github client (.reposGetContent owner name path ref sent))
    · obtain ⟨client, owner, name, path, ref, sent, rfl⟩ := hcontent
      exact (Prod.mk.inj h).2.symm
    · rw [wireAnswer_eq s fun client owner name path ref sent heq =>
        hcontent ⟨client, owner, name, path, ref, sent, heq⟩] at h
      exact stillHost.frame he h
  possible := by
    intro e s r s' h
    by_cases hcontent : ∃ client owner name path ref sent,
        e = .ext (.github client (.reposGetContent owner name path ref sent))
    · obtain ⟨client, owner, name, path, ref, sent, rfl⟩ := hcontent
      trivial
    · rw [wireAnswer_eq s fun client owner name path ref sent heq =>
        hcontent ⟨client, owner, name, path, ref, sent, heq⟩] at h
      exact stillHost.possible h

/-- A reply is one that the endpoint may give. -/
theorem onWire_reply {file : FileState} (hfile : ∀ exc, file ≠ .fails exc) (sent : Option String) :
    file.OnWire sent (file.reply sent) := by
  cases file with
  | found text etag =>
    show (FileState.found text etag).OnWire sent (if _ then _ else _)
    split_ifs with hsent
    · rw [hsent.1]
      exact .unchanged hsent.2
    · exact .found (by decide) (base64Lines_encode _)
  | notFound => exact .absent rfl rfl
  | fails exc => exact absurd rfl (hfile exc)

/-- A file of the example never fails. -/
theorem onlyMain_ne_fails (ref path : String) (exc : PyError) :
    onlyMain exampleMain ref path ≠ .fails exc := by
  unfold onlyMain
  split
  · unfold exampleMain
    split <;> simp
  · simp

theorem hosts_wireHost (ref : String) :
    (wireHost exampleMain).Hosts "o" "r" ref (onlyMain exampleMain ref) := by
  intro client path sent s r s' h
  obtain ⟨rfl, -⟩ := Prod.mk.inj h
  exact onWire_reply (onlyMain_ne_fails ref path) sent

/-- A loader for installation 1 that has loaded nothing yet. -/
def wireLoader : RepoConfigLoader where
  fetcher := forInstallation 1
  defaults := {}
  cache := 0

/-- Its second load, for a branch the default branch trusts and that has no files. -/
def wireLoad :=
  (wireLoader.load "o/r" "release" "main").eval (wireAnswer exampleMain)
    ((wireLoader.load "o/r" "main" "main").eval (wireAnswer exampleMain) { caches := [[]] }).2.2

theorem wireLoad_loads : (wireHost exampleMain).Loads wireLoader "o/r" "release" "main"
    wireLoad.2.1 := by
  refine ⟨_, _, _, ?_, ends_eval (fun _ _ => rfl) _ _⟩
  exact .load "o/r" "main" "main" (.fresh fun key => rfl) (ends_eval (fun _ _ => rfl) _ _)

/-- It finds the config of the default branch. -/
theorem config_over_wire_release :
    wireLoad.2.1 = .ok { trustedBaseBranches := ["release"] } ∧
    wireLoad.2.1 = trustedConfig {} (onlyMain exampleMain) "release" "main" :=
  ⟨by decide +kernel, config_over_wire rfl rfl (hosts_wireHost "main")
    (fun _ => hosts_wireHost "release") wireLoad_loads⟩

end Example

end VidiPr
