import VidiPr.Config.Operator
import VidiPr.Lib.Unicode
import VidiPr.Requests

/-!
# Per-repository configuration

`config/repo.py`: the schema of `.github/vidi-pr.yml` and the loader that decides which branch's
file to believe. The YAML parser, the validation engine and the gitignore matcher are libraries;
they are one class of functions, `ConfigLibrary`.
-/

namespace VidiPr

open Effect Text

def configPath : String := ".github/vidi-pr.yml"

/-- `CACHE_TTL`, in microseconds. -/
def cacheTtl : Nat := 5 * 60 * 1000000

/-! ## The schema -/

/-- `PurePosixPath(value).is_absolute()` -/
def isAbsolute (value : String) : Bool := value.toList.head? = some '/'

/-- `PurePosixPath(value).parts`, without the root. -/
def pathParts (value : String) : List String :=
  ((splitOn '/' value.toList).map String.ofList).filter fun part => part ≠ "" && part ≠ "."

/-- A path that `project_context_file` may hold: it cannot leave the repository. -/
structure ContextPath where
  value : String
  relative : isAbsolute value = false
  noParent : ".." ∉ pathParts value
deriving DecidableEq

/-- `_validate_context_path`, on a value that is not `None`. -/
def validateContextPath (value : String) : Except String ContextPath :=
  if habs : isAbsolute value then .error "project_context_file must be a relative path"
  else if hparent : ".." ∈ pathParts value then
    .error "project_context_file cannot contain '..' segments"
  else .ok ⟨value, by simpa using habs, hparent⟩

structure ReviewConfig where
  projectContext : Option String := none
  projectContextFile : Option ContextPath := none
  languageNotes : List (String × String) := []
  focus : List String := []
  ignore : List String := []
  includeConversation : Option Bool := none
  strictness : Option Strictness := none
deriving DecidableEq

structure RepoConfig where
  enabled : Bool := true
  allowedUsers : List String := []
  allowedAssociations : List String := []
  trustedBaseBranches : List String := []
  review : ReviewConfig := {}
deriving DecidableEq

/-! ## The libraries -/

/-- A value of `yaml.safe_load`; `scalar` is one that is not a string, by its type. -/
inductive Yaml where
  | none
  | str (text : String)
  | scalar (typeName text : String)
  | list (items : List Yaml)
  | dict (items : List (Yaml × Yaml))

/-- `type(data).__name__` -/
def Yaml.typeName : Yaml → String
  | none => "NoneType"
  | str _ => "str"
  | scalar typeName _ => typeName
  | list _ => "list"
  | dict _ => "dict"

/-- How `yaml.safe_load` fails: a `YAMLError`, or an exception of another class. -/
inductive YamlFailure where
  | yamlError (message : String)
  | other (message : String)

class ConfigLibrary where
  /-- `yaml.safe_load` -/
  safeLoad : String → Except YamlFailure Yaml
  /-- `RepoConfig.model_validate`, which runs the field validator it is given -/
  modelValidate : (String → Except String ContextPath) → List (Yaml × Yaml) →
    Except String RepoConfig
  /-- `GitIgnoreSpec.from_lines(patterns).match_file(path)` -/
  matchFile : List String → String → Bool

/-- A library that knows the documents of the examples. -/
@[reducible] def exampleLibrary : ConfigLibrary where
  safeLoad
    | "" => .ok .none
    | "trusted_base_branches: [release]" =>
      .ok (.dict [(.str "trusted_base_branches", .list [.str "release"])])
    | "allowed_users: [mallory]" => .ok (.dict [(.str "allowed_users", .list [.str "mallory"])])
    | "review:\n  project_context_file: NOTES.md\n" =>
      .ok (.dict [(.str "review", .dict [(.str "project_context_file", .str "NOTES.md")])])
    | _ => .error (.other "not an example")
  modelValidate contextPath
    | [] => .ok {}
    | [(.str "trusted_base_branches", .list [.str branch])] =>
      .ok { trustedBaseBranches := [branch] }
    | [(.str "allowed_users", .list [.str user])] => .ok { allowedUsers := [user] }
    | [(.str "review", .dict [(.str "project_context_file", .str path)])] =>
      (contextPath path).map fun path => { review := { projectContextFile := some path } }
    | _ => .error "not an example"
  matchFile _ _ := false

variable [ConfigLibrary]

/-- `is_ignored`: whether one of the repository's ignore patterns matches the path. With no patterns
the library is not asked. -/
def isIgnored (repoConfig : RepoConfig) (path : String) : Bool :=
  let patterns := repoConfig.review.ignore
  if patterns.isEmpty then false else ConfigLibrary.matchFile patterns path

/-! ## Fetching -/

inductive FetchStatus where
  | found
  | notModified
  | notFound
deriving DecidableEq, Repr

structure FetchResult where
  status : FetchStatus
  content : Option String := none
  etag : Option String := none
deriving DecidableEq, Repr

namespace FetchResult

/-- `FetchResult.found` -/
def ofFound (content : String) (etag : Option String) : FetchResult :=
  { status := .found, content, etag }

/-- `FetchResult.not_modified` -/
def ofNotModified : FetchResult := { status := .notModified }

/-- `FetchResult.not_found` -/
def ofNotFound : FetchResult := { status := .notFound }

end FetchResult

/-- Neither stores nor touches an entry of a loader's cache. -/
def Req.SparesCaches : Req → Prop
  | .ext (.mem (.cachePut ..)) => False
  | .ext (.mem (.cacheTouch ..)) => False
  | _ => True

/-- The `RepoConfigFetcher` protocol. A fetcher cannot reach the cache of a loader. -/
structure RepoConfigFetcher where
  fetchText : (repo ref path : String) → (etag : Option String) → Py FetchResult
  spares : ∀ repo ref path etag, (fetchText repo ref path etag).Calls Req.SparesCaches

/-- A loader object; `cache` addresses its dictionary, which no other loader of the process has. -/
structure RepoConfigLoader where
  fetcher : RepoConfigFetcher
  defaults : DefaultsConfig
  cache : Nat

namespace RepoConfigLoader

/-- `RepoConfigLoader(fetcher, defaults=…)`. Each loader has a dictionary of its own, which lives as
long as the loader: the memory hands out its address. -/
def new (fetcher : RepoConfigFetcher) (defaults : DefaultsConfig) : Py RepoConfigLoader := do
  let cache ← Py.mem .newLoader
  return { fetcher, defaults, cache }

/-- `_parse`. An empty document counts as an empty mapping; anything but a mapping, and whatever
fails the validation, is a `RepoConfigError`. What `yaml.safe_load` raises beside a `YAMLError` gets
out as it is. -/
def parse (text : String) : Except PyError RepoConfig :=
  let validate (data : List (Yaml × Yaml)) :=
    match ConfigLibrary.modelValidate validateContextPath data with
    | .ok config => .ok config
    | .error exc => .error (.repoConfigError ("per-repo config failed validation: " ++ exc))
  match ConfigLibrary.safeLoad text with
  | .error (.yamlError exc) =>
    .error (.repoConfigError ("per-repo config is not valid YAML: " ++ exc))
  | .error (.other message) => .error (.other message)
  | .ok .none => validate []
  | .ok (.dict data) => validate data
  | .ok data =>
    .error (.repoConfigError ("per-repo config must be a YAML mapping, not " ++ data.typeName))

/-- `_absent_config`: what applies where the default branch has no config file. The operator's
defaults decide, nobody is listed by name, and no base branch is trusted. -/
def absentConfig (defaults : DefaultsConfig) : RepoConfig where
  enabled := defaults.enabled
  allowedUsers := []
  allowedAssociations := absentConfigAllowedAssociations
  trustedBaseBranches := []
  review := {
    includeConversation := some defaults.includeConversation
    strictness := some defaults.strictness }

/-- The update `_resolve_project_context` makes: a copy of the config with the text of the file in
it. -/
def withContext (config : RepoConfig) (content : String) : RepoConfig :=
  { config with review := { config.review with projectContext := some content } }

variable (loader : RepoConfigLoader)

/-- `_cached_fetch`. A young entry is served without a request. An older one is revalidated with its
etag, and its age starts anew when the host answers `NOT_MODIFIED`; any other answer replaces it,
also one that finds no file. -/
def cachedFetch (repo ref path : String) : Py (Option String) := do
  let key := (repo, ref, path)
  let now ← Py.utcnow
  let entry ← Py.mem (.cacheGet loader.cache key)
  match entry with
  | some (entryRef, entry) =>
    if now < entry.fetchedAt + cacheTtl then return entry.content
    else do
      let result ← loader.fetcher.fetchText repo ref path entry.etag
      if result.status = .notModified then do
        Py.mem (.cacheTouch entryRef now)
        return entry.content
      else store key now result
  | none => do
    let result ← loader.fetcher.fetchText repo ref path none
    store key now result
where
  /-- What follows the fetch, unless an entry was revalidated. -/
  store (key : CacheKey) (now : Nat) (result : FetchResult) : Py (Option String) :=
    if result.status = .notFound then do
      Py.mem (.cachePut loader.cache key { etag := none, content := none, fetchedAt := now })
      return none
    else do
      Py.mem (.cachePut loader.cache key
        { etag := result.etag, content := result.content, fetchedAt := now })
      return result.content

/-- `_resolve_project_context`: the file that the config names is read on the same branch as the
config, past the cache. A file that is not there leaves the config as it is. -/
def resolveProjectContext (repo ref : String) (config : RepoConfig) : Py RepoConfig :=
  match config.review.projectContextFile with
  | none => return config
  | some path => do
    let result ← loader.fetcher.fetchText repo ref path.value none
    if result.status = .notFound ∨ result.status = .notModified then return config
    else match result.content with
      | none => return config
      | some content => return withContext config content

/-- `load`. The default branch decides first: it must have a config, and its config must list the
base branch, before the config of the base branch is looked at. A base branch without a config falls
back on that of the default branch. -/
def load (repo baseRef defaultBranch : String) : Py RepoConfig := do
  let defaultBranchText ← loader.cachedFetch repo defaultBranch configPath
  match defaultBranchText with
  | none => return absentConfig loader.defaults
  | some text => do
    let defaultBranchConfig ← Py.ofExcept (parse text)
    if baseRef ≠ defaultBranch ∧ baseRef ∈ defaultBranchConfig.trustedBaseBranches then do
      let baseRefText ← loader.cachedFetch repo baseRef configPath
      match baseRefText with
      | none => loader.resolveProjectContext repo defaultBranch defaultBranchConfig
      | some text => do
        let baseRefConfig ← Py.ofExcept (parse text)
        loader.resolveProjectContext repo baseRef baseRefConfig
    else loader.resolveProjectContext repo defaultBranch defaultBranchConfig

section Calls

variable {P : Req → Prop} {loader : RepoConfigLoader}
  (hmem : ∀ op, P (.ext (.mem op)))
  (hfetch : ∀ repo ref path etag, (loader.fetcher.fetchText repo ref path etag).Calls P)
include hmem hfetch

omit [ConfigLibrary] in
theorem cachedFetch_calls (hnow : P (.ext .utcnow)) (repo ref path : String) :
    (loader.cachedFetch repo ref path).Calls P := by
  have hstore : ∀ key now result, (cachedFetch.store loader key now result).Calls P := by
    intro key now result
    unfold cachedFetch.store
    split
    · exact (Prog.calls_perform (hmem _)).bind fun _ => trivial
    · exact (Prog.calls_perform (hmem _)).bind fun _ => trivial
  refine (Prog.calls_perform hnow).bind fun now => ?_
  refine (Prog.calls_perform (hmem _)).bind fun entry => ?_
  cases entry with
  | none => exact (hfetch ..).bind fun result => hstore _ _ result
  | some entry =>
    dsimp only
    split
    · trivial
    · refine (hfetch ..).bind fun result => ?_
      split
      · exact (Prog.calls_perform (hmem _)).bind fun _ => trivial
      · exact hstore _ _ result

/-- A load makes the requests of its fetcher, and accesses to the clock and the dictionaries. -/
theorem load_calls (hnow : P (.ext .utcnow)) (repo baseRef defaultBranch : String) :
    (loader.load repo baseRef defaultBranch).Calls P := by
  have hcontext : ∀ ref config, (loader.resolveProjectContext repo ref config).Calls P := by
    intro ref config
    unfold resolveProjectContext
    split
    · trivial
    · refine (hfetch ..).bind fun result => ?_
      split
      · trivial
      · split <;> trivial
  refine (cachedFetch_calls hmem hfetch hnow ..).bind fun text => ?_
  cases text with
  | none => trivial
  | some text =>
    refine (Prog.calls_ofExcept _).bind fun config => ?_
    split
    · refine (cachedFetch_calls hmem hfetch hnow ..).bind fun baseText => ?_
      cases baseText with
      | none => exact hcontext _ _
      | some baseText => exact (Prog.calls_ofExcept _).bind fun baseConfig => hcontext _ _
    · exact hcontext _ _

end Calls

end RepoConfigLoader

end VidiPr
