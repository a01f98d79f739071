import ScriptLint.Entries
import ScriptLint.FileTree
import ScriptLint.Pattern.Matcher
import ScriptLint.Rule.Registry

/-!
# Configurations

A configuration names the directory with the scripts, the files to take and to leave out, the number
of workers, and what each rule is told: to be off, to be on, or to be on with settings. Overrides
change the rules for the files that a pattern matches; later ones win.
-/

namespace ScriptLint

/-! ### What a configuration holds -/

/-- What a rule is told. Settings may be absent, which differs from being empty. -/
structure RuleEntry where
  enabled : Bool := false
  settings : Option Settings := none
deriving Inhabited

/-- Rules for the files that one of some patterns matches. -/
structure Override where
  files : List Bytes := []
  rules : Entries RuleEntry := []
deriving Inhabited

/-- A configuration. Empty lists, an empty directory and zero workers stand for what is not said. -/
structure Config where
  scripts : Bytes := []
  patterns : List Bytes := []
  ignored : List Bytes := []
  jobs : Int := 0
  rules : Entries RuleEntry := []
  overrides : List Override := []
deriving Inhabited

namespace Config

/-- The directory that marks the root of a repository, above which nothing is looked for. -/
def repositoryMark : Bytes := bytes ".git"

/-- The name of the configuration file. -/
def fileName : Bytes := bytes ".ahklint.yml"

/-- The directory with the scripts when none is named. -/
def defaultScripts : Bytes := bytes "scripts"

/-- The files that are taken when no pattern is given. -/
def defaultPatterns : List Bytes := [bytes "**/*.ahk"]

/-- Every registered rule on, without settings of its own. -/
def defaults (g : Registry) : Config where
  scripts := defaultScripts
  patterns := defaultPatterns
  rules := g.names.map fun name => (name, { enabled := true })

/-- The defaults with the settings of every rule that takes some spelled out. -/
def fullDefaults (g : Registry) : Config where
  scripts := defaultScripts
  patterns := defaultPatterns
  rules := g.all.map fun r =>
    (r.name, { enabled := true, settings := r.configurable.map (·.defaults) })

/-- A loaded configuration on top of defaults: its rules win one by one, what it leaves unsaid is
taken from the defaults, and what it ignores and overrides is its own. -/
def merge (base : Config) : (loaded : Option Config) → Config
  | none => { base with ignored := [], overrides := [] }
  | some c =>
    { scripts := if c.scripts = [] then base.scripts else c.scripts
      patterns := if c.patterns = [] then base.patterns else c.patterns
      ignored := c.ignored
      jobs := if c.jobs = 0 then base.jobs else c.jobs
      rules := base.rules.overlay c.rules
      overrides := c.overrides }

/-- Whether a path matches a pattern; one that does not compile matches nothing. -/
def matchesPattern (path pattern : Bytes) : Bool :=
  match Glob.compile pattern with
  | .ok m => Glob.accepts m path
  | .error _ => false

/-- The rules for a file: those of the configuration, and over them those of each override that
matches the file, in order. A rule that is missing is on without settings of its own. -/
def effective (c : Config) (path : Bytes) : Entries RuleEntry :=
  c.overrides.foldl
    (fun rules o => if o.files.any (matchesPattern path) then rules.overlay o.rules else rules)
    c.rules

/-! ### Checking -/

/-- What is wrong with a configuration. -/
inductive Problem where
  | noFiles (index : Nat)
  | badPattern (index : Nat) (pattern : Bytes) (reason : Glob.Error)
  | unknownRules (names : List Bytes)
  | negativeJobs (jobs : Int)

/-- The wording of a problem. -/
def Problem.message : Problem → Bytes
  | .noFiles i => bytes "overrides[" ++ natBytes i ++ bytes "]: files must not be empty"
  | .badPattern i p reason =>
    bytes "overrides[" ++ natBytes i ++ bytes "]: invalid pattern " ++ Quoted.quote p
      ++ bytes ": " ++ reason.message
  | .unknownRules names =>
    bytes "config references unknown rules: " ++ joinBytes (bytes ", ") names
  | .negativeJobs n => bytes "jobs must not be negative, got " ++ intBytes n

/-- Checks an override: it names files, and its patterns compile. -/
def checkOverride (index : Nat) (o : Override) : Except Problem Unit := do
  if o.files.isEmpty then throw (.noFiles index)
  o.files.forM fun p =>
    match Glob.compile p with
    | .ok _ => return ()
    | .error reason => throw (.badPattern index p reason)

/-- The names of rules that are mentioned and not registered, in byte order. -/
def unknownRules (g : Registry) (c : Config) : List Bytes :=
  let mentioned := c.rules.map (·.1) ++ c.overrides.flatMap fun o => o.rules.map (·.1)
  sortBytes (mentioned.filter fun name => (g.find? name).isNone)

/-- Checks a configuration: the overrides first, then the rules, then the number of workers. -/
def validate (g : Registry) (c : Config) : Except Problem Unit := do
  (c.overrides.zipIdx).forM fun (o, i) => checkOverride i o
  let unknown := c.unknownRules g
  if unknown ≠ [] then throw (.unknownRules unknown)
  if c.jobs < 0 then throw (.negativeJobs c.jobs)

/-! ### Finding the file -/

/-- Looks for the configuration file in a directory given by its components in reverse, and in those
above it, up to one that holds a repository. -/
def discoverFrom (w : World) : (reversed : List Bytes) → Option Bytes
  | [] => (searchIn []).getD none
  | c :: above => (searchIn (c :: above)).getD (discoverFrom w above)
where
  /-- The file in one directory; an empty answer ends the search. -/
  searchIn (reversed : List Bytes) : Option (Option Bytes) :=
    let dir := Path.render reversed.reverse
    let candidate := Path.join dir fileName
    if w.exists? candidate then some (some candidate)
    else if w.isDirectory (Path.join dir repositoryMark) then some none
    else none

/-- The nearest configuration file from a directory upwards. -/
def discover? (w : World) (start : Bytes) : Option Bytes :=
  discoverFrom w (Path.locate w.cwd start).reverse

end Config

end ScriptLint
