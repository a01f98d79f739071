import ScriptLint.Command.Basic

/-!
# The check command

Checking is prepared first: the flags, the configuration, the rules, their settings and the files.
Anything refused ends the command before a script is read or anything is written. Then the run
follows, and its findings are written as they come up, or at the end as one document.
-/

namespace ScriptLint

/-! ### Options -/

/-- The flags of the command. -/
def checkFlags : List Flag :=
  [{ name := bytes "rules", letter := some 0x72, kind := .texts
     purpose := bytes "Rule to apply (repeatable, comma-separated)" },
   { name := bytes "rule-file", kind := .text
     purpose := bytes "File listing rule names, one per line" },
   { name := bytes "root", kind := .text
     purpose := bytes
       "Project root (default: directory of the config file, else current directory)" },
   { name := bytes "scripts", kind := .text
     purpose := bytes "Scripts directory relative to the root (default \"scripts\")" },
   { name := bytes "config", letter := some 0x63, kind := .text
     purpose := bytes "Override config file path" },
   { name := bytes "format", letter := some 0x66, kind := .text
     purpose := bytes "Output format: text, json", initial := bytes "text" },
   { name := bytes "jobs", letter := some 0x6A, kind := .int
     purpose := bytes "Number of files checked in parallel (default from config, else 1)" },
   { name := bytes "no-color", kind := .switch, purpose := bytes "Disable ANSI colors" },
   { name := bytes "quiet", letter := some 0x71, kind := .switch
     purpose := bytes "Suppress diagnostic output; only set the exit code" },
   { name := bytes "verbose", letter := some 0x76, kind := .switch
     purpose := bytes "Show config, rules, and files on stderr" }]

/-- The help about the command. -/
def checkHelp : Bytes :=
  bytes "Usage: ahklint check [flags] [-]\n\n"
    ++ bytes "Lint AutoHotkey v2 scripts.\n\n"
    ++ bytes "Without --rules or --rule-file every available rule runs.\n"
    ++ bytes "Names from --rule-file come first, then --rules; duplicates are dropped.\n"
    ++ bytes "Pass - to lint stdin instead of the scripts directory.\n\n"
    ++ bytes "Flags:\n" ++ Flag.describe checkFlags

/-- The options of a check. A quiet one keeps no log. -/
structure CheckOptions where
  rules : List Bytes
  ruleFile : Bytes
  root : Bytes
  scripts : Bytes
  config : Bytes
  format : ReportFormat
  jobs : Int
  noColour : Bool
  quiet : Bool
  verbose : Bool
  fromInput : Bool

/-- The options that the arguments ask for. -/
def CheckOptions.ofParsed (p : Parsed) : Except Refusal CheckOptions := do
  let formatName := (p.last? "format").getD (bytes "text")
  let format ←
    if formatName = bytes "text" then pure ReportFormat.text
    else if formatName = bytes "json" then pure ReportFormat.json
    else throw (.unknownFormat formatName)
  let jobs := p.number "jobs"
  if jobs < 0 then throw .negativeJobs
  let fromInput := p.words = [bytes "-"]
  if !fromInput && !p.words.isEmpty then throw (.unexpectedArguments p.words)
  let quiet := p.isOn "quiet"
  return {
    rules := p.all "rules"
    ruleFile := p.text "rule-file"
    root := p.text "root"
    scripts := p.text "scripts"
    config := p.text "config"
    format
    jobs
    noColour := p.isOn "no-color"
    quiet
    verbose := p.isOn "verbose" && !quiet
    fromInput }

/-! ### Preparation -/

/-- A step of the preparation, with the lines for the log. -/
abbrev Preparing (α : Type) := ExceptT Refusal (StateM (List Bytes)) α

namespace Preparing

/-- Adds a line to the log. -/
def note (line : Bytes) : Preparing Unit := modify fun log => log ++ [line]

/-- A step that may be refused. -/
def lift {α ε : Type} (refuse : ε → Refusal) (e : Except ε α) : Preparing α :=
  match e with
  | .ok a => pure a
  | .error e => throw (refuse e)

end Preparing

/-- The configuration file: the one asked for, else the nearest one from the root asked for or the
working directory upwards; empty if there is none. -/
def configPath (w : World) (o : CheckOptions) : Bytes :=
  if o.config = [] then
    (Config.discover? w (if o.root = [] then Path.render w.cwd else o.root)).getD []
  else o.config

/-- The root of the project: the one asked for, else the directory of the configuration file, else
the working directory. -/
def projectRoot (w : World) (o : CheckOptions) : Bytes :=
  if o.root ≠ [] then o.root
  else if configPath w o = [] then Path.render w.cwd
  else Path.directory (configPath w o)

open Preparing in
/-- The configuration in the configuration file, if there is one. -/
def loadFile (w : World) (o : CheckOptions) : Preparing (Option Config) := do
  if configPath w o = [] then
    note (bytes "config: none")
    return none
  else
    let c ← lift .config (Config.load w (configPath w o))
    note (bytes "config: " ++ configPath w o)
    return some c

open Preparing in
/-- The configuration on top of the defaults, and the root. -/
def loadConfig (g : Registry) (w : World) (o : CheckOptions) : Preparing (Config × Bytes) := do
  let c := (Config.defaults g).merge (← loadFile w o)
  lift .problem (c.validate g)
  return (c, projectRoot w o)

/-- The directory that is searched for scripts: the one asked for, else the configured one. -/
def scriptsBase (o : CheckOptions) (c : Config) (root : Bytes) : Bytes :=
  Path.join root (if o.scripts = [] then c.scripts else o.scripts)

/-- What a check works on: a runner, and the files, or else the standard input. -/
structure CheckPlan where
  runner : Runner
  files : Option (List Bytes)

open Preparing in
/-- Prepares a check. -/
def prepareCheck (g : Registry) (w : World) (o : CheckOptions) : Preparing CheckPlan := do
  let (config, root) ← loadConfig g w o
  let rules ← lift id (selectRules g w o.ruleFile o.rules)
  let runner : Runner :=
    { config, rules, root, jobs := if o.jobs = 0 then config.jobs else o.jobs }
  lift .settings runner.validate
  if o.fromInput then return { runner, files := none }
  let base := scriptsBase o config root
  let files ←
    lift .discovery (Discovery.discover w base root (some config.patterns) config.ignored)
  note (bytes "scripts: " ++ base ++ bytes " (" ++ natBytes files.length ++ bytes " files)")
  return { runner, files := some files }

/-- The directory that a check with these arguments searches, when it comes to that. -/
def searchedDirectory? (g : Registry) (w : World) (arguments : List Bytes) : Option Bytes := do
  let parsed ← (Flag.parse checkFlags arguments).toOption
  let o ← (CheckOptions.ofParsed parsed).toOption
  if o.fromInput then none
  else
    let (config, root) ← ((loadConfig g w o).run []).1.toOption
    return scriptsBase o config root

/-! ### The run -/

/-- The name that the standard input is reported under. -/
def inputName : Bytes := bytes "<stdin>"

/-- The outcome of the standard input. -/
def checkInput (r : Runner) : Input → Outcome
  | .broken reason => .failed (.input reason)
  | .data content =>
    match decodeScript content with
    | .error e => .failed (.inputEncoding e)
    | .ok text => r.checkSource inputName text

/-- The outcome of a prepared check. -/
def CheckPlan.outcome (p : CheckPlan) (w : World) (input : Input) : Outcome :=
  match p.files with
  | none => checkInput p.runner input
  | some files => p.runner.run w false files

/-- The line about a report that was not accepted. -/
def writeErrorLine : Bytes := programLine (bytes "error writing output: " ++ Sink.refusal)

/-- Writes the report of an outcome, and after it the errors. A document that is not accepted ends
the command at once, while text that is not accepted is reported after the errors. -/
def concludeCheck (o : CheckOptions) (colours : Bool) (out : Outcome) (s : Sink) :
    Nat × Sink × Bytes :=
  let errors := out.errors.flatMap fun e => programLine e.message
  let code := exitCode (!out.diagnostics.isEmpty) (!out.errors.isEmpty)
  if o.quiet then (code, s, errors)
  else
    match o.format with
    | .text =>
      match ReportFormat.text.report (colours && !o.noColour) out.emitted s with
      | (s, true) => (code, s, errors)
      | (s, false) => (2, s, errors ++ writeErrorLine)
    | .json =>
      match ReportFormat.json.report false out.diagnostics s with
      | (s, true) => (code, s, errors)
      | (s, false) => (2, s, writeErrorLine)

/-- The check command. -/
def runCheck (g : Registry) (w : World) (c : Call) (arguments : List Bytes) : Reply :=
  let sink : Sink := { limit := c.outputLimit }
  match Flag.parse checkFlags arguments with
  | .error .help => { code := 0, stdout := sink, stderr := checkHelp, world := w }
  | .error .invalid => { code := 2, stdout := sink, world := w }
  | .ok parsed =>
    match CheckOptions.ofParsed parsed with
    | .error r => { code := 2, stdout := sink, stderr := r.text, world := w }
    | .ok o =>
      let (prepared, log) := (prepareCheck g w o).run []
      let written (lines : List Bytes) : Bytes := Log.write (some { enabled := o.verbose }) lines
      match prepared with
      | .error r =>
        { code := 2, stdout := sink, stderr := written log ++ r.text, world := w,
          crash := r.crash? }
      | .ok plan =>
        let out := plan.outcome w c.input
        let (code, sink, errors) := concludeCheck o c.colours out sink
        { code, stdout := sink, stderr := written (log ++ out.log) ++ errors, world := w,
          crash := out.crash? }

end ScriptLint
