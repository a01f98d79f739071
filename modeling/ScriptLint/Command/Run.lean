import ScriptLint.Command.Check

/-!
# All commands

The first argument names the command; without one, or with flags only, scripts are checked.
-/

namespace ScriptLint

/-- The help about the program. -/
def programHelp : Bytes :=
  bytes "Usage: ahklint [command] [flags]\n\n"
    ++ bytes "Commands:\n"
    ++ bytes "  check     Lint AutoHotkey scripts (default)\n"
    ++ bytes "  rules     List available rules, or show one rule\n"
    ++ bytes "  init      Generate a default .ahklint.yml config file\n"
    ++ bytes "  version   Print version and exit\n\n"
    ++ bytes "Global flags:\n"
    ++ bytes "  -h, --help      Show this help\n\n"
    ++ bytes "Run 'ahklint <command> --help' for more information on a command.\n"

/-- The line that tells the version. -/
def versionLine : Bytes := bytes "ahklint (devel)\n"

/-! ### Listing rules -/

/-- The help about the rules command. -/
def rulesHelp : Bytes :=
  bytes "Usage: ahklint rules [name]\n\n"
    ++ bytes "List available rules, or show the settings of one rule.\n"

/-- The rules command: a table of all rules or of one. -/
def runRules (g : Registry) (w : World) (c : Call) (arguments : List Bytes) : Reply :=
  let sink : Sink := { limit := c.outputLimit }
  let shown (infos : List RuleInfo) : Reply :=
    { code := 0, stdout := sink.writeEach (RuleInfo.table infos), world := w }
  match Flag.parse [] arguments with
  | .error .help => { code := 0, stdout := sink, stderr := rulesHelp, world := w }
  | .error .invalid => { code := 2, stdout := sink, world := w }
  | .ok p =>
    match p.words with
    | [] => shown (g.all.map .ofRule)
    | [name] =>
      match g.find? name with
      | some r => shown [.ofRule r]
      | none =>
        { code := 2, stdout := sink, stderr := Refusal.text (.unknownRule ⟨name⟩), world := w }
    | _ =>
      { code := 2, stdout := sink
        stderr := programLine (bytes "rules takes at most one argument"), world := w }

/-! ### Writing a configuration -/

/-- The flags of the init command. -/
def initFlags : List Flag :=
  [{ name := bytes "dir", kind := .text, purpose := bytes "Directory to write the config file to"
     initial := bytes "." }]

/-- The help about the init command. -/
def initHelp : Bytes :=
  bytes "Usage: ahklint init [--dir DIR]\n\n"
    ++ bytes "Generate a default " ++ Config.fileName ++ bytes " config file.\n"
    ++ Flag.describe initFlags

/-- The init command: a configuration file with the defaults spelled out, where there is none. -/
def runInit (g : Registry) (w : World) (c : Call) (arguments : List Bytes) : Reply :=
  let sink : Sink := { limit := c.outputLimit }
  let refuse (message : Bytes) : Reply :=
    { code := 2, stdout := sink, stderr := programLine message, world := w }
  match Flag.parse initFlags arguments with
  | .error .help => { code := 0, stdout := sink, stderr := initHelp, world := w }
  | .error .invalid => { code := 2, stdout := sink, world := w }
  | .ok p =>
    if !p.words.isEmpty then refuse (bytes "init takes no arguments")
    else
      let path := Path.join ((p.last? "dir").getD Path.here) Config.fileName
      if w.exists? path then refuse (path ++ bytes " already exists")
      else
        match w.writeFile path (Config.fullDefaults g).render with
        | .error e => refuse (bytes "writing " ++ path ++ bytes ": " ++ e.message)
        | .ok w =>
          { code := 0, stdout := sink, stderr := programLine (bytes "created " ++ path)
            world := w }

/-! ### The program -/

/-- What a call asks for. -/
inductive Command where
  | help
  | check (arguments : List Bytes)
  | rules (arguments : List Bytes)
  | init (arguments : List Bytes)
  | version
  | unknown (name : Bytes)
deriving DecidableEq, Repr

/-- The command that arguments name. Flags in the first place belong to a check. -/
def Command.ofArguments : List Bytes → Command
  | [] => .check []
  | a :: rest =>
    if a = bytes "--help" ∨ a = bytes "-h" ∨ a = bytes "help" then .help
    else if a.head? = some 0x2D then .check (a :: rest)
    else if a = bytes "check" then .check rest
    else if a = bytes "rules" then .rules rest
    else if a = bytes "init" then .init rest
    else if a = bytes "version" then .version
    else .unknown a

/-- Answers a call of the program. -/
def runProgram (g : Registry) (w : World) (c : Call) : Reply :=
  let sink : Sink := { limit := c.outputLimit }
  match Command.ofArguments c.arguments with
  | .help => { code := 0, stdout := sink, stderr := programHelp, world := w }
  | .check arguments => runCheck g w c arguments
  | .rules arguments => runRules g w c arguments
  | .init arguments => runInit g w c arguments
  | .version => { code := 0, stdout := (sink.write versionLine).1, world := w }
  | .unknown name =>
    { code := 2, stdout := sink
      stderr := programLine (bytes "unknown command " ++ Quoted.quote name) ++ bytes "\n"
        ++ programHelp
      world := w }

end ScriptLint
