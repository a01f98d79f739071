import ScriptLint.Config.Basic
import ScriptLint.Pattern.Include

/-!
# Finding scripts

The scripts of a project are the files below a directory that match a pattern, in the order of their
paths component by component. A file or directory is left out, with everything below it, if an
ignore pattern matches its path from the project's root, its path from the directory, or its name.
-/

namespace ScriptLint

/-- Orders the entries of every directory by name. -/
def FileTree.sorted : FileTree → FileTree
  | .file content => .file content
  | .dir entries => .dir (Entries.sorted (sortedEntries entries))
where
  /-- Orders what is below each entry. -/
  sortedEntries : List (Bytes × FileTree) → List (Bytes × FileTree)
    | [] => []
    | (name, t) :: es => (name, t.sorted) :: sortedEntries es

namespace Discovery

/-- Why no scripts are found. -/
inductive Error where
  | badInclude (pattern : Bytes)
  | badIgnore (pattern : Bytes) (reason : Glob.Error)
  | unwalkable (base : Bytes) (cause : FileError)

/-- The wording of a discovery error. -/
def Error.message : Error → Bytes
  | .badInclude p => bytes "invalid include pattern " ++ Quoted.quote p
  | .badIgnore p reason =>
    bytes "invalid ignore pattern " ++ Quoted.quote p ++ bytes ": " ++ reason.message
  | .unwalkable base e => bytes "walking " ++ Quoted.quote base ++ bytes ": " ++ e.message

/-- A search: the components of the directory and of the root, and which paths are included and
ignored. -/
structure Search where
  base : List Bytes
  root : List Bytes
  includes : Bytes → Bool
  ignores : Bytes → Bool

namespace Search

/-- The path from the root of something below the directory. -/
def display (s : Search) (rel : List Bytes) : Bytes := Path.relative s.root (s.base ++ rel)

/-- The path from the directory. -/
def below (rel : List Bytes) : Bytes := joinBytes [Path.slash] rel

/-- Whether an entry is left out, by one of its three names. -/
def isIgnored (s : Search) (rel : List Bytes) : Bool :=
  s.ignores (s.display rel) || s.ignores (below rel) || s.ignores (rel.getLastD [])

mutual

/-- The files of a node that are found, as components below the directory, in the order they are
met. -/
def walk (s : Search) (rel : List Bytes) : FileTree → List (List Bytes)
  | .file _ => if s.includes (below rel) then [rel] else []
  | .dir entries => walkEntries s rel entries

/-- The files of a directory's entries that are found. -/
def walkEntries (s : Search) (rel : List Bytes) : List (Bytes × FileTree) → List (List Bytes)
  | [] => []
  | (name, t) :: es =>
    (if s.isIgnored (rel ++ [name]) then [] else walk s (rel ++ [name]) t) ++ walkEntries s rel es

end

/-- The order of the results: by the components of their paths from the root. -/
def before (s : Search) (a b : List Bytes) : Bool :=
  Path.componentsLt (splitBytes Path.slash (s.display a)) (splitBytes Path.slash (s.display b))

/-- The files found below a node that stands for the directory. -/
def results (s : Search) (t : FileTree) : List (List Bytes) :=
  (s.walkEntries [] t.sorted.entries).mergeSort fun a b => !s.before b a

end Search

/-- Compiles ignore patterns; the first one that does not compile is refused. -/
def compileIgnored (patterns : List Bytes) : Except Error (List Glob.Matcher) :=
  patterns.mapM fun p =>
    match Glob.compile p with
    | .ok m => .ok m
    | .error reason => .error (.badIgnore p reason)

/-- The absolute paths of the scripts below a directory. An empty directory is the working
directory, an empty root is the directory, and without patterns the default ones are taken. -/
def discover (w : World) (base root : Bytes) (patterns : Option (List Bytes))
    (ignored : List Bytes) : Except Error (List Bytes) := do
  let base := if base = [] then Path.here else base
  let baseParts := Path.locate w.cwd base
  let patterns := patterns.getD Config.defaultPatterns
  patterns.forM fun p => if Include.isValid p then .ok () else .error (.badInclude p)
  let ignored ← compileIgnored ignored
  let search : Search :=
    { base := baseParts
      root := if root = [] then baseParts else Path.locate w.cwd root
      includes := fun rel => patterns.any fun p => Include.accepts p rel
      ignores := fun path => ignored.any fun m => Glob.accepts m path }
  let place := Path.render baseParts
  match w.lookup place with
  | .error cause => .error (.unwalkable base ⟨bytes "lstat", place, cause⟩)
  | .ok t => return (search.results t).map fun rel => Path.render (baseParts ++ rel)

end Discovery

end ScriptLint
