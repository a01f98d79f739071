import ScriptLint.Discovery

/-!
# Walking a directory

A walk visits the nodes below a directory one after the other: a directory before what is in it, and
the entries of a directory in the order of their names. What visits them may shut a directory, and
then nothing in it is visited; a file that is shut ends the walk of the directory that it is in. The
scripts of a project are collected on such a walk, each under the path that it is shown by, and are
put in order at the end. `Discovery` tells which files these are; here they are found by a visitor
that is given one path after the other and works out its names from it.
-/

namespace ScriptLint

/-! ### Walks -/

/-- What is to happen after a visit. -/
inductive Visited where
  | proceed
  | shut
deriving DecidableEq, Repr

/-- What visits nodes: it is given the path of one, and whether it is a directory. -/
abbrev Visitor (m : Type → Type) := Bytes → Bool → m Visited

section Walk

variable {m : Type → Type} [Monad m]

mutual

/-- Walks a node with a path. A directory that is shut is done with. -/
def walkNode (visit : Visitor m) (path : Bytes) : FileTree → m Visited
  | .file _ => visit path false
  | .dir entries => do
    match ← visit path true with
    | .shut => return .proceed
    | .proceed =>
      walkNodes visit path entries
      return .proceed

/-- Walks the entries of a directory, up to a file that is shut. -/
def walkNodes (visit : Visitor m) (path : Bytes) : List (Bytes × FileTree) → m Unit
  | [] => return
  | (name, t) :: es => do
    match ← walkNode visit (Path.join path name) t with
    | .shut => return
    | .proceed => walkNodes visit path es

end

end Walk

namespace Discovery

/-! ### Collecting scripts -/

/-- A script that is found: its path, and the one that it is shown by. -/
structure Found where
  path : Bytes
  shown : Bytes
deriving DecidableEq, Repr

/-- What has been collected so far. -/
structure Collected where
  seen : List Bytes := []
  found : List Found := []

/-- The last component of a path. -/
def lastName (path : Bytes) : Bytes := (splitBytes Path.slash path).getLastD []

namespace Search

/-- Whether something is left out, by its path from the directory and the one that it is shown by.
-/
def leavesOut (s : Search) (rel shown : Bytes) : Bool :=
  s.ignores shown || s.ignores rel || s.ignores (lastName rel)

/-- Visits a node. What is left out is shut if it is a directory; an included file is collected if
it has not been seen. -/
def visit (s : Search) : Visitor (StateM Collected) := fun path isDir => do
  match Path.relative? (Path.render s.base) path with
  | none => return .proceed
  | some rel =>
    if rel = Path.here then
      return .proceed
    let shown := (Path.relative? (Path.render s.root) path).getD rel
    if s.leavesOut rel shown then
      return if isDir then .shut else .proceed
    if isDir then
      return .proceed
    let c ← get
    if s.includes rel && !c.seen.contains path then
      set { seen := path :: c.seen, found := c.found ++ [⟨path, shown⟩] : Collected }
    return .proceed

/-- What is collected from the node that stands for the directory, in the order in which it is
met. -/
def collect (s : Search) (t : FileTree) : List Found :=
  ((walkNode s.visit (Path.render s.base) t.sorted).run {}).2.found

end Search

/-- Puts scripts in the order of the paths that they are shown by. -/
def inOrder (found : List Found) : List Found :=
  found.mergeSort fun a b =>
    !Path.componentsLt (splitBytes Path.slash b.shown) (splitBytes Path.slash a.shown)

/-- The search that patterns ask for, if all of them can be used. -/
def searchFor (w : World) (base root : Bytes) (patterns ignored : List Bytes) :
    Except Error Search := do
  patterns.forM fun p => if Include.isValid p then .ok () else .error (.badInclude p)
  let ignored ← compileIgnored ignored
  return {
    base := Path.locate w.cwd base
    root := if root = [] then Path.locate w.cwd base else Path.locate w.cwd root
    includes := fun rel => patterns.any fun p => Include.accepts p rel
    ignores := fun path => ignored.any fun m => Glob.accepts m path }

/-- The absolute paths of the scripts below a directory, found on a walk. -/
def discoverOnWalk (w : World) (base root : Bytes) (patterns : Option (List Bytes))
    (ignored : List Bytes) : Except Error (List Bytes) := do
  let base := if base = [] then Path.here else base
  let search ← searchFor w base root (patterns.getD Config.defaultPatterns) ignored
  let place := Path.render search.base
  match w.lookup place with
  | .error cause => .error (.unwalkable base ⟨bytes "lstat", place, cause⟩)
  | .ok t => return (inOrder (search.collect t)).map (·.path)

end Discovery

end ScriptLint
