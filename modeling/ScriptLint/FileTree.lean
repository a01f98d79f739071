import ScriptLint.Path

/-!
# Directory trees

The files that the linter reads are data: a tree of directories and files, and a working directory
in it. Paths are followed component by component, as an operating system does it: `.` and `..` are
taken where they stand, and every component but the last must be a directory.
-/

namespace ScriptLint

/-- A file with its content, or a directory with its entries. -/
inductive FileTree where
  | file (content : Bytes)
  | dir (entries : List (Bytes × FileTree))
deriving Inhabited, Repr

/-- A tree and the absolute place of the working directory in it. -/
structure World where
  tree : FileTree
  cwd : List Bytes
deriving Repr

/-- Why the system refuses a path. -/
inductive PathError where
  | notFound
  | notDirectory
  | isDirectory
  | nameTooLong
  | invalid
deriving DecidableEq, Repr

/-- The wording of a refused path. -/
def PathError.message : PathError → Bytes
  | .notFound => bytes "no such file or directory"
  | .notDirectory => bytes "not a directory"
  | .isDirectory => bytes "is a directory"
  | .nameTooLong => bytes "file name too long"
  | .invalid => bytes "invalid argument"

/-- A refused operation on a path. -/
structure FileError where
  operation : Bytes
  path : Bytes
  cause : PathError
deriving DecidableEq, Repr

/-- The wording of a refused operation. -/
def FileError.message (e : FileError) : Bytes :=
  e.operation ++ bytes " " ++ e.path ++ bytes ": " ++ e.cause.message

namespace FileTree

/-- The entries of a directory; a file has none. -/
def entries : FileTree → List (Bytes × FileTree)
  | .file _ => []
  | .dir es => es

/-- Whether a node is a directory. -/
def isDir : FileTree → Bool
  | .file _ => false
  | .dir _ => true

/-- The entry of a name. -/
def child? (name : Bytes) (t : FileTree) : Option FileTree :=
  (t.entries.find? (·.1 == name)).map (·.2)

mutual

/-- The files of a tree, each with the names that lead to it. -/
def files : FileTree → List (List Bytes × Bytes)
  | .file content => [([], content)]
  | .dir entries => filesOf entries

/-- The files of a directory's entries. -/
def filesOf : List (Bytes × FileTree) → List (List Bytes × Bytes)
  | [] => []
  | (name, t) :: es => (files t).map (fun f => (name :: f.1, f.2)) ++ filesOf es

end

/-- The longest name of a component. -/
def nameLimit : Nat := 255

/-- The longest path, the terminator included. -/
def pathLimit : Nat := 4096

/-- Follows components from a node, with the directories above it, the nearest first. -/
def follow : (above : List FileTree) → FileTree → List Bytes → Except PathError FileTree
  | _, node, [] => .ok node
  | above, node, c :: cs =>
    match node with
    | .file _ => .error .notDirectory
    | .dir es =>
      if c = [] ∨ c = Path.here then follow above node cs
      else if c = Path.up then
        match above with
        | [] => follow [] node cs
        | d :: ds => follow ds d cs
      else if nameLimit < c.length then .error .nameTooLong
      else
        match es.find? (·.1 == c) with
        | none => .error .notFound
        | some e => follow (node :: above) e.2 cs

/-- Sets what a path of names leads to, inside directories that exist already. -/
def put : FileTree → List Bytes → (new : FileTree) → FileTree
  | _, [], new => new
  | .dir es, c :: cs, new =>
    let old := ((es.find? (·.1 == c)).map (·.2)).getD (.dir [])
    .dir (es.filter (·.1 != c) ++ [(c, put old cs new)])
  | .file x, _ :: _, _ => .file x

end FileTree

namespace World

/-- What a path leads to, from the working directory. -/
def lookup (w : World) (p : Bytes) : Except PathError FileTree :=
  if p.contains 0 then .error .invalid
  else if p = [] then .error .notFound
  else if FileTree.pathLimit ≤ p.length then .error .nameTooLong
  else
    let parts := splitBytes Path.slash p
    w.tree.follow [] (if Path.isAbsolute p then parts else w.cwd ++ parts)

/-- Whether anything is at a path. -/
def exists? (w : World) (p : Bytes) : Bool := (w.lookup p).isOk

/-- Whether a directory is at a path. -/
def isDirectory (w : World) (p : Bytes) : Bool :=
  match w.lookup p with
  | .ok node => node.isDir
  | .error _ => false

/-- The files that are new or changed from one state of the tree to another. -/
def changes (before after : World) : List (List Bytes × Bytes) :=
  after.tree.files.filter fun f => !before.tree.files.contains f

/-- The content of the file at a path. A directory can be opened and fails on reading. -/
def readFile (w : World) (p : Bytes) : Except FileError Bytes :=
  match w.lookup p with
  | .ok (.file content) => .ok content
  | .ok (.dir _) => .error ⟨bytes "read", p, .isDirectory⟩
  | .error cause => .error ⟨bytes "open", p, cause⟩

/-- Writes the file at a path whose directory exists. -/
def writeFile (w : World) (p content : Bytes) : Except FileError World :=
  let fail (cause : PathError) : Except FileError World := .error ⟨bytes "open", p, cause⟩
  match w.lookup p with
  | .ok (.dir _) => fail .isDirectory
  | .error .notFound =>
    match w.lookup (Path.directory p) with
    | .ok (.dir _) => .ok { w with tree := w.tree.put (Path.locate w.cwd p) (.file content) }
    | .ok (.file _) => fail .notDirectory
    | .error cause => fail cause
  | .ok (.file _) => .ok { w with tree := w.tree.put (Path.locate w.cwd p) (.file content) }
  | .error cause => fail cause

end World

end ScriptLint
