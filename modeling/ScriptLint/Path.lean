import ScriptLint.Text.Utf8

/-!
# Paths

Paths are byte strings with slashes between their components. Everything here is lexical: `clean`
removes empty components, `.` and inner `..`; `absolute` puts a relative path behind the working
directory first; and `relative` leads from one absolute path to another. An absolute clean path is
held as the list of its components, so that joining and relativising are operations on lists.
-/

namespace ScriptLint.Path

/-- The byte of a slash. -/
def slash : UInt8 := 0x2F

/-- The component for the directory itself. -/
def here : Bytes := bytes "."

/-- The component for the directory above. -/
def up : Bytes := bytes ".."

/-- Whether a path starts at the root. -/
def isAbsolute (p : Bytes) : Bool := p.head? == some slash

/-- The parts between slashes, without empty ones and `.`. -/
def components (p : Bytes) : List Bytes :=
  (splitBytes slash p).filter fun c => c ≠ [] ∧ c ≠ here

/-- Takes one component after components in reverse: `..` takes the last one back, unless that is
itself `..`; at the root it goes nowhere. -/
def step (rooted : Bool) (before : List Bytes) (c : Bytes) : List Bytes :=
  if c = up then
    match before with
    | [] => if rooted then [] else [up]
    | d :: ds => if d = up then up :: d :: ds else ds
  else c :: before

/-- The components that are left when every `..` has taken back what stands before it. -/
def settle (rooted : Bool) (cs : List Bytes) : List Bytes := (cs.foldl (step rooted) []).reverse

/-- An absolute path from its components. -/
def render (cs : List Bytes) : Bytes := slash :: joinBytes [slash] cs

/-- The shortest lexically equivalent path. -/
def clean (p : Bytes) : Bytes :=
  if isAbsolute p then render (settle true (components p))
  else
    match settle false (components p) with
    | [] => here
    | cs => joinBytes [slash] cs

/-- One path after another, clean; an empty one is left out. -/
def join (a b : Bytes) : Bytes :=
  if a = [] then (if b = [] then [] else clean b) else clean (a ++ slash :: b)

/-- The components of the absolute form of a path, seen from a working directory. -/
def locate (cwd : List Bytes) (p : Bytes) : List Bytes :=
  settle true (if isAbsolute p then components p else cwd ++ components p)

/-- The absolute form of a path. -/
def absolute (cwd : List Bytes) (p : Bytes) : Bytes := render (locate cwd p)

/-- What is left of two lists after the components they share at the front. -/
def afterShared : List Bytes → List Bytes → List Bytes × List Bytes
  | a :: as, b :: bs => if a = b then afterShared as bs else (a :: as, b :: bs)
  | as, bs => (as, bs)

/-- The components that lead from one absolute place to another. -/
def between (base target : List Bytes) : List Bytes :=
  let rest := afterShared base target
  List.replicate rest.1.length up ++ rest.2

/-- The path that leads from one absolute place to another. -/
def relative (base target : List Bytes) : Bytes :=
  match between base target with
  | [] => here
  | cs => joinBytes [slash] cs

/-- The way from one path to another as far as it can be told from them. It cannot when only one of
them starts at the root, or when the first one has a `..` left where they part. -/
def relative? (base target : Bytes) : Option Bytes :=
  let bs := settle (isAbsolute base) (components base)
  let ts := settle (isAbsolute target) (components target)
  if isAbsolute base ≠ isAbsolute target ∨ (afterShared bs ts).1.head? = some up then none
  else some (relative bs ts)

/-- The directory part of a path, clean. -/
def directory (p : Bytes) : Bytes := clean (p.reverse.dropWhile (· != slash)).reverse

/-- Order of slash paths, one component at a time. A path that ends first comes first. -/
def componentsLt : List Bytes → List Bytes → Bool
  | _, [] => false
  | [], _ :: _ => true
  | a :: as, b :: bs => bytesLt a b || (a == b && componentsLt as bs)

/-- A path relative to a root, for showing. Without a root, or where the way from the root cannot be
told, the path stays as it was given. -/
def display (cwd : List Bytes) (root path : Bytes) : Bytes :=
  if root = [] then path
  else (relative? (absolute cwd root) (absolute cwd path)).getD path

end ScriptLint.Path
