import ScriptLint.FileTree
import ScriptLint.Rule.Registry

/-!
# Choosing rules by name

The rules of a run are named by a file with one name on each line, by arguments with names between
commas, or by neither, and then every registered rule runs. The file's names come first, and only
the first occurrence of a name counts.
-/

namespace ScriptLint.Selection

/-- How many bytes are looked at for the end of a line. -/
def lineLimit : Nat := 65536

/-- A rule list has a line that is too long. -/
inductive ListError where
  | lineTooLong
deriving DecidableEq, Repr

/-- The wording for a line that is too long. -/
def ListError.message : ListError → Bytes
  | .lineTooLong => bytes "bufio.Scanner: token too long"

/-- A line without the carriage return at its end. -/
def dropReturn (line : Bytes) : Bytes :=
  if line.getLast? = some 0x0D then line.dropLast else line

/-- Takes the first line off, without its ending, and leaves what follows its line feed. Only so
many bytes are held: when that many are held and none of them is a line feed, the line is too long,
and when there are fewer, the end of the data ends the last line, if anything is left for one. -/
def nextLine (data : Bytes) : Except ListError (Option (Bytes × Bytes)) :=
  let held := data.take lineLimit
  let line := held.takeWhile (· != 0x0A)
  if line.length < held.length then .ok (some (dropReturn line, data.drop (line.length + 1)))
  else if held.length = lineLimit then .error .lineTooLong
  else if data = [] then .ok none
  else .ok (some (dropReturn data, []))

/-- A line that is taken off leaves less. -/
theorem length_lt_of_nextLine {data line rest : Bytes}
    (h : nextLine data = .ok (some (line, rest))) :
    rest.length < data.length := by
  simp only [nextLine] at h
  split at h
  · next hline =>
    obtain ⟨-, rfl⟩ := Prod.mk.inj (Option.some.inj (Except.ok.inj h))
    rw [List.length_take] at hline
    rw [List.length_drop]
    omega
  · split at h
    · cases h
    · split at h
      · cases h
      · next hnil =>
        obtain ⟨-, rfl⟩ := Prod.mk.inj (Option.some.inj (Except.ok.inj h))
        exact List.length_pos_iff.mpr hnil

/-- The name on a line: what stands before a number sign, without white space around it. -/
def nameOn (line : Bytes) : Bytes := trimBytes (line.takeWhile (· != 0x23))

/-- The names on the lines of a rule list, behind names that were found before. A line that is too
long leaves none of them. -/
def namesFrom (found : List Bytes) (data : Bytes) : Except ListError (List Bytes) :=
  match h : nextLine data with
  | .error e => .error e
  | .ok none => .ok found
  | .ok (some (line, rest)) =>
    have : rest.length < data.length := length_lt_of_nextLine h
    let name := nameOn line
    namesFrom (if name = [] then found else found ++ [name]) rest
termination_by data.length

/-- The names of a rule list, one on each line that has one. -/
def parseList (data : Bytes) : Except ListError (List Bytes) := namesFrom [] data

/-- Why a rule file gives no names. -/
inductive ReadError where
  | unreadable (path : Bytes) (cause : FileError)
  | malformed (path : Bytes) (cause : ListError)
deriving DecidableEq, Repr

/-- The wording of a read error. A file that cannot be opened is named by the cause alone. -/
def ReadError.message : ReadError → Bytes
  | .unreadable path e =>
    if e.operation = bytes "open" then bytes "reading rule file: " ++ e.message
    else bytes "reading rule file " ++ Quoted.quote path ++ bytes ": " ++ e.message
  | .malformed path e =>
    bytes "reading rule file " ++ Quoted.quote path ++ bytes ": " ++ e.message

/-- The names in a rule file. -/
def readList (w : World) (path : Bytes) : Except ReadError (List Bytes) :=
  match w.readFile path with
  | .error e => .error (.unreadable path e)
  | .ok data => (parseList data).mapError (.malformed path)

/-- The names in argument values, between commas and without white space around them. -/
def splitArguments (values : List Bytes) : List Bytes :=
  (values.flatMap fun v => (splitBytes 0x2C v).map trimBytes).filter (· ≠ [])

/-- The names without repetitions, each at its first place. -/
def dedup (names : List Bytes) : List Bytes :=
  names.foldl (fun kept n => if kept.contains n then kept else kept ++ [n]) []

/-- Whether nothing was named, so that every rule runs. -/
def isOpen (fromFile fromArguments : List Bytes) : Bool := fromFile.isEmpty && fromArguments.isEmpty

/-- The names to run: those of the file, then those of the arguments, or all of them when there are
none. -/
def resolve (fromFile fromArguments all : List Bytes) : List Bytes :=
  dedup (if isOpen fromFile fromArguments then all else fromFile ++ fromArguments)

end ScriptLint.Selection
