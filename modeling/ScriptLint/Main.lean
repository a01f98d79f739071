import ScriptLint.Command.Run

/-!
# The command line

A call is answered from the files as data, so what it can reach is read first: the places that its
arguments name, the marks in the directories on the way there, and the directory that is searched
for scripts. Then the call is answered, its output is written, and its files are stored.
-/

namespace ScriptLint.CommandLine

/-! ### Reading files -/

/-- A place on the disk. -/
def onDisk (parts : List Bytes) :=
  (· / String.ofList (Utf8.lossy (Path.render parts))) <$> IO.currentDir

/-- How far below a directory its files are read. -/
def depthLimit : Nat := 128

/-- What stands at a place, down to a depth; nothing where nothing can be read. -/
def readTree : (depth : Nat) → (parts : List Bytes) → IO (Option FileTree)
  | depth, parts => do
    let place ← onDisk parts
    if ← place.isDir then
      match depth with
      | 0 => return some (.dir [])
      | depth + 1 =>
        let names := (← place.readDir).toList.map fun e => bytes e.fileName
        let entries ← names.filterMapM fun name => do
          return (← readTree depth (parts ++ [name])).map fun t => (name, t)
        return some (.dir entries)
    else if ← place.pathExists then
      try return some (.file (← IO.FS.readBinFile place).toList)
      catch _ => return none
    else return none

/-- Adds what stands at a place, unless something is there already. -/
def addPlace (w : World) (depth : Nat) (parts : List Bytes) : IO World := do
  if w.exists? (Path.render parts) then return w
  match ← readTree depth parts with
  | some t => return { w with tree := w.tree.put parts t }
  | none => return w

/-- Adds a place with the directories on the way there, and the marks in them. -/
def addWay (w : World) (parts : List Bytes) : IO World := do
  let ways := (List.range (parts.length + 1)).map parts.take
  let places := ways.flatMap fun way =>
    [way, way ++ [Config.fileName], way ++ [Config.repositoryMark]]
  places.foldlM (addPlace · 0) w

/-- The paths that an argument may name: itself, what follows an equals sign, or what follows a
letter. -/
def namedPaths (argument : Bytes) : List Bytes :=
  [argument, argument.drop 2] ++ ((Flag.splitEquals argument).2).toList

/-- The files that a call can reach. -/
def reach (g : Registry) (arguments : List Bytes) : IO World := do
  let cwd := Path.components (bytes (← IO.currentDir).toString)
  let w ← addWay { tree := .dir [], cwd } cwd
  let named := (arguments.flatMap namedPaths).map (Path.locate cwd)
  let w ← named.foldlM addWay w
  match Command.ofArguments arguments with
  | .check rest =>
    match searchedDirectory? g w rest with
    | some base =>
      let parts := Path.locate cwd base
      let w ← addWay w parts
      match ← readTree depthLimit parts with
      | some t => return { w with tree := w.tree.put parts t }
      | none => return w
    | none => return w
  | _ => return w

/-! ### Input and output -/

/-- The standard input, which is read only when it is asked for. -/
def readInput (arguments : List Bytes) : IO Input := do
  if !arguments.contains (bytes "-") then return .data []
  try
    let stdin ← IO.getStdin
    let mut content := ByteArray.empty
    repeat
      let piece ← stdin.read 65536
      if piece.isEmpty then break
      content := content ++ piece
    return .data content.toList
  catch e => return .broken (bytes (toString e))

/-- Whether the standard output shows colours. -/
def showsColours : IO Bool := do
  if (← IO.getEnv "NO_COLOR").any (· ≠ "") then return false
  if (← IO.getEnv "TERM") = some "dumb" then return false
  (← IO.getStdout).isTty

/-- Writes bytes to a stream. -/
def put (stream : IO.FS.Stream) (content : Bytes) : IO Unit := stream.write ⟨content.toArray⟩

/-- Answers a call and carries out what the answer says. -/
def run (arguments : List Bytes) : IO UInt32 := do
  let g := Registry.standard
  let w ← reach g arguments
  let input ← readInput arguments
  let reply := runProgram g w { arguments, input, colours := ← showsColours }
  for (parts, content) in World.changes w reply.world do
    IO.FS.writeBinFile (← onDisk parts) ⟨content.toArray⟩
  reply.stdout.written.forM (put (← IO.getStdout))
  let stderr ← IO.getStderr
  put stderr reply.stderr
  match reply.crash with
  | some message => put stderr (bytes "panic: " ++ message ++ bytes "\n"); return 2
  | none => return reply.code.toUInt32

end ScriptLint.CommandLine

/-- Runs the program on the arguments of the command line. -/
def main (arguments : List String) : IO UInt32 :=
  ScriptLint.CommandLine.run (arguments.map ScriptLint.bytes)
