import Abacus.CommandLine.Program

/-!
# The command line

What the program needs to know of the disk is read into a file tree first, and what has changed in
the tree is written back after every step; everything in between is pure.
-/

namespace Abacus

namespace Disk

/-- The path of a file as text. -/
def pathText (path : List String) : String :=
  "/" ++ "/".intercalate path

/-- What the disk holds at a path below a directory. -/
def node? (path : List String) : IO (Option FileNode) := do
  try
    return some (.file (← IO.FS.readBinFile (pathText path)))
  catch
    | .inappropriateType .. => return some .directory
    | _ => return none

/-- Reads what the disk holds at a path and above it. -/
def readPath (tree : FileTree) (above : List String) : List String → IO FileTree
  | [] => return tree
  | ".." :: rest => readPath tree above.dropLast rest
  | name :: rest => do
    let path := above ++ [name]
    match ← node? path with
    | some .directory => readPath (tree.put path .directory) path rest
    | some node => return tree.put path node
    | none => return tree

/-- Reads what the disk holds at the place that a text names. -/
def read (tree : FileTree) (text? : Option String) : IO FileTree := do
  match text? with
  | none => return tree
  | some text => readPath tree [] (tree.start text ++ FileTree.names text)

/-- Writes what a tree holds and another one does not. -/
def write (before after : FileTree) : IO Unit := do
  for (path, node) in after.nodes.reverse do
    match node, before.node? path with
    | .directory, none => IO.FS.createDirAll (pathText path)
    | .file bytes, some (.file old) =>
      if bytes.data ≠ old.data then IO.FS.writeBinFile (pathText path) bytes
    | .file bytes, _ => IO.FS.writeBinFile (pathText path) bytes
    | .directory, _ => pure ()

end Disk

namespace Program

/-- Where the program runs. -/
def environment : IO Environment := do
  let home ← IO.getEnv "HOME"
  let directory (name inHome : String) : IO (Option String) := do
    match ← IO.getEnv name with
    | some path => if path.startsWith "/" then return some path else return home.map (· ++ inHome)
    | none => return home.map (· ++ inHome)
  return {
    configHome := ← directory "XDG_CONFIG_HOME" "/.config"
    dataHome := ← directory "XDG_DATA_HOME" "/.local/share"
    logFilter := ← IO.getEnv "RUST_LOG" }

/-- What the program needs to know of the disk. -/
def readFiles (env : Environment) (options : Options) : IO FileTree := do
  let current := ((← IO.currentDir).toString.splitOn "/").filter (· ≠ "")
  let tree ← Disk.read { current } (some (Disk.pathText current))
  let tree ← Disk.read tree (env.configPath options)
  match Config.load tree (env.configPath options) with
  | .error _ => return tree
  | .ok c => Disk.read tree (env.storePath options c)

/-- Prints and writes what a machine gained, and forgets that it is new. -/
def flush (before : FileTree) (m : Machine) : IO Machine := do
  for record in m.log do
    IO.eprintln record.line
  IO.eprint m.notes
  IO.print m.output
  (← IO.getStdout).flush
  Disk.write before m.files
  return { m with output := "", notes := "", log := [] }

/-- A line of the input; none if it is no text. -/
def readLine? : IO (Option String) := do
  try
    return some (← (← IO.getStdin).getLine)
  catch _ => return none

/-- Answers line after line; tells whether all lines were text. -/
partial def answerLines (m : Machine) (s : Session) : IO Bool := do
  let m ← flush m.files (m.perform (.print Repl.prompt))
  match ← readLine? with
  | none =>
    let _ ← flush m.files (m.report .unreadableInput)
    return false
  | some "" => return true
  | some line =>
    let x := Repl.step s (← IO.monoMsNow) line
    let m ← flush m.files (m.performAll x.effects)
    match x.value with
    | some s => answerLines m s
    | none => return true

/-- Runs a command; tells whether it succeeded. -/
def runOnDisk (options : Options) (command : Command) : IO Bool := do
  let env ← environment
  let files ← readFiles env options
  match command, start env files options with
  | .repl, (m, .ok c) =>
    let e := Command.evaluator c m.store.get?
    let m ← flush files (m.performAll e.effects)
    answerLines m { evaluator := e.value }
  | _, _ =>
    let (m, outcome) := run env files options (← IO.monoMsNow) [] command
    let _ ← flush files m
    return outcome.isOk

end Program

end Abacus

open Abacus in
/-- Does what the command line asks for. -/
def main (arguments : List String) : IO UInt32 := do
  match Request.ofArguments? arguments with
  | none =>
    IO.eprint Program.usage
    return 2
  | some .help =>
    IO.print Program.usage
    return 0
  | some .version =>
    IO.print Program.version
    return 0
  | some (.run options command) =>
    return if ← Program.runOnDisk options command then 0 else 1
