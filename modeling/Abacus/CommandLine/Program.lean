import Abacus.CommandLine.Arguments
import Abacus.CommandLine.Run
import Abacus.Log.Filter

/-!
# The program

The program reads its settings, opens its store and carries out a command.  It acts on a machine:
the files, the store that is open, and what has been printed and logged.  Since commands only ask
for effects, these are carried out one by one (`Machine.perform`).

A command line that cannot be understood has the exit status 2, and a command that fails has the
exit status 1 (`Program.invoke`).
-/

namespace Abacus

/-! ### Machines -/

/-- What the program acts on. -/
structure Machine where
  files : FileTree
  store : Store := .memory {}
  /-- Which log records are kept. -/
  filter : Log.Filter := .errors
  /-- What was printed. -/
  output : String := ""
  /-- What was printed beside the output. -/
  notes : String := ""
  log : List Log.Record := []

namespace Machine

/-- Keeps the log records that the filter accepts. -/
def keep (m : Machine) (records : List Log.Record) : Machine :=
  { m with log := m.log ++ records.filter m.filter.accepts }

/-- Carries out an effect. -/
def perform (m : Machine) : Effect → Machine
  | .log record => m.keep [record]
  | .save key value =>
    let (store, files, records) := m.store.save m.files key value
    { m with store, files }.keep records
  | .print text => { m with output := m.output ++ text }
  | .note line => { m with notes := m.notes ++ line ++ "\n" }

/-- Carries out effects in order. -/
def performAll (m : Machine) (effects : List Effect) : Machine :=
  effects.foldl perform m

theorem performAll_append (m : Machine) (es fs : List Effect) :
    m.performAll (es ++ fs) = (m.performAll es).performAll fs :=
  List.foldl_append

/-- Reports a failure. -/
def report (m : Machine) (failure : Failure) : Machine :=
  { m with notes := m.notes ++ failure.report }

end Machine

/-! ### Settings and store -/

/-- Where the program runs. -/
structure Environment where
  /-- The directory of settings. -/
  configHome : Option String := none
  /-- The directory of data. -/
  dataHome : Option String := none
  /-- The log filter that takes the place of the settings. -/
  logFilter : Option String := none
deriving Repr, Inhabited

/-- The place of a file below a directory. -/
def Environment.below (directory : Option String) (file : String) : Option String :=
  directory.map (· ++ "/counton/" ++ file)

/-- The file with the settings. -/
def Environment.configPath (env : Environment) (options : Options) : Option String :=
  options.config <|> below env.configHome "config.toml"

/-- The file of the store; none means that nothing is kept. -/
def Environment.storePath (env : Environment) (options : Options) (c : Config) : Option String :=
  if options.ephemeral then none
  else options.store <|> c.storePath <|> below env.dataHome "store.json"

/-- The settings in the file at a path; without a file, the defaults. -/
def Config.load (files : FileTree) : Option String → Except Failure Config
  | none => .ok {}
  | some path =>
    if files.contains path then
      match files.read path with
      | .error e => .error (.unreadableConfig path e)
      | .ok text =>
        match Config.parse text with
        | none => .error (.invalidConfig path)
        | some c => .ok c
    else .ok {}

/-- The text of the log filter. -/
def Config.logFilter (c : Config) : String :=
  ",".intercalate (c.defaultLevel :: c.partLevels.map fun (part, level) => part ++ "=" ++ level)

/-- Opens the store at a path. -/
def Store.«open» (files : FileTree) : Option String → Traced (Except Failure Store)
  | none => return .ok (.memory {})
  | some path => do
    match ← Store.File.open files path with
    | .error e => return .error (.unreadableStore path e)
    | .ok f => return .ok (.file f)

/-! ### Running -/

namespace Program

/-- What the program is called, and its version. -/
def version : String := "counton 0.1.0\n"

/-- How the program is used. -/
def usage : String :=
  "Usage: counton [--config PATH] [--store PATH] [--ephemeral] [COMMAND]\n\n" ++
    "Commands:\n" ++
    "  eval TEXT...               answer a calculation, a function of x, or a question\n" ++
    "  repl                       answer line after line\n" ++
    "  keypad [--scientific] KEYS...\n" ++
    "                             press keys, e.g. 3 + 4 + 5 =\n" ++
    "  plot EXPRESSION...         print the points of a function of x\n" ++
    "  history [--clear]          show or clear the history\n" ++
    "  precision [VALUE]          show or set the precision of answers\n" ++
    "  suggestions                list inputs to try\n" ++
    "  formula add NAME EXPRESSION VARIABLES\n" ++
    "                             add a formula\n" ++
    "  formula list               list the formulas\n" ++
    "  formula remove INDEX       remove a formula\n" ++
    "  formula eval INDEX [NAME=VALUE...]\n" ++
    "                             evaluate a formula\n" ++
    "  marks [NAME:OBTAINED/TOTAL@WEIGHTAGE...]\n" ++
    "                             sum up marks\n"

/-- Reads the settings and opens the store; the machine is then ready for a command. -/
def start (env : Environment) (files : FileTree) (options : Options) :
    Machine × Except Failure Config :=
  let m : Machine := { files }
  match Config.load files (env.configPath options) with
  | .error failure => (m, .error failure)
  | .ok c =>
    let filterText := env.logFilter.getD c.logFilter
    let m := { m with filter := .parse filterText }
    let m := m.performAll ((Log.Filter.complaints filterText).map .note)
    let opened := Store.open files (env.storePath options c)
    let m := m.performAll opened.effects
    match opened.value with
    | .error failure => (m, .error failure)
    | .ok store => ({ m with store }, .ok c)

/-- Runs a command; the failure is the one that the program stops with. -/
def run (env : Environment) (files : FileTree) (options : Options) (now : Nat)
    (lines : List (Nat × String)) (command : Command) : Machine × Except Failure Unit :=
  match start env files options with
  | (m, .error failure) => (m.report failure, .error failure)
  | (m, .ok c) =>
    let x := command.run c m.store.get? now lines
    let m := m.performAll x.effects
    match x.value with
    | .error failure => (m.report failure, .error failure)
    | .ok () => (m, .ok ())

/-! ### The command line -/

/-- What there is to be read. -/
structure Reading where
  /-- Lines, each with the time when it is read. -/
  lines : List (Nat × String) := []
  /-- Whether a line comes after them that is no text. -/
  breaksOff : Bool := false
deriving DecidableEq, Repr, Inhabited

/-- Runs a command on what there is to be read; a session that comes to a line that is no text stops
there with a failure. -/
def runOn (env : Environment) (files : FileTree) (options : Options) (now : Nat)
    (reading : Reading) (command : Command) : Machine × Except Failure Unit :=
  match run env files options now reading.lines command with
  | (m, .ok ()) =>
    if command = .repl ∧ reading.breaksOff ∧ !Repl.quits reading.lines then
      (m.report .unreadableInput, .error .unreadableInput)
    else (m, .ok ())
  | (m, .error failure) => (m, .error failure)

/-- Does what a command line asks for; the number is the exit status. -/
def invoke (env : Environment) (files : FileTree) (now : Nat) (reading : Reading)
    (arguments : List String) : Machine × Nat :=
  match Request.ofArguments? arguments with
  | none => ({ files, notes := usage }, 2)
  | some .help => ({ files, output := usage }, 0)
  | some .version => ({ files, output := version }, 0)
  | some (.run options command) =>
    match runOn env files options now reading command with
    | (m, .ok ()) => (m, 0)
    | (m, .error _) => (m, 1)

end Program

end Abacus
