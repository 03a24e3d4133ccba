import Abacus.CommandLine.Basic
import Abacus.CommandLine.Failure
import Abacus.CommandLine.Repl
import Abacus.Config
import Abacus.Formula.Library
import Abacus.Keypad.Basic
import Abacus.Keypad.Token

/-!
# What commands do

A command reads what the store holds and then asks for effects (`Command.run`).  A command that
fails has not printed its answer.
-/

namespace Abacus

namespace Command

/-- The evaluator with the given settings. -/
def evaluator (c : Config) (get? : String → Option String) : Traced Evaluator :=
  Evaluator.load c.variableMatch c.celebrationTime get?

/-- Some words as one text. -/
def joinWords (words : List String) : String :=
  " ".intercalate words

/-- Answers a text. -/
def runEval (c : Config) (get? : String → Option String) (now : Nat) (words : List String) :
    Traced Unit := do
  let e ← evaluator c get?
  let (_, outcome) ← e.submit now (joinWords words)
  .printLine outcome.description

/-- The keypad after the keys that some words spell. -/
def pressTokens (k : Keypad) : List String → Except Failure Keypad
  | [] => .ok k
  | token :: rest =>
    match Keypad.Event.ofToken token with
    | .error key => .error (.unknownKey key token)
    | .ok events => pressTokens (k.pressAll events) rest

/-- Presses keys and prints the display. -/
def runKeypad (scientific : Bool) (keys : List String) : Traced (Except Failure Unit) := do
  let variant := if scientific then .scientific else .basic
  match pressTokens { variant } keys with
  | .error failure => return .error failure
  | .ok k =>
    .printLine k.display
    return .ok ()

/-- A point as a line. -/
def pointLine (p : Point) : String :=
  Style.plain.write p.x ++ "\t" ++ Style.plain.write p.y

/-- Prints the points of a plot. -/
def runPlot (c : Config) (get? : String → Option String) (now : Nat) (words : List String) :
    Traced (Except Failure Unit) := do
  let e ← evaluator c get?
  let (_, outcome) ← e.submit now (joinWords words)
  match outcome.plot? with
  | some p =>
    .printLines (p.points.map pointLine)
    return .ok ()
  | none => return .error (.notPlottable outcome.display)

/-- Shows or clears the history. -/
def runHistory (c : Config) (get? : String → Option String) (clear : Bool) : Traced Unit := do
  let e ← evaluator c get?
  if clear then
    let _ ← e.clearHistory
    .printLine Repl.cleared
  else .printLines (e.history.map fun i => i.input ++ "\t" ++ i.result)

/-- Shows the precision, perhaps after setting it. -/
def runPrecision (c : Config) (get? : String → Option String) (value : Option Nat) :
    Traced Unit := do
  let e ← evaluator c get?
  let e ← match value with
    | some value => e.setPrecision value
    | none => .ok e
  .printLine e.precision.repr

/-- The assessments that some words spell. -/
def assessments (words : List String) : Except Failure (List Assessment) :=
  if words = [] then .ok Assessment.defaults
  else words.mapM fun w => (Assessment.parse w).mapError .assessment

/-- Prints a final mark and what makes it doubtful. -/
def runMarks (words : List String) : Traced (Except Failure Unit) := do
  match assessments words with
  | .error failure => return .error failure
  | .ok rows =>
    let s := MarkSummary.ofAssessments rows
    .notes (s.issues.map fun i => "warning: " ++ i.message)
    .printLine ((if s.isValid then "Final internal mark: " else "Unverified mark: ") ++ s.text)
    return .ok ()

end Command

namespace FormulaCommand

/-- A formula as a line, with its position. -/
def formulaLine (f : Formula) (position : Nat) : String :=
  position.repr ++ ": " ++ f.name ++ " = " ++ f.expression ++ "  [" ++
    ", ".intercalate f.parameters ++ "]"

/-- The name and the value in a text with an equals sign between them. -/
def assignment (text : String) : Except Failure (String × String) :=
  match Text.cutFirst? '=' text.toList with
  | some (name, value) => .ok (.ofList (Text.trimChars name), .ofList value)
  | none => .error (.notAssignment text)

/-- The values for the variables of a formula; the last one for a variable counts. -/
def inputs (values : List String) : Except Failure Formula.Inputs :=
  List.reverse <$> values.mapM assignment

/-- Adds a formula. -/
def runAdd (l : Library) (name expression declaration : String) :
    Traced (Except Failure Unit) := do
  match Formula.define name expression declaration with
  | .error e => return .error (.formula e)
  | .ok f =>
    match ← l.add f with
    | .error e => return .error (.formula e)
    | .ok _ =>
      .printLine "Formula saved successfully!"
      return .ok ()

/-- Removes a formula. -/
def runRemove (l : Library) (position : Nat) : Traced (Except Failure Unit) := do
  match ← l.remove position with
  | .error e => return .error (.formula e)
  | .ok (f, _) =>
    .printLine ("Removed " ++ f.name)
    return .ok ()

/-- Evaluates a formula. -/
def runEval (l : Library) (position : Nat) (values : List String) :
    Traced (Except Failure Unit) := do
  match inputs values with
  | .error failure => return .error failure
  | .ok inputs =>
    match ← l.evaluate position inputs with
    | .error e => return .error (.formula e)
    | .ok answer =>
      .printLine answer
      return .ok ()

/-- Carries out a command of the formula library. -/
def run (get? : String → Option String) (command : FormulaCommand) :
    Traced (Except Failure Unit) := do
  let l ← Library.load get?
  match command with
  | add name expression declaration => runAdd l name expression declaration
  | list =>
    .printLines (l.formulas.zipIdx.map fun (f, i) => formulaLine f i)
    return .ok ()
  | remove position => runRemove l position
  | eval position values => runEval l position values

end FormulaCommand

/-- Carries out a command; `lines` is what there is to be read, with the times. -/
def Command.run (c : Config) (get? : String → Option String) (now : Nat)
    (lines : List (Nat × String)) : Command → Traced (Except Failure Unit)
  | eval words => .ok <$> runEval c get? now words
  | repl => do
    Repl.run { evaluator := ← evaluator c get? } lines
    return .ok ()
  | keypad scientific keys => runKeypad scientific keys
  | plot words => runPlot c get? now words
  | history clear => .ok <$> runHistory c get? clear
  | precision value => .ok <$> runPrecision c get? value
  | suggestions => do
    .printLines Input.suggestions
    return .ok ()
  | formula command => command.run get?
  | marks words => runMarks words

end Abacus
