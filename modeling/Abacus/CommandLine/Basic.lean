/-!
# Commands

What the program can be asked to do on its command line (`Command`), and the options that all
commands have (`Options`).
-/

namespace Abacus

/-- The options of all commands. -/
structure Options where
  /-- The file with the settings. -/
  config : Option String := none
  /-- The file of the store. -/
  store : Option String := none
  /-- Keeps everything in memory. -/
  ephemeral : Bool := false
deriving DecidableEq, Repr, Inhabited

/-- What can be done with the formula library. -/
inductive FormulaCommand
  | add (name expression declaration : String)
  | list
  | remove (position : Nat)
  /-- Evaluates a formula; each value is given as `name=value`. -/
  | eval (position : Nat) (values : List String)
deriving DecidableEq, Repr

/-- What the program can be asked to do. -/
inductive Command
  /-- Answers a text, which is given in words. -/
  | eval (words : List String)
  /-- Answers line after line. -/
  | repl
  /-- Presses keys of the keypad. -/
  | keypad (scientific : Bool) (keys : List String)
  /-- Prints the points of a plot. -/
  | plot (words : List String)
  /-- Shows or clears the history. -/
  | history (clear : Bool)
  /-- Shows the precision, perhaps after setting it. -/
  | precision (value : Option Nat)
  /-- Lists inputs to try. -/
  | suggestions
  | formula (command : FormulaCommand)
  /-- Sums up marks; without assessments, those of an example. -/
  | marks (assessments : List String)
deriving DecidableEq, Repr

/-- What a command line asks for. -/
inductive Request
  | run (options : Options) (command : Command)
  /-- How the program is used. -/
  | help
  /-- Which version of the program this is. -/
  | version
deriving DecidableEq, Repr

end Abacus
