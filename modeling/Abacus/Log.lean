/-!
# Log records

A record has a level and a target, the part of the program that it comes from.  The targets are
paths, so that a filter for a part holds for the parts below it too.
-/

namespace Abacus

namespace Log

/-- How important a record is, from the most to the least. -/
inductive Level
  | error
  | warn
  | info
  | debug
  | trace
deriving DecidableEq, Repr

/-- The rank of a level; the most important one comes first. -/
def Level.rank : Level → Nat
  | .error => 1
  | .warn => 2
  | .info => 3
  | .debug => 4
  | .trace => 5

/-- How a level is written. -/
def Level.name : Level → String
  | .error => "ERROR"
  | .warn => "WARN"
  | .info => "INFO"
  | .debug => "DEBUG"
  | .trace => "TRACE"

/-- A log record. -/
structure Record where
  level : Level
  target : String
deriving DecidableEq, Repr

/-! ### Targets -/

/-- The target of the command line. -/
def program : String := "counton"

/-- The target of the evaluator. -/
def evaluation : String := "counton::calculator::evaluation"

/-- The target of plots. -/
def graph : String := "counton::calculator::graph"

/-- The target of the formula library. -/
def formula : String := "counton::formula"

/-- The target of all stores. -/
def store : String := "counton::store"

/-- The target of stores in files. -/
def fileStore : String := "counton::store::file"

/-- A record as a line. -/
def Record.line (r : Record) : String :=
  r.level.name ++ " " ++ r.target

end Log

end Abacus
