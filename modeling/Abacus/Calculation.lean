import Abacus.Expression.Evaluation
import Abacus.Expression.Parser

/-!
# Calculations

A text given to the expression engine is trimmed.  If it is the bare name of a function it stands
for that function; anything else has to be an expression.  A calculation is parsed and reduced once
and may be evaluated any number of times, each time in a scope of its own.

A scope comes before the constants of the engine, so that a variable may be called `pi`.
-/

namespace Abacus

/-- The functions that are known by name. -/
def functionNames : List String := [
  "sin", "cos", "tan", "asin", "acos", "atan", "sinh", "cosh", "tanh", "asinh", "acosh", "atanh",
  "sqrt", "cbrt", "abs", "ceil", "floor", "round", "int", "sign", "log", "ln", "exp", "min", "max"]

/-- The values of variables; of two with the same name the first one counts. -/
abbrev Scope : Type :=
  List (String × Float)

/-- The value of a constant or of a function that is not built in. -/
def library (name : String) (args : List Float) : Option Float :=
  match name, args with
  | "pi", [] => some pi
  | "e", [] => some euler
  | "tau", [] => some tau
  | "sqrt", [x] => some x.sqrt
  | "cbrt", [x] => some x.cbrt
  | "ln", [x] => some x.log
  | "exp", [x] => some x.exp
  | _, _ => none

/-- The variables of a scope, and then what every expression knows. -/
def Scope.toLookup (scope : Scope) : Lookup := fun name args =>
  match args, List.lookup name scope with
  | [], some v => some v
  | _, _ => library name args

/-- A text that the engine accepts. -/
inductive Calculation
  /-- The name of a function without arguments. -/
  | bareFunction (name : String)
  | expression (e : Reduced)
deriving Inhabited

/-- What a calculation gives. -/
inductive Value
  | number (x : Float)
  | function (name : String)
deriving DecidableEq

namespace Calculation

/-- Reads a text. -/
def parse (text : String) : Except ParseError Calculation :=
  let text := Text.trim text
  if functionNames.contains text then .ok (.bareFunction text)
  else (Expr.parse text).map fun e => .expression e.reduce

/-- The value in a scope. -/
def eval (scope : Scope) : Calculation → Evaluation Value
  | .bareFunction name => .ok (.function name)
  | .expression e => do return .number (← e.eval scope.toLookup)

end Calculation

end Abacus
