import Abacus.Expression.Error

/-!
# Errors of the calculator

What may go wrong with a line of input, and how it is worded.
-/

namespace Abacus

/-- Why a line of input has no answer. -/
inductive CalcError
  | parse (e : ParseError)
  | eval (e : EvalError)
  /-- The function to be plotted is not an expression. -/
  | invalidFunction (e : ParseError)
  | notEnoughPoints
  /-- A function is named but not called. -/
  | incomplete
  | emptyInput
deriving DecidableEq, Repr

/-- How an error is worded. -/
def CalcError.message : CalcError → String
  | .parse e => e.message
  | .eval e => e.message
  | .invalidFunction e => "Invalid function: " ++ e.message
  | .notEnoughPoints => "Could not generate enough points to plot this function."
  | .incomplete => "Please provide a full expression to calculate."
  | .emptyInput => "Please enter a calculation or question."

end Abacus
