import Abacus.Answer
import Abacus.CalcError
import Abacus.Calculation
import Abacus.Decimal.Numeral
import Abacus.Json.Basic
import Abacus.Text.Blank
import Abacus.Text.Search
import Abacus.Traced

/-!
# Formulas

A formula is a named expression over declared variables.  It is defined by three texts, one of which
declares the variables, with commas between them (`Formula.define`).  It is evaluated with one text
for each of its variables; nothing but the declared variables and the constants of the engine is
known to the expression (`Formula.evaluate`).
-/

namespace Abacus

/-- A named expression over declared variables. -/
structure Formula where
  name : String
  expression : String
  /-- The declared variables, in order. -/
  parameters : List String
deriving DecidableEq, Repr, Inhabited

namespace Formula

/-- What may go wrong with a formula. -/
inductive Error
  | missingName
  | missingExpression
  | missingVariables
  | invalidVariableName (name : String)
  | invalidExpression (e : ParseError)
  /-- The library has no formula at this position. -/
  | notFound (position : Nat)
  | emptyVariable (name : String)
  | invalidNumber (name : String)
  | calculation (e : CalcError)
deriving DecidableEq, Repr

/-- How an error is worded. -/
def Error.message : Error → String
  | missingName => "Formula name is required"
  | missingExpression => "Expression is required"
  | missingVariables => "Define at least one variable (comma-separated, e.g., x,y,z)"
  | invalidVariableName name => "'" ++ name ++ "' is not a valid variable name"
  | invalidExpression e => "Invalid expression: " ++ e.message
  | notFound position => "No formula at position " ++ position.repr
  | emptyVariable name => "Variable '" ++ name ++ "' cannot be empty."
  | invalidNumber name => "Invalid number for variable '" ++ name ++ "'."
  | calculation e => e.message

/-! ### Definition -/

/-- The variables that a text declares. -/
def parseVariables (declaration : String) : List String :=
  ((Text.pieces ',' declaration.toList).map Text.trimChars |>.filter (· ≠ [])).map String.ofList

/-- The formula that three texts define. -/
def define (name expression declaration : String) : Except Error Formula := do
  let name := Text.trim name
  if name = "" then throw .missingName
  let expression := Text.trim expression
  if expression = "" then throw .missingExpression
  let parameters := parseVariables declaration
  if parameters = [] then throw .missingVariables
  match parameters.find? (!Text.isName ·.toList) with
  | some bad => throw (.invalidVariableName bad)
  | none => return { name, expression, parameters }

/-! ### Evaluation -/

/-- The precision of all answers of formulas. -/
def answerPrecision : Nat := 14

/-- The texts given for variables; of two for the same variable the first one counts. -/
abbrev Inputs : Type :=
  List (String × String)

/-- The value given for a variable: a finite number. -/
def inputValue (inputs : Inputs) (name : String) : Except Error Float :=
  let text := Text.trim ((inputs.lookup name).getD "")
  if text = "" then .error (.emptyVariable name)
  else
    match Numeral.read text with
    | .ok x => if x.isFinite then .ok x else .error (.invalidNumber name)
    | .error _ => .error (.invalidNumber name)

/-- The values of the declared variables, or what is wrong with the first bad one. -/
def scope (f : Formula) (inputs : Inputs) : Except Error Scope :=
  f.parameters.mapM fun v => do return (v, ← inputValue inputs v)

/-- The value of an expression in a scope, as text. -/
def answer (expression : String) (scope : Scope) : Traced (Except Error String) :=
  match Calculation.parse expression with
  | .error e => return .error (.calculation (.parse e))
  | .ok c => do
    let x := c.eval scope
    .notes x.printed
    match x.result with
    | .ok (.number v) => return .ok (answerText v answerPrecision)
    | .ok (.function _) => return .error (.calculation .incomplete)
    | .error e => return .error (.calculation (.eval e))

/-- The value of a formula, as text. -/
def evaluate (f : Formula) (inputs : Inputs) : Traced (Except Error String) :=
  match f.scope inputs with
  | .error e => return .error e
  | .ok scope => answer f.expression scope

/-! ### Stored form -/

/-- The stored form of a formula. -/
def toJson (f : Formula) : Json :=
  .record [("name", .text f.name), ("expression", .text f.expression),
    ("variables", .array (f.parameters.map .text))]

/-- Reads the stored form of a formula. -/
def ofJson? (j : Json) : Option Formula :=
  match j.record? ["name", "expression", "variables"] with
  | some [name, expression, parameters] => do
    return ⟨← name.text?, ← expression.text?, ← parameters.list? Json.text?⟩
  | _ => none

end Formula

end Abacus
