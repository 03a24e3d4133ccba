import Abacus.Text.Blank

/-!
# Errors of expressions

Why a text is not an expression (`ParseError`), why an expression has no value (`EvalError`), and
how both are worded.
-/

namespace Abacus

/-- Why a text is not an expression. -/
inductive ParseError
  | tooLong
  | tooDeep
  /-- The expression has more parts than there is room for. -/
  | tooManyParts
  | endOfText
  | invalidValue
  /-- A number is malformed. -/
  | badNumber (text : String)
  /-- Another token was expected. -/
  | expected (what : String)
  /-- The expression ends before the text does. -/
  | unparsed (rest : String)
  /-- A built-in function has the wrong number of arguments. -/
  | wrongArguments (usage : String)
deriving DecidableEq, Repr

/-- Why an expression has no value. -/
inductive EvalError
  | undefined (name : String)
  /-- A text to be printed asks for a format. -/
  | formatRequested
deriving DecidableEq, Repr

/-- How a wrong number of arguments is worded. -/
def wrongArgumentsMessage (usage : String) : String :=
  "Wrong number of arguments in " ++ usage

/-- How an error is worded. -/
def ParseError.message : ParseError → String
  | .tooLong => "TooLong"
  | .tooDeep => "TooDeep"
  | .tooManyParts => "SlabOverflow"
  | .endOfText => "Unexpected end of expression"
  | .invalidValue => "Invalid value"
  | .badNumber text => "ParseF64(\"" ++ text ++ "\")"
  | .expected what => "Expected(\"" ++ what ++ "\")"
  | .unparsed rest => "Unexpected \"" ++ Text.trim rest ++ "\""
  | .wrongArguments usage => wrongArgumentsMessage usage

/-- How an error is worded. -/
def EvalError.message : EvalError → String
  | .undefined name => "Undefined symbol " ++ name
  | .formatRequested => wrongArgumentsMessage "printf formatting is not yet implemented"

end Abacus
