import Abacus.FileTree
import Abacus.Formula.Basic
import Abacus.Marks

/-!
# Failures

Why the program stops without having done what it was asked to do.  A failure is reported with its
causes below it; several causes are numbered.
-/

namespace Abacus

/-- Why the program stops. -/
inductive Failure
  | unreadableConfig (path : String) (cause : FileError)
  | invalidConfig (path : String)
  | unreadableStore (path : String) (cause : FileError)
  /-- A text that was to be plotted has another answer. -/
  | notPlottable (answer : String)
  /-- A word holds a character that is no key. -/
  | unknownKey (key : Char) (token : String)
  | notAssignment (text : String)
  | formula (e : Formula.Error)
  | assessment (e : Assessment.ReadError)
  /-- A line of the input is no text. -/
  | unreadableInput
deriving DecidableEq, Repr

namespace Failure

/-- How a failure is worded. -/
def message : Failure → String
  | unreadableConfig path _ => "Failed to read config " ++ path
  | invalidConfig path => "Invalid config " ++ path
  | unreadableStore path _ => "Failed to open store " ++ path
  | notPlottable answer => "not plottable: " ++ answer
  | unknownKey key token => "unknown key '" ++ key.toString ++ "' in '" ++ token ++ "'"
  | notAssignment text => "expected name=value, got '" ++ text ++ "'"
  | formula e => e.message
  | assessment e => e.message
  | unreadableInput => FileError.notText.message

/-- The causes of a failure, the nearest one first. -/
def causes : Failure → List String
  | unreadableConfig _ e => [e.message]
  | unreadableStore _ e => ["storage I/O failed: " ++ e.message, e.message]
  | assessment e => e.cause?.toList
  | _ => []

/-- The lines for some causes. -/
def causeLines : List String → String
  | [] => ""
  | [cause] => "\n\nCaused by:\n    " ++ cause
  | causes =>
    "\n\nCaused by:" ++
      .join (causes.zipIdx.map fun (cause, i) => "\n    " ++ i.repr ++ ": " ++ cause)

/-- The report of a failure. -/
def report (f : Failure) : String :=
  "Error: " ++ f.message ++ causeLines f.causes ++ "\n"

end Failure

end Abacus
