import Abacus.Decimal.Numeral
import Abacus.Session
import Abacus.Text.Blank

/-!
# Answering line after line

Each line is a directive, which begins with a colon, or a text to be answered.  A prompt is printed
before each line.  After an answer, a line tells whether a celebration is going on, be it for this
answer or for an earlier one.
-/

namespace Abacus

/-- What is printed for an outcome; a plot is described by its size and the range of its values. -/
def Outcome.description : Outcome → String
  | .graph _ (.ok plot) =>
    "[Graph] " ++ plot.points.length.repr ++ " points, y in [" ++ Style.plain.write plot.lowest ++
      ", " ++ Style.plain.write plot.highest ++ "]"
  | outcome => outcome.display

namespace Repl

/-- A line of input. -/
inductive Line
  | quit
  | history
  | clear
  /-- Sets the precision; none if the value is not one. -/
  | precision (value : Option Nat)
  | text (s : String)
deriving DecidableEq, Repr

/-- The value of a directive for the precision. -/
def precision? (text : List Char) : Option Nat :=
  match Numeral.natural? (Text.trimChars text) with
  | some n => if n < 256 then some n else none
  | none => none

/-- What a line says. -/
def Line.parse (line : String) : Line :=
  match Text.trim line with
  | ":quit" | ":q" => quit
  | ":history" => history
  | ":clear" => clear
  | other =>
    let word := ":precision".toList
    if word.isPrefixOf other.toList then precision (precision? (other.toList.drop word.length))
    else text other

/-- What is printed before a line. -/
def prompt : String := "> "

/-- What is printed when the history has been cleared. -/
def cleared : String := "Calculation history has been cleared."

/-- A past calculation as a line. -/
def historyLine (i : HistoryItem) : String :=
  "  " ++ i.input ++ "  =  " ++ i.result

/-- Answers a text. -/
def answer (s : Session) (now : Nat) (text : String) : Traced Session := do
  let s ← s.ask now text
  if let some outcome := s.last then .printLine outcome.description
  if s.evaluator.celebrating now then .printLine "  🎉"
  return s

/-- Carries out a line; none means that the session is over. -/
def step (s : Session) (now : Nat) (line : String) : Traced (Option Session) := do
  match Line.parse line with
  | .quit => return none
  | .history =>
    .printLines (s.evaluator.history.map historyLine)
    return some s
  | .clear =>
    let s ← s.clearHistory
    .printLine cleared
    return some s
  | .precision (some value) => return some (← s.setPrecision value)
  | .precision none =>
    .notes ["precision must be 0-14"]
    return some s
  | .text text => return some (← answer s now text)

/-- Carries out lines, each with the time when it is read, until one of them ends the session. -/
def run (s : Session) : List (Nat × String) → Traced Unit
  | [] => .print prompt
  | (now, line) :: rest => do
    .print prompt
    match ← step s now line with
    | none => return ()
    | some s => run s rest

/-- Whether one of some lines ends the session. -/
def quits (lines : List (Nat × String)) : Bool :=
  lines.any fun line => Line.parse line.2 = .quit

end Repl

end Abacus
