import Abacus.Evaluator
import Abacus.Input

/-!
# Sessions

A session is an input line, an evaluator, and the outcome on the screen.  An answer that goes into
the history empties the line; a text without an answer stays, to be mended.
-/

namespace Abacus

/-- A session at the calculator. -/
structure Session where
  evaluator : Evaluator
  input : Input := {}
  /-- The outcome on the screen. -/
  last : Option Outcome := none

namespace Session

/-- The plot on the screen. -/
def plot? (s : Session) : Option Plot :=
  s.last.bind Outcome.plot?

/-- Answers the input line. -/
def submit (s : Session) (now : Nat) : Traced Session := do
  let (evaluator, outcome) ← s.evaluator.submit now s.input.text
  return {
    evaluator
    input := if outcome.isRecorded then s.input.clear else s.input
    last := some outcome }

/-- Wipes the input line and the screen. -/
def clear (s : Session) : Session :=
  { s with input := s.input.clear, last := none }

/-- Presses a key on the screen. -/
def press (s : Session) (now : Nat) : Input.Key → Traced Session
  | .text value => .ok { s with input := s.input.insert value }
  | .clear => .ok s.clear
  | .equals => s.submit now

/-- Types a text in the place of the input line and answers it. -/
def ask (s : Session) (now : Nat) (text : String) : Traced Session :=
  submit { s with input := s.input.setText text } now

/-- Forgets the history. -/
def clearHistory (s : Session) : Traced Session := do
  return { s with evaluator := ← s.evaluator.clearHistory }

/-- Sets the precision of answers. -/
def setPrecision (s : Session) (precision : Nat) : Traced Session := do
  return { s with evaluator := ← s.evaluator.setPrecision precision }

end Session

end Abacus
