import Abacus.Answer
import Abacus.History
import Abacus.Plot

/-!
# The evaluator

A line of input is a phrase with a fixed reply, a function to be plotted, or a calculation.  A text
that looks like a function of the variable is plotted if it has a number as its value where the
variable is one.  Replies, plots and values are recorded in the history; errors are not.

A value starts a celebration, which ends by itself after a while.  Times are in milliseconds, on a
clock that the caller reads.
-/

namespace Abacus

/-- What becomes of a line of input. -/
inductive Outcome
  /-- The fixed reply to a phrase. -/
  | canned (input reply : String)
  /-- A plot; it may lack points. -/
  | graph (input : String) (plot : Except CalcError Plot)
  /-- A value, and its text at the precision of the time. -/
  | value (input : String) (value : Float) (display : String)
  /-- A function is named but not called. -/
  | incomplete (input : String)
  | error (input : String) (e : CalcError)

namespace Outcome

/-- What the history shows for a plot. -/
def graphMarker : String := "[Graph]"

/-- The input as typed, trimmed. -/
def input : Outcome → String
  | canned input _ | graph input _ | value input _ _ | incomplete input | error input _ => input

/-- Whether an outcome goes into the history. -/
def isRecorded : Outcome → Bool
  | canned .. | graph .. | value .. => true
  | incomplete _ | error .. => false

/-- The text that is shown. -/
def display : Outcome → String
  | canned _ reply => reply
  | graph _ (.ok _) => graphMarker
  | graph _ (.error e) => e.message
  | value _ _ display => display
  | incomplete _ => CalcError.incomplete.message
  | error _ .emptyInput => CalcError.emptyInput.message
  | error _ e => "Error: " ++ e.message

/-- The plot that is shown. -/
def plot? : Outcome → Option Plot
  | graph _ (.ok plot) => some plot
  | _ => none

end Outcome

/-- A celebration of a value. -/
structure Celebration where
  /-- When it began. -/
  start : Nat
  /-- How long it goes on. -/
  duration : Nat
deriving DecidableEq, Repr

/-- Whether a celebration is going on. -/
def Celebration.isActive (c : Celebration) (now : Nat) : Bool :=
  now - c.start < c.duration

/-- The evaluator. -/
structure Evaluator where
  records : Records := {}
  /-- How the variable is looked for. -/
  variableMatch : VariableMatch := .substring
  /-- How long a celebration goes on. -/
  celebrationTime : Nat := 5000
  /-- The last celebration. -/
  lastCelebration : Option Celebration := none

namespace Evaluator

/-- The evaluator on a store. -/
def load (variableMatch : VariableMatch) (celebrationTime : Nat) (get? : String → Option String) :
    Traced Evaluator := do
  return { records := ← Records.load get?, variableMatch, celebrationTime }

/-- Whether a text has a number as its value where the variable is one, and what it prints. -/
def probe (normalized : String) : Traced Bool :=
  match Calculation.parse normalized with
  | .error _ => .ok false
  | .ok c => do
    let x := c.eval [(graphVariable, 1.0)]
    .notes x.printed
    match x.result with
    | .ok (.number _) => return true
    | _ => return false

/-- Puts an outcome into the history. -/
def record (e : Evaluator) (input result : String) : Traced Evaluator := do
  return { e with records := ← e.records.record ⟨input, result⟩ }

/-- The effects of a sample: what it prints, and a log record if it is left out. -/
def traceSample (s : Plot.Sample) : Traced Unit := do
  .notes s.outcome.printed
  if s.point?.isNone then .log .trace Log.graph

/-- The effects of some samples. -/
def traceSamples : List Plot.Sample → Traced Unit
  | [] => .ok ()
  | s :: rest => do
    traceSample s
    traceSamples rest

/-- The plot of the function that a text spells, with the effects of its samples. -/
def plot (label text : String) : Traced (Except CalcError Plot) := do
  match Calculation.parse text with
  | .error e => return .error (.invalidFunction e)
  | .ok c =>
    let samples := Plot.samples c
    traceSamples samples
    return Plot.ofSamples label samples

/-- Answers a question that asks for a plot. -/
def answerGraph (e : Evaluator) (q : Question) : Traced (Evaluator × Outcome) := do
  .log .debug Log.evaluation
  let plot ← plot q.typed q.normalized
  let e ← e.record q.typed Outcome.graphMarker
  return (e, .graph q.typed plot)

/-- Answers a question that asks for a value. -/
def answerValue (e : Evaluator) (now : Nat) (q : Question) : Traced (Evaluator × Outcome) := do
  match Calculation.parse q.normalized with
  | .error err =>
    .log .debug Log.evaluation
    return (e, .error q.typed (.parse err))
  | .ok c =>
    let x := c.eval []
    .notes x.printed
    match x.result with
    | .ok (.function _) =>
      .log .debug Log.evaluation
      return (e, .incomplete q.typed)
    | .ok (.number v) =>
      let display := answerText v e.records.precision
      let e ← e.record q.typed display
      return ({ e with lastCelebration := some ⟨now, e.celebrationTime⟩ },
        .value q.typed v display)
    | .error err =>
      .log .debug Log.evaluation
      return (e, .error q.typed (.eval err))

/-- Answers a question. -/
def answer (e : Evaluator) (now : Nat) (q : Question) : Traced (Evaluator × Outcome) := do
  if q.typed = "" then return (e, .error q.typed .emptyInput)
  match reply? q.key with
  | some reply =>
    .log .debug Log.evaluation
    let e ← e.record q.typed reply
    return (e, .canned q.typed reply)
  | none =>
    if e.variableMatch.looksGraphable q.key then
      if ← probe q.normalized then
        return ← e.answerGraph q
    e.answerValue now q

/-- Answers a line of input. -/
def submit (e : Evaluator) (now : Nat) (text : String) : Traced (Evaluator × Outcome) :=
  e.answer now (.ofText text)

/-- The past calculations, the newest first. -/
def history (e : Evaluator) : List HistoryItem :=
  e.records.history

/-- The number of significant digits in answers. -/
def precision (e : Evaluator) : Nat :=
  e.records.precision

/-- Forgets the history. -/
def clearHistory (e : Evaluator) : Traced Evaluator := do
  return { e with records := ← e.records.clear }

/-- Sets the precision of answers. -/
def setPrecision (e : Evaluator) (precision : Nat) : Traced Evaluator := do
  return { e with records := ← e.records.setPrecision precision }

/-- Whether a celebration is going on. -/
def celebrating (e : Evaluator) (now : Nat) : Bool :=
  e.lastCelebration.any (·.isActive now)

end Evaluator

end Abacus
