import Abacus.Arithmetic
import Abacus.Decimal.Layout
import Abacus.Decimal.Numeral
import Abacus.Text.Blank
import Abacus.Text.Search

/-!
# Marks

A final mark is the sum of what some assessments contribute, each by its weightage in percent.  The
summary lists everything that makes the mark doubtful; a mark without issues can be presented as
final (`MarkSummary.isValid`).

An assessment is written `name:obtained/total@weightage`.  The name may hold any of these marks too:
the last `@` and the last `:` before it divide the text, and then the first `/`.
-/

namespace Abacus

/-- Marks obtained out of a total. -/
structure Assessment where
  name : String
  obtained : Float
  total : Float
  /-- The share of the final mark, in percent. -/
  weightage : Float

namespace Assessment

/-- The assessments that are used when none are given. -/
def defaults : List Assessment := [
  ⟨"Assignment 1", 85.0, 100.0, 20.0⟩,
  ⟨"Mid-Term Exam", 75.0, 100.0, 50.0⟩,
  ⟨"Project", 90.0, 100.0, 30.0⟩]

/-- What an assessment adds to the final mark; nothing if its total is zero. -/
def contribution (a : Assessment) : Float :=
  if a.total == 0.0 then 0.0 else a.obtained / a.total * a.weightage

/-! ### Problems -/

/-- What may be wrong with an assessment. -/
inductive Problem
  | missingName
  | negativeObtained
  | totalTooSmall
  | weightageOutOfRange
  | obtainedExceedsTotal
deriving DecidableEq, Repr

/-- How a problem is worded. -/
def Problem.message : Problem → String
  | missingName => "Name is required"
  | negativeObtained => "Cannot be negative"
  | totalTooSmall => "Must be at least 1"
  | weightageOutOfRange => "Weightage must be between 0 and 100"
  | obtainedExceedsTotal => "Obtained marks cannot exceed total marks"

/-- Whether an assessment has a problem. -/
def hasProblem (a : Assessment) : Problem → Bool
  | .missingName => Text.trim a.name == ""
  | .negativeObtained => a.obtained < 0.0
  | .totalTooSmall => a.total < 1.0
  | .weightageOutOfRange => !(0.0 ≤ a.weightage && a.weightage ≤ 100.0)
  | .obtainedExceedsTotal => a.total < a.obtained

/-- The problems of an assessment. -/
def problems (a : Assessment) : List Problem :=
  [.missingName, .negativeObtained, .totalTooSmall, .weightageOutOfRange,
    .obtainedExceedsTotal].filter a.hasProblem

/-! ### Reading -/

/-- Why a text is not an assessment. -/
inductive ReadError
  | missingWeightage (text : String)
  | missingColon (text : String)
  | missingSlash (text : String)
  | notANumber (field : String) (cause : Numeral.Error)
deriving DecidableEq, Repr

namespace ReadError

/-- How an error is worded. -/
def message : ReadError → String
  | missingWeightage text => "expected name:obtained/total@weightage, got '" ++ text ++ "'"
  | missingColon text => "missing ':' in '" ++ text ++ "'"
  | missingSlash text => "missing '/' in '" ++ text ++ "'"
  | notANumber field _ => "'" ++ field ++ "' is not a number"

/-- How the cause of an error is worded. -/
def cause? : ReadError → Option String
  | notANumber _ cause => some cause.message
  | _ => none

end ReadError

/-- Reads a number with blanks around it. -/
def readField (field : List Char) : Except ReadError Float :=
  match Numeral.read (.ofList (Text.trimChars field)) with
  | .ok x => .ok x
  | .error e => .error (.notANumber (.ofList field) e)

/-- Reads an assessment. -/
def parse (text : String) : Except ReadError Assessment := do
  let some (rest, weightage) := Text.cutLast? '@' text.toList | throw (.missingWeightage text)
  let some (name, rest) := Text.cutLast? ':' rest | throw (.missingColon text)
  let some (obtained, total) := Text.cutFirst? '/' rest | throw (.missingSlash text)
  return {
    name := .ofList (Text.trimChars name)
    obtained := ← readField obtained
    total := ← readField total
    weightage := ← readField weightage }

end Assessment

/-! ### The final mark -/

/-- What makes a mark doubtful. -/
inductive MarkIssue
  /-- A problem of the assessment at a position, counted from zero. -/
  | entry (position : Nat) (problem : Assessment.Problem)
  /-- The weightages add up to more than a hundred. -/
  | weightageExceeded (total : Float)

/-- How an issue is worded; assessments are counted from one. -/
def MarkIssue.message : MarkIssue → String
  | entry position problem => "Assessment " ++ (position + 1).repr ++ ": " ++ problem.message
  | weightageExceeded _ => "Total weightage cannot exceed 100%"

/-- A final mark. -/
structure MarkSummary where
  /-- The sum of the weightages, rounded to two places. -/
  totalWeightage : Float
  /-- The mark, rounded to two places. -/
  totalMark : Float
  issues : List MarkIssue

namespace MarkSummary

/-- The sum of some numbers, added in order; that of none is minus zero. -/
def sum (xs : List Float) : Float :=
  xs.foldl (· + ·) (-0.0)

/-- The problems of some assessments, with their positions. -/
def entryIssues (rows : List Assessment) : List MarkIssue :=
  rows.zipIdx.flatMap fun (a, i) => a.problems.map (.entry i)

/-- The final mark that some assessments make. -/
def ofAssessments (rows : List Assessment) : MarkSummary :=
  let weightage := sum (rows.map (·.weightage))
  let mark := sum (rows.map (·.contribution))
  { totalWeightage := roundTo 100.0 weightage
    totalMark := roundTo 100.0 mark
    issues := entryIssues rows ++
      (if weightage > 100.0 then [.weightageExceeded weightage] else []) }

/-- Whether the mark can be presented as final. -/
def isValid (s : MarkSummary) : Bool :=
  s.issues.isEmpty

/-- Marks have two places after the point. -/
def style : Style where
  digits := Decimal.fixed 2
  layout := Decimal.positional
  zero := "0.00"
  signedZero := true
  infinity := "inf"

/-- The mark out of the greatest possible mark. -/
def text (s : MarkSummary) : String :=
  style.write s.totalMark ++ " / " ++ style.write s.totalWeightage

end MarkSummary

end Abacus
