import Abacus.Text.Blank
import Abacus.Text.Word
import Abacus.Text.LowerCase
import Abacus.Decimal.Layout
import Abacus.Decimal.Numeral
import Abacus.Arithmetic
import Abacus.Keypad.Basic
import Abacus.Answer
import Abacus.Question
import Abacus.Expression.Parser
import Abacus.Expression.Evaluation
import Abacus.Plot
import Abacus.Json.Parser
import Abacus.Json.Printer
import Abacus.Traced
import Abacus.Store.Contents
import Abacus.Evaluator
import Abacus.Session
import Abacus.Formula.Library
import Abacus.Marks
import Abacus.Config
import Abacus.Keypad.Token
import Abacus.Log.Filter
import Abacus.CommandLine.Arguments
import Abacus.CommandLine.Program
import Abacus.Main
import Abacus.Proofs.Decimal.Figures
import Abacus.Proofs.Decimal.Editing
import Abacus.Proofs.Decimal.Rounding
import Abacus.Proofs.Decimal.Packing
import Abacus.Proofs.Decimal.Reading
import Abacus.Proofs.Decimal.Shortest
import Abacus.Proofs.Decimal.Digits
import Abacus.Proofs.Binary64.Nearest
import Abacus.Proofs.Binary64.Order
import Abacus.Proofs.Binary64.Operations
import Abacus.Proofs.Binary64.Multiples
import Abacus.Proofs.Text.Blank
import Abacus.Proofs.Text.Bytes
import Abacus.Proofs.Input
import Abacus.Proofs.Expression.Extension
import Abacus.Proofs.Expression.Name
import Abacus.Proofs.Expression.Plain
import Abacus.Proofs.Expression.Literal
import Abacus.Proofs.Expression.Call
import Abacus.Proofs.Expression.Lookups
import Abacus.Proofs.Json.RoundTrip
import Abacus.Proofs.Json.Codec
import Abacus.Proofs.Keypad.NumberText
import Abacus.Proofs.Keypad.Run
import Abacus.Proofs.Keypad.Entry
import Abacus.Proofs.Keypad.Chain
import Abacus.Proofs.Keypad.Failure
import Abacus.Proofs.Keypad.Legibility
import Abacus.Proofs.Keypad.Rereading
import Abacus.Proofs.Keypad.Equals
import Abacus.Proofs.Keypad.Undo
import Abacus.Proofs.Answers
import Abacus.Proofs.Marks
import Abacus.Proofs.Plot.Sampling
import Abacus.Proofs.Store.Saves
import Abacus.Proofs.Store.Writing
import Abacus.Proofs.Store.FileText
import Abacus.Proofs.Store.Reopening
import Abacus.Proofs.Store.Rejection
import Abacus.Proofs.Store.Damage
import Abacus.Proofs.Evaluator.Records
import Abacus.Proofs.Evaluator.Submission
import Abacus.Proofs.Evaluator.Restart
import Abacus.Proofs.Evaluator.Journal
import Abacus.Proofs.Evaluator.Classification
import Abacus.Proofs.Evaluator.Graphs
import Abacus.Proofs.Evaluator.Matching
import Abacus.Proofs.Question.Value
import Abacus.Proofs.Question.Spelling
import Abacus.Proofs.Question.Root
import Abacus.Proofs.Formula.Archive
import Abacus.Proofs.Formula.Definition
import Abacus.Proofs.Formula.Variable
import Abacus.Proofs.Formula.Inputs
import Abacus.Proofs.Desk.Sharing
import Abacus.Proofs.Desk.Faults
import Abacus.Proofs.Session.Console
import Abacus.Proofs.CommandLine.Running
import Abacus.Proofs.CommandLine.Failing
import Abacus.Proofs.CommandLine.Arguments
import Abacus.Proofs.CommandLine.LineByLine
import Abacus.Proofs.CommandLine.Keys
import Abacus.Proofs.Assessment
import Abacus.Proofs.Keypad.Undefined
import Abacus.Proofs.Formula.Parsable
import Abacus.Proofs.Question.Normalization
import Abacus.Proofs.Keypad.Coherence
import Abacus.Proofs.Keypad.Results
import Abacus.Proofs.CommandLine.Celebration
