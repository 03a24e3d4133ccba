import Abacus.Decimal.Layout
import Abacus.Expression.Error
import Abacus.Expression.Reduced

/-!
# Evaluation

An expression is evaluated with a `Lookup`, which knows the variables and functions that are not
built in.  Operands are evaluated from left to right, and the first error ends the evaluation.  The
result is a value or an error, together with the lines that were printed on the way
(`Evaluation`).

Reduced expressions are evaluated as they stand (`Reduced.eval`).  The arguments of `print` are not
reduced: there all operands of a chain have a value before its operators are carried out
(`Expr.eval`).
-/

namespace Abacus

/-- The values of variables and calls by name and arguments; a variable has no arguments. -/
abbrev Lookup : Type :=
  String → List Float → Option Float

/-- The end of an evaluation, and the lines that were printed before it. -/
structure Evaluation (α : Type) where
  result : Except EvalError α
  printed : List String := []

namespace Evaluation

/-- Nothing but a value. -/
def ok (a : α) : Evaluation α :=
  { result := .ok a }

/-- Nothing but an error. -/
def fail (e : EvalError) : Evaluation α :=
  { result := .error e }

/-- Two evaluations, one after the other. -/
def bind (x : Evaluation α) (next : α → Evaluation β) : Evaluation β :=
  match x.result with
  | .ok a =>
    let y := next a
    { result := y.result, printed := x.printed ++ y.printed }
  | .error e => { result := .error e, printed := x.printed }

instance : Monad Evaluation where
  pure := ok
  bind := bind

/-- Prints a line. -/
def print (line : String) : Evaluation Unit :=
  { result := .ok (), printed := [line] }

end Evaluation

/-- The value of a name with arguments. -/
def Lookup.find (lookup : Lookup) (name : String) (args : List Float) : Evaluation Float :=
  match lookup name args with
  | some v => .ok v
  | none => .fail (.undefined name)

/-! ### Printing -/

/-- A text to be printed, with its escapes for a new line and for a tab resolved. -/
def unescape : List Char → List Char
  | '\\' :: 'n' :: rest => '\n' :: unescape rest
  | '\\' :: 't' :: rest => '\t' :: unescape rest
  | c :: rest => c :: unescape rest
  | [] => []

/-- Whether the first argument of `print` asks for a format. -/
def asksForFormat : List (String ⊕ Expr) → Bool
  | .inl text :: _ => text.toList.contains '%'
  | _ => false

/-- Prints the texts of the arguments of `print` on one line. -/
def printLine (words : List String) : Evaluation Unit :=
  .print (" ".intercalate words)

mutual

/-- The value of an expression that is not reduced. -/
def Expr.eval (lookup : Lookup) : Expr → Evaluation Float
  | .number v => .ok v
  | .unary .neg e => do return -(← e.eval lookup)
  | .unary .not e => do return ofBool (near (← e.eval lookup) 0.0)
  | .chain level first rest => do
    let x ← first.eval lookup
    return level.value x (← Expr.evalOperands lookup rest)
  | .builtin f e => do return f.value (← e.eval lookup)
  | .log base e => do
    let b ← base.eval lookup
    return logarithm b (← e.eval lookup)
  | .round modulus e => do
    let m ← modulus.eval lookup
    return roundToMultiple m (← e.eval lookup)
  | .extremum side first rest => do
    let x ← first.eval lookup
    return (← Expr.evalAll lookup rest).foldl side.pick x
  | .call name args => do lookup.find name (← Expr.evalAll lookup args)
  | .print args => do
    if asksForFormat args then .fail .formatRequested
    else
      let (value, words) ← Expr.evalPrinted lookup 0.0 args
      printLine words
      return value

/-- The values of some expressions. -/
def Expr.evalAll (lookup : Lookup) : List Expr → Evaluation (List Float)
  | [] => .ok []
  | e :: rest => do
    let x ← e.eval lookup
    return x :: (← Expr.evalAll lookup rest)

/-- The values of the operands after operators. -/
def Expr.evalOperands (lookup : Lookup) : List (Binary × Expr) → Evaluation (List (Binary × Float))
  | [] => .ok []
  | (op, e) :: rest => do
    let x ← e.eval lookup
    return (op, x) :: (← Expr.evalOperands lookup rest)

/-- The texts of the arguments of `print`, and the value of the last expression among them; `last`
is the value of the one before. -/
def Expr.evalPrinted (lookup : Lookup) (last : Float) :
    List (String ⊕ Expr) → Evaluation (Float × List String)
  | [] => .ok (last, [])
  | .inl text :: rest => do
    let (value, words) ← Expr.evalPrinted lookup last rest
    return (value, .ofList (unescape text.toList) :: words)
  | .inr e :: rest => do
    let x ← e.eval lookup
    let (value, words) ← Expr.evalPrinted lookup x rest
    return (value, Style.plain.write x :: words)

end

mutual

/-- The value of a reduced expression. -/
def Reduced.eval (lookup : Lookup) : Reduced → Evaluation Float
  | .const v => .ok v
  | .neg e => do return -(← e.eval lookup)
  | .not e => do return ofBool (near (← e.eval lookup) 0.0)
  | .inv e => do return 1.0 / (← e.eval lookup)
  | .add l r => do
    let x ← l.eval lookup
    return x + (← r.eval lookup)
  | .mul l r => do
    let x ← l.eval lookup
    return x * (← r.eval lookup)
  | .mod l r => do
    let x ← l.eval lookup
    return remainder x (← r.eval lookup)
  | .pow l r => do
    let x ← l.eval lookup
    return power x (← r.eval lookup)
  | .compare c l r => do
    let x ← l.eval lookup
    return ofBool (c.holds x (← r.eval lookup))
  | .or l r => do
    let x ← l.eval lookup
    if apart x 0.0 then return x else r.eval lookup
  | .and l r => do
    let x ← l.eval lookup
    if near x 0.0 then return x else r.eval lookup
  | .builtin f e => do return f.value (← e.eval lookup)
  | .log base e => do
    let b ← base.eval lookup
    return logarithm b (← e.eval lookup)
  | .round modulus e => do
    let m ← modulus.eval lookup
    return roundToMultiple m (← e.eval lookup)
  | .extremum side l r => do
    let x ← l.eval lookup
    return side.pick x (← r.eval lookup)
  | .call name args => do lookup.find name (← Reduced.evalAll lookup args)
  | .print args => (Expr.print args).eval lookup

/-- The values of some reduced expressions. -/
def Reduced.evalAll (lookup : Lookup) : List Reduced → Evaluation (List Float)
  | [] => .ok []
  | e :: rest => do
    let x ← e.eval lookup
    return x :: (← Reduced.evalAll lookup rest)

end

end Abacus
