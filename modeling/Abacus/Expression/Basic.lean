/-!
# Expressions

The syntax tree of the expression language.  Binary operators have nine levels of precedence; a
chain of operands joined by operators of one level is one node, `Expr.chain`.  `Expr.ofOperands`
builds these nodes from a flat list of operands and operators: it cuts the list at the operators of
the loosest level that occurs and goes on with the pieces.

Brackets and unary plus have no node: they leave no trace in the value of an expression.
-/

namespace Abacus

/-- The comparison operators. -/
inductive Comparison
  | less
  | lessEq
  | equal
  | notEqual
  | greaterEq
  | greater
deriving DecidableEq, Repr

/-- The binary operators. -/
inductive Binary
  | or
  | and
  | compare (c : Comparison)
  | add
  | sub
  | mul
  | div
  | mod
  | pow
deriving DecidableEq, Repr

/-- The unary operators. -/
inductive Unary
  | neg
  | not
deriving DecidableEq, Repr

/-- The levels of precedence. -/
inductive Precedence
  | or
  | and
  | compare
  | add
  | sub
  | mul
  | div
  | mod
  | pow
deriving DecidableEq, Repr

/-- All levels of precedence, from the loosest to the tightest. -/
def Precedence.all : List Precedence :=
  [.or, .and, .compare, .add, .sub, .mul, .div, .mod, .pow]

/-- The level of an operator. -/
def Binary.precedence : Binary → Precedence
  | .or => .or
  | .and => .and
  | .compare _ => .compare
  | .add => .add
  | .sub => .sub
  | .mul => .mul
  | .div => .div
  | .mod => .mod
  | .pow => .pow

/-- The built-in functions of one argument. -/
inductive Builtin
  | int
  | ceil
  | floor
  | abs
  | sign
  | sin
  | cos
  | tan
  | asin
  | acos
  | atan
  | sinh
  | cosh
  | tanh
  | asinh
  | acosh
  | atanh
deriving DecidableEq, Repr

/-- The two ends of a range of values. -/
inductive Extremum
  | min
  | max
deriving DecidableEq, Repr

/-- The syntax tree of an expression. -/
inductive Expr
  | number (value : Float)
  | unary (op : Unary) (operand : Expr)
  /-- Operands joined by operators of one level. -/
  | chain (level : Precedence) (first : Expr) (rest : List (Binary × Expr))
  | builtin (f : Builtin) (arg : Expr)
  /-- The logarithm to a base, ten by default. -/
  | log (base : Expr) (arg : Expr)
  /-- The nearest multiple of a modulus, one by default. -/
  | round (modulus : Expr) (arg : Expr)
  | extremum (side : Extremum) (first : Expr) (rest : List Expr)
  /-- A variable, or a function that is known only where the expression is evaluated. -/
  | call (name : String) (args : List Expr)
  /-- Writes its arguments, texts and values, and has the value of the last one. -/
  | print (args : List (String ⊕ Expr))
deriving Inhabited

namespace Expr

/-- Cuts a list of operands at the operators of one level. -/
def cut (level : Precedence) (first : Expr) :
    List (Binary × Expr) →
      (Expr × List (Binary × Expr)) × List (Binary × Expr × List (Binary × Expr))
  | [] => ((first, []), [])
  | (op, e) :: rest =>
    let (piece, pieces) := cut level e rest
    if op.precedence = level then ((first, []), (op, piece) :: pieces)
    else ((first, (op, piece.1) :: piece.2), pieces)

/-- Groups operands by the given levels of precedence. -/
def group : List Precedence → Expr → List (Binary × Expr) → Expr
  | [], first, _ => first
  | level :: levels, first, rest =>
    match cut level first rest with
    | (_, []) => group levels first rest
    | (piece, pieces) =>
      .chain level (group levels piece.1 piece.2)
        (pieces.map fun (op, e, es) => (op, group levels e es))

/-- The expression that a flat list of operands and operators stands for. -/
def ofOperands (first : Expr) (rest : List (Binary × Expr)) : Expr :=
  group Precedence.all first rest

end Expr

end Abacus
