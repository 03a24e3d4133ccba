import Abacus.Expression.Operations

/-!
# Reduced expressions

Before it is evaluated an expression is reduced: parts without names are replaced by their values,
and sums and products are sorted.  Differences are sums of negations, quotients are products of
inverses.  The terms of a sum that are themselves sums are joined with it, its constants are added
up, and their total goes last, or goes away when it is zero up to the tolerance; likewise for
products and one.

A reduced expression need not have the value that the parts of the expression would give one after
the other: `0/0` reduces to the product of nothing, which is one.
-/

namespace Abacus

/-- A reduced expression. -/
inductive Reduced
  | const (value : Float)
  | neg (e : Reduced)
  | not (e : Reduced)
  | inv (e : Reduced)
  | add (l r : Reduced)
  | mul (l r : Reduced)
  | mod (l r : Reduced)
  | pow (l r : Reduced)
  | compare (c : Comparison) (l r : Reduced)
  | or (l r : Reduced)
  | and (l r : Reduced)
  | builtin (f : Builtin) (e : Reduced)
  | log (base e : Reduced)
  | round (modulus e : Reduced)
  | extremum (side : Extremum) (l r : Reduced)
  | call (name : String) (args : List Reduced)
  | print (args : List (String ⊕ Expr))
deriving Inhabited

namespace Reduced

/-! ### One operand -/

/-- The negation of a reduced expression. -/
def negate : Reduced → Reduced
  | const v => const (-v)
  | neg e => e
  | e => neg e

/-- The inverse of a reduced expression. -/
def invert : Reduced → Reduced
  | const v => const (1.0 / v)
  | inv e => e
  | e => inv e

/-- The logical negation of a reduced expression. -/
def complement : Reduced → Reduced
  | const v => const (ofBool (near v 0.0))
  | not e => e
  | e => not e

/-- A built-in function of a reduced expression. -/
def apply (f : Builtin) : Reduced → Reduced
  | const v => const (f.value v)
  | e => builtin f e

/-! ### Two operands -/

/-- Two operands, evaluated by `f` if both are constant and joined by `node` if not. -/
def join (f : Float → Float → Float) (node : Reduced → Reduced → Reduced) :
    Reduced → Reduced → Reduced
  | const x, const y => const (f x y)
  | l, r => node l r

/-! ### Sums and products -/

/-- The terms of a sum.  Those of the right operand come before those of the left one. -/
def terms : Reduced → List Reduced
  | add l r => terms r ++ terms l
  | e => [e]

/-- The factors of a product, likewise. -/
def factors : Reduced → List Reduced
  | mul l r => factors r ++ factors l
  | e => [e]

/-- The value of a constant. -/
def constant? : Reduced → Option Float
  | const v => some v
  | _ => none

/-- The constants among some expressions, combined by `f`, after the other ones, joined by `node`.
Constants that make the neutral number `unit` are left out. -/
def collect (unit : Float) (f : Float → Float → Float) (node : Reduced → Reduced → Reduced)
    (es : List Reduced) : Reduced :=
  let total := (es.filterMap constant?).foldl f unit
  match es.filter (·.constant?.isNone) with
  | [] => const (if apart total unit then total else unit)
  | e :: others =>
    let joined := others.foldl node e
    if apart total unit then node joined (const total) else joined

/-- The sum of some terms. -/
def sum : List Reduced → Reduced :=
  collect 0.0 (· + ·) add

/-- The product of some factors. -/
def product : List Reduced → Reduced :=
  collect 1.0 (· * ·) mul

/-! ### Logic -/

/-- The disjunction of what is kept so far and further operands.  Constants in front are decided at
once. -/
def anyOf : Option Reduced → List Reduced → Reduced
  | kept, [] => kept.getD (const 0.0)
  | none, const v :: rest => if apart v 0.0 then const v else anyOf none rest
  | none, e :: rest => anyOf (some e) rest
  | some k, e :: rest => anyOf (some (or k e)) rest

/-- Whether an expression is a constant that counts as false. -/
def isFalse (e : Reduced) : Bool :=
  e.constant?.any (near · 0.0)

/-- The conjunction of what is kept so far and further operands.  A constant is decided at once, and
one that counts as true gives way to what follows it. -/
def allOf : Option Reduced → List Reduced → Reduced
  | kept, [] => kept.getD (const 0.0)
  | kept, e :: rest =>
    if e.isFalse then e
    else
      match kept with
      | none | some (const _) => allOf (some e) rest
      | some k => allOf (some (and k e)) rest

/-! ### Least and greatest -/

/-- The one of some constants that lies furthest out; what is not a number stays only in front. -/
def outermost? (side : Extremum) : List Float → Option Float
  | [] => none
  | v :: rest => some (rest.foldl (fun best w => if side.beats w best then w else best) v)

/-- The least or greatest of some expressions; their constants go last. -/
def extremumOf (side : Extremum) (es : List Reduced) : Reduced :=
  match es.filter (·.constant?.isNone), outermost? side (es.filterMap constant?) with
  | [], best => const (best.getD 0.0)
  | e :: others, none => others.foldl (extremum side) e
  | e :: others, some best => extremum side (others.foldl (extremum side) e) (const best)

/-! ### Chains -/

/-- A chain whose operators are joined from its right end. -/
def powers (base : Reduced) : List (Binary × Reduced) → Reduced
  | [] => base
  | (_, e) :: rest => join power pow base (powers e rest)

/-- A chain of comparisons, from the left. -/
def comparisons (first : Reduced) (rest : List (Binary × Reduced)) : Reduced :=
  rest.foldl (fun l (op, r) =>
    match op with
    | .compare c => join (fun x y => ofBool (c.holds x y)) (compare c) l r
    | _ => l) first

/-- A chain of operands. -/
def chain (level : Precedence) (first : Reduced) (rest : List (Binary × Reduced)) : Reduced :=
  let others := rest.map Prod.snd
  match level with
  | .or => anyOf none (first :: others)
  | .and => allOf none (first :: others)
  | .compare => comparisons first rest
  | .add => sum ((first :: others).flatMap terms)
  | .sub => sum (first :: others.map negate)
  | .mul => product ((first :: others).flatMap factors)
  | .div => product (first :: others.map invert)
  | .mod => others.foldl (join remainder mod) first
  | .pow => powers first rest

end Reduced

mutual

/-- The reduced form of an expression. -/
def Expr.reduce : Expr → Reduced
  | .number v => .const v
  | .unary .neg e => e.reduce.negate
  | .unary .not e => e.reduce.complement
  | .chain level first rest => .chain level first.reduce (Expr.reduceOperands rest)
  | .builtin f e => .apply f e.reduce
  | .log base e => .join logarithm .log base.reduce e.reduce
  | .round modulus e => .join roundToMultiple .round modulus.reduce e.reduce
  | .extremum side first rest => .extremumOf side (first.reduce :: Expr.reduceAll rest)
  | .call name args => .call name (Expr.reduceAll args)
  | .print args => .print args

/-- The reduced forms of some expressions. -/
def Expr.reduceAll : List Expr → List Reduced
  | [] => []
  | e :: rest => e.reduce :: Expr.reduceAll rest

/-- The reduced forms of the operands after operators. -/
def Expr.reduceOperands : List (Binary × Expr) → List (Binary × Reduced)
  | [] => []
  | (op, e) :: rest => (op, e.reduce) :: Expr.reduceOperands rest

end

end Abacus
