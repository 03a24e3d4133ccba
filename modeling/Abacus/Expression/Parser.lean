import Abacus.Arithmetic
import Abacus.Decimal.Numeral
import Abacus.Expression.Basic
import Abacus.Expression.Error
import Abacus.Text.Search

/-!
# Parsing expressions

A recursive descent parser.  Its position, a `Cursor`, is the rest of the text and the room left for
parts: an expression has at most 64 subexpressions and 64 unary operators, and its brackets, calls
and unary operators are nested at most 32 deep.

The sign of a number belongs to the number, so `-2^2` is the square of `-2`.  Words for numbers
(`NaN` and `inf`) are tried before names.
-/

namespace Abacus

/-- Where a parser stands. -/
structure Cursor where
  /-- The text that is left. -/
  rest : List Char
  /-- How many more subexpressions there may be. -/
  expressions : Nat := 64
  /-- How many more unary operators there may be. -/
  operators : Nat := 64
deriving Inhabited

/-- A parser takes something off the text at a cursor. -/
abbrev Parser (α : Type) : Type :=
  Cursor → Except ParseError (α × Cursor)

namespace Parser

/-! ### Combinators -/

/-- Takes nothing. -/
def ok (a : α) : Parser α :=
  fun c => .ok (a, c)

/-- Refuses the text. -/
def fail (e : ParseError) : Parser α :=
  fun _ => .error e

/-- Two parsers, one after the other. -/
def bind (p : Parser α) (next : α → Parser β) : Parser β := fun c =>
  match p c with
  | .ok (a, c') => next a c'
  | .error e => .error e

instance : Monad Parser where
  pure := ok
  bind := bind

/-- The text at the cursor. -/
def rest : Parser (List Char) :=
  fun c => .ok (c.rest, c)

/-- Moves on to a later place. -/
def goTo (rest : List Char) : Parser Unit :=
  fun c => .ok ((), { c with rest })

/-- Uses up the room of one subexpression. -/
def claimExpression : Parser Unit := fun c =>
  match c.expressions with
  | 0 => .error .tooManyParts
  | n + 1 => .ok ((), { c with expressions := n })

/-- Uses up the room of one unary operator. -/
def claimOperator : Parser Unit := fun c =>
  match c.operators with
  | 0 => .error .tooManyParts
  | n + 1 => .ok ((), { c with operators := n })

/-! ### Tokens -/

/-- The blanks between tokens. -/
def isSpace (c : Char) : Bool :=
  c == ' ' || c == '\t' || c == '\n' || c == '\r'

/-- Skips blanks. -/
def spaces : Parser Unit := fun c =>
  .ok ((), { c with rest := c.rest.dropWhile isSpace })

/-- The longest text at the cursor that may be a number. -/
structure Scan where
  token : List Char
  /-- Whether it holds a digit, a point or a word. -/
  isNumber : Bool
  /-- Whether a letter for a power of ten may follow. -/
  allowsScale : Bool
  rest : List Char

/-- Scans a number.  `sign`: a sign may follow; `word`: a word may follow; `seen`: a digit or a
point was seen; `scale`: no exponent was seen. -/
def scan (sign word seen scale : Bool) : List Char → Scan
  | 'N' :: 'a' :: 'N' :: rest =>
    if word then ⟨['N', 'a', 'N'], true, false, rest⟩
    else ⟨[], seen, scale, 'N' :: 'a' :: 'N' :: rest⟩
  | 'i' :: 'n' :: 'f' :: rest =>
    if word then ⟨['i', 'n', 'f'], true, false, rest⟩
    else ⟨[], seen, scale, 'i' :: 'n' :: 'f' :: rest⟩
  | c :: rest =>
    let step (s : Scan) : Scan := { s with token := c :: s.token }
    if c.isDigit || c == '.' then step (scan false false true scale rest)
    else if sign && (c == '-' || c == '+') then step (scan false word seen scale rest)
    else if seen && (c == 'e' || c == 'E') then step (scan true word seen false rest)
    else ⟨[], seen, scale, c :: rest⟩
  | [] => ⟨[], seen, scale, []⟩

/-- The exponent that a letter after a number stands for. -/
def scale? : Char → Option String
  | 'k' | 'K' => some "e3"
  | 'M' => some "e6"
  | 'G' => some "e9"
  | 'T' => some "e12"
  | 'm' => some "e-3"
  | 'u' | 'µ' => some "e-6"
  | 'n' => some "e-9"
  | 'p' => some "e-12"
  | _ => none

/-- A scanned number with its scale written out, and what follows it. -/
def Scan.scaled (s : Scan) : List Char × List Char :=
  match s.rest with
  | c :: rest =>
    match s.allowsScale, scale? c with
    | true, some e => (s.token ++ e.toList, rest)
    | _, _ => (s.token, s.rest)
  | [] => (s.token, [])

/-- A number, if there is one at the cursor. -/
def number? : Parser (Option Float) := fun c =>
  let s := scan true true false true (c.rest.dropWhile isSpace)
  if s.isNumber then
    let (token, rest) := s.scaled
    match Numeral.read? token with
    | some x => .ok (some x, { c with rest })
    | none => .error (.badNumber (.ofList token))
  else .ok (none, c)

/-- The operator at the start of a text, and what follows it. -/
def operator? : List Char → Option (Binary × List Char)
  | '+' :: rest => some (.add, rest)
  | '-' :: rest => some (.sub, rest)
  | '*' :: rest => some (.mul, rest)
  | '/' :: rest => some (.div, rest)
  | '%' :: rest => some (.mod, rest)
  | '^' :: rest => some (.pow, rest)
  | '<' :: '=' :: rest => some (.compare .lessEq, rest)
  | '<' :: rest => some (.compare .less, rest)
  | '>' :: '=' :: rest => some (.compare .greaterEq, rest)
  | '>' :: rest => some (.compare .greater, rest)
  | '=' :: '=' :: rest => some (.compare .equal, rest)
  | '!' :: '=' :: rest => some (.compare .notEqual, rest)
  | 'o' :: 'r' :: rest | '|' :: '|' :: rest => some (.or, rest)
  | 'a' :: 'n' :: 'd' :: rest | '&' :: '&' :: rest => some (.and, rest)
  | _ => none

/-! ### Calls -/

/-- The built-in function of a name. -/
def builtin? : String → Option Builtin
  | "int" => some .int
  | "ceil" => some .ceil
  | "floor" => some .floor
  | "abs" => some .abs
  | "sign" => some .sign
  | "sin" => some .sin
  | "cos" => some .cos
  | "tan" => some .tan
  | "asin" => some .asin
  | "acos" => some .acos
  | "atan" => some .atan
  | "sinh" => some .sinh
  | "cosh" => some .cosh
  | "tanh" => some .tanh
  | "asinh" => some .asinh
  | "acosh" => some .acosh
  | "atanh" => some .atanh
  | _ => none

/-- The call of a function.  Only the built-in functions have a fixed number of arguments. -/
def call (name : String) (args : List Expr) : Except ParseError Expr :=
  match name, args with
  | "e", [] => .ok (.number euler)
  | "e", _ => .error (.wrongArguments "e: expected no args")
  | "pi", [] => .ok (.number pi)
  | "pi", _ => .error (.wrongArguments "pi: expected no args")
  | "log", [x] => .ok (.log (.number 10.0) x)
  | "log", [base, x] => .ok (.log base x)
  | "log", _ => .error (.wrongArguments "expected log(x) or log(base,x)")
  | "round", [x] => .ok (.round (.number 1.0) x)
  | "round", [modulus, x] => .ok (.round modulus x)
  | "round", _ => .error (.wrongArguments "round: expected round(x) or round(modulus,x)")
  | "min", first :: rest => .ok (.extremum .min first rest)
  | "min", [] => .error (.wrongArguments "min: expected one or more args")
  | "max", first :: rest => .ok (.extremum .max first rest)
  | "max", [] => .error (.wrongArguments "max: expected one or more args")
  | _, _ =>
    match builtin? name, args with
    | some f, [x] => .ok (.builtin f x)
    | some _, _ => .error (.wrongArguments (name ++ ": expected one arg"))
    | none, _ => .ok (.call name args)

/-! ### Expressions -/

/-- Operators, each followed by an operand; at most `fuel` of them. -/
def operands (operand : Parser Expr) : Nat → Parser (List (Binary × Expr))
  | 0 => ok []
  | fuel + 1 => do
    spaces
    match operator? (← rest) with
    | none => ok []
    | some (op, after) =>
      goTo after
      let e ← operand
      let others ← operands operand fuel
      return (op, e) :: others

/-- An expression made of operands.  Every operator takes a character, so the length of the text
bounds their number. -/
def expression (operand : Parser Expr) : Parser Expr := do
  let first ← operand
  let others ← operands operand (← rest).length
  spaces
  claimExpression
  return .ofOperands first others

/-- Arguments up to the closing bracket, each but the first after a comma or a semicolon; at most
`fuel` of them. -/
def arguments (closer : Char) (argument : Parser α) (isFirst : Bool) : Nat → Parser (List α)
  | 0 => fail .endOfText
  | fuel + 1 => do
    spaces
    match ← rest with
    | [] => fail .endOfText
    | c :: after =>
      if c = closer then
        goTo after
        return []
      unless isFirst do
        if c = ',' || c = ';' then goTo after
        else fail (.expected "',' or ';'")
      let a ← argument
      let others ← arguments closer argument false fuel
      return a :: others

/-- An expression in brackets, after the opening one. -/
def bracketed (closer : Char) (inner : Parser Expr) : Parser Expr := do
  let e ← inner
  spaces
  match ← rest with
  | [] => fail .endOfText
  | c :: after =>
    if c = closer then
      goTo after
      return e
    else fail (.expected (.singleton closer))

/-- An argument to be printed: a text in quotes, or an expression. -/
def printable (inner : Parser Expr) : Parser (String ⊕ Expr) := do
  spaces
  match ← rest with
  | [] => fail .endOfText
  | '"' :: after =>
    match Text.cutFirst? '"' after with
    | some (text, after) =>
      goTo after
      return .inl (.ofList text)
    | none => fail .endOfText
  | _ => .inr <$> inner

/-- The bracket that closes the bracket `c`. -/
def closerOf? : Char → Option Char
  | '(' => some ')'
  | '[' => some ']'
  | _ => none

/-- A variable or a call, where a name begins.  `inner` and `deeper` parse operands one and two
levels further down. -/
def callable (inner deeper : Parser Expr) : Parser Expr := do
  let (name, after) := Text.spanName (← rest)
  let name := String.ofList name
  goTo after
  spaces
  match ← rest with
  | c :: after =>
    match closerOf? c with
    | none => return .call name []
    | some closer =>
      goTo after
      let fuel := after.length + 1
      if name = "print" then
        return .print (← arguments closer (printable (expression deeper)) true fuel)
      else
        match call name (← arguments closer (expression inner) true fuel) with
        | .ok e => return e
        | .error e => fail e
  | [] => return .call name []

/-- An operand that is not a number. -/
def compound (inner deeper : Parser Expr) : Parser Expr := do
  spaces
  match ← rest with
  | [] => fail .endOfText
  | '+' :: after =>
    goTo after
    let e ← inner
    claimOperator
    return e
  | '-' :: after =>
    goTo after
    let e ← inner
    claimOperator
    return .unary .neg e
  | '!' :: after =>
    goTo after
    let e ← inner
    claimOperator
    return .unary .not e
  | c :: after =>
    match closerOf? c with
    | some closer =>
      goTo after
      bracketed closer (expression inner)
    | none => if Text.beginsName c then callable inner deeper else fail .invalidValue

/-- An operand; operands one and two levels further down are parsed by `inner` and `deeper`. -/
def operandWith (inner deeper : Parser Expr) : Parser Expr := do
  match ← number? with
  | some x => return .number x
  | none => compound inner deeper

/-- An operand with less than `depth` levels below it. -/
def operand : Nat → Parser Expr
  | 0 => fail .tooDeep
  | 1 => operandWith (fail .tooDeep) (fail .tooDeep)
  | depth + 2 => operandWith (operand (depth + 1)) (operand depth)

/-- The greatest number of levels. -/
def maxDepth : Nat := 33

/-- The greatest length of a text, in bytes. -/
def maxLength : Nat := 4096

/-- An expression up to the end of the text. -/
def whole : Parser Expr := do
  let first ← operand maxDepth
  let others ← operands (operand maxDepth) (← rest).length
  spaces
  match ← rest with
  | [] =>
    claimExpression
    return .ofOperands first others
  | remaining => fail (.unparsed (.ofList remaining))

end Parser

/-- The expression that a text spells. -/
def Expr.parse (text : String) : Except ParseError Expr :=
  if Parser.maxLength < text.utf8ByteSize then .error .tooLong
  else (Parser.whole { rest := text.toList }).map Prod.fst

end Abacus
