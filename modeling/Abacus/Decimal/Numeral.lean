/-!
# Reading numerals

A numeral is an optional sign followed by a decimal number or by one of the words `inf`, `infinity`
and `nan` in any mixture of cases.  A decimal number is a sequence of digits with at most one point
among or beside them, at least one digit, and an optional exponent, which has digits too.  It stands
for the float nearest to it, the even one of two.  Nothing else is a numeral: no blanks, no
separators between digits.
-/

namespace Abacus

namespace Numeral

/-- Why a text is not a numeral. -/
inductive Error
  | empty
  | malformed
deriving DecidableEq, Repr

/-- How an error is worded. -/
def Error.message : Error → String
  | .empty => "cannot parse float from empty string"
  | .malformed => "invalid float literal"

/-- Splits a sign off; `true` means negative. -/
def sign : List Char → Bool × List Char
  | '-' :: rest => (true, rest)
  | '+' :: rest => (false, rest)
  | rest => (false, rest)

/-- The number that a list of digits spells. -/
def value (digits : List Char) : Nat :=
  Nat.ofDigitChars 10 digits 0

/-- The part after the point, and what follows it. -/
def fraction : List Char → List Char × List Char
  | '.' :: rest => (rest.takeWhile Char.isDigit, rest.dropWhile Char.isDigit)
  | rest => ([], rest)

/-- A whole number with an optional sign, up to the end of the text. -/
def integer? (cs : List Char) : Option Int :=
  let (negative, digits) := sign cs
  if digits ≠ [] ∧ digits.all Char.isDigit then
    some (if negative then -(value digits : Int) else value digits)
  else none

/-- A natural number with an optional plus sign, up to the end of the text. -/
def natural? (cs : List Char) : Option Nat :=
  let digits := if cs.head? = some '+' then cs.tail else cs
  if digits ≠ [] ∧ digits.all Char.isDigit then some (value digits) else none

/-- The exponent at the end of a number; none is zero. -/
def exponent? : List Char → Option Int
  | [] => some 0
  | c :: rest => if c = 'e' ∨ c = 'E' then integer? rest else none

/-- An unsigned decimal number: its coefficient and its power of ten. -/
def decimal? (cs : List Char) : Option (Nat × Int) :=
  let whole := cs.takeWhile Char.isDigit
  let (part, rest) := fraction (cs.dropWhile Char.isDigit)
  if whole = [] ∧ part = [] then none
  else (exponent? rest).map fun e => (value (whole ++ part), e - part.length)

/-- The float nearest to `coefficient * 10 ^ exponent`. -/
def toFloat (coefficient : Nat) (exponent : Int) : Float :=
  Float.ofScientific coefficient (exponent < 0) exponent.natAbs

/-- The value of an unsigned numeral. -/
def magnitude? (cs : List Char) : Option Float :=
  match decimal? cs with
  | some (coefficient, exponent) => some (toFloat coefficient exponent)
  | none =>
    let word := cs.map Char.toLower
    if word = "inf".toList ∨ word = "infinity".toList then some (1.0 / 0.0)
    else if word = "nan".toList then some (0.0 / 0.0)
    else none

/-- The value of a numeral. -/
def read? (cs : List Char) : Option Float :=
  let (negative, rest) := sign cs
  (magnitude? rest).map fun x => if negative then -x else x

/-- The value of a numeral, or what is wrong with the text. -/
def read (s : String) : Except Error Float :=
  match s.toList with
  | [] => .error .empty
  | cs =>
    match read? cs with
    | some x => .ok x
    | none => .error .malformed

end Numeral

end Abacus
