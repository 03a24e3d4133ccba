import Abacus.Decimal.Numeral
import Abacus.Text.Hexadecimal
import Abacus.Text.Search
import Abacus.Toml.Basic

/-!
# Numbers, truth values and dates in TOML

A scalar that is not a text is spelled by one word, except that a date and a time may be divided by
a blank.  Digits may be grouped by single underscores.  Whole numbers have no leading zeros, and
those too large for 128 bits are refused, as are fractions too large for a float.
-/

namespace Abacus

namespace Toml

/-! ### Digits -/

/-- Digits without the underscores between them. -/
def grouped? (isDigit : Char → Bool) (cs : List Char) : Option (List Char) :=
  let groups := Text.pieces '_' cs
  if groups.all (fun g => g ≠ [] && g.all isDigit) then some groups.flatten else none

/-- The decimal digits of a whole number, without a leading zero. -/
def whole? (cs : List Char) : Option (List Char) := do
  let ds ← grouped? Char.isDigit cs
  if ds.head? = some '0' ∧ 1 < ds.length then none else some ds

/-- Splits a sign off. -/
def sign : List Char → List Char × List Char
  | '+' :: rest => (['+'], rest)
  | '-' :: rest => (['-'], rest)
  | cs => ([], cs)

/-- The number that digits of a base spell. -/
def inBase (base : Nat) (ds : List Char) : Option Nat := do
  return (← ds.mapM Text.hexDigit?).foldl (fun n d => base * n + d) 0

/-! ### Numbers -/

/-- The magnitude of a whole number; only a decimal one may have had a sign. -/
def magnitude? (signed : Bool) : List Char → Option Nat
  | '0' :: 'x' :: cs => if signed then none else
    grouped? (fun c => (Text.hexDigit? c).isSome) cs >>= inBase 16
  | '0' :: 'o' :: cs => if signed then none else
    grouped? (fun c => '0' ≤ c && c ≤ '7') cs >>= inBase 8
  | '0' :: 'b' :: cs => if signed then none else
    grouped? (fun c => c == '0' || c == '1') cs >>= inBase 2
  | cs => whole? cs >>= inBase 10

/-- A whole number. -/
def integer? (cs : List Char) : Option Toml := do
  let (s, cs) := sign cs
  let n ← magnitude? (s ≠ []) cs
  let n : Int := if s = ['-'] then -n else n
  if -(Nat.pow 2 127) ≤ n ∧ n < Nat.pow 2 128 then some (.integer n) else none

/-- The part of a fraction before the exponent. -/
def mantissa? (cs : List Char) : Option (List Char) :=
  match Text.cutFirst? '.' cs with
  | none => whole? cs
  | some (whole, part) => do
    return (← whole? whole) ++ '.' :: (← grouped? Char.isDigit part)

/-- An exponent. -/
def exponent? (cs : List Char) : Option (List Char) := do
  let (s, cs) := sign cs
  return s ++ (← grouped? Char.isDigit cs)

/-- The spelling of a fraction without its underscores. -/
def fraction? (cs : List Char) : Option (List Char) :=
  match Text.cutFirst? 'e' (cs.map fun c => if c = 'E' then 'e' else c) with
  | none => mantissa? cs
  | some (m, e) => do return (← mantissa? m) ++ 'e' :: (← exponent? e)

/-- A number that need not be whole. -/
def float? (cs : List Char) : Option Toml := do
  let (_, cs) := sign cs
  if cs = "inf".toList ∨ cs = "nan".toList then return .float
  let x ← Numeral.read? (← fraction? cs)
  if x.isFinite then return .float
  none

/-! ### Dates -/

/-- The number that some digits spell, if there are as many as asked for. -/
def digits? (count : Nat) (cs : List Char) : Option Nat :=
  if cs.length = count ∧ cs.all Char.isDigit then some (Nat.ofDigitChars 10 cs 0) else none

/-- The number of days in a month. -/
def daysInMonth (year month : Nat) : Nat :=
  if month = 2 then
    if year % 4 = 0 ∧ (year % 100 ≠ 0 ∨ year % 400 = 0) then 29 else 28
  else if month = 4 ∨ month = 6 ∨ month = 9 ∨ month = 11 then 30
  else 31

/-- Whether a text is a day of the calendar. -/
def isDay (cs : List Char) : Bool :=
  match Text.pieces '-' cs with
  | [y, m, d] =>
    match digits? 4 y, digits? 2 m, digits? 2 d with
    | some y, some m, some d => 1 ≤ m && m ≤ 12 && 1 ≤ d && d ≤ daysInMonth y m
    | _, _, _ => false
  | _ => false

/-- Whether two digits are a number up to a bound. -/
def isUpTo (bound : Nat) (cs : List Char) : Bool :=
  (digits? 2 cs).any (· ≤ bound)

/-- Whether a text gives the seconds of a minute, perhaps with a fraction. -/
def isSecond (cs : List Char) : Bool :=
  match Text.cutFirst? '.' cs with
  | none => isUpTo 60 cs
  | some (whole, part) => isUpTo 60 whole && part ≠ [] && part.all Char.isDigit

/-- Whether a text is a time of day; seconds may be left out. -/
def isTime (cs : List Char) : Bool :=
  match Text.pieces ':' cs with
  | [h, m] => isUpTo 23 h && isUpTo 59 m
  | [h, m, s] => isUpTo 23 h && isUpTo 59 m && isSecond s
  | _ => false

/-- Whether a text is a difference from universal time. -/
def isOffset (cs : List Char) : Bool :=
  match Text.pieces ':' cs with
  | [h, m] => isUpTo 23 h && isUpTo 59 m
  | _ => false

/-- Whether a text is a time of day, perhaps with an offset. -/
def isZonedTime (cs : List Char) : Bool :=
  let (time, zone) := cs.span fun c => c.isDigit || c == ':' || c == '.'
  isTime time &&
    match zone with
    | [] => true
    | ['Z'] | ['z'] => true
    | '+' :: offset | '-' :: offset => isOffset offset
    | _ => false

/-- A day, a time, or both. -/
def date? (cs : List Char) : Option Toml :=
  match cs.drop 10 with
  | [] => if isDay cs || isTime cs then some .date else none
  | c :: time =>
    if (c = 'T' ∨ c = 't' ∨ c = ' ') ∧ isDay (cs.take 10) ∧ isZonedTime time then some .date
    else if isTime cs then some .date
    else none

/-! ### Words -/

/-- The value that a word spells. -/
def scalar? (cs : List Char) : Option Toml :=
  if cs = "true".toList then some (.boolean true)
  else if cs = "false".toList then some (.boolean false)
  else integer? cs <|> float? cs <|> date? cs

/-- Whether a character may stand in a word. -/
def inScalar (c : Char) : Bool :=
  c.isAlphanum || c == '_' || c == '+' || c == '-' || c == '.' || c == ':'

/-- The word at the start of a text, and what follows it.  A blank before a digit belongs to the
word if a day comes before it. -/
def spanScalar (cs : List Char) : List Char × List Char :=
  let (word, rest) := cs.span inScalar
  match rest with
  | ' ' :: c :: after =>
    if isDay word && c.isDigit then
      let (time, rest) := (c :: after).span inScalar
      (word ++ ' ' :: time, rest)
    else (word, rest)
  | _ => (word, rest)

end Toml

end Abacus
