import Abacus.Arithmetic
import Abacus.Decimal.Layout
import Abacus.Decimal.Numeral
import Abacus.Keypad.Event

/-!
# The state of a keypad

A keypad shows one text.  It keeps the operand entered before and the operator that waits for the
second one, and it knows whether the next digit begins a new operand.  `State.apply` is the state
after a key press.

A calculation that has no result shows `errorText` and stays there: until the state is cleared every
other key leaves it as it is.
-/

namespace Abacus

namespace Keypad

/-- What the display shows after a failed calculation. -/
def errorText : String := "Error"

/-- Numbers on the display have the fewest digits that read back.  They are in positional form from
a millionth up to `10 ^ 21`, in exponential form outside; zero has no sign. -/
def displayStyle : Style where
  digits := Decimal.shortest
  layout d :=
    if -6 ≤ d.lead ∧ d.lead < 21 then d.positional else d.exponential ['+']
  zero := "0"
  signedZero := false
  infinity := "Infinity"

/-- The text of a number on the display. -/
def numberText (x : Float) : String :=
  displayStyle.write x

/-- The text of a result; none is an error. -/
def resultText : Option Float → String
  | some x => numberText x
  | none => errorText

/-- The result of a calculation; a division by zero has none. -/
def Operator.calculate (op : Operator) (a b : Float) : Option Float :=
  match op with
  | .add => some (a + b)
  | .sub => some (a - b)
  | .mul => some (a * b)
  | .div => if b == 0.0 then none else some (a / b)
  | .pow => some (power a b)

/-- An angle in radians. -/
def radians (degrees : Float) : Float :=
  degrees * Abacus.pi / 180.0

/-- The value of a function; a logarithm of a number that is not positive and the square root of one
that is negative have none. -/
def Function.value (f : Function) (x : Float) : Option Float :=
  match f with
  | .sin => some (radians x).sin
  | .cos => some (radians x).cos
  | .tan => some (radians x).tan
  | .log => if 0.0 < x then some x.log10 else none
  | .ln => if 0.0 < x then some x.log else none
  | .sqrt => if 0.0 ≤ x then some x.sqrt else none
  | .square => some (x * x)
  | .pi => some Abacus.pi

/-- The state of a keypad. -/
structure State where
  /-- The text on the display. -/
  display : String := "0"
  /-- The operand before the pending operator. -/
  first : Option Float := none
  /-- The operator that waits for its second operand. -/
  pending : Option Operator := none
  /-- The next digit or point begins a new operand. -/
  awaiting : Bool := false
deriving DecidableEq, Inhabited

namespace State

/-- Whether the display shows a failed calculation. -/
def isError (s : State) : Bool :=
  s.display == errorText

/-- The number on the display. -/
def operand (s : State) : Float :=
  (Numeral.read? s.display.toList).getD notANumber

/-- The character of a digit key. -/
def digitChar (value : Nat) : Char :=
  Nat.digitChar (min value 9)

/-- Enters a digit; it takes the place of a zero that stands alone. -/
def enterDigit (s : State) (value : Nat) : State :=
  let c := digitChar value
  if s.awaiting then { s with display := .singleton c, awaiting := false }
  else if s.display == "0" then { s with display := .singleton c }
  else { s with display := s.display.push c }

/-- Enters a point, unless there is one already. -/
def enterPoint (s : State) : State :=
  if s.awaiting then { s with display := "0.", awaiting := false }
  else if s.display.toList.contains '.' then s
  else { s with display := s.display.push '.' }

/-- Makes `op` the pending operator.  An operator that was pending before is carried out first, and
its result becomes the first operand. -/
def enterOperator (s : State) (op : Operator) : State :=
  let s :=
    match s.first, s.pending with
    | none, _ => { s with first := some s.operand }
    | some first, some pending =>
      let result := pending.calculate first s.operand
      { s with display := resultText result, first := result }
    | some _, none => s
  { s with awaiting := true, pending := some op }

/-- Carries out the pending operator, if there is one. -/
def finish (s : State) : State :=
  match s.first, s.pending with
  | some first, some op => { display := resultText (op.calculate first s.operand) }
  | _, _ => s

/-- Replaces the number on the display by the value of a function. -/
def applyFunction (s : State) (f : Function) : State :=
  { s with display := resultText (f.value s.operand), awaiting := true }

/-- Takes back the last character; a display of one character becomes a zero. -/
def erase (s : State) : State :=
  let cs := s.display.toList
  { s with display := if 1 < cs.length then .ofList cs.dropLast else "0" }

/-- The state after a key press. -/
def apply (s : State) (event : Event) : State :=
  if s.isError && event != .clear then s
  else
    match event with
    | .digit value => s.enterDigit value
    | .point => s.enterPoint
    | .operator op => s.enterOperator op
    | .function f => s.applyFunction f
    | .equals => s.finish
    | .backspace => s.erase
    | .clear => {}

end State

end Keypad

end Abacus
