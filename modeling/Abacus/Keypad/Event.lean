/-!
# Keys of a keypad

A keypad is driven by events, one for each key press.  `Event.ofKey?` reads an event off the name of
a physical key, `Operator.ofSymbol?` an operator off its symbol.
-/

namespace Abacus

namespace Keypad

/-- The operators that join two operands. -/
inductive Operator
  | add
  | sub
  | mul
  | div
  | pow
deriving DecidableEq, Repr

/-- The operator that a symbol stands for. -/
def Operator.ofSymbol? : String → Option Operator
  | "+" => some .add
  | "-" => some .sub
  | "*" | "×" => some .mul
  | "/" | "÷" => some .div
  | "^" => some .pow
  | _ => none

/-- The functions of one operand. -/
inductive Function
  | sin
  | cos
  | tan
  /-- The logarithm to base ten. -/
  | log
  /-- The natural logarithm. -/
  | ln
  | sqrt
  | square
  /-- The constant π, whatever the operand. -/
  | pi
deriving DecidableEq, Repr

/-- A key press. -/
inductive Event
  /-- A digit; a value above nine counts as nine. -/
  | digit (value : Nat)
  | point
  | operator (op : Operator)
  | function (f : Function)
  | equals
  | backspace
  | clear
deriving DecidableEq, Repr

/-- The event of a digit key. -/
def Event.ofDigit? (key : String) : Option Event :=
  match key.toList with
  | [c] => if c.isDigit then some (.digit (c.toNat - '0'.toNat)) else none
  | _ => none

/-- The event of a physical key. -/
def Event.ofKey? (key : String) : Option Event :=
  match key with
  | "." => some .point
  | "Enter" | "=" => some .equals
  | "Backspace" => some .backspace
  | "Escape" => some .clear
  | _ =>
    match Operator.ofSymbol? key with
    | some op => some (.operator op)
    | none => ofDigit? key

end Keypad

end Abacus
