import Abacus.Keypad.State

/-!
# The two keypads

The scientific keypad has all keys.  The basic one has no power, no functions and no backspace; an
event that a keypad has no key for leaves it unchanged.
-/

namespace Abacus

/-- The keys that a keypad has. -/
inductive Keypad.Variant
  | basic
  | scientific
deriving DecidableEq, Repr

/-- Whether a keypad has a key for an event. -/
def Keypad.Variant.supports : Variant → Event → Bool
  | .scientific, _ => true
  | .basic, .operator .pow | .basic, .function _ | .basic, .backspace => false
  | .basic, _ => true

/-- A keypad and its state. -/
structure Keypad where
  variant : Keypad.Variant
  state : Keypad.State := {}

namespace Keypad

/-- Presses a key. -/
def press (k : Keypad) (event : Event) : Keypad :=
  if k.variant.supports event then { k with state := k.state.apply event } else k

/-- Presses keys one after the other. -/
def pressAll (k : Keypad) (events : List Event) : Keypad :=
  events.foldl press k

/-- The text on the display. -/
def display (k : Keypad) : String :=
  k.state.display

end Keypad

end Abacus
