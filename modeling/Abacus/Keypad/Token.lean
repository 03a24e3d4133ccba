import Abacus.Keypad.Event

/-!
# Keys as words

On the command line the keys of the keypad are given in words: the name of one key, or any number of
keys that are single characters.
-/

namespace Abacus

namespace Keypad

/-- The function with a name. -/
def Function.ofName? : String → Option Function
  | "sin" => some .sin
  | "cos" => some .cos
  | "tan" => some .tan
  | "log" => some .log
  | "ln" => some .ln
  | "sqrt" | "√" => some .sqrt
  | "sq" | "x2" | "x²" => some .square
  | "pi" | "π" => some .pi
  | _ => none

/-- The event of a key with a name. -/
def Event.ofName? (name : String) : Option Event :=
  match Function.ofName? name with
  | some f => some (.function f)
  | none =>
    match name with
    | "C" | "AC" | "clear" => some .clear
    | "back" => some .backspace
    | _ => ofKey? name

/-- The events of keys that are single characters, or the first character that is no key. -/
def Event.ofChars : List Char → Except Char (List Event)
  | [] => .ok []
  | c :: rest =>
    match ofKey? (.singleton c) with
    | none => .error c
    | some event => (ofChars rest).map (event :: ·)

/-- The events that a word spells, or the first character that is no key. -/
def Event.ofToken (token : String) : Except Char (List Event) :=
  match ofName? token with
  | some event => .ok [event]
  | none => ofChars token.toList

end Keypad

end Abacus
