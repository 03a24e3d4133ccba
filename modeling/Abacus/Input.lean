/-!
# The input line

The text that is being typed, with a selection.  Keys insert their text over the selection; a key
for a function leaves the caret between its brackets.  Positions count characters, and every
selection lies in the text.
-/

namespace Abacus

/-- The text being typed. -/
structure Input where
  text : String := ""
  /-- Where the selection starts. -/
  start : Nat := 0
  /-- Where the selection stops; the caret is here. -/
  stop : Nat := 0
deriving DecidableEq, Repr, Inhabited

namespace Input

/-! ### Editing -/

/-- The position of the caret. -/
def caret (i : Input) : Nat :=
  i.stop

/-- Replaces the text and puts the caret at its end. -/
def setText (_ : Input) (text : String) : Input :=
  { text, start := text.length, stop := text.length }

/-- Empties the line. -/
def clear (i : Input) : Input :=
  i.setText ""

/-- Selects the characters between two positions, given in either order. -/
def select (i : Input) (a b : Nat) : Input :=
  let a := min a i.text.length
  let b := min b i.text.length
  { i with start := min a b, stop := max a b }

/-- Puts the caret at a position and selects nothing. -/
def setCaret (i : Input) (position : Nat) : Input :=
  i.select position position

/-- The text before the selection. -/
def before (i : Input) : List Char :=
  i.text.toList.take i.start

/-- The selected text. -/
def selected (i : Input) : List Char :=
  (i.text.toList.take i.stop).drop i.start

/-- The text after the selection. -/
def after (i : Input) : List Char :=
  i.text.toList.drop i.stop

/-- Whether a key ends with a pair of brackets. -/
def isCall (key : List Char) : Bool :=
  "()".toList.isSuffixOf key

/-- Puts the text of a key in the place of the selection. -/
def insert (i : Input) (key : String) : Input :=
  let key := key.toList
  let caret := i.start + (if isCall key then key.length - 1 else key.length)
  { text := .ofList (i.before ++ key ++ i.after), start := caret, stop := caret }

theorem toList_insert (i : Input) (key : String) :
    (i.insert key).text.toList = i.before ++ key.toList ++ i.after := by
  simp [insert]

theorem start_le_stop_select (i : Input) (a b : Nat) :
    (i.select a b).start ≤ (i.select a b).stop := by
  simp only [select]
  omega

theorem stop_select_le (i : Input) (a b : Nat) : (i.select a b).stop ≤ i.text.length := by
  simp only [select]
  omega

/-! ### Keys -/

/-- What a key on the screen asks for. -/
inductive Key
  /-- Types a text. -/
  | text (value : String)
  /-- Wipes the line and the result. -/
  | clear
  /-- Asks for the result. -/
  | equals
deriving DecidableEq, Repr

/-- The key with a value. -/
def Key.ofValue : String → Key
  | "=" => equals
  | "C" => clear
  | value => text value

/-- The keys for functions, with their labels. -/
def scientificKeys : List (String × String) := [
  ("sin", "sin()"), ("cos", "cos()"), ("tan", "tan()"), ("log", "log()"), ("ln", "ln()"),
  ("√", "sqrt()"), ("x²", "^2"), ("xʸ", "^"), ("(", "("), (")", ")"), ("π", "pi"), ("e", "e")]

/-- The keys for numbers and operators, with their labels. -/
def numericKeys : List (String × String) := [
  ("7", "7"), ("8", "8"), ("9", "9"), ("÷", "/"),
  ("4", "4"), ("5", "5"), ("6", "6"), ("×", "*"),
  ("1", "1"), ("2", "2"), ("3", "3"), ("-", "-"),
  ("0", "0"), (".", "."), ("=", "="), ("+", "+"), ("C", "C")]

/-- Inputs to try. -/
def suggestions : List String := [
  "sqrt(144) + 2^3",
  "15% of 300",
  "5 feet to cm",
  "cos(45 deg)",
  "1 BTC in USD",
  "1998-03-24 to days"]

end Input

end Abacus
