import Abacus.Text.Blank
import Abacus.Text.LowerCase
import Abacus.Text.Search
import Abacus.Text.Word

/-!
# Questions

What a user types is trimmed; that is the text shown in the history (`Question.typed`).  For the
expression engine every root sign is spelled out (`Question.normalized`): a root sign before a
number or a name becomes a call with this operand, any other one becomes the name `sqrt`.  In lower
case this is the key (`Question.key`) under which fixed replies are found, and in which the variable
is looked for.
-/

namespace Abacus

/-- The variable of a graph. -/
def graphVariable : String := "x"

/-! ### Root signs -/

namespace Root

/-- The length of the name at the start of a text. -/
def nameLength (cs : List Char) : Nat :=
  (Text.spanName cs).1.length

/-- The length of the operand at the start of a text: a number with digits at its end, or a name.
Zero means that there is none. -/
def operandLength (cs : List Char) : Nat :=
  let whole := (cs.takeWhile Char.isDigit).length
  let part :=
    match cs.drop whole with
    | '.' :: rest => (rest.takeWhile Char.isDigit).length
    | _ => 0
  if 0 < part then whole + 1 + part
  else if 0 < whole then whole
  else nameLength cs

/-- A text with its root signs spelled out.  The blanks between a root sign and its operand go. -/
def spellOut : List Char → List Char
  | [] => []
  | '√' :: rest =>
    let after := rest.dropWhile Text.isBlank
    let n := operandLength after
    if n = 0 then "sqrt".toList ++ spellOut rest
    else "sqrt(".toList ++ after.take n ++ ')' :: spellOut (after.drop n)
  | c :: rest => c :: spellOut rest
termination_by cs => cs.length
decreasing_by
  all_goals simp only [List.length_cons, List.length_drop]
  all_goals have := (List.dropWhile_sublist Text.isBlank (l := rest)).length_le
  all_goals omega

end Root

/-- A line of input in the three forms that the calculator needs. -/
structure Question where
  /-- The text as typed, trimmed. -/
  typed : String
  /-- The text for the expression engine. -/
  normalized : String
  /-- The text for look-ups, in lower case. -/
  key : String
deriving DecidableEq, Repr

/-- The question that a line of input asks. -/
def Question.ofText (text : String) : Question :=
  let typed := Text.trimChars text.toList
  let normalized := Root.spellOut typed
  { typed := .ofList typed
    normalized := .ofList normalized
    key := .ofList (Text.lowerChars [] normalized) }

/-! ### Fixed replies -/

/-- Phrases with a fixed reply. -/
def replies : List (String × String) := [
  ("what is the meaning of life", "42"),
  ("hello", "Hello there!"),
  ("tell me a joke", "Why don't scientists trust atoms? Because they make up everything!"),
  ("magic", "✨ Abracadabra! ✨"),
  ("dyad", "You're chatting with me right now!")]

/-- The fixed reply to a phrase in lower case. -/
def reply? (key : String) : Option String :=
  replies.lookup key

/-! ### The variable -/

/-- How the variable is looked for. -/
inductive VariableMatch
  /-- Anywhere, also inside longer names. -/
  | substring
  /-- Only where it stands alone. -/
  | token
deriving DecidableEq, Repr

/-- Whether a text in lower case mentions the variable. -/
def VariableMatch.mentions (mode : VariableMatch) (key : String) : Bool :=
  match mode with
  | .substring => key.toList.contains 'x'
  | .token => Text.standsAlone 'x' none key.toList

/-- Whether a text in lower case looks like a function to be plotted. -/
def VariableMatch.looksGraphable (mode : VariableMatch) (key : String) : Bool :=
  mode.mentions key && !Text.occurs "matrix".toList key.toList

end Abacus
