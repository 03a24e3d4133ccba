import Abacus.Json.Basic

/-!
# Writing JSON

Values are written without blanks.  In a string the quote, the backslash and the control characters
below the space are escaped, and nothing else.
-/

namespace Abacus

namespace Json

/-- A character inside a string. -/
def escape (c : Char) : List Char :=
  match c with
  | '"' => ['\\', '"']
  | '\\' => ['\\', '\\']
  | '\n' => ['\\', 'n']
  | '\r' => ['\\', 'r']
  | '\t' => ['\\', 't']
  | '\u0008' => ['\\', 'b']
  | '\u000c' => ['\\', 'f']
  | _ =>
    if c.toNat < 0x20 then
      ['\\', 'u', '0', '0', Nat.digitChar (c.toNat / 16), Nat.digitChar (c.toNat % 16)]
    else [c]

/-- A text in quotes. -/
def quote (s : String) : List Char :=
  '"' :: s.toList.flatMap escape ++ ['"']

/-- Texts with commas between them. -/
def commaSeparated : List (List Char) → List Char
  | [] => []
  | [cs] => cs
  | cs :: rest => cs ++ ',' :: commaSeparated rest

mutual

/-- The text of a value.  A string that stands for no text is written as an empty one. -/
def print : Json → List Char
  | null => "null".toList
  | bool b => if b then "true".toList else "false".toList
  | number spelling => spelling.toList
  | string s => quote (s.getD "")
  | array items => '[' :: commaSeparated (printItems items) ++ [']']
  | object fields => '{' :: commaSeparated (printFields fields) ++ ['}']

/-- The texts of the items of an array. -/
def printItems : List Json → List (List Char)
  | [] => []
  | item :: rest => item.print :: printItems rest

/-- The texts of the fields of an object. -/
def printFields : List (Option String × Json) → List (List Char)
  | [] => []
  | (name, v) :: rest => (quote (name.getD "") ++ ':' :: v.print) :: printFields rest

end

/-- The text of a value. -/
def render (j : Json) : String :=
  .ofList j.print

end Json

end Abacus
