/-!
# JSON values

A JSON text as a value.  Numbers keep their spelling.  A string may hold an escape for one half of a
surrogate pair without the other; it is still JSON, but it stands for no text.

Records are objects with one field of each name, in any order and perhaps among others, or arrays of
the values in order (`Json.record?`).
-/

namespace Abacus

/-- A JSON value. -/
inductive Json
  | null
  | bool (b : Bool)
  | number (spelling : String)
  /-- A string; `none` if it stands for no text. -/
  | string (s : Option String)
  | array (items : List Json)
  | object (fields : List (Option String × Json))
deriving Inhabited

namespace Json

/-- A string that stands for a text. -/
def text (s : String) : Json :=
  .string (some s)

/-- A natural number. -/
def nat (n : Nat) : Json :=
  .number n.repr

/-- An object with fields of the given names. -/
def record (fields : List (String × Json)) : Json :=
  .object (fields.map fun (name, v) => (some name, v))

/-! ### Reading values -/

/-- The text that a string stands for. -/
def text? : Json → Option String
  | string s => s
  | _ => none

/-- A natural number below 256; its spelling has digits only. -/
def byte? : Json → Option Nat
  | number spelling =>
    let ds := spelling.toList
    if ds.all Char.isDigit && Nat.ofDigitChars 10 ds 0 < 256 then some (Nat.ofDigitChars 10 ds 0)
    else none
  | _ => none

/-- The items of an array, each read by `item?`. -/
def list? (item? : Json → Option α) : Json → Option (List α)
  | array items => items.mapM item?
  | _ => none

/-- The value of the one field with a name. -/
def field? (fields : List (Option String × Json)) (name : String) : Option Json :=
  match fields.filter (·.1 == some name) with
  | [(_, v)] => some v
  | _ => none

/-- The values of a record with the given fields. -/
def record? (names : List String) : Json → Option (List Json)
  | array items => if items.length = names.length then some items else none
  | object fields =>
    if fields.all (·.1.isSome) then names.mapM (field? fields) else none
  | _ => none

end Json

end Abacus
