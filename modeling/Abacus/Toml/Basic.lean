/-!
# TOML values

Values as a TOML document holds them.  A number that is not whole keeps no more than its being one,
and a date no more than its being one, because no setting has such a value.

`Toml.fields?` reads a record: a table with its fields by name, or an array of them in order.
Fields may be missing, and anything else that is there is ignored.
-/

namespace Abacus

/-- A TOML value; the names in a table are distinct. -/
inductive Toml
  | text (s : String)
  | integer (n : Int)
  | float
  | boolean (b : Bool)
  | date
  | array (items : List Toml)
  | table (entries : List (String × Toml))
deriving Repr, Inhabited

namespace Toml

/-- The text that a value is. -/
def text? : Toml → Option String
  | text s => some s
  | _ => none

/-- The natural number below `2 ^ 64` that a value is. -/
def word? : Toml → Option Nat
  | integer (.ofNat n) => if n < UInt64.size then some n else none
  | _ => none

/-- The entries of a table, all of which are texts. -/
def texts? : Toml → Option (List (String × String))
  | table entries => entries.mapM fun (name, v) => v.text?.map fun s => (name, s)
  | _ => none

/-- Whether a value is an empty table or an empty array. -/
def isEmpty : Toml → Bool
  | array items => items.isEmpty
  | table entries => entries.isEmpty
  | _ => false

/-- The name that a value picks out of some names: a text, or a table with one empty entry. -/
def choice? : Toml → Option String
  | text s => some s
  | table [(name, v)] => if v.isEmpty then some name else none
  | _ => none

/-- The values of a record with the given fields.  A date is a record without any of them. -/
def fields? (names : List String) : Toml → Option (List (Option Toml))
  | table entries => some (names.map (List.lookup · entries))
  | array items => some ((List.range names.length).map (items[·]?))
  | date => some (names.map fun _ => none)
  | _ => none

end Toml

end Abacus
