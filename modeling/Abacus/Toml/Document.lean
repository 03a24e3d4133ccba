import Abacus.Toml.Basic

/-!
# TOML documents

A document is a list of statements: headers, each of which opens a table, and entries of the table
that was opened last.  A table is defined once: by its header, or by the dotted keys of one table; a
table that is only named on the way to another one may still get a header of its own.  Whatever was
given as a value cannot be added to.
-/

namespace Abacus

namespace Toml

/-- How a table came about. -/
inductive Origin
  /-- By a header of its own. -/
  | header
  /-- On the way to the table of another header. -/
  | passing
  /-- By a dotted key. -/
  | dotted
deriving DecidableEq, Repr

/-- A part of a document that is being read. -/
inductive Draft
  | value (v : Toml)
  | table (origin : Origin) (entries : List (String × Draft))
  /-- The tables of one array of tables; the last one is being filled. -/
  | tables (elements : List (List (String × Draft)))
deriving Inhabited

namespace Draft

/-- The entries of a table that is being read. -/
abbrev Entries : Type :=
  List (String × Draft)

/-- Puts something else under a name that is there. -/
def replace (entries : Entries) (name : String) (d : Draft) : Entries :=
  entries.map fun e => if e.1 = name then (name, d) else e

/-- Changes the table that a path leads to; `dotted` tells whether the path is a dotted key or a
header.  Tables that are missing are made on the way. -/
def update (dotted : Bool) (change : Origin → Entries → Option Entries) :
    List String → Origin → Entries → Option Entries
  | [], origin, entries => change origin entries
  | name :: path, _, entries =>
    match entries.lookup name with
    | none => do
      let origin := if dotted then .dotted else .passing
      return entries ++ [(name, .table origin (← update dotted change path origin []))]
    | some (.value _) => none
    | some (.table origin inner) => do
      if dotted && origin == .header then none
      return replace entries name (.table origin (← update dotted change path origin inner))
    | some (.tables elements) => do
      let last ← update dotted change path .header (elements.getLastD [])
      return replace entries name (.tables (elements.dropLast ++ [last]))

/-- Adds an entry; `key` is the path of a dotted key without its last name. -/
def insert (key : List String) (name : String) (v : Toml) (entries : Entries) : Option Entries :=
  update true (fun origin inner => do
    if key ≠ [] ∧ origin ≠ .dotted then none
    if (inner.lookup name).isSome then none
    return inner ++ [(name, .value v)]) key .header entries

/-- Opens the table of a header. -/
def openTable (name : String) (entries : Entries) : Option Entries :=
  match entries.lookup name with
  | none => some (entries ++ [(name, .table .header [])])
  | some (.table .passing inner) => some (replace entries name (.table .header inner))
  | _ => none

/-- Opens one more table of an array. -/
def openElement (name : String) (entries : Entries) : Option Entries :=
  match entries.lookup name with
  | none => some (entries ++ [(name, .tables [[]])])
  | some (.tables elements) => some (replace entries name (.tables (elements ++ [[]])))
  | _ => none

mutual

/-- The value that was read. -/
def toToml : Draft → Toml
  | value v => v
  | table _ entries => .table (entriesToToml entries)
  | tables elements => .array (elementsToToml elements)

/-- The entries that were read. -/
def entriesToToml : List (String × Draft) → List (String × Toml)
  | [] => []
  | (name, d) :: rest => (name, d.toToml) :: entriesToToml rest

/-- The tables that were read. -/
def elementsToToml : List (List (String × Draft)) → List Toml
  | [] => []
  | entries :: rest => .table (entriesToToml entries) :: elementsToToml rest

end

end Draft

/-- A statement of a document.  Each path is given as its last name and the names before it. -/
inductive Statement
  /-- Opens a table. -/
  | table (path : List String) (name : String)
  /-- Opens one more table of an array. -/
  | element (path : List String) (name : String)
  /-- An entry of the open table. -/
  | entry (path : List String) (name : String) (v : Toml)
deriving Repr

namespace Statement

/-- A document that is being read: what there is, and the path of the open table. -/
structure State where
  entries : Draft.Entries := []
  current : List String := []

/-- Carries out a statement. -/
def apply (s : State) : Statement → Option State
  | table path name => do
    let entries ← Draft.update false (fun _ => Draft.openTable name) path .header s.entries
    return ⟨entries, path ++ [name]⟩
  | element path name => do
    let entries ← Draft.update false (fun _ => Draft.openElement name) path .header s.entries
    return ⟨entries, path ++ [name]⟩
  | entry path name v => do
    let entries ←
      Draft.update false (fun _ => Draft.insert path name v) s.current .header s.entries
    return ⟨entries, s.current⟩

end Statement

/-- The table that the statements of a document define. -/
def ofStatements? (statements : List Statement) : Option Toml := do
  let s ← statements.foldlM Statement.apply {}
  return .table (Draft.entriesToToml s.entries)

/-- The table that entries between braces define. -/
def inlineTable? (entries : List (List String × String × Toml)) : Option Toml := do
  let s ← entries.foldlM (fun es (path, name, v) => Draft.insert path name v es) []
  return .table (Draft.entriesToToml s)

end Toml

end Abacus
