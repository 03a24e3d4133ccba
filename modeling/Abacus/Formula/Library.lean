import Abacus.Formula.Basic
import Abacus.Json.Printer
import Abacus.Store.Basic

/-!
# The formula library

A list of formulas, which is loaded once and saved whole when a formula is added or removed.  Every
formula that is added has an expression that can be parsed.  A step that fails changes and saves
nothing.
-/

namespace Abacus

/-- A list of formulas. -/
structure Library where
  formulas : List Formula := []
deriving DecidableEq, Repr, Inhabited

namespace Library

/-- The stored form of a library. -/
def toJson (l : Library) : Json :=
  .array (l.formulas.map Formula.toJson)

/-- Reads the stored form of a library. -/
def ofJson? (j : Json) : Option Library :=
  (j.list? Formula.ofJson?).map Library.mk

/-- Loads the library from a store; it is empty if it is absent or malformed there. -/
def load (get? : String → Option String) : Traced Library := do
  return (← Store.load get? ofJson? Store.formulasKey).getD {}

/-- Saves the library. -/
def save (l : Library) : Traced Unit :=
  .save Store.formulasKey l.toJson.render

/-- The formula at a position. -/
def get? (l : Library) (position : Nat) : Option Formula :=
  l.formulas[position]?

/-- Adds a formula at the end. -/
def add (l : Library) (f : Formula) : Traced (Except Formula.Error Library) :=
  match Calculation.parse f.expression with
  | .error e => return .error (.invalidExpression e)
  | .ok _ => do
    .log .debug Log.formula
    let l : Library := ⟨l.formulas ++ [f]⟩
    l.save
    return .ok l

/-- Takes the formula at a position out. -/
def remove (l : Library) (position : Nat) : Traced (Except Formula.Error (Formula × Library)) :=
  match l.get? position with
  | none => return .error (.notFound position)
  | some f => do
    let l : Library := ⟨l.formulas.eraseIdx position⟩
    l.save
    return .ok (f, l)

/-- The value of the formula at a position, as text. -/
def evaluate (l : Library) (position : Nat) (inputs : Formula.Inputs) :
    Traced (Except Formula.Error String) :=
  match l.get? position with
  | none => return .error (.notFound position)
  | some f => f.evaluate inputs

end Library

end Abacus
