import Abacus.Store.File

/-!
# Stores

A store is in memory or in a file.  The calculator keeps its values as JSON texts under fixed keys:
it reads them once (`Store.load`) and then only writes (`Store.save`).
-/

namespace Abacus

/-- A store in memory or in a file. -/
inductive Store
  | memory (m : Store.Memory)
  | file (f : Store.File)

namespace Store

/-! ### Keys -/

/-- The key of the history. -/
def historyKey : String := "calcHistory"

/-- The key of the settings. -/
def settingsKey : String := "calcSettings"

/-- The key of the formula library. -/
def formulasKey : String := "custom-formulas"

/-! ### Reading -/

/-- The text under a key. -/
def get? : Store → String → Option String
  | memory m, key => m.get? key
  | file f, key => f.get? key

/-- Reads the value under a key; the log tells of a text that is no such value. -/
def load (get? : String → Option String) (decode? : Json → Option α) (key : String) :
    Traced (Option α) :=
  match get? key with
  | none => .ok none
  | some text =>
    match (Json.parse text).bind decode? with
    | some a => .ok (some a)
    | none => do
      .log .warn Log.store
      return none

/-! ### Writing -/

/-- Puts a text under a key; tells whether that succeeded. -/
def set : Store → FileTree → String → String → Store × FileTree × Bool
  | memory m, tree, key, value => (memory (m.set key value), tree, true)
  | file f, tree, key, value =>
    let (f, tree, outcome) := f.set tree key value
    (file f, tree, outcome.isOk)

/-- Saves a value.  A write that succeeds is logged by the program, which listens to its store, and
by the store; one that fails is logged as a warning and forgotten. -/
def save (s : Store) (tree : FileTree) (key value : String) :
    Store × FileTree × List Log.Record :=
  match s.set tree key value with
  | (s, tree, true) => (s, tree, [⟨.debug, Log.program⟩, ⟨.debug, Log.store⟩])
  | (s, tree, false) => (s, tree, [⟨.warn, Log.store⟩])

end Store

end Abacus
