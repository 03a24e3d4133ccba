import Abacus.Store.Basic

/-!
# History and settings

The history holds the last twenty calculations, the newest first.  The only setting is the precision
of answers, at most fourteen digits.  Both are loaded once and saved whole after every change; what
is absent or malformed in the store counts as an empty history and the default precision.
-/

namespace Abacus

/-- A past calculation. -/
structure HistoryItem where
  /-- The input as typed. -/
  input : String
  result : String
deriving DecidableEq, Repr, Inhabited

namespace HistoryItem

/-- The stored form of an item. -/
def toJson (i : HistoryItem) : Json :=
  .record [("expression", .text i.input), ("result", .text i.result)]

/-- Reads the stored form of an item. -/
def ofJson? (j : Json) : Option HistoryItem :=
  match j.record? ["expression", "result"] with
  | some [input, result] => do return ⟨← input.text?, ← result.text?⟩
  | _ => none

end HistoryItem

/-- The greatest length of the history. -/
def historyLimit : Nat := 20

/-- The greatest precision, which is also the default. -/
def maxPrecision : Nat := 14

/-- History and settings. -/
structure Records where
  /-- The past calculations, the newest first. -/
  history : List HistoryItem := []
  /-- The number of significant digits in answers. -/
  precision : Nat := maxPrecision
deriving DecidableEq, Repr, Inhabited

namespace Records

/-- The stored form of a history. -/
def historyJson (history : List HistoryItem) : Json :=
  .array (history.map HistoryItem.toJson)

/-- The stored form of the settings. -/
def settingsJson (precision : Nat) : Json :=
  .record [("precision", .nat precision)]

/-- Reads the stored form of a history. -/
def history? : Json → Option (List HistoryItem) :=
  Json.list? HistoryItem.ofJson?

/-- Reads the stored form of the settings. -/
def settings? (j : Json) : Option Nat :=
  match j.record? ["precision"] with
  | some [v] => v.byte?
  | _ => none

/-- Loads history and settings from a store. -/
def load (get? : String → Option String) : Traced Records := do
  let history ← Store.load get? history? Store.historyKey
  let precision ← Store.load get? settings? Store.settingsKey
  return {
    history := (history.getD []).take historyLimit
    precision := min (precision.getD maxPrecision) maxPrecision }

/-- Saves the history. -/
def saveHistory (r : Records) : Traced Records := do
  .save Store.historyKey (historyJson r.history).render
  return r

/-- Puts a calculation at the front of the history. -/
def record (r : Records) (item : HistoryItem) : Traced Records :=
  saveHistory { r with history := (item :: r.history).take historyLimit }

/-- Forgets the history. -/
def clear (r : Records) : Traced Records :=
  saveHistory { r with history := [] }

/-- Sets the precision; a value above the greatest one stands for that. -/
def setPrecision (r : Records) (precision : Nat) : Traced Records := do
  let r := { r with precision := min precision maxPrecision }
  .save Store.settingsKey (settingsJson r.precision).render
  return r

end Records

end Abacus
