import Abacus.Question
import Abacus.Toml.Parser

/-!
# Settings in a file

The program is configured by a TOML document with the sections `evaluator`, `storage` and `logging`.
A setting that is missing has its default, and settings that are not known are ignored.
-/

namespace Abacus

/-- How the program is configured. -/
structure Config where
  /-- How the variable is looked for. -/
  variableMatch : VariableMatch := .substring
  /-- How long a celebration goes on, in milliseconds. -/
  celebrationTime : Nat := 5000
  /-- The file of the store. -/
  storePath : Option String := none
  /-- What is logged by default. -/
  defaultLevel : String := "warn"
  /-- What is logged of parts of the program, in the order of their names. -/
  partLevels : List (String × String) := []
deriving DecidableEq, Repr, Inhabited

namespace Config

/-- How the variable is looked for, by its name in the document. -/
def variableMatch? : String → Option VariableMatch
  | "substring" => some .substring
  | "token" => some .token
  | _ => none

/-- Reads a setting; a missing one leaves things as they are. -/
def setting (read? : Toml → Option α) (default : α) : Option Toml → Option α
  | none => some default
  | some v => read? v

/-- The settings of the evaluator. -/
def evaluator? (c : Config) (section? : Toml) : Option Config :=
  match section?.fields? ["variable_match", "celebration_ms"] with
  | some [mode, time] => do
    let variableMatch ← setting (·.choice? >>= variableMatch?) c.variableMatch mode
    let celebrationTime ← setting Toml.word? c.celebrationTime time
    return { c with variableMatch, celebrationTime }
  | _ => none

/-- The settings of the store. -/
def storage? (c : Config) (section? : Toml) : Option Config :=
  match section?.fields? ["path"] with
  | some [path] => do
    return { c with storePath := ← setting (·.text?.map some) c.storePath path }
  | _ => none

/-- The settings of the log. -/
def logging? (c : Config) (section? : Toml) : Option Config :=
  match section?.fields? ["default", "modules"] with
  | some [level, parts] => do
    let defaultLevel ← setting Toml.text? c.defaultLevel level
    let partLevels ← setting Toml.texts? c.partLevels parts
    return { c with defaultLevel, partLevels := partLevels.mergeSort fun a b => a.1 ≤ b.1 }
  | _ => none

/-- Reads a section, if it is there. -/
def applySection (read? : Config → Toml → Option Config) (c : Config) :
    Option Toml → Option Config
  | none => some c
  | some v => read? c v

/-- The settings in a document. -/
def ofToml? (document : Toml) : Option Config :=
  match document.fields? ["evaluator", "storage", "logging"] with
  | some [evaluator, storage, logging] => do
    let c ← applySection evaluator? {} evaluator
    let c ← applySection storage? c storage
    applySection logging? c logging
  | _ => none

/-- The settings that a text gives. -/
def parse (text : String) : Option Config :=
  Toml.parse text >>= ofToml?

end Config

end Abacus
