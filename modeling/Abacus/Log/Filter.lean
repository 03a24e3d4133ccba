import Abacus.Decimal.Numeral
import Abacus.Log
import Abacus.Text.Blank
import Abacus.Text.Search
import Abacus.Text.Word

/-!
# Log filters

A filter is written as directives with commas between them.  A directive is a level, a target, or a
target and a level (`target=level`).  Of the targets that a record's target begins with, the longest
one decides; a directive without a target holds where no other one does.  A directive for spans,
with square brackets, concerns no record.  Without any directive, errors are logged.
-/

namespace Abacus

namespace Log

/-! ### Directives -/

/-- What is logged of a target: nothing, or the records up to a level. -/
abbrev Threshold : Type :=
  Option Level

/-- A directive. -/
inductive Directive
  /-- Logs a target, the empty one being all, up to a threshold. -/
  | records (target : String) (threshold : Threshold)
  /-- Concerns spans only. -/
  | spans
deriving DecidableEq, Repr

/-- Why a directive is ignored. -/
inductive DirectiveError
  | malformed
  | level
deriving DecidableEq, Repr

/-- How an error is worded. -/
def DirectiveError.message : DirectiveError → String
  | malformed => "invalid filter directive"
  | level => "error parsing level filter: expected one of \"off\", \"error\", \"warn\", " ++
      "\"info\", \"debug\", \"trace\", or a number 0-5"

/-- The threshold that a number stands for. -/
def Threshold.ofNat? : Nat → Option Threshold
  | 0 => some none
  | 1 => some (some .error)
  | 2 => some (some .warn)
  | 3 => some (some .info)
  | 4 => some (some .debug)
  | 5 => some (some .trace)
  | _ => none

/-- The threshold with a name, in any mixture of cases. -/
def Threshold.ofName? (name : String) : Option Threshold :=
  match String.ofList (name.toList.map Char.toLower) with
  | "off" => some none
  | "error" => some (some .error)
  | "warn" => some (some .warn)
  | "info" => some (some .info)
  | "debug" => some (some .debug)
  | "trace" => some (some .trace)
  | _ => none

/-- The threshold that a text spells, by number or by name. -/
def Threshold.parse? (text : String) : Option Threshold :=
  (Numeral.natural? text.toList >>= ofNat?) <|> ofName? text

/-- Whether a character may begin a directive with a target or a level. -/
def beginsDirective (c : Char) : Bool :=
  Text.isWordChar c || c == '-' || c == ':'

/-- The threshold after an equals sign; none means everything. -/
def thresholdAfterTarget (text : String) : Except DirectiveError Threshold :=
  if text = "" then .ok (some .trace)
  else
    match Threshold.parse? text with
    | some t => .ok t
    | none => .error .level

/-- The rest of a directive for spans, from its opening bracket on. -/
def spanDirective (cs : List Char) : Except DirectiveError Directive :=
  match Text.cutFirst? ']' cs with
  | none => .error .malformed
  | some (_, []) => .ok .spans
  | some (_, '=' :: level) => (thresholdAfterTarget (.ofList level)).map fun _ => .spans
  | some _ => .error .malformed

/-- Reads a directive.  Its first mark is looked for in the text without the blanks at its ends, but
counted off in the whole text. -/
def Directive.parse (text : String) : Except DirectiveError Directive :=
  let cs := text.toList
  match Text.trimChars cs with
  | [] => .error .malformed
  | '[' :: rest => spanDirective rest
  | c :: rest =>
    if beginsDirective c then
      match (c :: rest).findIdx? fun d => d == '=' || d == '[' with
      | none =>
        match Threshold.parse? text with
        | some t => .ok (.records "" t)
        | none => .ok (.records text (some .trace))
      | some i =>
        if (c :: rest)[i]? = some '[' then spanDirective ((c :: rest).drop (i + 1))
        else
          (thresholdAfterTarget (.ofList (cs.drop (i + 1)))).map (.records (.ofList (cs.take i)))
    else .error .malformed

/-! ### Filters -/

/-- Which records are logged: the thresholds of some targets. -/
structure Filter where
  thresholds : List (String × Threshold)
deriving DecidableEq, Repr

namespace Filter

/-- The filter for errors only. -/
def errors : Filter :=
  ⟨[("", some .error)]⟩

/-- The directives in a text, each with its spelling. -/
def directives (text : String) : List (String × Except DirectiveError Directive) :=
  let pieces := (Text.pieces ',' text.toList).filter (· ≠ [])
  pieces.map fun p => (.ofList p, Directive.parse (.ofList p))

/-- The directives that a filter consists of. -/
def accepted (text : String) : List Directive :=
  (directives text).filterMap (·.2.toOption)

/-- The filter that a text spells; what cannot be read is ignored. -/
def parse (text : String) : Filter :=
  match accepted text with
  | [] => errors
  | ds => ⟨ds.filterMap fun
      | .records target t => some (target, t)
      | .spans => none⟩

/-- What is to be said about the directives in a text that are ignored. -/
def complaints (text : String) : List String :=
  (directives text).filterMap fun
    | (_, .ok _) => none
    | (spelling, .error e) =>
      some ("ignoring `" ++ spelling ++ "`: " ++ e.message)

/-- The threshold of the longest target that `target` begins with; of two for the same target the
later one counts. -/
def threshold (f : Filter) (target : String) : Threshold :=
  let fitting := f.thresholds.filter fun (t, _) => t.toList.isPrefixOf target.toList
  let longest := fitting.foldl (fun best e =>
    match best with
    | none => some e
    | some b => if b.1.utf8ByteSize ≤ e.1.utf8ByteSize then some e else some b) none
  longest.bind (·.2)

/-- Whether a record is logged. -/
def accepts (f : Filter) (r : Record) : Bool :=
  (f.threshold r.target).any fun level => r.level.rank ≤ level.rank

end Filter

end Log

end Abacus
