import Abacus.CommandLine.Basic
import Abacus.Decimal.Numeral

/-!
# Reading a command line

A command line has levels: the program, its commands, and the commands of the formula library.  At
each level options come before, after and between the words; the words of the program and of the
formula library name the next level.  Two hyphens end the options.  Each option may be given once at
every level, and the innermost one counts.

Words do not begin with a hyphen, since options do.  The keys of the keypad may: from the first key
on everything is a key, and before it whatever is no option.
-/

namespace Abacus

namespace Arguments

/-! ### Levels -/

/-- What is understood at a level. -/
structure Level where
  /-- The flag of this command. -/
  flag : Option String := none
  /-- The commands that may follow. -/
  commands : List String := []
  /-- Whether words may begin with a hyphen. -/
  freeWords : Bool := false
  /-- Whether the version may be asked for. -/
  hasVersion : Bool := false

/-- The program itself. -/
def Level.program : Level where
  commands := ["eval", "repl", "keypad", "plot", "history", "precision", "suggestions", "formula",
    "marks"]
  hasVersion := true

/-- The formula library. -/
def Level.formula : Level where
  commands := ["add", "list", "remove", "eval"]

/-- A part of a command line. -/
inductive Item
  | config (path : String)
  | store (path : String)
  | ephemeral
  /-- The flag of the command. -/
  | flag
  | word (text : String)
  /-- The name of the next level and its arguments. -/
  | command (name : String) (arguments : List String)
  | help
  | version
deriving DecidableEq, Repr

/-! ### Single arguments -/

/-- What an argument may be. -/
inductive Kind
  | item (i : Item)
  /-- An option whose value is the next argument. -/
  | option (make : String → Item)
  | word
  | unknown

/-- The text after `start`, if `s` begins with it. -/
def after? (start s : String) : Option String :=
  if start.toList.isPrefixOf s.toList then some (.ofList (s.toList.drop start.length)) else none

/-- Some letters after a hyphen. -/
def Level.lettersKind (l : Level) : List Char → Kind
  | [] => .word
  | c :: cs =>
    if l.freeWords && (c :: cs).any (· != 'h') then .word
    else if c = 'h' then .item .help
    else if c = 'V' && l.hasVersion then .item .version
    else .unknown

/-- What an argument is. -/
def Level.kind (l : Level) (arg : String) : Kind :=
  if arg = "--config" then .option .config
  else if arg = "--store" then .option .store
  else if arg = "--ephemeral" then .item .ephemeral
  else if some arg = l.flag then .item .flag
  else if arg = "--help" then .item .help
  else if arg = "--version" ∧ l.hasVersion then .item .version
  else
    match after? "--config=" arg, after? "--store=" arg with
    | some path, _ => if path = "" then .unknown else .item (.config path)
    | none, some path => if path = "" then .unknown else .item (.store path)
    | none, none =>
      if (after? "--ephemeral=" arg).isSome ∨ (after? "--help=" arg).isSome ∨
        (l.flag.any fun flag => (after? (flag ++ "=") arg).isSome) then .unknown
      else
        match arg.toList with
        | '-' :: '-' :: _ => if l.freeWords then .word else .unknown
        | '-' :: letters => l.lettersKind letters
        | _ => .word

/-- Whether an argument can be the value of an option. -/
def isValue (arg : String) : Bool :=
  arg != "" && (arg == "-" || arg.toList.head? != some '-')

/-! ### Items -/

/-- The items of a level up to the name of the next one; `started` tells of a word before. -/
def Level.items (l : Level) (started : Bool) : List String → Option (List Item)
  | [] => some []
  | arg :: rest =>
    if started && l.freeWords then (l.items true rest).map (.word arg :: ·)
    else if arg = "--" then some (rest.map .word)
    else
      match l.kind arg with
      | .item .help => some [.help]
      | .item .version => some [.version]
      | .item i => (l.items started rest).map (i :: ·)
      | .option make =>
        match rest with
        | [] => none
        | path :: rest =>
          if isValue path then (l.items started rest).map (make path :: ·) else none
      | .word =>
        if l.commands = [] then (l.items true rest).map (.word arg :: ·)
        else if l.commands.contains arg then some [.command arg rest]
        else if arg = "help" then
          if rest.all l.commands.contains then some [.help] else none
        else none
      | .unknown => none

/-- Whether some items ask for help. -/
def asksForHelp (items : List Item) : Bool :=
  items.contains .help

/-- The words among some items. -/
def words (items : List Item) : List String :=
  items.filterMap fun
    | .word text => some text
    | _ => none

/-- The next level among some items. -/
def next? (items : List Item) : Option (String × List String) :=
  items.findSome? fun
    | .command name arguments => some (name, arguments)
    | _ => none

/-- The options among some items, which add to those of the outer levels; none if one of them is
given twice. -/
def options? (outer : Options) (items : List Item) : Option Options :=
  let configs := items.filterMap fun
    | .config path => some path
    | _ => none
  let stores := items.filterMap fun
    | .store path => some path
    | _ => none
  let ephemeral := items.count .ephemeral
  if configs.length ≤ 1 ∧ stores.length ≤ 1 ∧ ephemeral ≤ 1 ∧ items.count .flag ≤ 1 then
    some {
      config := configs.head? <|> outer.config
      store := stores.head? <|> outer.store
      ephemeral := outer.ephemeral || ephemeral != 0 }
  else none

/-! ### Commands -/

/-- A precision: a whole number below 256. -/
def precision? (text : String) : Option Nat :=
  match Numeral.integer? text.toList with
  | some (.ofNat n) => if n < 256 then some n else none
  | _ => none

/-- A position: a natural number below `2 ^ 64`. -/
def position? (text : String) : Option Nat :=
  match Numeral.natural? text.toList with
  | some n => if n < UInt64.size then some n else none
  | none => none

/-- What is understood after the name of a command of the program. -/
def levelOf : String → Level
  | "keypad" => { flag := some "--scientific", freeWords := true }
  | "history" => { flag := some "--clear" }
  | "formula" => .formula
  | _ => {}

/-- The command with a name, words and perhaps a flag. -/
def command? (name : String) (flag : Bool) (words : List String) : Option Command :=
  match name, words with
  | "eval", words => some (.eval words)
  | "repl", [] => some .repl
  | "keypad", keys => some (.keypad flag keys)
  | "plot", words => some (.plot words)
  | "history", [] => some (.history flag)
  | "precision", [] => some (.precision none)
  | "precision", [value] => (precision? value).map (.precision ∘ some)
  | "suggestions", [] => some .suggestions
  | "marks", assessments => some (.marks assessments)
  | _, _ => none

/-- The command of the formula library with a name and words. -/
def formulaCommand? (name : String) (words : List String) : Option FormulaCommand :=
  match name, words with
  | "add", [name, expression, declaration] => some (.add name expression declaration)
  | "list", [] => some .list
  | "remove", [position] => (position? position).map .remove
  | "eval", position :: values => (position? position).map (.eval · values)
  | _, _ => none

/-- The request for a command of the formula library. -/
def formulaRequest? (outer : Options) (name : String) (arguments : List String) :
    Option Request := do
  let items ← Level.items {} false arguments
  if asksForHelp items then return .help
  let options ← options? outer items
  return .run options (.formula (← formulaCommand? name (words items)))

/-- The request for a command of the program. -/
def commandRequest? (outer : Options) (name : String) (arguments : List String) :
    Option Request := do
  let items ← (levelOf name).items false arguments
  if asksForHelp items then return .help
  let options ← options? outer items
  match next? items with
  | some (inner, arguments) => formulaRequest? options inner arguments
  | none => return .run options (← command? name (items.contains .flag) (words items))

end Arguments

/-- The request that a command line makes, if it is well formed. -/
def Request.ofArguments? (arguments : List String) : Option Request := do
  let items ← Arguments.Level.program.items false arguments
  if Arguments.asksForHelp items then return .help
  if items.contains .version then return .version
  let options ← Arguments.options? {} items
  match Arguments.next? items with
  | some (name, arguments) => Arguments.commandRequest? options name arguments
  | none => if Arguments.words items = [] then return .run options .repl else none

end Abacus
