import Abacus.Text.Hexadecimal
import Abacus.Toml.Document
import Abacus.Toml.Scalar

/-!
# Reading TOML

Statements stand on lines of their own; inside brackets lines may end anywhere.  Both ends of line
are read as line feeds first, so that a carriage return elsewhere is a control character, and no
control characters but tabs are allowed.  Values nest at most eighty deep.  `Toml.parse` gives no
reason when it refuses a text, because nobody asks for one.
-/

namespace Abacus

namespace Toml

/-! ### Blanks and comments -/

/-- The blanks in a line. -/
def isSpace (c : Char) : Bool :=
  c == ' ' || c == '\t'

/-- Whether a character may stand in a comment or a text as it is. -/
def isPrintable (c : Char) : Bool :=
  c == '\t' || (0x20 ≤ c.toNat && c.toNat != 0x7F)

/-- A text without the blanks at its start. -/
def skipSpaces (cs : List Char) : List Char :=
  cs.dropWhile isSpace

/-- What follows the comment at the start of a text, if there is one. -/
def skipComment : List Char → List Char
  | '#' :: rest => rest.dropWhile isPrintable
  | cs => cs

/-- The rest of a line without anything on it, with its end, and what follows it. -/
def endOfLine? (cs : List Char) : Option (List Char) :=
  match skipComment (skipSpaces cs) with
  | [] => some []
  | '\n' :: rest => some rest
  | _ => none

/-- A text without the blanks, comments and ends of line at its start; `fuel` bounds the number of
lines. -/
def skipLines : Nat → List Char → List Char
  | 0, cs => cs
  | fuel + 1, cs =>
    match skipComment (skipSpaces cs) with
    | '\n' :: rest => skipLines fuel rest
    | rest => rest

/-- What comes next inside brackets. -/
def next (cs : List Char) : List Char :=
  skipLines cs.length cs

/-! ### Texts -/

/-- The character that a letter after a backslash stands for. -/
def unescape? : Char → Option Char
  | '"' => some '"'
  | '\\' => some '\\'
  | 'b' => some '\u0008'
  | 'e' => some '\u001b'
  | 'f' => some '\u000c'
  | 'n' => some '\n'
  | 'r' => some '\r'
  | 't' => some '\t'
  | _ => none

/-- The character with a code; surrogates are none. -/
def charOfCode? (code : Nat) : Option Char :=
  if code < 0xD800 ∨ (0xE000 ≤ code ∧ code < 0x110000) then some (Char.ofNat code) else none

/-- The number of digits after a letter that begins a code. -/
def codeLength? : Char → Option Nat
  | 'x' => some 2
  | 'u' => some 4
  | 'U' => some 8
  | _ => none

/-- The character that is spelled after a backslash, and the number of characters that spell it. -/
def escape? (c : Char) (rest : List Char) : Option (Char × Nat) :=
  match codeLength? c with
  | none => (unescape? c).map (·, 1)
  | some n => do
    let ds := rest.take n
    if ds.length < n then none
    return (← charOfCode? (← Text.hexNumber? ds), n + 1)

/-- The inside of a text on one line with escapes, and what follows its closing quote.  Escapes are
skipped by counting: `skip` characters were read already. -/
def basic? (skip : Nat) : List Char → Option (List Char × List Char)
  | [] => none
  | c :: rest =>
    match skip with
    | skip + 1 => basic? skip rest
    | 0 =>
      if c = '"' then some ([], rest)
      else if c = '\\' then
        match rest with
        | [] => none
        | d :: after => do
          let (e, n) ← escape? d after
          let (cs, rest) ← basic? n rest
          return (e :: cs, rest)
      else if isPrintable c then do
        let (cs, rest) ← basic? 0 rest
        return (c :: cs, rest)
      else none

/-- The inside of a text on one line without escapes, and what follows its closing quote. -/
def literal? : List Char → Option (List Char × List Char)
  | [] => none
  | c :: rest =>
    if c = '\'' then some ([], rest)
    else if isPrintable c then do
      let (cs, rest) ← literal? rest
      return (c :: cs, rest)
    else none

/-- The end of a text on many lines, where three quotes come next: as many as two more quotes belong
to the text. -/
def closing (quote : Char) (cs : List Char) : List Char × List Char :=
  let extra := min 2 ((cs.drop 3).takeWhile (· == quote)).length
  (List.replicate extra quote, cs.drop (3 + extra))

/-- The number of characters from a backslash at the end of a line up to the next character that is
seen; zero if the backslash is not at the end of a line. -/
def continuation (rest : List Char) : Nat :=
  let after := skipSpaces rest
  if after.head? = some '\n' then
    (rest.takeWhile fun c => isSpace c || c == '\n').length
  else 0

/-- The inside of a text on many lines with escapes, and what follows its closing quotes. -/
def multilineBasic? (skip : Nat) : List Char → Option (List Char × List Char)
  | [] => none
  | c :: rest =>
    match skip with
    | skip + 1 => multilineBasic? skip rest
    | 0 =>
      if ['"', '"', '"'].isPrefixOf (c :: rest) then some (closing '"' (c :: rest))
      else if c = '\\' then
        match rest with
        | [] => none
        | d :: after =>
          match continuation rest with
          | 0 => do
            let (e, n) ← escape? d after
            let (cs, rest) ← multilineBasic? n rest
            return (e :: cs, rest)
          | n => multilineBasic? n rest
      else if isPrintable c || c == '\n' then do
        let (cs, rest) ← multilineBasic? 0 rest
        return (c :: cs, rest)
      else none

/-- The inside of a text on many lines without escapes, and what follows its closing quotes. -/
def multilineLiteral? : List Char → Option (List Char × List Char)
  | [] => none
  | c :: rest =>
    if ['\'', '\'', '\''].isPrefixOf (c :: rest) then some (closing '\'' (c :: rest))
    else if isPrintable c || c == '\n' then do
      let (cs, rest) ← multilineLiteral? rest
      return (c :: cs, rest)
    else none

/-- A text without the end of line at its start. -/
def dropNewline : List Char → List Char
  | '\n' :: rest => rest
  | cs => cs

/-- The text in quotes at the start of the input. -/
def quoted? : List Char → Option (List Char × List Char)
  | '"' :: '"' :: '"' :: rest => multilineBasic? 0 (dropNewline rest)
  | '\'' :: '\'' :: '\'' :: rest => multilineLiteral? (dropNewline rest)
  | '"' :: rest => basic? 0 rest
  | '\'' :: rest => literal? rest
  | _ => none

/-! ### Keys -/

/-- Whether a character may stand in a name without quotes. -/
def inBareKey (c : Char) : Bool :=
  c.isAlphanum || c == '_' || c == '-'

/-- A name. -/
def name? : List Char → Option (List Char × List Char)
  | '"' :: rest => basic? 0 rest
  | '\'' :: rest => literal? rest
  | cs =>
    match cs.takeWhile inBareKey with
    | [] => none
    | word => some (word, cs.dropWhile inBareKey)

/-- Names with points between them: the last name, the names before it, and what follows them.
`fuel` bounds their number. -/
def key? : Nat → List Char → Option ((List String × String) × List Char)
  | 0, _ => none
  | fuel + 1, cs => do
    let (name, rest) ← name? (skipSpaces cs)
    let name := String.ofList name
    match skipSpaces rest with
    | '.' :: rest => do
      let ((path, last), rest) ← key? fuel rest
      return ((name :: path, last), rest)
    | rest => return (([], name), rest)

/-- The key at the start of a text. -/
def spanKey? (cs : List Char) : Option ((List String × String) × List Char) :=
  key? (cs.length + 1) cs

/-! ### Values -/

/-- How deep values may nest. -/
def maxDepth : Nat := 80

mutual

/-- The value at the start of a text; `depth` brackets may still be opened. -/
def value? : Nat → Nat → List Char → Option (Toml × List Char)
  | 0, _, _ => none
  | fuel + 1, depth, cs =>
    match cs with
    | '[' :: rest => do
      if depth = 0 then none
      let (items, rest) ← items? fuel (depth - 1) (next rest)
      return (.array items, rest)
    | '{' :: rest => do
      if depth = 0 then none
      let (entries, rest) ← entries? fuel (depth - 1) (next rest)
      return (← inlineTable? entries, rest)
    | '"' :: _ | '\'' :: _ => (quoted? cs).map fun (s, rest) => (.text (.ofList s), rest)
    | _ =>
      let (word, rest) := spanScalar cs
      (scalar? word).map (·, rest)

/-- The items of an array, with the closing bracket. -/
def items? : Nat → Nat → List Char → Option (List Toml × List Char)
  | 0, _, _ => none
  | _ + 1, _, ']' :: rest => some ([], rest)
  | fuel + 1, depth, cs => do
    let (item, rest) ← value? fuel depth cs
    match next rest with
    | ',' :: rest => do
      let (others, rest) ← items? fuel depth (next rest)
      return (item :: others, rest)
    | ']' :: rest => return ([item], rest)
    | _ => none

/-- The entries of a table between braces, with the closing brace. -/
def entries? : Nat → Nat → List Char → Option (List (List String × String × Toml) × List Char)
  | 0, _, _ => none
  | _ + 1, _, '}' :: rest => some ([], rest)
  | fuel + 1, depth, cs => do
    let ((path, name), rest) ← spanKey? cs
    match rest with
    | '=' :: rest => do
      let (v, rest) ← value? fuel depth (skipSpaces rest)
      match next rest with
      | ',' :: rest => do
        let (others, rest) ← entries? fuel depth (next rest)
        return ((path, name, v) :: others, rest)
      | '}' :: rest => return ([(path, name, v)], rest)
      | _ => none
    | _ => none

end

/-! ### Documents -/

/-- The statement at the start of a text, up to the end of its line. -/
def statement? (cs : List Char) : Option (Statement × List Char) :=
  match cs with
  | '[' :: '[' :: rest => do
    let ((path, name), rest) ← spanKey? rest
    match rest with
    | ']' :: ']' :: rest => return (.element path name, ← endOfLine? rest)
    | _ => none
  | '[' :: rest => do
    let ((path, name), rest) ← spanKey? rest
    match rest with
    | ']' :: rest => return (.table path name, ← endOfLine? rest)
    | _ => none
  | _ => do
    let ((path, name), rest) ← spanKey? cs
    match rest with
    | '=' :: rest => do
      let (v, rest) ← value? (2 * rest.length + 2) maxDepth (skipSpaces rest)
      return (.entry path name v, ← endOfLine? rest)
    | _ => none

/-- The statements of a text; `fuel` bounds their number. -/
def statements? : Nat → List Char → Option (List Statement)
  | 0, _ => none
  | fuel + 1, cs =>
    match next cs with
    | [] => some []
    | cs => do
      let (s, rest) ← statement? cs
      return s :: (← statements? fuel rest)

/-- A text with all its ends of line as line feeds. -/
def unifyNewlines : List Char → List Char
  | '\r' :: '\n' :: rest => '\n' :: unifyNewlines rest
  | c :: rest => c :: unifyNewlines rest
  | [] => []

/-- A text without the byte order mark at its start. -/
def dropMark : List Char → List Char
  | '\ufeff' :: rest => rest
  | cs => cs

/-- The table that a text spells. -/
def parse (s : String) : Option Toml :=
  let cs := unifyNewlines (dropMark s.toList)
  statements? (cs.length + 1) cs >>= ofStatements?

end Toml

end Abacus
