import Abacus.FileTree
import Abacus.Json.Parser
import Abacus.Json.Printer
import Abacus.Store.Memory
import Abacus.Text.Blank
import Abacus.Traced

/-!
# Stores in files

All entries are in one file, a JSON object with a text for each key, and every write puts the whole
object there again.  A file that is absent, blank or not such an object is an empty store; the next
write replaces it.  A file that cannot be read as text cannot be opened.
-/

namespace Abacus

namespace Store

/-! ### The text of a file -/

/-- One entry of the object on a line of its own. -/
def entryLine (e : String × String) : List Char :=
  "\n  ".toList ++ Json.quote e.1 ++ ": ".toList ++ Json.quote e.2

/-- The text of the file for some contents. -/
def Contents.fileText (c : Contents) : String :=
  if c.entries = [] then "\x7b\x7d"
  else .ofList ('{' :: Json.commaSeparated (c.entries.map entryLine) ++ ['\n', '}'])

/-- An entry of a JSON object whose value is a text. -/
def textEntry? : Option String × Json → Option (String × String)
  | (some key, v) => v.text?.map fun value => (key, value)
  | (none, _) => none

/-- The contents that a JSON object of texts stands for. -/
def Contents.ofJson? : Json → Option Contents
  | .object fields => (fields.mapM textEntry?).map .ofList
  | _ => none

/-- The contents in the text of a file; the log tells of a text that is no such object. -/
def Contents.ofFileText (text : String) : Traced Contents :=
  if Text.trim text = "" then .ok {}
  else
    match (Json.parse text).bind Contents.ofJson? with
    | some c => .ok c
    | none => do
      .log .warn Log.fileStore
      return {}

/-! ### The store -/

/-- A store in a file. -/
structure File where
  /-- The text of the path of the file. -/
  path : String
  contents : Contents := {}
  listeners : Listeners := {}
deriving Inhabited

namespace File

/-- Opens the store at a path. -/
def «open» (tree : FileTree) (path : String) : Traced (Except FileError File) := do
  let text := if tree.contains path then tree.read path else .ok ""
  match text with
  | .error e => return .error e
  | .ok text =>
    let contents ← Contents.ofFileText text
    .log .debug Log.fileStore
    return .ok { path, contents }

/-- The text under a key. -/
def get? (f : File) (key : String) : Option String :=
  f.contents.get? key

/-- Puts a text under a key and writes the file.  If that fails the store in memory holds the new
text all the same, but no listener is told. -/
def set (f : File) (tree : FileTree) (key value : String) :
    File × FileTree × Except FileError Unit :=
  let contents := f.contents.insert key value
  match tree.write f.path contents.fileText with
  | (tree, .ok ()) =>
    ({ f with contents, listeners := f.listeners.notify key value }, tree, .ok ())
  | (tree, .error e) => ({ f with contents }, tree, .error e)

/-- Adds a listener. -/
def subscribe (f : File) : File :=
  { f with listeners := f.listeners.subscribe }

end File

end Store

end Abacus
