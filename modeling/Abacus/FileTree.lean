import Abacus.Text.Search

/-!
# A tree of files

Files and directories by path, as far as a program that reads and writes whole files can tell.  A
path is a list of names from the root.  The text of a path is resolved from a current directory
(`FileTree.resolve?`); a text that ends in a slash can only name a directory.
-/

namespace Abacus

/-- Why a file cannot be read or written. -/
inductive FileError
  | notFound
  | exists
  | notADirectory
  | isADirectory
  | notText
deriving DecidableEq, Repr

/-- How an error is worded. -/
def FileError.message : FileError → String
  | .notFound => "No such file or directory (os error 2)"
  | .exists => "File exists (os error 17)"
  | .notADirectory => "Not a directory (os error 20)"
  | .isADirectory => "Is a directory (os error 21)"
  | .notText => "stream did not contain valid UTF-8"

/-- What a path may lead to. -/
inductive FileNode
  | file (bytes : ByteArray)
  | directory

/-- A path, and whether only a directory is meant. -/
structure Place where
  path : List String
  asDirectory : Bool := false
deriving DecidableEq, Repr

/-- Files and directories; the root is always a directory. -/
structure FileTree where
  nodes : List (List String × FileNode) := []
  /-- The directory from which texts of paths are resolved. -/
  current : List String := []
deriving Inhabited

namespace FileTree

/-- What is at a path. -/
def node? (t : FileTree) (path : List String) : Option FileNode :=
  if path = [] then some .directory else t.nodes.lookup path

/-- Puts a node at a path. -/
def put (t : FileTree) (path : List String) (node : FileNode) : FileTree :=
  { t with nodes := (path, node) :: t.nodes.filter (·.1 ≠ path) }

/-- Whether there is a directory at a path. -/
def isDirectory (t : FileTree) (path : List String) : Bool :=
  match t.node? path with
  | some .directory => true
  | _ => false

/-! ### Paths -/

/-- The parts of the text of a path, between its slashes. -/
def parts (text : String) : List String :=
  (Text.pieces '/' text.toList).map String.ofList

/-- The names in the text of a path; a point names nothing. -/
def names (text : String) : List String :=
  (parts text).filter fun name => name ≠ "" ∧ name ≠ "."

/-- The path from which the names in a text lead on. -/
def start (t : FileTree) (text : String) : List String :=
  if (parts text).head? = some "" then [] else t.current

/-- Goes down from a path by names; two points go up again from a directory. -/
def walk? (t : FileTree) (path : List String) : List String → Option (List String)
  | [] => some path
  | ".." :: rest => if t.isDirectory path then t.walk? path.dropLast rest else none
  | name :: rest => t.walk? (path ++ [name]) rest

/-- The place that a text names; an empty text names none. -/
def resolve? (t : FileTree) (text : String) : Option Place :=
  if text = "" then none
  else
    let last := (parts text).getLastD ""
    (t.walk? (t.start text) (names text)).map fun path =>
      ⟨path, last = "" || last = "." || last = ".."⟩

/-- What is at a place. -/
def find? (t : FileTree) (place : Place) : Option FileNode :=
  match t.node? place.path with
  | some (.file bytes) => if place.asDirectory then none else some (.file bytes)
  | other => other

/-- Whether there is anything at the place that a text names. -/
def contains (t : FileTree) (text : String) : Bool :=
  ((t.resolve? text).bind t.find?).isSome

/-! ### Reading and writing -/

/-- The text in the file that a text names. -/
def read (t : FileTree) (text : String) : Except FileError String :=
  match (t.resolve? text).bind t.find? with
  | none => .error .notFound
  | some .directory => .error .isADirectory
  | some (.file bytes) =>
    match String.fromUTF8? bytes with
    | some s => .ok s
    | none => .error .notText

/-- Makes the directories that some names lead through from a directory. -/
def makeDirectories (t : FileTree) (path : List String) :
    List String → FileTree × Except FileError Unit
  | [] => (t, .ok ())
  | ".." :: rest => t.makeDirectories path.dropLast rest
  | name :: rest =>
    let path := path ++ [name]
    match t.node? path with
    | some .directory => t.makeDirectories path rest
    | some (.file _) => (t, .error (if rest = [] then .exists else .notADirectory))
    | none => (t.put path .directory).makeDirectories path rest

/-- Writes a file into a directory that exists. -/
def writeAt (t : FileTree) (place : Place) (bytes : ByteArray) : FileTree × Except FileError Unit :=
  if place.asDirectory ∨ t.isDirectory place.path then (t, .error .isADirectory)
  else
    match t.node? place.path.dropLast with
    | some .directory => (t.put place.path (.file bytes), .ok ())
    | some (.file _) => (t, .error .notADirectory)
    | none => (t, .error .notFound)

/-- Writes bytes into the file that a text names, in directories made for it. -/
def writeBytes (t : FileTree) (text : String) (bytes : ByteArray) :
    FileTree × Except FileError Unit :=
  match t.makeDirectories (t.start text) (names text).dropLast with
  | (t, .error e) => (t, .error e)
  | (t, .ok ()) =>
    match t.resolve? text with
    | none => (t, .error .notFound)
    | some place => t.writeAt place bytes

/-- Writes a text into the file that a text names. -/
def write (t : FileTree) (text content : String) : FileTree × Except FileError Unit :=
  t.writeBytes text content.toUTF8

end FileTree

end Abacus
