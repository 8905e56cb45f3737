import PodConsole.Text.Utf8

namespace PodConsole.Files

open Text (Bytes)

inductive Entry where
  | file (content : Bytes)
  | directory
  deriving DecidableEq, Repr

/-- What can be read of an entry: a file that is UTF-8. -/
def Entry.text? : Entry → Option String
  | .file content => Text.Utf8.read? content
  | .directory => none

/-- The names on the way from the root. -/
abbrev Location := List String

/-- A name of two dots means nothing here, so this is for paths that have none. -/
def Location.ofPath (path : String) : Location :=
  (path.splitOn "/").filter fun name => name ≠ "" && name ≠ "."

def isAbsolute (path : String) : Bool :=
  path.toList.head? = some '/'

def join (path name : String) : String :=
  if path.isEmpty || path.toList.getLast? = some '/' then path ++ name else path ++ "/" ++ name

/-- Whether a path ends with a slash or a dot of its own, as only that of a directory can. -/
def endsOpen (path : String) : Bool :=
  match path.toList.reverse with
  | ['.'] => true
  | '/' :: _ => true
  | '.' :: '/' :: _ => true
  | _ => false

/-- Whether there can be a file of this path. -/
def namesFile (path : String) : Bool :=
  path ≠ "" && !endsOpen path

/-- Leaves out what the end of a path does not need, from the back. -/
def dropOpenEnd : List Char → List Char
  | '/' :: r => dropOpenEnd r
  | '.' :: '/' :: r => dropOpenEnd r
  | r => r

/-- The path of the directory that holds what the path names. -/
def parent (path : String) : String :=
  let back := (dropOpenEnd path.toList.reverse).dropWhile (· ≠ '/')
  let kept := dropOpenEnd back
  if kept.isEmpty && !back.isEmpty then "/" else String.ofList kept.reverse

structure Tree where
  entries : List (Location × Entry) := []
  deriving Repr

namespace Tree

/-- The root is a directory. -/
def find? (t : Tree) (l : Location) : Option Entry :=
  if l.isEmpty then some .directory else (t.entries.find? fun e => e.1 = l).map (·.2)

def put (t : Tree) (l : Location) (e : Entry) : Tree :=
  ⟨(l, e) :: t.entries.filter fun old => old.1 ≠ l⟩

/-- Makes the directories on the way that are missing. What was made stays when a file is in the
way. -/
def makeDirectoriesFrom (t : Tree) (done : Location) : Location → Bool × Tree
  | [] => (true, t)
  | name :: rest =>
    let here := done ++ [name]
    match t.find? here with
    | some .directory => makeDirectoriesFrom t here rest
    | some (.file _) => (false, t)
    | none => makeDirectoriesFrom (t.put here .directory) here rest

def makeDirectories (t : Tree) (l : Location) : Bool × Tree :=
  t.makeDirectoriesFrom [] l

/-- A file is written whole or not at all. -/
def write? (t : Tree) (l : Location) (content : Bytes) : Option Tree :=
  match t.find? l, t.find? l.dropLast with
  | some .directory, _ => none
  | _, some .directory => some (t.put l (.file content))
  | _, _ => none

def readText? (t : Tree) (l : Location) : Option String :=
  (t.find? l).bind Entry.text?

end Tree
end PodConsole.Files
