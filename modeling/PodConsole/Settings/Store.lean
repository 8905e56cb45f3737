import PodConsole.Files.Tree
import PodConsole.Settings.Document

namespace PodConsole.Settings

open Files

inductive StoreError where
  | unreadable (path : String)
  | notSettings (path : String) (cause : ReadError)
  | noDirectory (path : String)
  | unwritable
  | unwritten (path : String)

def StoreError.message : StoreError → String
  | .unreadable path => "Failed to read config file: " ++ path
  | .notSettings path _ => "Failed to parse config file: " ++ path
  | .noDirectory path => "Failed to create config directory: " ++ path
  | .unwritable => Settings.unwritable
  | .unwritten path => "Failed to write config file: " ++ path

/-- Where a path leads from the working directory. -/
def locate (working path : String) : Location :=
  Location.ofPath (if isAbsolute path then path else join working path)

/-- What a path names. A path that is empty or asks for a directory names no file. -/
def opened? (t : Tree) (working path : String) : Option Entry :=
  if path = "" then none
  else match t.find? (locate working path) with
    | some (.file content) => if endsOpen path then none else some (.file content)
    | found => found

/-- A file that is not there means the defaults. -/
def load (t : Tree) (working path : String) : Except StoreError Settings :=
  match opened? t working path with
  | none => .ok {}
  | some entry =>
    match entry.text? with
    | none => .error (.unreadable path)
    | some text =>
      match Settings.read text with
      | .ok s => .ok s
      | .error cause => .error (.notSettings path cause)

/-- The text is made before the file is touched. -/
def save (s : Settings) (t : Tree) (working path : String) : Except StoreError Unit × Tree :=
  let l := locate working path
  match t.makeDirectories l.dropLast with
  | (false, t) => (.error (.noDirectory (parent path)), t)
  | (true, t) =>
    match s.write? with
    | none => (.error .unwritable, t)
    | some text =>
      match if namesFile path then t.write? l (Text.Utf8.encode text) else none with
      | none => (.error (.unwritten path), t)
      | some t => (.ok (), t)

/-- The part of the environment that settings depend on. -/
structure Environment where
  configHome : Option String := none
  home : Option String := none
  overrides : Overrides := {}
  deriving DecidableEq, Repr

namespace Environment

def configDirectory (e : Environment) : String :=
  match e.configHome.filter isAbsolute with
  | some path => path
  | none => (e.home.map fun path => join path ".config").getD "."

def defaultPath (e : Environment) : String :=
  join (join e.configDirectory "podterm") "config.toml"

end Environment
end PodConsole.Settings
