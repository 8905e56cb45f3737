import PodConsole.CommandLine.Arguments
import PodConsole.Settings.Check
import PodConsole.Settings.Store

namespace PodConsole.CommandLine

open Files (Tree)
open Settings (Environment)

def version : String := "podterm-gateway 0.3.0"

inductive Outcome where
  | printed (text : String)
  | failed (message : String)
  | misuse
  /-- The program goes on as a gateway, with log lines as JSON or as text. -/
  | serving (settings : Settings) (json : Bool)
  deriving DecidableEq, Repr

def Outcome.code : Outcome → Nat
  | .printed _ | .serving _ _ => 0
  | .failed _ => 1
  | .misuse => 2

/-- The settings of a run: what is given on the command line comes before the environment, and
that before the file. -/
def effective (file : Settings) (e : Environment) (listen : Option String) : Settings :=
  let s := file.override e.overrides
  listen.elim s fun listenAddr => { s with server := { s.server with listenAddr } }

/-- Where the settings of an invocation are kept. -/
def settingsPath (e : Environment) (i : Invocation) : String :=
  i.config.getD e.defaultPath

def serve (t : Tree) (working path : String) (e : Environment) (listen : Option String)
    (json : Bool) : Outcome :=
  match Settings.load t working path with
  | .error cause => .failed cause.message
  | .ok file =>
    let s := effective file e listen
    match s.fault? with
    | some fault => .failed fault.message
    | none => .serving s json

def showConfig (t : Tree) (working path : String) (e : Environment) : Outcome :=
  match Settings.load t working path with
  | .error cause => .failed cause.message
  | .ok file => (effective file e none).write?.elim (.failed Settings.unwritable) .printed

def notInitialised (path : String) : String :=
  "Failed to initialise " ++ path

/-- A file that is there is only replaced on demand. -/
def initConfig (t : Tree) (working path : String) (force : Bool) : Outcome × Tree :=
  if (Settings.opened? t working path).isSome && !force then
    (.failed ("Config file already exists at " ++ path ++ " (use --force to overwrite)"), t)
  else
    match Settings.save {} t working path with
    | (.ok (), t) => (.printed ("Wrote default configuration to " ++ path ++ "\n"), t)
    | (.error _, t) => (.failed (notInitialised path), t)

def invoke (t : Tree) (working : String) (e : Environment) (i : Invocation) : Outcome × Tree :=
  let path := settingsPath e i
  match i.command with
  | .serve listen json => (serve t working path e listen json, t)
  | .showConfig => (showConfig t working path e, t)
  | .initConfig force => initConfig t working path force

def usage : String :=
  "Usage: podterm-gateway [-c FILE] [-v] (serve [-l ADDR] [--json] | config (show | init [-f]))\n"

/-- What a run prints or goes on to do, and the files after it. -/
def run (t : Tree) (working : String) (e : Environment) (args : List String) : Outcome × Tree :=
  match read args with
  | .invocation i => invoke t working e i
  | .version => (.printed (version ++ "\n"), t)
  | .help => (.printed usage, t)
  | .misuse => (.misuse, t)

end PodConsole.CommandLine
