import PodConsole.CommandLine.Run
import PodConsole.Gateway.Front

namespace PodConsole.Main

open CommandLine (Outcome)
open Files (Location Tree)

/-- What stands at a place; what is there and cannot be read as a file counts as a directory. -/
def entry? (place : Location) : IO (Option Files.Entry) := do
  try
    let content ← IO.FS.readBinFile ("/" ++ "/".intercalate place)
    return some (.file content.toList)
  catch
    | .noFileOrDirectory .. => return none
    | _ => return some .directory

/-- The tree along the way to a place, up to the first file. -/
def look (t : Tree) (done : Location) : Location → IO Tree
  | [] => return t
  | name :: rest => do
    let here := done ++ [name]
    match ← entry? here with
    | some .directory => look (t.put here .directory) here rest
    | some (.file content) => return t.put here (.file content)
    | none => return t

/-- Writes the file that a run has changed, if it has. -/
def keep (place : Location) (path : String) (before after : Tree) : IO Unit := do
  match after.find? place with
  | some (.file content) =>
    if before.find? place ≠ some (.file content) then
      IO.FS.createDirAll (Files.parent path)
      IO.FS.writeBinFile path ⟨content.toArray⟩
  | _ => return

def environment : IO Settings.Environment := do
  return {
    configHome := ← IO.getEnv "XDG_CONFIG_HOME"
    home := ← IO.getEnv "HOME"
    overrides := {
      listenAddr := ← IO.getEnv "PODTERM_LISTEN_ADDR"
      logLevel := ← IO.getEnv "PODTERM_LOG_LEVEL" } }

/-- Answers requests until there are no more. -/
partial def serve (g : Gateway) (input output : IO.FS.Stream) : IO Unit := do
  let line ← input.getLine
  if line.isEmpty then return
  let words := (line.splitOn "\n").headD "" |>.splitOn " "
  let request := Http.Request.ofUri (words.headD "") (words.getD 1 "") false
  let token := Text.Hex.encode (← IO.getRandomBytes 16).toList
  let (response, g) := g.respond token request
  match response with
  | .reply r => output.putStrLn (toString r.status ++ " " ++ r.body.getD "")
  | .terminal | .logs _ _ => output.putStrLn "101 "
  output.flush
  serve g input output

/-- The exit code of a run. -/
def conclude (outcome : Outcome) : IO UInt32 := do
  match outcome with
  | .printed text => IO.print text
  | .failed message => IO.eprintln ("Error: " ++ message)
  | .misuse => IO.eprint CommandLine.usage
  | .serving settings _ =>
    match Gateway.ofSettings settings with
    | .error fault => IO.eprintln ("Error: " ++ Gateway.refusal fault)
    | .ok g => serve g (← IO.getStdin) (← IO.getStdout)
  return outcome.code.toUInt32

def run (args : List String) : IO UInt32 := do
  let e ← environment
  match CommandLine.read args with
  | .invocation i =>
    let path := CommandLine.settingsPath e i
    let working := toString (← IO.currentDir)
    let place := Settings.locate working path
    let before ← look {} [] place
    let (outcome, after) := CommandLine.invoke before working e i
    let kept ← try keep place path before after; pure true catch _ => pure false
    conclude (if kept then outcome else .failed (CommandLine.notInitialised path))
  | _ => conclude (CommandLine.run {} "" e args).1

end PodConsole.Main

def main (args : List String) : IO UInt32 :=
  PodConsole.Main.run args
