import PodConsole.Exec.Failure
import PodConsole.Kubectl.Line
import PodConsole.Text.Utf8

namespace PodConsole.Kubectl

open Exec (Failure)
open Text (Bytes)

/-- What is held back until the remote shell has spoken. -/
structure Warmup where
  output : Bytes := []
  input : List Bytes := []
  live : Bool := false
  deriving DecidableEq, Repr

/-- The codes by which a runtime reports a command that is missing or cannot be run. -/
def unrunnableCodes : List Nat := [126, 127]

namespace Warmup

/-- The lines held, trimmed, blank ones left out. -/
def lines (w : Warmup) : List (List Char) :=
  Text.lines (Text.Utf8.lossyChars w.output)

def completeLines (w : Warmup) : List (List Char) :=
  match Text.completeLines? (Text.Utf8.lossyChars w.output) with
  | none => []
  | some cs => Text.lines cs

def isShellLine (line : List Char) : Bool :=
  Line.origin line = .shell

/-- The flag tells whether a complete line of the shell made the session live. -/
def pushOutput (w : Warmup) (bytes : Bytes) : Bool × Warmup :=
  let w := { w with output := w.output ++ bytes }
  if w.live then (false, w)
  else
    let live := w.completeLines.any isShellLine
    (live, { w with live })

/-- After a quiet while a prompt without a line end counts, unless an error is held with it. -/
def settle (w : Warmup) : Bool × Warmup :=
  if w.live || w.output.isEmpty then (false, w)
  else
    let live := w.lines.all isShellLine
    (live, { w with live })

theorem push_output_waiting {w : Warmup} (h : w.live = false) (bytes : Bytes) :
    w.pushOutput bytes =
      let held : Warmup := { w with output := w.output ++ bytes }
      let live := held.completeLines.any isShellLine
      (live, { held with live }) := by
  simp [pushOutput, h]

theorem settle_waiting {w : Warmup} (h : w.live = false) (ho : w.output ≠ []) :
    w.settle =
      let live := w.lines.all isShellLine
      (live, { w with live }) := by
  simp [settle, h, ho]

def holdInput (w : Warmup) (bytes : Bytes) : Warmup :=
  { w with input := w.input ++ [bytes] }

def takeOutput (w : Warmup) : Bytes × Warmup :=
  (w.output, { w with output := [] })

def takeInput (w : Warmup) : List Bytes × Warmup :=
  (w.input, { w with input := [] })

def isClientError (line : List Char) : Bool :=
  Line.origin line = .client && !Line.isExitReport line

def otherReason (w : Warmup) (code : Nat) : String :=
  match w.lines.find? fun line => !Line.isExitReport line with
  | some line => String.ofList line
  | none => "kubectl exited with code " ++ toString code

/-- Once the shell has spoken every exit code is its own. -/
def exitFailure? (w : Warmup) (shell : String) (code : Nat) : Option Failure :=
  if w.live then none
  else if w.lines.any fun line => Line.origin line = .runtime then some (.shellUnavailable shell)
  else if code = 0 then none
  else match w.lines.find? isClientError with
    | some line => some (.establish (String.ofList line))
    | none =>
      if unrunnableCodes.contains code then some (.shellUnavailable shell)
      else some (.establish (w.otherReason code))

end Warmup
end PodConsole.Kubectl
