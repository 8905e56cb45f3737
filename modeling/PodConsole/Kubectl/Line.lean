import PodConsole.Text.Blank

namespace PodConsole.Kubectl

inductive Origin where
  /-- The container runtime could not start the command. -/
  | runtime
  /-- `kubectl` itself, about its own failure or the remote exit code. -/
  | client
  /-- Taken for the remote shell. -/
  | shell
  deriving DecidableEq, Repr

namespace Line

def runtimeMarks : List String :=
  ["executable file not found", "OCI runtime exec failed",
    "The system cannot find the file specified"]

def exitReport : String := "command terminated with exit code"

def clientBeginnings : List String :=
  ["error:", "Error from server", "Unable to connect to the server", exitReport]

def isExitReport (line : List Char) : Bool :=
  exitReport.toList.isPrefixOf line

def origin (line : List Char) : Origin :=
  let line := Text.trim line
  if runtimeMarks.any fun mark => Text.holds mark.toList line then .runtime
  else if clientBeginnings.any fun start => start.toList.isPrefixOf line then .client
  else .shell

end Line
end PodConsole.Kubectl
