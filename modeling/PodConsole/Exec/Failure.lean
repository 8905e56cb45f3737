import PodConsole.Exec.Shell

namespace PodConsole.Exec

inductive Failure where
  | shellUnavailable (shell : String)
  | noShellAvailable (tried : String)
  | establish (reason : String)
  | stream (reason : String)
  | disconnected
  deriving DecidableEq, Repr

namespace Failure

def message : Failure → String
  | .shellUnavailable shell => "shell '" ++ shell ++ "' is not available in the container"
  | .noShellAvailable tried => "no supported shell could be started (tried " ++ tried ++ ")"
  | .establish reason => "failed to establish exec stream: " ++ reason
  | .stream reason => "exec stream failed: " ++ reason
  | .disconnected => "client disconnected"

/-- Whether another shell may still do. -/
def isShellUnavailable : Failure → Bool
  | .shellUnavailable _ => true
  | _ => false

end Failure
end PodConsole.Exec
