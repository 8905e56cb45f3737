import PodConsole.Kubectl.Arguments

namespace PodConsole

namespace Settings

structure Server where
  listenAddr : String := "127.0.0.1:9090"
  logLevel : String := "info"
  maxMessageBytes : Nat := 1048576
  deriving DecidableEq, Repr

structure Session where
  bindTimeoutSecs : Nat := 600
  maxSessions : Nat := 256
  resizeQueueCapacity : Nat := 4
  stdinQueueCapacity : Nat := 64
  deriving DecidableEq, Repr

end Settings

structure Settings where
  server : Settings.Server := {}
  session : Settings.Session := {}
  kubectl : Kubectl.Client := {}
  deriving DecidableEq, Repr

namespace Settings

/-- Frames that may wait for one client's socket. -/
def outboundCapacity : Nat := 256

/-- What the environment says about the settings. -/
structure Overrides where
  listenAddr : Option String := none
  logLevel : Option String := none
  deriving DecidableEq, Repr

/-- An empty override is none. -/
def override (s : Settings) (o : Overrides) : Settings :=
  let chosen (given : Option String) (old : String) := (given.filter fun g => g ≠ "").getD old
  { s with server := { s.server with
      listenAddr := chosen o.listenAddr s.server.listenAddr
      logLevel := chosen o.logLevel s.server.logLevel } }

end Settings
end PodConsole
