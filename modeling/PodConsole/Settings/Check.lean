import PodConsole.Settings.Address
import PodConsole.Settings.Basic
import PodConsole.Text.Blank

namespace PodConsole.Settings

inductive Invalid where
  | listenAddr (text : String)
  | maxMessageBytes (n : Nat)
  | bindTimeout (secs : Nat)
  | maxSessions (n : Nat)
  | queueCapacity (name : String) (n : Nat)
  | kubectlBinary
  | logLevel (text : String)
  deriving DecidableEq, Repr

def logLevels : List String := ["trace", "debug", "info", "warn", "error"]

def longestBindTimeout : Nat := 86400

def mostSessions : Nat := 10000

def greatestQueue : Nat := 4096

def Invalid.message : Invalid → String
  | .listenAddr text => "listen_addr must be a socket address like 127.0.0.1:9090, got " ++ text
  | .maxMessageBytes n => "max_message_bytes must be greater than 0, got " ++ toString n
  | .bindTimeout secs =>
    "bind_timeout_secs must be between 1 and 86400 seconds, got " ++ toString secs
  | .maxSessions n => "max_sessions must be between 1 and 10000, got " ++ toString n
  | .queueCapacity name n => name ++ " must be between 1 and 4096, got " ++ toString n
  | .kubectlBinary => "kubectl binary must not be empty"
  | .logLevel text =>
    "log_level must be one of: " ++ ", ".intercalate logLevels ++ "; got " ++ text

/-- No letter outside ASCII has a letter of a level as its lower case. -/
def isLogLevel (text : String) : Bool :=
  logLevels.any fun level => level.toList = text.toList.map Char.toLower

/-- The first fault, if there is one. -/
def fault? (s : Settings) : Option Invalid :=
  if (Address.parse? s.server.listenAddr).isNone then some (.listenAddr s.server.listenAddr)
  else if s.server.maxMessageBytes = 0 then some (.maxMessageBytes 0)
  else if s.session.bindTimeoutSecs < 1 ∨ longestBindTimeout < s.session.bindTimeoutSecs then
    some (.bindTimeout s.session.bindTimeoutSecs)
  else if s.session.maxSessions < 1 ∨ mostSessions < s.session.maxSessions then
    some (.maxSessions s.session.maxSessions)
  else if s.session.resizeQueueCapacity < 1 ∨ greatestQueue < s.session.resizeQueueCapacity then
    some (.queueCapacity "resize_queue_capacity" s.session.resizeQueueCapacity)
  else if s.session.stdinQueueCapacity < 1 ∨ greatestQueue < s.session.stdinQueueCapacity then
    some (.queueCapacity "stdin_queue_capacity" s.session.stdinQueueCapacity)
  else if Text.isBlank s.kubectl.binary then some .kubectlBinary
  else if !isLogLevel s.server.logLevel then some (.logLevel s.server.logLevel)
  else none

end PodConsole.Settings
