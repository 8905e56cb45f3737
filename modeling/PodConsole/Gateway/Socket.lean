import PodConsole.Wire.Command

namespace PodConsole.Gateway

open Text (Bytes)
open Wire (Size)

/-- What can be read from a socket. -/
inductive Frame where
  | text (s : String)
  | binary (bytes : Bytes)
  | ping (payload : Bytes)
  | pong (payload : Bytes)
  | close
  /-- The client is gone. -/
  | ended
  /-- The client broke the rules of the socket. -/
  | broken
  deriving DecidableEq, Repr

/-- A message may be too long. -/
def Frame.limit (maxBytes : Nat) : Frame → Frame
  | .text s => if s.utf8ByteSize ≤ maxBytes then .text s else .broken
  | .binary bytes => if bytes.length ≤ maxBytes then .binary bytes else .broken
  | f => f

/-- What a client receives. -/
inductive Sent where
  | text (s : String)
  | pong (payload : Bytes)
  | close
  | ended
  deriving DecidableEq, Repr

/-- What was read and waits for room in its queue. -/
inductive Held where
  | keys (text : String)
  | size (s : Size)
  deriving DecidableEq, Repr

inductive Stage where
  /-- The first text has to name a session. -/
  | greeting
  | attached (token : String) (held : Option Held)
  /-- Nothing is read any more, and the session may still have something to say. -/
  | draining (token : String)
  /-- A log stream that is silent. -/
  | listening
  | over
  deriving DecidableEq, Repr

structure Socket where
  stage : Stage := .greeting
  inbox : List Frame := []
  sent : List Sent := []
  /-- The client cannot be reached any more. -/
  gone : Bool := false
  deriving DecidableEq, Repr

namespace Socket

def emit (s : Socket) (out : Sent) : Socket :=
  if s.gone then s else { s with sent := s.sent ++ [out] }

def finish (s : Socket) : Socket :=
  { (s.emit .close).emit .ended with stage := .over }

def receive (s : Socket) (f : Frame) : Socket :=
  if s.stage = .over then s else { s with inbox := s.inbox ++ [f] }

/-- The client goes without a word; what it sent before can still be read. -/
def cut (s : Socket) : Socket :=
  { s.receive .ended with gone := true }

end Socket
end PodConsole.Gateway
