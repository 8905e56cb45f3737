import PodConsole.Exec.Attach
import PodConsole.Session.Terminal

namespace PodConsole.Session

open Exec (Attachment Failure Shell Target)
open Wire (Envelope Size)

inductive Outcome where
  /-- The shell exited, or its client went away. -/
  | finished
  /-- No shell could be started, or the stream broke. -/
  | failed
  | timedOut
  | shutdown
  /-- The session was closed before anyone bound it. -/
  | abandoned
  deriving DecidableEq, Repr

inductive Lifetime where
  | waiting (deadline : Nat)
  | running (attachment : Attachment)
  /-- The client's last frame waits for room. -/
  | parting (outcome : Outcome) (last : Envelope)
  | over (outcome : Outcome)
  deriving DecidableEq, Repr

structure Seat where
  session : Session
  terminal : Terminal
  lifetime : Lifetime
  deriving DecidableEq, Repr

def shutdownNotice : String := "Gateway is shutting down"

namespace Seat

/-- A pending session, with room for `room` sizes. -/
def new (id : String) (target : Target) (hint : Option String) (room deadline : Nat) : Seat where
  session := { id, target, hint }
  terminal := { id, connection := .unused, sizes := { capacity := room } }
  lifetime := .waiting deadline

def bind (s : Seat) (client : Nat) (c : Connection) : Except SessionError Unit × Seat :=
  match s.session.bind client with
  | (.ok (), session) =>
    (.ok (), { s with session, terminal := s.terminal.mapConnection fun _ => c })
  | (.error e, session) => (.error e, { s with session })

/-- A size for the process; the queue's receiver is gone once the session is over. -/
def pushSize (s : Seat) (size : Size) : Offer × Seat :=
  let (offer, sizes) := s.terminal.sizes.offer size
  (offer, { s with terminal := { s.terminal with sizes } })

def mapConnection (s : Seat) (f : Connection → Connection) : Seat :=
  { s with terminal := s.terminal.mapConnection f }

/-- Keystrokes for the process. -/
def pushKeys (s : Seat) (text : String) : Offer × Seat :=
  let (offer, stdin) := s.terminal.connection.stdin.offer text
  (offer, s.mapConnection fun c => { c with stdin })

def isOver (s : Seat) : Bool :=
  match s.lifetime with
  | .over _ => true
  | _ => false

/-- Nobody waits for the session any more. -/
def leave (s : Seat) (outcome : Outcome) : Seat where
  session := { s.session with signal := s.session.signal.stopReceiving }
  terminal := s.terminal.release
  lifetime := .over outcome

/-- Leaves once the client's last frame is on its way, or its client gone. -/
def part (s : Seat) (outcome : Outcome) (last : Envelope) : Seat :=
  match s.terminal.send last with
  | (.full frame, terminal) => { s with terminal, lifetime := .parting outcome frame }
  | (_, terminal) => { s with terminal }.leave outcome

/-- Takes a look at what is ready: a client or its loss first, then the shutdown, then the time. -/
def attend (s : Seat) (now : Nat) (shutdown : Bool) : Seat :=
  match s.lifetime with
  | .waiting deadline =>
    match s.session.signal.receive with
    | (.client _, signal) =>
      let s := { s with session := { s.session with signal }.markRunning }
      if shutdown then s.part .shutdown (.toast shutdownNotice)
      else { s with lifetime := .running (.start s.session.hint) }
    | (.nobody, _) => s.leave .abandoned
    | (.nobodyYet, _) =>
      if shutdown then s.leave .shutdown
      else if deadline ≤ now then s.leave .timedOut
      else s
  | .running _ => if shutdown then s.part .shutdown (.toast shutdownNotice) else s
  | .parting outcome last => s.part outcome last
  | .over _ => s

/-- The running attempt has ended. -/
def attempted (s : Seat) (result : Except Failure Unit) : Seat :=
  match s.lifetime with
  | .running attachment =>
    match attachment.conclude result with
    | .again next => { s with lifetime := .running next }
    | .over (.ok _) => s.leave .finished
    | .over (.error .disconnected) => s.leave .finished
    | .over (.error failure) => s.part .failed (.toast failure.message)
  | _ => s

/-- A process uses the terminal. -/
def perform (s : Seat) (act : Act) : Answer × Seat :=
  let (answer, terminal) := s.terminal.perform act
  (answer, { s with terminal })

end Seat
end PodConsole.Session
