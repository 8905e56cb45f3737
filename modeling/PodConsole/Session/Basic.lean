import PodConsole.Exec.Target

namespace PodConsole.Session

open Exec (Target)

inductive SessionError where
  | notFound (id : String)
  | alreadyBound (id : String)
  | closed (id : String)
  | capacityExceeded (limit : Nat)
  | connectionClosed (id : String)
  deriving DecidableEq, Repr

def SessionError.message : SessionError → String
  | .notFound id => "session not found: " ++ id
  | .alreadyBound id => "session already bound: " ++ id
  | .closed id => "session closed: " ++ id
  | .capacityExceeded limit => "session limit of " ++ toString limit ++ " reached"
  | .connectionClosed id => "connection closed for session " ++ id

inductive Phase where
  | pending
  | bound
  | running
  | closed
  deriving DecidableEq, Repr

def Phase.name : Phase → String
  | .pending => "Pending"
  | .bound => "Bound"
  | .running => "Running"
  | .closed => "Closed"

/-- Carries one client from the session to the one who waits for it. -/
inductive Signal where
  | open
  | carrying (client : Nat)
  /-- Nobody waits any more, which the session has not found out yet. -/
  | unheard
  | over
  deriving DecidableEq, Repr

namespace Signal

/-- What the one who waits finds: a client, nothing yet, or nothing ever. -/
inductive Arrival where
  | client (n : Nat)
  | nobodyYet
  | nobody
  deriving DecidableEq, Repr

def receive : Signal → Arrival × Signal
  | .open => (.nobodyYet, .open)
  | .carrying n => (.client n, .over)
  | .unheard => (.nobody, .unheard)
  | .over => (.nobody, .over)

/-- The one who waits gives up; a client on its way is lost. -/
def stopReceiving : Signal → Signal
  | .open => .unheard
  | .carrying _ => .over
  | .unheard => .unheard
  | .over => .over

/-- The session gives up its end. -/
def stopSending : Signal → Signal
  | .open => .over
  | .carrying n => .carrying n
  | .unheard => .over
  | .over => .over

end Signal
end PodConsole.Session

namespace PodConsole

structure Session where
  id : String
  target : Exec.Target
  hint : Option String := none
  phase : Session.Phase := .pending
  signal : Session.Signal := .open
  /-- How often watchers were told of a phase. -/
  changes : Nat := 0
  deriving DecidableEq, Repr

namespace Session

def isClosed (s : Session) : Bool :=
  s.phase = .closed

def enter (s : Session) (p : Phase) : Session :=
  { s with phase := p, changes := s.changes + 1 }

/-- The first attempt uses the signal up, also when nobody hears it. -/
def bind (s : Session) (client : Nat) : Except SessionError Unit × Session :=
  if s.isClosed then (.error (.closed s.id), s)
  else match s.signal with
    | .carrying _ | .over => (.error (.alreadyBound s.id), s)
    | .unheard => (.error (.closed s.id), { s with signal := .over })
    | .open =>
      let s := { s with signal := .carrying client }
      (.ok (), if s.phase = .pending then s.enter .bound else s)

def markRunning (s : Session) : Session :=
  match s.phase with
  | .pending | .bound => s.enter .running
  | .running | .closed => s

/-- Watchers are told each time; the flag tells whether the session was still open. -/
def markClosed (s : Session) : Bool × Session :=
  (!s.isClosed, { s.enter .closed with signal := s.signal.stopSending })

def record (s : Session) : String :=
  "Session \x7b id: " ++ Text.Quoted.quote s.id ++ ", target: " ++ s.target.record
    ++ ", shell_hint: " ++ Exec.Target.optionText s.hint
    ++ ", state: " ++ s.phase.name ++ " \x7d"

end Session
end PodConsole
