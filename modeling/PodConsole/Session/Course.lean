import PodConsole.Session.Basic

namespace PodConsole.Session

inductive Deed where
  | bind (client : Nat)
  | markRunning
  | markClosed
  /-- The one who waits looks for its client. -/
  | receive
  /-- The one who waits gives up. -/
  | stopReceiving
  deriving DecidableEq, Repr

inductive Reply where
  | bound (client : Nat) (result : Except SessionError Unit)
  /-- Whether the session was still open. -/
  | closed (first : Bool)
  | arrival (a : Signal.Arrival)
  | done

def perform (s : Session) : Deed → Reply × Session
  | .bind client => (.bound client (s.bind client).1, (s.bind client).2)
  | .markRunning => (.done, s.markRunning)
  | .markClosed => (.closed s.markClosed.1, s.markClosed.2)
  | .receive => (.arrival s.signal.receive.1, { s with signal := s.signal.receive.2 })
  | .stopReceiving => (.done, { s with signal := s.signal.stopReceiving })

/-- A session with all that was said of it so far. -/
structure Course where
  session : Session
  replies : List Reply := []

namespace Course

def step (c : Course) (d : Deed) : Course where
  session := (c.session.perform d).2
  replies := c.replies ++ [(c.session.perform d).1]

def run (c : Course) (deeds : List Deed) : Course :=
  deeds.foldl step c

end Course
end PodConsole.Session
