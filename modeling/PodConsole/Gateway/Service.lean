import PodConsole.Settings.Check

namespace PodConsole.Gateway

open Settings (Address)

inductive ServeError where
  | invalidAddress (text : String)
  | unbindable (address : Address)
  | alreadyRunning
  | addressUnknown
  | server
  deriving DecidableEq, Repr

def ServeError.message : ServeError → String
  | .invalidAddress text => "Invalid listen address: " ++ text
  | .unbindable address => "Failed to bind " ++ address.shown
  | .alreadyRunning => "Gateway is already running"
  | .addressUnknown => "Failed to read local address"
  | .server => "Server error"

inductive RunState where
  | stopped
  | running
  | shuttingDown
  deriving DecidableEq, Repr

/-- How far a call to serve has come. -/
inductive Progress where
  | admitted
  | serving
  | returned (result : Except ServeError Unit)

structure Service where
  state : RunState := .stopped
  shutdown : Bool := false
  calls : List (Nat × Progress) := []

namespace Service

/-- What can happen to a service. -/
inductive Event where
  | enter (call : Nat)
  /-- The listener's own address was read, or could not be. -/
  | address (call : Nat) (known : Bool)
  /-- The server has come to its end. -/
  | finish (call : Nat) (well : Bool)
  | stop
  /-- The shutdown alone, which says nothing of the state. -/
  | cancel

def progress? (s : Service) (call : Nat) : Option Progress :=
  (s.calls.find? fun c => c.1 = call).map (·.2)

def setProgress (s : Service) (call : Nat) (p : Progress) : Service :=
  { s with calls := (call, p) :: s.calls.filter fun c => c.1 ≠ call }

/-- A call is admitted while nobody serves. -/
def enter (s : Service) (call : Nat) : Service :=
  match s.progress? call with
  | some _ => s
  | none =>
    if s.state = .stopped then { s.setProgress call .admitted with state := .running }
    else s.setProgress call (.returned (.error .alreadyRunning))

def address (s : Service) (call : Nat) (known : Bool) : Service :=
  match s.progress? call with
  | some .admitted =>
    s.setProgress call (if known then .serving else .returned (.error .addressUnknown))
  | _ => s

def finish (s : Service) (call : Nat) (well : Bool) : Service :=
  match s.progress? call with
  | some .serving =>
    { s.setProgress call (.returned (if well then .ok () else .error .server)) with
      state := .stopped }
  | _ => s

def stop (s : Service) : Service :=
  { s with
    state := if s.state = .running then .shuttingDown else s.state
    shutdown := true }

def step (s : Service) : Event → Service
  | .enter call => s.enter call
  | .address call known => s.address call known
  | .finish call well => s.finish call well
  | .stop => s.stop
  | .cancel => { s with shutdown := true }

def run (s : Service) (events : List Event) : Service :=
  events.foldl step s

def result? (s : Service) (call : Nat) : Option (Except ServeError Unit) :=
  match s.progress? call with
  | some (.returned r) => some r
  | _ => none

end Service
end PodConsole.Gateway
