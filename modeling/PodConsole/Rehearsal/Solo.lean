import PodConsole.Rehearsal.House

namespace PodConsole.Rehearsal

open Exec (Target)
open Session (Connection Offer Outcome Phase Seat SessionError)
open Wire (Envelope Size)

structure Solo where
  house : House
  /-- The client's connection was taken. -/
  bound : Bool := false

namespace Solo

def start (container : Container) (id : String) (target : Target) (hint : Option String)
    (room timeout : Nat) : Solo :=
  let (n, registry) := ({} : Session.Registry).add (.new id target hint room (1000 * timeout))
  { house := { container, gateway := { registry := (registry.replace n).2 } } }

def registry (s : Solo) : Session.Registry :=
  s.house.gateway.registry

def setRegistry (s : Solo) (registry : Session.Registry) : Solo :=
  { s with house := { s.house with gateway := { s.house.gateway with registry } } }

def useSeat {α : Type} (s : Solo) (absent : α) (f : Seat → α × Seat) : α × Solo :=
  match s.registry.seat? 0 with
  | none => (absent, s)
  | some seat => let (a, seat) := f seat; (a, s.setRegistry (s.registry.setSeat 0 seat))

def editConnection (s : Solo) (f : Connection → Connection) : Solo :=
  if !s.bound then s
  else (s.useSeat () fun seat => ((), seat.mapConnection f)).2

def bind (s : Solo) (c : Connection) : Except SessionError Unit × Solo :=
  match s.useSeat (.ok ()) fun seat => seat.bind 0 c with
  | (.ok (), s) => (.ok (), { s with bound := true })
  | refused => refused

def pushKeys (s : Solo) (text : String) : Option Offer × Solo :=
  if !s.bound then (none, s)
  else let (offer, s) := s.useSeat .closed fun seat => seat.pushKeys text; (some offer, s)

def pushSize (s : Solo) (size : Size) : Offer × Solo :=
  s.useSeat .closed fun seat => seat.pushSize size

def disconnect (s : Solo) : Solo :=
  s.editConnection Connection.cancel

def dropKeys (s : Solo) : Solo :=
  s.editConnection fun c => { c with stdin := c.stdin.stopSending }

def close (s : Solo) (id : String) : Bool × Solo :=
  let (closed, registry) := s.registry.close id
  (closed, s.setRegistry registry)

def markClosed (s : Solo) : Bool × Solo :=
  s.useSeat false fun seat =>
    let (first, session) := seat.session.markClosed
    (first, { seat with session })

def shutdown (s : Solo) : Solo :=
  { s with house := { s.house with gateway := { s.house.gateway with shutdown := true } } }

def rest (s : Solo) : Solo :=
  { s with house := s.house.rest }

def pass (s : Solo) (secs : Nat) : Solo :=
  { s with house := s.house.pass (1000 * secs) }

def phase (s : Solo) : Phase :=
  (s.registry.seat? 0).elim .closed fun seat => seat.session.phase

def outcome (s : Solo) : Option Outcome := do
  match (← s.registry.seat? 0).lifetime with
  | .over outcome => some outcome
  | _ => none

/-- The client's new frames, and whether there will be more. -/
def frames (s : Solo) : Option (List Envelope × Bool) × Solo :=
  if !s.bound then (none, s)
  else
    let outbound := (s.registry.seat? 0).elim .unused fun seat => seat.terminal.connection.outbound
    (some (outbound.items, outbound.sending),
      s.editConnection fun c => { c with outbound := { c.outbound with items := [] } })

end Solo
end PodConsole.Rehearsal
