import PodConsole.Gateway.Front
import PodConsole.Gateway.Service
import PodConsole.Rehearsal.House

namespace PodConsole.Rehearsal

open Gateway (Response RunState Service ServeError)
open Settings (Address)

structure Shift where
  house : House
  service : Service := {}
  /-- The call that serves in the background. -/
  background : Option Nat := none

namespace Shift

/-- The shutdown is one for the service and the sessions. -/
def setService (s : Shift) (service : Service) : Shift :=
  let gateway := { s.house.gateway with shutdown := service.shutdown }
  { s with service, house := { s.house with gateway } }

def settle (s : Shift) : Shift :=
  { s with house := s.house.settle }

/-- A call to serve, up to where it waits for the shutdown. -/
def enter (s : Shift) : Nat × Shift :=
  let call := s.service.calls.length
  (call, s.setService ((s.service.enter call).address call true))

/-- A call that serves ends with the shutdown. -/
def wind (s : Shift) (call : Nat) : Shift :=
  if s.service.shutdown then (s.setService (s.service.finish call true)).settle else s

def serve (s : Shift) : Shift :=
  let (call, s) := s.enter
  ({ s.wind call with background := some call }).settle

/-- A call that is waited for. -/
def serveAgain (s : Shift) : Except ServeError Unit × Shift :=
  let (call, s) := s.enter
  let s := s.wind call
  ((s.service.result? call).getD (.error .server), s)

/-- Serves at the address of the settings, which has to be the machine's own. -/
def run (s : Shift) : Except ServeError Unit × Shift :=
  let text := s.house.gateway.settings.server.listenAddr
  match Address.parse? text with
  | none => (.error (.invalidAddress text), s)
  | some address =>
    if address.isOwn then s.serveAgain else (.error (.unbindable address), s)

def stop (s : Shift) : Shift :=
  s.setService s.service.stop

def cancel (s : Shift) : Shift :=
  s.setService { s.service with shutdown := true }

/-- Waits for the call in the background. -/
def join (s : Shift) : Option (Except ServeError Unit) × Shift :=
  match s.background with
  | none => (none, s)
  | some call =>
    let s := s.wind call
    (s.service.result? call, ({ s with background := none }).settle)

/-- The status of a page. -/
def page (s : Shift) (uri : String) : Nat × Shift :=
  let g := s.house.gateway
  let token := toString g.registry.seats.length
  let (response, gateway) := g.respond token (.ofUri "GET" uri false)
  let status := match response with
    | .reply r => r.status
    | .terminal | .logs _ _ => 101
  (status, { s with house := { s.house with gateway } })

end Shift
end PodConsole.Rehearsal
