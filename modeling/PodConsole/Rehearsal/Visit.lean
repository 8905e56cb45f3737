import PodConsole.Gateway.Front
import PodConsole.Rehearsal.House

namespace PodConsole.Rehearsal

open Exec (Target)
open Gateway (Frame Response Sent)
open Http (Request)
open Kubectl (LogOptions)
open Log (Ending Source)

/-- What stands in for the containers' logs. -/
structure Journal where
  chunks : List Text.Bytes := []
  fault : Option String := none
  /-- No log can be opened at all. -/
  shut : Bool := false

/-- A log that is followed falls silent where it would end. -/
def Journal.source (j : Journal) (o : LogOptions) : Option Source :=
  if j.shut then none
  else
    let ending : Ending := match j.fault with
      | some cause => .broken cause
      | none => if o.follow then .silent else .ended
    some (.ofChunks j.chunks ending)

structure Visitor where
  name : String
  /-- How much of what was sent to it is known. -/
  told : Nat := 0

structure Visit where
  house : House
  journal : Journal
  /-- By their numbers. -/
  visitors : List Visitor := []
  opened : List (Target × LogOptions) := []

namespace Visit

def gateway (v : Visit) : Gateway :=
  v.house.gateway

def setGateway (v : Visit) (gateway : Gateway) : Visit :=
  { v with house := { v.house with gateway } }

def start (gateway : Gateway) (container : Container) (journal : Journal) : Visit where
  house := { gateway, container }
  journal := journal

/-- The number of a name's latest client. -/
def client? (v : Visit) (name : String) : Option Nat :=
  (v.visitors.reverse.findIdx? fun w => w.name = name).map fun k => v.visitors.length - 1 - k

/-- A token that no session has had. -/
def token (n : Nat) : String :=
  Text.Hex.encode ((List.range 16).map fun k => UInt8.ofNat (n / Nat.pow 256 (15 - k)))

def respond (v : Visit) (r : Request) : Response × Visit :=
  let (response, gateway) := v.gateway.respond (token v.gateway.registry.seats.length) r
  (response, v.setGateway gateway)

def cut (v : Visit) (client : Nat) : Visit :=
  v.setGateway (v.gateway.updateSocket client Gateway.Socket.cut)

/-- A client in place of the one that had its name. -/
def enter (v : Visit) (name : String) (connect : Gateway → Nat → Gateway) : Visit :=
  let former := v.client? name
  let v := { v.setGateway (connect v.gateway v.visitors.length) with
    visitors := v.visitors ++ [{ name }] }
  former.elim v v.cut

/-- A client opens a socket, or is refused. -/
def knock (v : Visit) (name uri : String) : Nat × Visit :=
  match v.respond (.ofUri "GET" uri true) with
  | (.reply reply, v) => (reply.status, v)
  | (.terminal, v) => (101, v.enter name fun g n => g.connect n)
  | (.logs target options, v) =>
    (101, { v.enter name fun g n => g.follow n (v.journal.source options) with
      opened := v.opened ++ [(target, options)] })

def send (v : Visit) (name : String) (f : Frame) : Visit :=
  (v.client? name).elim v fun n => v.setGateway (v.gateway.receive n f)

def drop (v : Visit) (name : String) : Visit :=
  (v.client? name).elim v v.cut

def pass (v : Visit) (secs : Nat) : Visit :=
  { v with house := v.house.pass (1000 * secs) }

def close (v : Visit) (token : String) : Bool × Visit :=
  let (closed, registry) := v.gateway.registry.close token
  (closed, v.setGateway { v.gateway with registry })

def shutdown (v : Visit) : Visit :=
  v.setGateway { v.gateway with shutdown := true }

def rest (v : Visit) : Visit :=
  { v with house := v.house.rest }

def sent (v : Visit) (client : Nat) : List Sent :=
  (v.gateway.socket? client).elim [] (·.sent)

/-- What was sent to each client since the last time. -/
def news (v : Visit) : List (String × List Sent) × Visit :=
  let fresh := v.visitors.mapIdx fun n w => (w.name, (v.sent n).drop w.told)
  let visitors := v.visitors.mapIdx fun n w => { w with told := (v.sent n).length }
  (fresh.filter fun w => !w.2.isEmpty, { v with visitors })

end Visit
end PodConsole.Rehearsal
