import PodConsole.Gateway.Socket
import PodConsole.Http.Reply
import PodConsole.Log.Relay
import PodConsole.Session.Registry
import PodConsole.Settings.Check

namespace PodConsole

open Gateway
open Session (Act Answer Connection Registry Offer SessionError Seat)
open Exec (Failure Target)

structure Gateway where
  settings : Settings := {}
  registry : Registry := {}
  /-- Sockets by the numbers of their clients. -/
  sockets : List (Nat × Socket) := []
  /-- Milliseconds. -/
  clock : Nat := 0
  shutdown : Bool := false
  deriving Repr

namespace Gateway

/-- An idle gateway; it needs settings without a fault. -/
def ofSettings (s : Settings) : Except Settings.Invalid Gateway :=
  match s.fault? with
  | some fault => .error fault
  | none => .ok { settings := s }

/-- What is said of settings that a gateway cannot have. -/
def refusal (fault : Settings.Invalid) : String :=
  "Invalid configuration: " ++ fault.message

def bindDeadline (g : Gateway) : Nat :=
  g.clock + 1000 * g.settings.session.bindTimeoutSecs

/-- Starts a session under a new token. An empty hint is none. -/
def start (g : Gateway) (token : String) (target : Target) (hint : Option String) :
    Except SessionError Unit × Gateway :=
  let seat := Seat.new token target (hint.filter fun h => h ≠ "")
    g.settings.session.resizeQueueCapacity g.bindDeadline
  let (n, registry) := g.registry.add seat
  match registry.enroll n g.settings.session.maxSessions with
  | (.ok (), registry) => (.ok (), { g with registry })
  | (.error e, _) => (.error e, g)

/-- Starts a session in the container that the segments name. -/
def startTerminal (g : Gateway) (token : String) (cluster : Option String)
    (namespaceName pod container : String) (hint : Option String) :
    Except Http.Problem String × Gateway :=
  match Target.ofSegments cluster namespaceName pod container with
  | .error segment => (.error (.ofSegment segment), g)
  | .ok target =>
    match g.start token target hint with
    | (.ok (), g) => (.ok token, g)
    | (.error e, g) => (.error (.ofSession e), g)

def updateSeat (g : Gateway) (n : Nat) (f : Seat → Seat) : Gateway :=
  { g with registry := g.registry.update n f }

/-- The one who waits for a session's client takes a look. -/
def attend (g : Gateway) (n : Nat) : Gateway :=
  g.updateSeat n fun s => s.attend g.clock g.shutdown

def attempted (g : Gateway) (n : Nat) (result : Except Failure Unit) : Gateway :=
  g.updateSeat n fun s => s.attempted result

def perform (g : Gateway) (n : Nat) (act : Act) : Answer × Gateway :=
  let (answer, registry) := g.registry.perform n act
  (answer, { g with registry })

/-- A new client's connection, as roomy as the settings say. -/
def connection (g : Gateway) : Connection where
  stdin := { capacity := g.settings.session.stdinQueueCapacity }
  outbound := { capacity := Settings.outboundCapacity }

def socket? (g : Gateway) (client : Nat) : Option Socket :=
  (g.sockets.find? fun e => e.1 = client).map (·.2)

def updateSocket (g : Gateway) (client : Nat) (f : Socket → Socket) : Gateway :=
  { g with sockets := g.sockets.map fun e => if e.1 = client then (e.1, f e.2) else e }

def setStage (g : Gateway) (client : Nat) (stage : Stage) : Gateway :=
  g.updateSocket client fun s => { s with stage }

def connect (g : Gateway) (client : Nat) : Gateway :=
  if (g.socket? client).isSome then g else { g with sockets := g.sockets ++ [(client, {})] }

def receive (g : Gateway) (client : Nat) (f : Frame) : Gateway :=
  g.updateSocket client fun s => s.receive (f.limit g.settings.server.maxMessageBytes)

def boundElsewhere : String := "This terminal is already attached to another connection"

/-- The first text of a socket. -/
def greet (g : Gateway) (client : Nat) (text : String) : Gateway :=
  match Wire.Command.parse text with
  | .ok (.bind id) =>
    match g.registry.get? id with
    | none => g.updateSocket client Socket.finish
    | some (n, seat) =>
      let (result, seat) := seat.bind client g.connection
      let g := { g with registry := g.registry.setSeat n seat }
      match result with
      | .ok () => g.setStage client (.attached id none)
      | .error (.alreadyBound _) =>
        g.updateSocket client fun s =>
          (s.emit (.text (Wire.Envelope.toast boundElsewhere).write)).finish
      | .error _ => g.updateSocket client Socket.finish
  | _ => g.updateSocket client Socket.finish

/-- The reader leaves, and the session will find its client gone. -/
def detach (g : Gateway) (client n : Nat) (token : String) : Gateway :=
  (g.updateSeat n fun s => s.mapConnection Connection.cancel).setStage client (.draining token)

/-- Hands over what was read, or holds it until there is room. -/
def hand (g : Gateway) (client n : Nat) (token : String) (held : Held) : Gateway :=
  match g.registry.seat? n with
  | none => g
  | some seat =>
    let (offer, seat) := match held with
      | .keys text => seat.pushKeys text
      | .size size => seat.pushSize size
    let g := { g with registry := g.registry.setSeat n seat }
    match offer with
    | .sent => g.setStage client (.attached token none)
    | .full => g.setStage client (.attached token (some held))
    | .closed => g.detach client n token

/-- A frame of an attached client. -/
def route (g : Gateway) (client n : Nat) (token : String) : Frame → Gateway
  | .text text =>
    match Wire.Command.parse text with
    | .ok (.stdin data) => g.hand client n token (.keys data)
    | .ok (.resize size) => g.hand client n token (.size size)
    | .ok (.bind _) => g
    | .error _ => g
  | .binary _ | .pong _ => g
  | .ping payload => g.updateSocket client fun s => s.emit (.pong payload)
  | .close | .ended | .broken => g.detach client n token

/-- A frame of a client that has not named its session. -/
def greetFrame (g : Gateway) (client : Nat) : Frame → Gateway
  | .text text => g.greet client text
  | .binary _ | .pong _ => g
  | .ping payload => g.updateSocket client fun s => s.emit (.pong payload)
  | .close | .ended | .broken => g.updateSocket client Socket.finish

/-- A frame of a client that only listens. -/
def listenFrame (g : Gateway) (client : Nat) : Frame → Gateway
  | .text _ | .binary _ | .pong _ => g
  | .ping payload => g.updateSocket client fun s => s.emit (.pong payload)
  | .close | .ended | .broken => g.updateSocket client Socket.finish

/-- Takes the next frame, if there is one. -/
def takeFrame (g : Gateway) (client : Nat) (s : Socket) (use : Gateway → Frame → Gateway) :
    Option Gateway :=
  match s.inbox with
  | [] => none
  | f :: rest => some (use (g.updateSocket client fun s => { s with inbox := rest }) f)

/-- The turn of a socket's reader; `none` while it has nothing to do. A shutdown comes before any
frame, but not before what is held. -/
def read? (g : Gateway) (client : Nat) : Option Gateway := do
  let s ← g.socket? client
  match s.stage with
  | .greeting =>
    if g.shutdown then some (g.updateSocket client Socket.finish)
    else g.takeFrame client s fun g f => g.greetFrame client f
  | .listening =>
    if g.shutdown then some (g.updateSocket client Socket.finish)
    else g.takeFrame client s fun g f => g.listenFrame client f
  | .attached token held =>
    let n ← g.registry.started? token
    let seat ← g.registry.seat? n
    if seat.terminal.connection.cancelled then some (g.setStage client (.draining token))
    else match held with
      | some held =>
        let (offer, _) := match held with
          | .keys text => seat.pushKeys text
          | .size size => seat.pushSize size
        if offer = .full then none else some (g.hand client n token held)
      | none =>
        if g.shutdown then some (g.detach client n token)
        else g.takeFrame client s fun g f => g.route client n token f
  | .draining _ | .over => none

/-- The turn of a socket's writer; `none` while the session has nothing to say. -/
def write? (g : Gateway) (client : Nat) : Option Gateway := do
  let s ← g.socket? client
  let token ← match s.stage with
    | .attached token _ | .draining token => some token
    | .greeting | .listening | .over => none
  let n ← g.registry.started? token
  let seat ← g.registry.seat? n
  let use (f : Connection → Connection) : Gateway := g.updateSeat n fun s => s.mapConnection f
  match seat.terminal.connection.outbound.poll with
  | (.pending, _) => none
  | (.item frame, outbound) =>
    if s.gone then
      return (use Connection.stopWriting).setStage client .over
    else
      return (use fun c => { c with outbound }).updateSocket client fun s =>
        s.emit (.text frame.write)
  | (.ended, _) => return (use Connection.cancel).updateSocket client Socket.finish

/-- What a container's log makes of a new socket; the log is read to its end unless it falls
silent. -/
def Socket.ofLog (shutdown : Bool) : Option Log.Source → Socket
  | none => ({} : Socket).finish
  | some source =>
    if shutdown then ({} : Socket).finish
    else
      let (result, _, outlet) := ({} : Log.Relay).pump source ({} : Log.Outlet)
      let s := outlet.frames.foldl (fun s text => s.emit (.text text)) ({} : Socket)
      match result with
      | none => { s with stage := .listening }
      | some _ => s.finish

/-- A new socket for a container's log. -/
def follow (g : Gateway) (client : Nat) (source : Option Log.Source) : Gateway :=
  if (g.socket? client).isSome then g
  else { g with sockets := g.sockets ++ [(client, Socket.ofLog g.shutdown source)] }

end Gateway
end PodConsole
