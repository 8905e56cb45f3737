import PodConsole.Kubectl.Attempt

namespace PodConsole.Kubectl

open Session (Act Connection Terminal)
open Text (Bytes)
open Wire (Envelope Size)

structure Exchange where
  attempt : Attempt
  terminal : Terminal
  /-- The frame that waits for room. -/
  waiting : Option Envelope := none
  /-- What the attempt has heard. -/
  heard : List Attempt.Event := []
  /-- What the attempt has asked of the terminal. -/
  calls : List Act := []
  /-- The frames that have gone out. -/
  sent : List Envelope := []
  /-- The frames that the client has taken. -/
  seen : List Envelope := []

namespace Exchange

/-- What a client does at its end. -/
inductive Client where
  | keys (text : String)
  | size (s : Size)
  /-- Takes the next frame. -/
  | take
  /-- Sends no more keystrokes. -/
  | hangUp
  | cancel
  /-- Takes no more frames. -/
  | stop
  deriving DecidableEq, Repr

inductive Event where
  /-- Something that the process or the clock does. -/
  | process (e : Attempt.Event)
  /-- The terminal does what it was asked to do. -/
  | turn
  | listen
  | measure
  | client (c : Client)
  deriving DecidableEq, Repr

def start (shell : String) (t : Terminal) : Exchange where
  attempt := .start shell t.size
  terminal := t

def mapConnection (x : Exchange) (f : Connection → Connection) : Exchange :=
  { x with terminal := x.terminal.mapConnection f }

/-- What the attempt does not attend to has not happened to it. Otherwise it asks for something
else, and the frame that waited is lost. -/
def tell (x : Exchange) (e : Attempt.Event) : Exchange :=
  if x.attempt.hears e then
    { x with attempt := x.attempt.step e, waiting := none, heard := x.heard ++ [e] }
  else x

def isFromProcess : Attempt.Event → Bool
  | .output _ | .outputEnd | .exit _ | .lost _ | .settle | .deadline | .drained => true
  | .keys _ | .size _ | .left | .taken | .refused => false

/-- The frames that a terminal has put out since it was `before`. -/
def fresh (before after : Terminal) : List Envelope :=
  after.connection.outbound.items.drop before.connection.outbound.items.length

/-- Does something at the terminal, and tells the attempt unless a frame has to wait. -/
def perform (x : Exchange) (act : Act) : Exchange :=
  let (answer, terminal) := x.terminal.perform act
  let x := { x with terminal, sent := x.sent ++ fresh x.terminal terminal }
  match answer with
  | .full frame => { x with waiting := some frame }
  | .refused => x.tell .refused
  | _ => { x with waiting := none }.tell .taken

def turn (x : Exchange) : Exchange :=
  match x.waiting, x.attempt.act? with
  | some frame, _ => x.perform (.send frame)
  | none, some act => { x with calls := x.calls ++ [act] }.perform act
  | none, none => x

def listen (x : Exchange) : Exchange :=
  if !x.attempt.stage.isForwarding then x
  else match x.terminal.read with
    | (.keys bytes, terminal) => { x with terminal }.tell (.keys bytes)
    | (.ended, _) => x.tell .left
    | _ => x

def measure (x : Exchange) : Exchange :=
  if !x.attempt.stage.isForwarding then x
  else match x.terminal.nextSize with
    | (.size s, terminal) => { x with terminal }.tell (.size s)
    | (.ended, _) => x.tell .left
    | _ => x

def client (x : Exchange) : Client → Exchange
  | .keys text => x.mapConnection fun c => { c with stdin := (c.stdin.offer text).2 }
  | .size s => { x with terminal := { x.terminal with sizes := (x.terminal.sizes.offer s).2 } }
  | .take =>
    match x.terminal.connection.outbound.poll with
    | (.item frame, outbound) =>
      { x.mapConnection fun c => { c with outbound } with seen := x.seen ++ [frame] }
    | _ => x
  | .hangUp => x.mapConnection fun c => { c with stdin := c.stdin.stopSending }
  | .cancel => x.mapConnection Connection.cancel
  | .stop => x.mapConnection Connection.stopWriting

def step (x : Exchange) : Event → Exchange
  | .process e => if isFromProcess e then x.tell e else x
  | .turn => x.turn
  | .listen => x.listen
  | .measure => x.measure
  | .client c => x.client c

def run (x : Exchange) (events : List Event) : Exchange :=
  events.foldl step x

end Exchange
end PodConsole.Kubectl
