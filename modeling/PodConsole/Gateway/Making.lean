import PodConsole.Gateway.Run

namespace PodConsole.Gateway

open Session (Seat)

/-- The session that a client's turn names, if there is one to be had. -/
def sought? (g : Gateway) (client : Nat) : Option (Nat × Seat) := do
  let s ← g.socket? client
  match s.stage, g.shutdown, s.inbox with
  | .greeting, false, .text text :: _ =>
    match Wire.Command.parse text with
    | .ok (.bind token) => g.registry.get? token
    | _ => none
  | _, _, _ => none

/-- The room of every queue that a step makes, also of those that find no use: a start makes one
before it looks for its place, and a client before it is let in. -/
def made (g : Gateway) : Event → List Nat
  | .start _ _ _ => [g.settings.session.resizeQueueCapacity]
  | .connect client => if (g.socket? client).isSome then [] else [Settings.outboundCapacity]
  | .read client =>
    if (g.sought? client).isSome then [g.settings.session.stdinQueueCapacity] else []
  | .follow _ _ | .frame _ _ | .cut _ | .write _ | .attend _ | .act _ _ | .attempt _ _ | .close _
  | .pass _ | .shutdown => []

/-- A step, unless it breaks down. -/
def step? (g : Gateway) (e : Event) : Option Gateway :=
  if (g.made e).all fun room => 0 < room then some (g.step e) else none

def run? (g : Gateway) (events : List Event) : Option Gateway :=
  events.foldlM step? g

end PodConsole.Gateway
