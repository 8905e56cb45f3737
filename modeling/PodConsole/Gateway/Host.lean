import PodConsole.Gateway.Run
import PodConsole.Kubectl.Launch

namespace PodConsole
open Kubectl (Exchange Launch)
open Session (Act Seat Terminal)

namespace Kubectl

/-- What the terminal is asked to do in an event. -/
def Exchange.act? (x : Exchange) : Exchange.Event → Option Act
  | .turn =>
    match x.waiting with
    | some frame => some (.send frame)
    | none => x.attempt.act?
  | .listen => if x.attempt.stage.isForwarding then some .read else none
  | .measure => if x.attempt.stage.isForwarding then some .nextSize else none
  | .process _ | .client _ => none

/-- What a client does, it does at its socket. -/
def Exchange.isClient : Exchange.Event → Bool
  | .client _ => true
  | .process _ | .turn | .listen | .measure => false

def Launch.isClient : Launch.Event → Bool
  | .exchange e => Exchange.isClient e
  | .unable _ | .conclude => false

/-- The terminal as others have left it. -/
def Launch.onto (l : Launch) (t : Terminal) : Launch :=
  { l with current := { l.current with terminal := t } }

/-- What the gateway has to do in an event, for the session of `token`. -/
def Launch.deed? (token : String) (l : Launch) : Launch.Event → Option Gateway.Event
  | .exchange e => (l.current.act? e).map (.act token)
  | .unable _ => none
  | .conclude =>
    match l.current.attempt.stage with
    | .over result => some (.attempt token result)
    | .forwarding | .writing _ _ | .draining | .flushing => none

end Kubectl

namespace Gateway

/-- A session with the attempts at a shell for it. An attempt uses the session's own terminal, so it
takes its turns among all other steps of the gateway. -/
structure Host where
  gateway : Gateway
  token : String
  /-- The attempts, once the session has its client. -/
  launch : Option Launch := none

namespace Host

inductive Event where
  /-- A step of the gateway that the session's own process has no part in. -/
  | gateway (e : Gateway.Event)
  | launch (e : Launch.Event)

/-- What the process of a session does. -/
def isOwn (token : String) : Gateway.Event → Bool
  | .act own _ | .attempt own _ => own = token
  | _ => false

/-- The session, while a shell runs for it. -/
def running? (h : Host) : Option Seat := do
  let n ← h.gateway.registry.started? h.token
  let s ← h.gateway.registry.seat? n
  match s.lifetime with
  | .running _ => some s
  | .waiting _ | .parting _ _ | .over _ => none

/-- The attempts at the session's terminal, if the event can happen to them. -/
def ready? (h : Host) (e : Launch.Event) : Option Launch :=
  if Launch.isClient e then none
  else h.running?.bind fun s => h.launch.map fun l => l.onto s.terminal

/-- What an event is to the gateway. -/
def deed? (h : Host) : Event → Option Gateway.Event
  | .gateway e => if isOwn h.token e then none else some e
  | .launch e => (h.ready? e).bind fun l => l.deed? h.token e

/-- A session that has just got its client has its first attempt. -/
def begin (h : Host) : Host :=
  match h.launch, h.running? with
  | none, some s => { h with launch := some (.start s.session.hint s.terminal) }
  | _, _ => h

def step (h : Host) (e : Event) : Host :=
  let after : Host := { h with gateway := (h.deed? e).elim h.gateway h.gateway.step }
  match e with
  | .gateway _ => after.begin
  | .launch e => { after with launch := ((h.ready? e).map fun l => l.step e).or h.launch }

def run (h : Host) (events : List Event) : Host :=
  events.foldl step h

end Host
end Gateway
end PodConsole
