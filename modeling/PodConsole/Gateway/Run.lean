import PodConsole.Gateway.Basic

namespace PodConsole.Gateway

open Session (Act)
open Exec (Failure Target)

inductive Event where
  | start (token : String) (target : Target) (hint : Option String)
  | connect (client : Nat)
  | follow (client : Nat) (source : Option Log.Source)
  | frame (client : Nat) (f : Frame)
  | cut (client : Nat)
  | read (client : Nat)
  | write (client : Nat)
  /-- The one who waits for a session's client takes a look. -/
  | attend (token : String)
  /-- A session's process uses its terminal. -/
  | act (token : String) (act : Act)
  /-- A session's attempt at a shell has ended. -/
  | attempt (token : String) (result : Except Failure Unit)
  | close (token : String)
  /-- Milliseconds pass. -/
  | pass (time : Nat)
  | shutdown

def onSession (g : Gateway) (token : String) (f : Nat → Gateway) : Gateway :=
  (g.registry.started? token).elim g f

/-- A process can only act in a session that runs. -/
def act (g : Gateway) (n : Nat) (a : Act) : Gateway :=
  match g.registry.seat? n with
  | some { lifetime := .running _, .. } => (g.perform n a).2
  | _ => g

def step (g : Gateway) : Event → Gateway
  | .start token target hint => (g.start token target hint).2
  | .connect client => g.connect client
  | .follow client source => g.follow client source
  | .frame client f => g.receive client f
  | .cut client => g.updateSocket client Socket.cut
  | .read client => (g.read? client).getD g
  | .write client => (g.write? client).getD g
  | .attend token => g.onSession token g.attend
  | .act token a => g.onSession token fun n => g.act n a
  | .attempt token result => g.onSession token fun n => g.attempted n result
  | .close token => { g with registry := (g.registry.close token).2 }
  | .pass time => { g with clock := g.clock + time }
  | .shutdown => { g with shutdown := true }

def run (g : Gateway) (events : List Event) : Gateway :=
  events.foldl step g

end PodConsole.Gateway
