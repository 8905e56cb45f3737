import PodConsole.Exec.Attach
import PodConsole.Kubectl.Exchange

namespace PodConsole.Kubectl

open Exec (Attachment Failure Shell)
open Session (Terminal)

structure Launch where
  attachment : Attachment
  /-- The attempts that have ended and were followed by another. -/
  past : List Exchange := []
  current : Exchange
  result : Option (Except Failure Shell) := none

namespace Launch

inductive Event where
  | exchange (e : Exchange.Event)
  /-- The process could not be started. -/
  | unable (reason : String)
  /-- The attempt's end is noticed. -/
  | conclude
  deriving DecidableEq, Repr

def start (hint : Option String) (t : Terminal) : Launch :=
  let attachment := Attachment.start hint
  { attachment, current := .start attachment.current.name t }

/-- All attempts so far, in order. -/
def attempts (l : Launch) : List Exchange :=
  l.past ++ [l.current]

/-- An attempt that has heard something has its process. -/
def unable (l : Launch) (reason : String) : Launch :=
  if l.current.heard.isEmpty && l.current.attempt.stage.isForwarding then
    { l with current := { l.current with
        attempt := l.current.attempt.finish (.error (.establish reason)) } }
  else l

def conclude (l : Launch) : Launch :=
  match l.current.attempt.stage with
  | .over result =>
    match l.attachment.conclude result with
    | .over result => { l with result := some result }
    | .again next =>
      { l with
        attachment := next
        past := l.attempts
        current := .start next.current.name l.current.terminal }
  | _ => l

def step (l : Launch) : Event → Launch
  | .exchange e => { l with current := l.current.step e }
  | .unable reason => l.unable reason
  | .conclude => l.conclude

def run (l : Launch) (events : List Event) : Launch :=
  events.foldl step l

end Launch
end PodConsole.Kubectl
