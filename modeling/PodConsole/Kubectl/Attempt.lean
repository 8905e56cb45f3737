import PodConsole.Kubectl.Warmup
import PodConsole.Session.Terminal

namespace PodConsole.Kubectl

open Exec (Failure)
open Session (Act)
open Text (Bytes)
open Wire (Size)

/-- Milliseconds of quiet after which a prompt counts. -/
def settleDelay : Nat := 250

/-- Milliseconds after which keystrokes are no longer held back. -/
def inputHold : Nat := 5000

/-- Milliseconds for which output is still taken after the exit. -/
def drainTime : Nat := 500

/-- Why a log cannot be read where there is no such program. -/
def missing (binary : String) : Failure :=
  .establish ("failed to run " ++ binary ++ ": No such file or directory (os error 2)")

/-- What comes after a write to the client. -/
inductive Next where
  | forward
  /-- The shell has just spoken. -/
  | release
  | drain
  | flush
  deriving DecidableEq, Repr

inductive Stage where
  | forwarding
  | writing (bytes : Bytes) (next : Next)
  /-- The process has exited, and its output has not ended. -/
  | draining
  | flushing
  | over (result : Except Failure Unit)
  deriving Repr

namespace Stage

def isForwarding : Stage → Bool
  | .forwarding => true
  | _ => false

/-- The client's terminal has been given something, and has not answered. -/
def isHanding : Stage → Bool
  | .writing _ _ | .flushing => true
  | _ => false

/-- The output is only taken for a while. -/
def isDraining : Stage → Bool
  | .draining | .writing _ .drain => true
  | _ => false

end Stage

structure Attempt where
  shell : String
  /-- The size of the process's own terminal. -/
  screen : Size
  warmup : Warmup := {}
  /-- Keystrokes are no longer held back. -/
  released : Bool := false
  outputEnded : Bool := false
  code : Nat := 0
  /-- Keystrokes that the process was given. -/
  handed : List Bytes := []
  /-- Output that the client's terminal was given. -/
  written : List Bytes := []
  stage : Stage := .forwarding
  deriving Repr

namespace Attempt

/-- What can happen to an attempt. -/
inductive Event where
  | output (bytes : Bytes)
  | outputEnd
  | exit (code : Nat)
  /-- The process cannot be waited for. -/
  | lost (reason : String)
  | settle
  | deadline
  | keys (bytes : Bytes)
  | size (s : Size)
  /-- The client's terminal has no more keystrokes or sizes. -/
  | left
  | drained
  /-- The client's terminal has taken what it was given. -/
  | taken
  | refused
  deriving DecidableEq, Repr

def start (shell : String) (screen : Size) : Attempt where
  shell := shell
  screen := screen

def write (a : Attempt) (bytes : Bytes) (next : Next) : Attempt :=
  { a with stage := .writing bytes next, written := a.written ++ [bytes] }

def finish (a : Attempt) (result : Except Failure Unit) : Attempt :=
  { a with stage := .over result }

/-- Gives the process what was held back. -/
def release (a : Attempt) : Attempt :=
  let (held, warmup) := a.warmup.takeInput
  { a with warmup, released := true, handed := a.handed ++ held }

/-- Writes what was held back, if the shell has just spoken. -/
def follow (a : Attempt) (spoke : Bool × Warmup) (next : Next) : Attempt :=
  match spoke with
  | (false, warmup) => { a with warmup }
  | (true, warmup) =>
    let (held, warmup) := warmup.takeOutput
    { a with warmup }.write held next

/-- The exit is judged once the output is over. A shell that exited well without a word of its own
has its output shown all the same. -/
def conclude (a : Attempt) : Attempt :=
  match a.warmup.exitFailure? a.shell a.code with
  | some failure => a.finish (.error failure)
  | none =>
    let (held, warmup) := a.warmup.takeOutput
    let a := { a with warmup }
    if held.isEmpty then { a with stage := .flushing } else a.write held .flush

def forwarding (a : Attempt) : Event → Attempt
  | .output bytes =>
    if a.warmup.live then a.write bytes .forward
    else a.follow (a.warmup.pushOutput bytes) .release
  | .outputEnd => { a with outputEnded := true }
  | .exit code =>
    let a := { a with code }
    if a.outputEnded then a.conclude else { a with stage := .draining }
  | .lost reason => a.finish (.error (.stream reason))
  | .settle => a.follow a.warmup.settle .release
  | .deadline => a.release
  | .keys bytes =>
    if a.released then { a with handed := a.handed ++ [bytes] }
    else { a with warmup := a.warmup.holdInput bytes }
  | .size screen => { a with screen }
  | .left => a.finish (.error .disconnected)
  | .drained | .taken | .refused => a

def taken (a : Attempt) : Next → Attempt
  | .forward => { a with stage := .forwarding }
  | .release => { a.release with stage := .forwarding }
  | .drain => { a with stage := .draining }
  | .flush => { a with stage := .flushing }

/-- A client that takes no more output is gone, unless the process is gone already. -/
def refused (a : Attempt) : Next → Attempt
  | .forward | .release => a.finish (.error .disconnected)
  | .drain => a.conclude
  | .flush => { a with stage := .flushing }

def draining (a : Attempt) (bytes : Bytes) : Attempt :=
  if a.warmup.live then a.write bytes .drain
  else a.follow (a.warmup.pushOutput bytes) .drain

/-- Whether a quiet means anything. -/
def settling (a : Attempt) : Bool :=
  !a.warmup.live && !a.warmup.output.isEmpty

/-- What the attempt attends to while it is where it is. -/
def hears (a : Attempt) : Event → Bool
  | .output _ | .outputEnd =>
    match a.stage with
    | .forwarding => !a.outputEnded
    | .draining => true
    | _ => false
  | .exit _ | .lost _ | .keys _ | .size _ | .left => a.stage.isForwarding
  | .settle => a.stage.isForwarding && a.settling
  | .deadline => a.stage.isForwarding && !a.released
  | .drained => a.stage.isDraining
  | .taken | .refused => a.stage.isHanding

def react (a : Attempt) (e : Event) : Attempt :=
  match a.stage, e with
  | .forwarding, e => a.forwarding e
  | .writing _ next, .taken => a.taken next
  | .writing _ next, .refused => a.refused next
  | .draining, .output bytes => a.draining bytes
  | .flushing, _ => a.finish (.ok ())
  | _, _ => a.conclude

def step (a : Attempt) (e : Event) : Attempt :=
  if a.hears e then a.react e else a

def run (a : Attempt) (events : List Event) : Attempt :=
  events.foldl step a

/-- What the attempt is about to do at the client's terminal. -/
def act? (a : Attempt) : Option Act :=
  match a.stage with
  | .writing bytes _ => some (.write bytes)
  | .flushing => some .flush
  | .forwarding | .draining | .over _ => none

end Attempt
end PodConsole.Kubectl
