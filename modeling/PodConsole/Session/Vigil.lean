import PodConsole.Session.Seat

namespace PodConsole.Session

open Exec (Failure Target)
open Wire (Envelope Size)

/-- What a process gets done in one turn. -/
inductive Work where
  | act (act : Act)
  /-- The attempt at a shell has ended. -/
  | ended (result : Except Failure Unit)
  deriving Repr

inductive Happening where
  /-- A client comes with a new connection that has room for so many keystrokes and frames. -/
  | bind (client keysRoom framesRoom : Nat)
  /-- The registry closes the session. -/
  | close
  | shutdown
  /-- Milliseconds pass. -/
  | pass (time : Nat)
  | keys (text : String)
  | size (s : Size)
  /-- The client takes its next frame. -/
  | take
  /-- The client has no more keystrokes. -/
  | hangUp
  | cancel
  | stopWriting
  | turn (work : Option Work)
  deriving Repr

structure Vigil where
  seat : Seat
  clock : Nat := 0
  shutdown : Bool := false
  /-- How often shells were started for a client. -/
  launches : Nat := 0
  /-- All frames that went on their way to the client, in order. -/
  sent : List Envelope := []
  deriving DecidableEq, Repr

/-- The client's frames that one step has added to those that wait. -/
def uttered (before after : Seat) : List Envelope :=
  after.terminal.connection.outbound.items.drop
    before.terminal.connection.outbound.items.length

def Lifetime.runs : Lifetime → Bool
  | .running _ => true
  | .waiting _ | .parting _ _ | .over _ => false

/-- What the session has come to, or is about to. -/
def Lifetime.outcome? : Lifetime → Option Outcome
  | .waiting _ | .running _ => none
  | .parting outcome _ | .over outcome => some outcome

namespace Vigil

/-- A session for which nobody has come yet, and which is given up after `timeout`. -/
def start (id : String) (target : Target) (hint : Option String) (room timeout : Nat) : Vigil where
  seat := .new id target hint room timeout

/-- The session is what the one who waits, or the process, has made of it. -/
def become (v : Vigil) (s : Seat) : Vigil :=
  { v with seat := s, sent := v.sent ++ uttered v.seat s }

/-- The one who waits looks at what is ready. -/
def look (v : Vigil) : Vigil :=
  let s := v.seat.attend v.clock v.shutdown
  let launched := s.lifetime.runs && !v.seat.lifetime.runs
  { v.become s with launches := v.launches + launched.toNat }

def work (v : Vigil) : Work → Vigil
  | .act act => v.become (v.seat.perform act).2
  | .ended result => v.become (v.seat.attempted result)

/-- A look comes before any work, so what is ready then decides whether the work is done. -/
def turn (v : Vigil) (work : Option Work) : Vigil :=
  if v.look.seat.lifetime.runs then work.elim v.look v.look.work else v.look

def mapConnection (v : Vigil) (f : Connection → Connection) : Vigil :=
  { v with seat := v.seat.mapConnection f }

def step (v : Vigil) : Happening → Vigil
  | .bind client keysRoom framesRoom =>
    let c : Connection := ⟨{ capacity := keysRoom }, { capacity := framesRoom }, false⟩
    { v with seat := (v.seat.bind client c).2 }
  | .close => { v with seat := { v.seat with session := v.seat.session.markClosed.2 } }
  | .shutdown => { v with shutdown := true }
  | .pass time => { v with clock := v.clock + time }
  | .keys text => { v with seat := (v.seat.pushKeys text).2 }
  | .size s => { v with seat := (v.seat.pushSize s).2 }
  | .take => v.mapConnection fun c => { c with outbound := c.outbound.poll.2 }
  | .hangUp => v.mapConnection fun c => { c with stdin := c.stdin.stopSending }
  | .cancel => v.mapConnection Connection.cancel
  | .stopWriting => v.mapConnection Connection.stopWriting
  | .turn work => v.turn work

def run (v : Vigil) (happenings : List Happening) : Vigil :=
  happenings.foldl step v

end Vigil
end PodConsole.Session
