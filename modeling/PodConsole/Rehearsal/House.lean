import PodConsole.Gateway.Basic
import PodConsole.Rehearsal.Container

namespace PodConsole.Rehearsal

open Session (Lifetime Seat)

structure House where
  gateway : Gateway
  container : Container
  /-- The processes of sessions, by the sessions' numbers. -/
  processes : List (Nat × Process) := []
  seen : List Seen := []

namespace House

def process? (h : House) (n : Nat) : Option Process :=
  (h.processes.find? fun p => p.1 = n).map (·.2)

def dropProcess (h : House) (n : Nat) : House :=
  { h with processes := h.processes.filter fun p => p.1 ≠ n }

def setProcess (h : House) (n : Nat) (p : Process) : House :=
  { h with processes := (n, p) :: (h.dropProcess n).processes }

/-- Something that a session or its process can do, if there is anything. -/
def turn? (h : House) (n : Nat) : Option House := do
  let s ← h.gateway.registry.seat? n
  let g := h.gateway.attend n
  let attended ← g.registry.seat? n
  if attended.lifetime ≠ s.lifetime then
    return { h with gateway := g }
  match s.lifetime with
  | .running attachment =>
    match h.process? n with
    | none =>
      return { h.setProcess n (h.container.start attachment.current) with
        seen := h.seen ++ [.exec attachment.current.command s.session.target] }
    | some (.exited result) =>
      return { h.dropProcess n with gateway := h.gateway.attempted n result }
    | some p =>
      let (answer, p, g) ← p.turn? h.gateway.clock s.terminal.size (h.gateway.perform n)
      return { h.setProcess n p with gateway := g, seen := h.seen ++ Seen.ofAnswer answer }
  | .waiting _ | .parting _ _ | .over _ => none

def read? (h : House) (client : Nat) : Option House :=
  (h.gateway.read? client).map fun gateway => { h with gateway }

def write? (h : House) (client : Nat) : Option House :=
  (h.gateway.write? client).map fun gateway => { h with gateway }

/-- More steps than what is waiting can give rise to. -/
def bound (h : House) : Nat :=
  let atSeat (s : Seat) := s.terminal.connection.stdin.items.length
    + s.terminal.sizes.items.length + s.terminal.connection.outbound.items.length + 8
  let atSeats := h.gateway.registry.seats.foldl (fun n s => n + atSeat s) 0
  let atSockets := h.gateway.sockets.foldl (fun n e => n + e.2.inbox.length + 4) 0
  16 * (atSeats + atSockets) + 16

/-- Goes on with one thing until it has to wait. -/
def exhaust (next? : House → Option House) : Nat → House → House
  | 0, h => h
  | fuel + 1, h => (next? h).elim h (exhaust next? fuel)

/-- What there is to do, by the one who can do it. -/
def tasks (h : House) : List (House → Option House) :=
  let clients := h.gateway.sockets.map (·.1)
  (List.range h.gateway.registry.seats.length).map (fun n h => h.turn? n)
    ++ clients.map (fun n h => h.read? n) ++ clients.map (fun n h => h.write? n)

def isIdle (h : House) : Bool :=
  h.tasks.all fun next? => (next? h).isNone

/-- Each in turn does what it can. -/
def round (h : House) : House :=
  h.tasks.foldl (fun h next? => exhaust next? h.bound h) h

def settleIn : Nat → House → House
  | 0, h => h
  | fuel + 1, h => if h.isIdle then h else settleIn fuel h.round

/-- Everybody does what can be done, until nothing can. -/
def settle (h : House) : House :=
  settleIn h.bound h

/-- The times that somebody waits for. -/
def alarms (h : House) : List Nat :=
  let seats := h.gateway.registry.seats.filterMap fun s =>
    match s.lifetime with
    | .waiting deadline => some deadline
    | _ => none
  let processes := h.processes.filterMap fun p =>
    match p.2 with
    | .sleeping till _ => some till
    | _ => none
  seats ++ processes

def setClock (h : House) (time : Nat) : House :=
  { h with gateway := { h.gateway with clock := time } }

/-- Goes from one alarm to the next, up to a time. -/
def passIn (time : Nat) : Nat → House → House
  | 0, h => h
  | fuel + 1, h =>
    match (h.alarms.filter fun t => h.gateway.clock < t ∧ t ≤ time).min? with
    | some t => passIn time fuel (h.setClock t).settle
    | none => (h.setClock time).settle

/-- Some milliseconds pass. -/
def pass (h : House) (time : Nat) : House :=
  passIn (h.gateway.clock + time) h.settle.bound h.settle

/-- Settling takes the time of one millisecond. -/
def rest (h : House) : House :=
  (h.settle).pass 1

end House
end PodConsole.Rehearsal
