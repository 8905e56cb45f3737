import PodConsole.Session.Registry

namespace PodConsole.Rehearsal

open Session
open Exec (Target)
open Wire (Size)

structure Named where
  name : String
  seat : Nat
  /-- How many changes the watcher of the session has seen, if there is one. -/
  seen : Option Nat := none
  /-- The client that was received from the session's signal. -/
  kept : Option Nat := none
  deriving Repr

structure Bench where
  registry : Registry := {}
  named : List Named := []
  /-- The names of the clients, by number. -/
  clients : List String := []
  deriving Repr

namespace Bench

def named? (b : Bench) (name : String) : Option Named :=
  b.named.find? fun n => n.name = name

def seat? (b : Bench) (name : String) : Option Seat := do
  let n ← b.named? name
  b.registry.seat? n.seat

def edit (b : Bench) (name : String) (f : Named → Named) : Bench :=
  { b with named := b.named.map fun n => if n.name = name then f n else n }

def setSeat (b : Bench) (name : String) (s : Seat) : Bench :=
  match b.named? name with
  | none => b
  | some n => { b with registry := b.registry.setSeat n.seat s }

/-- The first name, in order, that means a session. -/
def nameOf (b : Bench) (seat : Nat) : Option String :=
  let names := (b.named.filter fun n => n.seat = seat).map Named.name
  (names.mergeSort fun x y => x ≤ y).head?

def ids (b : Bench) : List String :=
  (b.registry.roster.map (·.1)).mergeSort fun x y => x ≤ y

def states (b : Bench) : List (String × Phase) :=
  b.named.filterMap fun n => (b.registry.seat? n.seat).map fun s => (n.name, s.session.phase)

/-- Nobody waits for the signal and the sizes of the session any more. -/
def deafen (s : Seat) : Seat :=
  { s with
    session := { s.session with signal := s.session.signal.stopReceiving }
    terminal := { s.terminal with sizes := s.terminal.sizes.stopReceiving } }

/-- A name that is used again lets go of all it had. -/
def new (b : Bench) (name id : String) (target : Target) (hint : Option String) (room : Nat) :
    Bench :=
  let b := match b.seat? name with
    | none => b
    | some old => b.setSeat name (deafen old)
  let (seat, registry) := b.registry.add (.new id target hint room 0)
  { b with registry, named := b.named.filter (fun n => n.name ≠ name) ++ [{ name, seat }] }

def set (b : Bench) (name : String) : Option String × Bench :=
  match b.named? name with
  | none => (none, b)
  | some n =>
    let (old, registry) := b.registry.replace n.seat
    (old.bind b.nameOf, { b with registry })

def enroll (b : Bench) (name : String) (limit : Nat) : Except SessionError Unit × Bench :=
  match b.named? name with
  | none => (.ok (), b)
  | some n =>
    let (r, registry) := b.registry.enroll n.seat limit
    (r, { b with registry })

def get (b : Bench) (id : String) : Option String :=
  (b.registry.get? id).bind fun (n, _) => b.nameOf n

def close (b : Bench) (id : String) : Bool × Bench :=
  let (r, registry) := b.registry.close id
  (r, { b with registry })

/-- A client by its name; the last one of that name is meant. -/
def client? (b : Bench) (name : String) : Option Nat :=
  b.clients.reverse.findIdx? (· = name) |>.map fun i => b.clients.length - 1 - i

def bind (b : Bench) (name client : String) : Except SessionError Unit × Bench :=
  let number := b.clients.length
  let b := { b with clients := b.clients ++ [client] }
  match b.seat? name with
  | none => (.ok (), b)
  | some s =>
    let (r, session) := s.session.bind number
    (r, b.setSeat name { s with session })

def receive (b : Bench) (name : String) : Signal.Arrival × Bench :=
  match b.seat? name with
  | none => (.nobody, b)
  | some s =>
    let (arrival, signal) := s.session.signal.receive
    let b := b.setSeat name { s with session := { s.session with signal } }
    match arrival with
    | .client n => (arrival, b.edit name fun entry => { entry with kept := some n })
    | _ => (arrival, b)

def dropSignal (b : Bench) (name : String) : Bench :=
  match b.seat? name with
  | none => b
  | some s =>
    b.setSeat name { s with session := { s.session with
      signal := s.session.signal.stopReceiving } }

def dropSizes (b : Bench) (name : String) : Bench :=
  match b.seat? name with
  | none => b
  | some s =>
    b.setSeat name { s with terminal := { s.terminal with
      sizes := s.terminal.sizes.stopReceiving } }

def dropClient (b : Bench) (name : String) : Bench :=
  b.edit name fun entry => { entry with kept := none }

/-- Whether anyone could still send to a client: a signal that carries it, or who received it. -/
def isHeld (b : Bench) (client : Nat) : Bool :=
  b.registry.seats.any (fun s => s.session.signal = .carrying client)
    || b.named.any fun n => n.kept = some client

def markRunning (b : Bench) (name : String) : Bench :=
  match b.seat? name with
  | none => b
  | some s => b.setSeat name { s with session := s.session.markRunning }

def markClosed (b : Bench) (name : String) : Bool × Bench :=
  match b.seat? name with
  | none => (false, b)
  | some s =>
    let (r, session) := s.session.markClosed
    (r, b.setSeat name { s with session })

def pushSize (b : Bench) (name : String) (size : Size) : Offer × Bench :=
  match b.seat? name with
  | none => (.closed, b)
  | some s =>
    let (r, s) := s.pushSize size
    (r, b.setSeat name s)

/-- A queue whose receiver is gone yields nothing more. -/
def takeSize (b : Bench) (name : String) : Poll Size × Bench :=
  match b.seat? name with
  | none => (.ended, b)
  | some s =>
    if !s.terminal.sizes.receiving then (.ended, b)
    else
      let (r, sizes) := s.terminal.sizes.poll
      (r, b.setSeat name { s with terminal := { s.terminal with sizes } })

def watch (b : Bench) (name : String) : Bench :=
  match b.seat? name with
  | none => b
  | some s => b.edit name fun entry => { entry with seen := some s.session.changes }

/-- Whether the session changed since the last look, and its phase. -/
def look (b : Bench) (name : String) : Option (Bool × Phase) × Bench :=
  match b.named? name, b.seat? name with
  | some n, some s =>
    match n.seen with
    | none => (none, b)
    | some seen => (some (seen ≠ s.session.changes, s.session.phase), b.watch name)
  | _, _ => (none, b)

end Bench
end PodConsole.Rehearsal
