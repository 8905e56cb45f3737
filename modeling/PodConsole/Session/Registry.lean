import PodConsole.Session.Seat

namespace PodConsole.Session

structure Registry where
  seats : List Seat := []
  /-- Tokens with the numbers of their sessions. -/
  roster : List (String × Nat) := []
  deriving Repr

namespace Registry

def seat? (r : Registry) (n : Nat) : Option Seat :=
  r.seats[n]?

def setSeat (r : Registry) (n : Nat) (s : Seat) : Registry :=
  { r with seats := r.seats.set n s }

def entry? (r : Registry) (id : String) : Option Nat :=
  (r.roster.find? fun e => e.1 = id).map (·.2)

def size (r : Registry) : Nat :=
  r.roster.length

/-- The session reached by a token, unless it is closed. -/
def get? (r : Registry) (id : String) : Option (Nat × Seat) := do
  let n ← r.entry? id
  let s ← r.seat? n
  if s.session.isClosed then none else some (n, s)

/-- A new session, not yet on the roster. -/
def add (r : Registry) (s : Seat) : Nat × Registry :=
  (r.seats.length, { r with seats := r.seats ++ [s] })

def enlist (r : Registry) (id : String) (n : Nat) : Registry :=
  { r with roster := r.roster.filter (fun e => e.1 ≠ id) ++ [(id, n)] }

/-- Puts a session on the roster in place of the one that had its token. -/
def replace (r : Registry) (n : Nat) : Option Nat × Registry :=
  match r.seat? n with
  | none => (none, r)
  | some s => (r.entry? s.session.id, r.enlist s.session.id n)

/-- Puts a session on the roster if there is room and its token is not there. -/
def enroll (r : Registry) (n limit : Nat) : Except SessionError Unit × Registry :=
  match r.seat? n with
  | none => (.ok (), r)
  | some s =>
    if limit ≤ r.size then (.error (.capacityExceeded limit), r)
    else if (r.entry? s.session.id).isSome then (.error (.alreadyBound s.session.id), r)
    else (.ok (), r.enlist s.session.id n)

/-- Takes a token off the roster and closes its session. -/
def close (r : Registry) (id : String) : Bool × Registry :=
  match r.entry? id with
  | none => (false, r)
  | some n =>
    let r := { r with roster := r.roster.filter fun e => e.1 ≠ id }
    match r.seat? n with
    | none => (true, r)
    | some s => (true, r.setSeat n { s with session := s.session.markClosed.2 })

/-- Replaces a seat; a session that is over leaves the roster, once. -/
def update (r : Registry) (n : Nat) (f : Seat → Seat) : Registry :=
  match r.seat? n with
  | none => r
  | some s =>
    let s' := f s
    let r := r.setSeat n s'
    if s'.isOver && !s.isOver then (r.close s'.session.id).2 else r

/-- The session that was started with a token, on the roster or not. -/
def started? (r : Registry) (id : String) : Option Nat :=
  r.seats.findIdx? fun s => s.session.id = id

def perform (r : Registry) (n : Nat) (act : Act) : Answer × Registry :=
  match r.seat? n with
  | none => (.refused, r)
  | some s => let (answer, s) := s.perform act; (answer, r.setSeat n s)

end Registry
end PodConsole.Session
