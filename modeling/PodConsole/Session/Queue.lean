namespace PodConsole.Session

/-- A bounded queue. A sender waits while it is full. -/
structure Queue (α : Type) where
  capacity : Nat
  items : List α := []
  /-- Somebody may still send. -/
  sending : Bool := true
  /-- Somebody may still receive. -/
  receiving : Bool := true
  deriving DecidableEq, Repr

inductive Offer where
  | sent
  | full
  | closed
  deriving DecidableEq, Repr

inductive Poll (α : Type) where
  | item (a : α)
  | pending
  | ended
  deriving DecidableEq, Repr

namespace Queue

/-- A queue that nobody uses. -/
def unused {α : Type} : Queue α := ⟨0, [], false, false⟩

def offer {α : Type} (q : Queue α) (a : α) : Offer × Queue α :=
  if !(q.sending && q.receiving) then (.closed, q)
  else if q.capacity ≤ q.items.length then (.full, q)
  else (.sent, { q with items := q.items ++ [a] })

/-- What was sent before the senders left still comes out. -/
def poll {α : Type} (q : Queue α) : Poll α × Queue α :=
  match q.items with
  | a :: rest => (.item a, { q with items := rest })
  | [] => (if q.sending then .pending else .ended, q)

def stopSending {α : Type} (q : Queue α) : Queue α :=
  { q with sending := false }

/-- What was not received is lost. -/
def stopReceiving {α : Type} (q : Queue α) : Queue α :=
  { q with receiving := false, items := [] }

end Queue
end PodConsole.Session
