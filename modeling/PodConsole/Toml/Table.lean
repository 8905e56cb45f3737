import PodConsole.Toml.Node

namespace PodConsole.Toml.Table

/-- Adds a key that is not there yet. -/
def bindNew (t : Table) (key : Key) (node : Node) : Option Table :=
  if (t.find? key.name).isSome then none else some (t.put key node)

/-- Which tables on the way may be entered: their form, and whether they are the last on the way.
An array of tables has no form of its own. -/
abbrev Gate := Option Form → Bool → Bool

/-- A dotted key only ends in tables that dotted keys made. -/
def dottedGate : Gate
  | some .dotted, _ => true
  | some .parent, last => !last
  | none, last => !last
  | _, _ => false

/-- A header passes all tables but those between braces. -/
def headerGate : Gate
  | some .inline, _ => false
  | _, _ => true

/-- Changes the table at the end of a path. Tables that are missing on the way are made; of an
array of tables the last one is meant. -/
def within {α : Type} (fresh : Form) (gate : Gate) (f : Table → Option (α × Table)) :
    List Key → Table → Option (α × Table)
  | [], t => f t
  | key :: rest, t =>
    match t.find? key.name with
    | none => do
      let (a, child) ← within fresh gate f rest { form := fresh }
      return (a, t.put key child.node)
    | some (.table form stretch entries) =>
      if gate (some form) rest.isEmpty then do
        let (a, child) ← within fresh gate f rest ⟨form, stretch, entries⟩
        return (a, t.put key child.node)
      else none
    | some (.tables items) =>
      match items.getLast? with
      | some (.table form stretch entries) =>
        if gate none rest.isEmpty then do
          let (a, child) ← within fresh gate f rest ⟨form, stretch, entries⟩
          return (a, t.put key (.tables (items.dropLast ++ [child.node])))
        else none
      | _ => none
    | some _ => none

def descend {α : Type} (t : Table) (path : List Key) (f : Table → Option (α × Table)) :
    Option (α × Table) :=
  within .parent headerGate f path t

def bind (t : Table) (path : List Key) (key : Key) (node : Node) : Option Table :=
  (within .dotted dottedGate (fun place => (place.bindNew key node).map ((), ·)) path t).map (·.2)

end PodConsole.Toml.Table
