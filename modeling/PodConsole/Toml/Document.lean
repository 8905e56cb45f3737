import PodConsole.Toml.Reader

namespace PodConsole.Toml

/-- The tree so far, and the table of the last header, which is not in it yet. -/
structure Draft where
  root : Table := { form := .header }
  place : Option (List Key × Key × Bool) := none
  current : Table := { form := .header }

namespace Draft

def bind (d : Draft) (path : List Key) (key : Key) (node : Node) : Option Draft := do
  let current ← d.current.bind path key node
  let stretch := match current.stretch, node.stretch? with
    | some first, some last => some (first.join last)
    | first, _ => first
  return { d with current := { current with stretch } }

/-- Puts the table of the last header into the tree. -/
def finish (d : Draft) : Option Table :=
  match d.place with
  | none => some d.current
  | some (path, key, false) =>
    (d.root.descend path fun parent =>
      (parent.bindNew key d.current.node).map ((), ·)).map (·.2)
  | some (path, key, true) =>
    (d.root.descend path fun parent =>
      match parent.find? key.name with
      | some (.tables items) =>
        some ((), parent.put key (.tables (items ++ [d.current.node])))
      | _ => none).map (·.2)

/-- A header may name a table that so far was only the parent of others. -/
def claim (key : Key) (parent : Table) : Option (List (Key × Node) × Table) :=
  match parent.find? key.name with
  | none => some ([], parent)
  | some (.table .parent _ entries) => some (entries, parent.remove key.name)
  | some _ => none

def claimRepeated (key : Key) (parent : Table) : Option (List (Key × Node) × Table) :=
  match parent.find? key.name with
  | none => some ([], parent.put key (.tables []))
  | some (.tables _) => some ([], parent)
  | some _ => none

def start (d : Draft) (path : List Key) (key : Key) (repeated : Bool) (stretch : Stretch) :
    Option Draft := do
  let root ← d.finish
  let (entries, root) ← root.descend path (if repeated then claimRepeated key else claim key)
  return ⟨root, some (path, key, repeated), ⟨.header, some stretch, entries⟩⟩

def add (d : Draft) : Statement → Option Draft
  | .header path key repeated stretch => d.start path key repeated stretch
  | .binding path key node => d.bind path key node

end Draft

/-- The root's entries. -/
abbrev Document := List (Key × Node)

def Document.ofStatements? (ss : List Statement) : Option Document := do
  let d ← ss.foldlM Draft.add {}
  let root ← d.finish
  return root.entries

def Document.read? (text : String) : Option Document :=
  (statements text).bind ofStatements?

end PodConsole.Toml
