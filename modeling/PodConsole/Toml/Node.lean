import PodConsole.Text.Utf8

namespace PodConsole.Toml

/-- A stretch of text, by the octets left before it and after it. -/
structure Stretch where
  before : Nat
  after : Nat
  deriving DecidableEq, Repr

def octets (cs : List Char) : Nat :=
  cs.foldl (fun n c => n + c.utf8Size) 0

def Stretch.between (before after : List Char) : Stretch :=
  ⟨octets before, octets after⟩

/-- From the start of one stretch to the end of a later one. -/
def Stretch.join (first last : Stretch) : Stretch :=
  ⟨first.before, last.after⟩

structure Key where
  name : String
  stretch : Stretch
  deriving DecidableEq, Repr

inductive Scalar where
  | text (s : String)
  | integer (n : Int)
  | float (f : Float)
  | flag (b : Bool)
  | moment

/-- How a table came to be, which decides what may still be added to it. -/
inductive Form where
  /-- By its own header. -/
  | header
  /-- As the parent of a header's table. -/
  | parent
  /-- By a dotted key. -/
  | dotted
  /-- Between braces. -/
  | inline
  deriving DecidableEq, Repr

inductive Node where
  | scalar (s : Scalar) (stretch : Stretch)
  | array (items : List Node) (stretch : Stretch)
  /-- An array whose tables each have a header. -/
  | tables (items : List Node)
  | table (form : Form) (stretch : Option Stretch) (entries : List (Key × Node))

/-- A table under construction. -/
structure Table where
  form : Form
  stretch : Option Stretch := none
  entries : List (Key × Node) := []

def Table.node (t : Table) : Node :=
  .table t.form t.stretch t.entries

def Node.stretch? : Node → Option Stretch
  | .scalar _ s => some s
  | .array _ s => some s
  | .table _ s _ => s
  | .tables items =>
    match items.head?, items.getLast? with
    | some (.table _ (some first) _), some (.table _ (some last) _) => some (first.join last)
    | _, _ => none

namespace Table

def find? (t : Table) (name : String) : Option Node :=
  (t.entries.find? fun e => e.1.name = name).map (·.2)

/-- A key keeps its place when it is there already. -/
def put (t : Table) (key : Key) (node : Node) : Table :=
  if t.entries.any fun e => e.1.name = key.name then
    { t with entries := t.entries.map fun e => if e.1.name = key.name then (e.1, node) else e }
  else { t with entries := t.entries ++ [(key, node)] }

def remove (t : Table) (name : String) : Table :=
  { t with entries := t.entries.filter fun e => e.1.name ≠ name }

end Table
end PodConsole.Toml
