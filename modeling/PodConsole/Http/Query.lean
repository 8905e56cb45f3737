import PodConsole.Decimal.Digits
import PodConsole.Http.Escape

namespace PodConsole.Http

structure Query where
  pairs : List (String × String)
  deriving DecidableEq, Repr

namespace Query

/-- A name without an equals sign has the empty value. -/
def pair (s : String) : String × String :=
  let cs := s.toList
  let name := cs.takeWhile (· ≠ '=')
  (Escape.field (String.ofList name), Escape.field (String.ofList (cs.drop (name.length + 1))))

def read (s : String) : Query where
  pairs := ((s.splitOn "&").filter fun part => part ≠ "").map pair

/-- The values of a name. -/
def values (q : Query) (name : String) : List String :=
  (q.pairs.filter fun p => p.1 = name).map (·.2)

/-- A name may come once; its value has to be readable. -/
def value? {α : Type} (q : Query) (name : String) (read : String → Option α) :
    Option (Option α) :=
  match q.values name with
  | [] => some none
  | [v] => (read v).map some
  | _ => none

def flag? : String → Option Bool
  | "true" => some true
  | "false" => some false
  | _ => none

def count? (s : String) : Option Nat :=
  Decimal.readWord? s.toList

end Query
end PodConsole.Http
