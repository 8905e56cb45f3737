namespace PodConsole.Wire

inductive Op where
  | bind
  | stdin
  | resize
  | stdout
  | toast
  deriving DecidableEq, Repr

inductive Direction where
  | clientToServer
  | serverToClient
  deriving DecidableEq, Repr

namespace Op

def all : List Op := [.bind, .stdin, .resize, .stdout, .toast]

def name : Op → String
  | .bind => "bind"
  | .stdin => "stdin"
  | .resize => "resize"
  | .stdout => "stdout"
  | .toast => "toast"

def ofName? (name : String) : Option Op :=
  all.find? fun op => op.name = name

def direction : Op → Direction
  | .bind | .stdin | .resize => .clientToServer
  | .stdout | .toast => .serverToClient

end Op

/-- Character cells. -/
structure Size where
  rows : Nat := 24
  cols : Nat := 80
  deriving DecidableEq, Repr

/-- A dimension fits 16 bits. -/
def maxDimension : Nat := 0xFFFF

end PodConsole.Wire
