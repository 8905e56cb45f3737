import PodConsole.Json.Writer
import PodConsole.Wire.Op

namespace PodConsole.Wire

structure Envelope where
  op : Op
  data : Option String := none
  sessionId : Option String := none
  rows : Option Nat := none
  cols : Option Nat := none
  deriving DecidableEq, Repr

namespace Envelope

def bind (sessionId : String) : Envelope := { op := .bind, sessionId := some sessionId }

def stdin (data : String) : Envelope := { op := .stdin, data := some data }

def resize (size : Size) : Envelope :=
  { op := .resize, rows := some size.rows, cols := some size.cols }

def stdout (data : String) : Envelope := { op := .stdout, data := some data }

def toast (data : String) : Envelope := { op := .toast, data := some data }

/-- Absent fields are left out. -/
def write (e : Envelope) : String :=
  Json.writeObject <|
    [("op", Json.quote e.op.name)]
      ++ (e.data.map fun s => ("data", Json.quote s)).toList
      ++ (e.sessionId.map fun s => ("sessionId", Json.quote s)).toList
      ++ (e.rows.map fun n => ("rows", toString n)).toList
      ++ (e.cols.map fun n => ("cols", toString n)).toList

end Envelope
end PodConsole.Wire
