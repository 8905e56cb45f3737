import PodConsole.Json.Writer
import PodConsole.Session.Basic

namespace PodConsole.Http

/-- Why a request is refused. -/
inductive Problem where
  | validation (text : String)
  | notFound (text : String)
  | capacity (text : String)
  | internal (text : String)
  deriving DecidableEq, Repr

namespace Problem

def text : Problem → String
  | .validation t | .notFound t | .capacity t | .internal t => t

def status : Problem → Nat
  | .validation _ => 400
  | .notFound _ => 404
  | .capacity _ => 503
  | .internal _ => 500

def code : Problem → String
  | .validation _ => "VALIDATION_ERROR"
  | .notFound _ => "NOT_FOUND"
  | .capacity _ => "CAPACITY_EXCEEDED"
  | .internal _ => "INTERNAL_ERROR"

def body (p : Problem) : String :=
  Json.writeObject [("success", "false"), ("error", Json.quote p.text), ("code", Json.quote p.code)]

def ofSegment (s : Exec.Segment) : Problem :=
  .validation s.refusal

def ofSession (e : Session.SessionError) : Problem :=
  match e with
  | .notFound _ => .notFound e.message
  | .capacityExceeded _ => .capacity e.message
  | .alreadyBound _ | .closed _ | .connectionClosed _ => .internal e.message

end Problem

/-- A status and, where the program itself answers, a JSON body. -/
structure Reply where
  status : Nat
  body : Option String := none
  deriving DecidableEq, Repr

def Problem.reply (p : Problem) : Reply :=
  ⟨p.status, some p.body⟩

end PodConsole.Http
