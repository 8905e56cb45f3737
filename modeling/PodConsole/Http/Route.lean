import PodConsole.Http.Query
import PodConsole.Http.Reply
import PodConsole.Kubectl.Arguments

namespace PodConsole.Http

open Kubectl (LogOptions)

structure Request where
  method : String
  /-- The path as it was sent. -/
  path : String
  query : Query
  /-- The client wants to go on as a socket. -/
  upgrade : Bool := false
  deriving DecidableEq, Repr

/-- A fragment is no part of a request. -/
def Request.ofUri (method uri : String) (upgrade : Bool) : Request :=
  let cs := uri.toList.takeWhile (· ≠ '#')
  let path := cs.takeWhile (· ≠ '?')
  { method, path := String.ofList path
    query := .read (String.ofList (cs.drop (path.length + 1))), upgrade }

inductive Route where
  | health
  | start (namespaceName pod container : String)
  | startNowhere (namespaceName pod : String)
  | terminal
  | logs (namespaceName pod container : String)
  deriving DecidableEq, Repr

namespace Route

/-- An empty segment counts as one, except at the end of the path. -/
def ofPath? (path : String) : Option Route :=
  match path.splitOn "/" with
  | ["", "healthz"] => some .health
  | ["", "api", "v1", "pod", n, p, "shell", c] => if c = "" then none else some (.start n p c)
  | ["", "api", "v1", "pod", n, p, "shell"] => some (.startNowhere n p)
  | ["", "api", "v1", "terminal", "ws"] => some .terminal
  | ["", "api", "v1", "log", n, p, c, "ws"] => some (.logs n p c)
  | _ => none

/-- The segments without their escapes. -/
def unescape? : Route → Option Route
  | .start n p c => do
    return .start (← Escape.segment? n) (← Escape.segment? p) (← Escape.segment? c)
  | .startNowhere n p => do return .startNowhere (← Escape.segment? n) (← Escape.segment? p)
  | .logs n p c => do
    return .logs (← Escape.segment? n) (← Escape.segment? p) (← Escape.segment? c)
  | r => some r

end Route

/-- A request that can be carried out, as far as its text tells. -/
inductive Wish where
  | health
  | start (cluster : Option String) (namespaceName pod container : String) (shell : Option String)
  | startNowhere
  | terminal
  | logs (cluster : Option String) (namespaceName pod container : String) (options : LogOptions)
  deriving DecidableEq, Repr

namespace Wish

/-- `none` is a path or a query that cannot be read. -/
def ofRoute? (q : Query) (r : Route) : Option Wish := do
  match ← r.unescape? with
  | .health => return .health
  | .start n p c =>
    return .start (← q.value? "cluster" some) n p c (← q.value? "shell" some)
  | .startNowhere _ _ => return .startNowhere
  | .terminal => return .terminal
  | .logs n p c =>
    let cluster ← q.value? "cluster" some
    let follow ← q.value? "follow" Query.flag?
    let tailLines ← q.value? "tailLines" Query.count?
    let previous ← q.value? "previous" Query.flag?
    return .logs cluster n p c ⟨follow.getD false, tailLines, previous.getD false⟩

def isSocket : Wish → Bool
  | .terminal | .logs .. => true
  | _ => false

end Wish

/-- Requests without a body of their own. -/
def Request.isReading (r : Request) : Bool :=
  r.method = "GET" || r.method = "HEAD"

/-- What is asked for, or the answer to a request that asks for nothing. -/
def Request.wish (r : Request) : Except Reply Wish :=
  match Route.ofPath? r.path with
  | none => .error (Problem.notFound ("no route for " ++ r.path)).reply
  | some route =>
    if !r.isReading then .error ⟨405, none⟩
    else match Wish.ofRoute? r.query route with
      | none => .error ⟨400, none⟩
      | some w =>
        if w.isSocket && r.method = "HEAD" then .error ⟨405, none⟩
        else if w.isSocket && !r.upgrade then .error ⟨400, none⟩
        else .ok w

/-- What is sent of an answer. -/
def Request.sent (r : Request) (reply : Reply) : Reply :=
  if r.method = "HEAD" then { reply with body := none } else reply

end PodConsole.Http
