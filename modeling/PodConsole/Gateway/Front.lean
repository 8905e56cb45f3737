import PodConsole.Gateway.Basic
import PodConsole.Http.Route

namespace PodConsole.Gateway

open Exec (Target)
open Http (Problem Reply Request Wish)
open Kubectl (LogOptions)

inductive Response where
  | reply (r : Reply)
  /-- The client's socket becomes that of a terminal. -/
  | terminal
  /-- The client's socket follows a log. -/
  | logs (target : Target) (options : LogOptions)
  deriving DecidableEq, Repr

def healthBody (g : Gateway) : String :=
  Json.writeObject [("status", Json.quote "ok"), ("sessions", toString g.registry.size)]

/-- A new session gets the token. -/
def grant (g : Gateway) (token : String) : Wish → Response × Gateway
  | .health => (.reply ⟨200, some g.healthBody⟩, g)
  | .startNowhere => (.reply (Problem.ofSegment .container).reply, g)
  | .terminal => (.terminal, g)
  | .logs cluster n p c options =>
    match Target.ofSegments cluster n p c with
    | .ok target => (.logs target options, g)
    | .error segment => (.reply (Problem.ofSegment segment).reply, g)
  | .start cluster n p c shell =>
    match g.startTerminal token cluster n p c shell with
    | (.ok id, g) => (.reply ⟨200, some (Json.writeObject [("id", Json.quote id)])⟩, g)
    | (.error problem, g) => (.reply problem.reply, g)

def respond (g : Gateway) (token : String) (r : Request) : Response × Gateway :=
  match r.wish with
  | .error reply => (.reply (r.sent reply), g)
  | .ok wish =>
    match g.grant token wish with
    | (.reply reply, g) => (.reply (r.sent reply), g)
    | (response, g) => (response, g)

end PodConsole.Gateway
