import PodConsole.Exec.Target

namespace PodConsole.Kubectl

open Exec (Target)

/-- How `kubectl` is found and what it talks to. -/
structure Client where
  binary : String := "kubectl"
  kubeconfig : Option String := none
  defaultContext : Option String := none
  deriving DecidableEq, Repr

structure LogOptions where
  follow : Bool := false
  tailLines : Option Nat := none
  previous : Bool := false
  deriving DecidableEq, Repr

namespace Client

def contextFor (c : Client) (t : Target) : Option String :=
  t.cluster.or c.defaultContext

def globalArguments (c : Client) (t : Target) : List String :=
  (c.kubeconfig.elim [] fun path => ["--kubeconfig", path])
    ++ ((c.contextFor t).elim [] fun context => ["--context", context])

def execArguments (c : Client) (t : Target) (command : List String) : List String :=
  c.globalArguments t
    ++ ["exec", "-i", "-t", "-n", t.namespaceName, t.pod, "-c", t.container, "--"]
    ++ command

def logArguments (c : Client) (t : Target) (o : LogOptions) : List String :=
  c.globalArguments t
    ++ ["logs", "-n", t.namespaceName, t.pod, "-c", t.container]
    ++ (if o.follow then ["--follow"] else [])
    ++ (o.tailLines.elim [] fun n => ["--tail=" ++ toString n])
    ++ (if o.previous then ["--previous"] else [])

end Client
end PodConsole.Kubectl
