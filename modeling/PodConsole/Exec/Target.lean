import PodConsole.Text.Blank
import PodConsole.Text.Quoted

namespace PodConsole.Exec

/-- Without a cluster the default one is meant. -/
structure Target where
  cluster : Option String
  namespaceName : String
  pod : String
  container : String
  deriving DecidableEq, Repr

inductive Segment where
  | namespaceName
  | pod
  | container
  deriving DecidableEq, Repr

def Segment.name : Segment → String
  | .namespaceName => "namespace"
  | .pod => "pod"
  | .container => "container"

/-- Why a target is refused: its first blank segment. -/
def Segment.refusal (s : Segment) : String :=
  s.name ++ " must not be empty"

namespace Target

def ofSegments (cluster : Option String) (namespaceName pod container : String) :
    Except Segment Target :=
  if Text.isBlank namespaceName then .error .namespaceName
  else if Text.isBlank pod then .error .pod
  else if Text.isBlank container then .error .container
  else .ok ⟨cluster.filter fun c => !Text.isBlank c, namespaceName, pod, container⟩

def path (t : Target) : String :=
  "/".intercalate [t.cluster.getD "default", t.namespaceName, t.pod, t.container]

/-- The text of an optional text among record fields. -/
def optionText : Option String → String
  | none => "None"
  | some s => "Some(" ++ Text.Quoted.quote s ++ ")"

def record (t : Target) : String :=
  "ExecTarget \x7b cluster: " ++ optionText t.cluster
    ++ ", namespace: " ++ Text.Quoted.quote t.namespaceName
    ++ ", pod: " ++ Text.Quoted.quote t.pod
    ++ ", container: " ++ Text.Quoted.quote t.container ++ " \x7d"

end Target
end PodConsole.Exec
