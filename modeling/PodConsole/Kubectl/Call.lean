import PodConsole.Decimal.Digits
import PodConsole.Kubectl.Arguments

namespace PodConsole.Kubectl

/-- The options whose value is the next argument. -/
inductive Setting where
  | kubeconfig
  | context
  | namespaceName
  | container
  deriving DecidableEq, Repr

namespace Setting

def all : List Setting := [.kubeconfig, .context, .namespaceName, .container]

def flag : Setting → String
  | .kubeconfig => "--kubeconfig"
  | .context => "--context"
  | .namespaceName => "-n"
  | .container => "-c"

def ofFlag? (argument : String) : Option Setting :=
  all.find? fun s => s.flag = argument

end Setting

/-- What a list of arguments says. -/
structure Call where
  settings : List (Setting × String) := []
  /-- All other options. -/
  options : List String := []
  positionals : List String := []
  /-- What follows the end of the options. -/
  command : Option (List String) := none
  deriving DecidableEq, Repr

namespace Call

def endOfOptions : String := "--"

/-- A dash alone is none. -/
def isOption (argument : String) : Bool :=
  match argument.toList with
  | '-' :: _ :: _ => true
  | _ => false

def withSetting (s : Setting) (value : String) (c : Call) : Call :=
  { c with settings := (s, value) :: c.settings }

def withArgument (argument : String) (c : Call) : Call :=
  if isOption argument then { c with options := argument :: c.options }
  else { c with positionals := argument :: c.positionals }

/-- There is nothing to read where the last argument lacks its value. -/
def read? : List String → Option Call
  | [] => some {}
  | argument :: rest =>
    if argument = endOfOptions then some { command := some rest }
    else match Setting.ofFlag? argument with
      | none => (read? rest).map (withArgument argument)
      | some s =>
        match rest with
        | [] => none
        | value :: rest => (read? rest).map (withSetting s value)

end Call

namespace LogOptions

def tailFlag : List Char := ['-', '-', 't', 'a', 'i', 'l', '=']

/-- Takes up one option of a call for a log. -/
def takeUp? (o : LogOptions) (option : String) : Option LogOptions :=
  if option = "--follow" then some { o with follow := true }
  else if option = "--previous" then some { o with previous := true }
  else
    let digits := option.toList.drop tailFlag.length
    if tailFlag.isPrefixOf option.toList && digits.all Decimal.isDigit && !digits.isEmpty then
      some { o with tailLines := some (Decimal.ofDigits digits) }
    else none

def ofOptions? (options : List String) : Option LogOptions :=
  options.foldlM takeUp? {}

end LogOptions
end PodConsole.Kubectl
