namespace PodConsole.Exec

inductive Shell where
  | bash
  | sh
  | powershell
  | cmd
  deriving DecidableEq, Repr

namespace Shell

/-- In the order in which they are tried. -/
def all : List Shell := [.bash, .sh, .powershell, .cmd]

def name : Shell → String
  | .bash => "bash"
  | .sh => "sh"
  | .powershell => "powershell"
  | .cmd => "cmd"

def ofName? (name : String) : Option Shell :=
  all.find? fun shell => shell.name = name

/-- Shells as they are named in a message. -/
def names (shells : List Shell) : String :=
  ", ".intercalate (shells.map name)

def command (s : Shell) : List String := [s.name]

/-- An allowed hint stands alone. -/
def candidates (hint : Option String) : List Shell :=
  match hint.bind ofName? with
  | some shell => [shell]
  | none => all

end Shell
end PodConsole.Exec
