import PodConsole.Kubectl.Warmup

namespace PodConsole.Kubectl

open Text (Bytes)

inductive Sign where
  | output (bytes : Bytes)
  /-- There has been no output for a while. -/
  | quiet
  deriving DecidableEq, Repr

def Warmup.note (w : Warmup) : Sign → Bool × Warmup
  | .output bytes => w.pushOutput bytes
  | .quiet => w.settle

structure Watch where
  warmup : Warmup := {}
  /-- Of each sign, whether it made the session live. -/
  answers : List Bool := []

namespace Watch

def step (x : Watch) (s : Sign) : Watch where
  warmup := (x.warmup.note s).2
  answers := x.answers ++ [(x.warmup.note s).1]

def run (x : Watch) (signs : List Sign) : Watch :=
  signs.foldl step x

end Watch
end PodConsole.Kubectl
