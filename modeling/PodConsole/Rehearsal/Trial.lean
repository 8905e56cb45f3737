import PodConsole.Exec.Attach
import PodConsole.Rehearsal.Container

namespace PodConsole.Rehearsal

open Exec (Failure Shell Target)
open Session (Terminal)

structure Trial where
  container : Container
  target : Target
  terminal : Terminal
  seen : List Seen := []
  /-- Milliseconds. -/
  clock : Nat := 0
  /-- Some process waited for too long. -/
  stuck : Bool := false

namespace Trial

/-- How long a trial may take. -/
def patience : Nat := 5000

def giveUp (t : Trial) : Except Failure Unit × Trial :=
  (.error .disconnected, { t with stuck := true })

/-- Nothing new comes while a process waits, except the end of its sleep. -/
def play : Nat → Process → Trial → Except Failure Unit × Trial
  | 0, _, t => t.giveUp
  | fuel + 1, p, t =>
    match p with
    | .exited result => (result, t)
    | .sleeping till next =>
      if till ≤ patience then play fuel next { t with clock := max t.clock till } else t.giveUp
    | p =>
      match p.turn? t.clock t.terminal.size t.terminal.perform with
      | none => t.giveUp
      | some (answer, p, terminal) =>
        play fuel p { t with terminal, seen := t.seen ++ Seen.ofAnswer answer }

/-- More steps than the input can give rise to. -/
def bound (t : Trial) : Nat :=
  8 * (t.terminal.connection.stdin.items.length + t.terminal.sizes.items.length) + 16

def exec (shell : Shell) (t : Trial) : Except Failure Unit × Trial :=
  let t := { t with seen := t.seen ++ [.exec shell.command t.target] }
  play t.bound (t.container.start shell) t

/-- There is no result if some process waited for too long. -/
def run (t : Trial) (hint : Option String) : Option (Except Failure Shell) × Trial :=
  let (result, t) := Exec.attach exec hint t
  (if t.stuck then none else some result, t)

end Trial
end PodConsole.Rehearsal
