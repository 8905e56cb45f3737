import PodConsole.Text.Utf8
import PodConsole.Wire.Envelope

namespace PodConsole.Rehearsal

open Text (Bytes)
open Wire (Size)

inductive Line where
  | out (bytes : Bytes)
  /-- Diagnostics, which a terminal shows like output. -/
  | err (bytes : Bytes)
  | sleep (time : Nat)
  /-- Reads a line and repeats it. -/
  | read
  | size
  | arguments
  /-- Output by something that the program leaves running. -/
  | later (delay : Nat) (bytes : Bytes)
  | exit (code : Nat)
  deriving DecidableEq, Repr

structure Script where
  lines : List Line
  arguments : List String
  /-- Input that was not read yet. -/
  typed : Bytes := []
  /-- No more input will come. -/
  unattended : Bool := false
  wake : Nat := 0
  /-- What is still to come from what was left running, with its time. -/
  laters : List (Nat × Bytes) := []
  code : Option Nat := none
  deriving DecidableEq, Repr

namespace Script

/-- The next line of the input and the rest, once the line is complete. -/
def typedLine? (s : Script) : Option (Bytes × Bytes) :=
  let line := s.typed.takeWhile (· ≠ 10)
  if line.length < s.typed.length || s.unattended then
    some (line, s.typed.drop (line.length + 1))
  else none

/-- What a step yields: on a terminal, diagnostics too. -/
structure Yield where
  out : Bytes := []
  err : Bytes := []

/-- The next step of the program; `none` while it waits, and after its exit. -/
def step? (s : Script) (now : Nat) (screen : Size) : Option (Yield × Script) :=
  if s.code.isSome || now < s.wake then none
  else match s.lines with
    | [] => some ({}, { s with code := some 0 })
    | line :: lines =>
      let rest := { s with lines }
      match line with
      | .out bytes => some ({ out := bytes }, rest)
      | .err bytes => some ({ err := bytes }, rest)
      | .sleep time => some ({}, { rest with wake := now + time })
      | .read => s.typedLine?.map fun (line, typed) =>
        ({ out := Text.Utf8.encode "got " ++ line ++ [10] }, { rest with typed })
      | .size => some ({ out := Text.Utf8.encode ("size " ++ toString screen.rows ++ " "
          ++ toString screen.cols ++ "\n") }, rest)
      | .arguments => some ({ out := Text.Utf8.encode ("".intercalate
          (s.arguments.map fun a => a ++ "\n")) }, rest)
      | .later delay bytes => some ({}, { rest with laters := s.laters ++ [(now + delay, bytes)] })
      | .exit code => some ({}, { rest with code := some code })

/-- Output that is due from what was left running. -/
def due? (s : Script) (now : Nat) : Option (Bytes × Script) := do
  let (time, bytes) ← s.laters.find? fun l => l.1 ≤ now
  return (bytes, { s with laters := s.laters.erase (time, bytes) })

/-- Nobody can write any more. -/
def silent (s : Script) : Bool :=
  s.code.isSome && s.laters.isEmpty

/-- When the script goes on by itself, if it waits for a time. -/
def alarms (s : Script) (now : Nat) : List Nat :=
  (if s.code.isNone && now < s.wake then [s.wake] else []) ++ s.laters.map (·.1)

def printedIn (now : Nat) : Nat → Script → Bytes
  | 0, _ => []
  | fuel + 1, s =>
    match s.due? now with
    | some (bytes, s) => bytes ++ printedIn now fuel s
    | none =>
      match s.step? now {} with
      | some (y, s) => y.out ++ printedIn now fuel s
      | none =>
        match (s.alarms now).min? with
        | some time => printedIn (max now time) fuel s
        | none => []

/-- All that the program prints, without a terminal and without input. -/
def printed (s : Script) : Bytes :=
  printedIn 0 (4 * s.lines.length + 4) { s with unattended := true }

end Script
end PodConsole.Rehearsal
