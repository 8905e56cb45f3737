import PodConsole.Exec.Failure
import PodConsole.Session.Terminal
import PodConsole.Text.Hex

namespace PodConsole.Rehearsal

open Exec (Failure Shell)
open Session (Act Answer Terminal)
open Text (Bytes)
open Wire (Size)

/-- How a shell behaves. -/
inductive Play where
  | fail (reason : String)
  /-- It writes a text and exits. -/
  | banner (text : String)
  /-- It does as it is told; sizes are noticed as they come, or only when asked for. -/
  | obey (sizes : Bool)
  deriving DecidableEq, Repr

structure Container where
  shells : List (String × Play) := []
  failure : Option String := none
  deriving DecidableEq, Repr

inductive Process where
  | listening (sizes : Bool)
  | measuring (sizes : Bool)
  | speaking (act : Act) (next : Process)
  /-- Until a time in milliseconds. -/
  | sleeping (till : Nat) (next : Process)
  | exited (result : Except Failure Unit)
  deriving Repr

def Container.play? (c : Container) (shell : Shell) : Option Play :=
  (c.shells.find? fun s => s.1 = shell.name).map (·.2)

def Play.start : Play → Process
  | .fail reason => .exited (.error (.establish reason))
  | .banner text => .speaking (.write (Text.Utf8.encode text)) (.exited (.ok ()))
  | .obey sizes => .listening sizes

def Container.start (c : Container) (shell : Shell) : Process :=
  match c.failure with
  | some reason => .exited (.error (.establish reason))
  | none =>
    match c.play? shell with
    | none => .exited (.error (.shellUnavailable shell.name))
    | some play => play.start

def shown (s : Size) : Bytes :=
  Text.Utf8.encode (toString s.rows ++ "x" ++ toString s.cols)

namespace Process

/-- What the process is ready to do, first things first. -/
def wants : Process → List Act
  | .listening true => [.nextSize, .read]
  | .listening false => [.read]
  | .measuring _ => [.nextSize]
  | .speaking act _ => [act]
  | .sleeping _ _ | .exited _ => []

/-- One item of input. A whole line is a command; anything else is said back. -/
def obey (now : Nat) (size : Size) (sizes : Bool) (input : Bytes) : Process :=
  let idle := Process.listening sizes
  let say (act : Act) := Process.speaking act idle
  let echo := say (.write input)
  match (Text.Utf8.lossyChars input).reverse with
  | '\n' :: r =>
    let line := r.reverse
    let name := line.takeWhile (· ≠ ' ')
    let rest := line.drop (name.length + 1)
    match String.ofList name with
    | "exit" => .exited (.ok ())
    | "fail" => .exited (.error (.stream (String.ofList rest)))
    | "gone" => .exited (.error (.shellUnavailable (String.ofList rest)))
    | "size" => say (.write (shown size))
    | "next" => .measuring sizes
    | "hex" => say (.write ((Text.Hex.decode? rest).getD []))
    | "flush" => say .flush
    | "toast" => say (.toast (String.ofList rest))
    | "sleep" => .sleeping (now + 1000 * (String.ofList rest).toNat?.getD 0) idle
    | _ => echo
  | _ => echo

/-- The answer to one of its wants. -/
def hear (now : Nat) (size : Size) (p : Process) (answer : Answer) : Process :=
  match answer, p with
  | .ended, _ | .refused, _ => .exited (.error .disconnected)
  | .full frame, .speaking _ next => .speaking (.send frame) next
  | .done, .speaking _ next => next
  | .size s, .measuring sizes => .speaking (.write (shown s)) (.listening sizes)
  | .keys input, .listening sizes => obey now size sizes input
  | _, p => p

/-- A process whose sleep is over. -/
def awake (now : Nat) : Process → Process
  | .sleeping till next => if till ≤ now then next else .sleeping till next
  | p => p

/-- The first of its wants that is met, and what comes of it; `none` while it waits. -/
def turn? {σ : Type} (now : Nat) (size : Size) (perform : Act → Answer × σ) (p : Process) :
    Option (Answer × Process × σ) :=
  let p := p.awake now
  p.wants.findSome? fun act =>
    match perform act with
    | (.pending, _) => none
    | (.full frame, s) =>
      if act = .send frame then none else some (.full frame, p.hear now size (.full frame), s)
    | (answer, s) => some (answer, p.hear now size answer, s)

end Process

/-- What a container takes note of. -/
inductive Seen where
  | exec (command : List String) (target : Exec.Target)
  | size (s : Size)
  deriving DecidableEq, Repr

def Seen.ofAnswer : Answer → List Seen
  | .size s => [.size s]
  | _ => []

end PodConsole.Rehearsal
