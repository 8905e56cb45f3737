import PodConsole.Exec.Attach
import PodConsole.Kubectl.Arguments
import PodConsole.Kubectl.Attempt
import PodConsole.Rehearsal.Script
import PodConsole.Text.Blank

namespace PodConsole.Rehearsal

open Exec (Failure Shell Target)
open Kubectl (Attempt Client)
open Session (Terminal)
open Wire (Envelope)

structure Desk where
  client : Client
  target : Target
  /-- By the names of the shells; there is no other program. -/
  scripts : List (String × List Line)
  /-- There is no `kubectl` at all. -/
  bare : Bool := false
  terminal : Terminal
  /-- What to type once the output holds a text, one after the other. -/
  replies : List (String × String) := []
  /-- The text at which to leave. -/
  closeOn : Option String := none
  /-- All output so far. -/
  shown : String := ""
  toasts : Nat := 0
  attempts : List String := []
  clock : Nat := 0

namespace Desk

def holds (whole part : String) : Bool :=
  Text.holds part.toList whole.toList

def type (d : Desk) (text : String) : Desk :=
  { d with terminal := d.terminal.mapConnection fun c =>
      { c with stdin := (c.stdin.offer text).2 } }

/-- Types the replies whose time has come. -/
def reply (d : Desk) : List (String × String) → Desk
  | [] => { d with replies := [] }
  | (needle, text) :: rest =>
    if holds d.shown needle then (d.type text).reply rest
    else { d with replies := (needle, text) :: rest }

/-- Takes what was sent, and does what is to be done at it. -/
def look (d : Desk) : Desk :=
  let frames := d.terminal.connection.outbound.items
  let texts := frames.filterMap fun (e : Envelope) => if e.op = .stdout then e.data else none
  let shown := d.shown ++ "".intercalate texts
  let leaves := d.closeOn.any (holds shown)
  let d := { d with
    shown
    toasts := d.toasts + (frames.length - texts.length)
    terminal := d.terminal.mapConnection fun c => { c with
      outbound := { c.outbound with items := [] }
      cancelled := c.cancelled || leaves } }
  d.reply d.replies

/-- An attempt with its process, and the times at which its timers end. -/
structure Course where
  attempt : Attempt
  script : Script
  settleAt : Nat
  deadline : Nat
  drainAt : Nat := 0

namespace Course

/-- What the attempt hands over is typed into the process. -/
def feed (p : Course) (e : Attempt.Event) : Course :=
  let attempt := p.attempt.step e
  let fresh := attempt.handed.drop p.attempt.handed.length
  { p with attempt, script := { p.script with typed := p.script.typed ++ fresh.flatten } }

def isForwarding (p : Course) : Bool :=
  p.attempt.stage.isForwarding

/-- A quiet that has lasted, but has not made the output count, keeps all but output and exit
waiting. -/
def isStarved (p : Course) (now : Nat) : Bool :=
  p.attempt.settling && p.settleAt ≤ now

/-- What the client's terminal has for the process. -/
def input? (p : Course) (d : Desk) : Option (Course × Desk) :=
  if !p.isForwarding || p.isStarved d.clock then none
  else match d.terminal.read with
    | (.keys bytes, terminal) => some (p.feed (.keys bytes), { d with terminal })
    | (.ended, _) => some (p.feed .left, d)
    | _ =>
      match d.terminal.nextSize with
      | (.size s, terminal) => some (p.feed (.size s), { d with terminal })
      | (.ended, _) => some (p.feed .left, d)
      | _ => none

/-- Output puts off the end of the quiet. -/
def output (p : Course) (now : Nat) (bytes : Text.Bytes) : Course :=
  if bytes.isEmpty then p
  else { p.feed (.output bytes) with settleAt := now + Kubectl.settleDelay }

/-- What the process does by itself. -/
def run? (p : Course) (now : Nat) : Option Course :=
  match p.script.due? now with
  | some (bytes, script) => some ({ p with script }.output now bytes)
  | none => (p.script.step? now p.attempt.screen).map fun (y, script) =>
    { p with script }.output now (y.out ++ y.err)

/-- The end of the process or of its output. -/
def end? (p : Course) (now : Nat) : Option Course :=
  match p.attempt.stage with
  | .forwarding =>
    if p.script.silent && !p.attempt.outputEnded then some (p.feed .outputEnd)
    else p.script.code.map fun code =>
      { p.feed (.exit code) with drainAt := now + Kubectl.drainTime }
  | .draining =>
    if p.script.silent then some (p.feed .outputEnd)
    else if p.drainAt ≤ now then some (p.feed .drained)
    else none
  | _ => none

def timer? (p : Course) (now : Nat) : Option Course :=
  if !p.isForwarding then none
  else if p.isStarved now then
    let settled := p.feed .settle
    if settled.attempt.warmup.live then some settled else none
  else if !p.attempt.released && p.deadline ≤ now then some (p.feed .deadline)
  else none

/-- The times that something waits for. -/
def alarms (p : Course) (now : Nat) : List Nat :=
  p.script.alarms now
    ++ (if p.isForwarding && p.attempt.settling then [p.settleAt] else [])
    ++ (if p.isForwarding && !p.attempt.released then [p.deadline] else [])
    ++ (if p.isForwarding then [] else [p.drainAt])

end Course

def playIn : Nat → Course → Desk → Except Failure Unit × Desk
  | 0, _, d => (.error .disconnected, d)
  | fuel + 1, p, d =>
    match p.attempt.stage with
    | .over result => (result, d)
    | _ =>
      match p.attempt.act? with
      | some act =>
        let (answer, terminal) := d.terminal.perform act
        playIn fuel (p.feed (if answer = .refused then .refused else .taken))
          { d with terminal }.look
      | none =>
        match p.input? d with
        | some (p, d) => playIn fuel p d
        | none =>
          match (p.run? d.clock).or ((p.end? d.clock).or (p.timer? d.clock)) with
          | some p => playIn fuel p d
          | none =>
            match ((p.alarms d.clock).filter fun t => d.clock < t).min? with
            | some time => playIn fuel p { d with clock := time }
            | none => (.error .disconnected, d)

/-- More steps than a script and the input can give rise to. -/
def bound (d : Desk) (lines : List Line) : Nat :=
  8 * (lines.length + d.terminal.connection.stdin.items.length + d.terminal.sizes.items.length
    + d.replies.length) + 32

def exec (shell : Shell) (d : Desk) : Except Failure Unit × Desk :=
  if d.bare then (.error (Kubectl.missing d.client.binary), d)
  else
    let arguments := d.client.execArguments d.target shell.command
    let lines := ((d.scripts.find? fun s => s.1 = shell.name).map (·.2)).getD [.exit 127]
    let course : Course := {
      attempt := .start shell.name d.terminal.size
      script := { lines, arguments }
      settleAt := d.clock + Kubectl.settleDelay
      deadline := d.clock + Kubectl.inputHold }
    playIn (d.bound lines) course { d with attempts := d.attempts ++ arguments.getLast?.toList }

def run (d : Desk) (hint : Option String) : Except Failure Shell × Desk :=
  Exec.attach exec hint d

end Desk
end PodConsole.Rehearsal
