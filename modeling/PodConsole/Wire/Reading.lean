import PodConsole.Decimal.Shortest
import PodConsole.Json.Reader
import PodConsole.Text.Misfit
import PodConsole.Text.Quoted
import PodConsole.Wire.Envelope

namespace PodConsole.Wire

open Json Text

inductive Fault where
  /-- Not JSON, or JSON of a shape that no envelope has. -/
  | malformed
  | missing (field : String)
  | duplicate (field : String)
  | unknownOp (name : String)
  | misfit (m : Misfit)
  deriving DecidableEq, Repr

def Fault.message? : Fault → Option String
  | .malformed => none
  | .missing field => some ("missing field " ++ ticked field)
  | .duplicate field => some ("duplicate field " ++ ticked field)
  | .unknownOp name =>
    some ("unknown variant " ++ ticked name ++ ", expected one of "
      ++ ", ".intercalate (Op.all.map fun op => ticked op.name))
  | .misfit m => some m.message

def integerText (negative : Bool) (n : Nat) : String :=
  "integer " ++ ticked ((if negative then "-" else "") ++ toString n)

/-- How a value is named where it does not suit. -/
def found? : Value → Option String
  | .null => some "null"
  | .bool b => some ("boolean " ++ ticked (toString b))
  | .number n =>
    match n.quantity with
    | .unsigned k => some (integerText false k)
    | .negative k => some (integerText true k)
    | .float f =>
      some ("floating point " ++ ticked (Decimal.Notation.compact.write (.ofFloat f)))
    | .tooLarge => none
  | .string text => text.map fun s => "string " ++ Quoted.quote s
  | .array _ => some "sequence"
  | .object _ => some "map"
  | .broken => none

def refuse {α : Type} (v : Value) (wanted : String) : Except Fault α :=
  match found? v with
  | some found => .error (.misfit (.kind found wanted))
  | none => .error .malformed

def readText : Value → Except Fault (Option String)
  | .null => .ok none
  | .string (some s) => .ok (some s)
  | v => refuse v "a string"

def readDimension : Value → Except Fault (Option Nat)
  | .null => .ok none
  | .number n =>
    match n.quantity with
    | .unsigned k =>
      if k ≤ maxDimension then .ok (some k)
      else .error (.misfit (.value (integerText false k) "u16"))
    | .negative k => .error (.misfit (.value (integerText true k) "u16"))
    | _ => refuse (.number n) "u16"
  | v => refuse v "u16"

def namedOp (name : String) : Except Fault Op :=
  match Op.ofName? name with
  | some op => .ok op
  | none => .error (.unknownOp name)

/-- An operation is its name, or an object with that name alone bound to null. -/
def readOp : Value → Except Fault Op
  | .string (some name) => namedOp name
  | .object (.cons (some name) value rest) => do
    let op ← namedOp name
    match value, rest with
    | .null, .closed => .ok op
    | .null, _ => .error .malformed
    | v, _ => refuse v "unit"
  | .object (.broken found) => refuse found "variant identifier"
  | _ => .error .malformed

/-- The fields read so far. A null field is read, and holds nothing. -/
structure Draft where
  op : Option Op := none
  data : Option (Option String) := none
  sessionId : Option (Option String) := none
  rows : Option (Option Nat) := none
  cols : Option (Option Nat) := none

namespace Draft

def finish (d : Draft) : Except Fault Envelope :=
  match d.op with
  | none => .error (.missing "op")
  | some op => .ok ⟨op, d.data.join, d.sessionId.join, d.rows.join, d.cols.join⟩

/-- An unknown member only has to be JSON. -/
def member (d : Draft) (name : String) (value : Value) : Except Fault Draft :=
  match name with
  | "op" =>
    if d.op.isSome then .error (.duplicate name)
    else (readOp value).map fun op => { d with op := some op }
  | "data" =>
    if d.data.isSome then .error (.duplicate name)
    else (readText value).map fun s => { d with data := some s }
  | "sessionId" =>
    if d.sessionId.isSome then .error (.duplicate name)
    else (readText value).map fun s => { d with sessionId := some s }
  | "rows" =>
    if d.rows.isSome then .error (.duplicate name)
    else (readDimension value).map fun n => { d with rows := some n }
  | "cols" =>
    if d.cols.isSome then .error (.duplicate name)
    else (readDimension value).map fun n => { d with cols := some n }
  | _ => if value.isWhole then .ok d else .error .malformed

/-- The first fault in the order of the text is the one reported. -/
def members (d : Draft) : Members → Except Fault Draft
  | .closed => .ok d
  | .broken _ => .error .malformed
  | .cons none _ _ => .error .malformed
  | .cons (some name) value rest => do
    let d ← d.member name value
    d.members rest

end Draft

/-- The next item of an array, if the array goes on. -/
def nextItem : Items → Except Fault (Option (Value × Items))
  | .closed => .ok none
  | .broken => .error .malformed
  | .cons item rest => .ok (some (item, rest))

def optionalItem {α : Type} (read : Value → Except Fault (Option α)) (items : Items) :
    Except Fault (Option α × Items) := do
  match ← nextItem items with
  | none => .ok (none, items)
  | some (item, rest) => (read item).map fun a => (a, rest)

/-- The fields in their order; those at the end may be left out. -/
def ofItems (items : Items) : Except Fault Envelope := do
  match ← nextItem items with
  | none => .error .malformed
  | some (item, items) =>
    let op ← readOp item
    let (data, items) ← optionalItem readText items
    let (sessionId, items) ← optionalItem readText items
    let (rows, items) ← optionalItem readDimension items
    let (cols, items) ← optionalItem readDimension items
    match items with
    | .closed => .ok ⟨op, data, sessionId, rows, cols⟩
    | _ => .error .malformed

namespace Envelope

def ofValue : Value → Except Fault Envelope
  | .object members => do
    let d ← Draft.members {} members
    d.finish
  | .array items => ofItems items
  | v => refuse v "struct TerminalMessage"

def read (text : String) : Except Fault Envelope := do
  let document := Json.read text
  let e ← ofValue document.value
  if document.trailing then .error .malformed else .ok e

end Envelope
end PodConsole.Wire
