import PodConsole.Json.Value
import PodConsole.Text.Hex

namespace PodConsole.Json

open Decimal

def isSpace (c : Char) : Bool :=
  c = ' ' || c = '\n' || c = '\t' || c = '\r'

def skipSpace (cs : List Char) : List Char :=
  cs.dropWhile isSpace

def hexUnit? (a b c d : Char) : Option Nat := do
  let a ← Text.Hex.digit? a
  let b ← Text.Hex.digit? b
  let c ← Text.Hex.digit? c
  let d ← Text.Hex.digit? d
  return ((a * 16 + b) * 16 + c) * 16 + d

def isHigh (unit : Nat) : Bool := 0xD800 ≤ unit && unit < 0xDC00

def isLow (unit : Nat) : Bool := 0xDC00 ≤ unit && unit < 0xE000

def pair (high low : Nat) : Char :=
  Char.ofNat (0x10000 + (high - 0xD800) * 0x400 + (low - 0xDC00))

def escape? : Char → Option Char
  | '"' => some '"'
  | '\\' => some '\\'
  | '/' => some '/'
  | 'b' => some '\x08'
  | 'f' => some '\x0c'
  | 'n' => some '\n'
  | 'r' => some '\r'
  | 't' => some '\t'
  | _ => none

/-- The text after an opening quote; `back` is what was read of it, last character first. -/
def readString (back : List Char) (sound : Bool) : List Char → Option (Option String × List Char)
  | [] => none
  | '"' :: r => some (if sound then some (String.ofList back.reverse) else none, r)
  | '\\' :: 'u' :: a :: b :: c :: d :: r =>
    match hexUnit? a b c d with
    | none => none
    | some unit =>
      if isLow unit then readString back false r
      else if isHigh unit then
        match r with
        | '\\' :: 'u' :: e :: f :: g :: h :: r' =>
          match hexUnit? e f g h with
          | none => none
          | some low =>
            if isLow low then readString (pair unit low :: back) sound r'
            else readString back false ('\\' :: 'u' :: e :: f :: g :: h :: r')
        | r => readString back false r
      else readString (Char.ofNat unit :: back) sound r
  | '\\' :: e :: r =>
    match escape? e with
    | some c => readString (c :: back) sound r
    | none => none
  | c :: r => if c < ' ' then none else readString (c :: back) sound r
termination_by cs => cs.length

def readFraction? : List Char → Option (List Char × List Char)
  | '.' :: r =>
    let ds := r.takeWhile isDigit
    if ds.isEmpty then none else some (ds, r.dropWhile isDigit)
  | r => some ([], r)

def exponentSign : List Char → Bool × List Char
  | '-' :: r => (true, r)
  | '+' :: r => (false, r)
  | r => (false, r)

def readExponent? : List Char → Option (Option (Bool × List Char) × List Char)
  | c :: r =>
    if c = 'e' || c = 'E' then
      let (down, r) := exponentSign r
      let ds := r.takeWhile isDigit
      if ds.isEmpty then none else some (some (down, ds), r.dropWhile isDigit)
    else some (none, c :: r)
  | [] => some (none, [])

/-- A number of several digits does not begin with zero. -/
def readWhole? (cs : List Char) : Option (List Char × List Char) :=
  let ds := cs.takeWhile isDigit
  match ds with
  | [] => none
  | ['0'] => some (ds, cs.dropWhile isDigit)
  | '0' :: _ => none
  | _ => some (ds, cs.dropWhile isDigit)

def readNumeral? (negative : Bool) (cs : List Char) : Option (Numeral × List Char) := do
  let (whole, cs) ← readWhole? cs
  let (fraction, cs) ← readFraction? cs
  let (exponent, cs) ← readExponent? cs
  return (⟨negative, whole, fraction, exponent⟩, cs)

def readNumber (negative : Bool) (cs : List Char) : Value × List Char :=
  match readNumeral? negative cs with
  | some (n, r) => (.number n, r)
  | none => (.broken, [])

mutual

/-- Each container spends fuel, so the length of the text is enough. -/
def readValue (fuel : Nat) (cs : List Char) : Value × List Char :=
  match skipSpace cs with
  | 'n' :: 'u' :: 'l' :: 'l' :: r => (.null, r)
  | 't' :: 'r' :: 'u' :: 'e' :: r => (.bool true, r)
  | 'f' :: 'a' :: 'l' :: 's' :: 'e' :: r => (.bool false, r)
  | '"' :: r =>
    match readString [] true r with
    | some (text, r) => (.string text, r)
    | none => (.broken, [])
  | '-' :: r => readNumber true r
  | '[' :: r =>
    match fuel with
    | 0 => (.broken, [])
    | fuel + 1 =>
      match skipSpace r with
      | ']' :: r => (.array .closed, r)
      | r =>
        let (items, r) := readItems fuel r
        (.array items, r)
  | '{' :: r =>
    match fuel with
    | 0 => (.broken, [])
    | fuel + 1 =>
      match skipSpace r with
      | '}' :: r => (.object .closed, r)
      | r =>
        let (members, r) := readMembers fuel r
        (.object members, r)
  | r => readNumber false r

def readItems (fuel : Nat) (cs : List Char) : Items × List Char :=
  match fuel with
  | 0 => (.broken, [])
  | fuel + 1 =>
    let (item, r) := readValue fuel cs
    match skipSpace r with
    | ']' :: r => (.cons item .closed, r)
    | ',' :: r =>
      let (rest, r) := readItems fuel r
      (.cons item rest, r)
    | _ => (.cons item .broken, [])

def readMembers (fuel : Nat) (cs : List Char) : Members × List Char :=
  match fuel with
  | 0 => (.broken .broken, [])
  | fuel + 1 =>
    match skipSpace cs with
    | '"' :: r =>
      match readString [] true r with
      | some (name, r) =>
        match skipSpace r with
        | ':' :: r =>
          let (value, r) := readValue fuel r
          match skipSpace r with
          | '}' :: r => (.cons name value .closed, r)
          | ',' :: r =>
            let (rest, r) := readMembers fuel r
            (.cons name value rest, r)
          | _ => (.cons name value (.broken .broken), [])
        | _ => (.cons name .broken (.broken .broken), [])
      | none => (.broken .broken, [])
    | r => (.broken (readValue fuel r).1, [])

end

/-- A container and its first entry spend two units for two characters. -/
def read (text : String) : Document :=
  let cs := text.toList
  let (value, r) := readValue (cs.length + 1) cs
  ⟨value, !(skipSpace r).isEmpty⟩

end PodConsole.Json
