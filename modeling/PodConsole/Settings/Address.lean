import PodConsole.Decimal.Digits
import PodConsole.Text.Hex

namespace PodConsole.Settings

open Decimal

inductive Address where
  | v4 (octets : List Nat) (port : Nat)
  | v6 (groups : List Nat) (scope : Nat) (port : Nat)
  deriving DecidableEq, Repr

namespace Address

/-- A number of decimal digits, of any length. -/
def readNumber (greatest : Nat) (cs : List Char) : Option (Nat × List Char) :=
  let ds := cs.takeWhile isDigit
  let n := ofDigits ds
  if ds.isEmpty || greatest < n then none else some (n, cs.dropWhile isDigit)

def readChar (c : Char) : List Char → Option (List Char)
  | d :: r => if d = c then some r else none
  | [] => none

/-- At most three digits, and no leading zero. -/
def readOctet (cs : List Char) : Option (Nat × List Char) :=
  let ds := cs.takeWhile isDigit
  if 3 < ds.length || (1 < ds.length && ds.head? = some '0') then none else readNumber 255 cs

def readOctets (cs : List Char) : Option (List Nat × List Char) := do
  let (a, r) ← readOctet cs
  let r ← readChar '.' r
  let (b, r) ← readOctet r
  let r ← readChar '.' r
  let (c, r) ← readOctet r
  let r ← readChar '.' r
  let (d, r) ← readOctet r
  return ([a, b, c, d], r)

/-- One to four hexadecimal digits. -/
def readGroup (cs : List Char) : Option (Nat × List Char) :=
  let isHex (c : Char) := (Text.Hex.digit? c).isSome
  let ds := cs.takeWhile isHex
  if ds.isEmpty || 4 < ds.length then none
  else some (ds.foldl (fun n d => n * 16 + (Text.Hex.digit? d).getD 0) 0, cs.dropWhile isHex)

/-- The colon before every group but the first. -/
def readColon (first : Bool) (cs : List Char) : Option (List Char) :=
  if first then some cs else readChar ':' cs

/-- Up to `room` groups; four octets with dots may stand for the last two, and the flag tells so. -/
def readGroups (first : Bool) : Nat → List Char → List Nat × Bool × List Char
  | 0, cs => ([], false, cs)
  | room + 1, cs =>
    let dotted := do
      if room = 0 then none
      let (os, r) ← (readColon first cs).bind readOctets
      return (os, r)
    match dotted with
    | some (os, r) =>
      let pair (i : Nat) := os.getD i 0 * 256 + os.getD (i + 1) 0
      ([pair 0, pair 2], true, r)
    | none =>
      match (readColon first cs).bind readGroup with
      | some (g, r) =>
        let (gs, ended, r) := readGroups false room r
        (g :: gs, ended, r)
      | none => ([], false, cs)

/-- Eight groups, or fewer around one double colon that stands for at least one zero. -/
def readV6 (cs : List Char) : Option (List Nat × List Char) :=
  let (front, dotted, r) := readGroups true 8 cs
  if front.length = 8 then some (front, r)
  else if dotted then none
  else do
    let r ← readChar ':' r
    let r ← readChar ':' r
    let (back, _, r) := readGroups true (7 - front.length) r
    return (front ++ List.replicate (8 - front.length - back.length) 0 ++ back, r)

def readScope (cs : List Char) : Option (Nat × List Char) :=
  match cs with
  | '%' :: r => readNumber (0xFFFFFFFF) r
  | r => some (0, r)

def readPort (cs : List Char) : Option (Nat × List Char) := do
  let r ← readChar ':' cs
  readNumber (0xFFFF) r

def parse? (text : String) : Option Address :=
  match text.toList with
  | '[' :: r => do
    let (groups, r) ← readV6 r
    let (scope, r) ← readScope r
    let r ← readChar ']' r
    let (port, r) ← readPort r
    if r.isEmpty then some (.v6 groups scope port) else none
  | cs => do
    let (octets, r) ← readOctets cs
    let (port, r) ← readPort r
    if r.isEmpty then some (.v4 octets port) else none

def hex (n : Nat) : String :=
  String.ofList (Nat.toDigits 16 n)

/-- The zeros at the front. -/
def leadingZeros (groups : List Nat) : Nat :=
  (groups.takeWhile (· = 0)).length

/-- Where the first of the longest runs of zeros begins, and its length. -/
def longestZeros : List Nat → Nat × Nat
  | [] => (0, 0)
  | g :: gs =>
    let here := leadingZeros (g :: gs)
    let (start, later) := longestZeros gs
    if later ≤ here then (0, here) else (start + 1, later)

/-- Two or more zeros are left out once; an address that embeds four octets shows them. -/
def showGroups (groups : List Nat) : String :=
  let joined (gs : List Nat) := ":".intercalate (gs.map hex)
  match groups with
  | [0, 0, 0, 0, 0, 0xFFFF, high, low] =>
    "::ffff:" ++ ".".intercalate
      ([high / 256, high % 256, low / 256, low % 256].map fun n => toString n)
  | _ =>
    let (start, zeros) := longestZeros groups
    if zeros < 2 then joined groups
    else joined (groups.take start) ++ "::" ++ joined (groups.drop (start + zeros))

def shown : Address → String
  | .v4 octets port => ".".intercalate (octets.map fun n => toString n) ++ ":" ++ toString port
  | .v6 groups scope port =>
    "[" ++ showGroups groups ++ (if scope = 0 then "" else "%" ++ toString scope) ++ "]:"
      ++ toString port

/-- An address that every machine has: all of its own, or the loop back to itself. -/
def isOwn : Address → Bool
  | .v4 octets _ => octets = [0, 0, 0, 0] || octets.head? = some 127
  | .v6 groups _ _ => groups.dropLast.all (· = 0) && groups.getLast?.any (· ≤ 1)

end Address
end PodConsole.Settings
