import PodConsole.Decimal.Digits
import PodConsole.Text.Hex
import PodConsole.Toml.Node

namespace PodConsole.Toml

open Decimal

/-- A reader takes what it can from the front and gives the rest. -/
abbrev Reader (α : Type) := List Char → Option (α × List Char)

/-- Digits that may stand apart by single underscores, the underscores left out. -/
def readGroups (isDigit : Char → Bool) : Reader (List Char)
  | [] => none
  | d :: r =>
    if !isDigit d then none
    else
      match r with
      | '_' :: r' => (readGroups isDigit r').map fun (ds, rest) => (d :: ds, rest)
      | r' =>
        match readGroups isDigit r' with
        | some (ds, rest) => some (d :: ds, rest)
        | none => if startsGroup r' then none else some ([d], r')
where
  /-- A digit ahead that no group can be read from is a fault. -/
  startsGroup : List Char → Bool
    | c :: _ => isDigit c
    | [] => false

def readSign : List Char → Bool × List Char
  | '-' :: r => (true, r)
  | '+' :: r => (false, r)
  | r => (false, r)

/-- A sole zero, or digits that do not begin with one. -/
def readDecimal : Reader (List Char)
  | '0' :: r => some (['0'], r)
  | r => readGroups isDigit r

def ofBase (base : Nat) (ds : List Char) : Nat :=
  ds.foldl (fun n d => n * base + (Text.Hex.digit? d).getD 0) 0

def isBaseDigit (base : Nat) (c : Char) : Bool :=
  match Text.Hex.digit? c with
  | some n => n < base
  | none => false

/-- An integer fits 64 signed bits. -/
def signed? (negative : Bool) (n : Nat) : Option Int :=
  if negative then if n ≤ maxSigned + 1 then some (-(n : Int)) else none
  else if n ≤ maxSigned then some n else none

def readBased (base : Nat) (cs : List Char) : Option (Scalar × List Char) := do
  let (ds, r) ← readGroups (isBaseDigit base) cs
  let n ← signed? false (ofBase base ds)
  return (.integer n, r)

def readInteger : Reader Scalar
  | '0' :: 'x' :: r => readBased 16 r
  | '0' :: 'o' :: r => readBased 8 r
  | '0' :: 'b' :: r => readBased 2 r
  | cs => do
    let (negative, r) := readSign cs
    let (ds, r) ← readDecimal r
    let n ← signed? negative (ofDigits ds)
    return (.integer n, r)

/-- The double nearest to `whole.fraction × 10 ^ exponent`. -/
def nearest (whole fraction : List Char) (exponent : Int) : Float :=
  let shift := exponent - Int.ofNat fraction.length
  Float.ofScientific (ofDigits (whole ++ fraction)) (shift < 0) shift.natAbs

def readExponent (cs : List Char) : Option (Int × List Char) :=
  match cs with
  | c :: r =>
    if c = 'e' || c = 'E' then do
      let (down, r) := readSign r
      let (ds, r) ← readGroups isDigit r
      let n := Int.ofNat (ofDigits ds)
      return (if down then -n else n, r)
    else none
  | [] => none

/-- A double beyond the greatest is a fault, unless it is negative. -/
def finishFloat (negative : Bool) (f : Float) (r : List Char) : Option (Scalar × List Char) :=
  if negative then some (.float (-f), r) else if f.isInf then none else some (.float f, r)

def readPlainFloat (cs : List Char) : Option (Scalar × List Char) := do
  let (negative, r) := readSign cs
  let (whole, r) ← readDecimal r
  match r with
  | '.' :: r =>
    let (fraction, r) ← readGroups isDigit r
    match readExponent r with
    | some (e, r) => finishFloat negative (nearest whole fraction e) r
    | none => finishFloat negative (nearest whole fraction 0) r
  | r =>
    let (e, r) ← readExponent r
    finishFloat negative (nearest whole [] e) r

def readSpecialFloat (cs : List Char) : Option (Scalar × List Char) :=
  let (negative, r) := readSign cs
  match r with
  | 'i' :: 'n' :: 'f' :: r =>
    some (.float (if negative then -(1.0 / 0.0) else 1.0 / 0.0), r)
  | 'n' :: 'a' :: 'n' :: r => some (.float (0.0 / 0.0), r)
  | _ => none

def readFloat (cs : List Char) : Option (Scalar × List Char) :=
  (readPlainFloat cs).or (readSpecialFloat cs)

def readTwo (low high : Nat) : Reader Nat
  | a :: b :: r =>
    if isDigit a && isDigit b then
      let n := digitValue a * 10 + digitValue b
      if low ≤ n && n ≤ high then some (n, r) else none
    else none
  | _ => none

def expect (c : Char) : Reader Unit
  | d :: r => if d = c then some ((), r) else none
  | [] => none

def daysIn (year month : Nat) : Nat :=
  if month = 2 then
    if year % 4 = 0 && (year % 100 ≠ 0 || year % 400 = 0) then 29 else 28
  else if [4, 6, 9, 11].contains month then 30 else 31

def readDate (cs : List Char) : Option (Unit × List Char) := do
  let (century, r) ← readTwo 0 99 cs
  let (years, r) ← readTwo 0 99 r
  let ((), r) ← expect '-' r
  let (month, r) ← readTwo 1 12 r
  let ((), r) ← expect '-' r
  let (day, r) ← readTwo 1 31 r
  if day ≤ daysIn (century * 100 + years) month then some ((), r) else none

def skipFraction : List Char → List Char
  | '.' :: r => if (r.takeWhile isDigit).isEmpty then '.' :: r else r.dropWhile isDigit
  | r => r

def readTime (cs : List Char) : Option (Unit × List Char) := do
  let (_, r) ← readTwo 0 23 cs
  let ((), r) ← expect ':' r
  let (_, r) ← readTwo 0 59 r
  let ((), r) ← expect ':' r
  let (_, r) ← readTwo 0 60 r
  return ((), skipFraction r)

def skipOffset (cs : List Char) : List Char :=
  match cs with
  | c :: r =>
    if c = 'Z' || c = 'z' then r
    else if c = '+' || c = '-' then
      let offset := do
        let (_, r) ← readTwo 0 23 r
        let ((), r) ← expect ':' r
        let (_, r) ← readTwo 0 59 r
        return r
      offset.getD cs
    else cs
  | [] => []

/-- A date, a time, or both with a letter or a blank between them. -/
def readMoment (cs : List Char) : Option (Scalar × List Char) :=
  match readDate cs with
  | some ((), r) =>
    match r with
    | c :: t =>
      if c = 'T' || c = 't' || c = ' ' then
        match readTime t with
        | some ((), t) => some (.moment, skipOffset t)
        | none => some (.moment, r)
      else some (.moment, r)
    | [] => some (.moment, [])
  | none => (readTime cs).map fun ((), r) => (.moment, r)

def readFlag : Reader Scalar
  | 't' :: 'r' :: 'u' :: 'e' :: r => some (.flag true, r)
  | 'f' :: 'a' :: 'l' :: 's' :: 'e' :: r => some (.flag false, r)
  | _ => none

/-- Of the forms that fit, the one tried first. -/
def readScalar (cs : List Char) : Option (Scalar × List Char) :=
  (readFlag cs).or <| (readMoment cs).or <| (readFloat cs).or (readInteger cs)

end PodConsole.Toml
