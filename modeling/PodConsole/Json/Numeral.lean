import PodConsole.Decimal.Digits

namespace PodConsole.Json

open Decimal

structure Numeral where
  negative : Bool := false
  whole : List Char
  fraction : List Char := []
  exponent : Option (Bool × List Char) := none
  deriving DecidableEq, Repr

inductive Quantity where
  | unsigned (n : Nat)
  /-- The number `-n`. -/
  | negative (n : Nat)
  | float (f : Float)
  | tooLarge

namespace Numeral

/-- Digits that still fit one word after `start`, and the digits that are left. -/
def absorb (start : Nat) : List Char → Nat × List Char
  | [] => (start, [])
  | d :: r =>
    let n := start * 10 + digitValue d
    if n ≤ maxWord then absorb n r else (start, d :: r)

/-- One word of leading digits and the power of ten that goes with it. -/
def mantissa (n : Numeral) : Nat × Int :=
  let (high, dropped) := absorb 0 n.whole
  let (word, unread) := absorb high n.fraction
  (word, Int.ofNat dropped.length - Int.ofNat (n.fraction.length - unread.length))

def tenTo (k : Nat) : Float :=
  Float.ofScientific 1 false k

/-- Powers beyond this one are out of a double's reach. -/
def greatestPower : Nat := 308

/-- The division is repeated for powers below the least one; two rounds leave nothing of a word. -/
def scale : Nat → Float → Int → Option Float
  | 0, f, _ => some f
  | fuel + 1, f, power =>
    if power.natAbs ≤ greatestPower then
      if 0 ≤ power then
        let g := f * tenTo power.toNat
        if g.isInf then none else some g
      else some (f / tenTo power.natAbs)
    else if f == 0.0 then some f
    else if 0 ≤ power then none
    else scale fuel (f / tenTo greatestPower) (power + Int.ofNat greatestPower)

def maxExponent : Nat := 0x7FFFFFFF

def clampExponent (e : Int) : Int :=
  max (-0x80000000) (min e 0x7FFFFFFF)

def toFloat? (n : Numeral) : Option Float :=
  let (word, power) := n.mantissa
  let f := word.toUInt64.toFloat
  let size : Option Float :=
    match n.exponent with
    | none => scale 4 f power
    | some (down, ds) =>
      let e := ofDigits ds
      if e > maxExponent then if word ≠ 0 && !down then none else some 0.0
      else scale 4 f (clampExponent (if down then power - Int.ofNat e else power + Int.ofNat e))
  size.map fun g => if n.negative then -g else g

def isWhole (n : Numeral) : Bool :=
  n.fraction.isEmpty && n.exponent.isNone

/-- A whole number is an integer as far as 64 bits go; minus zero is not one. -/
def quantity (n : Numeral) : Quantity :=
  let size := ofDigits n.whole
  if n.isWhole && !n.negative && size ≤ maxWord then .unsigned size
  else if n.isWhole && n.negative && 0 < size && size ≤ maxSigned + 1 then .negative size
  else match n.toFloat? with
    | some f => .float f
    | none => .tooLarge

end Numeral
end PodConsole.Json
