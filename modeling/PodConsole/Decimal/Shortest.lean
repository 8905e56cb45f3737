namespace PodConsole.Decimal

/-- `digits`, read as `0.d₁d₂…`, times ten to the power `point`. -/
structure Scaled where
  digits : List Nat
  point : Int
  deriving DecidableEq, Repr

/-- The positive numbers from `low / scale` to `high / scale`, around `middle / scale`. -/
structure Interval where
  low : Nat
  middle : Nat
  high : Nat
  scale : Nat
  closed : Bool
  deriving Repr

namespace Interval

/-- The reals that round to `m * 2 ^ q`. The gap below a power of two is half as wide. -/
def ofDouble (m : Nat) (q : Int) (narrow : Bool) : Interval :=
  let up := Nat.pow 2 (q - 2).toNat
  let low := if narrow then 4 * m - 1 else 4 * m - 2
  ⟨low * up, 4 * m * up, (4 * m + 2) * up, Nat.pow 2 (2 - q).toNat, m % 2 = 0⟩

def contains (i : Interval) (num den : Nat) : Bool :=
  let n := num * i.scale
  if i.closed then i.low * den ≤ n && n ≤ i.high * den else i.low * den < n && n < i.high * den

/-- The least `k` with `middle / scale < 10 ^ k`. -/
def magnitude (i : Interval) : Int :=
  let whole := i.middle / i.scale
  if whole = 0 then
    let zeros := ((List.range 400).find? fun j => i.scale ≤ i.middle * Nat.pow 10 (j + 1)).getD 400
    Int.negOfNat zeros
  else Int.ofNat (toString whole).length

/-- The nearer of the two neighbours with `count` digits, if one lies in the interval. -/
def withDigits? (i : Interval) (count : Nat) : Option (Nat × Int) :=
  let unit := i.magnitude - Int.ofNat count
  let up := Nat.pow 10 unit.toNat
  let down := Nat.pow 10 (-unit).toNat
  let below := i.middle * down / (i.scale * up)
  let inside (c : Nat) : Bool := i.contains (c * up) down
  let toBelow := i.middle * down - below * up * i.scale
  let toAbove := (below + 1) * up * i.scale - i.middle * down
  if inside below && (!inside (below + 1) || toBelow < toAbove
      || (toBelow = toAbove && below % 2 = 0)) then some (below, unit)
  else if inside (below + 1) then some (below + 1, unit)
  else none

end Interval

/-- Seventeen digits always suffice. -/
def shortest (i : Interval) : Scaled :=
  match (List.range' 1 17).findSome? i.withDigits? with
  | none => ⟨[], 0⟩
  | some (n, unit) =>
    let ds := (toString n).toList.map fun c => c.toNat - 48
    let kept := (ds.reverse.dropWhile (· = 0)).reverse
    ⟨kept, unit + Int.ofNat ds.length⟩

inductive Double where
  | nan
  | infinite (negative : Bool)
  | zero (negative : Bool)
  | finite (negative : Bool) (value : Scaled)
  deriving DecidableEq, Repr

/-- The leading bit of a normal double, which is not stored. -/
def implicitBit : Nat := 0x10000000000000

def Double.ofFloat (f : Float) : Double :=
  let bits := f.toBits.toNat
  let negative := bits / 0x8000000000000000 = 1
  let exponent := bits / implicitBit % 2048
  let fraction := bits % implicitBit
  if exponent = 2047 then if fraction = 0 then .infinite negative else .nan
  else if exponent = 0 then
    if fraction = 0 then .zero negative
    else .finite negative (shortest (.ofDouble fraction (-1074) false))
  else
    .finite negative (shortest (.ofDouble (fraction + implicitBit) (Int.ofNat exponent - 1075)
      (fraction = 0 && exponent > 1)))

/-- From which powers of ten on a number is written with an exponent. -/
structure Notation where
  below : Option Int
  above : Option Int
  deriving Repr

namespace Notation

def digitsText (ds : List Nat) : String :=
  String.ofList (ds.map fun d => Char.ofNat (48 + d))

def zeros (n : Int) : String :=
  String.ofList (List.replicate n.toNat '0')

def positional (s : Scaled) : String :=
  let count := Int.ofNat s.digits.length
  if s.point ≤ 0 then "0." ++ zeros (-s.point) ++ digitsText s.digits
  else if count ≤ s.point then digitsText s.digits ++ zeros (s.point - count) ++ ".0"
  else digitsText (s.digits.take s.point.toNat) ++ "." ++ digitsText (s.digits.drop s.point.toNat)

def scientific (s : Scaled) : String :=
  let tail := s.digits.drop 1
  let point := if tail.isEmpty then "" else "."
  digitsText (s.digits.take 1) ++ point ++ digitsText tail ++ "e" ++ toString (s.point - 1)

def isPositional (n : Notation) (s : Scaled) : Bool :=
  (match n.below with | some k => k < s.point | none => true)
    && (match n.above with | some k => s.point ≤ k | none => true)

def sign (negative : Bool) : String :=
  if negative then "-" else ""

def write (n : Notation) : Double → String
  | .nan => "NaN"
  | .infinite negative => sign negative ++ "inf"
  | .zero negative => sign negative ++ "0.0"
  | .finite negative s =>
    sign negative ++ (if n.isPositional s then positional s else scientific s)

/-- No exponent, however long the number. -/
def plain : Notation := ⟨none, none⟩

/-- An exponent below `0.00001` and from `10 ^ 16` on. -/
def compact : Notation := ⟨some (-5), some 16⟩

end Notation
end PodConsole.Decimal
