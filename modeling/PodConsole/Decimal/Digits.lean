namespace PodConsole.Decimal

def isDigit (c : Char) : Bool :=
  '0' ≤ c && c ≤ '9'

def digitValue (c : Char) : Nat :=
  c.toNat - 48

def ofDigits (ds : List Char) : Nat :=
  ds.foldl (fun n d => n * 10 + digitValue d) 0

/-- The greatest number that a 64-bit word holds. -/
def maxWord : Nat := 0xFFFFFFFFFFFFFFFF

def maxSigned : Nat := 0x7FFFFFFFFFFFFFFF

/-- Decimal digits alone, at least one, perhaps after one `+`. -/
def readWord? (text : List Char) : Option Nat :=
  let ds := match text with
    | '+' :: r => r
    | r => r
  if ds.isEmpty || !ds.all isDigit then none
  else
    let n := ofDigits ds
    if n ≤ maxWord then some n else none

end PodConsole.Decimal
