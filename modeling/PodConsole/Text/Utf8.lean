namespace PodConsole.Text

abbrev Bytes := List UInt8

namespace Utf8

/-- A character begun: the octets owed after the next one, and the range that the next one keeps. -/
structure Partial where
  owed : Nat
  low : UInt8
  high : UInt8
  value : Nat
  deriving DecidableEq, Repr

inductive Move where
  | char (c : Char)
  | more (p : Partial)
  | refuse
  deriving DecidableEq, Repr

/-- The ranges after `E0`, `ED`, `F0` and `F4` leave out overlong forms, surrogates and all
above `10FFFF` (RFC 3629). -/
def lead (b : UInt8) : Move :=
  if b < 0x80 then .char (Char.ofNat b.toNat)
  else if b < 0xC2 then .refuse
  else if b < 0xE0 then .more ⟨0, 0x80, 0xBF, b.toNat - 0xC0⟩
  else if b = 0xE0 then .more ⟨1, 0xA0, 0xBF, 0⟩
  else if b = 0xED then .more ⟨1, 0x80, 0x9F, 0xD⟩
  else if b < 0xF0 then .more ⟨1, 0x80, 0xBF, b.toNat - 0xE0⟩
  else if b = 0xF0 then .more ⟨2, 0x90, 0xBF, 0⟩
  else if b < 0xF4 then .more ⟨2, 0x80, 0xBF, b.toNat - 0xF0⟩
  else if b = 0xF4 then .more ⟨2, 0x80, 0x8F, 4⟩
  else .refuse

def Partial.next (p : Partial) (b : UInt8) : Move :=
  if b < p.low ∨ p.high < b then .refuse
  else
    let value := p.value * 64 + (b.toNat - 0x80)
    match p.owed with
    | 0 => .char (Char.ofNat value)
    | n + 1 => .more ⟨n, 0x80, 0xBF, value⟩

def step : Option Partial → UInt8 → Move
  | none, b => lead b
  | some p, b => p.next b

def replacement : Char := '\uFFFD'

def begin (b : UInt8) : List Char × Option Partial :=
  match lead b with
  | .char c => ([c], none)
  | .more p => ([], some p)
  | .refuse => ([replacement], none)

/-- A refused octet ends the character before it and is read again as a first octet. -/
def feed : Option Partial → UInt8 → List Char × Option Partial
  | none, b => begin b
  | some p, b =>
    match p.next b with
    | .char c => ([c], none)
    | .more q => ([], some q)
    | .refuse => (replacement :: (begin b).1, (begin b).2)

def decode : Option Partial → Bytes → List Char × Option Partial
  | p, [] => ([], p)
  | p, b :: r =>
    let (cs, q) := feed p b
    let (ds, last) := decode q r
    (cs ++ ds, last)

/-- Every maximal ill-formed stretch becomes one U+FFFD, also an unfinished one at the end. -/
def lossyChars (bytes : Bytes) : List Char :=
  let (cs, last) := decode none bytes
  match last with
  | none => cs
  | some _ => cs ++ [replacement]

def lossy (bytes : Bytes) : String :=
  String.ofList (lossyChars bytes)

def encode (text : String) : Bytes :=
  text.toList.flatMap String.utf8EncodeChar

/-- `short n`: well formed but for an unfinished character that begins at `n`. -/
inductive Verdict where
  | whole
  | short (upTo : Nat)
  | broken
  deriving DecidableEq, Repr

def verdictFrom (p : Option Partial) (good seen : Nat) : Bytes → Verdict
  | [] => if p.isNone then .whole else .short good
  | b :: r =>
    match step p b with
    | .char _ => verdictFrom none (seen + 1) (seen + 1) r
    | .more q => verdictFrom (some q) good (seen + 1) r
    | .refuse => .broken

def verdict (bytes : Bytes) : Verdict :=
  verdictFrom none 0 0 bytes

/-- The text of well-formed octets. -/
def read? (bytes : Bytes) : Option String :=
  match verdict bytes with
  | .whole => some (lossy bytes)
  | _ => none

/-- A non-empty beginning of one character. -/
def isUnfinished (bytes : Bytes) : Bool :=
  verdict bytes = .short 0

/-- An unfinished character has at most this many octets. -/
def longestUnfinished : Nat := 3

/-- The length of the part that no later octet can change. Ill-formed octets hold nothing back. -/
def boundary (bytes : Bytes) : Nat :=
  match verdict bytes with
  | .whole => bytes.length
  | .short n => n
  | .broken =>
    let first := bytes.length - longestUnfinished
    ((List.range' first (bytes.length - first)).find? fun i => isUnfinished (bytes.drop i)).getD
      bytes.length

end Utf8
end PodConsole.Text
