import PodConsole.Json.Reader

namespace PodConsole.Proofs.Grammar
open Json Decimal

/-- Any blanks that may stand between tokens. -/
def Blanks (cs : List Char) : Prop :=
  ∀ c ∈ cs, isSpace c = true

/-- What stands between the quotes of a string (RFC 8259), and the characters it means. A character
beyond 16 bits is itself, or a high and a low surrogate next to each other. -/
inductive Spells : List Char → List Char → Prop where
  | nil : Spells [] []
  | plain {c : Char} {r t : List Char} (printable : ' ' ≤ c) (no_quote : c ≠ '"')
      (no_escape : c ≠ '\\') (rest : Spells r t) : Spells (c :: r) (c :: t)
  | short {e c : Char} {r t : List Char} (named : escape? e = some c) (rest : Spells r t) :
      Spells ('\\' :: e :: r) (c :: t)
  | unit {a b c d : Char} {n : Nat} {r t : List Char} (code : hexUnit? a b c d = some n)
      (not_high : isHigh n = false) (not_low : isLow n = false) (rest : Spells r t) :
      Spells ('\\' :: 'u' :: a :: b :: c :: d :: r) (Char.ofNat n :: t)
  | pair {a b c d e f g h : Char} {high low : Nat} {r t : List Char}
      (first : hexUnit? a b c d = some high) (is_high : isHigh high = true)
      (second : hexUnit? e f g h = some low) (is_low : isLow low = true) (rest : Spells r t) :
      Spells ('\\' :: 'u' :: a :: b :: c :: d :: '\\' :: 'u' :: e :: f :: g :: h :: r)
        (Json.pair high low :: t)

/-- What may stand between the quotes of a string, whether or not it means any characters. -/
inductive Escaped : List Char → Prop where
  | nil : Escaped []
  | plain {c : Char} {r : List Char} (printable : ' ' ≤ c) (no_quote : c ≠ '"')
      (no_escape : c ≠ '\\') (rest : Escaped r) : Escaped (c :: r)
  | short {e c : Char} {r : List Char} (named : escape? e = some c) (rest : Escaped r) :
      Escaped ('\\' :: e :: r)
  | unit {a b c d : Char} {n : Nat} {r : List Char} (code : hexUnit? a b c d = some n)
      (rest : Escaped r) : Escaped ('\\' :: 'u' :: a :: b :: c :: d :: r)

/-- The inside of a string and its text, which it has unless a surrogate stands alone. -/
inductive Quoted : List Char → Option String → Prop where
  | text {raw t : List Char} (spells : Spells raw t) : Quoted raw (some (String.ofList t))
  | lone {raw : List Char} (escaped : Escaped raw) (alone : ∀ t, ¬Spells raw t) : Quoted raw none

/-- Digits, at least one. -/
def Digits (ds : List Char) : Prop :=
  ds ≠ [] ∧ ∀ d ∈ ds, isDigit d = true

/-- A number of several digits does not begin with zero. -/
def Whole (ds : List Char) : Prop :=
  Digits ds ∧ (ds.head? = some '0' → ds = ['0'])

inductive Fraction : List Char → List Char → Prop where
  | absent : Fraction [] []
  | present {ds : List Char} (digits : Digits ds) : Fraction ('.' :: ds) ds

/-- The sign of an exponent, and whether it is a minus. -/
inductive Sign : List Char → Bool → Prop where
  | absent : Sign [] false
  | plus : Sign ['+'] false
  | minus : Sign ['-'] true

inductive Exponent : List Char → Option (Bool × List Char) → Prop where
  | absent : Exponent [] none
  | present {e : Char} {sign ds : List Char} {down : Bool} (letter : e = 'e' ∨ e = 'E')
      (signed : Sign sign down) (digits : Digits ds) : Exponent (e :: sign ++ ds) (some (down, ds))

/-- A number without its minus. -/
inductive Numeric (negative : Bool) : List Char → Numeral → Prop where
  | mk {whole f fraction e : List Char} {exponent : Option (Bool × List Char)}
      (integer : Whole whole) (fractional : Fraction f fraction) (scaled : Exponent e exponent) :
      Numeric negative (whole ++ f ++ e) ⟨negative, whole, fraction, exponent⟩

mutual

inductive Writes : List Char → Value → Prop where
  | null : Writes ['n', 'u', 'l', 'l'] .null
  | true : Writes ['t', 'r', 'u', 'e'] (.bool true)
  | false : Writes ['f', 'a', 'l', 's', 'e'] (.bool false)
  | number {cs : List Char} {n : Numeral} (numeric : Numeric false cs n) : Writes cs (.number n)
  | negative {cs : List Char} {n : Numeral} (numeric : Numeric true cs n) :
      Writes ('-' :: cs) (.number n)
  | string {raw : List Char} {text : Option String} (quoted : Quoted raw text) :
      Writes ('"' :: raw ++ ['"']) (.string text)
  | noItems {b : List Char} (blanks : Blanks b) : Writes ('[' :: b ++ [']']) (.array .closed)
  | array {cs : List Char} {items : Items} (inside : WritesItems cs items) :
      Writes ('[' :: cs ++ [']']) (.array items)
  | noMembers {b : List Char} (blanks : Blanks b) :
      Writes ('\x7b' :: b ++ ['\x7d']) (.object .closed)
  | object {cs : List Char} {members : Members} (inside : WritesMembers cs members) :
      Writes ('\x7b' :: cs ++ ['\x7d']) (.object members)

/-- Items with commas between them, and blanks around each. -/
inductive WritesItems : List Char → Items → Prop where
  | last {b cs b' : List Char} {v : Value} (before : Blanks b) (item : Writes cs v)
      (after : Blanks b') : WritesItems (b ++ cs ++ b') (.cons v .closed)
  | more {b cs b' r : List Char} {v : Value} {rest : Items} (before : Blanks b)
      (item : Writes cs v) (after : Blanks b') (others : WritesItems r rest) :
      WritesItems (b ++ cs ++ b' ++ ',' :: r) (.cons v rest)

/-- Names with their values, commas between them, and blanks around each. -/
inductive WritesMembers : List Char → Members → Prop where
  | last {b raw b' c cs c' : List Char} {name : Option String} {v : Value} (before : Blanks b)
      (named : Quoted raw name) (after : Blanks b') (opening : Blanks c) (value : Writes cs v)
      (closing : Blanks c') :
      WritesMembers (b ++ ('"' :: raw ++ '"' :: b') ++ ':' :: (c ++ cs ++ c'))
        (.cons name v .closed)
  | more {b raw b' c cs c' r : List Char} {name : Option String} {v : Value} {rest : Members}
      (before : Blanks b) (named : Quoted raw name) (after : Blanks b') (opening : Blanks c)
      (value : Writes cs v) (closing : Blanks c') (others : WritesMembers r rest) :
      WritesMembers (b ++ ('"' :: raw ++ '"' :: b') ++ ':' :: (c ++ cs ++ c' ++ ',' :: r))
        (.cons name v rest)

end

/-- A text whose value is an object with these members. -/
def WritesObject (cs : List Char) (members : Members) : Prop :=
  ∃ b t b', cs = b ++ t ++ b' ∧ Blanks b ∧ Writes t (.object members) ∧ Blanks b'

end PodConsole.Proofs.Grammar
