import PodConsole.Json.Reader
import PodConsole.Toml.Scalar

namespace PodConsole.Toml

/-- A character that needs no escape; quotes and backslashes are told apart before. -/
def isPlain (c : Char) : Bool :=
  c = '\t' || (' ' ≤ c && c ≠ '\x7f')

def readLineEnd : Reader Unit
  | '\n' :: r => some ((), r)
  | '\r' :: '\n' :: r => some ((), r)
  | _ => none

def skipLineEnd (cs : List Char) : List Char :=
  match readLineEnd cs with
  | some ((), r) => r
  | none => cs

def isGap (c : Char) : Bool := c = ' ' || c = '\t'

def skipGap (cs : List Char) : List Char :=
  cs.dropWhile isGap

def escape? : Char → Option Char
  | '"' => some '"'
  | '\\' => some '\\'
  | 'b' => some '\x08'
  | 'f' => some '\x0c'
  | 'n' => some '\n'
  | 'r' => some '\r'
  | 't' => some '\t'
  | _ => none

/-- Surrogates and numbers above `10FFFF` are no characters. -/
def scalar? (n : Nat) : Option Char :=
  if n.isValidChar then some (Char.ofNat n) else none

/-- The character after a backslash. -/
def readEscape : Reader Char
  | 'u' :: a :: b :: c :: d :: r => do
    let n ← Json.hexUnit? a b c d
    let ch ← scalar? n
    return (ch, r)
  | 'U' :: a :: b :: c :: d :: e :: f :: g :: h :: r => do
    let high ← Json.hexUnit? a b c d
    let low ← Json.hexUnit? e f g h
    let ch ← scalar? (high * 0x10000 + low)
    return (ch, r)
  | c :: r => (escape? c).map fun ch => (ch, r)
  | [] => none

theorem readEscape_length {cs r : List Char} {c : Char} (h : readEscape cs = some (c, r)) :
    r.length < cs.length := by
  unfold readEscape at h
  split at h
  · simp only [Option.bind_eq_bind, Option.bind_eq_some_iff] at h
    obtain ⟨_, _, _, _, h⟩ := h
    cases h
    simp only [List.length_cons]
    omega
  · simp only [Option.bind_eq_bind, Option.bind_eq_some_iff] at h
    obtain ⟨_, _, _, _, _, _, h⟩ := h
    cases h
    simp only [List.length_cons]
    omega
  · obtain ⟨_, _, h⟩ := Option.map_eq_some_iff.1 h
    cases h
    simp
  · cases h

def finishText (back : List Char) (r : List Char) : Option (String × List Char) :=
  some (String.ofList back.reverse, r)

/-- The rest of a one-line string with escapes. -/
def readBasic (back : List Char) (cs : List Char) : Option (String × List Char) :=
  match cs with
  | [] => none
  | '"' :: r => finishText back r
  | '\\' :: r =>
    match h : readEscape r with
    | some (c, r') =>
      have := readEscape_length h
      readBasic (c :: back) r'
    | none => none
  | c :: r => if isPlain c then readBasic (c :: back) r else none
termination_by cs.length

/-- The rest of a one-line string without escapes. -/
def readLiteral (back : List Char) : List Char → Option (String × List Char)
  | [] => none
  | '\'' :: r => finishText back r
  | c :: r => if isPlain c then readLiteral (c :: back) r else none

/-- A backslash at a line's end joins the lines and drops all blanks between them. -/
def skipJoin? (cs : List Char) : Option (List Char) :=
  match readLineEnd (skipGap cs) with
  | some ((), r) => some (skipBlankLines r)
  | none => none
where
  skipBlankLines : List Char → List Char
    | '\r' :: '\n' :: r => skipBlankLines r
    | c :: r => if isGap c || c = '\n' then skipBlankLines r else c :: r
    | [] => []

theorem skipBlankLines_length (cs : List Char) :
    (skipJoin?.skipBlankLines cs).length ≤ cs.length := by
  fun_induction skipJoin?.skipBlankLines cs <;> simp_all <;> omega

theorem readLineEnd_length {cs r : List Char} (h : readLineEnd cs = some ((), r)) :
    r.length < cs.length := by
  unfold readLineEnd at h
  split at h
  · cases h; simp
  · cases h; simp only [List.length_cons]; omega
  · cases h

theorem skipGap_length (cs : List Char) : (skipGap cs).length ≤ cs.length :=
  (List.dropWhile_suffix _).length_le

theorem skipJoin?_length {cs r : List Char} (h : skipJoin? cs = some r) :
    r.length ≤ cs.length := by
  unfold skipJoin? at h
  split at h
  · next h' =>
    cases h
    exact Nat.le_trans (skipBlankLines_length _)
      (Nat.le_trans (Nat.le_of_lt (readLineEnd_length h')) (skipGap_length cs))
  · cases h

/-- Up to two quotes may stand before the three that close the string. -/
def readClosing (quote : Char) (back : List Char) (cs : List Char) : Option (String × List Char) :=
  let run := cs.takeWhile (· = quote)
  if run.length < 3 then none
  else
    let kept := min 2 (run.length - 3)
    finishText (List.replicate kept quote ++ back) (cs.drop (kept + 3))

/-- The rest of a string of several lines with escapes. -/
def readBasicLines (back : List Char) (cs : List Char) : Option (String × List Char) :=
  match cs with
  | [] => none
  | '"' :: r =>
    match readClosing '"' back ('"' :: r) with
    | some done => some done
    | none => readBasicLines ('"' :: back) r
  | '\\' :: r =>
    match hj : skipJoin? r with
    | some r' =>
      have := skipJoin?_length hj
      readBasicLines back r'
    | none =>
      match h : readEscape r with
      | some (c, r') =>
        have := readEscape_length h
        readBasicLines (c :: back) r'
      | none => none
  | '\n' :: r => readBasicLines ('\n' :: back) r
  | '\r' :: '\n' :: r => readBasicLines ('\n' :: back) r
  | c :: r => if isPlain c then readBasicLines (c :: back) r else none
termination_by cs.length
decreasing_by all_goals simp_wf <;> omega

/-- The rest of a string of several lines without escapes. -/
def readLiteralLines (back : List Char) : List Char → Option (String × List Char)
  | [] => none
  | '\'' :: r =>
    match readClosing '\'' back ('\'' :: r) with
    | some done => some done
    | none => readLiteralLines ('\'' :: back) r
  | '\n' :: r => readLiteralLines ('\n' :: back) r
  | '\r' :: '\n' :: r => readLiteralLines ('\n' :: back) r
  | c :: r => if isPlain c then readLiteralLines (c :: back) r else none

/-- A one-line string, as keys may be. -/
def readLineText : Reader String
  | '"' :: r => readBasic [] r
  | '\'' :: r => readLiteral [] r
  | _ => none

/-- A line end right after three opening quotes is dropped. -/
def readText : Reader String
  | '"' :: '"' :: '"' :: r => readBasicLines [] (skipLineEnd r)
  | '\'' :: '\'' :: '\'' :: r => readLiteralLines [] (skipLineEnd r)
  | r => readLineText r

end PodConsole.Toml
