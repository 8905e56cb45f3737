import PodConsole.Text.Hex

namespace PodConsole.Toml

inductive Style where
  | basic
  | literal
  | basicLines
  | literalLines
  deriving DecidableEq, Repr

/-- The longest run of one character. -/
def longestRun (c : Char) (cs : List Char) : Nat :=
  (cs.foldl (fun (run, longest) d =>
    if d = c then (run + 1, max longest (run + 1)) else (0, longest)) (0, 0)).2

/-- Control characters other than tabs and line feeds have no unescaped form. -/
def needsCode (c : Char) : Bool :=
  (c < ' ' && c ≠ '\t' && c ≠ '\n') || c = '\x7f'

/-- Plain quotes where nothing has to be escaped, then literal ones, then the styles of several
lines; with escapes only if all of these fail. -/
def Style.of (cs : List Char) : Style :=
  let coded := cs.any needsCode
  let slashed := cs.contains '\\'
  let broken := cs.contains '\n'
  let double := longestRun '"' cs
  let single := longestRun '\'' cs
  if !coded && !slashed && double = 0 && !broken then .basic
  else if !coded && single = 0 && !broken then .literal
  else if !coded && !slashed && double ≤ 2 then .basicLines
  else if !coded && single ≤ 2 then .literalLines
  else if broken then .basicLines
  else .basic

def codeText (c : Char) : List Char :=
  let digit (n : Nat) := (Text.Hex.digit n).toUpper
  ['\\', 'u', '0', '0', digit (c.toNat / 16), digit (c.toNat % 16)]

def escapeChar (lines : Bool) (c : Char) : List Char :=
  match c with
  | '\x08' => ['\\', 'b']
  | '\t' => ['\\', 't']
  | '\n' => if lines then ['\n'] else ['\\', 'n']
  | '\x0c' => ['\\', 'f']
  | '\r' => ['\\', 'r']
  | '\\' => ['\\', '\\']
  | c => if needsCode c then codeText c else [c]

/-- `room` is how many quotes may still stand together unescaped; an escape gives room again. -/
def escape (lines : Bool) (room : Nat) : List Char → List Char
  | [] => []
  | '"' :: r =>
    match room with
    | 0 => '\\' :: '"' :: escape lines (if lines then 2 else 0) r
    | room + 1 => '"' :: escape lines room r
  | c :: r => escapeChar lines c ++ escape lines (if lines then 2 else 0) r

def quoteWith (style : Style) (cs : List Char) : List Char :=
  let opening := if cs.contains '\n' then ['\n'] else []
  match style with
  | .basic => '"' :: escape false 0 cs ++ ['"']
  | .literal => '\'' :: cs ++ ['\'']
  | .basicLines => ['"', '"', '"'] ++ opening ++ escape true 2 cs ++ ['"', '"', '"']
  | .literalLines => ['\'', '\'', '\''] ++ opening ++ cs ++ ['\'', '\'', '\'']

def quote (text : String) : String :=
  String.ofList (quoteWith (.of text.toList) text.toList)

/-- A section: its header, then a line for each pair whose value is already written. -/
def writeSection (name : String) (pairs : List (String × String)) : String :=
  "[" ++ name ++ "]\n" ++ String.join (pairs.map fun (key, value) => key ++ " = " ++ value ++ "\n")

end PodConsole.Toml
