import PodConsole.Text.Unshown

namespace PodConsole.Text.Quoted

def isShown (c : Char) : Bool :=
  if c.toNat < 0x7F then ' ' ≤ c
  else c.toNat ≠ 0x7F && !unshown.any fun (first, last) => first ≤ c.toNat && c.toNat ≤ last

def hexText (n : Nat) : List Char :=
  Nat.toDigits 16 n

def quoteChar (c : Char) : List Char :=
  match c with
  | '\x00' => ['\\', '0']
  | '\t' => ['\\', 't']
  | '\n' => ['\\', 'n']
  | '\r' => ['\\', 'r']
  | '"' => ['\\', '"']
  | '\\' => ['\\', '\\']
  | c => if isShown c then [c] else ['\\', 'u', '\x7b'] ++ hexText c.toNat ++ ['\x7d']

def quote (text : String) : String :=
  String.ofList ('"' :: text.toList.flatMap quoteChar ++ ['"'])

end PodConsole.Text.Quoted
