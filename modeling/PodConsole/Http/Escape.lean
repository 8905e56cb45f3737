import PodConsole.Text.Hex

namespace PodConsole.Http.Escape

open Text (Bytes)

/-- An escape without its two digits stays as it is. -/
def decode : Bytes → Bytes
  | 0x25 :: a :: b :: r =>
    match Text.Hex.digit? (Char.ofUInt8 a), Text.Hex.digit? (Char.ofUInt8 b) with
    | some high, some low => UInt8.ofNat (high * 16 + low) :: decode r
    | _, _ => 0x25 :: decode (a :: b :: r)
  | x :: r => x :: decode r
  | [] => []

/-- Part of a path; it has to be UTF-8. -/
def segment? (s : String) : Option String :=
  Text.Utf8.read? (decode (Text.Utf8.encode s))

/-- Part of a form, where a plus sign is a blank. -/
def field (s : String) : String :=
  let spaced := (Text.Utf8.encode s).map fun b => if b = 0x2B then 0x20 else b
  Text.Utf8.lossy (decode spaced)

end PodConsole.Http.Escape
