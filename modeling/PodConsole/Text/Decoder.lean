import PodConsole.Text.Utf8

namespace PodConsole.Text

structure Decoder where
  pending : Bytes := []
  deriving DecidableEq, Repr

namespace Decoder

/-- No text comes out while a piece only extends an unfinished character. -/
def push (d : Decoder) (piece : Bytes) : Option String × Decoder :=
  let held := d.pending ++ piece
  match Utf8.boundary held with
  | 0 => (none, ⟨held⟩)
  | n => (some (Utf8.lossy (held.take n)), ⟨held.drop n⟩)

/-- The texts that pieces give one after the other. -/
def pushAll (d : Decoder) : List Bytes → List String × Decoder
  | [] => ([], d)
  | piece :: rest =>
    let (text, d) := d.push piece
    let (texts, d) := d.pushAll rest
    (text.toList ++ texts, d)

def finish (d : Decoder) : Option String × Decoder :=
  if d.pending.isEmpty then (none, d) else (some (Utf8.lossy d.pending), ⟨[]⟩)

end Decoder
end PodConsole.Text
