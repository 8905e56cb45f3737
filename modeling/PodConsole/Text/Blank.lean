namespace PodConsole.Text

/-- The characters with Unicode's property White_Space. -/
def isBlankChar (c : Char) : Bool :=
  let n := c.toNat
  (9 ≤ n && n ≤ 13) || n = 0x20 || n = 0x85 || n = 0xA0 || n = 0x1680
    || (0x2000 ≤ n && n ≤ 0x200A) || n = 0x2028 || n = 0x2029 || n = 0x202F || n = 0x205F
    || n = 0x3000

def trimStart (cs : List Char) : List Char :=
  cs.dropWhile isBlankChar

def trimEnd (cs : List Char) : List Char :=
  (cs.reverse.dropWhile isBlankChar).reverse

def trim (cs : List Char) : List Char :=
  trimEnd (trimStart cs)

def isBlank (text : String) : Bool :=
  text.toList.all isBlankChar

/-- The stretches between line feeds. -/
def splitLines : List Char → List (List Char)
  | [] => [[]]
  | c :: r =>
    if c = '\n' then [] :: splitLines r
    else match splitLines r with
      | [] => [[c]]
      | line :: lines => (c :: line) :: lines

/-- The lines that hold more than blanks, trimmed. -/
def lines (cs : List Char) : List (List Char) :=
  ((splitLines cs).map trim).filter fun line => !line.isEmpty

/-- All up to the last line feed, if there is one. -/
def completeLines? (cs : List Char) : Option (List Char) :=
  match cs.reverse.dropWhile (· ≠ '\n') with
  | [] => none
  | _ :: r => some r.reverse

/-- Whether `part` stands somewhere in `text`. -/
def holds (part : List Char) : List Char → Bool
  | [] => part.isEmpty
  | c :: r => part.isPrefixOf (c :: r) || holds part r

end PodConsole.Text
