import PodConsole.Toml.Quote
import PodConsole.Toml.Table

namespace PodConsole.Toml

inductive Statement where
  | header (path : List Key) (key : Key) (repeated : Bool) (stretch : Stretch)
  | binding (path : List Key) (key : Key) (node : Node)

/-- Containers nest less deep than this, and dotted keys have fewer parts. -/
def depthLimit : Nat := 80

def isBare (c : Char) : Bool :=
  ('a' ≤ c && c ≤ 'z') || ('A' ≤ c && c ≤ 'Z') || ('0' ≤ c && c ≤ '9') || c = '_' || c = '-'

def readName : Reader String
  | '"' :: r => readLineText ('"' :: r)
  | '\'' :: r => readLineText ('\'' :: r)
  | cs =>
    let name := cs.takeWhile isBare
    if name.isEmpty then none else some (String.ofList name, cs.dropWhile isBare)

def readKey (cs : List Char) : Option (Key × List Char) := do
  let (name, r) ← readName cs
  return (⟨name, .between cs r⟩, r)

/-- The parts of a dotted key, with blanks around each; the last part stands apart. -/
def readPath : Nat → Reader (List Key × Key)
  | 0, _ => none
  | fuel + 1, cs => do
    let (key, r) ← readKey (skipGap cs)
    match skipGap r with
    | '.' :: r =>
      let ((path, last), r) ← readPath fuel r
      return ((key :: path, last), r)
    | r => return (([], key), r)

def skipComment (cs : List Char) : List Char :=
  match cs with
  | '#' :: r => r.dropWhile isPlain
  | r => r

/-- Blanks, line ends and comments, each comment with its line end. -/
def skipVoid : Nat → List Char → List Char
  | 0, cs => cs
  | fuel + 1, cs =>
    match readLineEnd (skipComment (skipGap cs)) with
    | some ((), r) => skipVoid fuel r
    | none => skipGap cs

mutual

/-- A value. Fuel bounds the length of the text, `depth` the containers still allowed. -/
def readNode (fuel depth : Nat) (cs : List Char) : Option (Node × List Char) :=
  match fuel with
  | 0 => none
  | fuel + 1 =>
    match cs with
    | '[' :: r =>
      match depth with
      | 0 => none
      | depth + 1 => do
        let (items, r') ← readItems fuel depth (skipVoid fuel r)
        return (.array items (.between cs r'), r')
    | '\x7b' :: r =>
      match depth with
      | 0 => none
      | depth + 1 => do
        let (t, r') ← readPairs fuel depth { form := .inline } (skipGap r)
        return (.table .inline (some (.between cs r')) t.entries, r')
    | '"' :: _ | '\'' :: _ => do
      let (s, r) ← readText cs
      return (.scalar (.text s) (.between cs r), r)
    | _ => do
      let (s, r) ← readScalar cs
      return (.scalar s (.between cs r), r)

/-- The items up to a closing bracket; a comma may stand before it. -/
def readItems (fuel depth : Nat) (cs : List Char) : Option (List Node × List Char) :=
  match fuel with
  | 0 => none
  | fuel + 1 =>
    match cs with
    | ']' :: r => some ([], r)
    | cs => do
      let (item, r) ← readNode fuel depth cs
      match skipVoid fuel r with
      | ']' :: r => return ([item], r)
      | ',' :: r =>
        let (items, r) ← readItems fuel depth (skipVoid fuel r)
        return (item :: items, r)
      | _ => none

/-- The pairs up to a closing brace, all on one line. -/
def readPairs (fuel depth : Nat) (t : Table) (cs : List Char) : Option (Table × List Char) :=
  match fuel with
  | 0 => none
  | fuel + 1 =>
    match cs with
    | '\x7d' :: r => if t.entries.isEmpty then some (t, r) else none
    | cs => do
      let ((path, key), r) ← readPath (depthLimit - 1) cs
      let ((), r) ← expect '=' r
      let (node, r) ← readNode fuel depth (skipGap r)
      let t ← t.bind path key node
      match skipGap r with
      | '\x7d' :: r => return (t, r)
      | ',' :: r => readPairs fuel depth t (skipGap r)
      | _ => none

end

/-- What may stand behind a statement on its line. -/
def readLineRest (cs : List Char) : Option (Unit × List Char) :=
  match skipComment (skipGap cs) with
  | [] => some ((), [])
  | r => readLineEnd r

def readHeader (cs : List Char) : Option (Statement × List Char) :=
  match cs with
  | '[' :: '[' :: r => do
    let ((path, key), r) ← readPath (depthLimit - 1) r
    let ((), r) ← expect ']' r
    let ((), r) ← expect ']' r
    return (.header path key true (.between cs r), r)
  | '[' :: r => do
    let ((path, key), r) ← readPath (depthLimit - 1) r
    let ((), r) ← expect ']' r
    return (.header path key false (.between cs r), r)
  | _ => none

def readBinding (fuel : Nat) (cs : List Char) : Option (Statement × List Char) := do
  let ((path, key), r) ← readPath (depthLimit - 1) cs
  let ((), r) ← expect '=' r
  let (node, r) ← readNode fuel (depthLimit - 1) (skipGap r)
  return (.binding path key node, r)

/-- Every line spends fuel. -/
def readStatements (fuel : Nat) (cs : List Char) : Option (List Statement) :=
  match fuel with
  | 0 => none
  | fuel + 1 =>
    match skipGap cs with
    | [] => some []
    | '[' :: r => do
      let (s, r) ← readHeader ('[' :: r)
      let ((), r) ← readLineRest r
      let rest ← readStatements fuel r
      return s :: rest
    | c :: r =>
      if c = '#' || c = '\n' || c = '\r' then do
        let ((), r) ← readLineRest (c :: r)
        readStatements fuel r
      else do
        let (s, r) ← readBinding fuel (c :: r)
        let ((), r) ← readLineRest r
        let rest ← readStatements fuel r
        return s :: rest

/-- A byte order mark may come first. Fuel is for a level and an entry of each character. -/
def statements (text : String) : Option (List Statement) :=
  let cs := match text.toList with
    | '\uFEFF' :: r => r
    | r => r
  readStatements (2 * cs.length + 2) cs

end PodConsole.Toml
