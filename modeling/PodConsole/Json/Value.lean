import PodConsole.Json.Numeral

namespace PodConsole.Json

mutual

/-- A value as far as the text can be read. What stands before the first `broken` place can still
be judged. -/
inductive Value where
  | null
  | bool (b : Bool)
  | number (n : Numeral)
  /-- A string with an unpaired surrogate escape is well formed but has no text. -/
  | string (text : Option String)
  | array (items : Items)
  | object (members : Members)
  | broken

inductive Items where
  | closed
  | broken
  | cons (item : Value) (rest : Items)

inductive Members where
  | closed
  /-- What stands where a name should. -/
  | broken (found : Value)
  /-- A name with an unpaired surrogate escape is well formed too. -/
  | cons (name : Option String) (value : Value) (rest : Members)

end

mutual

def Value.isWhole : Value → Bool
  | .array items => items.isWhole
  | .object members => members.isWhole
  | .broken => false
  | _ => true

def Items.isWhole : Items → Bool
  | .closed => true
  | .broken => false
  | .cons item rest => item.isWhole && rest.isWhole

def Members.isWhole : Members → Bool
  | .closed => true
  | .broken _ => false
  | .cons _ value rest => value.isWhole && rest.isWhole

end

/-- A value and whether anything but blanks follows it. -/
structure Document where
  value : Value
  trailing : Bool

end PodConsole.Json
