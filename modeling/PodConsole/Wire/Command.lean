import PodConsole.Wire.Reading

namespace PodConsole.Wire

inductive Command where
  | bind (sessionId : String)
  | stdin (data : String)
  | resize (size : Size)
  deriving DecidableEq, Repr

inductive CommandError where
  | unreadable (fault : Fault)
  | wrongDirection (op : Op)
  | missingField (op : Op) (field : String)
  | invalidSize (rows cols : Nat)
  deriving DecidableEq, Repr

def CommandError.message? : CommandError → Option String
  | .unreadable fault => fault.message?
  | .wrongDirection op => some ("op '" ++ op.name ++ "' is not accepted from clients")
  | .missingField op field => some ("op '" ++ op.name ++ "' requires field '" ++ field ++ "'")
  | .invalidSize rows cols =>
    some ("invalid terminal size " ++ toString rows ++ "x" ++ toString cols)

namespace Command

/-- Keystrokes without data are legal and type nothing. -/
def ofEnvelope (e : Envelope) : Except CommandError Command :=
  match e.op with
  | .stdout | .toast => .error (.wrongDirection e.op)
  | .bind =>
    match e.sessionId with
    | some id => .ok (.bind id)
    | none => .error (.missingField e.op "sessionId")
  | .stdin => .ok (.stdin (e.data.getD ""))
  | .resize =>
    match e.rows, e.cols with
    | none, _ => .error (.missingField e.op "rows")
    | _, none => .error (.missingField e.op "cols")
    | some rows, some cols =>
      if rows = 0 ∨ cols = 0 then .error (.invalidSize rows cols) else .ok (.resize ⟨rows, cols⟩)

def parse (text : String) : Except CommandError Command :=
  match Envelope.read text with
  | .ok e => ofEnvelope e
  | .error fault => .error (.unreadable fault)

end Command
end PodConsole.Wire
