import PodConsole.Session.Basic
import PodConsole.Session.Queue
import PodConsole.Text.Decoder
import PodConsole.Wire.Envelope

namespace PodConsole.Session

open Text (Bytes Decoder)
open Wire (Envelope Size)

/-- What leads to and from a client's socket. -/
structure Connection where
  stdin : Queue String
  outbound : Queue Envelope
  /-- The client is gone. -/
  cancelled : Bool := false
  deriving DecidableEq, Repr

namespace Connection

def unused : Connection := ⟨.unused, .unused, false⟩

def isClosed (c : Connection) : Bool :=
  c.cancelled || !c.outbound.receiving

def cancel (c : Connection) : Connection :=
  { c with cancelled := true }

/-- The client's socket takes no more frames. -/
def stopWriting (c : Connection) : Connection :=
  { c.cancel with outbound := c.outbound.stopReceiving }

/-- The session's side lets go. -/
def release (c : Connection) : Connection :=
  { c with stdin := c.stdin.stopReceiving, outbound := c.outbound.stopSending }

end Connection

structure Terminal where
  id : String
  connection : Connection
  sizes : Queue Size
  /-- The last size that was taken from the queue. -/
  size : Size := {}
  decoder : Decoder := {}
  deriving DecidableEq, Repr

/-- What a process may ask of its terminal. -/
inductive Act where
  | read
  | nextSize
  | write (bytes : Bytes)
  | flush
  | toast (text : String)
  /-- A frame that waited for room. -/
  | send (frame : Envelope)
  deriving DecidableEq, Repr

inductive Answer where
  | pending
  | keys (bytes : Bytes)
  | size (s : Size)
  /-- No keystroke or size will come any more. -/
  | ended
  | done
  /-- The frame waits for room; a process that does not wait loses it. -/
  | full (frame : Envelope)
  | refused
  deriving DecidableEq, Repr

namespace Terminal

def isClosed (t : Terminal) : Bool :=
  t.connection.isClosed

def mapConnection (t : Terminal) (f : Connection → Connection) : Terminal :=
  { t with connection := f t.connection }

/-- A client that is gone is noticed before what it sent is read. -/
def read (t : Terminal) : Answer × Terminal :=
  if t.connection.cancelled then (.ended, t)
  else match t.connection.stdin.poll with
    | (.item text, stdin) =>
      (.keys (Text.Utf8.encode text), t.mapConnection fun c => { c with stdin })
    | (.pending, _) => (.pending, t)
    | (.ended, _) => (.ended, t)

def nextSize (t : Terminal) : Answer × Terminal :=
  if t.connection.cancelled then (.ended, t)
  else match t.sizes.poll with
    | (.item size, sizes) => (.size size, { t with sizes, size })
    | (.pending, _) => (.pending, t)
    | (.ended, _) => (.ended, t)

def send (t : Terminal) (frame : Envelope) : Answer × Terminal :=
  if t.connection.cancelled then (.refused, t)
  else match t.connection.outbound.offer frame with
    | (.sent, outbound) => (.done, t.mapConnection fun c => { c with outbound })
    | (.full, _) => (.full frame, t)
    | (.closed, _) => (.refused, t)

def sendText? (t : Terminal) : Option String → Answer × Terminal
  | some text => t.send (.stdout text)
  | none => (.done, t)

/-- An unfinished character waits for the next write. -/
def write (t : Terminal) (bytes : Bytes) : Answer × Terminal :=
  let (text, decoder) := t.decoder.push bytes
  { t with decoder }.sendText? text

def flush (t : Terminal) : Answer × Terminal :=
  let (text, decoder) := t.decoder.finish
  { t with decoder }.sendText? text

def toast (t : Terminal) (text : String) : Answer × Terminal :=
  t.send (.toast text)

def perform (t : Terminal) : Act → Answer × Terminal
  | .read => t.read
  | .nextSize => t.nextSize
  | .write bytes => t.write bytes
  | .flush => t.flush
  | .toast text => t.toast text
  | .send frame => t.send frame

/-- The process and all that was kept for it are gone. -/
def release (t : Terminal) : Terminal :=
  { t.mapConnection Connection.release with sizes := t.sizes.stopReceiving }

end Terminal
end PodConsole.Session
