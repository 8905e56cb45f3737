import PodConsole.Text.Decoder

namespace PodConsole.Log

open Text (Bytes Decoder)

/-- The most that one read yields. -/
def readSize : Nat := 8192

/-- What a stream does after its last octet. -/
inductive Ending where
  | ended
  | broken (cause : String)
  /-- More may come, and does not. -/
  | silent
  deriving DecidableEq, Repr

structure Source where
  reads : List Bytes
  ending : Ending := .ended
  deriving DecidableEq, Repr

/-- A chunk in reads of at most `readSize` octets. -/
def slices : Bytes → List Bytes
  | [] => []
  | b :: r => (b :: r.take (readSize - 1)) :: slices (r.drop (readSize - 1))
termination_by chunk => chunk.length
decreasing_by
  simp only [List.length_cons, List.length_drop]
  omega

def Source.ofChunks (chunks : List Bytes) (ending : Ending) : Source where
  reads := chunks.flatMap slices
  ending := ending

inductive RelayError where
  | read (cause : String)
  | send (cause : String)
  deriving DecidableEq, Repr

def RelayError.message : RelayError → String
  | .read cause => "failed to read stream: " ++ cause
  | .send cause => "failed to send frame: " ++ cause

/-- Where frames go. It takes a frame or says why not, and may keep frames until it is flushed. -/
class Sink (σ : Type) where
  send : σ → String → Option String × σ
  flush : σ → Option String × σ

/-- A sink that keeps its frames. -/
structure Outlet where
  frames : List String := []
  /-- How many frames it takes in all. -/
  room : Option Nat := none
  /-- Why nothing leaves it. -/
  jam : Option String := none
  deriving DecidableEq, Repr

namespace Outlet

/-- A jammed outlet has taken the frame all the same. -/
def send (o : Outlet) (text : String) : Option String × Outlet :=
  if o.room.any (· ≤ o.frames.length) then (some "sink is full", o)
  else (o.jam, { o with frames := o.frames ++ [text] })

def flush (o : Outlet) : Option String × Outlet :=
  (o.jam, o)

instance : Sink Outlet := ⟨send, flush⟩

end Outlet

structure Relay where
  decoder : Decoder := {}
  /-- Frames sent. -/
  frames : Nat := 0
  /-- Octets read. -/
  bytes : Nat := 0
  deriving DecidableEq, Repr

namespace Relay

variable {σ : Type} [Sink σ]

def send (r : Relay) (o : σ) : Option String → Option String × Relay × σ
  | none => (none, r, o)
  | some text =>
    match Sink.send o text with
    | (some cause, o) => (some cause, r, o)
    | (none, o) => (none, { r with frames := r.frames + 1 }, o)

/-- The end of a stream: what is left of a character goes out too. -/
def close (r : Relay) (o : σ) : Except RelayError Unit × Relay × σ :=
  let (text, decoder) := r.decoder.finish
  match { r with decoder }.send o text with
  | (some cause, r, o) => (.error (.send cause), r, o)
  | (none, r, o) =>
    let (jam, o) := Sink.flush o
    (jam.elim (.ok ()) fun cause => .error (.send cause), r, o)

def pumpReads (ending : Ending) :
    List Bytes → Relay → σ → Option (Except RelayError Unit) × Relay × σ
  | [], r, o =>
    match ending with
    | .silent => (none, r, o)
    | .broken cause => (some (.error (.read cause)), r, o)
    | .ended => let (result, r, o) := r.close o; (some result, r, o)
  | chunk :: rest, r, o =>
    let (text, decoder) := r.decoder.push chunk
    match { r with decoder, bytes := r.bytes + chunk.length }.send o text with
    | (some cause, r, o) => (some (.error (.send cause)), r, o)
    | (none, r, o) => pumpReads ending rest r o

/-- There is no result while the source is silent. -/
def pump (r : Relay) (s : Source) (o : σ) :
    Option (Except RelayError Unit) × Relay × σ :=
  pumpReads s.ending s.reads r o

end Relay
end PodConsole.Log
