import PodConsole.Decimal.Shortest
import PodConsole.Settings.Basic
import PodConsole.Text.Misfit
import PodConsole.Text.Quoted
import PodConsole.Toml.Document
import PodConsole.Toml.Writer

namespace PodConsole.Settings

open Text Toml

/-- A value that does not suit, and where it is written. -/
structure Misplaced where
  misfit : Misfit
  stretch : Option Stretch

inductive ReadError where
  | notToml
  | misplaced (m : Misplaced) (size : Nat)

/-- Positions count octets from the front of the document. -/
def ReadError.message? : ReadError → Option String
  | .notToml => none
  | .misplaced m size =>
    let place := match m.stretch with
      | none => ""
      | some s =>
        " (at position " ++ toString (size - s.before) ++ ".." ++ toString (size - s.after) ++ ")"
    some ("Invalid TOML configuration: " ++ m.misfit.message ++ place)

def found : Node → String
  | .scalar (.text s) _ => "string " ++ Quoted.quote s
  | .scalar (.integer n) _ => "integer " ++ ticked (toString n)
  | .scalar (.float f) _ =>
    "floating point " ++ ticked (Decimal.Notation.plain.write (.ofFloat f))
  | .scalar (.flag b) _ => "boolean " ++ ticked (toString b)
  | .scalar .moment _ => "map"
  | .array _ _ => "sequence"
  | .tables _ => "sequence"
  | .table _ _ _ => "map"

def refuse {α : Type} (n : Node) (wanted : String) : Except Misplaced α :=
  .error ⟨.kind (found n) wanted, n.stretch?⟩

def readString (wanted : String) : Node → Except Misplaced String
  | .scalar (.text s) _ => .ok s
  | n => refuse n wanted

def readCount (wanted : String) : Node → Except Misplaced Nat
  | .scalar (.integer n) stretch =>
    if 0 ≤ n then .ok n.toNat
    else .error ⟨.value ("integer " ++ ticked (toString n)) wanted, some stretch⟩
  | n => refuse n wanted

/-- The settings of one section, by name and in the order of a section written as an array. -/
structure Fields (α : Type) where
  wanted : String
  names : List String
  set : String → Node → α → Except Misplaced α

/-- A misfit without a place of its own is at its key. -/
def Fields.setEntry {α : Type} (f : Fields α) (a : α) (entry : Key × Node) :
    Except Misplaced α :=
  match f.set entry.1.name entry.2 a with
  | .ok a => .ok a
  | .error m => .error { m with stretch := m.stretch.or (some entry.1.stretch) }

def Fields.read {α : Type} (f : Fields α) (initial : α) : Node → Except Misplaced α
  | .table _ _ entries => entries.foldlM f.setEntry initial
  | .array items _ => (f.names.zip items).foldlM (fun a (name, n) => f.set name n a) initial
  | .tables items => (f.names.zip items).foldlM (fun a (name, n) => f.set name n a) initial
  | .scalar .moment _ => .ok initial
  | n => refuse n f.wanted

def serverFields : Fields Server where
  wanted := "struct ServerConfig"
  names := ["listen_addr", "log_level", "max_message_bytes"]
  set name n s := match name with
    | "listen_addr" => (readString "a string" n).map fun v => { s with listenAddr := v }
    | "log_level" => (readString "a string" n).map fun v => { s with logLevel := v }
    | "max_message_bytes" => (readCount "usize" n).map fun v => { s with maxMessageBytes := v }
    | _ => .ok s

def sessionFields : Fields Session where
  wanted := "struct SessionConfig"
  names := ["bind_timeout_secs", "max_sessions", "resize_queue_capacity", "stdin_queue_capacity"]
  set name n s := match name with
    | "bind_timeout_secs" => (readCount "u64" n).map fun v => { s with bindTimeoutSecs := v }
    | "max_sessions" => (readCount "usize" n).map fun v => { s with maxSessions := v }
    | "resize_queue_capacity" =>
      (readCount "usize" n).map fun v => { s with resizeQueueCapacity := v }
    | "stdin_queue_capacity" =>
      (readCount "usize" n).map fun v => { s with stdinQueueCapacity := v }
    | _ => .ok s

def kubectlFields : Fields Kubectl.Client where
  wanted := "struct KubectlConfig"
  names := ["binary", "kubeconfig", "default_context"]
  set name n s := match name with
    | "binary" => (readString "a string" n).map fun v => { s with binary := v }
    | "kubeconfig" => (readString "path string" n).map fun v => { s with kubeconfig := some v }
    | "default_context" =>
    (readString "a string" n).map fun v => { s with defaultContext := some v }
    | _ => .ok s

def sections : Fields Settings where
  wanted := "struct Config"
  names := ["server", "session", "kubectl"]
  set name n s := match name with
    | "server" => (serverFields.read {} n).map fun v => { s with server := v }
    | "session" => (sessionFields.read {} n).map fun v => { s with session := v }
    | "kubectl" => (kubectlFields.read {} n).map fun v => { s with kubectl := v }
    | _ => .ok s

/-- What a document does not bind keeps its default. -/
def ofDocument (d : Document) : Except Misplaced Settings :=
  d.foldlM sections.setEntry {}

def read (text : String) : Except ReadError Settings :=
  match Document.read? text with
  | none => .error .notToml
  | some d =>
    match ofDocument d with
    | .ok s => .ok s
    | .error m => .error (.misplaced m text.utf8ByteSize)

/-- The numbers that a document would hold. -/
def counts (s : Settings) : List Nat :=
  [s.server.maxMessageBytes, s.session.bindTimeoutSecs, s.session.maxSessions,
    s.session.resizeQueueCapacity, s.session.stdinQueueCapacity]

/-- A TOML integer has 64 signed bits. -/
def isWritable (s : Settings) : Bool :=
  s.counts.all fun n => n ≤ Decimal.maxSigned

def optional (key : String) (value : Option String) : List (String × String) :=
  (value.map fun v => (key, Toml.quote v)).toList

def document (s : Settings) : String :=
  "\n".intercalate [
    writeSection "server" [
      ("listen_addr", Toml.quote s.server.listenAddr),
      ("log_level", Toml.quote s.server.logLevel),
      ("max_message_bytes", toString s.server.maxMessageBytes)],
    writeSection "session" [
      ("bind_timeout_secs", toString s.session.bindTimeoutSecs),
      ("max_sessions", toString s.session.maxSessions),
      ("resize_queue_capacity", toString s.session.resizeQueueCapacity),
      ("stdin_queue_capacity", toString s.session.stdinQueueCapacity)],
    writeSection "kubectl" (
      [("binary", Toml.quote s.kubectl.binary)]
        ++ optional "kubeconfig" s.kubectl.kubeconfig
        ++ optional "default_context" s.kubectl.defaultContext)]

def write? (s : Settings) : Option String :=
  if s.isWritable then some s.document else none

/-- What is said of settings that have no document. -/
def unwritable : String := "Failed to serialize configuration to TOML"

end PodConsole.Settings
