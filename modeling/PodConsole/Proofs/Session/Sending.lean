import PodConsole.Proofs.Text.Streaming
import PodConsole.Session.Terminal

namespace PodConsole.Proofs.Sending
open Session Text Streaming
open Wire (Envelope)

/-- The text that something done at the terminal completes. -/
def utter (d : Decoder) : Act → Option String × Decoder
  | .write bytes => d.push bytes
  | .flush => d.finish
  | .read | .nextSize | .toast _ | .send _ => (none, d)

/-- The texts of all that is done at the terminal. -/
def speech (d : Decoder) : List Act → List String × Decoder
  | [] => ([], d)
  | act :: rest =>
    ((utter d act).1.toList ++ (speech (utter d act).2 rest).1, (speech (utter d act).2 rest).2)

theorem speech_append (d : Decoder) (acts more : List Act) :
    speech d (acts ++ more) =
      ((speech d acts).1 ++ (speech (speech d acts).2 more).1,
        (speech (speech d acts).2 more).2) := by
  induction acts generalizing d with
  | nil => rfl
  | cons act acts ih => simp [speech, ih]

theorem speech_writes (d : Decoder) (pieces : List Bytes) :
    speech d (pieces.map .write) = d.pushAll pieces := by
  induction pieces generalizing d with
  | nil => rfl
  | cons piece pieces ih => simp [speech, utter, Decoder.pushAll, ih]

/-- Whatever is pending, and however the rest comes, all of it is read as a whole. -/
theorem push_all_finish (d : Decoder) (pieces : List Bytes) :
    String.join (d.pushAll pieces).1 ++ (d.pushAll pieces).2.finish.1.getD "" =
      Utf8.lossy (d.pending ++ pieces.flatten) := by
  induction pieces generalizing d with
  | nil => simp [Decoder.pushAll, (finish_eq d).1]
  | cons piece pieces ih =>
    obtain ⟨hp, ht⟩ := push_eq d piece
    have hc := (Boundary.boundary_cut (d.pending ++ piece) pieces.flatten).lossy
    rw [← List.append_assoc, List.take_append_drop] at hc
    calc String.join (d.pushAll (piece :: pieces)).1 ++
          (d.pushAll (piece :: pieces)).2.finish.1.getD ""
        = ready (d.pending ++ piece) ++ (String.join ((d.push piece).2.pushAll pieces).1 ++
            ((d.push piece).2.pushAll pieces).2.finish.1.getD "") := by
          rw [← ht]
          simp [Decoder.pushAll, join_to_list, String.append_assoc]
      _ = ready (d.pending ++ piece) ++
            Utf8.lossy (rest (d.pending ++ piece) ++ pieces.flatten) := by
          rw [ih, hp]
      _ = Utf8.lossy (d.pending ++ (piece :: pieces).flatten) := by
          rw [List.flatten_cons, ← List.append_assoc, hc]
          rfl

/-- Output written in pieces and then flushed. -/
theorem speech_flushed (d : Decoder) (pieces : List Bytes) :
    String.join (speech d (pieces.map .write ++ [.flush])).1 =
      Utf8.lossy (d.pending ++ pieces.flatten) := by
  rw [speech_append, speech_writes, String.join_append, ← push_all_finish]
  simp [speech, utter, join_to_list]

/-- What output asks of a terminal. -/
def isSpeaking : Act → Bool
  | .write _ | .flush | .send _ => true
  | .read | .nextSize | .toast _ => false

/-- The frame that something done at the terminal is to put out. -/
def word? (d : Decoder) : Act → Option Envelope
  | .send frame => some frame
  | act => (utter d act).1.map .stdout

def decoded (t : Terminal) (act : Act) : Terminal :=
  { t with decoder := (utter t.decoder act).2 }

/-- A frame that has found room. -/
def emitted (t : Terminal) (frame : Envelope) : Terminal :=
  t.mapConnection fun c => { c with outbound := { c.outbound with
    items := c.outbound.items ++ [frame] } }

inductive Performed (t : Terminal) (act : Act) : Answer × Terminal → Prop
  | silent : word? t.decoder act = none → Performed t act (.done, decoded t act)
  | refused : Performed t act (.refused, decoded t act)
  | full {frame : Envelope} : word? t.decoder act = some frame →
      t.connection.outbound.capacity ≤ t.connection.outbound.items.length →
      Performed t act (.full frame, decoded t act)
  | done {frame : Envelope} : word? t.decoder act = some frame →
      t.connection.outbound.receiving = true →
      Performed t act (.done, emitted (decoded t act) frame)

theorem send_performed {t : Terminal} {act : Act} {frame : Envelope}
    (h : word? t.decoder act = some frame) : Performed t act ((decoded t act).send frame) := by
  unfold Terminal.send
  split
  · exact .refused
  · unfold Queue.offer
    split
    · rename_i ho
      split at ho
      · cases ho
      · rename_i hr
        split at ho
        · cases ho
        · cases ho
          exact .done h (by simp [decoded] at hr; exact hr.2)
    · rename_i ho
      split at ho
      · cases ho
      · split at ho
        · rename_i hc
          exact .full h hc
        · cases ho
    · exact .refused

theorem perform_performed {t : Terminal} {act : Act} (h : isSpeaking act = true) :
    Performed t act (t.perform act) := by
  have texts (htext : word? t.decoder act = (utter t.decoder act).1.map .stdout) :
      Performed t act ((decoded t act).sendText? (utter t.decoder act).1) := by
    cases hu : (utter t.decoder act).1 with
    | none => exact .silent (by rw [htext, hu]; rfl)
    | some text => exact send_performed (by rw [htext, hu]; rfl)
  cases act with
  | write bytes => exact texts rfl
  | flush => exact texts rfl
  | send frame =>
    have hw : word? t.decoder (.send frame) = some frame := rfl
    exact send_performed hw
  | read | nextSize | toast _ => cases h

end PodConsole.Proofs.Sending
