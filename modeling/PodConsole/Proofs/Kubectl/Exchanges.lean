import PodConsole.Kubectl.Exchange
import PodConsole.Proofs.Kubectl.Moves
import PodConsole.Proofs.Session.Sending

namespace PodConsole.Proofs.Exchanges
open Kubectl Exchange Moves Sending
open Session (Act Connection Terminal)
open Text (Bytes)
open Wire (Envelope)

/-- All that an attempt has asked of the terminal up to now. -/
def asked (a : Attempt) : List Act :=
  a.written.map .write ++
    match a.stage with
    | .flushing | .over (.ok ()) => [.flush]
    | .forwarding | .writing _ _ | .draining | .over (.error _) => []

/-- What the terminal has not been asked yet. -/
def due (x : Exchange) : List Act :=
  if x.waiting.isSome then [] else x.attempt.act?.toList

theorem concluded_asks {a b : Attempt} (ha : asked a = a.written.map .write)
    (h : Concluded a b) : asked b = asked a ++ b.act?.toList := by
  rw [ha]
  cases h <;> simp [asked, Attempt.act?, Attempt.finish, Attempt.write]

/-- Every move asks for one thing more, or for nothing. -/
theorem move_asks {a b : Attempt} {e : Attempt.Event} (h : Move a e b) :
    asked b = asked a ++ b.act?.toList := by
  cases h with
  | drained hs _ hb => exact concluded_asks (by simp [asked, hs]) hb
  | cut hs _ hb => exact concluded_asks (by simp [asked, hs]) hb
  | judged code hs hb => exact concluded_asks (a := { a with code }) (by simp [asked, hs]) hb
  | gather _ hs => rcases hs with hs | hs <;> simp [asked, gather, Attempt.act?, hs]
  | relay _ hs | drain _ hs | exit _ hs | lost _ hs | left hs | gone hs | forwarded hs
  | written hs | flush hs | flushed hs | quiet hs | outputEnd hs | hold _ hs | hand _ hs
  | size _ hs =>
    simp [asked, Attempt.act?, Attempt.write, Attempt.finish, hs]
  | speak _ hs | speakLate _ hs | settle hs =>
    simp [asked, speak, Attempt.act?, Attempt.write, hs]
  | deadline hs | released hs => simp [asked, Attempt.release, Attempt.act?, hs]

theorem fresh_decoded (t : Terminal) (act : Act) : fresh t (decoded t act) = [] := by
  simp [fresh, decoded]

theorem fresh_emitted (t : Terminal) (act : Act) (frame : Envelope) :
    fresh t (emitted (decoded t act) frame) = [frame] := by
  simp [fresh, emitted, decoded, Terminal.mapConnection]

/-- Something is done at the terminal. A frame goes out, waits, or is lost. -/
inductive Turned (x : Exchange) (act : Act) : Exchange → Prop
  | full {frame : Envelope} : word? x.terminal.decoder act = some frame →
      Turned x act { x with terminal := decoded x.terminal act, waiting := some frame }
  | refused : Turned x act ({ x with terminal := decoded x.terminal act }.tell .refused)
  | silent : word? x.terminal.decoder act = none →
      Turned x act ({ x with terminal := decoded x.terminal act, waiting := none }.tell .taken)
  | done {frame : Envelope} : word? x.terminal.decoder act = some frame →
      x.terminal.connection.outbound.receiving = true →
      Turned x act ({ x with
        terminal := emitted (decoded x.terminal act) frame
        waiting := none
        sent := x.sent ++ [frame] }.tell .taken)

theorem perform_turned (x : Exchange) {act : Act} (h : isSpeaking act = true) :
    Turned x act (x.perform act) := by
  have hp := perform_performed (t := x.terminal) h
  unfold Exchange.perform
  generalize x.terminal.perform act = r at hp
  cases hp with
  | silent hw => simpa [fresh_decoded] using Turned.silent hw
  | refused =>
    have ht : Turned x act _ := .refused
    simpa [fresh_decoded] using ht
  | full hw _ => simpa [fresh_decoded] using Turned.full hw
  | done hw hr => simpa [fresh_emitted] using Turned.done hw hr

/-- Neither what was decoded nor what is to go out has changed. -/
def SameOutput (t u : Terminal) : Prop :=
  u.decoder = t.decoder ∧ u.connection.outbound = t.connection.outbound

/-- All that one event can do. -/
inductive Change (x : Exchange) : Exchange → Prop
  | nothing : Change x x
  | served {t : Terminal} : SameOutput x.terminal t → Change x { x with terminal := t }
  | told {t : Terminal} {e : Attempt.Event} : SameOutput x.terminal t → e ≠ .taken →
      e ≠ .refused → Change x ({ x with terminal := t }.tell e)
  | took {frame : Envelope} {rest : List Envelope} :
      x.terminal.connection.outbound.items = frame :: rest →
      Change x { x.mapConnection fun c => { c with outbound := { c.outbound with items := rest } }
        with seen := x.seen ++ [frame] }
  | stopped : Change x (x.mapConnection Connection.stopWriting)
  | waited {frame : Envelope} {y : Exchange} : x.waiting = some frame →
      Turned x (.send frame) y → Change x y
  | asked {act : Act} {y : Exchange} : x.waiting = none → x.attempt.act? = some act →
      Turned { x with calls := x.calls ++ [act] } act y → Change x y

theorem read_same (t : Terminal) : SameOutput t t.read.2 := by
  unfold Terminal.read
  repeat' split
  all_goals exact ⟨rfl, rfl⟩

theorem next_size_same (t : Terminal) : SameOutput t t.nextSize.2 := by
  unfold Terminal.nextSize
  repeat' split
  all_goals exact ⟨rfl, rfl⟩

theorem act_speaking {a : Attempt} {act : Act} (h : a.act? = some act) :
    isSpeaking act = true := by
  unfold Attempt.act? at h
  split at h <;> cases h <;> rfl

theorem turn_change (x : Exchange) : Change x x.turn := by
  unfold turn
  split
  · rename_i hw
    exact .waited hw (perform_turned x rfl)
  · rename_i hw ha
    exact .asked hw ha (perform_turned _ (act_speaking ha))
  · exact .nothing

theorem listen_change (x : Exchange) : Change x x.listen := by
  unfold Exchange.listen
  split
  · exact .nothing
  · split
    · rename_i hr
      have hs := read_same x.terminal
      rw [hr] at hs
      exact .told hs (by simp) (by simp)
    · exact .told ⟨rfl, rfl⟩ (by simp) (by simp)
    · exact .nothing

theorem measure_change (x : Exchange) : Change x x.measure := by
  unfold Exchange.measure
  split
  · exact .nothing
  · split
    · rename_i hr
      have hs := next_size_same x.terminal
      rw [hr] at hs
      exact .told hs (by simp) (by simp)
    · exact .told ⟨rfl, rfl⟩ (by simp) (by simp)
    · exact .nothing

theorem client_change (x : Exchange) (c : Exchange.Client) : Change x (x.client c) := by
  cases c with
  | take =>
    unfold client
    dsimp only
    split
    · rename_i hq
      unfold Session.Queue.poll at hq
      split at hq
      · rename_i hi
        cases hq
        exact .took hi
      · split at hq <;> cases hq
    · exact .nothing
  | stop => exact .stopped
  | keys | size | hangUp | cancel => exact .served ⟨rfl, rfl⟩

theorem step_change (x : Exchange) (e : Event) : Change x (x.step e) := by
  cases e with
  | process e =>
    simp only [step]
    split
    · rename_i he
      exact .told ⟨rfl, rfl⟩ (by rintro rfl; cases he) (by rintro rfl; cases he)
    · exact .nothing
  | turn => exact turn_change x
  | listen => exact listen_change x
  | measure => exact measure_change x
  | client c => exact client_change x c

/-- What no change breaks holds throughout. -/
theorem run_keeps {p : Exchange → Prop} (hp : ∀ {x y : Exchange}, p x → Change x y → p y)
    {x : Exchange} (h : p x) (events : List Event) : p (x.run events) := by
  induction events generalizing x with
  | nil => exact h
  | cons e events ih => exact ih (hp h (step_change x e))

/-- The attempt has been told of one thing, or of nothing. -/
def Told (x y : Exchange) : Prop :=
  (y.heard = x.heard ∧ y.attempt = x.attempt) ∨
    ∃ e, x.attempt.hears e = true ∧ y.heard = x.heard ++ [e] ∧ y.attempt = x.attempt.step e

theorem told_nothing {x y : Exchange} (hh : y.heard = x.heard) (ha : y.attempt = x.attempt) :
    Told x y :=
  .inl ⟨hh, ha⟩

theorem tell_told (x : Exchange) (e : Attempt.Event) : Told x (x.tell e) := by
  unfold Exchange.tell
  split
  · rename_i h
    exact .inr ⟨e, h, rfl, rfl⟩
  · exact told_nothing rfl rfl

theorem turned_told {x y : Exchange} {act : Act} (h : Turned x act y) : Told x y := by
  cases h with
  | full => exact told_nothing rfl rfl
  | refused => exact tell_told { x with terminal := _ } .refused
  | silent => exact tell_told { x with terminal := _, waiting := _ } .taken
  | done => exact tell_told { x with terminal := _, waiting := _, sent := _ } .taken

theorem change_told {x y : Exchange} (h : Change x y) : Told x y := by
  cases h with
  | nothing | served | took | stopped => exact told_nothing rfl rfl
  | told => exact tell_told { x with terminal := _ } _
  | waited _ ht => exact turned_told ht
  | asked _ _ ht =>
    have h := turned_told ht
    exact h

/-- Whatever the process, the clock and the client do, the attempt has a history. -/
theorem run_history (shell : String) (t : Terminal) (events : List Event) :
    History shell t.size ((start shell t).run events).heard
      ((start shell t).run events).attempt := by
  refine run_keeps (p := fun x => History shell t.size x.heard x.attempt) ?_ .start events
  intro x y h hc
  rcases change_told hc with ⟨hh, ha⟩ | ⟨e, he, hh, ha⟩
  · rw [hh, ha]
    exact h
  · rw [hh, ha]
    exact h.hear he

end PodConsole.Proofs.Exchanges
