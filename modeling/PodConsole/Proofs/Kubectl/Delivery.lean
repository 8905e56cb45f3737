import PodConsole.Proofs.Kubectl.Hearing
import PodConsole.Proofs.Kubectl.Output

namespace PodConsole.Proofs.Delivery
open Kubectl Exchange Moves Output Exchanges Sending Hearing
open Session (Act Terminal)
open Text (Bytes Decoder)
open Wire (Envelope)

/-- One list is the other, but for what was lost of it. -/
def UpTo {α : Type} (whole : Prop) (l m : List α) : Prop :=
  l.Sublist m ∧ (whole → l = m)

theorem UpTo.imp {α : Type} {p q : Prop} {l m : List α} (h : UpTo p l m) (hq : q → p) :
    UpTo q l m :=
  ⟨h.1, fun hw => h.2 (hq hw)⟩

theorem UpTo.append {α : Type} {p : Prop} {l m : List α} (h : UpTo p l m) (more : List α) :
    UpTo p (l ++ more) (m ++ more) :=
  ⟨h.1.append_right more, fun hw => by rw [h.2 hw]⟩

/-- What is cut off must have been nothing, or something was lost. -/
theorem UpTo.cut {α : Type} {p : Prop} {l m more : List α} (h : UpTo p (l ++ more) m) :
    UpTo (p ∧ more = []) l m := by
  refine ⟨(List.sublist_append_left l more).trans h.1, ?_⟩
  rintro ⟨hw, rfl⟩
  simpa using h.2 hw

/-- Nothing was refused, and no drain was cut off. -/
def Whole (log : List Attempt.Event) : Prop :=
  .refused ∉ log ∧ .drained ∉ log

theorem whole_before {log : List Attempt.Event} {e : Attempt.Event} (h : Whole (log ++ [e])) :
    Whole log ∧ e ≠ .refused ∧ e ≠ .drained := by
  simp only [Whole, List.mem_append, List.mem_singleton, not_or] at h
  exact ⟨⟨h.1.1, h.2.1⟩, Ne.symm h.1.2, Ne.symm h.2.2⟩

theorem act_none {a : Attempt} (h : a.stage.isHanding = false) : a.act? = none := by
  cases hs : a.stage <;> simp_all [Attempt.act?, Stage.isHanding]

theorem hears_handing {a : Attempt} {e : Attempt.Event} (h : a.hears e = true)
    (hs : a.stage.isHanding = true) : e = .taken ∨ e = .refused ∨ e = .drained := by
  cases e with
  | taken => exact .inl rfl
  | refused => exact .inr (.inl rfl)
  | drained => exact .inr (.inr rfl)
  | output | outputEnd | exit | lost | keys | size | left | settle | deadline =>
    cases hc : a.stage <;> simp [Attempt.hears, Stage.isHanding, Stage.isForwarding, hc] at h hs

structure Delivering (d : Decoder) (x : Exchange) : Prop where
  called : UpTo (Whole x.heard) (x.calls ++ due x) (asked x.attempt)
  waits : x.waiting ≠ none → x.attempt.stage.isHanding = true
  decoder : x.terminal.decoder = (speech d x.calls).2
  frames : UpTo (Whole x.heard) (x.sent ++ x.waiting.toList) ((speech d x.calls).1.map .stdout)

theorem delivering_start (shell : String) (t : Terminal) :
    Delivering t.decoder (.start shell t) where
  called := ⟨.slnil, fun _ => rfl⟩
  waits h := (h rfl).elim
  decoder := rfl
  frames := ⟨.slnil, fun _ => rfl⟩

variable {d : Decoder} {x : Exchange}

theorem Delivering.idle (h : Delivering d x) (hs : x.attempt.stage.isHanding = false) :
    due x = [] ∧ x.waiting = none := by
  have hw : x.waiting = none := by
    cases hw : x.waiting with
    | none => rfl
    | some frame =>
      have hh := h.waits (by simp [hw])
      rw [hs] at hh
      cases hh
  simp [due, hw, act_none hs]

/-- An attempt that hears something asks for the next thing, once all before it has been done. -/
theorem hear_delivering {e : Attempt.Event} {p : Prop} (he : x.attempt.hears e = true)
    (hp : Whole (x.heard ++ [e]) → p) (hc : UpTo p x.calls (asked x.attempt))
    (hd : x.terminal.decoder = (speech d x.calls).2)
    (hf : UpTo p x.sent ((speech d x.calls).1.map .stdout)) : Delivering d (x.tell e) := by
  rw [Exchange.tell, if_pos he]
  refine ⟨?_, fun hw => (hw rfl).elim, hd, ?_⟩
  · show UpTo _ (x.calls ++ (x.attempt.step e).act?.toList) (asked (x.attempt.step e))
    rw [move_asks (step_move he)]
    exact (hc.imp hp).append _
  · simpa using hf.imp hp

theorem Delivering.tell (h : Delivering d x) {e : Attempt.Event} (ht : e ≠ .taken)
    (hr : e ≠ .refused) : Delivering d (x.tell e) := by
  by_cases he : x.attempt.hears e = true
  · have idle (hw : Whole (x.heard ++ [e])) : due x = [] ∧ x.waiting = none := by
      apply h.idle
      cases hs : x.attempt.stage.isHanding with
      | false => rfl
      | true =>
        rcases hears_handing he hs with h | h | h
        · exact (ht h).elim
        · exact (hr h).elim
        · exact ((whole_before hw).2.2 h).elim
    refine hear_delivering he (fun hw => hw) (h.called.cut.imp ?_) h.decoder (h.frames.cut.imp ?_)
    · intro hw
      exact ⟨(whole_before hw).1, (idle hw).1⟩
    · intro hw
      exact ⟨(whole_before hw).1, by simp [(idle hw).2]⟩
  · rw [Exchange.tell, if_neg he]
    exact h

/-- Something is being done at the terminal, and the attempt waits for it. -/
structure Doing (d : Decoder) (x : Exchange) (act : Act) : Prop where
  handing : x.attempt.stage.isHanding = true
  called : UpTo (Whole x.heard) x.calls (asked x.attempt)
  decoder : (utter x.terminal.decoder act).2 = (speech d x.calls).2
  frames : UpTo (Whole x.heard) (x.sent ++ (word? x.terminal.decoder act).toList)
    ((speech d x.calls).1.map .stdout)

theorem Doing.turned {act : Act} {y : Exchange} (h : Doing d x act) (ht : Turned x act y) :
    Delivering d y := by
  have whole {log : List Attempt.Event} (hw : Whole (log ++ [.taken])) := (whole_before hw).1
  cases ht with
  | full hw =>
    exact ⟨by simpa [due] using h.called, fun _ => h.handing, h.decoder,
      by simpa [hw] using h.frames⟩
  | refused =>
    refine hear_delivering h.handing ?_ (h.called.imp False.elim) h.decoder
      (h.frames.cut.imp False.elim)
    intro hw
    exact hw.1 (by simp)
  | silent hw =>
    exact hear_delivering h.handing whole h.called h.decoder (by simpa [hw] using h.frames)
  | done hw =>
    exact hear_delivering h.handing whole h.called h.decoder (by simpa [hw] using h.frames)

theorem Delivering.waited (h : Delivering d x) {frame : Envelope} (hw : x.waiting = some frame) :
    Doing d x (.send frame) where
  handing := h.waits (by simp [hw])
  called := by simpa [due, hw] using h.called
  decoder := h.decoder
  frames := by simpa [word?, hw] using h.frames

/-- What an attempt asks is a text of its output, and what that completes goes out. -/
theorem act_asked {a : Attempt} {act : Act} (h : a.act? = some act) :
    a.stage.isHanding = true ∧ ∀ c : Decoder, word? c act = (utter c act).1.map .stdout := by
  unfold Attempt.act? at h
  split at h <;> cases h
  · rename_i hs
    exact ⟨by rw [hs]; rfl, fun _ => rfl⟩
  · rename_i hs
    exact ⟨by rw [hs]; rfl, fun _ => rfl⟩

theorem Delivering.asked (h : Delivering d x) {act : Act} (hw : x.waiting = none)
    (ha : x.attempt.act? = some act) : Doing d { x with calls := x.calls ++ [act] } act where
  handing := (act_asked ha).1
  called := by simpa [due, hw, ha] using h.called
  decoder := by simp [speech_append, speech, h.decoder]
  frames := by
    have hf := h.frames.append ((utter x.terminal.decoder act).1.map Envelope.stdout).toList
    rw [hw, Option.toList_none, List.append_nil] at hf
    simpa [speech_append, speech, (act_asked ha).2, h.decoder, Option.toList_map] using hf

theorem Delivering.change {y : Exchange} (h : Delivering d x) (hc : Change x y) :
    Delivering d y := by
  cases hc with
  | nothing | took | stopped => exact ⟨h.called, h.waits, h.decoder, h.frames⟩
  | served hs => exact ⟨h.called, h.waits, hs.1.trans h.decoder, h.frames⟩
  | @told t _ hs ht hr =>
    have hu : Delivering d { x with terminal := t } :=
      ⟨h.called, h.waits, hs.1.trans h.decoder, h.frames⟩
    exact hu.tell ht hr
  | waited hw ht => exact (h.waited hw).turned ht
  | asked hw ha ht => exact (h.asked hw ha).turned ht

theorem run_delivering (shell : String) (t : Terminal) (events : List Event) :
    Delivering t.decoder ((start shell t).run events) :=
  run_keeps Delivering.change (delivering_start shell t) events

/-- The bytes that the terminal was given to write. -/
def passed (calls : List Act) : Bytes :=
  calls.flatMap fun
    | .write bytes => bytes
    | .read | .nextSize | .flush | .toast _ | .send _ => []

theorem passed_asked (a : Attempt) : passed (asked a) = a.written.flatten := by
  have hw : passed (a.written.map .write) = a.written.flatten := by
    simp [passed, List.flatMap_map]
  have ha : passed (asked a) = passed (a.written.map .write) := by
    unfold asked
    split <;> simp [passed]
  rw [ha, hw]

/-- The output that the process brings in an event, if the attempt takes it. -/
def brought (x : Exchange) : Exchange.Event → Bytes
  | .process e => if x.attempt.hears e then outputOf e else []
  | .turn | .listen | .measure | .client _ => []

/-- All output that the process brings is received, and no other. -/
theorem step_received (x : Exchange) (e : Exchange.Event) :
    received (x.step e).heard = received x.heard ++ brought x e := by
  have hsome {n : Attempt.Event} (hn : news? x e = some n) :
      brought x e = if x.attempt.hears n then outputOf n else [] := by
    cases e with
    | process p =>
      obtain ⟨-, rfl⟩ := Option.ite_some_none_eq_some.mp hn
      rfl
    | turn => rcases turn_news hn with rfl | rfl <;> exact (ite_self _).symm
    | listen => obtain ⟨-, ⟨_, rfl⟩ | rfl⟩ := listen_news hn <;> exact (ite_self _).symm
    | measure => obtain ⟨-, ⟨_, rfl⟩ | rfl⟩ := measure_news hn <;> exact (ite_self _).symm
    | client => cases hn
  have hnone (hn : news? x e = none) : brought x e = [] := by
    cases e with
    | process p =>
      cases p with
      | keys | size | left | taken | refused => exact ite_self _
      | output | outputEnd | exit | lost | settle | deadline | drained => cases hn
    | turn | listen | measure | client => rfl
  rw [step_heard]
  cases hn : news? x e with
  | none =>
    rw [hnone hn]
    simp
  | some n =>
    rw [hsome hn]
    cases hh : x.attempt.hears n <;> simp [Option.filter, hh, received_snoc]

/-- What was received is all output that the process has brought, and it is what was passed to the
terminal and after it what is held back; nothing is once the shell counts as up. An attempt that
ended well has passed on everything and has flushed, and its frames read as all of the output
does. -/
theorem output_is_conserved (shell : String) (t : Terminal) (events : List Event) :
    let x := (start shell t).run events
    received x.heard = along brought (start shell t) events ∧
    x.attempt.written.flatten ++ x.attempt.warmup.output = received x.heard ∧
    (x.attempt.warmup.live = true → x.attempt.warmup.output = []) ∧
    (Whole x.heard → x.attempt.stage.isHanding = false →
      passed x.calls ++ x.attempt.warmup.output = received x.heard) ∧
    (Whole x.heard → x.attempt.stage = .over (.ok ()) →
      passed x.calls = received x.heard ∧ x.calls = x.attempt.written.map .write ++ [.flush] ∧
      ∃ texts, x.sent = texts.map .stdout ∧
        String.join texts = Text.Utf8.lossy (t.decoder.pending ++ received x.heard)) := by
  intro x
  have hk : Kept (received x.heard) x.attempt := history_kept (run_history shell t events)
  have hd : Delivering t.decoder x := run_delivering shell t events
  have called (hw : Whole x.heard) (hs : x.attempt.stage.isHanding = false) :
      x.calls = asked x.attempt := by
    simpa [(hd.idle hs).1] using hd.called.2 hw
  refine ⟨run_heard step_received _ events, hk.conserved, hk.live, ?_, ?_⟩
  · intro hw hs
    rw [called hw hs, passed_asked]
    exact hk.conserved
  · intro hw hs
    have hi : x.attempt.stage.isHanding = false := by rw [hs]; rfl
    have hc : x.calls = x.attempt.written.map .write ++ [.flush] := by
      rw [called hw hi, asked, hs]
    have hr : x.attempt.written.flatten = received x.heard := by
      simpa [hk.closing (.inr (.inr hs))] using hk.conserved
    refine ⟨by rw [called hw hi, passed_asked, hr], hc, (speech t.decoder x.calls).1, ?_, ?_⟩
    · simpa [(hd.idle hi).2] using hd.frames.2 hw
    · rw [hc, speech_flushed, hr]

def splitCharacter : List Event :=
  [.process (.output [0xC3]), .process (.output [0xA9]), .process .outputEnd, .process (.exit 0),
    .turn, .turn]

/-- A shell writes one character in two pieces, nothing else, and exits well. -/
def splitRun : Exchange :=
  let room : Session.Connection := ⟨⟨4, [], true, true⟩, ⟨4, [], true, true⟩, false⟩
  (start "sh" { id := "t", connection := room, sizes := .unused }).run splitCharacter

theorem split_character_conserved :
    Whole splitRun.heard ∧ splitRun.attempt.stage = .over (.ok ()) ∧
      passed splitRun.calls = [0xC3, 0xA9] ∧
      ∃ texts, splitRun.sent = texts.map .stdout ∧ String.join texts = "é" := by
  have hheard : splitRun.heard =
      [.output [0xC3], .output [0xA9], .outputEnd, .exit 0, .taken, .taken] := by rfl
  have hs : splitRun.attempt.stage = .over (.ok ()) := by rfl
  have hw : Whole splitRun.heard := by
    rw [hheard]
    exact ⟨by decide, by decide⟩
  have hreceived : received splitRun.heard = [0xC3, 0xA9] := by
    rw [hheard]
    rfl
  have htext : Text.Utf8.lossy (received splitRun.heard) = "é" := by
    rw [hreceived]
    rfl
  obtain ⟨-, -, -, -, ended⟩ := output_is_conserved "sh" _ splitCharacter
  obtain ⟨hpassed, -, texts, hsent, hjoin⟩ := ended hw hs
  exact ⟨hw, hs, hpassed.trans hreceived, texts, hsent, hjoin.trans htext⟩

end PodConsole.Proofs.Delivery
