import PodConsole.Gateway.Host
import PodConsole.Proofs.Kubectl.Exchanges

namespace PodConsole.Proofs.Hearing
open Kubectl Exchange Sending Exchanges
open Session (Act Answer Terminal)

/-- What an attempt learns from an answer of its terminal. -/
def told? : Answer → Option Attempt.Event
  | .keys bytes => some (.keys bytes)
  | .size z => some (.size z)
  | .ended => some .left
  | .done => some .taken
  | .refused => some .refused
  | .pending | .full _ => none

/-- What there is to hear in an event, from the process or from the terminal. -/
def news? (x : Exchange) : Exchange.Event → Option Attempt.Event
  | .process e => if isFromProcess e then some e else none
  | e => (x.act? e).bind fun act => told? (x.terminal.perform act).1

/-- The terminal has done `act`, and of the news that was heard which the attempt attends to. -/
structure Informed (x : Exchange) (act : Option Act) (news : Option Attempt.Event)
    (y : Exchange) : Prop where
  heard : y.heard = x.heard ++ (news.filter x.attempt.hears).toList
  terminal : y.terminal = act.elim x.terminal fun act => (x.terminal.perform act).2

variable {x y : Exchange} {act : Act}

theorem Informed.nothing (x : Exchange) : Informed x none none x :=
  ⟨(List.append_nil _).symm, rfl⟩

theorem tell_heard (x : Exchange) (e : Attempt.Event) :
    (x.tell e).heard = x.heard ++ ((some e).filter x.attempt.hears).toList ∧
      (x.tell e).terminal = x.terminal := by
  unfold Exchange.tell
  cases h : x.attempt.hears e <;> simp [Option.filter, h]

theorem Informed.told {act : Option Act} {e : Attempt.Event} (hh : y.heard = x.heard)
    (ha : y.attempt = x.attempt)
    (ht : y.terminal = act.elim x.terminal fun act => (x.terminal.perform act).2) :
    Informed x act (some e) (y.tell e) := by
  obtain ⟨hheard, hterminal⟩ := tell_heard y e
  exact ⟨by rw [hheard, hh, ha], hterminal.trans ht⟩

theorem perform_informed (hs : isSpeaking act = true) (hh : y.heard = x.heard)
    (ha : y.attempt = x.attempt) (ht : y.terminal = x.terminal) :
    Informed x (some act) (told? (x.terminal.perform act).1) (y.perform act) := by
  have hp := perform_performed (t := x.terminal) hs
  unfold Exchange.perform
  rw [ht]
  cases hr : x.terminal.perform act with
  | mk answer t =>
    have hterm : t = (some act).elim x.terminal fun act => (x.terminal.perform act).2 := by
      simp [hr]
    rw [hr] at hp
    cases hp with
    | silent | done | refused => exact .told hh ha hterm
    | full => exact ⟨by simp [told?, hh], hterm⟩

theorem turn_informed (x : Exchange) : Informed x (x.act? .turn) (news? x .turn) x.turn := by
  simp only [Exchange.turn, news?, Exchange.act?]
  cases hw : x.waiting with
  | some frame => exact perform_informed rfl rfl rfl rfl
  | none =>
    cases ha : x.attempt.act? with
    | some act =>
      have h := perform_informed (x := x) (y := { x with calls := x.calls ++ [act] })
        (act_speaking ha) rfl rfl rfl
      rwa [hw] at h
    | none => exact .nothing x

/-- Somebody looked for the next keystrokes or the next size. -/
inductive Looked (t : Terminal) (wanted : Answer → Prop) : Answer × Terminal → Prop
  | found {answer : Answer} {u : Terminal} : wanted answer → Looked t wanted (answer, u)
  | nothing : Looked t wanted (.pending, t)
  | ended : Looked t wanted (.ended, t)

theorem read_looked (t : Terminal) : Looked t (fun r => ∃ bytes, r = .keys bytes) t.read := by
  unfold Terminal.read
  split
  · exact .ended
  · split
    · exact .found ⟨_, rfl⟩
    · exact .nothing
    · exact .ended

theorem next_size_looked (t : Terminal) : Looked t (fun r => ∃ z, r = .size z) t.nextSize := by
  unfold Terminal.nextSize
  split
  · exact .ended
  · split
    · exact .found ⟨_, rfl⟩
    · exact .nothing
    · exact .ended

/-- An attempt that has looked in vain goes on as it was. -/
theorem Informed.vain (h : x.terminal.perform act = (.pending, x.terminal)) :
    Informed x (some act) (told? (x.terminal.perform act).1) x where
  heard := by simp [h, told?]
  terminal := by simp [h]

/-- An attempt was told of what it has looked for. -/
theorem Informed.looked {r : Answer} {u : Terminal} {e : Attempt.Event}
    (h : x.terminal.perform act = (r, u)) (hr : told? r = some e) :
    Informed x (some act) (told? (x.terminal.perform act).1) ({ x with terminal := u }.tell e) := by
  have ht : told? (x.terminal.perform act).1 = some e := by rw [h, hr]
  rw [ht]
  exact .told rfl rfl (by simp [h])

theorem listen_informed (x : Exchange) :
    Informed x (x.act? .listen) (news? x .listen) x.listen := by
  simp only [Exchange.listen, news?, Exchange.act?]
  cases x.attempt.stage.isForwarding with
  | false => exact .nothing x
  | true =>
    have hl := read_looked x.terminal
    simp only [Bool.not_true, Bool.false_eq_true, if_false, if_true]
    generalize hr : x.terminal.read = r at hl
    cases hl with
    | found hk =>
      obtain ⟨bytes, rfl⟩ := hk
      exact .looked hr rfl
    | nothing => exact .vain hr
    | ended => exact .looked hr rfl

theorem measure_informed (x : Exchange) :
    Informed x (x.act? .measure) (news? x .measure) x.measure := by
  simp only [Exchange.measure, news?, Exchange.act?]
  cases x.attempt.stage.isForwarding with
  | false => exact .nothing x
  | true =>
    have hl := next_size_looked x.terminal
    simp only [Bool.not_true, Bool.false_eq_true, if_false, if_true]
    generalize hr : x.terminal.nextSize = r at hl
    cases hl with
    | found hk =>
      obtain ⟨z, rfl⟩ := hk
      exact .looked hr rfl
    | nothing => exact .vain hr
    | ended => exact .looked hr rfl

/-- Whatever the process puts out and the terminal answers is heard at once, unless the attempt does
not attend to it, and the terminal does nothing else. -/
theorem step_informed (x : Exchange) {e : Exchange.Event} (hc : Exchange.isClient e = false) :
    Informed x (x.act? e) (news? x e) (x.step e) := by
  cases e with
  | client c => cases hc
  | process e =>
    simp only [Exchange.step, news?]
    split
    · exact .told rfl rfl rfl
    · exact .nothing x
  | turn => exact turn_informed x
  | listen => exact listen_informed x
  | measure => exact measure_informed x

theorem client_heard (x : Exchange) (c : Exchange.Client) : (x.client c).heard = x.heard := by
  cases c with
  | take =>
    unfold client
    dsimp only
    split <;> rfl
  | keys | size | hangUp | cancel | stop => rfl

/-- All that a step adds to what was heard. -/
theorem step_heard (x : Exchange) (e : Exchange.Event) :
    (x.step e).heard = x.heard ++ ((news? x e).filter x.attempt.hears).toList := by
  cases e with
  | client c => exact (client_heard x c).trans (List.append_nil _).symm
  | process | turn | listen | measure => exact (step_informed x rfl).heard

/-- A turn of the terminal brings nothing but its word on what it was given. -/
theorem turn_news {e : Attempt.Event} (h : news? x .turn = some e) : e = .taken ∨ e = .refused := by
  obtain ⟨act, ha, hr⟩ := Option.bind_eq_some_iff.mp h
  have hs : isSpeaking act = true := by
    simp only [Exchange.act?] at ha
    split at ha
    · cases ha
      rfl
    · exact act_speaking ha
  have hp := perform_performed (t := x.terminal) hs
  generalize x.terminal.perform act = r at hp hr
  cases hp with
  | silent | done => exact .inl (Option.some.inj hr).symm
  | refused => exact .inr (Option.some.inj hr).symm
  | full => cases hr

theorem Looked.told {t : Terminal} {wanted : Answer → Prop} {r : Answer × Terminal}
    {e : Attempt.Event} (h : Looked t wanted r) (he : told? r.1 = some e) :
    wanted r.1 ∨ e = .left := by
  cases h with
  | found hw => exact .inl hw
  | nothing => cases he
  | ended => exact .inr (Option.some.inj he).symm

theorem listen_news {e : Attempt.Event} (h : news? x .listen = some e) :
    x.attempt.stage.isForwarding = true ∧ ((∃ bytes, e = .keys bytes) ∨ e = .left) := by
  obtain ⟨act, ha, hr⟩ := Option.bind_eq_some_iff.mp h
  obtain ⟨hf, rfl⟩ := Option.ite_some_none_eq_some.mp ha
  refine ⟨hf, ((read_looked x.terminal).told hr).imp_left ?_⟩
  rintro ⟨bytes, hk⟩
  rw [Terminal.perform, hk] at hr
  exact ⟨bytes, (Option.some.inj hr).symm⟩

theorem measure_news {e : Attempt.Event} (h : news? x .measure = some e) :
    x.attempt.stage.isForwarding = true ∧ ((∃ z, e = .size z) ∨ e = .left) := by
  obtain ⟨act, ha, hr⟩ := Option.bind_eq_some_iff.mp h
  obtain ⟨hf, rfl⟩ := Option.ite_some_none_eq_some.mp ha
  refine ⟨hf, ((next_size_looked x.terminal).told hr).imp_left ?_⟩
  rintro ⟨z, hz⟩
  rw [Terminal.perform, hz] at hr
  exact ⟨z, (Option.some.inj hr).symm⟩

/-- An attempt that looks for something attends to whatever it finds. -/
theorem looked_hears {e : Exchange.Event} {n : Attempt.Event} (hl : e = .listen ∨ e = .measure)
    (h : news? x e = some n) : x.attempt.hears n = true := by
  rcases hl with rfl | rfl
  · obtain ⟨hf, ⟨_, rfl⟩ | rfl⟩ := listen_news h <;> exact hf
  · obtain ⟨hf, ⟨_, rfl⟩ | rfl⟩ := measure_news h <;> exact hf

section
variable {α : Type}

/-- Keystrokes and sizes are heard as the terminal gives them out: `f` finds them in what was heard,
and `g` in the answers of the terminal. -/
theorem step_given {f : Attempt.Event → Option α} {g : Answer → Option α}
    (hg : ∀ r, (told? r).bind f = g r)
    (hprocess : ∀ n, isFromProcess n = true → f n = none) (htaken : f .taken = none)
    (hrefused : f .refused = none) (x : Exchange) (e : Exchange.Event) :
    (x.step e).heard.filterMap f = x.heard.filterMap f ++
      ((x.act? e).bind fun act => g (x.terminal.perform act).1).toList := by
  have hgiven : (news? x e).bind f = (x.act? e).bind fun act => g (x.terminal.perform act).1 := by
    cases e with
    | process p =>
      cases hp : isFromProcess p with
      | false => simp [news?, Exchange.act?, hp]
      | true => simp [news?, Exchange.act?, hp, hprocess p hp]
    | client => rfl
    | turn | listen | measure =>
      show ((x.act? _).bind fun act => told? (x.terminal.perform act).1).bind f = _
      simp only [Option.bind_assoc, hg]
  have attends {n : Attempt.Event} (hn : news? x e = some n) :
      x.attempt.hears n = true ∨ f n = none := by
    cases e with
    | process p =>
      obtain ⟨hp, rfl⟩ := Option.ite_some_none_eq_some.mp hn
      exact .inr (hprocess p hp)
    | turn => rcases turn_news hn with rfl | rfl <;> exact .inr ‹_›
    | listen => exact .inl (looked_hears (.inl rfl) hn)
    | measure => exact .inl (looked_hears (.inr rfl) hn)
    | client => cases hn
  rw [step_heard, List.filterMap_append, ← hgiven]
  cases hn : news? x e with
  | none => rfl
  | some n =>
    rw [Option.bind_some]
    cases hfn : f n with
    | none => cases hh : x.attempt.hears n <;> simp [Option.filter, hh, hfn]
    | some a =>
      have hh : x.attempt.hears n = true := (attends hn).resolve_right (by simp [hfn])
      simp [Option.filter, hh, hfn]

/-- What is seen along a run. -/
def along (look : Exchange → Exchange.Event → List α) (x : Exchange) : List Exchange.Event → List α
  | [] => []
  | e :: rest => look x e ++ along look (x.step e) rest

/-- What each step adds to a part of what was heard, a run adds in order. -/
theorem run_heard {part : List Attempt.Event → List α}
    {look : Exchange → Exchange.Event → List α}
    (h : ∀ x e, part (Exchange.step x e).heard = part x.heard ++ look x e) (x : Exchange)
    (events : List Exchange.Event) :
    part (x.run events).heard = part x.heard ++ along look x events := by
  induction events generalizing x with
  | nil => exact (List.append_nil _).symm
  | cons e rest ih =>
    have hrest : part (x.run (e :: rest)).heard = _ := ih (x.step e)
    rw [hrest, h, along, List.append_assoc]

end

end PodConsole.Proofs.Hearing
