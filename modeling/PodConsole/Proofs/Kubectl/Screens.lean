import PodConsole.Proofs.Kubectl.Hearing
import PodConsole.Proofs.Session.Sizes

namespace PodConsole.Proofs.Screens
open Kubectl Moves Sending Exchanges Hearing Sizes
open Session (Act Answer Terminal)
open Wire (Size)

variable {a b : Attempt} {x : Exchange} {l : Launch}

def size? : Attempt.Event → Option Size
  | .size z => some z
  | _ => none

/-- The sizes that an attempt has heard of, in order. -/
def sizesHeard (log : List Attempt.Event) : List Size :=
  log.filterMap size?

theorem sizes_heard_snoc (log : List Attempt.Event) (e : Attempt.Event) :
    sizesHeard (log ++ [e]) = sizesHeard log ++ (size? e).toList := by
  cases h : size? e <;> simp [sizesHeard, h]

theorem concluded_screen (h : Concluded a b) : b.screen = a.screen := by
  cases h <;> rfl

/-- No move but that on a size touches the screen. -/
theorem move_screen {e : Attempt.Event} (h : Move a e b) :
    b.screen = latest a.screen (size? e).toList := by
  cases h with
  | judged code hs hb => exact concluded_screen (a := { a with code }) hb
  | drained hs he hb | cut hs he hb => rcases he with rfl | rfl <;> exact concluded_screen hb
  | flush hs he | flushed hs he => rcases he with rfl | rfl <;> rfl
  | relay | drain | gather | speak | speakLate | quiet | settle | outputEnd | exit | lost | left
  | gone | deadline | hold | hand | size | forwarded | released | written => rfl

/-- The sizes that the terminal gives out when it is asked for something. -/
def givenFor (t : Terminal) (act : Option Act) : List Size :=
  (act.bind fun act => answered? (t.perform act).1).toList

/-- The sizes that the terminal gives out in an event. -/
def given (x : Exchange) (e : Exchange.Event) : List Size :=
  givenFor x.terminal (x.act? e)

/-- The terminal has done `act`, and what it gave out was heard. -/
structure Served (x : Exchange) (act : Option Act) (y : Exchange) : Prop where
  heard : sizesHeard y.heard = sizesHeard x.heard ++ givenFor x.terminal act
  terminal : y.terminal = act.elim x.terminal fun act => (x.terminal.perform act).2

/-- Whatever the terminal gives out is heard, and the terminal does nothing else. -/
theorem exchange_served (x : Exchange) {e : Exchange.Event} (hc : Exchange.isClient e = false) :
    Served x (x.act? e) (x.step e) where
  heard := by
    refine step_given (f := size?) (g := answered?) (fun r => ?_) (fun n hn => ?_) rfl rfl x e
    · cases r <;> rfl
    · cases n <;> first | rfl | cases hn
  terminal := (step_informed x hc).terminal

theorem exchange_screen (x : Exchange) {e : Exchange.Event} (hc : Exchange.isClient e = false) :
    (x.step e).attempt.screen = latest x.attempt.screen (given x e) := by
  have hs : _ = _ ++ given x e := (exchange_served x hc).heard
  rcases change_told (step_change x e) with ⟨hh, ha⟩ | ⟨news, hhears, hh, ha⟩
  · rw [hh, List.self_eq_append_right] at hs
    rw [ha, hs]
    rfl
  · rw [hh, sizes_heard_snoc] at hs
    rw [ha, move_screen (step_move hhears), List.append_cancel_left hs]

theorem exchange_size (x : Exchange) {e : Exchange.Event} (hc : Exchange.isClient e = false) :
    (x.step e).terminal.size = latest x.terminal.size (given x e) := by
  rw [(exchange_served x hc).terminal, given]
  cases x.act? e with
  | none => rfl
  | some act => exact (perform_measured x.terminal act).size

/-- The sizes that the attempts have heard of, one attempt after the other. -/
def sizesTold (l : Launch) : List Size :=
  l.attempts.flatMap fun x => sizesHeard x.heard

/-- The sizes that the terminal gives out in an event. -/
def givenOut (l : Launch) : Launch.Event → List Size
  | .exchange e => given l.current e
  | .unable _ | .conclude => []

/-- The process that runs has the last size that any attempt has heard of for its screen, and the
next one will, as the terminal keeps it. -/
structure Fitted (l : Launch) : Prop where
  terminal : l.current.terminal.size = latest {} (sizesTold l)
  current : l.current.attempt.screen = latest {} (sizesTold l)
  past : ∀ x ∈ l.past, x.attempt.screen = {} ∨ x.attempt.screen ∈ sizesTold l

theorem Fitted.known (h : Fitted l) {x : Exchange} (hx : x ∈ l.attempts) :
    x.attempt.screen = {} ∨ x.attempt.screen ∈ sizesTold l := by
  rcases List.mem_append.mp hx with hx | hx
  · exact h.past x hx
  · rw [List.mem_singleton.mp hx, h.current]
    exact latest_mem _ _

theorem fitted_start (hint : Option String) {t : Terminal} (h : t.size = {}) :
    sizesTold (.start hint t) = [] ∧ Fitted (.start hint t) := by
  have hs : sizesTold (.start hint t) = [] := rfl
  refine ⟨hs, ?_, ?_, fun x hx => (List.not_mem_nil hx).elim⟩
  · rw [hs]
    exact h
  · rw [hs]
    exact h

theorem sizes_told_eq (l : Launch) : sizesTold l =
    (l.past.flatMap fun x => sizesHeard x.heard) ++ sizesHeard l.current.heard := by
  simp [sizesTold, Launch.attempts]

theorem sizes_told_onto (l : Launch) (t : Terminal) : sizesTold (l.onto t) = sizesTold l := by
  rw [sizes_told_eq, sizes_told_eq]
  rfl

theorem Fitted.onto (h : Fitted l) {t : Terminal} (ht : t.size = latest {} (sizesTold l)) :
    Fitted (l.onto t) where
  terminal := by rw [sizes_told_onto]; exact ht
  current := by rw [sizes_told_onto]; exact h.current
  past x hx := by rw [sizes_told_onto]; exact h.past x hx

/-- The attempts hear of all sizes that the terminal gives out. -/
theorem launch_step (l : Launch) {e : Launch.Event} (hc : Launch.isClient e = false) :
    sizesTold (l.step e) = sizesTold l ++ givenOut l e := by
  cases e with
  | exchange e =>
    rw [sizes_told_eq, sizes_told_eq l, List.append_assoc]
    exact congrArg _ (exchange_served l.current hc).heard
  | unable reason =>
    rw [givenOut, List.append_nil]
    simp only [Launch.step, Launch.unable]
    split
    · rw [sizes_told_eq, sizes_told_eq l]
    · rfl
  | conclude =>
    rw [givenOut, List.append_nil]
    simp only [Launch.step, Launch.conclude]
    split
    · split
      · rfl
      · rw [sizes_told_eq]
        exact List.append_nil _
    · rfl

theorem Fitted.step (h : Fitted l) {e : Launch.Event} (hc : Launch.isClient e = false) :
    Fitted (l.step e) := by
  have hs := launch_step l hc
  cases e with
  | exchange e =>
    simp only [givenOut] at hs
    refine ⟨?_, ?_, fun x hx => ?_⟩
    · rw [hs, latest_append, ← h.terminal]
      exact exchange_size l.current hc
    · rw [hs, latest_append, ← h.current]
      exact exchange_screen l.current hc
    · rw [hs]
      exact (h.past x hx).imp_right (List.mem_append_left _)
  | unable reason =>
    simp only [givenOut, List.append_nil] at hs
    simp only [Launch.step, Launch.unable] at hs ⊢
    split at hs
    · rename_i hu
      rw [if_pos hu]
      exact ⟨hs ▸ h.terminal, hs ▸ h.current, fun x hx => hs ▸ h.past x hx⟩
    · rename_i hu
      rwa [if_neg hu]
  | conclude =>
    simp only [givenOut, List.append_nil] at hs
    simp only [Launch.step, Launch.conclude] at hs ⊢
    split
    · rename_i result ho
      rw [ho] at hs
      split
      · exact ⟨h.terminal, h.current, h.past⟩
      · rename_i next hnext
        simp only [hnext] at hs
        -- the next process opens its screen by what the terminal has kept
        exact ⟨hs ▸ h.terminal, hs ▸ h.terminal, fun x hx => hs ▸ h.known hx⟩
    · exact h

end PodConsole.Proofs.Screens
