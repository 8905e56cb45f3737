import PodConsole.Kubectl.Launch
import PodConsole.Proofs.Exec.Choosing
import PodConsole.Proofs.Kubectl.Exchanges

namespace PodConsole.Proofs.Launching
open Exec Kubectl Exchange Exchanges Choosing
open Session (Terminal)

/-- What no event breaks holds throughout. -/
theorem launch_keeps {p : Launch → Prop}
    (hp : ∀ {l : Launch} (e : Launch.Event), p l → p (l.step e)) {l : Launch} (h : p l)
    (events : List Launch.Event) : p (l.run events) := by
  induction events generalizing l with
  | nil => exact h
  | cons e events ih => exact ih (hp e h)

/-- How an attempt ended. -/
def outcome (x : Exchange) : Except Failure Unit :=
  match x.attempt.stage with
  | .over result => result
  | .forwarding | .writing _ _ | .draining | .flushing => .ok ()

/-- Every attempt ends as the next of some that were made before. -/
def replay (_ : Shell) :
    List (Except Failure Unit) → Except Failure Unit × List (Except Failure Unit)
  | [] => (.ok (), [])
  | result :: rest => (result, rest)

structure Retraced (hint : Option String) (l : Launch) : Prop where
  past : ∀ rest, Exec.attach replay hint (l.past.map outcome ++ rest) = l.attachment.run replay rest
  result : ∀ r, l.result = some r → ∃ result, l.current.attempt.stage = .over result ∧
    l.attachment.conclude result = .over r

theorem change_over {x y : Exchange} {result : Except Failure Unit} (hc : Change x y)
    (hs : x.attempt.stage = .over result) : y.attempt.stage = .over result := by
  rcases change_told hc with ⟨_, ha⟩ | ⟨e, he, _, _⟩
  · rw [ha, hs]
  · cases e <;>
      simp [Attempt.hears, hs, Stage.isForwarding, Stage.isDraining, Stage.isHanding] at he

variable {hint : Option String} {l : Launch}

theorem Retraced.step (h : Retraced hint l) (e : Launch.Event) :
    Retraced hint (l.step e) := by
  cases e with
  | exchange e =>
    refine ⟨h.past, fun r hr => ?_⟩
    obtain ⟨result, hs, hc⟩ := h.result r hr
    exact ⟨result, change_over (step_change l.current e) hs, hc⟩
  | unable reason =>
    simp only [Launch.step, Launch.unable]
    split
    · rename_i hg
      refine ⟨h.past, fun r hr => ?_⟩
      obtain ⟨result, hs, _⟩ := h.result r hr
      simp [hs, Stage.isForwarding] at hg
    · exact h
  | conclude =>
    simp only [Launch.step, Launch.conclude]
    split
    · rename_i result hs
      split
      · rename_i r hc
        refine ⟨h.past, fun r' hr => ?_⟩
        cases hr
        exact ⟨result, hs, hc⟩
      · rename_i next hn
        refine ⟨fun rest => ?_, fun r hr => ?_⟩
        · have ho : outcome l.current = result := by rw [outcome, hs]
          have hp := h.past (result :: rest)
          rw [run_again rfl hn] at hp
          simpa [Launch.attempts, ho] using hp
        · obtain ⟨_, hs', hc⟩ := h.result r hr
          rw [hs] at hs'
          cases hs'
          rw [hn] at hc
          cases hc
    · exact h

/-- The attempts are those of the choice of a shell, and so is the result. -/
theorem launch_attaches (hint : Option String) (t : Terminal) (events : List Launch.Event)
    {r : Except Failure Shell} (h : ((Launch.start hint t).run events).result = some r) :
    Exec.attach replay hint (((Launch.start hint t).run events).attempts.map outcome) =
      (r, []) := by
  have hs : Retraced hint (Launch.start hint t) := ⟨fun _ => rfl, fun _ hr => by cases hr⟩
  have hl := launch_keeps (p := Retraced hint) (fun e h => h.step e) hs events
  generalize (Launch.start hint t).run events = l at h hl
  obtain ⟨result, ho, hc⟩ := hl.result r h
  have hm : outcome l.current = result := by rw [outcome, ho]
  rw [Launch.attempts, List.map_append, hl.past, List.map_singleton, hm]
  exact run_over rfl hc

end PodConsole.Proofs.Launching
