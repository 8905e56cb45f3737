import PodConsole.Proofs.Session.Roster
import PodConsole.Proofs.Session.Vigils
import PodConsole.Rehearsal.House

namespace PodConsole.Proofs.Houses
open Session Rehearsal Roster Attending Vigils

variable {r : Registry} {n : Nat} {s u : Seat}

/-- The session is there, and the registry may have closed it. -/
def Stays (r : Registry) (n : Nat) (u : Seat) : Prop :=
  r.seat? n = some u ∨ r.seat? n = some (closedSeat u)

theorem close_stays (h : r.seat? n = some s) (id : String) : Stays (r.close id).2 n s := by
  cases he : r.entry? id with
  | none =>
    rw [close_unknown he]
    exact .inl h
  | some m =>
    cases hm : r.seat? m with
    | none =>
      have hc : (r.close id).2 = strike r id := by
        have hm' : { r with roster := r.roster.filter fun e => e.1 ≠ id }.seat? m = none := hm
        simp only [Registry.close, he, hm']
        rfl
      rw [hc]
      exact .inl h
    | some u =>
      have hu : (strike r id).seat? m = some u := hm
      rw [close_known he hm, Stays, seat_set hu, seat_strike]
      by_cases hn : n = m
      · subst hn
        cases h.symm.trans hm
        exact .inr (if_pos rfl)
      · exact .inl (by rw [if_neg hn, h])

theorem update_stays (h : r.seat? n = some s) (f : Seat → Seat) :
    Stays (r.update n f) n (f s) := by
  by_cases hf : (f s).isOver = true → s.isOver = true
  · rw [update_on h hf]
    exact .inl (seat_set_self h _)
  · rw [Classical.not_imp] at hf
    rw [update_over h (by simpa using hf.2) hf.1]
    exact close_stays (seat_set_self h _) _

/-- A session in a house, for the one who waits in it. -/
def vigil (h : House) (s : Seat) : Vigil where
  seat := s
  clock := h.gateway.clock
  shutdown := h.gateway.shutdown

theorem turn_perform {σ : Type} {p p' : Process} {now : Nat} {size : Wire.Size}
    {perform : Act → Answer × σ} {answer : Answer} {x : σ}
    (h : p.turn? now size perform = some (answer, p', x)) :
    ∃ act, x = (perform act).2 := by
  obtain ⟨act, -, ha⟩ := List.exists_of_findSome?_eq_some h
  refine ⟨act, ?_⟩
  generalize perform act = done at ha
  split at ha
  · cases ha
  · split at ha
    · cases ha
    · cases ha
      rfl
  · cases ha
    rfl

/-- A look that leaves a shell running leaves everything as it was. -/
theorem look_running {v : Vigil} {a : Exec.Attachment} (hl : v.seat.lifetime = .running a)
    (hr : v.look.seat.lifetime.runs = true) : v.look.seat = v.seat := by
  have ha := look_attended v
  generalize v.look.seat = t at ha hr
  generalize v.shutdown = shut at ha
  cases ha with
  | busy => rfl
  | stopped _ hp =>
    rw [outcome_runs hp.outcome] at hr
    cases hr
  | launched hl' | turnedAway hl' | abandoned hl' | shutDown hl' | timedOut hl' | patient hl'
  | parting hl' | gone hl' => cases hl.symm.trans hl'

/-- A house looks first, and lets what still runs get on with its work. -/
theorem turn_of_house {h h' : House} (hs : h.gateway.registry.seat? n = some s)
    (ht : h.turn? n = some h') :
    ∃ work, Stays h'.gateway.registry n ((vigil h s).turn work).seat := by
  have hattend : Stays (h.gateway.attend n).registry n (vigil h s).look.seat :=
    update_stays hs fun s => s.attend h.gateway.clock h.gateway.shutdown
  have looked : (vigil h s).turn none = (vigil h s).look := by
    unfold Vigil.turn
    split <;> rfl
  have ⟨t, hseat, hlook⟩ : ∃ t, (h.gateway.attend n).registry.seat? n = some t ∧
      t.lifetime = (vigil h s).look.seat.lifetime := by
    rcases hattend with hl | hl <;> exact ⟨_, hl, rfl⟩
  unfold House.turn? at ht
  simp only [hs, hseat, Option.bind_eq_bind, Option.bind_some] at ht
  split at ht
  · cases ht
    exact ⟨none, by rw [looked]; exact hattend⟩
  · rename_i hsame
    rw [not_not, hlook] at hsame
    split at ht
    · rename_i a hl
      have hruns : (vigil h s).look.seat.lifetime.runs = true := by rw [hsame, hl]; rfl
      have hbusy : (vigil h s).look.seat = s := look_running (v := vigil h s) hl hruns
      have worked (work : Work) :
          (vigil h s).turn (some work) = (vigil h s).look.work work := if_pos hruns
      split at ht
      · cases ht
        refine ⟨none, ?_⟩
        rw [looked, hbusy]
        exact .inl hs
      · rename_i result _
        cases ht
        refine ⟨some (.ended result), ?_⟩
        rw [worked]
        simp only [Vigil.work, Vigil.become, hbusy]
        exact update_stays hs fun s => s.attempted result
      · rename_i p _ _
        cases hp : p.turn? h.gateway.clock s.terminal.size (h.gateway.perform n) with
        | none =>
          rw [hp] at ht
          cases ht
        | some done =>
          obtain ⟨answer, p', g⟩ := done
          rw [hp] at ht
          cases ht
          obtain ⟨act, rfl⟩ := turn_perform hp
          refine ⟨some (.act act), .inl ?_⟩
          rw [worked]
          simp only [Vigil.work, Vigil.become, hbusy]
          simp only [Gateway.perform, Registry.perform, hs]
          exact seat_set_self hs _
    · cases ht
    · cases ht
    · cases ht

end PodConsole.Proofs.Houses
