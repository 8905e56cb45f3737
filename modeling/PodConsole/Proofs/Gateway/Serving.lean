import PodConsole.Gateway.Service

namespace PodConsole.Proofs.Serving
open Gateway Service

/-- Let in, and not returned. -/
def isUnderWay : Progress → Bool
  | .admitted | .serving => true
  | .returned _ => false

/-- The call has changed the state and has not put it back. -/
def isHolding : Progress → Bool
  | .admitted | .serving | .returned (.error .addressUnknown) => true
  | .returned _ => false

def UnderWay (s : Service) (call : Nat) : Prop :=
  ∃ p, s.progress? call = some p ∧ isUnderWay p = true

def Holds (s : Service) (call : Nat) : Prop :=
  ∃ p, s.progress? call = some p ∧ isHolding p = true

variable {s t : Service} {call other : Nat} {p : Progress}

theorem progress_set (s : Service) (call : Nat) (p : Progress) :
    (s.setProgress call p).progress? call = some p := by
  simp [setProgress, progress?]

theorem progress_set_other (s : Service) (p : Progress) (h : other ≠ call) :
    (s.setProgress call p).progress? other = s.progress? other := by
  have hne : ¬ call = other := fun he => h he.symm
  simp only [setProgress, progress?, List.find?_cons, hne, decide_false, List.find?_filter]
  congr 2
  funext c
  by_cases hc : c.1 = other
  · simp [hc, h]
  · simp [hc]

theorem holds_of_progress (h : s.progress? call = some p) : Holds s call ↔ isHolding p = true := by
  simp [Holds, h]

theorem holds_under_way (h : UnderWay s call) : Holds s call := by
  obtain ⟨p, hp, hu⟩ := h
  cases p with
  | admitted | serving => exact ⟨_, hp, rfl⟩
  | returned r => cases hu

/-- The calls that hold a service are those under way and those that could not read their
address. -/
theorem holds_iff :
    Holds s call ↔ UnderWay s call ∨ s.result? call = some (.error .addressUnknown) := by
  cases hp : s.progress? call with
  | none => simp [Holds, UnderWay, result?, hp]
  | some p =>
    cases p with
    | admitted | serving => simp [Holds, UnderWay, hp, isHolding, isUnderWay]
    | returned r =>
      rcases r with (_ | _ | _ | _ | _) | _ <;>
        simp [Holds, UnderWay, result?, hp, isHolding, isUnderWay]

/-- One call at most holds the service, and the state tells whether one does. -/
structure Kept (s : Service) : Prop where
  alone : ∀ c d, Holds s c → Holds s d → c = d
  stopped : s.state = .stopped ↔ ∀ c, ¬ Holds s c

theorem kept_start : Kept {} where
  alone := by
    rintro c d ⟨p, hp, _⟩
    cases hp
  stopped := by
    refine ⟨fun _ c hc => ?_, fun _ => rfl⟩
    obtain ⟨p, hp, _⟩ := hc
    cases hp

theorem Kept.same (h : Kept s) (hh : ∀ c, Holds t c ↔ Holds s c)
    (hs : t.state = .stopped ↔ s.state = .stopped) : Kept t where
  alone c d hc hd := h.alone c d ((hh c).mp hc) ((hh d).mp hd)
  stopped := by
    rw [hs, h.stopped]
    exact forall_congr' fun c => not_congr (hh c).symm

/-- A call that goes on as it was, as far as the state is concerned. -/
theorem Kept.set (h : Kept s) (hp : Holds s call ↔ isHolding p = true) :
    Kept (s.setProgress call p) := by
  refine h.same (fun c => ?_) Iff.rfl
  by_cases hc : c = call
  · subst hc
    rw [holds_of_progress (progress_set s c p), hp]
  · simp only [Holds, progress_set_other s p hc]

theorem Kept.enter (h : Kept s) (call : Nat) : Kept (s.enter call) := by
  unfold Service.enter
  cases hp : s.progress? call with
  | some p => exact h
  | none =>
    have hn : ¬ Holds s call := by simp [Holds, hp]
    dsimp only
    split
    · rename_i hs
      have hfree := h.stopped.mp hs
      have sole (c : Nat) :
          Holds { s.setProgress call .admitted with state := .running } c ↔ c = call := by
        by_cases hc : c = call
        · subst hc
          exact iff_of_true ⟨.admitted, progress_set s c .admitted, rfl⟩ rfl
        · refine iff_of_false (fun ⟨p, hcp, hh⟩ => hfree c ⟨p, ?_, hh⟩) hc
          exact (progress_set_other s .admitted hc).symm.trans hcp
      refine ⟨fun c d hc hd => ((sole c).mp hc).trans ((sole d).mp hd).symm, ?_⟩
      refine iff_of_false (by simp) fun hall => hall call ((sole call).mpr rfl)
    · exact h.set (iff_of_false hn (by simp [isHolding]))

theorem Kept.address (h : Kept s) (call : Nat) (known : Bool) : Kept (s.address call known) := by
  unfold Service.address
  split
  · rename_i hp
    have hh : Holds s call := ⟨.admitted, hp, rfl⟩
    cases known with
    | true => exact h.set (iff_of_true hh rfl)
    | false => exact h.set (iff_of_true hh rfl)
  · exact h

theorem Kept.finish (h : Kept s) (call : Nat) (well : Bool) : Kept (s.finish call well) := by
  unfold Service.finish
  split
  · rename_i hp
    have hh : Holds s call := ⟨.serving, hp, rfl⟩
    -- the only one that held the service has put the state back
    have free (c : Nat) : ¬ Holds { s.setProgress call
        (.returned (if well then .ok () else .error .server)) with state := .stopped } c := by
      rintro ⟨p, hcp, hph⟩
      by_cases hc : c = call
      · subst hc
        obtain rfl := Option.some.inj ((progress_set s c _).symm.trans hcp)
        cases well <;> cases hph
      · exact hc (h.alone c call ⟨p, (progress_set_other s _ hc).symm.trans hcp, hph⟩ hh)
    exact ⟨fun c d hc => (free c hc).elim, iff_of_true rfl free⟩
  · exact h

theorem Kept.stop (h : Kept s) : Kept s.stop := by
  refine h.same (fun c => Iff.rfl) ?_
  cases hs : s.state <;> simp [Service.stop, hs]

theorem Kept.step (h : Kept s) (e : Event) : Kept (s.step e) := by
  cases e with
  | enter call => exact h.enter call
  | address call known => exact h.address call known
  | finish call well => exact h.finish call well
  | stop => exact h.stop
  | cancel => exact h.same (fun c => Iff.rfl) Iff.rfl

theorem Kept.run (h : Kept s) (events : List Event) : Kept (s.run events) := by
  induction events generalizing s with
  | nil => exact h
  | cons e rest ih => exact ih (h.step e)

/-- A call that has returned has returned for good. -/
theorem step_returned {r : Except ServeError Unit} (h : s.progress? call = some (.returned r))
    (e : Event) : (s.step e).progress? call = some (.returned r) := by
  have keeps {other : Nat} (q : Progress) (ho : s.progress? other ≠ some (.returned r)) :
      (s.setProgress other q).progress? call = some (.returned r) := by
    have hc : call ≠ other := by
      rintro rfl
      exact ho h
    rw [progress_set_other s q hc, h]
  cases e with
  | enter other =>
    simp only [Service.step, Service.enter]
    split
    · exact h
    · rename_i ho
      split <;> exact keeps _ (by simp [ho])
  | address other known =>
    simp only [Service.step, Service.address]
    split
    · rename_i ho
      exact keeps _ (by simp [ho])
    · exact h
  | finish other well =>
    simp only [Service.step, Service.finish]
    split
    · rename_i ho
      exact keeps _ (by simp [ho])
    · exact h
  | stop | cancel => exact h

theorem run_returned {r : Except ServeError Unit} (h : s.progress? call = some (.returned r))
    (events : List Event) : (s.run events).progress? call = some (.returned r) := by
  induction events generalizing s with
  | nil => exact h
  | cons e rest ih => exact ih (step_returned h e)

theorem progress_of_result {r : Except ServeError Unit} (h : s.result? call = some r) :
    s.progress? call = some (.returned r) := by
  unfold result? at h
  split at h
  · rename_i hp
    rw [hp, Option.some.inj h]
  · cases h

/-- What becomes of a call that has not come before. -/
theorem enter_new (h : s.progress? call = none) :
    s.enter call =
      if s.state = .stopped then { s.setProgress call .admitted with state := .running }
      else s.setProgress call (.returned (.error .alreadyRunning)) := by
  rw [Service.enter, h]

/-- One call at most is under way, whatever else is asked of the service. A call that comes while
the state is stopped is let in; any other is refused, and nothing but its refusal changes. The
state is stopped exactly if no call is under way and none has failed to read its own address: every
other return puts the state back, and after that one the state is never stopped again. -/
theorem returns_put_state_back (events : List Event) :
    let s := Service.run {} events
    (∀ c d, UnderWay s c → UnderWay s d → c = d) ∧
    (∀ call, s.progress? call = none →
      (s.state = .stopped → UnderWay (s.enter call) call) ∧
      (s.state ≠ .stopped →
        (s.enter call).result? call = some (.error .alreadyRunning) ∧
        (s.enter call).state = s.state ∧ (s.enter call).shutdown = s.shutdown ∧
        ∀ other, other ≠ call → (s.enter call).progress? other = s.progress? other)) ∧
    (s.state = .stopped ↔
      (∀ c, ¬ UnderWay s c) ∧ ∀ c, s.result? c ≠ some (.error .addressUnknown)) ∧
    (∀ c, s.result? c = some (.error .addressUnknown) →
      ∀ later, (s.run later).state ≠ .stopped) := by
  intro s
  have hk : Kept s := kept_start.run events
  refine ⟨?_, ?_, ?_, ?_⟩
  · intro c d hc hd
    exact hk.alone c d (holds_under_way hc) (holds_under_way hd)
  · intro call hn
    rw [enter_new hn]
    refine ⟨fun hs => ?_, fun hs => ?_⟩
    · rw [if_pos hs]
      exact ⟨.admitted, progress_set s call .admitted, rfl⟩
    · rw [if_neg hs]
      refine ⟨by rw [result?, progress_set], rfl, rfl, fun other ho => ?_⟩
      exact progress_set_other s _ ho
  · rw [hk.stopped, ← forall_and]
    exact forall_congr' fun c => (not_congr holds_iff).trans not_or
  · intro c hc later
    have hr := run_returned (progress_of_result hc) later
    have hh : Holds (s.run later) c := ⟨_, hr, rfl⟩
    exact fun hs => (hk.run later).stopped.mp hs c hh

/-- The only call has returned, and the service refuses every other. -/
theorem unread_address_keeps_state :
    let s := Service.run {} [.enter 0, .address 0 false]
    s.result? 0 = some (.error .addressUnknown) ∧ (∀ c, ¬ UnderWay s c) ∧
    s.state = .running ∧ (s.enter 1).result? 1 = some (.error .alreadyRunning) := by
  refine ⟨rfl, ?_, rfl, rfl⟩
  rintro c ⟨p, hp, hu⟩
  by_cases hc : c = 0
  · subst hc
    cases hp
    cases hu
  · have hn : ¬ 0 = c := fun h => hc h.symm
    simp [Service.run, Service.step, Service.enter, Service.address, setProgress, progress?,
      hn] at hp

end PodConsole.Proofs.Serving
