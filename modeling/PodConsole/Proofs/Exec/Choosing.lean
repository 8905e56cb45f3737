import PodConsole.Exec.Attach

namespace PodConsole.Proofs.Choosing
open Exec

/-- Only a shell that is not available is followed by another, the next one. -/
theorem conclude_again {a next : Attachment} {result : Except Failure Unit}
    (h : a.conclude result = .again next) :
    (∃ failure, result = .error failure ∧ failure.isShellUnavailable = true) ∧
      a.later = next.current :: next.later := by
  cases result with
  | ok => cases h
  | error failure =>
    simp only [Attachment.conclude] at h
    split at h
    · rename_i hf
      rw [Bool.and_eq_true] at hf
      refine ⟨⟨failure, rfl, hf.1⟩, ?_⟩
      split at h
      · cases h
      · rename_i hl
        cases h
        exact hl
    · cases h

variable {σ : Type} {exec : Shell → σ → Except Failure Unit × σ} {a : Attachment} {s s' : σ}
  {result : Except Failure Unit}

theorem run_over {r : Except Failure Shell} (he : exec a.current s = (result, s'))
    (h : a.conclude result = .over r) : a.run exec s = (r, s') := by
  rw [Attachment.run]
  split
  rename_i hr
  rw [he] at hr
  cases hr
  split
  · rename_i hr
    rw [h] at hr
    cases hr
    rfl
  · rename_i hr
    rw [h] at hr
    cases hr

theorem run_again {next : Attachment} (he : exec a.current s = (result, s'))
    (h : a.conclude result = .again next) : a.run exec s = next.run exec s' := by
  rw [Attachment.run]
  split
  rename_i hr
  rw [he] at hr
  cases hr
  split
  · rename_i hr
    rw [h] at hr
    cases hr
  · rename_i hr
    rw [h] at hr
    cases hr
    rfl

/-- A shell that was tried, and the answer. -/
abbrev Trial := Shell × Except Failure Unit

def Unavailable (answer : Except Failure Unit) : Prop :=
  ∃ shell, answer = .error (.shellUnavailable shell)

/-- A transport that notes every trial. -/
def noted (exec : Shell → σ → Except Failure Unit × σ) (shell : Shell) (s : σ × List Trial) :
    Except Failure Unit × (σ × List Trial) :=
  let (answer, s') := exec shell s.1
  (answer, s', s.2 ++ [(shell, answer)])

/-- Trials one after the other, each where the one before has left things. -/
inductive Made (exec : Shell → σ → Except Failure Unit × σ) : σ → List Trial → σ → Prop
  | nil (s : σ) : Made exec s [] s
  | cons {s s₁ s₂ : σ} {shell : Shell} {answer : Except Failure Unit} {trials : List Trial} :
      exec shell s = (answer, s₁) → Made exec s₁ trials s₂ →
      Made exec s ((shell, answer) :: trials) s₂

/-- What the last trial comes to. -/
def verdict (offered : List Shell) (shell : Shell) : Except Failure Unit → Except Failure Shell
  | .ok () => .ok shell
  | .error failure =>
    if failure.isShellUnavailable && offered.length > 1 then
      .error (.noShellAvailable (Shell.names offered))
    else .error failure

/-- Trials of some shells in their order: only one that is not available is followed by another,
and then it is. -/
inductive Ends (offered : List Shell) : List Shell → List Trial → Except Failure Shell → Prop
  | last {shell : Shell} {later : List Shell} {answer : Except Failure Unit} :
      (Unavailable answer → later = []) →
      Ends offered (shell :: later) [(shell, answer)] (verdict offered shell answer)
  | next {shell : Shell} {later : List Shell} {answer : Except Failure Unit} {trials : List Trial}
      {result : Except Failure Shell} :
      Unavailable answer → Ends offered later trials result →
      Ends offered (shell :: later) ((shell, answer) :: trials) result

theorem unavailable_iff {failure : Failure} :
    Unavailable (.error failure) ↔ failure.isShellUnavailable = true := by
  cases failure <;> simp [Unavailable, Failure.isShellUnavailable]

/-- A sole candidate has none after it. -/
def Sole (a : Attachment) : Prop :=
  a.offered.length ≤ 1 → a.later = []

theorem conclude_over (ha : Sole a) {r : Except Failure Shell} (h : a.conclude result = .over r) :
    Ends a.offered (a.current :: a.later) [(a.current, result)] r := by
  cases result with
  | ok =>
    cases h
    exact .last fun hu => by simp [Unavailable] at hu
  | error failure =>
    simp only [Attachment.conclude] at h
    split at h
    · rename_i hf
      split at h
      · rename_i hl
        cases h
        have hv : verdict a.offered a.current (.error failure) =
            .error (.noShellAvailable (Shell.names a.offered)) := if_pos hf
        rw [← hv]
        exact .last fun _ => hl
      · cases h
    · rename_i hf
      cases h
      have hv : verdict a.offered a.current (.error failure) = .error failure := if_neg hf
      rw [← hv]
      refine .last fun hu => ha ?_
      rw [unavailable_iff] at hu
      simpa [hu] using hf

theorem conclude_next {next : Attachment} (h : a.conclude result = .again next) :
    next.offered = a.offered ∧ 1 < a.offered.length := by
  cases result with
  | ok => cases h
  | error failure =>
    simp only [Attachment.conclude] at h
    split at h
    · rename_i hf
      split at h
      · cases h
      · cases h
        exact ⟨rfl, by simpa using (Bool.and_eq_true_iff.mp hf).2⟩
    · cases h

/-- The trials of a run are noted behind those before it, and noting them changes nothing else. -/
def Accounted (exec : Shell → σ → Except Failure Unit × σ) (a : Attachment) (s : σ)
    (log : List Trial) : Prop :=
  ∃ trials result s', a.run (noted exec) (s, log) = (result, s', log ++ trials) ∧
    a.run exec s = (result, s') ∧ Made exec s trials s' ∧
    Ends a.offered (a.current :: a.later) trials result

theorem noted_trial (he : exec a.current s = (result, s')) (log : List Trial) :
    noted exec a.current (s, log) = (result, s', log ++ [(a.current, result)]) := by
  simp [noted, he]

theorem accounted_over (ha : Sole a) (he : exec a.current s = (result, s'))
    {r : Except Failure Shell} (hc : a.conclude result = .over r) (log : List Trial) :
    Accounted exec a s log :=
  ⟨[(a.current, result)], r, s', run_over (noted_trial he log) hc, run_over he hc,
    .cons he (.nil s'), conclude_over ha hc⟩

theorem run_noted (exec : Shell → σ → Except Failure Unit × σ) (a : Attachment) (ha : Sole a)
    (s : σ) (log : List Trial) : Accounted exec a s log := by
  -- the candidates that are left become fewer with every trial
  induction hl : a.later generalizing a s log with
  | nil =>
    rcases he : exec a.current s with ⟨answer, s₁⟩
    rcases hc : a.conclude answer with r | next
    · exact accounted_over ha he hc log
    · have hnext := (conclude_again hc).2
      rw [hl] at hnext
      cases hnext
  | cons shell later ih =>
    rcases he : exec a.current s with ⟨answer, s₁⟩
    rcases hc : a.conclude answer with r | next
    · exact accounted_over ha he hc log
    · obtain ⟨⟨failure, rfl, hf⟩, hnext⟩ := conclude_again hc
      obtain ⟨hoffered, hmany⟩ := conclude_next hc
      rw [hl] at hnext
      cases hnext
      have hsole : Sole next := fun hfew => absurd hfew (by rw [hoffered]; omega)
      obtain ⟨trials, r, s', hnoted, hrun, hmade, hends⟩ :=
        ih next hsole s₁ (log ++ [(a.current, .error failure)]) rfl
      refine ⟨(a.current, .error failure) :: trials, r, s', ?_, ?_, .cons he hmade, ?_⟩
      · rw [run_again (noted_trial he log) hc, hnoted, List.append_assoc]
        rfl
      · rw [run_again he hc, hrun]
      · rw [hl, ← hoffered]
        exact .next (unavailable_iff.mpr hf) hends

/-- The last trial decides, and those before it found nothing. -/
theorem Ends.split {offered shells : List Shell} {trials : List Trial}
    {r : Except Failure Shell} (h : Ends offered shells trials r) :
    ∃ before shell answer, trials = before ++ [(shell, answer)] ∧
      (∀ t ∈ before, Unavailable t.2) ∧ trials.map (·.1) <+: shells ∧
      (Unavailable answer → trials.map (·.1) = shells) ∧ r = verdict offered shell answer := by
  induction h with
  | @last shell later answer hlater =>
    refine ⟨[], shell, answer, rfl, nofun, ⟨later, rfl⟩, fun hu => ?_, rfl⟩
    rw [hlater hu]
    rfl
  | @next first later first_answer trials r hu _ ih =>
    obtain ⟨before, shell, answer, rfl, hbefore, hprefix, hall, hr⟩ := ih
    refine ⟨(first, first_answer) :: before, shell, answer, rfl, ?_, ?_, ?_, hr⟩
    · exact List.forall_mem_cons.mpr ⟨hu, hbefore⟩
    · exact List.cons_prefix_cons.mpr ⟨rfl, hprefix⟩
    · intro hanswer
      exact congrArg (first :: ·) (hall hanswer)

theorem of_name_name (shell : Shell) : Shell.ofName? shell.name = some shell := by
  cases shell <;> rfl

theorem of_name_iff {name : String} {shell : Shell} :
    Shell.ofName? name = some shell ↔ name = shell.name := by
  constructor
  · intro h
    have hname := List.find?_some h
    exact (of_decide_eq_true hname).symm
  · rintro rfl
    exact of_name_name shell

theorem candidates_allowed (shell : Shell) : Shell.candidates (some shell.name) = [shell] := by
  simp [Shell.candidates, of_name_name]

theorem candidates_other {hint : Option String} (h : ∀ shell : Shell, hint ≠ some shell.name) :
    Shell.candidates hint = Shell.all := by
  have hnone : hint.bind Shell.ofName? = none := by
    rw [Option.bind_eq_none_iff]
    rintro name rfl
    rw [Option.eq_none_iff_forall_ne_some]
    intro shell hshell
    exact h shell (by rw [of_name_iff.mp hshell])
  simp [Shell.candidates, hnone]

theorem candidates_alone {hint : Option String} {shell : Shell} :
    Shell.candidates hint = [shell] ↔ hint = some shell.name := by
  constructor
  · intro h
    by_cases hallowed : ∃ other : Shell, hint = some other.name
    · obtain ⟨other, rfl⟩ := hallowed
      rw [candidates_allowed] at h
      cases h
      rfl
    · rw [candidates_other (not_exists.mp hallowed)] at h
      cases h
  · rintro rfl
    exact candidates_allowed shell

theorem candidates_nodup (hint : Option String) : (Shell.candidates hint).Nodup := by
  by_cases h : ∃ shell : Shell, hint = some shell.name
  · obtain ⟨shell, rfl⟩ := h
    rw [candidates_allowed]
    simp
  · rw [candidates_other (not_exists.mp h)]
    decide

/-- What is tried at first, and what could be tried after it. -/
theorem start_candidates (hint : Option String) :
    let a := Attachment.start hint
    a.offered = Shell.candidates hint ∧ a.current :: a.later = a.offered := by
  intro a
  by_cases h : ∃ shell : Shell, hint = some shell.name
  · obtain ⟨shell, rfl⟩ := h
    simp [a, Attachment.start, candidates_allowed]
  · simp [a, Attachment.start, candidates_other (not_exists.mp h), Shell.all]

/-- A hint that names an allowed shell makes it the only candidate, and with any other hint all
shells are. The candidates are tried in order, each at most once, up to the first that does not
prove unavailable; a shell that ran is the result, and so is any other failure as it is. Where all
were unavailable, a sole candidate's failure stands, and of several all are named. -/
theorem candidates_are_tried_in_order (exec : Shell → σ → Except Failure Unit × σ)
    (hint : Option String) (s : σ) :
    (∀ shell, Shell.candidates hint = [shell] ↔ hint = some shell.name) ∧
    ((∀ shell : Shell, hint ≠ some shell.name) →
      Shell.candidates hint = [.bash, .sh, .powershell, .cmd]) ∧
    (Shell.candidates hint).Nodup ∧
    ∃ before shell answer result s',
      let trials := before ++ [(shell, answer)]
      attach (noted exec) hint (s, []) = (result, s', trials) ∧
      attach exec hint s = (result, s') ∧ Made exec s trials s' ∧
      trials.map (·.1) <+: Shell.candidates hint ∧
      (∀ t ∈ before, Unavailable t.2) ∧
      (answer = .ok () → result = .ok shell) ∧
      (∀ failure, answer = .error failure → ¬ Unavailable answer → result = .error failure) ∧
      (∀ failure, answer = .error failure → Unavailable answer →
        trials.map (·.1) = Shell.candidates hint ∧
        ((∃ allowed : Shell, hint = some allowed.name) → result = .error failure) ∧
        ((∀ allowed : Shell, hint ≠ some allowed.name) →
          result = .error (.noShellAvailable "bash, sh, powershell, cmd"))) := by
  refine ⟨fun shell => candidates_alone, candidates_other, candidates_nodup hint, ?_⟩
  obtain ⟨hoffered, hcandidates⟩ := start_candidates hint
  have hsole : Sole (Attachment.start hint) := by
    intro hfew
    rw [← hcandidates, List.length_cons] at hfew
    exact List.length_eq_zero_iff.mp (by omega)
  obtain ⟨trials, result, s', hnoted, hrun, hmade, hends⟩ :=
    run_noted exec (Attachment.start hint) hsole s []
  rw [hcandidates, hoffered] at hends
  obtain ⟨before, shell, answer, rfl, hbefore, hprefix, hall, rfl⟩ := hends.split
  refine ⟨before, shell, answer, _, s', hnoted, hrun, hmade, hprefix, hbefore, ?_, ?_, ?_⟩
  · rintro rfl
    rfl
  · rintro failure rfl hother
    rw [unavailable_iff] at hother
    simp [verdict, hother]
  · rintro failure rfl hu
    refine ⟨hall hu, ?_, ?_⟩
    · rintro ⟨allowed, rfl⟩
      simp [verdict, candidates_allowed]
    · intro hnone
      rw [unavailable_iff] at hu
      rw [candidates_other hnone]
      simp only [verdict, hu, Shell.all]
      rfl

end PodConsole.Proofs.Choosing
