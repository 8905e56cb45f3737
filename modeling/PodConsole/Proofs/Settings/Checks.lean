import PodConsole.Proofs.Text.Stretches
import PodConsole.Settings.Check

namespace PodConsole.Proofs.Checks
open Settings

variable {s : Settings} {f : Invalid} {n : Nat}

/-- A number that is not zero, and not above a greatest one. -/
def Within (greatest n : Nat) : Prop :=
  1 ≤ n ∧ n ≤ greatest

theorem not_within (greatest n : Nat) : ¬ Within greatest n ↔ n < 1 ∨ greatest < n := by
  unfold Within
  omega

/-- What is wrong with settings, with its place in the order of the checks. -/
def Violates (s : Settings) : Nat → Invalid → Prop
  | 0, f => Address.parse? s.server.listenAddr = none ∧ f = .listenAddr s.server.listenAddr
  | 1, f => s.server.maxMessageBytes = 0 ∧ f = .maxMessageBytes s.server.maxMessageBytes
  | 2, f => ¬ Within 86400 s.session.bindTimeoutSecs ∧
      f = .bindTimeout s.session.bindTimeoutSecs
  | 3, f => ¬ Within 10000 s.session.maxSessions ∧
      f = .maxSessions s.session.maxSessions
  | 4, f => ¬ Within 4096 s.session.resizeQueueCapacity ∧
      f = .queueCapacity "resize_queue_capacity" s.session.resizeQueueCapacity
  | 5, f => ¬ Within 4096 s.session.stdinQueueCapacity ∧
      f = .queueCapacity "stdin_queue_capacity" s.session.stdinQueueCapacity
  | 6, f => Text.trim s.kubectl.binary.toList = [] ∧ f = .kubectlBinary
  | 7, f => (∀ level ∈ logLevels, s.server.logLevel.toList.map Char.toLower ≠ level.toList) ∧
      f = .logLevel s.server.logLevel
  | _, _ => False

/-- The outcome of the checks from one place on: the first that is violated, or none. -/
def FirstFrom (s : Settings) (n : Nat) : Option Invalid → Prop
  | some f => ∃ i, n ≤ i ∧ Violates s i f ∧ ∀ j h, n ≤ j → Violates s j h → i ≤ j
  | none => ∀ j h, n ≤ j → ¬ Violates s j h

theorem first_from_end : FirstFrom s 8 none := by
  rintro (_ | _ | _ | _ | _ | _ | _ | _ | j) h hj
  all_goals first | omega | exact id

/-- One more check before the others. -/
theorem first_from_check {p : Prop} [Decidable p] {rest : Option Invalid}
    (check : ∀ h, Violates s n h ↔ p ∧ h = f) (later : FirstFrom s (n + 1) rest) :
    FirstFrom s n (if p then some f else rest) := by
  by_cases hp : p
  · rw [if_pos hp]
    exact ⟨n, Nat.le_refl n, (check f).mpr ⟨hp, rfl⟩, fun j h hj _ => hj⟩
  · rw [if_neg hp]
    have passed (j : Nat) (h : Invalid) (hj : n ≤ j) (hv : Violates s j h) : n + 1 ≤ j := by
      refine Nat.lt_of_le_of_ne hj ?_
      rintro rfl
      exact hp ((check h).mp hv).1
    cases rest with
    | none => exact fun j h hj hv => later j h (passed j h hj hv) hv
    | some g =>
      obtain ⟨i, hi, hv, hfirst⟩ := later
      exact ⟨i, Nat.le_of_succ_le hi, hv, fun j h hj hv => hfirst j h (passed j h hj hv) hv⟩

theorem is_log_level_iff (text : String) : isLogLevel text = true ↔
    ∃ level ∈ logLevels, text.toList.map Char.toLower = level.toList := by
  simp only [isLogLevel, List.any_eq_true, decide_eq_true_eq]
  exact exists_congr fun level => and_congr_right fun _ => eq_comm

theorem fault_first (s : Settings) : FirstFrom s 0 s.fault? := by
  unfold fault?
  refine first_from_check ?_ (first_from_check ?_ (first_from_check ?_ (first_from_check ?_
    (first_from_check ?_ (first_from_check ?_ (first_from_check ?_ (first_from_check ?_
      first_from_end))))))) <;> intro h
  · rw [Violates, Option.isNone_iff_eq_none]
  · rw [Violates]
    exact and_congr_right fun hzero => by rw [hzero]
  · exact and_congr_left' (not_within longestBindTimeout _)
  · exact and_congr_left' (not_within mostSessions _)
  · exact and_congr_left' (not_within greatestQueue _)
  · exact and_congr_left' (not_within greatestQueue _)
  · exact and_congr_left' (Stretches.trim_eq_nil_iff _)
  · rw [Violates, Bool.not_eq_true', ← Bool.not_eq_true, is_log_level_iff]
    simp only [not_exists, not_and, ne_eq]

/-- Settings without a fault have passed every check. -/
theorem faultless_iff (s : Settings) : s.fault? = none ↔ ∀ i f, ¬ Violates s i f := by
  have hfirst := fault_first s
  cases hf : s.fault? with
  | none =>
    rw [hf] at hfirst
    exact ⟨fun _ i f => hfirst i f (Nat.zero_le i), fun _ => rfl⟩
  | some f =>
    rw [hf] at hfirst
    obtain ⟨i, -, hv, -⟩ := hfirst
    exact ⟨nofun, fun h => (h i f hv).elim⟩

/-- The place of a fault in the order of the checks tells the fault. -/
theorem Violates.unique {i : Nat} {g : Invalid} (h : Violates s i f) (h' : Violates s i g) :
    f = g := by
  match i, h, h' with
  | 0, h, h' | 1, h, h' | 2, h, h' | 3, h, h' | 4, h, h' | 5, h, h' | 6, h, h' | 7, h, h' =>
    exact h.2.trans h'.2.symm

theorem fault_iff (s : Settings) (f : Invalid) : s.fault? = some f ↔
    ∃ i, Violates s i f ∧ ∀ j g, Violates s j g → i ≤ j := by
  have hfirst := fault_first s
  cases hf : s.fault? with
  | none =>
    rw [hf] at hfirst
    refine ⟨nofun, ?_⟩
    rintro ⟨i, hv, -⟩
    exact (hfirst i f (Nat.zero_le i) hv).elim
  | some g =>
    rw [hf] at hfirst
    obtain ⟨i, -, hv, hleast⟩ := hfirst
    constructor
    · rintro h
      cases h
      exact ⟨i, hv, fun j h hj => hleast j h (Nat.zero_le j) hj⟩
    · rintro ⟨j, hj, hleast'⟩
      have hij : i = j := Nat.le_antisymm (hleast j f (Nat.zero_le j) hj) (hleast' i g hv)
      subst hij
      rw [hv.unique hj]

/-- What settings without a fault keep to. -/
structure Checked (s : Settings) : Prop where
  address : ∃ address, Address.parse? s.server.listenAddr = some address
  timeout : Within 86400 s.session.bindTimeoutSecs
  sessions : Within 10000 s.session.maxSessions
  sizes : Within 4096 s.session.resizeQueueCapacity
  keys : Within 4096 s.session.stdinQueueCapacity

theorem checked_of_faultless (h : s.fault? = none) : Checked s where
  address := Option.ne_none_iff_exists'.mp fun hnone =>
    (faultless_iff s).mp h 0 _ ⟨hnone, rfl⟩
  timeout := by_contra fun hout => (faultless_iff s).mp h 2 _ ⟨hout, rfl⟩
  sessions := by_contra fun hout => (faultless_iff s).mp h 3 _ ⟨hout, rfl⟩
  sizes := by_contra fun hout => (faultless_iff s).mp h 4 _ ⟨hout, rfl⟩
  keys := by_contra fun hout => (faultless_iff s).mp h 5 _ ⟨hout, rfl⟩

end PodConsole.Proofs.Checks
